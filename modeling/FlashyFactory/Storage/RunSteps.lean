import FlashyFactory.Storage.Invariants

/-! # What one call does to one run

`Ledger.run_step` says of every call which columns of which run it can write: a process id is
recorded and forgotten by two operations, a cancellation is requested by one, and a run is closed
by its worker or, once its owner is gone, by recovery. -/

namespace FlashyFactory

namespace Op

/-- The operations by which a worker closes the run `id`. -/
def closes (id : ℕ) : Op → Bool
  | finishRunAndTask r .. | finishRunAndTaskTerminal r .. | failPrelaunchAndRequeue r _ => r = id
  | _ => false

/-- The run `id` is closed as cancelled. -/
def cancels (id : ℕ) : Op → Bool
  | finishRunAndTask r outcome .. | finishRunAndTaskTerminal r outcome .. =>
    r = id && outcome = .cancelled
  | _ => false

def recovers : Op → Bool
  | recoverOrphanedRuns | recoverOrphanedRunsForRepository _ => true
  | _ => false

/-- What the operation writes to the process id of the run `id`. -/
def process? (id : ℕ) : Op → Option (Option ℕ)
  | observeRun r (some processId) .. => if r = id then some (some processId) else none
  | resetRunRuntimeObservation r => if r = id then some none else none
  | _ => none

end Op

/-- What the operation `op` may make of a run. -/
structure Run.Moves (op : Op) (run run' : Run) : Prop where
  id : run'.id = run.id
  owner : run'.ownerId = run.ownerId
  attempt : run'.recoveryAttempt = run.recoveryAttempt
  process : run'.processId = run.processId ∨ op.process? run.id = some run'.processId
  requested : run'.cancellationRequestedAt = run.cancellationRequestedAt ∨
    op = .requestRunCancellation run.id ∧ run'.cancellationRequestedAt.isSome
  cancelled : run'.outcome = .cancelled →
    run.outcome = .cancelled ∨ run'.cancellationRequestedAt.isSome ∨ op.cancels run.id = true
  closed : run'.outcome = run.outcome ∨ op.closes run.id = true ∨ op.recovers = true

/-- A run as it is claimed by `op`. -/
structure Run.Fresh (op : Op) (run : Run) : Prop where
  running : run.outcome = .running
  process : run.processId = none
  requested : run.cancellationRequestedAt = none
  owner : ∃ available runtimes ownerId ownerPid dirs allowNew, run.ownerId = some ownerId ∧
    op = .claimAndStartRunWithWorkdirsFiltered available runtimes ownerId ownerPid dirs allowNew

namespace Run.Moves

theorem refl (run : Run) : Run.Moves op run run :=
  ⟨rfl, rfl, rfl, .inl rfl, .inl rfl, .inl, .inl rfl⟩

/-- A recovery goes over the runs one after the other. -/
theorem trans (hop : op.recovers = true) {run run' run'' : Run} (h : Run.Moves op run run')
    (h' : Run.Moves op run' run'') : Run.Moves op run run'' := by
  have hrequest : ∀ id, op ≠ .requestRunCancellation id := by
    rintro id rfl
    cases hop
  have hsame : run'.cancellationRequestedAt = run.cancellationRequestedAt :=
    h.requested.resolve_right fun h => hrequest _ h.1
  have hsame' : run''.cancellationRequestedAt = run'.cancellationRequestedAt :=
    h'.requested.resolve_right fun h => hrequest _ h.1
  refine ⟨h'.id.trans h.id, h'.owner.trans h.owner, h'.attempt.trans h.attempt, ?_,
    .inl (hsame'.trans hsame), fun ho => ?_, .inr (.inr hop)⟩
  · rcases h'.process with hp | hp
    · rw [hp]
      exact h.process
    · rw [h.id] at hp
      exact .inr hp
  · rcases h'.cancelled ho with ho | hreq | hcancel
    · rw [hsame']
      exact h.cancelled ho
    · exact .inr (.inl hreq)
    · rw [h.id] at hcancel
      exact .inr (.inr hcancel)

/-- A statement that writes none of the columns. -/
theorem of_same {run run' : Run} (hid : run'.id = run.id) (howner : run'.ownerId = run.ownerId)
    (hattempt : run'.recoveryAttempt = run.recoveryAttempt)
    (hprocess : run'.processId = run.processId ∨ op.process? run.id = some run'.processId)
    (hrequested : run'.cancellationRequestedAt = run.cancellationRequestedAt)
    (houtcome : run'.outcome = run.outcome) : Run.Moves op run run' :=
  ⟨hid, howner, hattempt, hprocess, .inl hrequested, fun h => .inl (houtcome.symm.trans h), .inl houtcome⟩

end Run.Moves

namespace Ledger
variable {l l' : Ledger} {id : ℕ}

/-- The runs of a ledger under the operation `op`. -/
abbrev RunsMove (op : Op) (l l' : Ledger) : Prop :=
  KeyedTable.Grows (Run.Moves op) (Run.Fresh op) l.runs l'.runs

theorem move_of_modify {f : Run → Run} (hf : ∀ run, (f run).id = run.id)
    (hruns : l'.runs = l.runs.modify id p f hf)
    (h : ∀ run, l.runs.get? id = some run → Run.Moves op run (f run)) : RunsMove op l l' := by
  rw [RunsMove, hruns]
  exact .modify hf Run.Moves.refl fun run hr _ => h run hr

theorem updateRunning_move {set : Run → Run} {hset : ∀ run, (set run).id = run.id}
    (h : l.updateRunning id set e hset = .ok (a, l'))
    (hmoves : ∀ run, run.id = id → Run.Moves op run (set run)) : RunsMove op l l' := by
  simp only [updateRunning] at h
  split at h
  · cases h
    exact move_of_modify hset rfl fun run hr => hmoves run (KeyedTable.key_of_get? hr)
  · cases h

theorem requestRunCancellation_move (h : l.requestRunCancellation host id = .ok (a, l')) :
    RunsMove (.requestRunCancellation id) l l' := by
  simp only [requestRunCancellation] at h
  repeat' split at h
  all_goals cases h
  all_goals first
    | exact .refl Run.Moves.refl
    | refine move_of_modify (by exact fun _ => rfl) rfl fun run hr => ?_
      cases KeyedTable.key_of_get? hr
      exact ⟨rfl, rfl, rfl, .inl rfl, .inr ⟨rfl, rfl⟩, .inl, .inl rfl⟩

/-- The outcome that is recorded is the reported one or a requested cancellation. -/
theorem closeOutcome_cases {run : Run} (h : closeOutcome run outcome = .cancelled) :
    run.cancellationRequestedAt.isSome ∨ outcome = .cancelled := by
  simp only [closeOutcome] at h
  split at h
  · next hrequested => exact .inl hrequested
  · exact .inr h

theorem finishRunAndTaskWithRecovery_move
    (h : l.finishRunAndTaskWithRecovery crates host id outcome result error sessionId allow =
      .ok (a, l')) (hcloses : op.closes id = true)
    (hcancels : outcome = .cancelled → op.cancels id = true) : RunsMove op l l' := by
  simp only [finishRunAndTaskWithRecovery] at h
  split at h
  · cases h
  split at h
  · cases h
  next row hrow =>
  have hget : l.runs.get? id = some row := (Option.filter_eq_some_iff.mp hrow).1
  repeat' split at h
  all_goals cases h
  all_goals
    refine move_of_modify (by exact fun _ => rfl) rfl fun run hr => ?_
    cases hget.symm.trans hr
    cases KeyedTable.key_of_get? hr
    refine ⟨rfl, rfl, rfl, .inl rfl, .inl rfl, fun ho => ?_, .inr (.inl hcloses)⟩
    exact .inr ((closeOutcome_cases ho).imp_right hcancels)

theorem failPrelaunchAndRequeue_move
    (h : l.failPrelaunchAndRequeue crates host id error = .ok (a, l')) :
    RunsMove (.failPrelaunchAndRequeue id error') l l' := by
  simp only [failPrelaunchAndRequeue] at h
  repeat' split at h
  all_goals cases h
  all_goals
    refine move_of_modify (by exact fun _ => rfl) rfl fun run hr => ?_
    cases KeyedTable.key_of_get? hr
    exact ⟨rfl, rfl, rfl, .inl rfl, .inl rfl, by simp, .inr (.inl (decide_eq_true rfl))⟩

/-! ## Recovery -/

theorem closeOrphan_move {row : Run} (hop : op.recovers = true) (hget : l.runs.get? row.id = some row) :
    RunsMove op l (l.closeOrphan row now report).2 := by
  have hruns : (l.closeOrphan row now report).2.runs =
      l.runs.modify row.id isRunning (orphanClosed row now) orphanClosed_id := by
    simp only [closeOrphan]
    repeat' split
    all_goals rfl
  refine move_of_modify _ hruns fun run hr => ?_
  cases hget.symm.trans hr
  refine ⟨rfl, rfl, rfl, .inl rfl, .inl rfl, fun ho => ?_, .inr (.inr hop)⟩
  exact .inr ((closeOutcome_cases ho).imp_right fun h => by cases h)

theorem recoverRun_move {row : Run} (hop : op.recovers = true) (hget : l.runs.get? row.id = some row)
    (h : l.recoverRun host repository cutoff now row report = .ok (a, l')) : RunsMove op l l' := by
  simp only [recoverRun] at h
  split at h
  · cases h
    exact .refl Run.Moves.refl
  split at h
  · cases h
    refine move_of_modify (by exact fun _ => rfl) rfl fun run _ => ?_
    exact .of_same rfl rfl rfl (.inl rfl) rfl rfl
  split at h
  · cases h
  · obtain rfl : (l.closeOrphan row now report).2 = l' := congrArg Prod.snd (Except.ok.inj h)
    exact closeOrphan_move hop hget

/-- The loop of a recovery meets every row as the snapshot has it. -/
theorem recoverRuns_move {active : List Run} (hop : op.recovers = true)
    (hsnap : ∀ run ∈ active, l.runs.get? run.id = some run) (hnodup : (active.map Run.id).Nodup)
    (h : recoverRuns host repository cutoff i active report l = .ok (a, l')) : RunsMove op l l' := by
  induction active generalizing i report l with
  | nil =>
    cases h
    exact .refl Run.Moves.refl
  | cons run active ih =>
    obtain ⟨hfresh, hnodup⟩ := List.nodup_cons.mp hnodup
    simp only [recoverRuns] at h
    split at h
    · cases h
    · next hone =>
      have hfirst : RunsMove op l _ := recoverRun_move hop (hsnap run List.mem_cons_self) hone
      refine hfirst.trans (fun _ _ _ => Run.Moves.trans hop) (fun _ _ hf => ?_) (ih (fun r hmem => ?_) hnodup h)
      · obtain ⟨_, _, _, _, _, _, _, rfl⟩ := hf.owner
        cases hop
      · have hne : r.id ≠ run.id := fun heq => hfresh (heq ▸ List.mem_map_of_mem hmem)
        rw [recoverRun_get? hone hne]
        exact hsnap r (List.mem_cons_of_mem _ hmem)

theorem recoverOrphanedRunsMatching_move (hop : op.recovers = true)
    (h : l.recoverOrphanedRunsMatching host repository = .ok (a, l')) : RunsMove op l l' :=
  recoverRuns_move hop (fun _ hr => KeyedTable.get?_of_mem (mem_activeRuns.mp hr).1) nodup_activeRuns h

/-! ## Every call -/

theorem claimAndStartRun_move
    (h : l.claimAndStartRunWithWorkdirsFiltered crates host available runtimes ownerId ownerPid dirs
      allowNew = .ok (a, l')) :
    RunsMove (.claimAndStartRunWithWorkdirsFiltered available runtimes ownerId ownerPid dirs allowNew)
      l l' := by
  simp only [claimAndStartRunWithWorkdirsFiltered, startClaimedRun] at h
  repeat' split at h
  all_goals cases h
  all_goals first
    | exact .refl Run.Moves.refl
    | refine ⟨fun {i run} hr => ?_, fun {i run} hn hr => ?_⟩
      · have hi : i ≠ l.runs.nextId := by
          rintro rfl
          simp at hr
        exact ⟨run, by rw [KeyedTable.get?_insertNext, if_neg hi, hr], .refl run⟩
      · rw [KeyedTable.get?_insertNext] at hr
        split at hr
        · cases hr
          exact ⟨rfl, rfl, rfl, _, _, _, _, _, _, rfl, rfl⟩
        · rw [hn] at hr
          cases hr

/-- **What a call does to the runs.** -/
theorem run_step (crates : Crates) (l : Ledger) (c : Call) : RunsMove c.op l (l.step crates c) := by
  by_cases hwrites : .runs ∈ c.op.writes
  · obtain ⟨host, op⟩ := c
    have hrefl : RunsMove op l l := .refl Run.Moves.refl
    cases op with
    | claimAndStartRunWithWorkdirsFiltered available runtimes ownerId ownerPid dirs allowNew =>
      exact LedgerResult.ledger_of hrefl fun _ _ h => claimAndStartRun_move h
    | setRunAgentProfile runId profile model reasoningEffort serviceTier =>
      refine LedgerResult.ledger_of hrefl fun _ _ h => ?_
      simp only [setRunAgentProfile] at h
      split at h
      · cases h
      · exact updateRunning_move h fun _ _ => .of_same rfl rfl rfl (.inl rfl) rfl rfl
    | recordRunWorkspace runId dir baseBranch baseSha factoryBranch kind =>
      exact LedgerResult.ledger_of hrefl fun _ _ h =>
        updateRunning_move h fun _ _ => .of_same rfl rfl rfl (.inl rfl) rfl rfl
    | observeRun id processId processIdentity sessionId pullRequest activity =>
      refine LedgerResult.ledger_of hrefl fun _ _ h => ?_
      simp only [observeRun] at h
      split at h
      · cases h
      · refine updateRunning_move h fun run hid => .of_same rfl rfl rfl ?_ rfl rfl
        cases processId with
        | none => exact .inl rfl
        | some pid => exact .inr (by simp [Op.process?, hid])
    | resetRunRuntimeObservation id =>
      refine LedgerResult.ledger_of hrefl fun _ _ h => ?_
      refine updateRunning_move h fun run hid => .of_same rfl rfl rfl (.inr ?_) rfl rfl
      simp [Op.process?, hid]
    | requestRunCancellation id =>
      exact LedgerResult.ledger_of hrefl fun _ _ h => requestRunCancellation_move h
    | finishRunAndTask id outcome result error sessionId =>
      refine LedgerResult.ledger_of hrefl fun _ _ h => finishRunAndTaskWithRecovery_move h ?_ fun ho => ?_
      · exact decide_eq_true rfl
      · simp [Op.cancels, ho]
    | finishRunAndTaskTerminal id outcome result error sessionId =>
      refine LedgerResult.ledger_of hrefl fun _ _ h => finishRunAndTaskWithRecovery_move h ?_ fun ho => ?_
      · exact decide_eq_true rfl
      · simp [Op.cancels, ho]
    | failPrelaunchAndRequeue id error =>
      exact LedgerResult.ledger_of hrefl fun _ _ h => failPrelaunchAndRequeue_move h
    | recoverOrphanedRuns =>
      exact LedgerResult.ledger_of hrefl fun _ _ h => recoverOrphanedRunsMatching_move rfl h
    | recoverOrphanedRunsForRepository repository =>
      refine LedgerResult.ledger_of hrefl fun _ _ h => ?_
      simp only [recoverOrphanedRunsForRepository] at h
      split at h
      · cases h
      · exact recoverOrphanedRunsMatching_move rfl h
    | _ => simp [Op.writes] at hwrites
  · exact .of_eq Run.Moves.refl ((step_changes crates l c).frame _ hwrites)

/-! ## Recovery passes by the runs of a live owner -/

theorem recoverRun_kept {run row : Run} (hrow : l.runs.get? id = some row)
    (hlive : l.ownerIsLive host row cutoff = true) (hget : l.runs.get? run.id = some run)
    (h : l.recoverRun host repository cutoff now run report = .ok (a, l')) :
    l'.runs.get? id = some row := by
  by_cases hid : id = run.id
  · subst hid
    cases hget.symm.trans hrow
    simp only [recoverRun, hlive, if_true] at h
    cases h
    exact hrow
  · rw [recoverRun_get? h hid, hrow]

theorem recoverRun_owners (h : l.recoverRun host repository cutoff now run report = .ok (a, l')) :
    l'.daemonOwners = l.daemonOwners :=
  (recoverRun_changes h).frame .daemonOwners (by decide)

theorem recoverRuns_kept {active : List Run} {row : Run} (hrow : l.runs.get? id = some row)
    (hlive : l.ownerIsLive host row cutoff = true)
    (hsnap : ∀ run ∈ active, l.runs.get? run.id = some run) (hnodup : (active.map Run.id).Nodup)
    (h : recoverRuns host repository cutoff i active report l = .ok (a, l')) :
    l'.runs.get? id = some row := by
  induction active generalizing i report l with
  | nil =>
    cases h
    exact hrow
  | cons run active ih =>
    obtain ⟨hfresh, hnodup⟩ := List.nodup_cons.mp hnodup
    simp only [recoverRuns] at h
    split at h
    · cases h
    · next hone =>
      refine ih (recoverRun_kept hrow hlive (hsnap run List.mem_cons_self) hone) ?_ (fun r hmem => ?_)
        hnodup h
      · simpa only [ownerIsLive, ownerHasLease, recoverRun_owners hone] using hlive
      · have hne : r.id ≠ run.id := fun heq => hfresh (heq ▸ List.mem_map_of_mem hmem)
        rw [recoverRun_get? hone hne]
        exact hsnap r (List.mem_cons_of_mem _ hmem)

/-- The owner of the run holds its lease when the call is made. -/
def OwnerLiveAt (l : Ledger) (host : Host) (run : Run) : Prop :=
  l.ownerIsLive host run (host.nowMillis 0 - daemonOwnerLeaseMillis) = true

/-- **A run whose owner is live stays running** under every call but those that close it. -/
theorem running_step_of_live {row : Run} (crates : Crates) (hrow : l.runs.get? id = some row)
    (ho : row.outcome = .running) (hlive : l.OwnerLiveAt c.host row) (hcloses : c.op.closes id = false) :
    ∃ row', (l.step crates c).runs.get? id = some row' ∧ row'.outcome = .running := by
  obtain ⟨host, op⟩ := c
  have hsnap : ∀ run ∈ l.activeRuns, l.runs.get? run.id = some run := fun _ hr =>
    KeyedTable.get?_of_mem (mem_activeRuns.mp hr).1
  have hmatching : ∀ {repository a l'}, l.recoverOrphanedRunsMatching host repository = .ok (a, l') →
      ∃ row', l'.runs.get? id = some row' ∧ row'.outcome = .running := fun h =>
    ⟨row, recoverRuns_kept hrow hlive hsnap nodup_activeRuns h, ho⟩
  cases hrecovers : op.recovers with
  | false =>
    obtain ⟨row', hrow', hmoves⟩ := (run_step crates l ⟨host, op⟩).kept hrow
    rw [← KeyedTable.key_of_get? hrow] at hcloses
    refine ⟨row', hrow', ?_⟩
    rcases hmoves.closed with h | h | h
    · exact h.trans ho
    · rw [hcloses] at h
      cases h
    · rw [hrecovers] at h
      cases h
  | true =>
    have hkept : ∃ row', l.runs.get? id = some row' ∧ row'.outcome = .running := ⟨row, hrow, ho⟩
    cases op with
    | recoverOrphanedRuns =>
      exact LedgerResult.ledger_of (P := fun l' => ∃ row', l'.runs.get? id = some row' ∧
        row'.outcome = .running) hkept fun _ _ h => hmatching h
    | recoverOrphanedRunsForRepository repository =>
      refine LedgerResult.ledger_of (P := fun l' => ∃ row', l'.runs.get? id = some row' ∧
        row'.outcome = .running) hkept fun _ _ h => ?_
      simp only [recoverOrphanedRunsForRepository] at h
      split at h
      · cases h
      · exact hmatching h
    | _ => cases hrecovers

end Ledger
end FlashyFactory
