import FlashyFactory.Storage.Rows

/-! # Retained delivery workspaces

A reservation counts the delivery workspaces that are not cleaned and refuses the eleventh. The
update of a state does not count: it may take a cleaned row back, and then only the unique indexes
stand in its way. -/

namespace FlashyFactory
namespace Ledger
variable {l l' : Ledger}

def retainedDeliveries (l : Ledger) : ℕ := l.taskWorkspaces.rows.countP isRetainedDelivery

/-- Rows that are not cleaned share neither a path nor a branch. -/
def WorkspacesApart (l : Ledger) : Prop :=
  ∀ a ∈ l.taskWorkspaces, ∀ b ∈ l.taskWorkspaces, a.state ≠ .cleaned → conflictsWith a b = true →
    a = b

theorem conflictsWith_iff {a b : TaskWorkspace} : conflictsWith a b = true ↔
    b.state ≠ .cleaned ∧ (b.path = a.path ∨ a.factoryBranch.isSome ∧ b.factoryBranch = a.factoryBranch) := by
  simp [conflictsWith]

theorem conflictsWith_symm {a b : TaskWorkspace} (ha : a.state ≠ .cleaned)
    (h : conflictsWith a b = true) : conflictsWith b a = true := by
  obtain ⟨-, hpath | ⟨hsome, hbranch⟩⟩ := conflictsWith_iff.mp h
  · exact conflictsWith_iff.mpr ⟨ha, .inl hpath.symm⟩
  · exact conflictsWith_iff.mpr ⟨ha, .inr ⟨hbranch ▸ hsome, hbranch.symm⟩⟩

/-- What a successful reservation does. -/
theorem reserveTaskWorkspace_cases (h : l.reserveTaskWorkspace host workspace = .ok (a, l')) :
    l' = l ∨ ∃ hfree : ∀ row ∈ l.taskWorkspaces, row.taskId ≠ workspace.taskId,
      ¬ (workspace.kind = .delivery ∧ 10 ≤ l.retainedDeliveries) ∧
      l.taskWorkspaces.rows.any (conflictsWith workspace) = false ∧
      l'.taskWorkspaces = l.taskWorkspaces.insert (reservation workspace (host.nowMillis 0)) hfree := by
  simp only [reserveTaskWorkspace] at h
  split at h
  · split at h <;> cases h
    exact .inl rfl
  · next hnone =>
    split at h
    · cases h
    · next hcap =>
      split at h
      · cases h
      · next hconflict =>
        simp only [Bool.or_eq_true, not_or, Bool.not_eq_true] at hconflict
        split at h <;> cases h
        refine .inr ⟨KeyedTable.get?_eq_none.mp hnone, ?_, hconflict.2, rfl⟩
        simpa [retainedDeliveries] using hcap

/-- The row after an update. -/
def withState (state : WorkspaceState) (summary : Option String) (now : ℤ) (row : TaskWorkspace) :
    TaskWorkspace :=
  { row with
    state := state, statusSummary := summary, updatedAt := now
    cleanedAt := if state = .cleaned then some now else row.cleanedAt }

/-- What a successful update does. -/
theorem updateTaskWorkspaceState_cases
    (h : l.updateTaskWorkspaceState host taskId text summary = .ok (a, l')) :
    ∃ state row, WorkspaceState.ofStr? text = some state ∧ l.taskWorkspaces.get? taskId = some row ∧
      ¬ (state ≠ .cleaned ∧ l.superseded row = true) ∧
      l'.taskWorkspaces = l.taskWorkspaces.modify taskId (fun _ => true)
        (withState state summary (host.nowMillis 0)) fun _ => rfl := by
  simp only [updateTaskWorkspaceState] at h
  split at h
  · cases h
  · next state hstate =>
    split at h
    · cases h
    · next row hrow =>
      split at h
      · cases h
      · next hfree =>
        cases h
        exact ⟨state, row, hstate, hrow, by simpa using hfree, rfl⟩

/-- **What a call does to the workspaces.** -/
inductive WorkspaceStep (l : Ledger) (c : Call) (t : KeyedTable TaskWorkspace.taskId) : Prop
  | same (h : t = l.taskWorkspaces)
  | reserve (workspace : TaskWorkspace) (now : ℤ) (hop : c.op = .reserveTaskWorkspace workspace)
    (hfree : ∀ row ∈ l.taskWorkspaces, row.taskId ≠ (reservation workspace now).taskId)
    (hcap : ¬ (workspace.kind = .delivery ∧ 10 ≤ l.retainedDeliveries))
    (hapart : l.taskWorkspaces.rows.any (conflictsWith workspace) = false)
    (h : t = l.taskWorkspaces.insert (reservation workspace now) hfree)
  | update (taskId : ℕ) (text : String) (summary : Option String) (now : ℤ) (state : WorkspaceState)
    (row : TaskWorkspace) (hop : c.op = .updateTaskWorkspaceState taskId text summary)
    (hstate : WorkspaceState.ofStr? text = some state) (hrow : l.taskWorkspaces.get? taskId = some row)
    (hfree : ¬ (state ≠ .cleaned ∧ l.superseded row = true))
    (h : t = l.taskWorkspaces.modify taskId (fun _ => true) (withState state summary now) fun _ => rfl)

theorem workspaceStep (crates : Crates) (l : Ledger) (c : Call) :
    WorkspaceStep l c (l.step crates c).taskWorkspaces := by
  by_cases hwrites : .taskWorkspaces ∉ c.op.writes
  · exact .same ((step_changes crates l c).frame _ hwrites)
  · obtain ⟨host, op⟩ := c
    cases op with
    | reserveTaskWorkspace workspace =>
      refine LedgerResult.ledger_of (P := fun l' => WorkspaceStep l _ l'.taskWorkspaces) (.same rfl) ?_
      intro a l' h
      rcases reserveTaskWorkspace_cases h with rfl | ⟨hfree, hcap, hapart, htable⟩
      · exact .same rfl
      · exact .reserve workspace _ rfl hfree hcap hapart htable
    | updateTaskWorkspaceState taskId text summary =>
      refine LedgerResult.ledger_of (P := fun l' => WorkspaceStep l _ l'.taskWorkspaces) (.same rfl) ?_
      intro a l' h
      obtain ⟨state, row, hstate, hrow, hfree, htable⟩ := updateTaskWorkspaceState_cases h
      exact .update taskId text summary _ state row rfl hstate hrow hfree htable
    | _ => simp [Op.writes] at hwrites

theorem WorkspacesApart.step (h : l.WorkspacesApart) (crates : Crates) (c : Call) :
    (l.step crates c).WorkspacesApart := by
  unfold WorkspacesApart
  cases workspaceStep crates l c with
  | same htable => rwa [htable]
  | reserve workspace now _ hfree _ hapart htable =>
    rw [htable]
    have hnone : ∀ row ∈ l.taskWorkspaces, ¬ conflictsWith (reservation workspace now) row = true := by
      intro row hrow hconflict
      exact List.any_eq_false.mp hapart row hrow hconflict
    intro a ha b hb hlive hconflict
    rcases KeyedTable.mem_insert.mp ha with ha | rfl
    · rcases KeyedTable.mem_insert.mp hb with hb | rfl
      · exact h a ha b hb hlive hconflict
      · exact absurd (conflictsWith_symm hlive hconflict) (hnone a ha)
    · rcases KeyedTable.mem_insert.mp hb with hb | rfl
      · exact absurd hconflict (hnone b hb)
      · rfl
  | update taskId text summary now state row _ _ hrow hfree htable =>
    rw [htable]
    have hmem := KeyedTable.mem_of_get? hrow
    -- the updated row conflicts with no other row
    have hnone : ∀ b ∈ l.taskWorkspaces, b.taskId ≠ taskId → state ≠ .cleaned →
        ¬ conflictsWith (withState state summary now row) b = true := by
      intro b hb hother hlive hconflict
      have hconflict : conflictsWith row b = true := hconflict
      by_cases hcleaned : row.state = .cleaned
      · refine hfree ⟨hlive, ?_⟩
        simp only [superseded, hcleaned, decide_true, Bool.true_and]
        exact List.any_eq_true.mpr ⟨b, hb, hconflict⟩
      · have heq := h row hmem b hb hcleaned hconflict
        exact hother (heq ▸ KeyedTable.key_of_get? hrow)
    have hcases : ∀ a ∈ l.taskWorkspaces.modify taskId (fun _ => true) (withState state summary now)
        fun _ => rfl, a ∈ l.taskWorkspaces ∧ a.taskId ≠ taskId ∨ a = withState state summary now row := by
      intro a ha
      rcases KeyedTable.mem_modify ha with ⟨ha, hother⟩ | ⟨s, hs, hkey, -, rfl⟩
      · exact .inl ⟨ha, fun hid => hother ⟨hid, rfl⟩⟩
      · rw [KeyedTable.eq_of_key_eq hs hmem (hkey.trans (KeyedTable.key_of_get? hrow).symm)]
        exact .inr rfl
    intro a ha b hb hlive hconflict
    rcases hcases a ha with ⟨ha, hida⟩ | rfl
    · rcases hcases b hb with ⟨hb, -⟩ | rfl
      · exact h a ha b hb hlive hconflict
      · have hstate : state ≠ .cleaned := (conflictsWith_iff.mp hconflict).1
        exact absurd (conflictsWith_symm hlive hconflict) (hnone a ha hida hstate)
    · rcases hcases b hb with ⟨hb, hidb⟩ | rfl
      · exact absurd hconflict (hnone b hb hidb hlive)
      · rfl

theorem WorkspacesApart.runCalls (h : l.WorkspacesApart) (crates : Crates) (calls : List Call) :
    (l.runCalls crates calls).WorkspacesApart :=
  Transition.run_invariant (fun _ c h => h.step crates c) h calls

/-- An update takes a cleaned delivery workspace back while ten others are retained. -/
def overfills (l : Ledger) (c : Call) : Bool :=
  match c.op with
  | .updateTaskWorkspaceState taskId state _ =>
    10 ≤ l.retainedDeliveries && (WorkspaceState.ofStr? state).any (· ≠ .cleaned) &&
      l.taskWorkspaces.hits taskId fun row =>
        row.kind = .delivery && row.state = .cleaned && !l.superseded row
  | _ => false

theorem isRetainedDelivery_reservation {workspace : TaskWorkspace} :
    isRetainedDelivery (reservation workspace now) = decide (workspace.kind = .delivery) := by
  unfold isRetainedDelivery reservation
  cases workspace.kind <;> rfl

theorem isRetainedDelivery_withState {row : TaskWorkspace} :
    isRetainedDelivery (withState state summary now row) =
      (decide (row.kind = .delivery) && decide (state ≠ .cleaned)) := rfl

/-- The count after an update of the state. -/
theorem retained_modify (hrow : l.taskWorkspaces.get? taskId = some row)
    (htable : l'.taskWorkspaces = l.taskWorkspaces.modify taskId (fun _ => true)
      (withState state summary now) fun _ => rfl) :
    l'.retainedDeliveries + (if isRetainedDelivery row then 1 else 0) = l.retainedDeliveries +
      if row.kind = .delivery ∧ state ≠ .cleaned then 1 else 0 := by
  have hcount : (l.taskWorkspaces.modify taskId (fun _ => true) (withState state summary now)
      fun _ => rfl).rows.countP isRetainedDelivery + (if isRetainedDelivery row then 1 else 0) =
        l.retainedDeliveries + if isRetainedDelivery (withState state summary now row) then 1 else 0 :=
    KeyedTable.countP_modify_add isRetainedDelivery hrow rfl
  rw [retainedDeliveries, htable, hcount, isRetainedDelivery_withState]
  simp

/-- A call that overfills is not refused. -/
theorem retained_of_overfills (crates : Crates) (c : Call) (h : l.overfills c = true) :
    (l.step crates c).retainedDeliveries = l.retainedDeliveries + 1 := by
  obtain ⟨host, op⟩ := c
  cases op with
  | updateTaskWorkspaceState taskId text summary =>
    simp only [overfills, Bool.and_eq_true, decide_eq_true_eq, KeyedTable.hits_iff, Option.any_eq_true,
      Bool.not_eq_true'] at h
    obtain ⟨⟨-, state, hstate, hlive⟩, row, hrow, ⟨hkind, hcleaned⟩, hfree⟩ := h
    have hupdate : l.updateTaskWorkspaceState host taskId text summary = .ok ((), { l with
        taskWorkspaces := l.taskWorkspaces.modify taskId (fun _ => true)
          (withState state summary (host.nowMillis 0)) fun _ => rfl }) := by
      simp only [updateTaskWorkspaceState, hstate, hrow, hfree, Bool.and_false]
      rfl
    have htable : (l.step crates ⟨host, .updateTaskWorkspaceState taskId text
        summary⟩).taskWorkspaces = l.taskWorkspaces.modify taskId (fun _ => true)
          (withState state summary (host.nowMillis 0)) fun _ => rfl := by
      simp only [step, perform, hupdate, LedgerResult.ledger]
    have hcount := retained_modify hrow htable
    have hold : isRetainedDelivery row = false := by simp [isRetainedDelivery, hcleaned]
    simpa only [hold, Bool.false_eq_true, if_false, if_pos (And.intro hkind hlive), Nat.add_zero] using
      hcount
  | _ => simp [overfills] at h

/-- Any other call keeps the bound. -/
theorem retained_of_not_overfills (hcap : l.retainedDeliveries ≤ 10) (crates : Crates) (c : Call)
    (h : ¬ l.overfills c = true) : (l.step crates c).retainedDeliveries ≤ 10 := by
  cases workspaceStep crates l c with
  | same htable => rwa [retainedDeliveries, htable]
  | reserve workspace now hop hfree hbelow _ htable =>
    rw [retainedDeliveries, htable, KeyedTable.countP_insert, isRetainedDelivery_reservation]
    by_cases hkind : workspace.kind = .delivery
    · have hlt : ¬ 10 ≤ l.retainedDeliveries := fun hfull => hbelow ⟨hkind, hfull⟩
      simp only [hkind, decide_true, if_true]
      exact Nat.lt_of_not_le hlt
    · simpa [hkind, retainedDeliveries] using hcap
  | update taskId text summary now state row hop hstate hrow hfree htable =>
    have hcount := retained_modify hrow htable
    by_cases hnew : row.kind = .delivery ∧ state ≠ .cleaned
    · by_cases hold : isRetainedDelivery row = true
      · simp only [hold, if_pos hnew, if_true] at hcount
        omega
      · have hcleaned : row.state = .cleaned := by simpa [isRetainedDelivery, hnew.1] using hold
        have hbelow : ¬ 10 ≤ l.retainedDeliveries := by
          intro hfull
          have hadmitted : ¬ l.superseded row = true := fun hs => hfree ⟨hnew.2, hs⟩
          refine h ?_
          simp [overfills, hop, hfull, hstate, hnew.2, KeyedTable.hits, hrow, hnew.1, hcleaned,
            hadmitted]
        simp only [hold, if_pos hnew] at hcount
        simp only [Bool.false_eq_true, if_false] at hcount
        omega
    · rw [if_neg hnew] at hcount
      omega

/-- How the workspaces of a run of calls are kept. -/
structure WorkspacesRetained (crates : Crates) (l : Ledger) (calls : List Call) : Prop where
  /-- At most ten delivery workspaces are not cleaned. -/
  cap : ∀ before late, calls = before ++ late → (l.runCalls crates before).retainedDeliveries ≤ 10
  /-- Two workspaces that are not cleaned share neither a path nor a branch. -/
  apart : ∀ before late, calls = before ++ late → (l.runCalls crates before).WorkspacesApart
  /-- The facts of a reservation never change. -/
  facts : ∀ before between late, calls = before ++ between ++ late → ∀ taskId row,
    (l.runCalls crates before).taskWorkspaces.get? taskId = some row →
      ∃ row', (l.runCalls crates (before ++ between)).taskWorkspaces.get? taskId = some row' ∧
        workspaceFacts row' = workspaceFacts row
  /-- A reservation that fails changes nothing. -/
  rollback : ∀ before c late workspace, calls = before ++ c :: late →
    c.op = .reserveTaskWorkspace workspace → (l.runCalls crates before).failure? crates c ≠ none →
      l.runCalls crates (before ++ [c]) = l.runCalls crates before

/-- A failed call leaves the ledger as it was. -/
theorem step_of_failure (h : l.failure? crates ⟨host, .reserveTaskWorkspace workspace⟩ ≠ none) :
    l.step crates ⟨host, .reserveTaskWorkspace workspace⟩ = l := by
  simp only [failure?, perform, LedgerResult.error?] at h
  simp only [step, perform]
  split at h
  · exact absurd rfl h
  · next e he => rw [he, LedgerResult.ledger_error]

theorem runCalls_append : l.runCalls crates (calls ++ calls') =
    (l.runCalls crates calls).runCalls crates calls' := Transition.run_append

/-- **The ten workspaces are kept exactly if no update overfills them.** -/
theorem workspaces_retained_iff (crates : Crates) (l : Ledger) (calls : List Call) :
    WorkspacesRetained crates { l with taskWorkspaces := ∅ } calls ↔
      Meets crates (fun l c => ¬ l.overfills c = true) { l with taskWorkspaces := ∅ } calls := by
  constructor
  · intro h
    refine Transition.meets_iff.mpr fun before c late hcalls hover => ?_
    have hcap := h.cap (before ++ [c]) late (by rw [hcalls, List.append_assoc]; rfl)
    have hfull : 10 ≤ (runCalls crates { l with taskWorkspaces := ∅ } before).retainedDeliveries := by
      unfold overfills at hover
      split at hover
      · simp only [Bool.and_eq_true, decide_eq_true_eq] at hover
        exact hover.1.1
      · cases hover
    rw [runCalls_append] at hcap
    have hone : (runCalls crates (runCalls crates { l with taskWorkspaces := ∅ } before)
        [c]).retainedDeliveries =
          (runCalls crates { l with taskWorkspaces := ∅ } before).retainedDeliveries + 1 :=
      retained_of_overfills crates c hover
    omega
  · intro hmeets
    refine ⟨?_, ?_, ?_, ?_⟩
    · rintro before late rfl
      refine (Transition.Meets.append.mp hmeets).1.invariant (P := fun l => l.retainedDeliveries ≤ 10)
        (fun l c hcap h => retained_of_not_overfills hcap crates c h) ?_
      exact Nat.zero_le _
    · intro before late _
      refine WorkspacesApart.runCalls ?_ crates before
      intro a ha
      cases ha
    · intro before between late _ taskId row hrow
      rw [runCalls_append]
      exact (runCalls_changes crates _ between).workspaces taskId row hrow
    · rintro before ⟨host, op⟩ late workspace _ rfl hfailure
      rw [runCalls_append]
      exact step_of_failure hfailure

/-- Eleven tasks of one repository. -/
def elevenTasks : Ledger := Ledger.empty.runCalls exampleCrates (exampleCalls
  ((List.range 11).map fun n => .enqueueWithPayload
    (.ticket "acme/site" "implement" (String.ofList (List.replicate (n + 1) '1')) "r1") none))

/-- A reservation of a directory of its own. -/
def ownDirectory (taskId : ℕ) : Op :=
  .reserveTaskWorkspace { exampleWorkspace taskId with
    factoryBranch := none, path := String.ofList (List.replicate taskId 'w') }

/-- Ten workspaces are reserved, one is cleaned, an eleventh takes its place and the first one comes
back. -/
def eleventh : List Call := exampleCalls ((List.range 10).map (fun n => ownDirectory (n + 1)) ++
  [.updateTaskWorkspaceState 1 "cleaned" none, ownDirectory 11,
    .updateTaskWorkspaceState 1 "retained" none])

set_option maxRecDepth 20000 in
theorem workspaces_not_retained : ¬ ∀ (crates : Crates) (l : Ledger) (calls : List Call),
    WorkspacesRetained crates { l with taskWorkspaces := ∅ } calls := by
  intro h
  have hcap := (h exampleCrates elevenTasks eleventh).cap eleventh [] (List.append_nil _).symm
  revert hcap
  decide

end Ledger
end FlashyFactory
