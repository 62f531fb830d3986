import FlashyFactory.Daemon.Progress
import FlashyFactory.Sandbox.Effects

/-! # What holds while workers run

`Custody` relates the engine to what the workers know of their runs. A run has one worker at
most, only its worker and its monitor write its process id, and the channel holds the process
group that is on record. -/

namespace FlashyFactory
open Process

namespace Ledger
variable {l : Ledger}

theorem resetRunRuntimeObservation_none {run : Run}
    (h : l.failure? crates ⟨host, .resetRunRuntimeObservation r⟩ = none)
    (hr : (l.step crates ⟨host, .resetRunRuntimeObservation r⟩).runs.get? r = some run) :
    run.processId = none := by
  revert h hr
  simp only [failure?, step, perform, resetRunRuntimeObservation, updateRunning]
  split
  · next hits =>
    obtain ⟨row, hrow, hp⟩ := KeyedTable.hits_iff.mp hits
    simp only [LedgerResult.ledger, KeyedTable.get?_modify_self hrow hp]
    rintro - ⟨⟩
    rfl
  · intro h
    cases h

theorem observeRun_some {run : Run}
    (h : l.failure? crates ⟨host, .observeRun r (some processId) identity session pr activity⟩ = none)
    (hr : (l.step crates ⟨host, .observeRun r (some processId) identity session pr activity⟩).runs.get? r =
      some run) : run.processId = some processId := by
  revert h hr
  simp only [failure?, step, perform, observeRun, updateRunning]
  split
  · intro h
    cases h
  split
  · next hits =>
    obtain ⟨row, hrow, hp⟩ := KeyedTable.hits_iff.mp hits
    simp only [LedgerResult.ledger, KeyedTable.get?_modify_self hrow hp]
    rintro - ⟨⟩
    rfl
  · intro h
    cases h

end Ledger

/-- Only the commands that write to the ledger change it. -/
theorem World.exec_ledger (crates : Crates) (w : World) (p : ℕ) (o : Choice) (hc : ∀ op, c ≠ .write op) :
    (w.exec crates p c o).2.ledger = w.ledger := by
  have hsettle : ∀ {α : Type} {refusal : Option String} {v : α} {after : World},
      after.ledger = w.ledger → (w.settle o refusal v after).2.ledger = w.ledger := by
    intro α refusal v after h
    rcases w.settle_or o refusal after v with h' | ⟨h', -⟩
    · rw [h']
    · rw [h', h]
  cases c with
  | write op => exact (hc op rfl).elim
  | observation => rfl
  | reset clone =>
    refine hsettle ?_
    simp only [resetClone]
    split <;> rfl
  | _ => exact hsettle rfl

namespace Engine
variable {E E' : Engine} {r p q : ℕ} {job job' : Launch} {m m' : Progress}

/-! ## The step of a worker -/

theorem settle_self (v : α) : (E.settle o v E).2 = E := by
  simp only [settle]
  split
  · split <;> rfl
  · rfl

/-- A write that fails is rolled back. -/
theorem sharedExec_write (crates : Crates) (E : Engine) (p : ℕ) (job : Launch) (op : Op) (o : Signal) :
    (∃ e, E.sharedExec crates p job (.write op) o = (.error e, E) ∧
      (o.failure = none → E.ledger.failure? crates ⟨o.host, op⟩ ≠ none)) ∨
    E.sharedExec crates p job (.write op) o = (.ok (), E.call crates ⟨o.host, op⟩) ∧
      o.failure = none ∧ E.ledger.failure? crates ⟨o.host, op⟩ = none := by
  simp only [sharedExec, World.exec, World.settle]
  cases hf : o.failure with
  | some e => cases E.world.ledger.failure? crates ⟨o.host, op⟩ <;> exact .inl ⟨e, rfl, fun h => by cases h⟩
  | none =>
    cases hr : E.world.ledger.failure? crates ⟨o.host, op⟩ with
    | some e => exact .inl ⟨_, rfl, fun _ h => by cases hr.symm.trans h⟩
    | none => exact .inr ⟨rfl, rfl, hr⟩

/-- What any other command of the sandbox worker leaves as it is. -/
theorem sharedExec_frame (crates : Crates) (E : Engine) (p : ℕ) (job : Launch) (o : Signal)
    (hc : ∀ op, c ≠ .write op) :
    ∃ w : World, (E.sharedExec crates p job c o).2 = { E with world := w } ∧ w.ledger = E.ledger := by
  cases c with
  | write op => exact (hc op rfl).elim
  | observation => exact ⟨E.world, rfl, rfl⟩
  | select => exact ⟨_, rfl, World.exec_ledger crates E.world p _ hc⟩
  | _ => exact ⟨_, rfl, World.exec_ledger crates E.world p o.toChoice hc⟩

end Engine

/-- The command writes neither the ledger nor the channel and the monitor of a run. -/
def WorkerCmd.quiet : WorkerCmd → Bool
  | .shared (.write _) | .anchor (.write _) | .spawnRunMonitor | .abortRunMonitor | .sendAnchor _ _ => false
  | _ => true

namespace Engine
variable {E E' : Engine} {r p q : ℕ} {job job' : Launch} {m m' : Progress}

/-- What a quiet command leaves as it is. -/
theorem perform_quiet (crates : Crates) (E : Engine) (p : ℕ) (job : Launch) (o : Signal) {a : WorkerCmd}
    (ha : a.quiet = true) :
    ∃ (w : World) (ended : List ℕ), (E.perform crates p job a o).2 = { E with world := w, ended := ended } ∧
      w.ledger = E.ledger := by
  have hsettle : ∀ {α : Type} (v : α), ∃ (w : World) (ended : List ℕ),
      (E.settle o v E).2 = { E with world := w, ended := ended } ∧ w.ledger = E.ledger :=
    fun v => ⟨E.world, E.ended, settle_self v, rfl⟩
  have hshared : ∀ {c : Cmd}, (∀ op, c ≠ .write op) → ∃ (w : World) (ended : List ℕ),
      (E.sharedExec crates p job c o).2 = { E with world := w, ended := ended } ∧ w.ledger = E.ledger := by
    intro c hc
    obtain ⟨w, h, hw⟩ := sharedExec_frame crates E p job o hc
    exact ⟨w, E.ended, h, hw⟩
  cases a with
  | shared c =>
    refine hshared fun op => ?_
    rintro rfl
    cases ha
  | anchor c =>
    refine hshared fun op => ?_
    rintro rfl
    cases ha
  | spawnRunMonitor | abortRunMonitor | sendAnchor => cases ha
  | startProcessGroup =>
    simp only [perform]
    split
    · exact ⟨E.world, E.ended, rfl, rfl⟩
    · exact hsettle _
  | finished => exact ⟨E.world, _, rfl, rfl⟩
  | isCancelled | remainingIsZero | preparationTermination | latestObservation =>
    exact ⟨E.world, E.ended, rfl, rfl⟩
  | _ => exact hsettle _

/-! ## Invariants of one run -/

/-- What the worker of `job` at `m` knows of the engine. -/
structure Working (E : Engine) (job : Launch) (m : Progress) : Prop where
  launched : E.launched job.runId = some job
  agent : E.agent job.runId = m.agent
  run : ∃ run, E.ledger.runs.get? job.runId = some run ∧ run.processId.isSome = m.anchored
  channel : (E.channel job.runId).processId.isSome → m.anchored = true ∨ m.stale = true
  positive : (E.channel job.runId).processId ≠ some 0
  watched : E.monitored job.runId = true → m.watched = true
  recorded : m.recorded = true → (E.world.row job.runId).isSome

/-- No worker has been spawned for the run. -/
structure Idle (E : Engine) (r : ℕ) : Prop where
  agent : E.agent r = {}
  channel : (E.channel r).processId = none
  monitored : E.monitored r = false
  run : ∀ run, E.ledger.runs.get? r = some run → run.processId = none

/-- Nothing changes that the worker of the run relies on. -/
structure Aside (r : ℕ) (E E' : Engine) : Prop where
  launched : E'.launched r = E.launched r
  agent : E'.agent r = E.agent r
  channel : (E'.channel r).processId = (E.channel r).processId
  monitored : E'.monitored r = true → E.monitored r = true
  kept : ∀ {run}, E.ledger.runs.get? r = some run → ∃ run', E'.ledger.runs.get? r = some run' ∧
    run'.processId.isSome = run.processId.isSome
  fresh : ∀ {run'}, E.ledger.runs.get? r = none → E'.ledger.runs.get? r = some run' → run'.processId = none
  row : (E.world.row r).isSome → (E'.world.row r).isSome

/-- The steps that leave the ledger and the histories of the run as they are. -/
theorem Aside.of_ledger (hledger : E'.ledger = E.ledger) (hlaunched : E'.launched r = E.launched r)
    (hagent : E'.agent r = E.agent r) (hchannel : (E'.channel r).processId = (E.channel r).processId)
    (hmonitored : E'.monitored r = true → E.monitored r = true) : Aside r E E' := by
  refine ⟨hlaunched, hagent, hchannel, hmonitored, fun hr => ⟨_, hledger ▸ hr, rfl⟩, fun hn hr => ?_, ?_⟩
  · rw [hledger, hn] at hr
    cases hr
  · simp only [World.row]
    exact fun h => by rwa [show E'.world.ledger = E.world.ledger from hledger]

theorem Working.aside (H : Working E job m) (h : Aside job.runId E E') : Working E' job m := by
  obtain ⟨run, hr, hp⟩ := H.run
  obtain ⟨run', hr', hp'⟩ := h.kept hr
  refine ⟨h.launched.trans H.launched, h.agent.trans H.agent, ⟨run', hr', hp'.trans hp⟩, ?_, ?_, ?_, ?_⟩
  · rw [h.channel]
    exact H.channel
  · rw [h.channel]
    exact H.positive
  · exact fun hm => H.watched (h.monitored hm)
  · exact fun hrow => h.row (H.recorded hrow)

theorem Idle.aside (H : Idle E r) (h : Aside r E E') : Idle E' r := by
  refine ⟨h.agent.trans H.agent, h.channel.trans H.channel, ?_, fun run' hr' => ?_⟩
  · cases hm : E'.monitored r with
    | false => rfl
    | true => exact (h.monitored hm).symm.trans H.monitored
  · cases hr : E.ledger.runs.get? r with
    | none => exact h.fresh hr hr'
    | some run =>
      obtain ⟨run'', hr'', hp⟩ := h.kept hr
      cases hr''.symm.trans hr'
      rw [H.run run hr] at hp
      simpa using hp

/-- A row of `run_sandboxes` is never deleted. -/
theorem row_call (crates : Crates) (E : Engine) (c : Call) (h : (E.world.row r).isSome) :
    ((E.call crates c).world.row r).isSome := by
  rcases Ledger.row_step crates E.ledger c.host c.op r with hrow | ⟨_, _, _, _, hrow⟩ |
    ⟨_, _, _, _, _, _, _, _, _, hrow⟩
  · exact (congrArg Option.isSome hrow).trans h
  · exact congrArg Option.isSome hrow
  · exact congrArg Option.isSome hrow

/-- A call that does not write the process id of the run. -/
theorem call_aside (crates : Crates) (E : Engine) (c : Call)
    (hprocess : ∀ run p, E.ledger.runs.get? r = some run → c.op.process? r = some p →
      p.isSome = run.processId.isSome) : Aside r E (E.call crates c) := by
  have hmove := Ledger.run_step crates E.ledger c
  refine ⟨rfl, rfl, rfl, id, fun {run} hr => ?_, fun hn hr => (hmove.fresh hn hr).process, row_call crates E c⟩
  obtain ⟨run', hr', hm⟩ := hmove.kept hr
  refine ⟨run', hr', ?_⟩
  rcases hm.process with hp | hp
  · rw [hp]
  · rw [KeyedTable.key_of_get? hr] at hp
    exact hprocess run _ hr hp

end Engine

/-! ## What the discipline keeps -/

namespace Progress
variable {r : ℕ} {job : Launch} {m : Progress}

theorem mark_quiet {a : WorkerCmd} (ha : a.quiet = true) (answer : a.Answer) :
    (m.mark r a answer).anchored = m.anchored ∧ (m.mark r a answer).stale = m.stale ∧
      (m.mark r a answer).watched = m.watched ∧ (m.mark r a answer).agent = m.agent := by
  unfold mark
  split
  all_goals first
    | exact ⟨rfl, rfl, rfl, rfl⟩
    | cases ha

theorem observed_agentAfter {h : AgentHistory} {a : WorkerCmd} {answer : a.Answer}
    (hobserved : (Engine.agentAfter r h a answer).Observed) :
    h.Observed ∨ a = .spawnAgent ∨ ∃ name, a = .shared (.spawn name) := by
  revert hobserved
  unfold Engine.agentAfter
  split
  · exact .inl
  · exact .inl
  · exact .inl
  · exact fun _ => .inr (.inl rfl)
  · exact .inl
  · exact .inl
  · exact fun _ => .inr (.inr ⟨_, rfl⟩)
  · exact .inl
  · split <;> exact .inl
  · split
    · exact fun h => nomatch h.2
    · exact .inl
  · exact .inl

/-- The start of an agent is given up before there is one that has ended, or after its observation was reset. -/
theorem vacant_agentAfter {a : WorkerCmd} (hok : m.ok job a) (answer : a.Answer)
    (H : m.agent.givenUp = true → m.agent.Vacant)
    (hgiven : (Engine.agentAfter job.runId m.agent a answer).givenUp = true) :
    (Engine.agentAfter job.runId m.agent a answer).Vacant := by
  revert hok hgiven
  unfold Engine.agentAfter
  split
  · exact fun hok _ => hok
  · exact fun hok _ => hok.2
  · exact fun _ h => nomatch h
  · exact fun _ h => nomatch h
  · exact fun hok h => nomatch hok.symm.trans h
  · exact fun _ => H
  · exact fun _ h => nomatch h
  · exact fun hok h => nomatch hok.symm.trans h
  · split <;> exact fun _ => H
  · split
    · exact fun _ _ => .inr rfl
    · exact fun _ => H
  · exact fun _ => H

/-- What the discipline keeps by itself. -/
structure Fits (job : Launch) (m : Progress) : Prop where
  unwatched : m.stale = true → m.watched = false
  onHost : m.anchored = true → job.backend.onHost = true
  observed : m.agent.Observed → job.backend.onHost = true → m.anchored = true
  vacant : m.agent.givenUp = true → m.agent.Vacant

/-- A command that changes no more of the agent than how it ended. -/
theorem Fits.of_same (H : m.Fits job) {m' : Progress} (hanchored : m'.anchored = m.anchored)
    (hstale : m'.stale = m.stale) (hwatched : m'.watched = m.watched)
    (hobserved : m'.agent.Observed → job.backend.onHost = true → m.agent.Observed ∨ m.anchored = true)
    (hvacant : m'.agent.givenUp = true → m'.agent.Vacant) : m'.Fits job := by
  refine ⟨fun h => ?_, fun h => H.onHost (hanchored.symm.trans h), fun h hjob => ?_, hvacant⟩
  · rw [hwatched]
    exact H.unwatched (hstale.symm.trans h)
  · rw [hanchored]
    exact (hobserved h hjob).elim (fun h => H.observed h hjob) id

theorem Fits.next (H : m.Fits job) {a : WorkerCmd} (hok : m.ok job a) (answer : a.Answer) :
    (m.next job.runId a answer).Fits job := by
  have hvacant := vacant_agentAfter hok answer H.vacant
  have hobserved : (m.next job.runId a answer).agent.Observed → job.backend.onHost = true →
      m.agent.Observed ∨ m.anchored = true := by
    intro h hjob
    rcases observed_agentAfter h with h | rfl | ⟨name, rfl⟩
    · exact .inl h
    · exact .inr hok.1
    · have hjob' : job.backend.onHost = false := hok
      rw [hjob'] at hjob
      cases hjob
  cases ha : a.quiet with
  | true =>
    obtain ⟨hanchored, hstale, hwatched, -⟩ := mark_quiet (m := m) (r := job.runId) ha answer
    exact H.of_same hanchored hstale hwatched hobserved hvacant
  | false =>
    cases a with
    | spawnRunMonitor =>
      cases answer with
      | ok _ => exact ⟨nofun, H.onHost, H.observed, H.vacant⟩
      | error _ => exact H
    | abortRunMonitor =>
      cases answer with
      | ok _ => exact ⟨fun _ => rfl, H.onHost, H.observed, H.vacant⟩
      | error _ => exact H
    | sendAnchor => exact H.of_same rfl rfl rfl hobserved hvacant
    | anchor c =>
      cases c with
      | write op =>
        cases answer with
        | ok _ => exact ⟨H.unwatched, fun _ => hok.1, fun _ _ => rfl, H.vacant⟩
        | error _ => exact H
      | _ => cases ha
    | shared c =>
      cases c with
      | write op =>
        cases answer with
        | error _ => exact H.of_same rfl rfl rfl hobserved hvacant
        | ok _ =>
          cases op with
          | resetRunRuntimeObservation id =>
            obtain ⟨rfl, hwatched⟩ := hok
            have hmark : m.mark job.runId (.shared (.write (.resetRunRuntimeObservation job.runId))) (.ok ()) =
              { m with anchored := false, stale := true } := if_pos rfl
            have hagent : Engine.agentAfter job.runId m.agent
              (.shared (.write (.resetRunRuntimeObservation job.runId))) (.ok ()) =
                { m.agent with reset := true } := if_pos rfl
            simp only [Progress.next, hmark, hagent]
            exact ⟨fun _ => hwatched, nofun, fun h => (nomatch h.2), fun _ => .inr rfl⟩
          | _ => exact H.of_same rfl rfl rfl (fun h _ => .inl h) H.vacant
      | _ => cases ha
    | _ => cases ha

end Progress

namespace Engine
variable {E E' : Engine} {r p q : ℕ} {job job' : Launch} {m m' : Progress}

/-! ## One step of a worker -/

theorem Working.of_same (H : Working E job m) (hagent : m'.agent = m.agent)
    (hanchored : m'.anchored = m.anchored) (hstale : m'.stale = m.stale)
    (hwatched : m'.watched = m.watched)
    (hrecorded : m'.recorded = true → m.recorded = true ∨ (E.world.row job.runId).isSome) :
    Working E job m' := by
  refine ⟨H.launched, H.agent.trans hagent.symm, ?_, ?_, H.positive, ?_, ?_⟩
  · rw [hanchored]
    exact H.run
  · rw [hanchored, hstale]
    exact H.channel
  · rw [hwatched]
    exact H.watched
  · exact fun h => (hrecorded h).elim H.recorded id

/-- A quiet command is none of the run's business. -/
theorem quiet_aside (crates : Crates) (E : Engine) (p r : ℕ) (job : Launch) (o : Signal) {a : WorkerCmd}
    (ha : a.quiet = true) : Aside r E (E.perform crates p job a o).2 := by
  obtain ⟨w, ended, h, hw⟩ := perform_quiet crates E p job o ha
  rw [h]
  exact .of_ledger hw rfl rfl rfl id

theorem recorded_quiet {a : WorkerCmd} (ha : a.quiet = true) (hrow : ∀ id, a ≠ .shared (.runSandbox id))
    (answer : a.Answer) : (m.mark r a answer).recorded = m.recorded := by
  unfold Progress.mark
  split
  all_goals first
    | rfl
    | exact absurd rfl (hrow _)
    | cases ha

/-- The answer about the row of a sandbox. -/
theorem runSandbox_answer (crates : Crates) (E : Engine) (p : ℕ) (job : Launch) (o : Signal) (id : ℕ) :
    (∃ e, (E.perform crates p job (.shared (.runSandbox id)) o).1 = .error e) ∨
      (E.perform crates p job (.shared (.runSandbox id)) o).1 = .ok (E.world.row id) := by
  simp only [perform, sharedExec, World.exec, World.read, World.settle]
  cases o.failure with
  | some e => exact .inl ⟨e, rfl⟩
  | none => exact .inr rfl

/-- A write of the worker that the ledger accepts. -/
theorem Working.written (H : Working E job m) {op : Op} (hok : m.okWrite job op) {host : Host}
    (hfailure : E.ledger.failure? crates ⟨host, op⟩ = none) :
    Working (E.call crates ⟨host, op⟩) job (m.written job.runId op) := by
  have haside : op.process? job.runId = none → Working (E.call crates ⟨host, op⟩) job m := fun hnone =>
    H.aside (call_aside crates E ⟨host, op⟩ fun _ _ _ hp => by rw [hnone] at hp; cases hp)
  have hclosed : ∀ b, Working (E.call crates ⟨host, op⟩) job m →
      Working (E.call crates ⟨host, op⟩) job { m with closed := b } :=
    fun b H => H.of_same rfl rfl rfl rfl .inl
  cases op with
  | finishRunAndTask | finishRunAndTaskTerminal | failPrelaunchAndRequeue | finishRunSandbox =>
    exact hclosed _ (haside rfl)
  | observeRun id processId identity session pr activity =>
    obtain ⟨rfl, hanchored, -⟩ := hok
    refine hclosed _ (H.aside (call_aside crates E _ fun run q hr hp => ?_))
    obtain ⟨run', hr', hp'⟩ := H.run
    cases hr'.symm.trans hr
    cases processId with
    | none => cases hp
    | some processId =>
      simp only [Op.process?, if_true, Option.some.injEq] at hp
      rw [← hp, hp', hanchored rfl]
      rfl
  | resetRunRuntimeObservation id =>
    obtain ⟨rfl, hwatched⟩ := hok
    have hmark : m.written job.runId (.resetRunRuntimeObservation job.runId) =
      { m with anchored := false, stale := true } := if_pos rfl
    rw [hmark]
    obtain ⟨run, hr, hp⟩ := H.run
    obtain ⟨run', hr', hmoves⟩ := (Ledger.run_step crates E.ledger _).kept hr
    have hnone := Ledger.resetRunRuntimeObservation_none hfailure hr'
    exact ⟨H.launched, H.agent, ⟨run', hr', by rw [hnone]; rfl⟩, fun _ => .inr rfl, H.positive, H.watched,
      fun h => row_call crates E _ (H.recorded h)⟩
  | recordRunSandbox sandbox =>
    refine (haside rfl).of_same rfl rfl rfl rfl fun h => ?_
    rcases Bool.or_eq_true_iff.mp h with h | h
    · exact .inl h
    · refine .inr ?_
      have hrow := Ledger.recordRunSandbox_ok hfailure
      rw [← of_decide_eq_true h]
      exact Option.isSome_iff_exists.mpr ⟨_, hrow⟩
  | _ => exact hok.elim

/-- **The step of a worker**, but for what it tells of the agent. -/
theorem Working.perform (H : Working E job m) {a : WorkerCmd} (hok : m.ok job a) (crates : Crates) (p : ℕ)
    (o : Signal) :
    Working (E.perform crates p job a o).2 job (m.mark job.runId a (E.perform crates p job a o).1) := by
  cases ha : a.quiet with
  | true =>
    have hquiet := quiet_aside crates E p job.runId job o ha
    have haside := H.aside hquiet
    obtain ⟨hanchored, hstale, hwatched, hagent⟩ := Progress.mark_quiet (m := m) (r := job.runId) ha
      (E.perform crates p job a o).1
    refine haside.of_same hagent hanchored hstale hwatched fun hrec => ?_
    by_cases hrow : ∃ id, a = .shared (.runSandbox id)
    · obtain ⟨id, rfl⟩ := hrow
      revert hrec
      rcases runSandbox_answer crates E p job o id with ⟨e, he⟩ | he
      · rw [he]
        exact .inl
      · rw [he]
        cases hid : E.world.row id with
        | none => exact .inl
        | some row =>
          intro hrec
          rcases Bool.or_eq_true_iff.mp hrec with hrec | hrec
          · exact .inl hrec
          · refine .inr (hquiet.row ?_)
            rw [← of_decide_eq_true hrec, hid]
            rfl
    · have hsame := recorded_quiet (m := m) (r := job.runId) ha (fun id h => hrow ⟨id, h⟩)
        (E.perform crates p job a o).1
      exact .inl (hsame.symm.trans hrec)
  | false =>
    cases a with
    | spawnRunMonitor =>
      refine ⟨H.launched, H.agent, H.run, ?_, ?_, fun _ => rfl, H.recorded⟩
      · simp [Engine.perform]
      · simp [Engine.perform]
    | abortRunMonitor =>
      refine ⟨H.launched, H.agent, H.run, H.channel, H.positive, ?_, H.recorded⟩
      simp [Engine.perform]
    | sendAnchor processId identity =>
      obtain ⟨hanchored, hpositive⟩ := hok
      refine ⟨H.launched, H.agent, H.run, fun _ => .inl hanchored, ?_, H.watched, H.recorded⟩
      simpa [Engine.perform] using hpositive
    | anchor c =>
      cases c with
      | write op =>
        obtain ⟨hjob, processId, identity, hpositive, rfl⟩ := hok
        simp only [Engine.perform]
        rcases sharedExec_write crates E p job (.observeRun job.runId (some processId) identity none none none) o with
          ⟨e, he, -⟩ | ⟨he, -, hfailure⟩
        · rw [he]
          exact H
        · rw [he]
          obtain ⟨run, hr, -⟩ := H.run
          obtain ⟨run', hr', hmoves⟩ := (Ledger.run_step crates E.ledger _).kept hr
          have hsome := Ledger.observeRun_some hfailure hr'
          exact ⟨H.launched, H.agent, ⟨run', hr', by rw [hsome]; rfl⟩, fun _ => .inl rfl, H.positive, H.watched,
            fun h => row_call crates E _ (H.recorded h)⟩
      | _ => cases ha
    | shared c =>
      cases c with
      | write op =>
        simp only [Engine.perform]
        rcases sharedExec_write crates E p job op o with ⟨e, he, -⟩ | ⟨he, -, hfailure⟩
        · rw [he]
          exact H.of_same rfl rfl rfl rfl .inl
        · rw [he]
          exact H.written hok hfailure
      | _ => cases ha
    | _ => cases ha

/-- A step of a worker does not touch the runs of others. -/
theorem perform_aside (crates : Crates) (E : Engine) (p : ℕ) (o : Signal) {a : WorkerCmd} (hok : m.ok job a)
    (hr : r ≠ job.runId) : Aside r E (E.perform crates p job a o).2 := by
  have hcall : ∀ op : Op, op.process? r = none → Aside r E (E.sharedExec crates p job (.write op) o).2 := by
    intro op hnone
    rcases sharedExec_write crates E p job op o with ⟨e, he, -⟩ | ⟨he, -, -⟩
    · rw [he]
      exact .of_ledger rfl rfl rfl rfl id
    · rw [he]
      exact call_aside crates E _ fun _ _ _ hp => by rw [show op.process? r = none from hnone] at hp; cases hp
  cases ha : a.quiet with
  | true => exact quiet_aside crates E p r job o ha
  | false =>
    cases a with
    | spawnRunMonitor | abortRunMonitor | sendAnchor =>
      refine .of_ledger rfl rfl rfl ?_ ?_
      all_goals simp [Engine.perform, Function.update_of_ne hr]
    | anchor c =>
      cases c with
      | write op =>
        obtain ⟨_, _, _, _, rfl⟩ := hok
        exact hcall _ (if_neg (Ne.symm hr))
      | _ => cases ha
    | shared c =>
      cases c with
      | write op =>
        refine hcall op ?_
        cases op with
        | observeRun id processId =>
          obtain ⟨rfl, -⟩ := hok
          cases processId with
          | none => rfl
          | some _ => exact if_neg (Ne.symm hr)
        | resetRunRuntimeObservation id =>
          obtain ⟨rfl, -⟩ := hok
          exact if_neg (Ne.symm hr)
        | _ => rfl
      | _ => cases ha
    | _ => cases ha

theorem interruption_ne_exited (E : Engine) (job : Launch) (t : Option Termination) :
    E.interruption job t ≠ some .exited := by
  unfold interruption
  repeat' split
  all_goals exact nofun

/-- What the environment may answer. -/
theorem perform_may (H : Working E job m) (crates : Crates) (p : ℕ) (o : Signal) {a : WorkerCmd}
    (hok : m.ok job a) : m.may a (E.perform crates p job a o).1 := by
  have hinterrupt : ∀ {P : Except (List String) (Option Termination) → Prop}, (∀ e, P (.error e)) →
      (∀ t, t ≠ some .exited → P (.ok t)) → P (E.settle o (E.interruption job o.termination) E).1 := by
    intro P herror hok
    simp only [settle]
    split
    · exact herror _
    · exact hok _ (interruption_ne_exited E job _)
  cases a with
  | startProcessGroup =>
    simp only [Engine.perform]
    split
    · trivial
    · next hid =>
      simp only [settle]
      split
      · trivial
      · exact hid
  | latestObservation =>
    refine ⟨fun h => (H.channel h).resolve_right fun hstale => ?_, H.positive⟩
    have hok : m.stale = false := hok
    rw [hok] at hstale
    cases hstale
  | preparationTermination =>
    simp only [Engine.perform]
    split
    · trivial
    · split <;> trivial
  | spawnAgent | deliverPrompt =>
    refine hinterrupt (fun _ => trivial) fun t ht => ?_
    rcases t with _ | (_ | _ | _)
    · trivial
    · exact ht rfl
    · trivial
    · trivial
  | shared c => cases c <;> trivial
  | _ => trivial

/-! ## What happens beside the workers -/

theorem stopRun_aside (E : Engine) (r r' : ℕ) : Aside r E (E.stopRun r') := by
  refine .of_ledger rfl rfl rfl rfl fun h => ?_
  simp only [stopRun, Function.update_apply] at h
  split at h
  · cases h
  · exact h

/-- Nothing that happens beside a worker touches its run: what its monitor writes is on record. -/
theorem happen_aside (crates : Crates) (E : Engine) (r : ℕ) (e : Happening)
    (hmonitor : E.monitored r = true → (E.channel r).processId.isSome →
      ∀ run, E.ledger.runs.get? r = some run → run.processId.isSome = true) :
    Aside r E (E.happen crates e) := by
  have hsame : Aside r E E := .of_ledger rfl rfl rfl rfl id
  have hcall : ∀ c : Call, c.op.process? r = none → Aside r E (E.call crates c) := fun c hnone =>
    call_aside crates E c fun _ _ _ hp => by rw [hnone] at hp; cases hp
  cases e with
  | outside e =>
    cases e with
    | call c =>
      simp only [happen]
      split
      · exact hsame
      · next hworker =>
        refine hcall c ?_
        obtain ⟨host, op⟩ := c
        cases op with
        | observeRun id processId =>
          cases processId with
          | none => rfl
          | some _ => exact absurd rfl hworker
        | resetRunRuntimeObservation id => exact absurd rfl hworker
        | _ => rfl
    | agentEnds name => exact .of_ledger rfl rfl rfl rfl id
    | fetch clone => exact .of_ledger rfl rfl rfl rfl id
  | operatorCancels token => exact .of_ledger rfl rfl rfl rfl id
  | loopEnds token => exact .of_ledger rfl rfl rfl rfl id
  | heartbeat token ownerId host failure =>
    simp only [happen]
    split
    · exact .of_ledger rfl rfl rfl rfl id
    · exact hcall _ rfl
  | monitorFails r' =>
    simp only [happen]
    split
    · exact stopRun_aside E r r'
    · exact hsame
  | monitorObserves r' host failure =>
    simp only [happen]
    split
    · exact hsame
    split
    · exact stopRun_aside E r r'
    · next hm _ =>
      refine call_aside crates E _ fun run q hr hp => ?_
      simp only [observation] at hp
      cases hchannel : (E.channel r').processId with
      | none =>
        rw [hchannel] at hp
        cases hp
      | some processId =>
        rw [hchannel] at hp
        simp only [Op.process?] at hp
        split at hp
        · next hid =>
          subst hid
          cases hp
          exact (hmonitor (by simpa using hm) (by rw [hchannel]; rfl) run hr).symm
        · cases hp
  | monitorPolls r' failure =>
    simp only [happen]
    split
    · exact hsame
    split
    · exact stopRun_aside E r r'
    · exact hsame
  | agentReports r' sessionId pr activity sequence =>
    refine .of_ledger rfl rfl rfl ?_ id
    simp only [happen, Function.update_apply]
    split
    · next hid => rw [hid]
    · rfl

/-- The ledger is the same, or one call has been made. -/
def Called (crates : Crates) (l l' : Ledger) : Prop := l' = l ∨ ∃ c, l' = l.step crates c

/-- A worker changes the ledger only by a write that its discipline allows. -/
theorem perform_writes (crates : Crates) (E : Engine) (p : ℕ) (o : Signal) {a : WorkerCmd} (hok : m.ok job a) :
    (E.perform crates p job a o).2.ledger = E.ledger ∨
    ∃ op, (E.perform crates p job a o).2.ledger = E.ledger.step crates ⟨o.host, op⟩ ∧
      E.ledger.failure? crates ⟨o.host, op⟩ = none ∧
      (a = .shared (.write op) ∧ m.okWrite job op ∨
        ∃ processId identity, op = .observeRun job.runId (some processId) identity none none none) := by
  cases ha : a.quiet with
  | true =>
    obtain ⟨w, ended, h, hw⟩ := perform_quiet crates E p job o ha
    rw [h]
    exact .inl hw
  | false =>
    cases a with
    | spawnRunMonitor | abortRunMonitor | sendAnchor => exact .inl rfl
    | shared c =>
      cases c with
      | write op =>
        simp only [perform]
        rcases sharedExec_write crates E p job op o with ⟨e, he, -⟩ | ⟨he, -, hfailure⟩
        · rw [he]
          exact .inl rfl
        · rw [he]
          exact .inr ⟨op, rfl, hfailure, .inl ⟨rfl, hok⟩⟩
      | _ => cases ha
    | anchor c =>
      cases c with
      | write op =>
        obtain ⟨-, processId, identity, -, rfl⟩ := hok
        simp only [perform]
        rcases sharedExec_write crates E p job (.observeRun job.runId (some processId) identity none none none) o
          with ⟨e, he, -⟩ | ⟨he, -, hfailure⟩
        · rw [he]
          exact .inl rfl
        · rw [he]
          exact .inr ⟨_, rfl, hfailure, .inr ⟨processId, identity, rfl⟩⟩
      | _ => cases ha
    | _ => cases ha

theorem perform_called (crates : Crates) (E : Engine) (p : ℕ) (o : Signal) {a : WorkerCmd} (hok : m.ok job a) :
    Called crates E.ledger (E.perform crates p job a o).2.ledger :=
  (perform_writes crates E p o hok).imp id fun ⟨_, h, _⟩ => ⟨_, h⟩

theorem happen_launched (crates : Crates) (E : Engine) (e : Happening) :
    (E.happen crates e).launched = E.launched := by
  cases e with
  | outside e =>
    cases e with
    | call c =>
      simp only [happen]
      split <;> rfl
    | agentEnds | fetch => rfl
  | operatorCancels | loopEnds | agentReports => rfl
  | heartbeat | monitorFails | monitorObserves | monitorPolls =>
    simp only [happen]
    repeat' split
    all_goals rfl

theorem happen_called (crates : Crates) (E : Engine) (e : Happening) :
    Called crates E.ledger (E.happen crates e).ledger := by
  cases e with
  | outside e =>
    cases e with
    | call c =>
      simp only [happen]
      split
      · exact .inl rfl
      · exact .inr ⟨c, rfl⟩
    | agentEnds | fetch => exact .inl rfl
  | heartbeat token ownerId host failure =>
    simp only [happen]
    split
    · exact .inl rfl
    · exact .inr ⟨⟨host, .heartbeatDaemonOwner ownerId⟩, rfl⟩
  | monitorFails r =>
    simp only [happen]
    split <;> exact .inl rfl
  | monitorObserves r host failure =>
    simp only [happen]
    split
    · exact .inl rfl
    split
    · exact .inl rfl
    · exact .inr ⟨⟨host, E.observation r⟩, rfl⟩
  | monitorPolls r failure =>
    simp only [happen]
    repeat' split
    all_goals exact .inl rfl
  | operatorCancels | loopEnds | agentReports => exact .inl rfl

/-! ## All runs -/

abbrev Crew := Machine.Watches ℕ Launch Progress

structure Custody (crates : Crates) (E : Engine) (ms : Crew) : Prop where
  reachable : ∃ calls, E.ledger = Ledger.empty.runCalls crates calls
  working : ∀ {p job m}, ms p = some (job, m) → Working E job m ∧ m.Fits job
  alone : ∀ {p q job job' m m'}, ms p = some (job, m) → ms q = some (job', m') →
    job.runId = job'.runId → p = q
  idle : ∀ {r}, E.launched r = none → Idle E r

theorem Called.reachable {l l' : Ledger} (h : Called crates l l')
    (hl : ∃ calls, l = Ledger.empty.runCalls crates calls) :
    ∃ calls, l' = Ledger.empty.runCalls crates calls := by
  obtain ⟨calls, rfl⟩ := hl
  rcases h with rfl | ⟨c, rfl⟩
  · exact ⟨calls, rfl⟩
  · refine ⟨calls ++ [c], ?_⟩
    simp only [Ledger.runCalls, Transition.run_append, Transition.run_cons, Transition.run_nil]

/-- What one worker may watch after its step, when the others watch what they did. -/
theorem crew_cases {ms : Crew} {x : Option (Launch × Progress)}
    (h : Function.update ms p x q = some (job', m')) :
    q = p ∧ x = some (job', m') ∨ q ≠ p ∧ ms q = some (job', m') := by
  by_cases hq : q = p
  · subst hq
    exact .inl ⟨rfl, by simpa using h⟩
  · exact .inr ⟨hq, by simpa [hq] using h⟩

theorem noteAgent_aside (E : Engine) {r r' : ℕ} (h : AgentHistory) (hr : r ≠ r') :
    Aside r E (E.noteAgent r' h) := by
  refine .of_ledger rfl rfl ?_ rfl id
  simp [noteAgent, Function.update_of_ne hr]

theorem Working.noteAgent (H : Working E job m) (h : AgentHistory) :
    Working (E.noteAgent job.runId h) job { m with agent := h } :=
  ⟨H.launched, by simp [Engine.noteAgent], H.run, H.channel, H.positive, H.watched, H.recorded⟩

theorem Aside.trans {E'' : Engine} (h : Aside r E E') (h' : Aside r E' E'') : Aside r E E'' := by
  refine ⟨h'.launched.trans h.launched, h'.agent.trans h.agent, h'.channel.trans h.channel,
    fun hm => h.monitored (h'.monitored hm), fun hr => ?_, fun {run} hn hr => ?_, fun hrow => h'.row (h.row hrow)⟩
  · obtain ⟨run', hr', hp'⟩ := h.kept hr
    obtain ⟨run'', hr'', hp''⟩ := h'.kept hr'
    exact ⟨run'', hr'', hp''.trans hp'⟩
  · cases hmid : E'.ledger.runs.get? r with
    | none => exact h'.fresh hmid hr
    | some run' =>
      obtain ⟨run'', hr'', hp⟩ := h'.kept hmid
      cases hr''.symm.trans hr
      rw [h.fresh hn hmid] at hp
      simpa using hp

/-- A step that concerns one run, and what its worker knows of it afterwards. -/
theorem Custody.update {ms : Crew} (H : Custody crates E ms) (hcalled : Called crates E.ledger E'.ledger)
    (hother : ∀ r, r ≠ job.runId → Aside r E E')
    (halone : ∀ q job' m', ms q = some (job', m') → job'.runId = job.runId → q = p)
    (hworking : Working E' job m') (hfits : m'.Fits job) :
    Custody crates E' (Function.update ms p (some (job, m'))) := by
  refine ⟨hcalled.reachable H.reachable, fun {q job₁ m₁} hq => ?_,
    fun {q q' job₁ job₂ m₁ m₂} hq hq' hid => ?_,
    fun {r} hr => ?_⟩
  · rcases crew_cases hq with ⟨rfl, hx⟩ | ⟨hne, hq⟩
    · cases hx
      exact ⟨hworking, hfits⟩
    · obtain ⟨hw, hf⟩ := H.working hq
      exact ⟨hw.aside (hother _ fun hid => hne (halone q _ _ hq hid)), hf⟩
  · rcases crew_cases hq with ⟨rfl, hx⟩ | ⟨hne, hq⟩ <;>
      rcases crew_cases hq' with ⟨rfl, hx'⟩ | ⟨hne', hq'⟩
    · rfl
    · cases hx
      exact (halone q' _ _ hq' hid.symm).symm
    · cases hx'
      exact halone q job₁ m₁ ‹ms q = _› hid
    · exact H.alone ‹ms q = _› ‹ms q' = _› hid
  · have hrun : r ≠ job.runId := by
      rintro rfl
      exact nomatch hworking.launched.symm.trans hr
    exact (H.idle ((hother r hrun).launched.symm.trans hr)).aside (hother r hrun)

theorem custody_act {ms : Crew} {order : Order} (H : Custody crates E ms) (hm : ms p = some (job, m))
    (hok : (discipline job).ok m order) (o : Signal) :
    (discipline job).may m order (E.exec crates p order o).1 ∧
      Custody crates (E.exec crates p order o).2
        (Function.update ms p (some (job, (discipline job).next m order (E.exec crates p order o).1))) := by
  obtain ⟨job', a⟩ := order
  obtain ⟨hjob, hok⟩ := hok
  subst hjob
  obtain ⟨hworking, hfits⟩ := H.working hm
  refine ⟨perform_may hworking crates p o hok, H.update (perform_called crates E p o hok) (fun r hr => ?_)
    (fun q _ _ hq hid => H.alone hq hm hid) ?_ (hfits.next hok _)⟩
  · exact (perform_aside crates E p o hok hr).trans (noteAgent_aside _ _ hr)
  · have hnext := (hworking.perform hok crates p o).noteAgent
      (agentAfter job'.runId (E.agent job'.runId) a (E.perform crates p job' a o).1)
    rw [hworking.agent] at hnext
    simp only [Engine.exec, hworking.agent]
    exact hnext

theorem custody_start {ms : Crew} (H : Custody crates E ms) (hstart : E.mayStart job = true) :
    Custody crates (E.start job) (Function.update ms p (some (job, {}))) := by
  simp only [mayStart, Bool.and_eq_true, Option.isNone_iff_eq_none, Option.any_eq_true] at hstart
  obtain ⟨hnone, run, hr, hrunning, howner⟩ := hstart
  have hidle := H.idle hnone
  refine H.update (.inl rfl) (fun r hr => ?_) (fun q job' m' hq hid => ?_) ?_ ?_
  · refine .of_ledger rfl ?_ rfl rfl id
    simp [start, Function.update_of_ne hr]
  · have hlaunched := (H.working hq).1.launched
    rw [hid, hnone] at hlaunched
    cases hlaunched
  · refine ⟨by simp [start], hidle.agent, ⟨run, hr, by rw [hidle.run run hr]; rfl⟩, ?_, ?_, ?_,
      fun h => by cases h⟩
    · simp [start, hidle.channel]
    · simp [start, hidle.channel]
    · simp [start, hidle.monitored]
  · refine ⟨fun h => ?_, fun h => ?_, fun h => ?_, fun h => ?_⟩
    · cases h
    · cases h
    · cases h.1
    · cases h

theorem custody_happen {ms : Crew} (H : Custody crates E ms) (e : Happening) :
    Custody crates (E.happen crates e) ms := by
  have haside : ∀ {p job m}, ms p = some (job, m) → Aside job.runId E (E.happen crates e) := by
    intro p job m hm
    obtain ⟨hw, hf⟩ := H.working hm
    refine happen_aside crates E _ e fun hmonitored hchannel run hr => ?_
    obtain ⟨run', hr', hp⟩ := hw.run
    cases hr'.symm.trans hr
    rw [hp]
    refine (hw.channel hchannel).resolve_right fun hstale => ?_
    exact nomatch (hf.unwatched hstale).symm.trans (hw.watched hmonitored)
  refine ⟨(happen_called crates E e).reachable H.reachable, fun hm => ⟨(H.working hm).1.aside (haside hm),
    (H.working hm).2⟩, H.alone, fun {r} hr => ?_⟩
  rw [happen_launched] at hr
  have hidle := H.idle hr
  exact hidle.aside (happen_aside crates E r e fun hm => nomatch hidle.monitored.symm.trans hm)

/-- **What holds while workers run** is kept by whatever happens. -/
theorem custody_maintains (crates : Crates) :
    Machine.Maintains (machine crates) discipline (fun _ => {}) (fun _ _ _ _ _ => True) (fun _ _ => True)
      (Custody crates) where
  program := worker_safe crates
  act H hm hok _ := custody_act H hm hok _
  crash {E ms} H p := by
    have hsub : ∀ {q x}, Function.update ms p none q = some x → ms q = some x := by
      intro q x hq
      obtain ⟨job, m⟩ := x
      rcases crew_cases hq with ⟨-, hx⟩ | ⟨-, hq⟩
      · cases hx
      · exact hq
    exact ⟨H.reachable, fun hm => H.working (hsub hm), fun hq hq' => H.alone (hsub hq) (hsub hq'), H.idle⟩
  start H _ hstart := custody_start H hstart
  env H _ := custody_happen H _

theorem custody_initial (crates : Crates) : Custody crates Floor.initial.world fun _ => none :=
  ⟨⟨[], rfl⟩, nofun, nofun, fun _ =>
    ⟨rfl, rfl, rfl, fun _ hr => nomatch KeyedTable.get?_empty.symm.trans hr⟩⟩

/-- What holds in every state of the floor. -/
theorem custody_after (crates : Crates) (es : List Floor.Event) :
    ∃ ms, Machine.Tracks discipline (Floor.after crates es) ms ∧
      Custody crates (Floor.after crates es).world ms := by
  have htracks : Machine.Tracks discipline Floor.initial fun _ => none := fun _ => trivial
  exact (custody_maintains crates).invariant (.of_forall (Machine.Does.of_forall (fun _ _ _ _ _ => trivial)
    fun _ _ => trivial) _ _) htracks (custody_initial crates)

/-- The next step of a worker: it is over, or it issues a command that its discipline allows. -/
theorem act_cases {s : Floor} {ms : Crew} (htracks : Machine.Tracks discipline s ms)
    (H : Custody crates s.world ms) (hp : s.role p = some job) (o : Signal) :
    (Floor.step crates s (.act p o)).world = s.world ∨
    ∃ m a, Working s.world job m ∧ m.Fits job ∧ m.ok job a ∧
      (Floor.step crates s (.act p o)).world = (s.world.exec crates p ⟨job, a⟩ o).2 := by
  have hproc := htracks p
  simp only [Machine.State.role, Option.map_eq_some_iff] at hp
  obtain ⟨⟨job', x⟩, hx, rfl⟩ := hp
  rw [hx] at hproc
  simp only [Floor.step, Machine.step, hx]
  cases x with
  | done => exact .inl rfl
  | call order next =>
    revert hproc
    cases hm : ms p with
    | none => exact fun h => h.elim
    | some x =>
      rintro ⟨rfl, ⟨hjob, hok⟩, -⟩
      obtain ⟨job', m⟩ := x
      obtain ⟨job'', a⟩ := order
      cases hjob
      obtain ⟨hw, hf⟩ := H.working hm
      exact .inr ⟨m, a, hw, hf, hok, rfl⟩

end Engine
end FlashyFactory
