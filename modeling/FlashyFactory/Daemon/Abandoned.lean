import FlashyFactory.Daemon.Cancelled

/-! # Runs that their workers abandon

A worker that cannot make a write of its ledger mostly returns at once. Its run stays open then:
nobody else closes it, since recovery passes by the runs of a daemon that is alive. -/

namespace FlashyFactory
open Process

namespace Ledger
variable {l l' : Ledger} {r : ℕ}

/-- The run is on record and over. -/
def Over (l : Ledger) (r : ℕ) : Prop := ∃ run, l.runs.get? r = some run ∧ run.outcome ≠ .running

instance : Decidable (l.Over r) :=
  decidable_of_iff ((l.runs.get? r).any fun run => run.outcome ≠ .running)
    (by simp [Over, Option.any_eq_true])

theorem Over.step (H : l.Over r) (crates : Crates) (c : Call) : (l.step crates c).Over r := by
  obtain ⟨run, hr, ho⟩ := H
  obtain ⟨run', hr', he⟩ := (step_changes crates l c).runs.kept hr
  rw [he.closed ho] at hr'
  exact ⟨run, hr', ho⟩

/-! ## What a running run accepts -/

/-- The statements that close a run leave it over. -/
theorem over_close {run : Run} {f : Run → Run} {g : Task → Task} {taskId : ℕ}
    (hf : ∀ run, (f run).id = run.id) (hg : ∀ task, (g task).id = task.id) (hr : l.runs.get? r = some run)
    (hrun : isRunning run = true) (ho : (f run).outcome ≠ .running) :
    (({ l with runs := l.runs.modify r isRunning f hf } : Ledger).updateRunningTask taskId g hg).Over r := by
  refine ⟨f run, ?_, ho⟩
  show (l.runs.modify r isRunning f hf).get? r = some (f run)
  exact KeyedTable.get?_modify_self hr hrun

theorem close_kept {run : Run} {f : Run → Run} {g : Task → Task} {taskId : ℕ} {p : Run → Bool}
    {hf : ∀ run, (f run).id = run.id} {hg : ∀ task, (g task).id = task.id} (hr : l.runs.get? r = some run) :
    (({ l with runs := l.runs.modify r p f hf } : Ledger).updateRunningTask taskId g hg).runs.get? r ≠ none := by
  intro h
  have h : (l.runs.modify r p f hf).get? r = none := h
  simp [KeyedTable.get?_modify, hr] at h

theorem finish_over (h : l.finishRunAndTaskWithRecovery crates host r outcome result error session allow =
    .ok (a, l')) : l'.Over r := by
  simp only [finishRunAndTaskWithRecovery] at h
  split at h
  · cases h
  next ho =>
  split at h
  · cases h
  next row hrow =>
  obtain ⟨hget, hrunning⟩ := Option.filter_eq_some_iff.mp hrow
  repeat' split at h
  all_goals cases h
  all_goals exact over_close _ _ hget hrunning (closeOutcome_ne_running row ho)

theorem failPrelaunch_over (h : l.failPrelaunchAndRequeue crates host r error = .ok (a, l')) : l'.Over r := by
  simp only [failPrelaunchAndRequeue] at h
  split at h
  · cases h
  next row hrow =>
  obtain ⟨hget, hp⟩ := Option.filter_eq_some_iff.mp hrow
  repeat' split at h
  all_goals cases h
  all_goals exact over_close _ _ hget (Bool.and_eq_true_iff.mp hp).1 fun h => by cases h

/-- In lockstep, a run that is running can be closed. -/
theorem finish_accepted {run : Run} (H : RetryQueue.Lockstep l.view) (hr : l.runs.get? r = some run)
    (hrun : run.outcome = .running) (ho : outcome ≠ .running) :
    l.finishRunAndTaskWithRecovery crates host r outcome result error session allow ≠ .error e := by
  intro h
  have hp : isRunning run = true := by simpa [isRunning] using hrun
  obtain ⟨task, ht, hs⟩ := running_task H hr hrun
  have hrunHits : l.runs.hits r isRunning = true := KeyedTable.hits_iff.mpr ⟨run, hr, hp⟩
  have htaskHits : l.tasks.hits run.taskId taskIsRunning = true :=
    KeyedTable.hits_iff.mpr ⟨task, ht, by simpa [taskIsRunning] using hs⟩
  have hfilter : (l.runs.get? r).filter isRunning = some run := by simp [hr, hp]
  simp only [finishRunAndTaskWithRecovery, if_neg ho, hfilter, hrunHits, htaskHits, Bool.not_true,
    Bool.false_eq_true, if_false] at h
  cases hretry : retryRecovery allow (closeOutcome run outcome) run <;>
    simp only [hretry, Bool.false_eq_true, if_false, if_true] at h
  all_goals
    split at h
    · next hnone => exact close_kept hr hnone
    · cases h

/-- In lockstep, a run that has no process is put back on the queue. -/
theorem failPrelaunch_accepted {run : Run} (H : RetryQueue.Lockstep l.view) (hr : l.runs.get? r = some run)
    (hrun : run.outcome = .running) (hprocess : run.processId = none) :
    l.failPrelaunchAndRequeue crates host r error ≠ .error e := by
  intro h
  have hp : isRunning run = true := by simpa [isRunning] using hrun
  obtain ⟨task, ht, hs⟩ := running_task H hr hrun
  have hrunHits : l.runs.hits r isRunning = true := KeyedTable.hits_iff.mpr ⟨run, hr, hp⟩
  have htaskHits : l.tasks.hits run.taskId taskIsRunning = true :=
    KeyedTable.hits_iff.mpr ⟨task, ht, by simpa [taskIsRunning] using hs⟩
  have hfilter : (l.runs.get? r).filter (fun run => isRunning run && run.processId.isNone) = some run := by
    simp [hr, hp, hprocess]
  simp only [failPrelaunchAndRequeue, hfilter, hrunHits, htaskHits, Bool.not_true, Bool.false_eq_true,
    if_false] at h
  by_cases hattempt : run.recoveryAttempt < maxRecoveryAttempts <;>
    simp only [hattempt, if_false, if_true] at h
  all_goals
    split at h
    · next hnone => exact close_kept hr hnone
    · cases h

end Ledger

namespace Engine
variable {E E' : Engine} {r p : ℕ} {job : Launch} {m : Progress}

/-- A vital write of a worker whose run is still running is accepted. -/
theorem vital_accepted (H : Working E job m) (L : RetryQueue.Lockstep E.ledger.view) {op : Op}
    (hok : m.okWrite job op) (hvital : op.vital = true) (hover : ¬ E.ledger.Over job.runId)
    (host : Host) : E.ledger.failure? crates ⟨host, op⟩ = none := by
  obtain ⟨run, hr, hprocess⟩ := H.run
  have ho : run.outcome = .running := not_not.mp fun ho => hover ⟨run, hr, ho⟩
  have hsucceeds : ∀ {α : Type} {x : LedgerResult α}, (∀ e, x ≠ .error e) → x.error? = none := by
    intro α x hx
    cases x with
    | error e => exact (hx e rfl).elim
    | ok _ => rfl
  cases op with
  | observeRun id processId identity session pr activity =>
    obtain ⟨rfl, -, hpositive⟩ := hok
    have hits : E.ledger.runs.hits job.runId Ledger.isRunning = true :=
      KeyedTable.hits_iff.mpr ⟨run, hr, by simpa [Ledger.isRunning] using ho⟩
    simp [Ledger.failure?, Ledger.perform, Ledger.observeRun, Ledger.updateRunning, hpositive, hits,
      LedgerResult.error?]
  | finishRunAndTask id outcome result error session =>
    obtain ⟨rfl, houtcome, -⟩ := hok
    exact hsucceeds fun e => Ledger.finish_accepted L hr ho houtcome
  | finishRunAndTaskTerminal id outcome result error session =>
    obtain ⟨rfl, houtcome, -⟩ := hok
    exact hsucceeds fun e => Ledger.finish_accepted L hr ho houtcome
  | failPrelaunchAndRequeue id error =>
    obtain ⟨rfl, -, hanchored⟩ := hok
    rw [hanchored] at hprocess
    exact hsucceeds fun e => Ledger.failPrelaunch_accepted L hr ho (by simpa using hprocess)
  | finishRunSandbox id state exitCode logs removed =>
    obtain ⟨rfl, hrecorded⟩ := hok
    obtain ⟨row, hrow⟩ := Option.isSome_iff_exists.mp (H.recorded (hrecorded (by simpa [Op.vital] using hvital)))
    have hits : E.ledger.runSandboxes.hits job.runId (fun _ => true) = true :=
      KeyedTable.hits_iff.mpr ⟨row, hrow, rfl⟩
    simp [Ledger.failure?, Ledger.perform, Ledger.finishRunSandbox, hits, LedgerResult.error?]
  | _ => cases hvital

/-- A closing write that is accepted leaves the run over. -/
theorem closes_over {op : Op} {host : Host} (hcloses : op.closes r = true)
    (hfailure : E.ledger.failure? crates ⟨host, op⟩ = none) : (E.ledger.step crates ⟨host, op⟩).Over r := by
  cases op with
  | finishRunAndTask id outcome result error session =>
    cases of_decide_eq_true hcloses
    obtain ⟨a, h⟩ := LedgerResult.of_error?_none (l := E.ledger) hfailure
    exact Ledger.finish_over h
  | finishRunAndTaskTerminal id outcome result error session =>
    cases of_decide_eq_true hcloses
    obtain ⟨a, h⟩ := LedgerResult.of_error?_none (l := E.ledger) hfailure
    exact Ledger.finish_over h
  | failPrelaunchAndRequeue id error =>
    cases of_decide_eq_true hcloses
    obtain ⟨a, h⟩ := LedgerResult.of_error?_none (l := E.ledger) hfailure
    exact Ledger.failPrelaunch_over h
  | _ => cases hcloses

/-! ## The invariant -/

/-- As long as its run is running, no vital command of the worker fails for want of the ledger. -/
def Spared (E : Engine) (order : Order) (o : Signal) : Prop :=
  order.act.vital = true → ¬ E.ledger.Over order.job.runId → o.failure = none

instance {order : Order} {o : Signal} : Decidable (E.Spared order o) :=
  inferInstanceAs (Decidable (_ → _ → _))

/-- Workers that are done with their runs leave them over. -/
structure Diligent (E : Engine) (ms : Crew) : Prop where
  settled : ∀ {p job m}, ms p = some (job, m) → m.Settled → E.ledger.Over job.runId
  ended : ∀ {r}, r ∈ E.ended → E.ledger.Over r

theorem perform_ended (crates : Crates) (E : Engine) (p : ℕ) (job : Launch) (a : WorkerCmd) (o : Signal) :
    (E.perform crates p job a o).2.ended = E.ended ∨
      a = .finished ∧ (E.perform crates p job a o).2.ended = job.runId :: E.ended := by
  have hsettle : ∀ {α : Type} (v : α), (E.settle o v E).2.ended = E.ended := fun v => by rw [settle_self]
  cases a with
  | finished => exact .inr ⟨rfl, rfl⟩
  | shared c | anchor c =>
    refine .inl ?_
    by_cases hc : ∃ op, c = .write op
    · obtain ⟨op, rfl⟩ := hc
      rcases sharedExec_write crates E p job op o with ⟨e, he, -⟩ | ⟨he, -, -⟩
      · rw [perform, he]
      · rw [perform, he]
        rfl
    · obtain ⟨w, h, -⟩ := sharedExec_frame crates E p job o fun op h => hc ⟨op, h⟩
      rw [perform, h]
  | spawnRunMonitor | abortRunMonitor | sendAnchor | isCancelled | remainingIsZero | preparationTermination |
    latestObservation => exact .inl rfl
  | startProcessGroup =>
    simp only [perform]
    split
    · exact .inl rfl
    · exact .inl (hsettle _)
  | _ => exact .inl (hsettle _)

/-- Only the writes and the reading of the sandbox's row settle anything. -/
theorem settled_other {a : WorkerCmd} (hwrite : ∀ op, a ≠ .shared (.write op))
    (hrow : ∀ id, a ≠ .shared (.runSandbox id)) {answer : a.Answer} (h : (m.mark r a answer).Settled) :
    m.Settled := by
  revert h
  unfold Progress.mark
  split
  all_goals first
    | exact fun h => h
    | exact absurd rfl (hrow _)
    | exact absurd rfl (hwrite _)

/-- A write of the worker that the ledger accepts settles nothing but what it closes. -/
theorem settled_written {op : Op} (h : (m.written r op).Settled) : m.Settled ∨ op.closes r = true := by
  cases op with
  | recordRunSandbox sandbox => exact .inl h
  | resetRunRuntimeObservation id =>
    refine .inl ?_
    revert h
    show (if id = r then _ else m : Progress).Settled → m.Settled
    split <;> exact fun h => h
  | _ =>
    rcases h with h | h
    · exact (Bool.or_eq_true_iff.mp h).imp .inl id
    · exact .inl (.inr h)

/-- A worker comes to be done with its run only when the run is over. -/
theorem settled_mark (H : Working E job m) (L : RetryQueue.Lockstep E.ledger.view) (crates : Crates) (p : ℕ)
    {a : WorkerCmd} {o : Signal} (hok : m.ok job a) (hspared : E.Spared ⟨job, a⟩ o)
    (h : (m.mark job.runId a (E.perform crates p job a o).1).Settled) :
    m.Settled ∨ (E.perform crates p job a o).2.ledger.Over job.runId := by
  by_cases hover : E.ledger.Over job.runId
  · refine .inr ?_
    rcases perform_called crates E p o hok with h | ⟨c, h⟩
    · rwa [h]
    · rw [h]
      exact hover.step crates c
  have hspared : a.vital = true → o.failure = none := fun hvital => hspared hvital hover
  by_cases hwrite : ∃ op, a = .shared (.write op)
  · obtain ⟨op, rfl⟩ := hwrite
    revert h
    simp only [perform]
    rcases sharedExec_write crates E p job op o with ⟨e, he, hfailure⟩ | ⟨he, -, hfailure⟩
    · rw [he]
      cases hvital : op.vital with
      | true => exact (hfailure (hspared hvital) (vital_accepted H L hok hvital hover o.host)).elim
      | false =>
        rintro (h | h)
        · exact .inl (.inl h)
        · have h : (m.faulty || op.vital) = true := h
          rw [hvital, Bool.or_false] at h
          exact .inl (.inr h)
    · rw [he]
      intro h
      exact (settled_written h).imp_right fun hcloses => closes_over hcloses hfailure
  · by_cases hrow : ∃ id, a = .shared (.runSandbox id)
    · obtain ⟨id, rfl⟩ := hrow
      have hnone := hspared rfl
      have hanswer : (E.perform crates p job (.shared (.runSandbox id)) o).1 = .ok (E.world.row id) := by
        simp [perform, sharedExec, World.exec, World.read, World.settle, hnone]
      rw [hanswer] at h
      cases hrow : E.world.row id with
      | none => exact .inl (by rwa [hrow] at h)
      | some row => exact .inl (by rwa [hrow] at h)
    · exact .inl (settled_other (fun op h => hwrite ⟨op, h⟩) (fun id h => hrow ⟨id, h⟩) h)

theorem diligent_act {ms : Crew} {order : Order} (C : Custody crates E ms) (H : Diligent E ms)
    (hm : ms p = some (job, m)) (hok : (discipline job).ok m order) {o : Signal} (hspared : E.Spared order o) :
    Diligent (E.exec crates p order o).2
      (Function.update ms p (some (job, (discipline job).next m order (E.exec crates p order o).1))) := by
  obtain ⟨job', a⟩ := order
  obtain ⟨hjob, hok⟩ := hok
  subst hjob
  obtain ⟨hworking, -⟩ := C.working hm
  have L : RetryQueue.Lockstep E.ledger.view := by
    obtain ⟨calls, hcalls⟩ := C.reachable
    rw [hcalls]
    exact (Ledger.sound_reachable crates calls).lockstep
  have hover : ∀ r, E.ledger.Over r → (E.exec crates p ⟨job', a⟩ o).2.ledger.Over r := by
    intro r hr
    show (E.perform crates p job' a o).2.ledger.Over r
    rcases perform_called crates E p o hok with h | ⟨c, h⟩
    · rwa [h]
    · rw [h]
      exact hr.step crates c
  refine ⟨fun {q job m'} hq hsettled => ?_, fun {r} hr => ?_⟩
  · rcases crew_cases hq with ⟨rfl, hx⟩ | ⟨-, hq⟩
    · cases hx
      rcases settled_mark hworking L crates q hok hspared hsettled with h | h
      · exact hover _ (H.settled hm h)
      · exact h
    · exact hover _ (H.settled hq hsettled)
  · rcases perform_ended crates E p job' a o with h | ⟨rfl, h⟩
    · have h : (E.exec crates p ⟨job', a⟩ o).2.ended = E.ended := h
      rw [h] at hr
      exact hover r (H.ended hr)
    · have h : (E.exec crates p ⟨job', .finished⟩ o).2.ended = job'.runId :: E.ended := h
      rw [h] at hr
      rcases List.mem_cons.mp hr with rfl | hr
      · exact hover _ (H.settled hm hok)
      · exact hover r (H.ended hr)

theorem happen_ended (crates : Crates) (E : Engine) (e : Happening) : (E.happen crates e).ended = E.ended := by
  cases e with
  | outside e =>
    cases e with
    | call c =>
      simp only [happen]
      split <;> rfl
    | agentEnds | fetch => rfl
  | operatorCancels | loopEnds | agentReports => rfl
  | heartbeat | monitorFails | monitorObserves | monitorPolls =>
    simp only [happen]
    repeat' split
    all_goals rfl

theorem diligent_maintains (crates : Crates) :
    Machine.Maintains (machine crates) discipline (fun _ => {}) (fun E _ _ order o => E.Spared order o)
      (fun _ _ => True) fun E ms => Custody crates E ms ∧ Diligent E ms := by
  refine ((custody_maintains crates).mono (fun _ => trivial) fun h => h).and ?_ ?_ ?_ ?_
  · exact fun C H hm hok hspared => diligent_act C H hm hok hspared
  · refine fun _ H p => ⟨fun {q job m} hm => ?_, H.ended⟩
    rcases crew_cases hm with ⟨-, hx⟩ | ⟨-, hm⟩
    · cases hx
    · exact H.settled hm
  · refine fun _ H _ _ => ⟨fun {q job m} hm hsettled => ?_, H.ended⟩
    rcases crew_cases hm with ⟨-, hx⟩ | ⟨-, hm⟩
    · cases hx
      exact hsettled.elim nofun nofun
    · exact H.settled hm hsettled
  · intro E ms e C H _
    have hover : ∀ r, E.ledger.Over r → (E.happen crates e).ledger.Over r := by
      intro r hr
      rcases happen_called crates E e with h | ⟨c, h⟩
      · rwa [h]
      · rw [h]
        exact hr.step crates c
    refine ⟨fun hm hsettled => hover _ (H.settled hm hsettled), fun {r} hr => ?_⟩
    have hended : ((machine crates).env E e).ended = E.ended := happen_ended crates E e
    rw [hended] at hr
    exact hover r (H.ended hr)

/-- **A worker that is spared failures of the ledger does not abandon its run.** Whatever else fails,
the run is over when the future of its worker has ended, as long as no vital command of a worker
fails while its run is running. -/
theorem ended_run_over (crates : Crates) (es : List Floor.Event)
    (hes : Transition.Meets (Floor.step crates)
      (Machine.Does (fun E _ _ order o => E.Spared order o) fun _ _ => True) Floor.initial es)
    (r : ℕ) (hr : r ∈ (Floor.after crates es).world.ended) : (Floor.after crates es).world.ledger.Over r := by
  have htracks : Machine.Tracks discipline Floor.initial fun _ => none := fun _ => trivial
  obtain ⟨ms, -, -, H⟩ := (diligent_maintains crates).invariant hes htracks
    ⟨custody_initial crates, ⟨nofun, nofun⟩⟩
  exact H.ended hr

/-! ## An abandoned run stays open -/

/-- The daemon that has claimed the run is alive when the call is made. -/
def OwnerLive (E : Engine) (r : ℕ) (host : Host) : Prop :=
  ∀ run, E.ledger.runs.get? r = some run → E.ledger.OwnerLiveAt host run

/-- The daemon is alive whenever the event makes a call. -/
def OwnerLiveDuring (r : ℕ) (E : Engine) : Happening → Prop
  | .outside (.call c) => E.OwnerLive r c.host
  | .heartbeat _ _ host _ | .monitorObserves _ host _ => E.OwnerLive r host
  | _ => True

/-- The run goes on without a worker. -/
structure Abandoned (r : ℕ) (E : Engine) (ms : Crew) : Prop where
  launched : E.launched r ≠ none
  nobody : ∀ {p job m}, ms p = some (job, m) → job.runId ≠ r
  running : ∃ run, E.ledger.runs.get? r = some run ∧ run.outcome = .running

theorem running_call (crates : Crates) {c : Call} (hlive : E.OwnerLive r c.host)
    (hcloses : c.op.closes r = false) (h : ∃ run, E.ledger.runs.get? r = some run ∧ run.outcome = .running) :
    ∃ run, (E.call crates c).ledger.runs.get? r = some run ∧ run.outcome = .running := by
  obtain ⟨run, hr, ho⟩ := h
  exact Ledger.running_step_of_live crates hr ho (hlive run hr) hcloses

theorem abandoned_happen {ms : Crew} {e : Happening} (H : Abandoned r E ms) (he : OwnerLiveDuring r E e) :
    Abandoned r (E.happen crates e) ms := by
  refine ⟨by rw [happen_launched]; exact H.launched, H.nobody, ?_⟩
  cases e with
  | outside e =>
    cases e with
    | call c =>
      simp only [happen]
      split
      · exact H.running
      · next hworker =>
        refine running_call crates he ?_ H.running
        obtain ⟨host, op⟩ := c
        cases op with
        | finishRunAndTask | finishRunAndTaskTerminal | failPrelaunchAndRequeue => exact absurd rfl hworker
        | _ => rfl
    | agentEnds | fetch => exact H.running
  | heartbeat token ownerId host failure =>
    simp only [happen]
    split
    · exact H.running
    · exact running_call crates he rfl H.running
  | monitorFails r' =>
    simp only [happen]
    split <;> exact H.running
  | monitorObserves r' host failure =>
    simp only [happen]
    split
    · exact H.running
    split
    · exact H.running
    · exact running_call crates he rfl H.running
  | monitorPolls r' failure =>
    simp only [happen]
    repeat' split
    all_goals exact H.running
  | operatorCancels | loopEnds | agentReports => exact H.running

theorem abandoned_act {ms : Crew} {order : Order} {o : Signal} (H : Abandoned r E ms)
    (hm : ms p = some (job, m)) (hok : (discipline job).ok m order) (hlive : E.OwnerLive r o.host) :
    Abandoned r (E.exec crates p order o).2
      (Function.update ms p (some (job, (discipline job).next m order (E.exec crates p order o).1))) := by
  obtain ⟨job', a⟩ := order
  obtain ⟨hjob, hok⟩ := hok
  subst hjob
  have hne : job'.runId ≠ r := H.nobody hm
  refine ⟨?_, fun {q job₁ m₁} hq => ?_, ?_⟩
  · have hlaunched := (perform_tokens crates E p job' a o).2.2.2
    show (E.perform crates p job' a o).2.launched r ≠ none
    rw [hlaunched]
    exact H.launched
  · rcases crew_cases hq with ⟨-, hx⟩ | ⟨-, hq⟩
    · cases hx
      exact hne
    · exact H.nobody hq
  · show ∃ run, (E.perform crates p job' a o).2.ledger.runs.get? r = some run ∧ _
    rcases perform_writes crates E p o hok with h | ⟨op, h, -, hop⟩
    · rw [h]
      exact H.running
    · rw [h]
      refine running_call (c := ⟨o.host, op⟩) crates hlive ?_ H.running
      rcases hop with ⟨-, hop⟩ | ⟨_, _, rfl⟩
      · cases op with
        | finishRunAndTask | finishRunAndTaskTerminal | failPrelaunchAndRequeue =>
          obtain ⟨rfl, -⟩ := hop
          exact decide_eq_false hne
        | _ => rfl
      · rfl

theorem abandoned_maintains (crates : Crates) (r : ℕ) :
    Machine.Maintains (machine crates) discipline (fun _ => {}) (fun E _ _ _ o => E.OwnerLive r o.host)
      (OwnerLiveDuring r) fun E ms => Custody crates E ms ∧ Abandoned r E ms := by
  refine ((custody_maintains crates).mono (fun _ => trivial) fun _ => trivial).and ?_ ?_ ?_ ?_
  · exact fun _ H hm hok hlive => abandoned_act H hm hok hlive
  · refine fun _ H p => ⟨H.launched, fun {q job m} hm => ?_, H.running⟩
    rcases crew_cases hm with ⟨-, hx⟩ | ⟨-, hm⟩
    · cases hx
    · exact H.nobody hm
  · intro E ms p job _ H _ hstart
    simp only [machine, mayStart, Bool.and_eq_true, Option.isNone_iff_eq_none] at hstart
    have hne : job.runId ≠ r := by
      rintro rfl
      exact H.launched hstart.1
    refine ⟨?_, fun {q job' m} hm => ?_, H.running⟩
    · simpa [machine, start, Function.update_of_ne hne.symm] using H.launched
    · rcases crew_cases hm with ⟨-, hx⟩ | ⟨-, hm⟩
      · cases hx
        exact hne
      · exact H.nobody hm
  · exact fun _ H he => abandoned_happen H he

/-- **Nobody closes an abandoned run** while the daemon that claimed it is alive. -/
theorem abandoned_stays (crates : Crates) (r : ℕ) (es es' : List Floor.Event)
    (hlaunched : (Floor.after crates es).world.launched r ≠ none)
    (hnobody : ∀ p job, (Floor.after crates es).role p = some job → job.runId ≠ r)
    (hrunning : ∃ run, (Floor.after crates es).world.ledger.runs.get? r = some run ∧ run.outcome = .running)
    (hes' : Transition.Meets (Floor.step crates) (Machine.Does (fun E _ _ _ o => E.OwnerLive r o.host)
      (OwnerLiveDuring r)) (Floor.after crates es) es') :
    ∃ run, (Floor.after crates (es ++ es')).world.ledger.runs.get? r = some run ∧ run.outcome = .running := by
  obtain ⟨ms, htracks, C⟩ := custody_after crates es
  have hroles := htracks.roles_eq
  have habandoned : Abandoned r (Floor.after crates es).world ms := by
    refine ⟨hlaunched, fun {p job m} hm => hnobody p job ?_, hrunning⟩
    rw [hroles]
    simp [Machine.roles, hm]
  obtain ⟨ms', -, -, H⟩ := (abandoned_maintains crates r).invariant hes' htracks ⟨C, habandoned⟩
  rw [Floor.after, Transition.run_append]
  exact H.running

/-- The workspace cannot be prepared, and neither can the run be put back on the queue. -/
def abandoning : List Floor.Event :=
  let busy : Signal := { host := exampleHost, failure := some ["database is locked"] }
  let fine : Signal := { host := exampleHost }
  claimed ++ .start 0 (exampleJob hostBackend) :: [fine, busy, busy, fine, fine].map (.act 0)

set_option maxRecDepth 8000 in
theorem ended_run_over_onHost : (Floor.after exampleCrates
    (failingWorker hostBackend 28)).world.ledger.Over 1 :=
  ended_run_over exampleCrates (failingWorker hostBackend 28) (by decide) 1 (by decide)

set_option maxRecDepth 8000 in
/-- The future of the worker has ended, and nothing that happens while its daemon is alive closes
the run. -/
theorem run_abandoned : ¬ ∀ (crates : Crates) (es : List Floor.Event) (r : ℕ),
    r ∈ (Floor.after crates es).world.ended → ∃ es' : List Floor.Event,
      Transition.Meets (Floor.step crates) (Machine.Does (fun E _ _ _ o => E.OwnerLive r o.host)
        (OwnerLiveDuring r)) (Floor.after crates es) es' ∧
      (Floor.after crates (es ++ es')).world.ledger.Over r := by
  intro h
  obtain ⟨es', hes', run, hr, ho⟩ := h exampleCrates abandoning 1 (by decide)
  have hnobody : ∀ p job, (Floor.after exampleCrates abandoning).role p = some job → job.runId ≠ 1 := by
    intro p job hp
    by_cases hzero : p = 0
    · subst hzero
      have hnone : (Floor.after exampleCrates abandoning).role 0 = none := by decide
      exact nomatch hnone.symm.trans hp
    · have hevents : ∀ e ∈ abandoning, e.process? = none ∨ e.process? = some 0 := by decide
      have hother : (Floor.after exampleCrates abandoning).procs p = none := by
        refine Machine.run_procs fun e he hep => ?_
        rcases hevents e he with h | h
        · exact nomatch h.symm.trans hep
        · exact hzero (Option.some.inj (hep.symm.trans h))
      simp [Machine.State.role, hother] at hp
  have hrunning : ((Floor.after exampleCrates abandoning).world.ledger.runs.get? 1).any
      fun run => run.outcome = .running := by decide
  obtain ⟨run₀, hr₀, ho₀⟩ := (Option.any_eq_true _ _).mp hrunning
  obtain ⟨run', hr', ho'⟩ := abandoned_stays exampleCrates 1 abandoning es' (by decide) hnobody
    ⟨run₀, hr₀, of_decide_eq_true ho₀⟩ hes'
  cases hr.symm.trans hr'
  exact ho ho'

end Engine
end FlashyFactory
