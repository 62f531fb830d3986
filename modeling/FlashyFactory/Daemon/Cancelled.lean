import FlashyFactory.Daemon.Backends

/-! # What cancels a task

A worker reports its run as cancelled when its `CancellationToken` was cancelled, whoever cancelled
it: the operator, the monitor of the run, the owner heartbeat or the loop of the daemon. The token
does not say which, so a monitor that cannot reach the ledger ends a task for good. -/

namespace FlashyFactory
open Process

namespace Engine
variable {E E' : Engine} {r p : ℕ} {job : Launch} {m : Progress}

/-- A cancellation of the run has been requested. -/
def Requested (E : Engine) (r : ℕ) : Prop :=
  ∃ run, E.ledger.runs.get? r = some run ∧ run.cancellationRequestedAt.isSome = true

/-- The operator has cancelled the daemon that executes the run. -/
def OperatorCancelled (E : Engine) (r : ℕ) : Prop :=
  ∃ job, E.launched r = some job ∧ E.operator job.token = true

/-- No access of a monitor or of an owner heartbeat to the ledger fails, and no loop is left. -/
def Undisturbed (crates : Crates) (E : Engine) : Happening → Prop
  | .loopEnds _ => False
  | .heartbeat _ ownerId host failure =>
    failure = false ∧ E.ledger.failure? crates ⟨host, .heartbeatDaemonOwner ownerId⟩ = none
  | .monitorFails r => E.monitored r = false
  | .monitorObserves r host failure => E.monitored r = true →
    failure = false ∧ E.ledger.failure? crates ⟨host, E.observation r⟩ = none
  | .monitorPolls r failure => E.monitored r = true → failure = false
  | _ => True

instance {e : Happening} : Decidable (E.Undisturbed crates e) := by
  unfold Undisturbed
  split <;> infer_instance

/-- Whatever is cancelled was cancelled by the operator. -/
structure Blameless (E : Engine) (ms : Crew) : Prop where
  told : ∀ {p job m}, ms p = some (job, m) → m.told = true → E.cancelled job = true
  runStopped : ∀ {r}, E.runStopped r = true → E.Requested r
  stopped : ∀ {t}, E.stopped t = true → E.operator t = true
  cancelled : ∀ {r run}, E.ledger.runs.get? r = some run → run.outcome = .cancelled →
    E.Requested r ∨ E.OperatorCancelled r

/-! ## What a step of a worker leaves as it is -/

theorem perform_tokens (crates : Crates) (E : Engine) (p : ℕ) (job : Launch) (a : WorkerCmd) (o : Signal) :
    (E.perform crates p job a o).2.stopped = E.stopped ∧
      (E.perform crates p job a o).2.runStopped = E.runStopped ∧
      (E.perform crates p job a o).2.operator = E.operator ∧
      (E.perform crates p job a o).2.launched = E.launched := by
  cases ha : a.quiet with
  | true =>
    obtain ⟨w, ended, h, -⟩ := perform_quiet crates E p job o ha
    rw [h]
    exact ⟨rfl, rfl, rfl, rfl⟩
  | false =>
    have hwrite : ∀ op, (E.sharedExec crates p job (.write op) o).2.stopped = E.stopped ∧
        (E.sharedExec crates p job (.write op) o).2.runStopped = E.runStopped ∧
        (E.sharedExec crates p job (.write op) o).2.operator = E.operator ∧
        (E.sharedExec crates p job (.write op) o).2.launched = E.launched :=
      fun op => ⟨rfl, rfl, rfl, rfl⟩
    cases a with
    | spawnRunMonitor | abortRunMonitor | sendAnchor => exact ⟨rfl, rfl, rfl, rfl⟩
    | shared c | anchor c =>
      cases c with
      | write op => exact hwrite op
      | _ => cases ha
    | _ => cases ha

theorem interruption_cancelled {t : Option Termination}
    (h : E.interruption job t = some .cancelled) : E.cancelled job = true := by
  simp only [interruption] at h
  split at h
  · split at h
    · assumption
    · cases h
  · cases h
  · cases h

theorem woken_cancelled {w : Woken} (h : E.woken job w = .cancelled) : E.cancelled job = true := by
  simp only [woken] at h
  split at h
  · split at h
    · assumption
    · cases h
  · next hw => exact (hw h).elim

/-- A worker is told of a cancellation only when its token is cancelled. -/
theorem told_mark (crates : Crates) (E : Engine) (p : ℕ) (job : Launch) (a : WorkerCmd) (o : Signal)
    (h : (m.mark r a (E.perform crates p job a o).1).told = true) :
    m.told = true ∨ E.cancelled job = true := by
  cases hc : E.cancelled job with
  | true => exact .inr rfl
  | false =>
    refine .inl ?_
    have hinterrupt : E.interruption job o.termination ≠ some .cancelled := fun h =>
      nomatch (interruption_cancelled h).symm.trans hc
    have hwoken : E.woken job o.woken ≠ .cancelled := fun h =>
      nomatch (woken_cancelled h).symm.trans hc
    revert h
    cases a with
    | preparationTermination =>
      simp only [perform, hc, Bool.false_eq_true, if_false]
      split <;> exact id
    | spawnAgent | deliverPrompt =>
      simp only [perform, settle]
      revert hinterrupt
      generalize E.interruption job o.termination = t
      rcases o.failure with _ | _ <;> rcases t with _ | (_ | _ | _)
      all_goals first
        | exact fun _ => id
        | exact fun h => (h rfl).elim
    | waitForExit =>
      simp only [perform, settle]
      revert hwoken
      generalize E.woken job o.woken = w
      rcases o.failure with _ | _ <;> rcases w with _ | _ | _
      all_goals first
        | exact fun _ => id
        | exact fun h => (h rfl).elim
    | shared c =>
      cases c with
      | select =>
        simp only [perform, sharedExec, World.exec, World.read, World.settle]
        revert hwoken
        generalize E.woken job o.woken = w
        rcases o.failure with _ | _ <;> rcases w with _ | _ | _
        all_goals first
          | exact fun _ => id
          | exact fun h => (h rfl).elim
      | write op =>
        simp only [perform]
        rcases sharedExec_write crates E p job op o with ⟨e, he, -⟩ | ⟨he, -, -⟩
        · rw [he]
          exact id
        · rw [he]
          cases op with
          | resetRunRuntimeObservation id =>
            show (if id = r then _ else m : Progress).told = true → _
            split <;> exact fun h => h
          | _ => exact id
      | runSandbox id =>
        rcases runSandbox_answer crates E p job o id with ⟨e, he⟩ | he
        · rw [he]
          exact fun h => h
        · rw [he]
          cases E.world.row id <;> exact fun h => h
      | _ => exact id
    | anchor c =>
      cases c with
      | write op =>
        simp only [perform]
        rcases sharedExec_write crates E p job op o with ⟨e, he, -⟩ | ⟨he, -, -⟩
        · rw [he]
          exact id
        · rw [he]
          exact id
      | _ => exact id
    | _ => exact id

/-! ## The invariant -/

theorem Requested.call (H : E.Requested r) (crates : Crates) (c : Call) : (E.call crates c).Requested r := by
  obtain ⟨run, hr, h⟩ := H
  obtain ⟨run', hr', hm⟩ := (Ledger.run_step crates E.ledger c).kept hr
  refine ⟨run', hr', ?_⟩
  rcases hm.requested with hsame | ⟨-, hsome⟩
  · rw [hsame]
    exact h
  · exact hsome

theorem Requested.of_ledger (H : E.Requested r) (h : E'.ledger = E.ledger) : E'.Requested r := by
  obtain ⟨run, hr, hrequested⟩ := H
  exact ⟨run, h ▸ hr, hrequested⟩

/-- A call closes a run as cancelled when that was requested, or when it reports so. -/
theorem cancelled_call {ms : Crew} (H : Blameless E ms) (crates : Crates) (c : Call)
    (hcancels : c.op.cancels r = true → E.Requested r ∨ E.OperatorCancelled r) {run : Run}
    (hr : (E.call crates c).ledger.runs.get? r = some run) (ho : run.outcome = .cancelled) :
    (E.call crates c).Requested r ∨ E.OperatorCancelled r := by
  have hmove := Ledger.run_step crates E.ledger c
  cases hold : E.ledger.runs.get? r with
  | none => exact nomatch (hmove.fresh hold hr).running.symm.trans ho
  | some old =>
    obtain ⟨run', hr', hm⟩ := hmove.kept hold
    cases hr'.symm.trans hr
    rcases hm.cancelled ho with h | h | h
    · exact (H.cancelled hold h).imp_left fun h => h.call crates c
    · exact .inl ⟨run, hr, h⟩
    · rw [KeyedTable.key_of_get? hold] at h
      exact (hcancels h).imp_left fun h => h.call crates c

/-- A step that leaves the tokens as they are. -/
theorem Blameless.of_tokens {ms ms' : Crew} (H : Blameless E ms) (hstopped : E'.stopped = E.stopped)
    (hrun : E'.runStopped = E.runStopped) (hoperator : E'.operator = E.operator)
    (hlaunched : ∀ r job, E.launched r = some job → E'.launched r = some job)
    (htold : ∀ {p job m}, ms' p = some (job, m) → m.told = true → E.cancelled job = true)
    (hrequested : ∀ r, E.Requested r → E'.Requested r)
    (hcancelled : ∀ {r run}, E'.ledger.runs.get? r = some run → run.outcome = .cancelled →
      E'.Requested r ∨ E.OperatorCancelled r) : Blameless E' ms' := by
  refine ⟨fun hm ht => ?_, fun h => ?_, fun h => ?_, fun hr ho => ?_⟩
  · simp only [Engine.cancelled, hstopped, hrun]
    exact htold hm ht
  · rw [hrun] at h
    exact hrequested _ (H.runStopped h)
  · rw [hstopped] at h
    rw [hoperator]
    exact H.stopped h
  · refine (hcancelled hr ho).imp_right fun ⟨job, hjob, htoken⟩ => ⟨job, hlaunched _ _ hjob, ?_⟩
    rw [hoperator]
    exact htoken

theorem Blameless.call {ms : Crew} (H : Blameless E ms) (crates : Crates) (c : Call)
    (hcancels : ∀ r, c.op.cancels r = false) : Blameless (E.call crates c) ms :=
  H.of_tokens rfl rfl rfl (fun _ _ h => h) H.told (fun _ h => h.call crates c)
    fun hr ho => cancelled_call H crates c (fun h => nomatch (hcancels _).symm.trans h) hr ho

theorem blameless_act {ms : Crew} {order : Order} (C : Custody crates E ms) (H : Blameless E ms)
    (hm : ms p = some (job, m)) (hok : (discipline job).ok m order) (o : Signal) :
    Blameless (E.exec crates p order o).2
      (Function.update ms p (some (job, (discipline job).next m order (E.exec crates p order o).1))) := by
  obtain ⟨job', a⟩ := order
  obtain ⟨hjob, hok⟩ := hok
  subst hjob
  obtain ⟨hworking, -⟩ := C.working hm
  obtain ⟨hstopped, hrun, hoperator, hlaunched⟩ := perform_tokens crates E p job' a o
  have htold : ∀ {q job m'}, Function.update ms p (some (job', (discipline job').next m ⟨job', a⟩
      (E.exec crates p ⟨job', a⟩ o).1)) q = some (job, m') → m'.told = true → E.cancelled job = true := by
    intro q job m' hq ht
    rcases crew_cases hq with ⟨rfl, hx⟩ | ⟨-, hq⟩
    · cases hx
      rcases told_mark crates E q job' a o ht with ht | hc
      · exact H.told hm ht
      · exact hc
    · exact H.told hq ht
  have hlaunched : ∀ r job, E.launched r = some job →
      (E.exec crates p ⟨job', a⟩ o).2.launched r = some job := fun r job h => by
    rw [← h]
    exact congrFun hlaunched r
  rcases perform_writes crates E p o hok with hsame | ⟨op, hledger, -, hop⟩
  · have hsame : (E.exec crates p ⟨job', a⟩ o).2.ledger = E.ledger := hsame
    refine H.of_tokens hstopped hrun hoperator hlaunched htold (fun _ h => h.of_ledger hsame) fun hr ho => ?_
    rw [hsame] at hr
    exact (H.cancelled hr ho).imp_left fun h => h.of_ledger hsame
  · have hledger : (E.exec crates p ⟨job', a⟩ o).2.ledger = (E.call crates ⟨o.host, op⟩).ledger := hledger
    refine H.of_tokens hstopped hrun hoperator hlaunched htold
      (fun _ h => (h.call crates ⟨o.host, op⟩).of_ledger hledger) fun {r run} hr ho => ?_
    rw [hledger] at hr
    refine (cancelled_call H crates ⟨o.host, op⟩ (fun hcancels => ?_) hr ho).imp_left fun h => h.of_ledger hledger
    -- the worker was told, so its token or that of its daemon is cancelled
    have hreported : r = job'.runId ∧ m.told = true := by
      rcases hop with ⟨-, hop⟩ | ⟨_, _, rfl⟩
      · cases op with
        | finishRunAndTask id outcome | finishRunAndTaskTerminal id outcome =>
          obtain ⟨rfl, -, htold, -⟩ := hop
          simp only [Op.cancels, Bool.and_eq_true, decide_eq_true_eq] at hcancels
          exact ⟨hcancels.1.symm, htold hcancels.2⟩
        | _ => cases hcancels
      · cases hcancels
    obtain ⟨rfl, ht⟩ := hreported
    rcases Bool.or_eq_true_iff.mp (H.told hm ht) with h | h
    · exact .inr ⟨job', hworking.launched, H.stopped h⟩
    · exact .inl (H.runStopped h)

theorem blameless_happen {ms : Crew} {e : Happening} (H : Blameless E ms) (he : E.Undisturbed crates e) :
    Blameless (E.happen crates e) ms := by
  have hcall : ∀ c : Call, (∀ r, c.op.cancels r = false) → Blameless (E.call crates c) ms :=
    fun c hc => H.call crates c hc
  cases e with
  | outside e =>
    cases e with
    | call c =>
      simp only [happen]
      split
      · exact H
      · next hworker =>
        refine hcall c fun r => ?_
        obtain ⟨host, op⟩ := c
        cases op with
        | finishRunAndTask | finishRunAndTaskTerminal => exact absurd rfl hworker
        | _ => rfl
    | agentEnds | fetch =>
      exact H.of_tokens rfl rfl rfl (fun _ _ h => h) H.told (fun _ h => h.of_ledger rfl) H.cancelled
  | operatorCancels token =>
    have hstop : ∀ t, E.stopped t = true → (E.happen crates (.operatorCancels token)).stopped t = true := by
      intro t ht
      simp only [happen, stop, Function.update_apply]
      split
      · rfl
      · exact ht
    refine ⟨fun hm ht => ?_, H.runStopped, fun {t} h => ?_, fun hr ho => (H.cancelled hr ho).imp_right ?_⟩
    · exact Bool.or_eq_true_iff.mpr ((Bool.or_eq_true_iff.mp (H.told hm ht)).imp_left (hstop _))
    · simp only [happen, stop, Function.update_apply] at h ⊢
      split
      · rfl
      · next hne =>
        rw [if_neg hne] at h
        exact H.stopped h
    · rintro ⟨job, hjob, htoken⟩
      refine ⟨job, hjob, ?_⟩
      simp only [happen, Function.update_apply]
      split
      · rfl
      · exact htoken
  | loopEnds => exact he.elim
  | heartbeat token ownerId host failure =>
    obtain ⟨rfl, hnone⟩ := he
    simp only [happen, hnone]
    exact hcall _ fun _ => rfl
  | monitorFails r =>
    have he : E.monitored r = false := he
    simp only [happen, he]
    exact H
  | monitorObserves r host failure =>
    simp only [happen]
    split
    · exact H
    · next hm =>
      obtain ⟨rfl, hnone⟩ := he (by simpa using hm)
      simp only [hnone]
      exact hcall _ fun _ => rfl
  | monitorPolls r failure =>
    simp only [happen]
    split
    · exact H
    · next hm =>
      obtain rfl := he (by simpa using hm)
      split
      · next hrequested =>
        have hrequested : E.Requested r := by
          simp only [Bool.false_or, cancellationRequested, Option.any_eq_true, Bool.and_eq_true] at hrequested
          obtain ⟨run, hr, -, h⟩ := hrequested
          exact ⟨run, hr, h⟩
        refine ⟨fun hm ht => ?_, fun {r'} h => ?_, H.stopped, H.cancelled⟩
        · refine Bool.or_eq_true_iff.mpr ((Bool.or_eq_true_iff.mp (H.told hm ht)).imp_right fun h => ?_)
          simp only [stopRun, Function.update_apply]
          split
          · rfl
          · exact h
        · simp only [stopRun, Function.update_apply] at h
          split at h
          · next hid => exact hid ▸ hrequested
          · exact H.runStopped h
      · exact H
  | agentReports =>
    exact H.of_tokens rfl rfl rfl (fun _ _ h => h) H.told (fun _ h => h.of_ledger rfl) H.cancelled

theorem blameless_start {ms : Crew} (H : Blameless E ms) (hstart : E.mayStart job = true) :
    Blameless (E.start job) (Function.update ms p (some (job, {}))) := by
  simp only [mayStart, Bool.and_eq_true, Option.isNone_iff_eq_none] at hstart
  refine H.of_tokens rfl rfl rfl (fun r job' h => ?_) (fun {q job' m'} hm ht => ?_)
    (fun _ h => h.of_ledger rfl) H.cancelled
  · have hne : r ≠ job.runId := by
      rintro rfl
      cases hstart.1.symm.trans h
    simpa [start, Function.update_of_ne hne] using h
  · rcases crew_cases hm with ⟨-, hx⟩ | ⟨-, hm⟩
    · cases hx
      cases ht
    · exact H.told hm ht

theorem blameless_maintains (crates : Crates) :
    Machine.Maintains (machine crates) discipline (fun _ => {}) (fun _ _ _ _ _ => True) (Undisturbed crates)
      fun E ms => Custody crates E ms ∧ Blameless E ms := by
  refine ((custody_maintains crates).mono (fun h => h) fun _ => trivial).and ?_ ?_ ?_ ?_
  · exact fun C H hm hok _ => blameless_act C H hm hok _
  · refine fun _ H p => ⟨fun {q job m} hm => ?_, H.runStopped, H.stopped, H.cancelled⟩
    rcases crew_cases hm with ⟨-, hx⟩ | ⟨-, hm⟩
    · cases hx
    · exact H.told hm
  · exact fun _ H _ hstart => blameless_start H hstart
  · exact fun _ H he => blameless_happen H he

/-- **A task is cancelled only on request**, as long as the monitors and the owner heartbeats reach
the ledger and no loop of a daemon is left: a cancellation of its run was requested, or the operator
cancelled the daemon that executes it. -/
theorem cancelled_only_on_request (crates : Crates) (es : List Floor.Event)
    (hes : Transition.Meets (Floor.step crates) (Machine.Does (fun _ _ _ _ _ => True) (Undisturbed crates))
      Floor.initial es) (task : Task) (ht : task ∈ (Floor.after crates es).world.ledger.tasks)
    (hs : task.state = .cancelled) :
    ∃ run ∈ (Floor.after crates es).world.ledger.runs, run.taskId = task.id ∧ run.outcome = .cancelled ∧
      ((Floor.after crates es).world.Requested run.id ∨
        (Floor.after crates es).world.OperatorCancelled run.id) := by
  have htracks : Machine.Tracks discipline Floor.initial fun _ => none := fun _ => trivial
  obtain ⟨ms, -, C, H⟩ := (blameless_maintains crates).invariant hes htracks
    ⟨custody_initial crates, ⟨nofun, nofun, nofun, fun hr => nomatch KeyedTable.get?_empty.symm.trans hr⟩⟩
  obtain ⟨calls, hcalls⟩ := C.reachable
  have hledger : (Floor.after crates es).world.ledger = Ledger.empty.runCalls crates calls := hcalls
  rw [hledger] at ht
  obtain ⟨run, hr, htask, ho⟩ := Ledger.cancelled_run crates calls ht hs
  rw [← hledger] at hr
  exact ⟨run, hr, htask, ho, H.cancelled (KeyedTable.get?_of_mem hr) ho⟩

/-! ## A run that its monitor cancels -/

/-- The worker of the first run, whose agent is interrupted by a cancellation. -/
def interrupted (cause : Floor.Event) (n : ℕ) : List Floor.Event :=
  claimed ++ [.start 0 (exampleJob hostBackend)] ++ List.replicate 16 (.act 0 { host := exampleHost }) ++
    [cause] ++ List.replicate n (.act 0 { host := exampleHost, woken := .cancelled })

/-- The task of the run, once the worker has closed it. -/
def interruptedTask (cause : Floor.Event) : Option Task :=
  (Floor.after exampleCrates (interrupted cause 10)).world.ledger.tasks.get? 1

set_option maxRecDepth 8000 in
theorem cancelled_on_request_operator : ∃ run ∈ (Floor.after exampleCrates
    (interrupted (.env (.operatorCancels 0)) 10)).world.ledger.runs, run.taskId = 1 ∧
      run.outcome = .cancelled ∧
      ((Floor.after exampleCrates (interrupted (.env (.operatorCancels 0)) 10)).world.Requested run.id ∨
        (Floor.after exampleCrates (interrupted (.env (.operatorCancels 0)) 10)).world.OperatorCancelled run.id) := by
  have htask : (interruptedTask (.env (.operatorCancels 0))).any fun task => task.state = .cancelled := by decide
  obtain ⟨task, ht, hs⟩ := (Option.any_eq_true _ _).mp htask
  obtain ⟨run, hr, hid, h⟩ := cancelled_only_on_request exampleCrates
    (interrupted (.env (.operatorCancels 0)) 10) (by decide) task (KeyedTable.mem_of_get? ht)
    (of_decide_eq_true hs)
  exact ⟨run, hr, hid.trans (KeyedTable.key_of_get? ht), h⟩

set_option maxRecDepth 8000 in
/-- The monitor cannot open the ledger, and the task is cancelled for good. -/
theorem cancelled_by_monitor : ¬ ∀ (crates : Crates) (es : List Floor.Event) (task : Task),
    task ∈ (Floor.after crates es).world.ledger.tasks → task.state = .cancelled →
      ∃ run ∈ (Floor.after crates es).world.ledger.runs, run.taskId = task.id ∧ run.outcome = .cancelled ∧
        ((Floor.after crates es).world.Requested run.id ∨
          (Floor.after crates es).world.OperatorCancelled run.id) := by
  intro h
  have htask : (interruptedTask (.env (.monitorFails 1))).any fun task => task.state = .cancelled := by decide
  obtain ⟨task, ht, hs⟩ := (Option.any_eq_true _ _).mp htask
  obtain ⟨run, hr, -, -, hcause⟩ := h exampleCrates (interrupted (.env (.monitorFails 1)) 10) task
    (KeyedTable.mem_of_get? ht) (of_decide_eq_true hs)
  have hrun : ∀ run ∈ (Floor.after exampleCrates
      (interrupted (.env (.monitorFails 1)) 10)).world.ledger.runs.rows,
      run.id = 1 ∧ run.cancellationRequestedAt = none := by decide
  obtain ⟨hid, hnone⟩ := hrun run hr
  rw [hid] at hcause
  rcases hcause with ⟨run', hr', hrequested⟩ | ⟨job, -, htoken⟩
  · rw [(hrun run' (KeyedTable.mem_of_get? hr')).2] at hrequested
    cases hrequested
  · have hfalse : (Floor.after exampleCrates
        (interrupted (.env (.monitorFails 1)) 10)).world.operator job.token = false := rfl
    rw [hfalse] at htoken
    cases htoken

end Engine
end FlashyFactory
