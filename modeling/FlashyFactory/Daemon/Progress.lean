import FlashyFactory.Daemon.Engine

/-! # What a worker may do

`Progress` follows a worker through its commands. `Progress.ok` is the discipline of the worker: it
writes about its own run only, reports a cancellation only when it was told of one, reports a
failed agent as failed unless it gave up the start of a fresh one, starts an agent on the host only
once the process group is on record, and its future is ready only when the run is closed or a write
that it depends on has failed.
`runWorker_safe` shows that the worker keeps to it whatever fails. -/

namespace FlashyFactory
open Process Script Work

/-- A worker that cannot make the write gives up without closing its run. -/
def Op.vital : Op → Bool
  | observeRun .. | finishRunAndTask .. | finishRunAndTaskTerminal .. | failPrelaunchAndRequeue .. => true
  | finishRunSandbox _ state _ _ _ => state ≠ .created
  | _ => false

/-- A worker whose command fails gives up without closing its run. -/
def WorkerCmd.vital : WorkerCmd → Bool
  | shared (.write op) => op.vital
  | shared (.runSandbox _) => true
  | _ => false

def Backend.onHost : Backend → Bool
  | host _ _ => true
  | dockerSandbox _ => false

structure Progress where
  /-- The worker was told of a cancellation. -/
  told : Bool := false
  /-- The worker has closed its run. -/
  closed : Bool := false
  /-- A command failed that is vital. -/
  faulty : Bool := false
  /-- The run has a row in `run_sandboxes`. -/
  recorded : Bool := false
  /-- The process group is on record. -/
  anchored : Bool := false
  /-- The runtime observation was reset and the channel is still the old one. -/
  stale : Bool := false
  /-- The monitor of the run may run. -/
  watched : Bool := false
  agent : AgentHistory := {}

/-- No agent has ended by itself, or the observation of the one that did was reset. -/
def AgentHistory.Vacant (h : AgentHistory) : Prop := h.exit = none ∨ h.reset = true

/-- An agent was started whose observation was not reset. -/
def AgentHistory.Observed (h : AgentHistory) : Prop := h.spawned = true ∧ h.reset = false

/-- A fresh agent may be started. -/
structure AgentHistory.Preparing (h : AgentHistory) : Prop where
  givenUp : h.givenUp = false
  vacant : h.Vacant

theorem AgentHistory.preparing_empty : AgentHistory.Preparing {} := ⟨rfl, .inl rfl⟩

namespace Progress

/-- After a write that succeeded. -/
def written (r : ℕ) (m : Progress) : Op → Progress
  | .recordRunSandbox sandbox => { m with recorded := m.recorded || sandbox.runId = r }
  | .resetRunRuntimeObservation id => if id = r then { m with anchored := false, stale := true } else m
  | op => { m with closed := m.closed || op.closes r }

def mark (r : ℕ) (m : Progress) : (a : WorkerCmd) → a.Answer → Progress
  | .preparationTermination, .ok (some .cancelled) | .spawnAgent, .ok (some .cancelled) |
    .deliverPrompt _, .ok (some .cancelled) | .waitForExit, .ok .cancelled |
    .shared .select, .ok .cancelled => { m with told := true }
  | .shared (.write op), .ok () => m.written r op
  | .shared (.write op), .error _ => { m with faulty := m.faulty || op.vital }
  | .shared (.runSandbox id), .ok (some _) => { m with recorded := m.recorded || id = r }
  | .shared (.runSandbox _), .error _ => { m with faulty := true }
  | .anchor (.write _), .ok () => { m with anchored := true }
  | .spawnRunMonitor, .ok () => { m with stale := false, watched := true }
  | .abortRunMonitor, .ok () => { m with watched := false }
  | _, _ => m

def next (r : ℕ) (m : Progress) (a : WorkerCmd) (answer : a.Answer) : Progress :=
  { m.mark r a answer with agent := Engine.agentAfter r m.agent a answer }

/-- A write of the worker's ledger. -/
def okWrite (job : Launch) (m : Progress) : Op → Prop
  | .finishRunAndTask id outcome _ _ _ => id = job.runId ∧ outcome ≠ .running ∧
    (outcome = .cancelled → m.told = true) ∧
    (job.backend.onHost = true → m.agent.Failed → (outcome = .failed ↔ m.agent.givenUp = false))
  | .finishRunAndTaskTerminal id outcome _ _ _ => id = job.runId ∧ outcome ≠ .running ∧
    (outcome = .cancelled → m.told = true) ∧
    (job.backend.onHost = true → m.agent.Failed → m.agent.givenUp = true)
  | .failPrelaunchAndRequeue id _ => id = job.runId ∧ m.agent = {} ∧ m.anchored = false
  | .observeRun id processId _ _ _ _ => id = job.runId ∧ (processId.isSome → m.anchored = true) ∧
    processId ≠ some 0
  | .resetRunRuntimeObservation id => id = job.runId ∧ m.watched = false
  | .finishRunSandbox id state _ _ _ => id = job.runId ∧ (state ≠ .created → m.recorded = true)
  | .recordRunSandbox _ => True
  | _ => False

def ok (job : Launch) (m : Progress) : WorkerCmd → Prop
  | .shared (.write op) => m.okWrite job op
  | .anchor (.write op) => job.backend.onHost = true ∧ ∃ processId identity, processId ≠ 0 ∧
    op = .observeRun job.runId (some processId) identity none none none
  | .preparationTermination => m.agent.Vacant
  | .spawnAgent => m.anchored = true ∧ m.agent.Vacant
  | .waitForExit | .shared .select => m.agent.givenUp = false
  | .shared (.spawn _) => job.backend.onHost = false
  | .sendAnchor processId _ => m.anchored = true ∧ processId ≠ 0
  | .latestObservation => m.stale = false
  | .finished => m.closed = true ∨ m.faulty = true
  | _ => True

def may (m : Progress) : (a : WorkerCmd) → a.Answer → Prop
  | .startProcessGroup, .ok (processId, _) => processId ≠ 0
  | .latestObservation, .ok o => (o.processId.isSome → m.anchored = true) ∧ o.processId ≠ some 0
  | .preparationTermination, .ok (some .exited) | .spawnAgent, .ok (some .exited) |
    .deliverPrompt _, .ok (some .exited) => False
  | .spawnRunMonitor, .error _ | .abortRunMonitor, .error _ | .isCancelled, .error _ |
    .remainingIsZero, .error _ | .latestObservation, .error _ | .shared .observation, .error _ => False
  | _, _ => True

end Progress

def discipline (job : Launch) : Monitor Order Order.Answer Progress where
  ok m order := order.job = job ∧ m.ok job order.act
  may m order a := m.may order.act a
  next m order a := m.next job.runId order.act a

/-- The discipline of the worker of `job`, for commands that do not name it. -/
def rules (job : Launch) : Monitor WorkerCmd WorkerCmd.Answer Progress where
  ok m a := m.ok job a
  may m a answer := m.may a answer
  next m a answer := m.next job.runId a answer

variable {job : Launch} {m₀ m m' : Progress}

theorem act_safe {a : WorkerCmd} {Q : a.Value → Progress → Prop} {E : Failure → Progress → Prop}
    (hok : m.ok job a) (hQ : ∀ b, m.may a (.ok b) → Q b (m.next job.runId a (.ok b)))
    (hE : ∀ chain, m.may a (.error chain) → E ⟨chain, none⟩ (m.next job.runId a (.error chain))) :
    Safe (rules job) (act a) Q E m := by
  refine ⟨hok, fun answer ha => ?_⟩
  cases answer with
  | ok b => exact hQ b ha
  | error chain => exact hE chain ha

theorem act_still {a : WorkerCmd} (hok : ∀ m : Progress, m.ok job a)
    (hnext : ∀ (m : Progress) answer, m.next job.runId a answer = m) : Still (rules job) (act a) :=
  .issue hok hnext

/-! ## Executions -/

namespace Progress

/-- What an execution keeps. -/
structure Ran (m m' : Progress) : Prop where
  closed : m'.closed = m.closed
  faulty : m'.faulty = m.faulty
  stale : m'.stale = m.stale
  recorded : m.recorded = true → m'.recorded = true

theorem Ran.refl : Ran m m := ⟨rfl, rfl, rfl, id⟩

theorem Ran.trans {m'' : Progress} (h : Ran m m') (h' : Ran m' m'') : Ran m m'' :=
  ⟨h'.closed.trans h.closed, h'.faulty.trans h.faulty, h'.stale.trans h.stale,
    fun hr => h'.recorded (h.recorded hr)⟩

/-- The agent is known to have ended by itself with this status, or not to have. -/
structure Ended (status : ExitStatus) (termination : Termination) (m : Progress) : Prop where
  told : termination = .cancelled → m.told = true
  exited : termination = .exited → m.agent.exit = some status
  interrupted : termination ≠ .exited → m.agent.exit = none

/-- The result says of a cancellation and of a failed agent what the worker knows of them. -/
structure Reports (result : ExecutionResult) (m : Progress) : Prop where
  told : result.termination = .cancelled → m.told = true
  givenUp : m.agent.givenUp = true → result.termination ≠ .exited
  failed : m.agent.givenUp = false → m.agent.Failed → result.termination = .exited ∧
    (result.status.success = false ∨ result.activityError.isSome = true)

/-- The start of an agent was given up. -/
theorem reports_preparation (hgiven : m.agent.givenUp = true) (hexited : t ≠ .exited)
    (htold : t = .cancelled → m.told = true) : Reports (preparationResult t) m :=
  ⟨htold, fun _ => hexited, fun h => by cases hgiven.symm.trans h⟩

theorem Reports.outcome (h : Reports result m) (hgiven : m.agent.givenUp = false) (hfailed : m.agent.Failed)
    (runtime : String) : (executionOutcome runtime result).1 = .failed ∧ result.termination ≠ .timedOut := by
  obtain ⟨ht, hresult⟩ := h.failed hgiven hfailed
  refine ⟨?_, by rw [ht]; nofun⟩
  simp only [executionOutcome, ht]
  cases hsuccess : result.status.success with
  | false => simp
  | true =>
    obtain ⟨error, he⟩ := Option.isSome_iff_exists.mp (hresult.resolve_left (by simp [hsuccess]))
    simp [he]

theorem Reports.outcome_givenUp (h : Reports result m) (hgiven : m.agent.givenUp = true) (runtime : String)
    (ht : result.termination ≠ .timedOut) : (executionOutcome runtime result).1 ≠ .failed := by
  have hexited := h.givenUp hgiven
  cases hc : result.termination with
  | cancelled =>
    simp only [executionOutcome, hc]
    exact nofun
  | timedOut => exact (ht hc).elim
  | exited => exact (hexited hc).elim

theorem Reports.cancelled (h : Reports result m) (runtime : String)
    (hc : (executionOutcome runtime result).1 = .cancelled) : m.told = true := by
  refine h.told ?_
  simp only [executionOutcome] at hc
  revert hc
  cases result.termination with
  | cancelled => exact fun _ => rfl
  | timedOut => exact nofun
  | exited =>
    dsimp only
    split
    · split <;> exact nofun
    · exact nofun

end Progress

open Progress

/-- After an execution that started at `m₀`. -/
abbrev Executed (m₀ : Progress) (result : ExecutionResult) (m : Progress) : Prop :=
  Ran m₀ m ∧ Reports result m

/-- After an execution that started at `m₀` and failed. -/
abbrev Broken (m₀ m : Progress) : Prop := Ran m₀ m ∧ m.agent.givenUp = false

namespace AgentRuntime
variable {R : AgentRuntime} {status : ExitStatus} {termination : Termination}

theorem collect_safe (h : Ended status termination m) (hm : m.agent.malformed = false)
    (hgiven : m.agent.givenUp = false) :
    Safe (rules job) (R.collect status termination) (Executed m) (fun _ => Broken m) m := by
  have hpipe : ∀ stream, Still (rules job) (act (.joinPipe stream)) := fun stream =>
    act_still (fun _ => trivial) fun _ answer => by cases answer <;> rfl
  have hnot : ∀ {p : Prop}, m.agent.givenUp = true → p := fun h => by cases hgiven.symm.trans h
  simp only [collect]
  split
  · refine safe_bind.mpr ((hpipe _).safe (fun stdout => ?_) fun _ => ⟨.refl, hgiven⟩)
    refine safe_bind.mpr ((hpipe _).safe (fun stderr => ?_) fun _ => ⟨.refl, hgiven⟩)
    refine ⟨.refl, h.told, hnot, fun _ ⟨_, s, hexit, hs⟩ => ?_⟩
    rw [hm] at hs
    by_cases ht : termination = .exited
    · rw [h.exited ht] at hexit
      cases hexit
      exact ⟨ht, .inl (hs.resolve_right nofun)⟩
    · rw [h.interrupted ht] at hexit
      cases hexit
  · refine safe_bind.mpr (act_safe trivial (fun capture _ => ?_) fun _ _ => ⟨⟨rfl, rfl, rfl, id⟩, hgiven⟩)
    refine safe_bind.mpr ((hpipe _).safe (fun stderr => ?_) fun _ => ⟨⟨rfl, rfl, rfl, id⟩, hgiven⟩)
    split
    · exact ⟨⟨rfl, rfl, rfl, id⟩, hgiven⟩
    · next t _ _ _ =>
      refine safe_bind.mpr (safe_mapFailure.mpr ?_)
      refine Still.safe (act_still (fun _ => trivial) fun _ answer => by cases answer <;> rfl)
        (fun response => ?_) fun _ => ⟨⟨rfl, rfl, rfl, id⟩, hgiven⟩
      refine ⟨⟨rfl, rfl, rfl, id⟩, h.told, hnot, fun _ ⟨_, s, hexit, hs⟩ => ?_⟩
      have hexit : m.agent.exit = some s := hexit
      by_cases ht : t = .exited
      · subst ht
        rw [h.exited rfl] at hexit
        cases hexit
        exact ⟨rfl, hs⟩
      · rw [h.interrupted ht] at hexit
        cases hexit

theorem awaitExit_safe (hexit : m.agent.exit = none) (hm : m.agent.malformed = false)
    (hgiven : m.agent.givenUp = false) :
    Safe (rules job) awaitExit (fun r m' => Ran m m' ∧ Ended r.1 r.2 m' ∧ m'.agent.malformed = false ∧
      m'.agent.givenUp = false) (fun _ => Broken m) m := by
  have hterminate : Still (rules job) (act .terminate) :=
    act_still (fun _ => trivial) fun _ answer => by cases answer <;> rfl
  refine safe_bind.mpr (act_safe hgiven (fun woken _ => ?_) fun _ _ => ⟨.refl, hgiven⟩)
  cases woken with
  | cancelled =>
    refine safe_bind.mpr (hterminate.safe (fun status => ?_) fun _ => ⟨⟨rfl, rfl, rfl, id⟩, hgiven⟩)
    exact ⟨⟨rfl, rfl, rfl, id⟩, ⟨fun _ => rfl, nofun, fun _ => hexit⟩, hm, hgiven⟩
  | deadline =>
    refine safe_bind.mpr (hterminate.safe (fun status => ?_) fun _ => ⟨.refl, hgiven⟩)
    exact ⟨.refl, ⟨nofun, nofun, fun _ => hexit⟩, hm, hgiven⟩
  | exited status =>
    exact ⟨⟨rfl, rfl, rfl, id⟩, ⟨nofun, fun _ => rfl, fun h => (h rfl).elim⟩, hm, hgiven⟩

/-- Unless the start of an agent is to be given up, it does not matter whether its process group stops. -/
theorem stopProcessGroup_safe {Q : Unit → Progress → Prop} {E : Failure → Progress → Prop}
    (hgiven : m.agent.givenUp = false) (hQ : Q () m) (hE : ∀ e, E e m) :
    Safe (rules job) (act .stopProcessGroup) Q E m := by
  refine act_safe trivial (fun _ _ => hQ) fun chain _ => ?_
  have hsame : m.next job.runId .stopProcessGroup (.error chain) = m := by
    show { m with agent := { m.agent with givenUp := false } } = m
    rw [← hgiven]
  rw [hsame]
  exact hE _

theorem cleanUpFailedDelivery_safe {Q : Unit → Progress → Prop} {E : Failure → Progress → Prop}
    (hgiven : m.agent.givenUp = false) (hQ : Q () m) (hE : ∀ e, E e m) :
    Safe (rules job) cleanUpFailedDelivery Q E m := by
  have hpipe : ∀ stream, Still (rules job) (ignore (act (.joinPipe stream))) := fun stream =>
    .bind (.attempt (act_still (fun _ => trivial) fun _ answer => by cases answer <;> rfl)) fun _ => .pure _
  have hterminate : Still (rules job) (ignore (act .terminate)) :=
    .bind (.attempt (act_still (fun _ => trivial) fun _ answer => by cases answer <;> rfl)) fun _ => .pure _
  refine safe_bind.mpr (hterminate.safe (fun _ => ?_) hE)
  refine safe_bind.mpr (safe_bind.mpr (safe_attempt.mpr ?_))
  have hpipes : Safe (rules job) (ignore (act (.joinPipe "stdout")) >>= fun _ =>
      ignore (act (.joinPipe "stderr"))) Q E m :=
    safe_bind.mpr ((hpipe _).safe (fun _ => (hpipe _).safe (fun _ => hQ) hE) hE)
  exact stopProcessGroup_safe hgiven hpipes fun _ => hpipes

/-- The agent has ended or was told to. -/
theorem reapAndCollect_safe (h₀ : Ran m₀ m) (h : Ended status termination m)
    (hm : m.agent.malformed = false) (hgiven : m.agent.givenUp = false) :
    Safe (rules job) (do
      act .reapProcessGroup
      R.collect status termination) (Executed m₀) (fun _ => Broken m₀) m := by
  refine safe_bind.mpr (Still.safe ?_ (fun _ => ?_) fun _ => ⟨h₀, hgiven⟩)
  · exact act_still (fun _ => trivial) fun _ answer => by cases answer <;> rfl
  · exact (collect_safe h hm hgiven).mono (fun _ _ h' => ⟨h₀.trans h'.1, h'.2⟩)
      fun _ _ h' => ⟨h₀.trans h'.1, h'.2⟩

theorem supervise_safe (h₀ : Ran m₀ m) (hexit : m.agent.exit = none) (hm : m.agent.malformed = false)
    (hgiven : m.agent.givenUp = false) :
    Safe (rules job) (R.supervise prompt) (Executed m₀) (fun _ => Broken m₀) m := by
  have hterminate : Still (rules job) (act .terminate) :=
    act_still (fun _ => trivial) fun _ answer => by cases answer <;> rfl
  refine safe_bind.mpr (Still.safe ?_ (fun _ => ?_) fun _ => ⟨h₀, hgiven⟩)
  · exact act_still (fun _ => trivial) fun _ answer => by cases answer <;> rfl
  refine safe_bind.mpr (safe_attempt.mpr (act_safe trivial (fun early hmay => ?_) fun _ _ => ?_))
  · rcases early with _ | (_ | _ | _)
    · refine safe_bind.mpr ((awaitExit_safe hexit hm hgiven).mono ?_ fun _ _ h => ⟨h₀.trans h.1, h.2⟩)
      rintro ⟨status, termination⟩ m' ⟨hran, hended, hm', hgiven'⟩
      exact reapAndCollect_safe (h₀.trans hran) hended hm' hgiven'
    · exact hmay.elim
    · refine safe_bind.mpr (hterminate.safe (fun status => ?_) fun _ => ⟨h₀, hgiven⟩)
      exact reapAndCollect_safe h₀ ⟨nofun, nofun, fun _ => hexit⟩ hm hgiven
    · have htold : Ran m₀ { m with told := true } := h₀.trans ⟨rfl, rfl, rfl, id⟩
      refine safe_bind.mpr (hterminate.safe (fun status => ?_) fun _ => ⟨htold, hgiven⟩)
      exact reapAndCollect_safe htold ⟨fun _ => rfl, nofun, fun _ => hexit⟩ hm hgiven
  · exact safe_bind.mpr (cleanUpFailedDelivery_safe hgiven ⟨h₀, hgiven⟩ fun _ => ⟨h₀, hgiven⟩)

theorem giveUp_safe (h₀ : Ran m₀ m) (h : Reports (preparationResult termination) m) :
    Safe (rules job) (giveUp termination) (Executed m₀) (fun _ => Broken m₀) m := by
  refine safe_bind.mpr (act_safe trivial (fun _ _ => ⟨h₀, h⟩) fun _ _ => ?_)
  exact ⟨h₀.trans ⟨rfl, rfl, rfl, id⟩, rfl⟩

/-- `preparation_termination`, before the agent is spawned. -/
theorem preparation_safe {next : Option Termination → Work ExecutionResult} (h₀ : Ran m₀ m)
    (hagent : m.agent.Preparing)
    (hgive : ∀ t m, Ran m₀ m → Reports (preparationResult t) m →
      Safe (rules job) (next (some t)) (Executed m₀) (fun _ => Broken m₀) m)
    (hnext : Safe (rules job) (next none) (Executed m₀) (fun _ => Broken m₀) m) :
    Safe (rules job) (act .preparationTermination >>= next) (Executed m₀) (fun _ => Broken m₀) m := by
  refine safe_bind.mpr (act_safe hagent.vacant (fun t hmay => ?_) fun _ _ => ⟨h₀, hagent.givenUp⟩)
  rcases t with _ | (_ | _ | _)
  · exact hnext
  · exact hmay.elim
  · exact hgive .timedOut _ (h₀.trans ⟨rfl, rfl, rfl, id⟩) (reports_preparation rfl nofun nofun)
  · exact hgive .cancelled _ (h₀.trans ⟨rfl, rfl, rfl, id⟩) (reports_preparation rfl nofun fun _ => rfl)

theorem spawnAndSupervise_safe (h₀ : Ran m₀ m) (hagent : m.agent.Preparing) (hanchored : m.anchored = true) :
    Safe (rules job) (R.spawnAndSupervise prompt) (Executed m₀) (fun _ => Broken m₀) m := by
  refine preparation_safe h₀ hagent (fun _ _ => giveUp_safe) ?_
  have hbroken : Broken m₀ m := ⟨h₀, hagent.givenUp⟩
  refine safe_bind.mpr (safe_attempt.mpr (act_safe ⟨hanchored, hagent.vacant⟩ (fun t hmay => ?_) fun _ _ => ?_))
  · rcases t with _ | (_ | _ | _)
    · have hspawned : Ran m₀ { m with agent := { spawned := true } } := h₀.trans ⟨rfl, rfl, rfl, id⟩
      exact supervise_safe hspawned rfl rfl rfl
    · exact hmay.elim
    · exact giveUp_safe (h₀.trans ⟨rfl, rfl, rfl, id⟩) (reports_preparation rfl nofun nofun)
    · exact giveUp_safe (h₀.trans ⟨rfl, rfl, rfl, id⟩) (reports_preparation rfl nofun fun _ => rfl)
  · refine safe_bind.mpr (safe_bind.mpr (safe_attempt.mpr ?_))
    exact stopProcessGroup_safe hagent.givenUp hbroken fun _ => hbroken

theorem persistRunAnchor_safe (hjob : job.backend.onHost = true) (hid : processId ≠ 0) :
    Safe (rules job) (Work.anchor (persistRunAnchor job.runId processId identity))
      (fun _ m' => m' = { m with anchored := true }) (fun _ m' => m' = m) m := by
  refine safe_embed.mpr (safe_bind.mpr ⟨trivial, fun a _ => ?_⟩)
  cases a with
  | error chain => rfl
  | ok _ =>
    refine ⟨⟨hjob, processId, some identity, hid, rfl⟩, fun a _ => ?_⟩
    cases a <;> rfl

theorem anchorAndSpawn_safe (h₀ : Ran m₀ m) (hjob : job.backend.onHost = true) (hagent : m.agent.Preparing)
    (hid : processId ≠ 0) :
    Safe (rules job) (R.anchorAndSpawn job.runId prompt processId identity) (Executed m₀)
      (fun _ => Broken m₀) m := by
  refine safe_bind.mpr (safe_attempt.mpr ((persistRunAnchor_safe hjob hid).mono ?_ ?_))
  · rintro _ _ rfl
    have hanchored : Ran m₀ { m with anchored := true } := h₀.trans ⟨rfl, rfl, rfl, id⟩
    refine safe_bind.mpr (act_safe ⟨rfl, hid⟩ (fun _ _ => ?_) fun _ _ => ⟨hanchored, hagent.givenUp⟩)
    exact spawnAndSupervise_safe hanchored hagent rfl
  · rintro e _ rfl
    refine safe_bind.mpr (safe_mapFailure.mpr ?_)
    exact stopProcessGroup_safe hagent.givenUp ⟨h₀, hagent.givenUp⟩ fun _ => ⟨h₀, hagent.givenUp⟩

theorem prepareAndSpawn_safe (h₀ : Ran m₀ m) (hjob : job.backend.onHost = true) (hagent : m.agent.Preparing) :
    Safe (rules job) (R.prepareAndSpawn job.runId prompt) (Executed m₀) (fun _ => Broken m₀) m := by
  refine safe_bind.mpr (act_safe trivial (fun anchor hmay => ?_) fun _ _ => ⟨h₀, hagent.givenUp⟩)
  refine safe_bind.mpr (Still.safe ?_ (fun _ => ?_) fun _ => ⟨h₀, hagent.givenUp⟩)
  · exact act_still (fun _ => trivial) fun _ answer => by cases answer <;> rfl
  · exact preparation_safe h₀ hagent (fun _ _ => giveUp_safe) (anchorAndSpawn_safe h₀ hjob hagent hmay)

/-- **An execution on the host** leaves the run open, and reports what became of its agent. -/
theorem run_ok (hjob : job.backend.onHost = true) (hagent : m.agent.Preparing) :
    Safe (rules job) (R.run job.runId prompt session) (Executed m) (fun _ => Broken m) m := by
  have hbroken : Broken m m := ⟨.refl, hagent.givenUp⟩
  refine preparation_safe .refl hagent (fun t m h₀ h => ⟨h₀, h⟩) ?_
  dsimp only
  split
  · split
    · exact hbroken
    · exact prepareAndSpawn_safe .refl hjob hagent
  · refine safe_bind.mpr (Still.safe (.mapFailure _ ?_) (fun _ => ?_) fun _ => hbroken)
    · exact act_still (fun _ => trivial) fun _ answer => by cases answer <;> rfl
    · exact prepareAndSpawn_safe .refl hjob hagent

end AgentRuntime

/-! ## `execute_task_inner` -/

/-- The run is closed, or a vital write has failed. -/
def Progress.Settled (m : Progress) : Prop := m.closed = true ∨ m.faulty = true

/-- A write that closes the run. -/
theorem closing_safe {op : Op} (hok : m.okWrite job op) (hcloses : op.closes job.runId = true) :
    Safe (rules job) (Work.write op) (fun _ m' => Settled m' ∧ m'.recorded = m.recorded)
      (fun _ => Settled) m := by
  refine act_safe hok (fun _ _ => ?_) fun _ _ => .inr ?_
  · cases op with
    | finishRunAndTask | finishRunAndTaskTerminal | failPrelaunchAndRequeue =>
      refine ⟨.inl ?_, rfl⟩
      show (m.closed || _) = true
      rw [hcloses, Bool.or_true]
    | _ => cases hcloses
  · cases op with
    | finishRunAndTask | finishRunAndTaskTerminal | failPrelaunchAndRequeue => exact Bool.or_true _
    | _ => cases hcloses

/-- The worker fails its run. -/
theorem failing_safe (hgiven : job.backend.onHost = true → m.agent.givenUp = false) :
    Safe (rules job) (Work.write (.finishRunAndTask job.runId .failed result error session))
      (fun _ => Settled) (fun _ => Settled) m :=
  have hok : m.okWrite job (.finishRunAndTask job.runId .failed result error session) :=
    ⟨rfl, nofun, nofun, fun hjob _ => iff_of_true rfl (hgiven hjob)⟩
  (closing_safe hok (decide_eq_true rfl)).mono (fun _ _ h => h.1) fun _ _ h => h

/-- A write about the run that does not close it. -/
theorem observing_safe {Q : Unit → Progress → Prop} (hzero : processId ≠ some 0)
    (hanchored : processId.isSome → m.anchored = true) (hQ : Q () m) :
    Safe (rules job) (Work.write (.observeRun job.runId processId identity session pullRequest activity))
      Q (fun _ => Settled) m := by
  refine act_safe ⟨rfl, hanchored, hzero⟩ (fun _ _ => ?_) fun _ _ => .inr (Bool.or_true _)
  have hsame : m.next job.runId (.shared (.write (.observeRun job.runId processId identity session
      pullRequest activity))) (.ok ()) = m := by
    show { m with closed := m.closed || false } = m
    rw [Bool.or_false]
  rw [hsame]
  exact hQ

/-- After what `execute_task_inner` makes of its agent. -/
structure Progress.Outcome (execution : Except Failure ExecutionResult) (m : Progress) : Prop where
  stale : m.stale = false
  reports : execution = .ok result → Reports result m
  broken : execution = .error e → m.agent.givenUp = false

/-- The worker falls back to a fresh agent only if it did not give up the start of the first one. -/
theorem Progress.Outcome.givenUp {execution : Except Failure ExecutionResult} (h : Outcome execution m)
    (hneeds : needsFallback execution = true) : m.agent.givenUp = false := by
  cases execution with
  | error e => exact h.broken rfl
  | ok result =>
    simp only [needsFallback, Bool.and_eq_true, decide_eq_true_eq] at hneeds
    exact Bool.eq_false_iff.mpr fun hgiven => (h.reports rfl).givenUp hgiven hneeds.1

theorem attemptRun_safe {R : AgentRuntime} (hjob : job.backend.onHost = true) (hagent : m.agent.Preparing)
    (hstale : m.stale = false) :
    Safe (rules job) (attempt (R.run job.runId prompt session)) Outcome (fun _ => Settled) m := by
  refine safe_attempt.mpr ((R.run_ok hjob hagent).mono (fun result m' h => ⟨?_, ?_, nofun⟩)
    fun e m' h => ⟨?_, nofun, fun _ => h.2⟩)
  · exact h.1.stale.trans hstale
  · rintro _ ⟨⟩
    exact h.2
  · exact h.1.stale.trans hstale

theorem fallBack_safe {R : AgentRuntime} (hjob : job.backend.onHost = true) (hgiven : m.agent.givenUp = false) :
    Safe (rules job) (fallBack R job.runId prompt) Outcome (fun _ => Settled) m := by
  refine safe_bind.mpr (act_safe trivial (fun _ _ => ?_) fun _ h => h.elim)
  refine safe_bind.mpr (safe_attempt.mpr (act_safe ⟨rfl, rfl⟩ (fun _ _ => ?_) fun _ _ => ?_))
  · refine safe_bind.mpr (act_safe trivial (fun _ _ => ?_) fun _ h => h.elim)
    refine attemptRun_safe hjob ?_ rfl
    have hreset : Engine.agentAfter job.runId m.agent
        (.shared (.write (.resetRunRuntimeObservation job.runId))) (.ok ()) = { m.agent with reset := true } :=
      if_pos rfl
    show (Engine.agentAfter job.runId m.agent
      (.shared (.write (.resetRunRuntimeObservation job.runId))) (.ok ())).Preparing
    rw [hreset]
    exact ⟨hgiven, .inr rfl⟩
  · refine safe_bind.mpr (Safe.mono (failing_safe ?_) (fun _ _ h => h) fun _ _ h => h)
    exact fun _ => hgiven

theorem resumeSession_safe {R : AgentRuntime} (hjob : job.backend.onHost = true)
    (hagent : m.agent.Preparing) (hstale : m.stale = false) :
    Safe (rules job) (resumeSession crates R job.runId providerName prompt session) Outcome
      (fun _ => Settled) m := by
  refine safe_bind.mpr ((attemptRun_safe hjob hagent hstale).mono (fun resumed m' h => ?_) fun _ _ h => h)
  split
  · next hneeds =>
    refine safe_bind.mpr (act_safe trivial (fun cancelled _ => ?_) fun _ h => h.elim)
    split
    · exact h
    · refine safe_bind.mpr (observing_safe nofun nofun ?_)
      refine safe_bind.mpr (act_safe trivial (fun late _ => ?_) fun _ h => h.elim)
      split
      · exact h
      · exact fallBack_safe hjob (h.givenUp hneeds)
  · exact h

theorem executeAgent_safe {R : AgentRuntime} (hjob : job.backend.onHost = true)
    (hagent : m.agent.Preparing) (hstale : m.stale = false) :
    Safe (rules job) (executeAgent crates R job.runId providerName prompt session) Outcome
      (fun _ => Settled) m := by
  cases session with
  | some session => exact resumeSession_safe hjob hagent hstale
  | none => exact attemptRun_safe hjob hagent hstale

theorem recordLatest_safe {Q : Unit → Progress → Prop} (hstale : m.stale = false) (hQ : Q () m) :
    Safe (rules job) (recordLatest job.runId) Q (fun _ => Settled) m := by
  refine safe_bind.mpr (act_safe hstale (fun o ho => ?_) fun _ h => h.elim)
  split
  · exact observing_safe ho.2 ho.1 hQ
  · exact hQ

theorem executionOutcome_ne_running : (executionOutcome runtime result).1 ≠ .running := by
  rw [executionOutcome]
  repeat' split
  all_goals exact nofun

/-- `record_execution` says of the agent what the result says. -/
theorem recordExecution_safe (h : Reports result m) :
    Safe (rules job) (Work.shared (recordExecution job.runId runtime result))
      (fun _ m' => Settled m' ∧ m'.recorded = m.recorded) (fun _ => Settled) m := by
  refine safe_embed.mpr (safe_bind.mpr ?_)
  refine Safe.mono (m := m) (safe_embed.mp (closing_safe ?_ ?_)) (fun _ m' hm => ?_) fun _ _ h => h
  · split
    · next ht =>
      refine ⟨rfl, executionOutcome_ne_running, h.cancelled runtime, fun _ hfailed => ?_⟩
      by_contra hgiven
      exact (h.outcome (Bool.eq_false_iff.mpr hgiven) hfailed runtime).2 ht
    · next ht =>
      refine ⟨rfl, executionOutcome_ne_running, h.cancelled runtime, fun _ hfailed => ?_⟩
      constructor
      · intro houtcome
        exact Bool.eq_false_iff.mpr fun hgiven => h.outcome_givenUp hgiven runtime ht houtcome
      · exact fun hgiven => (h.outcome hgiven hfailed runtime).1
  · split <;> exact decide_eq_true rfl
  · refine ⟨trivial, fun a _ => ?_⟩
    cases a with
    | ok _ => exact hm
    | error _ => exact hm.1

theorem executeTask_safe {R : AgentRuntime} (hjob : job.backend.onHost = true) (hagent : m.agent.Preparing) :
    Safe (rules job) (executeTask crates R job.runId providerName prompt session) (fun _ => Settled)
      (fun _ => Settled) m := by
  refine safe_bind.mpr (act_safe trivial (fun _ _ => ?_) fun _ h => h.elim)
  refine safe_bind.mpr (Safe.mono (m := { m with stale := false, watched := true })
    (executeAgent_safe hjob hagent rfl) (fun execution m' h => ?_) fun _ _ h => h)
  refine safe_bind.mpr (act_safe trivial (fun _ _ => ?_) fun _ h => h.elim)
  refine safe_bind.mpr (recordLatest_safe h.stale ?_)
  cases execution with
  | ok result =>
    have hreports : Reports result { m' with watched := false } :=
      ⟨(h.reports rfl).told, (h.reports rfl).givenUp, (h.reports rfl).failed⟩
    exact (recordExecution_safe hreports).mono (fun _ _ h => h.1) fun _ _ h => h
  | error error =>
    refine safe_bind.mpr (Safe.mono (failing_safe ?_) (fun _ _ h => h) fun _ _ h => h)
    exact fun _ => h.broken rfl

/-! ## `execute_sandbox_task` -/

/-- The discipline over the commands of the sandbox worker. -/
abbrev sandboxRules (job : Launch) : Monitor Cmd Cmd.Answer Progress :=
  (rules job).comap WorkerCmd.shared

theorem shared_safe {c : Cmd} {Q : c.Value → Progress → Prop} {E : Failure → Progress → Prop}
    (hok : m.ok job (.shared c)) (hQ : ∀ b, Q b (m.next job.runId (.shared c) (.ok b)))
    (hE : ∀ chain, m.may (.shared c) (.error chain) →
      E ⟨chain, none⟩ (m.next job.runId (.shared c) (.error chain))) :
    Safe (sandboxRules job) (Async.command c) Q E m := by
  refine ⟨hok, fun answer ha => ?_⟩
  cases answer with
  | ok b => exact hQ b
  | error chain => exact hE chain ha

theorem shared_still {c : Cmd} (hok : ∀ m : Progress, m.ok job (.shared c))
    (hnext : ∀ (m : Progress) answer, m.next job.runId (.shared c) answer = m) :
    Still (sandboxRules job) (Async.command c) :=
  .issue hok hnext

section
variable {S : SandboxWorker} {name clone : String}

theorem logs_safe {Q : String → Progress → Prop} {E : Failure → Progress → Prop} (hQ : ∀ logs, Q logs m) :
    Safe (sandboxRules job) (Async.orDefault (SandboxWorker.logs name)) Q E m := by
  refine safe_bind.mpr (safe_attempt.mpr (Still.safe ?_ (fun logs => hQ logs) fun _ => hQ ""))
  exact shared_still (fun _ => trivial) fun _ answer => by cases answer <;> rfl

theorem stop_safe {Q : Unit → Progress → Prop} {E : Failure → Progress → Prop} (hQ : Q () m) :
    Safe (sandboxRules job) (Async.ignore (SandboxWorker.stop name)) Q E m := by
  refine safe_bind.mpr (safe_attempt.mpr (Still.safe ?_ (fun _ => hQ) fun _ => hQ))
  exact shared_still (fun _ => trivial) fun _ answer => by cases answer <;> rfl

theorem remove_still : Still (sandboxRules job) (SandboxWorker.remove name) :=
  shared_still (fun _ => trivial) fun _ answer => by cases answer <;> rfl

theorem preserveWorkspace_still : Still (sandboxRules job) (SandboxWorker.preserveWorkspace name clone) := by
  refine .bind (.mapFailure _ ?_) fun _ => .bind (.mapFailure _ ?_) fun _ => .mapFailure _ ?_
  all_goals exact shared_still (fun _ => trivial) fun _ answer => by cases answer <;> rfl

/-- The last `select!` of `execute`. -/
theorem await_safe (hexit : m.agent.exit = none) (hgiven : m.agent.givenUp = false) :
    Safe (sandboxRules job) (SandboxWorker.await name)
      (fun r m' => Ran m m' ∧ (r.1 = .cancelled → m'.told = true) ∧ m'.agent.givenUp = false ∧
        (r.1 = .exited → ∃ status, r.2 = some status ∧ m'.agent.exit = some status) ∧
        (r.1 ≠ .exited → m'.agent.exit = none)) (fun _ => Ran m) m := by
  have hstop : Still (sandboxRules job) (SandboxWorker.stop name) :=
    shared_still (fun _ => trivial) fun _ answer => by cases answer <;> rfl
  refine safe_bind.mpr (shared_safe hgiven (fun woken => ?_) fun _ _ => .refl)
  cases woken with
  | cancelled =>
    have htold : Ran m { m with told := true } := ⟨rfl, rfl, rfl, id⟩
    refine safe_bind.mpr (hstop.safe (fun _ => ?_) fun _ => htold)
    exact ⟨htold, fun _ => rfl, hgiven, nofun, fun _ => hexit⟩
  | deadline =>
    refine safe_bind.mpr (hstop.safe (fun _ => ?_) fun _ => .refl)
    exact ⟨.refl, nofun, hgiven, nofun, fun _ => hexit⟩
  | exited status =>
    exact ⟨⟨rfl, rfl, rfl, id⟩, nofun, hgiven, fun _ => ⟨status, rfl, rfl⟩, fun h => (h rfl).elim⟩

theorem execute_ok (hjob : job.backend.onHost = false) :
    Safe (sandboxRules job) (SandboxWorker.execute identity prompt) (Executed m) (fun _ => Ran m) m := by
  have hspawned : Ran m { m with agent := { spawned := true } } := ⟨rfl, rfl, rfl, id⟩
  refine safe_bind.mpr (safe_mapFailure.mpr (shared_safe hjob (fun _ => ?_) fun _ _ => ⟨rfl, rfl, rfl, id⟩))
  refine safe_bind.mpr (Still.safe ?_ (fun _ => ?_) fun _ => hspawned)
  · exact shared_still (fun _ => trivial) fun _ answer => by cases answer <;> rfl
  refine safe_bind.mpr ((await_safe rfl rfl).mono ?_ fun _ _ h => hspawned.trans h)
  rintro ⟨termination, status⟩ m' ⟨hran, htold, hgiven, hexited, hother⟩
  have hran := hspawned.trans hran
  have hread : ∀ malformed, Ran m { m' with agent := { m'.agent with malformed := malformed } } :=
    fun _ => hran.trans ⟨rfl, rfl, rfl, id⟩
  refine safe_bind.mpr (shared_safe trivial (fun stdout => ?_) fun _ _ => hran)
  refine safe_bind.mpr (Still.safe ?_ (fun stderr => ?_) fun _ => hread _)
  · exact shared_still (fun _ => trivial) fun _ answer => by cases answer <;> rfl
  refine safe_bind.mpr (Still.safe ?_ (fun response => ?_) fun _ => hread _)
  · refine .bind (.attempt ?_) fun result => by cases result <;> exact .pure _
    exact shared_still (fun _ => trivial) fun _ answer => by cases answer <;> rfl
  refine ⟨hread _, htold, fun h => (nomatch hgiven.symm.trans h), fun _ ⟨_, s, hexit, hs⟩ => ?_⟩
  have hexit : m'.agent.exit = some s := hexit
  by_cases ht : termination = .exited
  · obtain ⟨_, rfl, hstatus⟩ := hexited ht
    cases hstatus.symm.trans hexit
    exact ⟨ht, hs⟩
  · rw [hother ht] at hexit
    cases hexit

theorem next_finishRunSandbox : m.next r (.shared (.write (.finishRunSandbox r' state exitCode logs
    removed))) (.ok ()) = m := by
  show { m with closed := m.closed || false } = m
  rw [Bool.or_false]

/-- The row of the sandbox is written before the sandbox is created. -/
theorem persistCreating_safe :
    Safe (sandboxRules job) (persist S crates now job.runId identity .creating)
      (fun _ m' => Ran m m' ∧ m'.recorded = true) (fun _ => Ran m) m := by
  refine safe_bind.mpr (Still.safe ?_ (fun _ => ?_) fun _ => .refl)
  · exact shared_still (fun _ => trivial) fun _ answer => by cases answer <;> rfl
  · rw [if_pos rfl]
    have hrecorded : (m.recorded || decide (job.runId = job.runId)) = true := by simp
    exact shared_safe trivial (fun _ => ⟨⟨rfl, rfl, rfl, fun _ => hrecorded⟩, hrecorded⟩)
      fun _ _ => ⟨rfl, Bool.or_false _, rfl, id⟩

theorem persistCreated_still : Still (sandboxRules job) (persist S crates now job.runId identity .created) := by
  refine .bind (shared_still (fun _ => trivial) fun _ answer => by cases answer <;> rfl) fun _ => ?_
  rw [if_neg nofun]
  refine shared_still (fun m => ⟨rfl, fun h => (h rfl).elim⟩) fun m answer => ?_
  cases answer with
  | ok _ => exact next_finishRunSandbox
  | error _ =>
    show { m with faulty := m.faulty || false } = m
    rw [Bool.or_false]

/-- **An execution in a sandbox** leaves the run open, and reports what became of its agent. -/
theorem sandboxRun_ok (hjob : job.backend.onHost = false) :
    Safe (sandboxRules job) (S.run job.runId clone prompt (persist S crates now job.runId))
      (fun r m' => (Ran m m' ∧ Reports r.1 m') ∧ m'.recorded = true) (fun _ => Ran m) m := by
  refine safe_bind.mpr (Still.safe ?_ (fun version => ?_) fun _ => .refl)
  · exact shared_still (fun _ => trivial) fun _ answer => by cases answer <;> rfl
  refine safe_bind.mpr (persistCreating_safe.mono ?_ fun _ _ h => h)
  rintro _ m' ⟨hran, hrecorded⟩
  refine safe_bind.mpr (safe_mapFailure.mpr (Still.safe ?_ (fun _ => ?_) fun _ => hran))
  · refine .bind (.mapFailure _ ?_) fun _ => .mapFailure _ ?_
    all_goals exact shared_still (fun _ => trivial) fun _ answer => by cases answer <;> rfl
  refine safe_bind.mpr (safe_attempt.mpr (persistCreated_still.safe (fun _ => ?_) fun _ => ?_))
  · refine safe_bind.mpr (safe_attempt.mpr ((execute_ok hjob).mono (fun result m'' h => ?_) fun _ m'' h => ?_))
    · exact ⟨⟨hran.trans h.1, h.2⟩, h.1.recorded hrecorded⟩
    · exact safe_bind.mpr (stop_safe (hran.trans h))
  · exact safe_bind.mpr ((Still.bind (.attempt remove_still) fun _ => .pure _).safe (fun _ => hran)
      fun _ => hran)

/-- A write about the sandbox of a run that was recorded. -/
theorem finishing_safe {Q : Unit → Progress → Prop} (hstate : state ≠ .created)
    (hrecorded : m.recorded = true) (hQ : Q () m) :
    Safe (sandboxRules job) (finishRunSandbox job.runId state exitCode logs removed) Q
      (fun _ => Settled) m := by
  refine shared_safe ⟨rfl, fun _ => hrecorded⟩ (fun _ => ?_) fun _ _ => .inr ?_
  · rw [next_finishRunSandbox]
    exact hQ
  · show (m.faulty || decide (state ≠ .created)) = true
    rw [decide_eq_true hstate, Bool.or_true]

theorem sandboxFailing_safe (hjob : job.backend.onHost = false) :
    Safe (sandboxRules job) (FlashyFactory.write (.finishRunAndTask job.runId .failed result error session))
      (fun _ => Settled) (fun _ => Settled) m :=
  safe_embed.mp (failing_safe fun hhost => by cases hjob.symm.trans hhost)

theorem Termination.sandboxState_ne_created {termination : Termination} :
    termination.sandboxState ≠ .created := by
  cases termination <;> exact nofun

/-- `Ok((result, identity))` in `execute_sandbox_task`. -/
theorem finishExecuted_safe (hjob : job.backend.onHost = false) (h : Reports result m)
    (hrecorded : m.recorded = true) :
    Safe (sandboxRules job) (finishExecuted job.runId clone result identity) (fun _ => Settled)
      (fun _ => Settled) m := by
  refine safe_bind.mpr (logs_safe fun logs => ?_)
  refine safe_bind.mpr (finishing_safe Termination.sandboxState_ne_created hrecorded ?_)
  refine safe_bind.mpr (safe_attempt.mpr (preserveWorkspace_still.safe (fun _ => ?_) fun e => ?_))
  · refine safe_bind.mpr ((safe_embed.mp (recordExecution_safe h)).mono (fun _ m' h' => ?_) fun _ _ h => h)
    have hrecorded := h'.2.trans hrecorded
    refine safe_bind.mpr (finishing_safe nofun hrecorded ?_)
    refine safe_bind.mpr (safe_mapFailure.mpr (remove_still.safe (fun _ => ?_) fun _ => h'.1))
    exact finishing_safe Termination.sandboxState_ne_created hrecorded h'.1
  · refine safe_bind.mpr (stop_safe ?_)
    refine safe_bind.mpr (finishing_safe nofun hrecorded ?_)
    exact safe_bind.mpr ((sandboxFailing_safe hjob).mono (fun _ _ h => h) fun _ _ h => h)

/-- The clean-up of the sandbox of a failed run. -/
theorem cleanUpSandbox_safe {row : RunSandbox} {evidence : String} {Q : Option Failure → Progress → Prop}
    (hrecorded : m.recorded = true) (hQ : ∀ e, Q e m) :
    Safe (sandboxRules job) (cleanUpSandbox job.runId clone row identity evidence) Q
      (fun _ => Settled) m := by
  have hremove : ∀ {k}, Safe (sandboxRules job) (k (.ok ())) Q (fun _ => Settled) m →
      (∀ e, Safe (sandboxRules job) (k (.error e)) Q (fun _ => Settled) m) →
      Safe (sandboxRules job) (finishRunSandbox job.runId .removing none (some evidence) false >>=
        fun _ => attempt (SandboxWorker.remove identity.name) >>= k) Q (fun _ => Settled) m := by
    intro k hok herror
    refine safe_bind.mpr (finishing_safe (fun h => by cases h) hrecorded ?_)
    exact safe_bind.mpr (safe_attempt.mpr (remove_still.safe (fun _ => hok) herror))
  have hclose : Safe (sandboxRules job) (do
      finishRunSandbox job.runId .error none (some evidence) true
      pure none) Q (fun _ => Settled) m :=
    safe_bind.mpr (finishing_safe (fun h => by cases h) hrecorded (hQ none))
  by_cases hstate : row.state = .created
  · simp only [cleanUpSandbox, if_pos hstate]
    refine safe_bind.mpr (safe_attempt.mpr (preserveWorkspace_still.safe
      (fun _ => hremove hclose fun e => hQ _) fun e => ?_))
    refine safe_bind.mpr (stop_safe ?_)
    exact safe_bind.mpr (finishing_safe (fun h => by cases h) hrecorded (hQ _))
  · simp only [cleanUpSandbox, if_neg hstate]
    exact safe_bind.mpr (hremove hclose fun e => hQ _)

theorem finishRecorded_safe {row : Option RunSandbox} {error : Failure} {Q : Option Failure → Progress → Prop}
    (hrecorded : row.isSome → m.recorded = true) (hQ : ∀ e, Q e m) :
    Safe (sandboxRules job) (finishRecorded job.runId clone error row) Q (fun _ => Settled) m := by
  cases row with
  | none => exact hQ none
  | some row =>
    have hrecorded := hrecorded rfl
    have hlogs : ∀ {Q : String → Progress → Prop}, (∀ logs, Q logs m) →
        Safe (sandboxRules job) (failureLogs error) Q (fun _ => Settled) m := by
      intro Q hQ
      unfold failureLogs
      split
      · exact logs_safe hQ
      · exact hQ ""
    refine safe_bind.mpr (hlogs fun logs => safe_bind.mpr (finishing_safe nofun hrecorded ?_))
    cases error.identity with
    | none => exact hQ none
    | some identity => exact cleanUpSandbox_safe hrecorded hQ

/-- `Err(error)` in `execute_sandbox_task`. -/
theorem finishFailed_safe {error : Failure} (hjob : job.backend.onHost = false) :
    Safe (sandboxRules job) (finishFailed job.runId clone error) (fun _ => Settled) (fun _ => Settled) m := by
  refine safe_bind.mpr (shared_safe trivial (fun row => ?_) fun _ _ => .inr rfl)
  refine safe_bind.mpr (finishRecorded_safe (fun hrow => ?_) fun cleanupError => ?_)
  · cases row with
    | none => cases hrow
    | some row =>
      show (m.recorded || decide (job.runId = job.runId)) = true
      simp
  · refine safe_bind.mpr ((sandboxFailing_safe hjob).mono (fun _ _ h => ?_) fun _ _ h => h)
    cases cleanupError <;> exact h

/-- The pull request and the activity that were observed last. -/
theorem recordObservation_safe {Q : Unit → Progress → Prop} (hQ : Q () m) :
    Safe (sandboxRules job) (recordObservation job.runId) Q (fun _ => Settled) m := by
  refine safe_bind.mpr (shared_safe trivial (fun o => ?_) fun _ h => h.elim)
  split
  · exact safe_embed.mp (observing_safe nofun nofun hQ)
  · exact hQ

end

theorem executeMonitored_safe {S : SandboxWorker} (hjob : job.backend.onHost = false) :
    Safe (rules job) (executeMonitored S crates now job.runId clone prompt) (fun _ => Settled)
      (fun _ => Settled) m := by
  refine safe_bind.mpr (act_safe trivial (fun _ _ => ?_) fun _ h => h.elim)
  refine safe_bind.mpr (safe_attempt.mpr (safe_embed.mpr ((sandboxRun_ok hjob).mono ?_ ?_)))
  · rintro ⟨result, identity⟩ m' ⟨⟨-, hreports⟩, hrecorded⟩
    refine safe_bind.mpr (act_safe trivial (fun _ _ => ?_) fun _ h => h.elim)
    refine safe_bind.mpr (safe_embed.mpr (recordObservation_safe ?_))
    have hreports : Reports result { m' with watched := false } :=
      ⟨hreports.told, hreports.givenUp, hreports.failed⟩
    exact safe_embed.mpr (finishExecuted_safe hjob hreports hrecorded)
  · rintro error m' -
    refine safe_bind.mpr (act_safe trivial (fun _ _ => ?_) fun _ h => h.elim)
    exact safe_bind.mpr (safe_embed.mpr (recordObservation_safe (safe_embed.mpr (finishFailed_safe hjob))))

/-! ## The worker -/

theorem launchExecute_safe (hagent : m.agent.Preparing) :
    Safe (rules job) (job.execute crates clone prompt) (fun _ => Settled) (fun _ => Settled) m := by
  unfold Launch.execute
  split
  · next hb => exact executeTask_safe (by rw [hb]; rfl) hagent
  · next hb => exact executeMonitored_safe (by rw [hb]; rfl)

/-- A worker that has not started its agent. -/
structure Progress.Prelaunch (m : Progress) : Prop where
  agent : m.agent = {}
  anchored : m.anchored = false

theorem prelaunch_safe (hm : m.Prelaunch) :
    Safe (rules job) (Work.write (.failPrelaunchAndRequeue job.runId error)) (fun _ => Settled)
      (fun _ => Settled) m :=
  have hok : m.okWrite job (.failPrelaunchAndRequeue job.runId error) := ⟨rfl, hm.agent, hm.anchored⟩
  (closing_safe hok (decide_eq_true rfl)).mono (fun _ _ h => h.1) fun _ _ h => h

theorem rejectUnauthorized_safe (hm : m.Prelaunch) :
    Safe (rules job) (rejectUnauthorized job error) (fun _ => Settled) (fun _ => Settled) m := by
  simp only [rejectUnauthorized]
  split
  · exact failing_safe fun _ => by rw [hm.agent]
  · exact prelaunch_safe hm

theorem executeAndFinalize_safe (hm : m.Prelaunch) :
    Safe (rules job) (executeAndFinalize crates job clone prompt) (fun _ => Settled)
      (fun _ => Settled) m := by
  have hfinalize : ∀ {m : Progress} {Q : Unit → Progress → Prop}, Q () m →
      Safe (rules job) (Work.ignore (act .finalizeTaskWorkspace)) Q (fun _ => Settled) m := fun hQ =>
    safe_bind.mpr (safe_attempt.mpr (Still.safe (act_still (fun _ => trivial) fun _ answer => by
      cases answer <;> rfl) (fun _ => hQ) fun _ => hQ))
  refine safe_bind.mpr (safe_attempt.mpr ((launchExecute_safe (hm.agent ▸ AgentHistory.preparing_empty)).mono ?_ ?_))
  · exact fun _ _ h => safe_bind.mpr (hfinalize h)
  · exact fun _ _ h => safe_bind.mpr (hfinalize h)

theorem prepareAndExecute_safe (hm : m.Prelaunch) :
    Safe (rules job) (prepareAndExecute crates job) (fun _ => Settled) (fun _ => Settled) m := by
  refine safe_bind.mpr (safe_attempt.mpr (act_safe trivial (fun clone _ => ?_) fun _ _ => ?_))
  · refine safe_bind.mpr (safe_attempt.mpr (act_safe trivial (fun prompt _ => ?_) fun _ _ => ?_))
    · exact executeAndFinalize_safe hm
    · exact prelaunch_safe hm
  · exact prelaunch_safe hm

/-- **Whatever fails, the future of a worker is ready only when its run is closed or a write that
it depends on has failed.** -/
theorem runWorker_safe (hm : m.Prelaunch) :
    Safe (rules job) (runWorker crates job) (fun _ => Settled) (fun _ => Settled) m := by
  refine safe_bind.mpr (safe_attempt.mpr ?_)
  unfold authorize
  split
  · exact prepareAndExecute_safe hm
  · exact act_safe trivial (fun _ _ => prepareAndExecute_safe hm) fun _ _ => rejectUnauthorized_safe hm

theorem worker_safe (crates : Crates) (job : Launch) :
    (Engine.worker crates job).Safe (discipline job) (fun _ _ => True) {} := by
  have hrules : ((runWorker crates job).run >>= fun _ => Prog.call .finished fun _ => .done ()).Safe
      (rules job) (fun _ _ => True) {} := by
    have hworker : Safe (rules job) (runWorker crates job) (fun _ => Settled) (fun _ => Settled) {} :=
      runWorker_safe ⟨rfl, rfl⟩
    refine Prog.safe_bind.mpr (Prog.Safe.mono (fun r m h => ?_) hworker)
    have hsettled : m.Settled := by
      cases r <;> exact h
    exact ⟨hsettled, fun _ _ => trivial⟩
  refine Prog.safe_embed.mpr (hrules.weaken ?_ ?_ ?_)
  · exact fun h => ⟨rfl, h⟩
  · exact fun h => h
  · rfl

end FlashyFactory
