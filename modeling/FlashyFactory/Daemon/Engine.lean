import FlashyFactory.Daemon.Agent
import FlashyFactory.Storage.RunSteps

/-! # The machine of the daemons

Workers run beside each other and beside what is not a worker: the monitor of each run, the loops
and the owner heartbeats of the daemons, the operator, the agents, and every other operation on
the ledger. A worker's `CancellationToken` is cancelled when its own token is or that of its
daemon. -/

namespace FlashyFactory
open Process Script

/-- How the agent of a run that was started last got on, and what became of it since. -/
structure AgentHistory where
  spawned : Bool := false
  /-- The agent ended by itself. -/
  exit : Option ExitStatus := none
  /-- The activity that was read of it is malformed. -/
  malformed : Bool := false
  /-- The runtime observation of the run was reset, for a fresh agent. -/
  reset : Bool := false
  /-- A cancellation or the deadline came before the start of a fresh agent, whose process group was stopped. -/
  givenUp : Bool := false
deriving DecidableEq, Repr

/-- The agent was started and ended by itself, with a non-zero status or malformed activity. -/
def AgentHistory.Failed (h : AgentHistory) : Prop :=
  h.spawned = true ∧ ∃ status, h.exit = some status ∧ (status.success = false ∨ h.malformed = true)

instance {h : AgentHistory} : Decidable h.Failed := by
  unfold AgentHistory.Failed
  cases h.exit with
  | none => exact .isFalse (by simp)
  | some status =>
    exact decidable_of_iff (h.spawned = true ∧ (status.success = false ∨ h.malformed = true))
      (by simp)

structure Engine where
  world : World := {}
  /-- The tokens of daemons that are cancelled. -/
  stopped : ℕ → Bool := fun _ => false
  /-- The runs whose own token is cancelled. -/
  runStopped : ℕ → Bool := fun _ => false
  /-- The runs whose monitor runs. -/
  monitored : ℕ → Bool := fun _ => false
  channel : ℕ → ChannelObservation := fun _ => {}
  /-- History: the tokens of daemons that the operator cancelled. -/
  operator : ℕ → Bool := fun _ => false
  /-- History: the worker that was spawned for a run. -/
  launched : ℕ → Option Launch := fun _ => none
  /-- History: the runs whose worker's future has ended. -/
  ended : List ℕ := []
  agent : ℕ → AgentHistory := fun _ => {}

/-- What the environment decides about a command of a worker. -/
structure Signal extends Choice where
  processId : ℕ := 4242
  status : ExitStatus := .signal 15 "SIGTERM"
  termination : Option Termination := none
  flag : Bool := false
  threadId : Option String := none

/-- A command and the worker that issues it. -/
structure Order where
  job : Launch
  act : WorkerCmd

abbrev Order.Answer (order : Order) : Type := order.act.Answer

namespace Engine

def ledger (E : Engine) : Ledger := E.world.ledger

/-- The token of the worker is cancelled. -/
def cancelled (E : Engine) (job : Launch) : Bool := E.stopped job.token || E.runStopped job.runId

/-- A command that the environment may let fail. -/
def settle (E : Engine) (o : Signal) (value : α) (after : Engine) : Except (List String) α × Engine :=
  match o.failure with
  | some e => (.error e, if o.takesEffect then after else E)
  | none => (.ok value, after)

/-- What a `select!` with the worker's token and its deadline is interrupted by. -/
def interruption (E : Engine) (job : Launch) : Option Termination → Option Termination
  | some .cancelled => if E.cancelled job then some .cancelled else none
  | some .timedOut => some .timedOut
  | _ => none

def woken (E : Engine) (job : Launch) : Woken → Woken
  | .cancelled => if E.cancelled job then .cancelled else .deadline
  | w => w

def noteAgent (E : Engine) (r : ℕ) (h : AgentHistory) : Engine :=
  { E with agent := Function.update E.agent r h }

/-- What a command of the worker tells of the agent. -/
def agentAfter (r : ℕ) (h : AgentHistory) : (a : WorkerCmd) → a.Answer → AgentHistory
  | .preparationTermination, .ok (some _) | .spawnAgent, .ok (some _) => { h with givenUp := true }
  | .stopProcessGroup, .error _ => { h with givenUp := false }
  | .spawnAgent, .ok none => { spawned := true }
  | .waitForExit, .ok (.exited status) => { h with exit := some status }
  | .joinActivity, .ok capture => { h with malformed := capture.malformedLine.isSome }
  | .shared (.spawn _), .ok () => { spawned := true }
  | .shared .select, .ok (.exited status) => { h with exit := some status }
  | .shared (.capture stream), .ok capture =>
    if stream = "stdout" then { h with malformed := capture.malformed.isSome } else h
  | .shared (.write (.resetRunRuntimeObservation id)), .ok () => if id = r then { h with reset := true } else h
  | _, _ => h

/-- A command of the sandbox worker. A transaction that fails is rolled back. -/
def sharedExec (crates : Crates) (E : Engine) (p : ℕ) (job : Launch) (c : Cmd) (o : Signal) :
    c.Answer × Engine :=
  match c with
  | .observation => (.ok (E.channel job.runId).toRuntimeObservation, E)
  | .select =>
    let (a, w) := E.world.exec crates p .select { o.toChoice with woken := E.woken job o.woken }
    (a, { E with world := w })
  | .write op =>
    let (a, w) := E.world.exec crates p (.write op) { o.toChoice with takesEffect := false }
    (a, { E with world := w })
  | c =>
    let (a, w) := E.world.exec crates p c o.toChoice
    (a, { E with world := w })

/-- A command before its history is noted. -/
def perform (crates : Crates) (E : Engine) (p : ℕ) (job : Launch) (a : WorkerCmd) (o : Signal) :
    a.Answer × Engine :=
  match a with
  | .shared c | .anchor c => E.sharedExec crates p job c o
  | .authorize => E.settle o () E
  | .prepareTaskWorkspace => E.settle o o.text E
  | .executionPrompt => E.settle o o.text E
  | .finalizeTaskWorkspace => E.settle o () E
  | .spawnRunMonitor => (.ok (), { E with
      channel := Function.update E.channel job.runId {}
      monitored := Function.update E.monitored job.runId true })
  | .abortRunMonitor => (.ok (), { E with monitored := Function.update E.monitored job.runId false })
  | .isCancelled => (.ok (E.cancelled job), E)
  | .remainingIsZero => (.ok o.flag, E)
  | .preparationTermination =>
    (.ok (if E.cancelled job then some .cancelled else if o.flag then some .timedOut else none), E)
  | .temporaryFile => E.settle o () E
  | .startProcessGroup =>
    if o.processId = 0 then (.error ["Codex process-group anchor has no positive process ID"], E)
    else E.settle o (o.processId, o.text) E
  | .configureProcessGroup | .stopProcessGroup => E.settle o () E
  | .sendAnchor processId processIdentity => (.ok (), { E with
      channel := Function.update E.channel job.runId
        { processId := some processId, processIdentity := some processIdentity, sequence := 1 } })
  | .spawnAgent => E.settle o (E.interruption job o.termination) E
  | .takePipes => E.settle o () E
  | .deliverPrompt _ => E.settle o (E.interruption job o.termination) E
  | .terminate => E.settle o o.status E
  | .waitForExit => E.settle o (E.woken job o.woken) E
  | .reapProcessGroup => E.settle o () E
  | .joinActivity => E.settle o ⟨o.threadId, o.capture.malformed⟩ E
  | .joinPipe _ => E.settle o o.capture.text E
  | .readFinalResponse => E.settle o o.text E
  | .latestObservation => (.ok (E.channel job.runId), E)
  | .finished => (.ok (), { E with ended := job.runId :: E.ended })

def exec (crates : Crates) (E : Engine) (p : ℕ) (order : Order) (o : Signal) : order.Answer × Engine :=
  let (a, E') := E.perform crates p order.job order.act o
  (a, E'.noteAgent order.job.runId
    (agentAfter order.job.runId (E.agent order.job.runId) order.act a))

end Engine

/-! ## What happens beside the workers -/

namespace Op

/-- The operations that only the worker and the monitor of a run call: they close it, or write or
forget the process id of its agent. -/
def ofWorker : Op → Bool
  | finishRunAndTask .. | finishRunAndTaskTerminal .. | failPrelaunchAndRequeue .. => true
  | observeRun _ (some _) .. | resetRunRuntimeObservation _ => true
  | _ => false

end Op

inductive Happening
  /-- Another operation on the ledger, or something beside it. -/
  | outside (e : Outside)
  | operatorCancels (token : ℕ)
  /-- `run_loop` leaves its loop, with an error or because a poller has ended. -/
  | loopEnds (token : ℕ)
  /-- One tick of `maintain_owner_lease`. -/
  | heartbeat (token : ℕ) (ownerId : String) (host : Host) (failure : Bool)
  /-- `monitor_run` cannot open its ledger. -/
  | monitorFails (runId : ℕ)
  /-- `monitor_run` records what the channel holds. -/
  | monitorObserves (runId : ℕ) (host : Host) (failure : Bool)
  /-- `monitor_run` looks for a request to cancel the run. -/
  | monitorPolls (runId : ℕ) (failure : Bool)
  /-- The agent of a run writes to its output. -/
  | agentReports (runId : ℕ) (sessionId pullRequest activity : Option String) (sequence : ℕ)

namespace Engine

def call (crates : Crates) (E : Engine) (c : Call) : Engine :=
  { E with world := E.world.callLedger crates c }

/-- The monitor of the run gives up and cancels the run's token. -/
def stopRun (E : Engine) (r : ℕ) : Engine :=
  { E with
    runStopped := Function.update E.runStopped r true
    monitored := Function.update E.monitored r false }

def stop (E : Engine) (token : ℕ) : Engine :=
  { E with stopped := Function.update E.stopped token true }

/-- What the monitor of the run records. -/
def observation (E : Engine) (r : ℕ) : Op :=
  let o := E.channel r
  .observeRun r o.processId o.processIdentity o.sessionId o.pullRequest o.activity

def cancellationRequested (E : Engine) (r : ℕ) : Bool :=
  (E.ledger.runs.get? r).any fun run => run.outcome = .running && run.cancellationRequestedAt.isSome

def happen (crates : Crates) (E : Engine) : Happening → Engine
  | .outside (.call c) =>
    if c.op.ofWorker then E else E.call crates c
  | .outside e => { E with world := E.world.outside crates e }
  | .operatorCancels token =>
    { E.stop token with operator := Function.update E.operator token true }
  | .loopEnds token => E.stop token
  | .heartbeat token ownerId host failure =>
    let c : Call := ⟨host, .heartbeatDaemonOwner ownerId⟩
    if failure || (E.ledger.failure? crates c).isSome then E.stop token else E.call crates c
  | .monitorFails r => if E.monitored r then E.stopRun r else E
  | .monitorObserves r host failure =>
    let c : Call := ⟨host, E.observation r⟩
    if !E.monitored r then E
    else if failure || (E.ledger.failure? crates c).isSome then E.stopRun r
    else E.call crates c
  | .monitorPolls r failure =>
    if !E.monitored r then E
    else if failure || E.cancellationRequested r then E.stopRun r
    else E
  | .agentReports r sessionId pullRequest activity sequence =>
    let o := E.channel r
    { E with channel := Function.update E.channel r { o with
        sessionId := sessionId <|> o.sessionId, pullRequest := pullRequest <|> o.pullRequest
        activity := activity <|> o.activity, sequence := max o.sequence sequence } }

def mayStart (E : Engine) (job : Launch) : Bool :=
  (E.launched job.runId).isNone && (E.ledger.runs.get? job.runId).any fun run =>
    Ledger.isRunning run && run.ownerId = some job.ownerId

def start (E : Engine) (job : Launch) : Engine :=
  { E with launched := Function.update E.launched job.runId (some job) }

/-- The worker of a run, up to the point where its future is ready. -/
def worker (crates : Crates) (job : Launch) : Prog Order Order.Answer Unit :=
  ((runWorker crates job).run >>= fun _ => Prog.call .finished fun _ => .done ()).embed
    (fun a => ⟨job, a⟩)

def machine (crates : Crates) : Machine Engine Order Order.Answer ℕ Launch Signal Happening where
  program := worker crates
  exec := exec crates
  mayStart := mayStart
  start E _ job := E.start job
  env := happen crates

end Engine

abbrev Floor := Machine.State Engine Order Order.Answer ℕ Launch

abbrev Floor.Event := Process.Event ℕ Launch Signal Happening

namespace Floor

/-- A fresh data directory on which no worker runs. -/
def initial : Floor := ⟨{}, fun _ => none⟩

def step (crates : Crates) : Floor → Event → Floor := (Engine.machine crates).step

def after (crates : Crates) (es : List Event) : Floor := Transition.run (step crates) initial es

end Floor

end FlashyFactory
