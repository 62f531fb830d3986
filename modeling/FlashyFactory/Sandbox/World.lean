import FlashyFactory.Storage.Rows
import FlashyFactory.Lib.Process

/-! # What a sandbox worker acts on

The commands of `sandbox.rs` and of the two functions of `daemon.rs` that call it, one for each
place where they leave the process: `sbx`, Git in the host clone, and the ledger. `World` is the
state those commands see and change. The environment decides in a `Choice` whether a command
fails and whether it has taken effect nevertheless. -/

namespace FlashyFactory

/-! ## Records -/

structure SandboxIdentity where
  name : String
  template : String
  sbxVersion : String
  instanceId : String
  runId : ℕ
deriving DecidableEq, Repr

structure OwnedSandbox where
  name : String
  instanceId : String
  runId : ℕ
deriving DecidableEq, Repr

structure WorkerConfig where
  template : String
  memory : String
  cpus : ℕ
deriving DecidableEq, Repr

inductive Termination
  | exited
  | timedOut
  | cancelled
deriving DecidableEq, Repr

inductive ExitStatus
  | code (n : ℤ)
  | signal (n : ℕ) (name : String)
deriving DecidableEq, Repr

namespace ExitStatus

def code? : ExitStatus → Option ℤ
  | code n => some n
  | signal _ _ => none

def success (status : ExitStatus) : Bool := status = code 0

def display : ExitStatus → String
  | code n => "exit status: " ++ toString n
  | signal n name => "signal: " ++ toString n ++ " (" ++ name ++ ")"

end ExitStatus

structure PipeCapture where
  text : String := ""
  malformed : Option String := none
deriving DecidableEq, Repr

structure ExecutionResult where
  status : ExitStatus
  termination : Termination
  finalResponse : String
  threadId : Option String
  activityError : Option String
  stderrTail : String
deriving DecidableEq, Repr

structure RuntimeObservation where
  pullRequest : Option String := none
  activity : Option String := none
  sequence : ℕ := 0
deriving DecidableEq, Repr

/-- `anyhow::Error`: the messages, outermost first, and the identity of the `SandboxRunFailure`
among them. -/
structure Failure where
  chain : List String
  identity : Option SandboxIdentity := none
deriving DecidableEq, Repr

namespace Failure

def context (message : String) (e : Failure) : Failure := { e with chain := message :: e.chain }

/-- The `{:#}` form. -/
def display (e : Failure) : String := String.intercalate ": " e.chain

/-- `SandboxRunFailure { identity, source }`. -/
def sandboxRun (identity : SandboxIdentity) (source : Failure) : Failure where
  chain := ("Docker Sandbox worker " ++ identity.name ++ " failed: " ++ source.display) :: source.chain
  identity := some identity

end Failure

/-- `factory-{instance_id}-{run_id}`. -/
def sandboxName (instanceId : String) (runId : ℕ) : String :=
  "factory-" ++ instanceId ++ "-" ++ toString runId

theorem sandboxName_inj : sandboxName i r = sandboxName i r' ↔ r = r' := by
  refine ⟨fun h => ?_, fun h => h ▸ rfl⟩
  have hdigits : (toString r).toList = (toString r').toList := by
    simpa [sandboxName, String.append_assoc] using congrArg String.toList h
  simpa [Nat.toString_eq_repr, Nat.toList_repr] using congrArg (Nat.ofDigitChars 10 · 0) hdigits

/-! ## Commands -/

/-- What `tokio::select!` in `execute` is woken by. -/
inductive Woken
  | cancelled
  | deadline
  | exited (status : ExitStatus)
deriving DecidableEq, Repr

inductive Cmd
  /-- `sbx version` -/
  | version
  /-- `sbx ls --quiet` -/
  | ls
  | canonicalize (path : String)
  /-- `sbx create --quiet --name .. --clone .. codex ..` -/
  | create (name : String) (config : WorkerConfig) (clone : String)
  /-- `sbx stop ..` -/
  | stop (name : String)
  /-- `sbx rm --force ..` -/
  | rm (name : String)
  /-- `sbx exec .. cat` of the captured output -/
  | logs (name : String)
  /-- `sbx exec .. cat /tmp/factory-last-message` -/
  | finalResponse (name : String)
  /-- Spawning `sbx exec --interactive .. codex exec` -/
  | spawn (name : String)
  | writePrompt (prompt : String)
  | select
  /-- `await_capture` -/
  | capture (stream : String)
  /-- `sbx exec ..` with `SNAPSHOT_COMMAND` -/
  | snapshot (name : String)
  /-- `git fetch --force sandbox-.. HEAD` -/
  | fetch (clone name : String)
  /-- `git reset --hard FETCH_HEAD` -/
  | reset (clone : String)
  | openLedger
  | write (op : Op)
  | associateSuccessfulImplementationHandoff (runId : ℕ)
  | unremovedRunSandboxes (instanceId : String)
  | runSandbox (runId : ℕ)
  | run (runId : ℕ)
  | task (taskId : ℕ)
  | taskWorkspace (taskId : ℕ)
  /-- The last value of the observation channel; this never fails. -/
  | observation

/-- What a command returns. -/
@[reducible] def Cmd.Value : Cmd → Type
  | version | canonicalize _ | logs _ | finalResponse _ => String
  | ls => List String
  | select => Woken
  | capture _ => PipeCapture
  | unremovedRunSandboxes _ => List RunSandbox
  | runSandbox _ => Option RunSandbox
  | run _ => Option Run
  | task _ => Option Task
  | taskWorkspace _ => Option TaskWorkspace
  | observation => RuntimeObservation
  | _ => Unit

/-- What a command is answered; a failure is a chain of messages. -/
abbrev Cmd.Answer (c : Cmd) : Type := Except (List String) c.Value

/-- The commands of `preserve_workspace`. -/
def Cmd.hands : Cmd → Bool
  | snapshot _ | fetch _ _ | reset _ => true
  | _ => false

/-! ## The world -/

/-- How far a process is with `preserve_workspace`. -/
inductive Handoff
  | snapshotted (name : String)
  | fetched (name clone : String)
  | restored (name : String)
deriving DecidableEq, Repr

/-- The next stage after a command that succeeded or not. -/
def Handoff.next (h : Option Handoff) : Cmd → Bool → Option Handoff
  | .snapshot name, true => some (.snapshotted name)
  | .fetch clone name, true => if h = some (.snapshotted name) then some (.fetched name clone) else none
  | .reset clone, true => match h with
    | some (.fetched name path) => if path = clone then some (.restored name) else none
    | _ => none
  | .snapshot _, false | .fetch _ _, false | .reset _, false => none
  | _, _ => h

namespace Handoff

@[simp] theorem next_snapshot : next h (.snapshot name) true = some (.snapshotted name) := rfl

@[simp] theorem next_fetch :
    next (some (.snapshotted name)) (.fetch clone name) true = some (.fetched name clone) := by
  simp [next]

@[simp] theorem next_reset :
    next (some (.fetched name clone)) (.reset clone) true = some (.restored name) := by
  simp [next]

end Handoff

structure World where
  ledger : Ledger := .empty
  /-- The sandboxes that exist. -/
  sandboxes : List String := []
  /-- The agent command runs in the sandbox. -/
  running : String → Bool := fun _ => false
  /-- The sandbox whose commit is the `FETCH_HEAD` of a host clone. -/
  fetchHead : String → Option String := fun _ => none
  /-- The runs whose worker has been started. -/
  launched : List ℕ := []
  /-- History: the agent command has been started in the sandbox. -/
  spawned : String → Bool := fun _ => false
  /-- History: the snapshots that a host clone was reset to, the newest first. -/
  resets : String → List String := fun _ => []
  /-- History: what each process has done of `preserve_workspace` since the agent stopped. -/
  handoff : ℕ → Option Handoff := fun _ => none
  /-- History: `preserve_workspace` has succeeded for the sandbox since its agent stopped. -/
  preserved : String → Bool := fun _ => false

/-- What the environment decides about a command. -/
structure Choice where
  host : Host
  failure : Option (List String) := none
  /-- A command that fails has taken effect. -/
  takesEffect : Bool := false
  text : String := ""
  woken : Woken := .exited (.code 0)
  capture : PipeCapture := {}
  observation : RuntimeObservation := {}

namespace World

/-- The answer to a command that returns `value` and leads to `after`, unless it is refused or
the environment lets it fail. -/
def settle (w : World) (o : Choice) (refusal : Option String) (value : α) (after : World) :
    Except (List String) α × World :=
  match o.failure, refusal with
  | some e, none => (.error e, if o.takesEffect then after else w)
  | some e, some _ => (.error e, w)
  | none, some message => (.error [message], w)
  | none, none => (.ok value, after)

/-- A command that only reads. -/
def read (w : World) (o : Choice) (value : α) : Except (List String) α × World :=
  w.settle o none value w

def missing (w : World) (o : Choice) (name : String) : Option String :=
  if name ∈ w.sandboxes then none
  else some ("Docker Sandboxes command failed with exit status: 1: " ++ o.text)

def createSandbox (w : World) (name : String) : World :=
  { w with sandboxes := name :: w.sandboxes }

def stopAgent (w : World) (name : String) : World :=
  { w with running := Function.update w.running name false }

def removeSandbox (w : World) (name : String) : World :=
  { w.stopAgent name with sandboxes := w.sandboxes.filter (· ≠ name) }

def spawnAgent (w : World) (name : String) : World :=
  { w with
    running := Function.update w.running name true
    spawned := Function.update w.spawned name true
    preserved := Function.update w.preserved name false }

/-- The history after process `p` was answered. -/
def noteHandoff (w : World) (p : ℕ) (h : Option Handoff) : World :=
  { w with
    handoff := Function.update w.handoff p h
    preserved := match h with
      | some (.restored name) => Function.update w.preserved name true
      | _ => w.preserved }

def resetClone (w : World) (clone : String) : World :=
  match w.fetchHead clone with
  | none => w
  | some name => { w with resets := Function.update w.resets clone (name :: w.resets clone) }

/-- The row of a run in `run_sandboxes`. -/
def row (w : World) (r : ℕ) : Option RunSandbox := w.ledger.runSandboxes.get? r

/-- One call of the ledger. -/
def callLedger (crates : Crates) (w : World) (c : Call) : World :=
  { w with ledger := w.ledger.step crates c }

def exec (crates : Crates) (w : World) (p : ℕ) (c : Cmd) (o : Choice) : c.Answer × World :=
  match c with
  | .version => w.read o o.text
  | .ls => w.read o w.sandboxes
  | .canonicalize _ => w.read o o.text
  | .create name _ _ =>
    let refusal := if name ∈ w.sandboxes then
      some ("Docker Sandboxes command failed with exit status: 1: " ++ o.text) else none
    w.settle o refusal () (w.createSandbox name)
  | .stop name => w.settle o (w.missing o name) () (w.stopAgent name)
  | .rm name => w.settle o none () (w.removeSandbox name)
  | .logs name => w.settle o (w.missing o name) o.text w
  | .finalResponse name => w.settle o (w.missing o name) o.text w
  | .spawn name => w.settle o (w.missing o name) () (w.spawnAgent name)
  | .writePrompt _ => w.read o ()
  | .select => w.read o o.woken
  | .capture _ => w.read o o.capture
  | .snapshot name =>
    let (a, w') := w.settle o (w.missing o name) () w
    -- a snapshot of a sandbox whose agent still runs is not one since the agent stopped
    (a, w'.noteHandoff p
      (if w.running name then none else Handoff.next (w.handoff p) c (Except.isOk a)))
  | .fetch clone name =>
    let (a, w') := w.settle o (w.missing o name) ()
      { w with fetchHead := Function.update w.fetchHead clone (some name) }
    (a, w'.noteHandoff p (Handoff.next (w.handoff p) c (Except.isOk a)))
  | .reset clone =>
    let (a, w') := w.settle o none () (w.resetClone clone)
    (a, w'.noteHandoff p (Handoff.next (w.handoff p) c (Except.isOk a)))
  | .openLedger => w.read o ()
  | .write op =>
    let call : Call := ⟨o.host, op⟩
    w.settle o ((w.ledger.failure? crates call).map LedgerError.message) () (w.callLedger crates call)
  -- writes `autonomous_pull_requests`, which nothing here reads
  | .associateSuccessfulImplementationHandoff _ => w.read o ()
  | .unremovedRunSandboxes instanceId => w.read o (w.ledger.unremovedRunSandboxes instanceId)
  | .runSandbox runId => w.read o (w.row runId)
  | .run runId => w.read o (w.ledger.runs.get? runId)
  | .task taskId => w.read o (w.ledger.tasks.get? taskId)
  | .taskWorkspace taskId => w.read o (w.ledger.taskWorkspaces.get? taskId)
  | .observation => (.ok o.observation, w)

end World
end FlashyFactory
