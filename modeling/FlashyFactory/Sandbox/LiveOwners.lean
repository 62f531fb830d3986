import FlashyFactory.Lib.Exceptions
import FlashyFactory.Sandbox.Rollback
import FlashyFactory.Sandbox.Handover
import FlashyFactory.Storage.RunSteps

/-! # Recovery and live owners

`recover_orphaned_runs` leaves a run alone whose owner holds its lease and is alive.
`reconcile_sandbox_workers` takes every sandbox of its data directory in hand that `sbx ls` lists, also
that of a run on which another daemon is at work. -/

namespace FlashyFactory
open Process Script SandboxWorker Async

/-- The sandbox that the command stops, removes or hands over to the host clone. -/
def Cmd.touches : Cmd → Option String
  | .stop name | .snapshot name | .fetch _ name | .rm name => some name
  | _ => none

/-- The sandboxes that a recovery knows of after the command: those that `sbx ls` has listed. -/
def Cmd.listed (names : List String) : (c : Cmd) → c.Answer → List String
  | .ls, .ok lines => lines.map trim
  | _, _ => names

/-- A recovery touches only sandboxes that it has listed. -/
def listMonitor : Role → Monitor Cmd Cmd.Answer (List String)
  | .worker .. => ⟨fun _ _ => True, fun _ _ _ => True, fun names _ _ => names⟩
  | .recovery =>
    ⟨fun names c => ∀ name, c.touches = some name → name ∈ names, fun _ _ _ => True,
      fun names c a => c.listed names a⟩

/-- The script lists no sandboxes anew, and touches only those that are listed. -/
def KeepsTo (names : List String) (x : Async β) : Prop :=
  Safe (listMonitor .recovery) x (fun _ listed => listed = names) (fun _ listed => listed = names) names

namespace KeepsTo
variable {names : List String} {x : Async β} {f : β → Async γ} {name clone : String}

theorem command {c : Cmd} (htouches : ∀ name, c.touches = some name → name ∈ names)
    (hlisted : ∀ a, c.listed names a = names) : KeepsTo names (Async.command c) := by
  refine ⟨htouches, fun a _ => ?_⟩
  have hsame := hlisted a
  cases a <;> exact hsame

theorem quiet {c : Cmd} (htouches : c.touches = none) (hlisted : ∀ a, c.listed names a = names) :
    KeepsTo names (Async.command c) :=
  command (fun _ h => by cases htouches.symm.trans h) hlisted

theorem pure : KeepsTo names (Pure.pure b : Async β) := rfl

theorem bail : KeepsTo names (Async.bail message : Async β) := rfl

theorem orBail {value : Option β} : KeepsTo names (Async.orBail value message) := by
  cases value
  · exact bail
  · exact pure

theorem bind (hx : KeepsTo names x) (hf : ∀ b, KeepsTo names (f b)) : KeepsTo names (x >>= f) := by
  refine safe_bind.mpr (Safe.mono hx (fun b listed h => ?_) fun _ _ h => h)
  rw [h]
  exact hf b

theorem attempt (hx : KeepsTo names x) : KeepsTo names (Script.attempt x) :=
  safe_attempt.mpr (Safe.mono hx (fun _ _ h => h) fun _ _ h => h)

theorem context (hx : KeepsTo names x) : KeepsTo names (Async.context message x) :=
  safe_mapFailure.mpr (Safe.mono hx (fun _ _ h => h) fun _ _ h => h)

theorem ignore {x : Async Unit} (hx : KeepsTo names x) : KeepsTo names (Async.ignore x) :=
  hx.attempt.bind fun _ => pure

theorem forM {f : δ → Async PUnit} {xs : List δ} (hf : ∀ x ∈ xs, KeepsTo names (f x)) :
    KeepsTo names (xs.forM f) := by
  refine safe_forM (fun x hx listed h => ?_) rfl
  rw [h]
  exact hf x hx

theorem write : KeepsTo names (FlashyFactory.write op) := quiet rfl fun _ => rfl

theorem stop (hname : name ∈ names) : KeepsTo names (SandboxWorker.stop name) := by
  refine command (fun other h => ?_) fun _ => rfl
  cases h
  exact hname

theorem remove (hname : name ∈ names) : KeepsTo names (SandboxWorker.remove name) := by
  refine command (fun other h => ?_) fun _ => rfl
  cases h
  exact hname

theorem preserveWorkspace (hname : name ∈ names) : KeepsTo names (SandboxWorker.preserveWorkspace name clone) := by
  refine bind (context (command (fun other h => ?_) fun _ => rfl)) fun _ =>
    bind (context (command (fun other h => ?_) fun _ => rfl)) fun _ => context (quiet rfl fun _ => rfl)
  · cases h
    exact hname
  · cases h
    exact hname

end KeepsTo

section
variable {names : List String} {sandbox : OwnedSandbox}

theorem recoverSandbox_keeps (hname : sandbox.name ∈ names) : KeepsTo names (recoverSandbox sandbox) := by
  have hlogs : KeepsTo names (SandboxWorker.logs sandbox.name) := .quiet rfl fun _ => rfl
  refine KeepsTo.bind (KeepsTo.bind hlogs.attempt fun logs => ?_) fun _ =>
    (KeepsTo.stop hname).ignore.bind fun _ => .pure
  cases logs <;> exact .pure

theorem recoverOwned_keeps (hname : sandbox.name ∈ names) (recorded : RunSandbox) (run : Run)
    (workspace : TaskWorkspace) : KeepsTo names (recoverOwned sandbox recorded run workspace) := by
  have hobserve : ∀ text, KeepsTo names (observeRecovered sandbox.runId run text) := by
    intro text
    unfold observeRecovered
    split
    · exact .write
    · exact .pure
  refine (recoverSandbox_keeps hname).bind fun text => ?_
  split
  · exact .pure
  · refine (hobserve text).bind fun _ => KeepsTo.write.bind fun _ =>
      (KeepsTo.preserveWorkspace hname).attempt.bind fun preserved => ?_
    cases preserved with
    | error e => exact (KeepsTo.stop hname).ignore.bind fun _ => .write
    | ok _ => exact KeepsTo.write.bind fun _ => (KeepsTo.remove hname).bind fun _ => .write

theorem workspaceOwnerIsResolved_keeps (owner : String) (workspace : TaskWorkspace) :
    KeepsTo names (workspaceOwnerIsResolved owner workspace) := by
  refine (KeepsTo.quiet rfl fun _ => rfl).bind fun _ => KeepsTo.orBail.bind fun task => ?_
  split
  · exact .pure
  · exact (KeepsTo.quiet rfl fun _ => rfl).bind fun _ => .pure

theorem reconcileOwned_keeps (owner : String) (hname : sandbox.name ∈ names) :
    KeepsTo names (reconcileOwned owner sandbox) := by
  refine (KeepsTo.quiet rfl fun _ => rfl).bind fun _ => KeepsTo.orBail.bind fun recorded => ?_
  split
  · exact .bail
  · refine (KeepsTo.quiet rfl fun _ => rfl).bind fun _ => KeepsTo.orBail.bind fun run =>
      (KeepsTo.quiet rfl fun _ => rfl).bind fun _ => KeepsTo.orBail.bind fun workspace =>
        (workspaceOwnerIsResolved_keeps owner workspace).bind fun resolved => ?_
    split
    · exact recoverOwned_keeps hname recorded run workspace
    · exact .write

end

/-- A sandbox of this instance is one of those that are listed. -/
theorem name_mem_of_parseOwned {S : SandboxWorker} (h : S.parseOwned lines = .ok owned)
    (hsandbox : sandbox ∈ owned) : sandbox.name ∈ lines.map trim := by
  obtain ⟨line, hline, hparsed⟩ := Except.mapM_backward (Except.mapM_eq_ok.mp h) hsandbox
  split at hparsed
  · cases hparsed
    exact List.mem_map_of_mem (List.mem_of_mem_filter hline)
  · cases hparsed

/-- **A recovery touches only sandboxes that it has listed.** -/
theorem reconcileSandboxWorkers_lists (S : SandboxWorker) (owner : String) :
    Safe (listMonitor .recovery) (reconcileSandboxWorkers S owner) (fun _ _ => True) (fun _ _ => True) [] := by
  unfold reconcileSandboxWorkers SandboxWorker.ownedSandboxes
  refine safe_bind.mpr (safe_bind.mpr ⟨fun _ h => ?_, fun answer _ => ?_⟩)
  · cases h
  cases answer with
  | error e => trivial
  | ok lines =>
    dsimp only [Prog.Safe, Except.mapError]
    cases howned : S.parseOwned lines with
    | error message => trivial
    | ok owned =>
      have hrest : KeepsTo (lines.map trim) (do
          let recorded ← Async.command (.unremovedRunSandboxes S.instanceId)
          recorded.forM (forgetRemoved owned)
          owned.forM (reconcileOwned owner)) := by
        refine (KeepsTo.quiet rfl fun _ => rfl).bind fun recorded => (KeepsTo.forM fun row _ => ?_).bind fun _ =>
          KeepsTo.forM fun sandbox hsandbox => reconcileOwned_keeps owner (name_mem_of_parseOwned howned hsandbox)
        unfold forgetRemoved
        split
        · exact .write
        · exact .pure
      exact hrest.mono (fun _ _ _ => trivial) fun _ _ _ => trivial

namespace World

/-- The sandbox is that of a run at work, whose owner holds its lease and is alive. -/
def LiveRun (S : SandboxWorker) (w : World) (host : Host) (name : String) : Prop :=
  ∃ run ∈ w.ledger.runs, name = sandboxName S.instanceId run.id ∧ run.outcome = .running ∧
    w.ledger.OwnerLiveAt host run

/-- A recovery does not stop, hand over or remove the sandbox of a live run. -/
def Spares (S : SandboxWorker) (w : World) (roles : ℕ → Option Role) (p : ℕ) (c : Cmd)
    (o : Choice) : Prop :=
  roles p = some .recovery → ∀ name ∈ c.touches, ¬ w.LiveRun S o.host name

/-- None of the sandboxes that a recovery has listed is that of a live run. -/
def ListsDead (S : SandboxWorker) (x : Daemons × Machine.Watches ℕ Role (List String)) :
    Event ℕ Role Choice Outside → Prop
  | .act p o => match x.1.procs p, x.2 p with
    | some (.recovery, _), some (_, names) => ∀ name ∈ names, ¬ x.1.world.LiveRun S o.host name
    | _, _ => True
  | _ => True

instance : Decidable (LiveRun S w host name) :=
  inferInstanceAs (Decidable (∃ run ∈ w.ledger.runs, _ ∧ _ ∧ _ = true))

instance : Decidable (Spares S w roles p c o) :=
  inferInstanceAs (Decidable (_ → ∀ name ∈ c.touches, _))

instance : Decidable (ListsDead S x e) := by
  unfold ListsDead
  split
  · split <;> infer_instance
  · infer_instance

/-- The scripts of both roles keep to what the monitor asks of them. -/
theorem program_lists (S : Setup) (role : Role) :
    (S.program role).Safe (listMonitor role) (fun _ _ => True) [] := by
  cases role with
  | worker r clone prompt now => exact Prog.Safe.of_ok fun _ _ => trivial
  | recovery => exact safe_detach.mpr (reconcileSandboxWorkers_lists S.worker S.owner)

/-- **A recovery spares the live runs**, as long as the run of no sandbox that it has listed is live. The
sandboxes of runs that are started later are never touched. -/
theorem live_runs_spared (S : Setup) (es : List (Event ℕ Role Choice Outside))
    (hes : Transition.Meets (S.machine.watch listMonitor fun _ => []) (ListsDead S.worker)
      (Daemons.initial, fun _ => none) es) :
    Transition.Meets S.machine.step (Machine.Does (Spares S.worker) fun _ _ => True)
      Daemons.initial es := by
  have hnone : Machine.Tracks listMonitor Daemons.initial fun _ => none := fun _ => trivial
  refine Machine.meets_of_watch (program_lists S) ?_ ?_ hnone hes
  · intro role names c a
    cases role <;> trivial
  · intro s ms e H hdead
    cases e with
    | act p o =>
      simp only [Machine.Does]
      split
      · next role c next hp =>
        intro hrole name hname
        obtain rfl : role = .recovery := by simpa [Machine.State.role, hp] using hrole
        obtain ⟨names, hm, hok⟩ := H.ok hp
        simp only [ListsDead, hp, hm] at hdead
        exact hdead name (hok name hname)
      · trivial
    | _ => trivial

/-- The first daemon has died, and it is started again. -/
def recoveredDead : List (Event ℕ Role Choice Outside) :=
  interrupted ++ .start 3 .recovery :: List.replicate 17 (.act 3 { host := survivorHost })

set_option maxRecDepth 4000 in
theorem live_runs_spared_recoveredDead :
    Transition.Meets exampleSetup.machine.step (Machine.Does (Spares exampleSetup.worker)
      fun _ _ => True) Daemons.initial recoveredDead :=
  live_runs_spared exampleSetup recoveredDead (by decide)

/-- A second daemon is started while the agent of the first one works. -/
def secondDaemon : List (Event ℕ Role Choice Outside) :=
  working ++ .start 3 .recovery :: acts 3 9

set_option maxRecDepth 4000 in
theorem live_run_stopped : ¬ ∀ (S : Setup) (es : List (Event ℕ Role Choice Outside)),
    Transition.Meets S.machine.step (Machine.Does (Spares S.worker) fun _ _ => True)
      Daemons.initial es := by
  intro h
  have hspares := h exampleSetup secondDaemon
  revert hspares
  decide

end World
end FlashyFactory
