import FlashyFactory.Sandbox.Effects

/-! # What the two programs may do

`Watch` follows a process through its commands. `Watch.ok` is the discipline that keeps the work
of the agents: a sandbox is created after it is on record and its agent is started once; a row is
closed and a sandbox is removed only before the agent was started or after a completed hand-over.
`executeSandboxTask_safe` and `reconcileSandboxWorkers_safe` show that the programs keep to it
whatever fails. -/

namespace FlashyFactory
open Process Script Async SandboxWorker

def Handoff.name : Handoff → String
  | snapshotted name | fetched name _ | restored name => name

/-- How far a worker is. -/
inductive Phase
  /-- Nothing is on record. -/
  | fresh
  /-- The row says `creating`. -/
  | recorded
  /-- The sandbox has been created. -/
  | made
  /-- The row says `created`. -/
  | ready
  /-- The agent may have been started, and the row has not been written since. -/
  | started
  /-- The row has been written after the agent was started. -/
  | closing
  /-- The agent was never started and will not be. -/
  | dropped
deriving DecidableEq, Repr

namespace Phase

def unstarted : Phase → Bool
  | started | closing => false
  | _ => true

/-- The agent may still be started. -/
def maySpawn : Phase → Bool
  | fresh | recorded | made | ready => true
  | _ => false

/-- After the row was written. -/
def finish (phase : Phase) (created : Bool) : Phase :=
  match phase with
  | started | closing => closing
  | made => if created then ready else dropped
  | _ => dropped

/-- After the sandbox was removed. -/
def drop (phase : Phase) : Phase :=
  match phase with
  | started | closing => phase
  | _ => dropped

end Phase

structure Watch where
  phase : Phase := .fresh
  handoff : Option Handoff := none
  /-- The runs whose row was read. -/
  read : List ℕ := []
  /-- The runs whose row was read in the state `removing`. -/
  seen : List ℕ := []
  /-- The runs whose row was written. -/
  taken : List ℕ := []

/-- The row says that the sandbox is being removed or is gone. -/
def closes (state : SandboxState) (removed : Bool) : Bool := state = .removing || removed

namespace Watch

def next (m : Watch) (c : Cmd) (a : c.Answer) : Watch :=
  match c, a with
  | .create _ _ _, a => { m with phase := if a.isOk then .made else .dropped }
  | .spawn _, _ => { m with phase := .started }
  | .rm _, _ => { m with phase := m.phase.drop }
  | .snapshot name, a => { m with handoff := Handoff.next m.handoff (.snapshot name) a.isOk }
  | .fetch clone name, a => { m with handoff := Handoff.next m.handoff (.fetch clone name) a.isOk }
  | .reset clone, a => { m with handoff := Handoff.next m.handoff (.reset clone) a.isOk }
  | .write (.recordRunSandbox _), a => { m with phase := if a.isOk then .recorded else .dropped }
  | .write (.finishRunSandbox r state _ _ removed), a =>
    { m with
      phase := m.phase.finish (state = .created && !removed && a.isOk)
      taken := r :: m.taken }
  | .runSandbox r, .ok (some _) => { m with read := r :: m.read }
  | .unremovedRunSandboxes _, .ok rows =>
    { m with
      read := rows.map RunSandbox.runId ++ m.read
      seen := (rows.filter (·.state = .removing)).map RunSandbox.runId ++ m.seen }
  | _, _ => m

def ok (S : SandboxWorker) (role : Role) (m : Watch) (c : Cmd) : Prop :=
  match role, c with
  | .worker r _ _ _, .create name _ _ => name = sandboxName S.instanceId r ∧ m.phase = .recorded
  | .worker r _ _ _, .spawn name =>
    name = sandboxName S.instanceId r ∧ m.phase = .ready ∧ m.handoff = none
  | .worker r _ _ _, .snapshot name => name = sandboxName S.instanceId r
  | .worker r _ _ _, .rm name => name = sandboxName S.instanceId r ∧
    (m.phase.unstarted = true ∨ m.handoff = some (.restored name))
  | .worker r _ _ _, .write (.recordRunSandbox sandbox) => m.phase = .fresh ∧ sandbox.runId = r ∧
    sandbox.sandboxName = sandboxName S.instanceId r ∧ sandbox.state = .creating ∧
    sandbox.removedAt = none
  | .worker r _ _ _, .write (.finishRunSandbox r' state _ _ removed) => r' = r ∧
    (closes state removed = true →
      m.phase.unstarted = true ∨ m.handoff = some (.restored (sandboxName S.instanceId r)))
  | .recovery, .create _ _ _ | .recovery, .spawn _ | .recovery, .write (.recordRunSandbox _) => False
  | .recovery, .snapshot name => ∃ r ∈ m.taken, name = sandboxName S.instanceId r
  | .recovery, .rm name => m.handoff = some (.restored name)
  | .recovery, .write (.finishRunSandbox r state _ _ removed) => r ∈ m.read ∧
    (closes state removed = true →
      r ∈ m.seen ∨ m.handoff = some (.restored (sandboxName S.instanceId r)))
  | _, _ => True

def may (S : SandboxWorker) (role : Role) (m : Watch) (c : Cmd) (a : c.Answer) : Prop :=
  match role, c, a with
  -- a worker that has started its agent finds the row as it left it
  | .worker r _ _ _, .runSandbox r', .ok (some row) =>
    r' = r → m.phase = .started → row.state = .created
  | .recovery, .runSandbox r, .ok (some row) => row.sandboxName = sandboxName S.instanceId r
  | _, _, _ => True

end Watch

def monitor (S : SandboxWorker) (role : Role) : Monitor Cmd Cmd.Answer Watch where
  ok := Watch.ok S role
  may := Watch.may S role
  next := Watch.next

/-! ## Commands that change nothing here -/

def Cmd.neutral : Cmd → Bool
  | .create _ _ _ | .spawn _ | .rm _ | .snapshot _ | .fetch _ _ | .reset _ | .runSandbox _ |
    .unremovedRunSandboxes _ => false
  | .write op => .runSandboxes ∉ op.writes
  | _ => true

variable {S : SandboxWorker} {role : Role} {m : Watch}

theorem Cmd.neutral_ok {c : Cmd} (h : c.neutral = true) : Watch.ok S role m c := by
  cases c with
  | write op =>
    cases op with
    | recordRunSandbox | finishRunSandbox => simp [Cmd.neutral, Op.writes] at h
    | _ => cases role <;> trivial
  | _ => cases role <;> trivial

theorem Cmd.neutral_next {c : Cmd} (h : c.neutral = true) (a : c.Answer) : m.next c a = m := by
  cases c with
  | write op =>
    cases op with
    | recordRunSandbox | finishRunSandbox => simp [Cmd.neutral, Op.writes] at h
    | _ => rfl
  | _ => first | rfl | cases h

/-- The script leaves the watch where it is, and no failure of it is that of a sandbox run. -/
def Neutral (S : SandboxWorker) (role : Role) (x : Async β) : Prop :=
  ∀ m, Safe (monitor S role) x (fun _ m' => m' = m) (fun e m' => m' = m ∧ e.identity = none) m

theorem command_safe {c : Cmd} {Q : c.Value → Watch → Prop} {E : Failure → Watch → Prop}
    (hok : Watch.ok S role m c) (hQ : ∀ b, Watch.may S role m c (.ok b) → Q b (m.next c (.ok b)))
    (hE : ∀ chain, E ⟨chain, none⟩ (m.next c (.error chain))) :
    Safe (monitor S role) (command c) Q E m := by
  refine ⟨hok, fun a ha => ?_⟩
  cases a with
  | ok b => exact hQ b ha
  | error chain => exact hE chain

namespace Neutral

theorem command {c : Cmd} (h : c.neutral = true) : Neutral S role (command c) := by
  exact fun m => command_safe (Cmd.neutral_ok h) (fun _ _ => Cmd.neutral_next h _)
    fun _ => ⟨Cmd.neutral_next h _, rfl⟩

theorem pure (b : β) : Neutral S role (pure b : Async β) := fun _ => rfl

theorem bail (message : String) : Neutral S role (bail message : Async β) := fun _ => ⟨rfl, rfl⟩

theorem safe {x : Async β} {Q : β → Watch → Prop} {E : Failure → Watch → Prop}
    (h : Neutral S role x) (hQ : ∀ b, Q b m) (hE : ∀ e, e.identity = none → E e m) :
    Safe (monitor S role) x Q E m := by
  refine (h m).mono ?_ ?_
  · rintro b _ rfl
    exact hQ b
  · rintro e _ ⟨rfl, he⟩
    exact hE e he

theorem bind {x : Async β} {f : β → Async γ} (hx : Neutral S role x)
    (hf : ∀ b, Neutral S role (f b)) : Neutral S role (x >>= f) := fun m =>
  safe_bind.mpr (hx.safe (fun b => hf b m) fun _ he => ⟨rfl, he⟩)

theorem attempt {x : Async β} (hx : Neutral S role x) : Neutral S role (attempt x) := fun _ =>
  safe_attempt.mpr (hx.safe (fun _ => rfl) fun _ _ => rfl)

theorem context (message : String) {x : Async β} (hx : Neutral S role x) :
    Neutral S role (context message x) := fun _ =>
  safe_mapFailure.mpr (hx.safe (fun _ => rfl) fun _ he => ⟨rfl, he⟩)

theorem orDefault {x : Async String} (hx : Neutral S role x) : Neutral S role (orDefault x) :=
  bind hx.attempt fun r => by cases r <;> exact pure _

theorem ignore {x : Async Unit} (hx : Neutral S role x) : Neutral S role (ignore x) :=
  bind hx.attempt fun _ => pure _

theorem orBail (value : Option β) (message : String) : Neutral S role (orBail value message) := by
  cases value with
  | none => exact bail message
  | some b => exact pure b

/-- A neutral step before another script. -/
theorem then_safe {x : Async β} {f : β → Async γ} {Q : γ → Watch → Prop}
    {E : Failure → Watch → Prop} (hx : Neutral S role x)
    (hf : ∀ b, Safe (monitor S role) (f b) Q E m) (hE : ∀ e, e.identity = none → E e m) :
    Safe (monitor S role) (x >>= f) Q E m :=
  safe_bind.mpr (hx.safe hf hE)

end Neutral

theorem safe_context {x : Async β} {Q : β → Watch → Prop} {E : Failure → Watch → Prop}
    {message : String} : Safe (monitor S role) (context message x) Q E m ↔
      Safe (monitor S role) x Q (fun e => E (e.context message)) m := safe_mapFailure

theorem safe_ignore {x : Async Unit} {Q : Unit → Watch → Prop} {E : Failure → Watch → Prop}
    (h : Safe (monitor S role) x (fun _ m => Q () m) (fun _ m => Q () m) m) :
    Safe (monitor S role) (ignore x) Q E m :=
  safe_bind.mpr (safe_attempt.mpr h)

/-- A hand-over that succeeds goes through all its stages. -/
theorem preserveWorkspace_safe {name clone : String} {Q : Unit → Watch → Prop}
    {E : Failure → Watch → Prop} (hok : Watch.ok S role m (.snapshot name))
    (hQ : Q () { m with handoff := some (.restored name) })
    (hE : ∀ e h, E e { m with handoff := h }) :
    Safe (monitor S role) (preserveWorkspace name clone) Q E m := by
  have hfree : ∀ {m}, Watch.ok S role m (.fetch clone name) ∧ Watch.ok S role m (.reset clone) :=
    ⟨by cases role <;> trivial, by cases role <;> trivial⟩
  have hcontext : ∀ {message c} {Q : c.Value → Watch → Prop} {m}, Watch.ok S role m c →
      (∀ b, Q b (m.next c (.ok b))) → (∀ chain, ∃ h, m.next c (.error chain) = { m with handoff := h }) →
      (∀ e h, E e { m with handoff := h }) →
      Safe (monitor S role) (context message (command c)) Q E m := by
    intro message c Q m hok hQ hh hE
    refine safe_context.mpr (command_safe hok (fun b _ => hQ b) fun chain => ?_)
    obtain ⟨h, hh⟩ := hh chain
    rw [hh]
    exact hE _ h
  refine safe_bind.mpr (hcontext hok (fun _ => ?_) (fun _ => ⟨_, rfl⟩) hE)
  refine safe_bind.mpr (hcontext hfree.1 (fun _ => ?_) (fun _ => ⟨_, rfl⟩) hE)
  refine hcontext hfree.2 (fun _ => ?_) (fun _ => ⟨_, rfl⟩) hE
  simpa [Watch.next, Except.isOk, Except.toBool] using hQ

/-! ## The worker -/

/-- The script issues only commands that the monitor allows. -/
def Fine (S : SandboxWorker) (role : Role) (x : Async β) (m : Watch) : Prop :=
  Safe (monitor S role) x (fun _ _ => True) (fun _ _ => True) m

/-- A neutral step before another script. -/
theorem Neutral.then_fine {x : Async β} {f : β → Async γ} (hx : Neutral S role x)
    (hf : ∀ b, Fine S role (f b) m) : Fine S role (x >>= f) m :=
  hx.then_safe hf fun _ _ => trivial

theorem Fine.bind {x : Async β} {f : β → Async γ} (hx : Fine S role x m)
    (hf : ∀ b m, Fine S role (f b) m) : Fine S role (x >>= f) m :=
  safe_bind.mpr (hx.mono (fun b m _ => hf b m) fun _ _ _ => trivial)

theorem Fine.orBail {value : Option β} {message : String} {f : β → Async γ}
    (hf : ∀ b, value = some b → Fine S role (f b) m) :
    Fine S role (orBail value message >>= f) m := by
  cases value with
  | none => trivial
  | some b => exact hf b rfl

/-- The sandbox of the run may go: its agent was never started, or its work is handed over. -/
def Watch.Released (S : SandboxWorker) (r : ℕ) (m : Watch) : Prop :=
  m.phase.unstarted = true ∨ m.handoff = some (.restored (sandboxName S.instanceId r))

theorem Phase.unstarted_finish {phase : Phase} (h : phase.unstarted = true) (created : Bool) :
    (phase.finish created).unstarted = true := by
  cases phase <;> cases created <;> first | rfl | cases h

theorem Phase.unstarted_drop {phase : Phase} (h : phase.unstarted = true) :
    phase.drop.unstarted = true := by
  cases phase <;> first | rfl | cases h

section Worker
variable {r : ℕ} {path prompt : String} {now : ℤ} {exitCode : Option ℤ} {logs : Option String}
  {state : SandboxState} {removed : Bool}

/-- The worker writes its row, and says that its sandbox is going only once it may go. -/
theorem finishRunSandbox_released {f : Unit → Async β}
    (hclose : closes state removed = true → m.Released S r)
    (hf : ∀ m', m'.handoff = m.handoff → (m.Released S r → m'.Released S r) →
      Fine S (.worker r path prompt now) (f ()) m') :
    Fine S (.worker r path prompt now)
      (finishRunSandbox r state exitCode logs removed >>= f) m := by
  refine safe_bind.mpr (command_safe ⟨rfl, hclose⟩ (fun _ _ => hf _ rfl ?_) fun _ => trivial)
  exact Or.imp_left fun h => Phase.unstarted_finish h _

theorem Watch.Released.drop (h : m.Released S r) : { m with phase := m.phase.drop }.Released S r :=
  h.imp_left Phase.unstarted_drop

theorem remove_released {Q : Unit → Watch → Prop} {E : Failure → Watch → Prop}
    (hm : m.Released S r) (hQ : Q () { m with phase := m.phase.drop })
    (hE : ∀ e, E e { m with phase := m.phase.drop }) :
    Safe (monitor S (.worker r path prompt now)) (remove (sandboxName S.instanceId r)) Q E m :=
  command_safe ⟨rfl, hm⟩ (fun _ _ => hQ) fun _ => hE _

theorem neutral_write {op : Op} (h : .runSandboxes ∉ op.writes) : Neutral S role (write op) :=
  .command (by simpa [Cmd.neutral] using h)

theorem neutral_stop {name : String} : Neutral S role (stop name) := .command rfl

theorem neutral_logs {name : String} : Neutral S role (orDefault (SandboxWorker.logs name)) :=
  .orDefault (.command rfl)

theorem neutral_recordExecution {runtime : String} {result : ExecutionResult} :
    Neutral S role (recordExecution r runtime result) := by
  refine .bind (neutral_write ?_) fun _ => .command rfl
  split <;> simp [Op.writes]

theorem finishExecuted_fine {result : ExecutionResult} {identity : SandboxIdentity}
    (hname : identity.name = sandboxName S.instanceId r) :
    Fine S (.worker r path prompt now) (finishExecuted r path result identity) m := by
  have hopen : closes result.termination.sandboxState false = false := by
    cases result.termination <;> rfl
  refine neutral_logs.then_fine fun sandboxLogs => ?_
  refine finishRunSandbox_released (by simp [hopen]) fun m _ _ => ?_
  rw [hname]
  refine safe_bind.mpr (safe_attempt.mpr (preserveWorkspace_safe rfl ?_ fun error h => ?_))
  · -- the snapshot has been handed over
    refine neutral_recordExecution.then_fine fun _ => ?_
    refine finishRunSandbox_released (fun _ => .inr rfl) fun m _ hm => ?_
    have hreleased := hm (.inr rfl)
    refine safe_bind.mpr (safe_context.mpr (remove_released hreleased ?_ fun _ => trivial))
    exact command_safe ⟨rfl, fun _ => hreleased.drop⟩ (fun _ _ => trivial) fun _ => trivial
  · -- the sandbox is retained
    refine neutral_stop.ignore.then_fine fun _ => ?_
    refine finishRunSandbox_released nofun fun m _ _ => ?_
    exact (neutral_write (by simp [Op.writes])).then_fine fun _ => trivial

theorem cleanUpSandbox_fine {recorded : RunSandbox} {identity : SandboxIdentity} {evidence : String}
    (hname : identity.name = sandboxName S.instanceId r)
    (hm : m.phase.unstarted = true ∨ recorded.state = .created) :
    Fine S (.worker r path prompt now) (cleanUpSandbox r path recorded identity evidence) m := by
  have hremove : ∀ {m} {k : Except Failure Unit → Async (Option Failure)}, m.Released S r →
      (∀ m, m.Released S r → Fine S (.worker r path prompt now) (k (.ok ())) m) →
      (∀ m e, Fine S (.worker r path prompt now) (k (.error e)) m) →
      Fine S (.worker r path prompt now) (finishRunSandbox r .removing none (some evidence) false >>=
        fun _ => attempt (remove identity.name) >>= k) m := by
    intro m k hm hok herror
    refine finishRunSandbox_released (fun _ => hm) fun m _ hm' => ?_
    rw [hname]
    exact safe_bind.mpr (safe_attempt.mpr (remove_released (hm' hm) (hok _ (hm' hm).drop) fun _ => herror _ _))
  have hclose : ∀ m, m.Released S r → Fine S (.worker r path prompt now) (do
      finishRunSandbox r .error none (some evidence) true
      pure (none : Option Failure)) m :=
    fun m hm => finishRunSandbox_released (fun _ => hm) fun m _ _ => trivial
  by_cases hstate : recorded.state = .created
  · simp only [cleanUpSandbox, if_pos hstate, hname]
    rw [← hname]
    refine safe_bind.mpr (safe_attempt.mpr (preserveWorkspace_safe hname ?_ fun error h => ?_))
    · exact hremove (.inr (by rw [hname])) hclose fun _ _ => trivial
    · refine neutral_stop.ignore.then_fine fun _ => ?_
      exact finishRunSandbox_released (fun h => by cases h) fun m _ _ => trivial
  · simp only [cleanUpSandbox, if_neg hstate]
    exact safe_bind.mpr (hremove (.inl (hm.resolve_right hstate)) hclose fun _ _ => trivial)

theorem finishRecorded_fine {recorded : Option RunSandbox} {error : Failure}
    (hname : ∀ identity, error.identity = some identity →
      identity.name = sandboxName S.instanceId r)
    (hm : m.phase.unstarted = true ∨ ∀ row, recorded = some row → row.state = .created) :
    Fine S (.worker r path prompt now) (finishRecorded r path error recorded) m := by
  cases recorded with
  | none => trivial
  | some recorded =>
    have hlogs : Neutral S (.worker r path prompt now) (failureLogs error) := by
      unfold failureLogs
      split
      · exact neutral_logs
      · exact .pure _
    refine hlogs.then_fine fun logs => safe_bind.mpr (command_safe ⟨rfl, nofun⟩ (fun _ _ => ?_) ?_)
    · cases hidentity : error.identity with
      | none => trivial
      | some identity =>
        refine cleanUpSandbox_fine (hname identity hidentity) ?_
        exact hm.imp (fun h => Phase.unstarted_finish h _) fun h => h recorded rfl
    · exact fun _ => trivial

theorem finishFailed_fine {error : Failure}
    (hname : ∀ identity, error.identity = some identity →
      identity.name = sandboxName S.instanceId r)
    (hm : m.phase.unstarted = true ∨ m.phase = .started) :
    Fine S (.worker r path prompt now) (finishFailed r path error) m := by
  refine safe_bind.mpr (command_safe trivial (fun recorded hmay => ?_) fun _ => trivial)
  have hrow : (m.next (.runSandbox r) (.ok recorded)).phase.unstarted = true ∨
      ∀ row, recorded = some row → row.state = .created := by
    cases recorded with
    | none => exact .inr nofun
    | some row =>
      refine hm.imp id fun hstarted => ?_
      rintro _ ⟨⟩
      exact hmay rfl hstarted
  refine (finishRecorded_fine hname hrow).bind fun cleanupError m => ?_
  refine (neutral_write (by simp [Op.writes])).then_fine fun _ => ?_
  cases cleanupError <;> trivial

/-- The agent is started first; whatever happens then, it may have been. -/
theorem execute_safe {identity : SandboxIdentity} {Q : ExecutionResult → Watch → Prop}
    {E : Failure → Watch → Prop} (hname : identity.name = sandboxName S.instanceId r)
    (hphase : m.phase = .ready) (hhandoff : m.handoff = none)
    (hQ : ∀ result, Q result { m with phase := .started })
    (hE : ∀ e, E e { m with phase := .started }) :
    Safe (monitor S (.worker r path prompt now)) (execute identity prompt) Q E m := by
  refine safe_bind.mpr (safe_context.mpr (command_safe ⟨hname, hphase, hhandoff⟩ ?_ fun _ => hE _))
  refine fun _ _ => Neutral.safe ?_ hQ fun e _ => hE e
  have hawait : Neutral S (.worker r path prompt now) (await identity.name) := by
    refine .bind (.command rfl) fun woken => ?_
    cases woken with
    | exited status => exact .pure _
    | cancelled | deadline => exact .bind neutral_stop fun _ => .pure _
  refine .bind (.command rfl) fun _ => .bind hawait fun _ => ?_
  refine .bind (.command rfl) fun stdout => .bind (.command rfl) fun stderr => ?_
  exact .bind (.orDefault (.command rfl)) fun _ => .pure _

/-- A failed run names no sandbox but its own, and is before or right after the agent's start. -/
def RunFailed (S : SandboxWorker) (r : ℕ) (e : Failure) (m : Watch) : Prop :=
  (∀ identity, e.identity = some identity → identity.name = sandboxName S.instanceId r) ∧
    (m.phase.unstarted = true ∨ m.phase = .started)

theorem RunFailed.of_none {e : Failure} (he : e.identity = none)
    (hm : m.phase.unstarted = true) : RunFailed S r e m :=
  ⟨fun _ h => (Option.some_ne_none _ (h.symm.trans he)).elim, .inl hm⟩

theorem RunFailed.sandboxRun {identity : SandboxIdentity} {source : Failure}
    (hname : identity.name = sandboxName S.instanceId r)
    (hm : m.phase.unstarted = true ∨ m.phase = .started) :
    RunFailed S r (Failure.sandboxRun identity source) m :=
  ⟨fun _ h => by cases h; exact hname, hm⟩

section Run
variable {crates : Crates} {identity : SandboxIdentity} {Q : Unit → Watch → Prop}
  {E : Failure → Watch → Prop}

theorem persist_creating_safe (hname : identity.name = sandboxName S.instanceId r)
    (hphase : m.phase = .fresh) (hQ : Q () { m with phase := .recorded })
    (hE : ∀ e m, e.identity = none → m.phase.unstarted = true → E e m) :
    Safe (monitor S (.worker r path prompt now)) (persist S crates now r identity .creating)
      Q E m := by
  have hfresh : m.phase.unstarted = true := by rw [hphase]; rfl
  refine Neutral.then_safe (.command rfl) (fun _ => ?_) fun e he => hE e m he hfresh
  exact command_safe ⟨hphase, rfl, hname, rfl, rfl⟩ (fun _ _ => hQ) fun _ => hE _ _ rfl rfl

theorem create_safe (hname : identity.name = sandboxName S.instanceId r)
    (hphase : m.phase = .recorded) (hQ : Q () { m with phase := .made })
    (hE : ∀ e m, m.phase.unstarted = true → E e m) :
    Safe (monitor S (.worker r path prompt now)) (S.create identity path) Q E m := by
  have hrecorded : m.phase.unstarted = true := by rw [hphase]; rfl
  refine Neutral.then_safe (.context _ (.command rfl)) (fun _ => ?_) fun e _ => hE e m hrecorded
  exact safe_context.mpr (command_safe ⟨hname, hphase⟩ (fun _ _ => hQ) fun _ => hE _ _ rfl)

theorem persist_created_safe (hphase : m.phase = .made)
    (hQ : Q () { m with phase := .ready, taken := r :: m.taken })
    (hE : ∀ e m, m.phase.unstarted = true → E e m) :
    Safe (monitor S (.worker r path prompt now)) (persist S crates now r identity .created)
      Q E m := by
  have hmade : m.phase.unstarted = true := by rw [hphase]; rfl
  refine Neutral.then_safe (.command rfl) (fun _ => ?_) fun e _ => hE e m hmade
  refine command_safe ⟨rfl, nofun⟩ (fun _ _ => ?_) fun _ => hE _ _ (Phase.unstarted_finish hmade _)
  simpa [Watch.next, hphase, Phase.finish, Except.isOk, Except.toBool] using hQ

theorem run_safe {Q : ExecutionResult × SandboxIdentity → Watch → Prop}
    (hphase : m.phase = .fresh) (hhandoff : m.handoff = none)
    (hQ : ∀ result identity m, identity.name = sandboxName S.instanceId r → Q (result, identity) m) :
    Safe (monitor S (.worker r path prompt now)) (S.run r path prompt (persist S crates now r)) Q
      (RunFailed S r) m := by
  refine Neutral.then_safe (.command rfl) (fun version => ?_)
    fun e he => .of_none he (by rw [hphase]; rfl)
  have hname : (S.identity version r).name = sandboxName S.instanceId r := rfl
  refine safe_bind.mpr (persist_creating_safe hname hphase ?_ fun e m he hm => .of_none he hm)
  refine safe_bind.mpr (safe_mapFailure.mpr (create_safe hname rfl ?_ fun e m hm =>
    .sandboxRun hname (.inl hm)))
  refine safe_bind.mpr (safe_attempt.mpr (persist_created_safe rfl ?_ fun e m hm => ?_))
  · refine safe_bind.mpr (safe_attempt.mpr (execute_safe hname rfl hhandoff ?_ fun e => ?_))
    · exact fun result => hQ result _ _ hname
    · have hstarted : RunFailed S r (Failure.sandboxRun (S.identity version r) e)
          { m with phase := .started, taken := r :: m.taken } := .sandboxRun hname (.inr rfl)
      exact safe_bind.mpr (safe_ignore (neutral_stop.safe (fun _ => hstarted) fun _ _ => hstarted))
  · have hdropped : RunFailed S r (Failure.sandboxRun (S.identity version r) e)
        { m with phase := m.phase.drop } := .sandboxRun hname (.inl (Phase.unstarted_drop hm))
    exact safe_bind.mpr (safe_ignore (remove_released (.inl hm) hdropped fun _ => hdropped))

end Run

/-- **`execute_sandbox_task` keeps to the discipline**, whatever fails. -/
theorem executeSandboxTask_fine (crates : Crates) :
    Fine S (.worker r path prompt now) (executeSandboxTask S crates now r path prompt) {} := by
  have hobserve : Neutral S (.worker r path prompt now) (recordObservation r) := by
    refine .bind (.command rfl) fun observation => ?_
    split
    · exact neutral_write (by simp [Op.writes])
    · exact .pure _
  refine safe_bind.mpr (safe_attempt.mpr ((run_safe rfl rfl ?_).mono (fun _ _ h => h) ?_))
  · exact fun result identity m hname => hobserve.then_fine fun _ => finishExecuted_fine hname
  · exact fun e m he => hobserve.then_fine fun _ => finishFailed_fine he.1 he.2

end Worker

/-! ## The recovery -/

section Recovery
variable {r : ℕ} {exitCode : Option ℤ} {logs : Option String} {state : SandboxState}
  {removed : Bool}

/-- The recovery writes the row of a run that it has read. -/
theorem finishRunSandbox_recovery {f : Unit → Async β} (hread : r ∈ m.read)
    (hclose : closes state removed = true →
      r ∈ m.seen ∨ m.handoff = some (.restored (sandboxName S.instanceId r)))
    (hf : ∀ m', m'.handoff = m.handoff → m'.read = m.read → r ∈ m'.taken →
      Fine S .recovery (f ()) m') :
    Fine S .recovery (finishRunSandbox r state exitCode logs removed >>= f) m := by
  refine safe_bind.mpr (command_safe ⟨hread, hclose⟩ (fun _ _ => hf _ rfl rfl ?_) fun _ => trivial)
  exact List.mem_cons_self

theorem recoverOwned_fine {sandbox : OwnedSandbox} {recorded : RunSandbox} {run : Run}
    {workspace : TaskWorkspace} (hread : sandbox.runId ∈ m.read)
    (hname : sandbox.name = sandboxName S.instanceId sandbox.runId) :
    Fine S .recovery (recoverOwned sandbox recorded run workspace) m := by
  have hrecover : Neutral S .recovery (recoverSandbox sandbox) :=
    .bind neutral_logs fun _ => .bind neutral_stop.ignore fun _ => .pure _
  refine hrecover.then_fine fun logs => ?_
  split
  · trivial
  have hobserve : Neutral S .recovery (observeRecovered sandbox.runId run logs) := by
    unfold observeRecovered
    split
    · exact neutral_write (by simp [Op.writes])
    · exact .pure _
  refine hobserve.then_fine fun _ => finishRunSandbox_recovery hread (fun h => by cases h) fun m _ hr htaken => ?_
  rw [← hr] at hread
  refine safe_bind.mpr (safe_attempt.mpr
    (preserveWorkspace_safe ⟨_, htaken, hname⟩ ?_ fun error h => ?_))
  · -- the snapshot has been handed over
    refine finishRunSandbox_recovery hread (fun _ => .inr (by rw [hname])) fun m hh hr _ => ?_
    rw [← hr] at hread
    refine safe_bind.mpr (command_safe hh (fun _ _ => ?_) fun _ => trivial)
    exact command_safe ⟨hread, fun _ => .inr (hh.trans (by rw [hname]))⟩ (fun _ _ => trivial)
      fun _ => trivial
  · -- the sandbox is retained
    refine neutral_stop.ignore.then_fine fun _ => ?_
    exact command_safe ⟨hread, fun h => by cases h⟩ (fun _ _ => trivial) fun _ => trivial

theorem neutral_workspaceOwnerIsResolved {owner : String} {workspace : TaskWorkspace} :
    Neutral S role (workspaceOwnerIsResolved owner workspace) := by
  refine .bind (.command rfl) fun _ => .bind (.orBail _ _) fun task => ?_
  split
  · exact .pure _
  · exact .bind (neutral_write (by simp [Op.writes])) fun _ => .pure _

theorem reconcileOwned_fine {owner : String} {sandbox : OwnedSandbox} :
    Fine S .recovery (reconcileOwned owner sandbox) m := by
  refine safe_bind.mpr (command_safe trivial (fun recorded hmay => ?_) fun _ => trivial)
  refine Fine.orBail fun recorded hrecorded => ?_
  subst hrecorded
  have hread : sandbox.runId ∈ (m.next (.runSandbox sandbox.runId) (.ok (some recorded))).read :=
    List.mem_cons_self
  split
  · trivial
  next hsame =>
  have hname : sandbox.name = sandboxName S.instanceId sandbox.runId := by
    simp only [Bool.or_eq_true, decide_eq_true_eq, not_or, not_not] at hsame
    exact hsame.1.symm.trans hmay
  refine Neutral.then_fine (.command rfl) fun run => Fine.orBail fun run _ => ?_
  refine Neutral.then_fine (.command rfl) fun workspace => Fine.orBail fun workspace _ => ?_
  refine neutral_workspaceOwnerIsResolved.then_fine fun resolved => ?_
  split
  · exact recoverOwned_fine hread hname
  · exact command_safe ⟨hread, nofun⟩ (fun _ _ => trivial) fun _ => trivial

/-- The rows are known, and which of them say `removing`. -/
def Watch.Knows (rows : List RunSandbox) (m : Watch) : Prop :=
  ∀ row ∈ rows, row.runId ∈ m.read ∧ (row.state = .removing → row.runId ∈ m.seen)

theorem forgetRemoved_safe {owned : List OwnedSandbox} {rows : List RunSandbox}
    (hrow : row ∈ rows) (hm : m.Knows rows) :
    Safe (monitor S .recovery) (forgetRemoved owned row) (fun _ => Watch.Knows rows)
      (fun _ => Watch.Knows rows) m := by
  unfold forgetRemoved
  split
  · next hgone =>
    simp only [Bool.and_eq_true, decide_eq_true_eq] at hgone
    obtain ⟨hread, hseen⟩ := hm row hrow
    exact command_safe ⟨hread, fun _ => .inl (hseen hgone.1)⟩ (fun _ _ => hm) fun _ => hm
  · exact hm

/-- **`reconcile_sandbox_workers` keeps to the discipline**, whatever fails. -/
theorem reconcileSandboxWorkers_fine (owner : String) :
    Fine S .recovery (reconcileSandboxWorkers S owner) m := by
  have howned : Neutral S .recovery S.ownedSandboxes := by
    refine .bind (.command rfl) fun lines => ?_
    split
    · exact .pure _
    · exact .bail _
  refine howned.then_fine fun owned => safe_bind.mpr (command_safe trivial (fun rows _ => ?_) ?_)
  · have hknows : (m.next (.unremovedRunSandboxes S.instanceId) (.ok rows)).Knows rows := by
      intro row hrow
      refine ⟨List.mem_append_left _ (List.mem_map_of_mem hrow), fun hstate => ?_⟩
      exact List.mem_append_left _ (List.mem_map_of_mem (List.mem_filter.mpr ⟨hrow, by simpa using hstate⟩))
    refine safe_bind.mpr ((safe_forM (fun row hrow m => forgetRemoved_safe hrow) hknows).mono ?_ ?_)
    · exact fun _ m _ => safe_forM (J := fun _ => True) (fun _ _ _ _ => reconcileOwned_fine) trivial
    · exact fun _ _ _ => trivial
  · exact fun _ => trivial

end Recovery

end FlashyFactory
