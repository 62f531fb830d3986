import Mathlib.Data.List.Infix
import FlashyFactory.Storage.Invariants
import FlashyFactory.Storage.Retention
import FlashyFactory.Workspace.RemovalRules
import FlashyFactory.Workspace.Retry

/-! # What is removed, and why

In every interleaving of finalizations, reconciliations, operators' commands, crashes and the rest of the
world, a directory is removed only with a justification. Its findings may be out of date by then: the task may
have been continued since, in a window that the second result names. Without that, a removal is safe. -/

namespace FlashyFactory

theorem TaskState.isTerminal_iff {state : TaskState} :
    state.isTerminal = true ↔ ∃ verdict, state.phase = .done verdict := by
  cases state <;> simp [isTerminal, phase]

theorem TaskState.phase_inj {state state' : TaskState} : state.phase = state'.phase ↔ state = state' := by
  cases state <;> cases state' <;> simp [phase]

namespace Ledger

/-- The state of the task. -/
def TaskIs (l : Ledger) (taskId : ℕ) (state : TaskState) : Prop :=
  ∃ task, l.tasks.get? taskId = some task ∧ task.state = state

/-- The task is waiting for an agent, or one is at work. -/
def TaskActive (l : Ledger) (taskId : ℕ) : Prop :=
  ∃ task, l.tasks.get? taskId = some task ∧ task.state.isTerminal = false

def TaskOver (l : Ledger) (taskId : ℕ) : Prop :=
  ∃ task, l.tasks.get? taskId = some task ∧ task.state.isTerminal = true

theorem TaskActive.not_over {l : Ledger} {taskId : ℕ} (h : l.TaskActive taskId) : ¬ l.TaskOver taskId := by
  obtain ⟨task, htask, hactive⟩ := h
  rintro ⟨task', htask', hover⟩
  cases htask.symm.trans htask'
  cases hactive.symm.trans hover

/-- Only a request for a continuation resumes a task. -/
theorem not_emits_resume {crates : Crates} {l : Ledger} {c : Call} {v : RetryQueue.State Trigger} {j : ℕ}
    (hc : ∀ repository taskGid fingerprint, c.op = .requestContinuation repository taskGid fingerprint →
      ∀ task workspace, l.Grants crates repository taskGid fingerprint task workspace → task.id ≠ j) :
    ¬ l.Emits crates c v (.resume j) := by
  obtain ⟨host, op⟩ := c
  cases op with
  | requestContinuation repository taskGid fingerprint =>
    rintro ⟨-, task, workspace, hgrants, hresume⟩
    exact hc _ _ _ rfl task workspace hgrants (RetryQueue.Event.resume.inj hresume).symm
  | _ => simp [Emits, PollEvent, RecoverEvent, CloseEvent]

/-- The call is a request for a continuation of the task, and is granted. -/
def Reopens (crates : Crates) (l : Ledger) (c : Call) (taskId : ℕ) : Prop :=
  ∃ repository taskGid fingerprint, c.op = .requestContinuation repository taskGid fingerprint ∧
    ∃ task workspace, l.Grants crates repository taskGid fingerprint task workspace ∧ task.id = taskId

/-- **A task that is over changes its state only by a continuation that is granted.** -/
theorem reopens_of_changed {crates : Crates} {l : Ledger} {c : Call} {taskId : ℕ} {state : TaskState}
    (H : RetryQueue.Lockstep l.view) (hterminal : state.isTerminal = true) (his : l.TaskIs taskId state)
    (h : ¬ (l.step crates c).TaskIs taskId state) : l.Reopens crates c taskId := by
  by_contra hnot
  unfold Reopens at hnot
  push Not at hnot
  obtain ⟨task, htask, rfl⟩ := his
  have hruns : RetryQueue.Runs maxRecoveryAttempts (fun _ e => e ≠ .resume taskId) l.view (l.step crates c).view := by
    refine (step_runs H c).mono ?_
    rintro v _ hemits rfl
    exact not_emits_resume hnot hemits
  obtain ⟨verdict, hphase⟩ := TaskState.isTerminal_iff.mp hterminal
  obtain ⟨task', htask', hjob⟩ := of_view_job (hruns.done (view_job htask) hphase)
  have hphase' : task.state.phase = task'.state.phase := congrArg RetryQueue.Job.phase hjob
  exact h ⟨task', htask', (TaskState.phase_inj.mp hphase').symm⟩

/-- **A task that is over becomes active only by a continuation that is granted.** -/
theorem reopens_of_not_over {crates : Crates} {l : Ledger} {c : Call} {taskId : ℕ}
    (H : RetryQueue.Lockstep l.view) (hover : l.TaskOver taskId) (h : ¬ (l.step crates c).TaskOver taskId) :
    l.Reopens crates c taskId := by
  obtain ⟨task, htask, hterminal⟩ := hover
  refine reopens_of_changed H hterminal ⟨task, htask, rfl⟩ ?_
  rintro ⟨task', htask', hstate⟩
  exact h ⟨task', htask', hstate ▸ hterminal⟩

end Ledger

namespace Removal
open Process Transition
variable {S : Setup} {s : Processes} {es es' : List (Event)} {taskId p : ℕ}
  {role : Role}

/-- The workspace of the task is to be removed, as an operator has confirmed. -/
def Pending (l : Ledger) (taskId : ℕ) : Prop := ∃ row, l.taskWorkspaces.get? taskId = some row ∧ Marked row

/-! ## The ledger in a run -/

/-- How an event changes the ledger. -/
inductive LedgerStep (S : Setup) (s : Processes) (e : Event) : Ledger → Prop
  | same : LedgerStep S s e s.world.ledger
  | write (p : ℕ) (role : Role) (op : Op) (next) (choice : Choice) (he : e = .act p choice)
    (hp : s.procs p = some (role, .call (.write op) next)) :
    LedgerStep S s e (s.world.ledger.step S.crates ⟨choice.host, op⟩)
  | outside (c : Call) (he : e = .env (.call c)) (hc : (Outside.call c).Allowed = true) :
    LedgerStep S s e (s.world.ledger.step S.crates c)

theorem change_ledger {w : Site} {o : Choice} {after : Except (List String) Site}
    (h : ∀ w', after = .ok w' → w'.ledger = w.ledger) : (change w o after).2.ledger = w.ledger := by
  unfold change
  split
  · unfold Choice.leaves
    split <;> rfl
  · rfl
  · exact h _ rfl

/-- Only writes change the ledger. -/
theorem exec_ledger {w : Site} {c : Cmd} {o : Choice} : (exec S w c o).2.ledger = w.ledger ∨
    ∃ op, c = .write op ∧ (exec S w c o).2.ledger = w.ledger.step S.crates ⟨o.host, op⟩ := by
  cases c with
  | look α query => exact .inl rfl
  | pathExists path => exact .inl rfl
  | write op =>
    simp only [exec]
    split
    · split
      · exact .inr ⟨op, rfl, rfl⟩
      · exact .inl rfl
    · exact .inl rfl
    · exact .inr ⟨op, rfl, rfl⟩
  | prune =>
    refine .inl (change_ledger fun w' h => ?_)
    cases h
    rfl
  | worktreeRemove force path =>
    refine .inl (change_ledger fun w' h => ?_)
    split at h <;> cases h
    rfl
  | removeDirAll path =>
    refine .inl (change_ledger fun w' h => ?_)
    cases h
    rfl

theorem ledgerStep (S : Setup) (s : Processes) (e : Event) :
    LedgerStep S s e (S.machine.step s e).world.ledger := by
  cases e with
  | act p choice =>
    simp only [Machine.step]
    split
    · exact .same
    · exact .same
    · next role c next hp =>
      rcases exec_ledger (S := S) (w := s.world) (c := c) (o := choice) with h | ⟨op, rfl, h⟩
      · exact h ▸ .same
      · exact h ▸ .write p role op next choice rfl hp
  | crash p => exact .same
  | start p role =>
    simp only [Machine.step]
    split <;> exact .same
  | env e =>
    simp only [Machine.step, Setup.machine, outside]
    split
    · exact .same
    · next hc =>
      cases e with
      | call c => exact .outside c rfl (by simpa using hc)
      | files canonical entries remote => exact .same

theorem LedgerStep.changes {e : Event} {l : Ledger} (h : LedgerStep S s e l) :
    Ledger.Changes Ledger.allTables s.world.ledger l := by
  cases h with
  | same => exact .refl
  | write p role op next choice he hp => exact (Ledger.step_changes ..).mono fun _ _ => Ledger.mem_allTables
  | outside c he hc => exact (Ledger.step_changes ..).mono fun _ _ => Ledger.mem_allTables

theorem LedgerStep.lockstep {e : Event} {l : Ledger} (h : LedgerStep S s e l)
    (hs : RetryQueue.Lockstep s.world.ledger.view) : RetryQueue.Lockstep l.view := by
  cases h with
  | same => exact hs
  | write p role op next choice he hp => exact hs.run (Ledger.step_runs hs _)
  | outside c he hc => exact hs.run (Ledger.step_runs hs _)

theorem run_lockstep (S : Setup) (es : List Event) (hs : RetryQueue.Lockstep s.world.ledger.view) :
    RetryQueue.Lockstep (run S.machine.step s es).world.ledger.view :=
  run_invariant (P := fun s : Processes => RetryQueue.Lockstep s.world.ledger.view)
    (fun s' e h => (ledgerStep S s' e).lockstep h) hs es

theorem LedgerStep.apart {e : Event} {l : Ledger} (h : LedgerStep S s e l) (hs : s.world.ledger.WorkspacesApart) :
    l.WorkspacesApart := by
  cases h with
  | same => exact hs
  | write p role op next choice he hp => exact hs.step S.crates _
  | outside c he hc => exact hs.step S.crates c

theorem run_apart (S : Setup) (es : List Event) (hs : s.world.ledger.WorkspacesApart) :
    (run S.machine.step s es).world.ledger.WorkspacesApart :=
  run_invariant (P := fun s : Processes => s.world.ledger.WorkspacesApart)
    (fun s' e h => (ledgerStep S s' e).apart h) hs es

/-- No task, run or workspace disappears in a run, and the durable facts of each stay. -/
theorem run_changes (S : Setup) (s : Processes) (es : List Event) :
    Ledger.Changes Ledger.allTables s.world.ledger (run S.machine.step s es).world.ledger := by
  refine run_invariant (P := fun s' : Processes => Ledger.Changes Ledger.allTables s.world.ledger s'.world.ledger)
    (fun s' e h => h.trans ?_) .refl es
  exact (ledgerStep S s' e).changes

theorem ofStr?_cleanupPending {text : String} (h : WorkspaceState.ofStr? text = some .cleanupPending) :
    text = "cleanup_pending" := by
  unfold WorkspaceState.ofStr? at h
  split at h <;> first | rfl | cases h

/-- A workspace becomes marked only by a process that writes so. -/
theorem LedgerStep.marks {e : Event} {l : Ledger} (h : LedgerStep S s e l)
    (hl : Pending l taskId) : Pending s.world.ledger taskId ∨ ∃ p role next choice, e = .act p choice ∧
      s.procs p = some (role, .call (.write
        (.updateTaskWorkspaceState taskId "cleanup_pending" (some operatorConfirmedCleanup))) next) := by
  obtain ⟨row, hrow, hmarked⟩ := hl
  have hstep : ∀ c, (s.world.ledger.step S.crates c).taskWorkspaces.get? taskId = some row →
      Pending s.world.ledger taskId ∨
        c.op = .updateTaskWorkspaceState taskId "cleanup_pending" (some operatorConfirmedCleanup) := by
    intro c hrow
    rcases Ledger.workspaceStep S.crates s.world.ledger c with
      htable | ⟨workspace, now, _, hfree, _, _, htable⟩ |
        ⟨id, text, summary, now, state, before, hop, hstate, hbefore, _, htable⟩
    · exact .inl ⟨row, by rwa [htable] at hrow, hmarked⟩
    · rw [htable, KeyedTable.get?_insert] at hrow
      split at hrow
      · cases hrow
        cases hmarked.1
      · exact .inl ⟨row, hrow, hmarked⟩
    · by_cases hid : taskId = id
      · subst hid
        rw [htable] at hrow
        cases (KeyedTable.get?_modify_self hbefore rfl).symm.trans hrow
        obtain ⟨rfl, rfl⟩ := hmarked
        exact .inr (by rw [hop, ofStr?_cleanupPending hstate])
      · rw [htable] at hrow
        exact .inl ⟨row, (KeyedTable.get?_modify_ne hid).symm.trans hrow, hmarked⟩
  cases h with
  | same => exact .inl ⟨row, hrow, hmarked⟩
  | write p role op next choice he hp =>
    exact (hstep _ hrow).imp_right fun hop => ⟨p, role, next, choice, he, by rw [hp, show op = _ from hop]⟩
  | outside c he hc =>
    refine (hstep _ hrow).resolve_right ?_ |> .inl
    obtain ⟨host, op⟩ := c
    rintro rfl
    simp [Outside.Allowed] at hc

/-! ## A run in which a finding is out of date -/

def removalSetup : Setup where
  crates := exampleCrates
  env := exampleServices
  owner := ⟨"acme/site", ⟨["srv", "site"]⟩, ⟨["srv", "work"]⟩⟩
  cloneTokenEnv := some "GH_TOKEN"

/-- The first task succeeds in its clone, without a pull request. -/
def succeededCalls : List Call := exampleCalls
  [exampleDaemon, examplePoll "r1" true, exampleClaim,
    .reserveTaskWorkspace { taskWorkspaceCandidate exampleRetry.task "/srv/work" true "main" (exampleSha 'a') with
      factoryBranch := some "factory/101" },
    .updateTaskWorkspaceState 1 "ready" none, exampleSuccess 1]

def succeeded : Processes where
  world := { exampleSite false with ledger := Ledger.empty.runCalls exampleCrates succeededCalls }
  procs _ := none

/-- The task is continued after the last look at its clone. -/
def continuedLate : List Event :=
  .start 0 (.finalize 1) :: (List.replicate 16 (.act 0 { host := exampleHost }) ++
    [.env (.call ⟨exampleHost, exampleContinuation 'a'⟩)])

theorem not_pending_succeeded (taskId : ℕ) : ¬ Pending succeeded.world.ledger taskId := by
  rintro ⟨row, hrow, hstate, -⟩
  have hall : ∀ row ∈ succeeded.world.ledger.taskWorkspaces, row.state ≠ .cleanupPending := by decide
  exact hall row (KeyedTable.mem_of_get? hrow) hstate

theorem removing_continuedLate : ∃ next, (run removalSetup.machine.step succeeded continuedLate).procs 0 =
    some (.finalize 1, .call (.removeDirAll exampleClonePath) next) := ⟨_, rfl⟩

/-! ## Justifications -/

/-- The command of an operator, who has confirmed it, has found the task neither queued nor running. -/
def OperatorConfirmed (S : Setup) (s : Processes) (es : List Event) (taskId : ℕ) : Prop :=
  ∃ p role before mid late, es = before ++ .start p role :: (mid ++ late) ∧
    ∃ h : Machine.Lives S.machine s p role before mid, Confirmed role h.worlds taskId

theorem OperatorConfirmed.append (h : OperatorConfirmed S s es taskId) (es' : List Event) :
    OperatorConfirmed S s (es ++ es') taskId := by
  obtain ⟨p, role, before, mid, late, rfl, h⟩ := h
  exact ⟨p, role, before, mid, late ++ es', by simp, h⟩

/-- What a process does is allowed by what it has seen. -/
theorem lives_allowed {c : Cmd} {next} {before late : List Event} {role' : Role}
    (h : Machine.Lives S.machine s p role before late)
    (hat : (run S.machine.step s (before ++ .start p role :: late)).procs p = some (role', .call c next)) :
    role' = role ∧ Allowed role h.worlds c :=
  h.attests (fun _ => attests_program role) hat

/-- The process that marks a workspace is the command of an operator. -/
theorem confirmed_of_mark {next} {before late : List Event} {role' : Role}
    (h : Machine.Lives S.machine s p role before late)
    (hat : (run S.machine.step s (before ++ .start p role :: late)).procs p = some (role', .call (.write
      (.updateTaskWorkspaceState taskId "cleanup_pending" (some operatorConfirmedCleanup))) next)) :
    Confirmed role h.worlds taskId :=
  (lives_allowed h hat).2 rfl rfl

section
variable (hs : ∀ p, s.procs p = none) (hnone : ∀ taskId, ¬ Pending s.world.ledger taskId)
include hs hnone

theorem operatorConfirmed_of_pending (h : Pending (run S.machine.step s es).world.ledger taskId) :
    OperatorConfirmed S s es taskId := by
  induction es using List.reverseRecOn with
  | nil => exact absurd h (hnone taskId)
  | append_singleton es e ih =>
    rw [run_append] at h
    rcases (ledgerStep S (run S.machine.step s es) e).marks h with h | ⟨p, role, next, choice, rfl, hp⟩
    · exact (ih h).append [e]
    · obtain ⟨before, late, rfl, hlives⟩ := Machine.exists_lives (hs p) hp
      exact ⟨p, role, before, late, [.act p choice], by simp, hlives, confirmed_of_mark hlives hp⟩

end

section
variable {row row' : TaskWorkspace} {seen : Set Site} {path : AbsPath}

theorem Inspected.of_facts (h : Inspected seen row path) (hid : row'.taskId = row.taskId)
    (hfacts : Ledger.workspaceFacts row' = Ledger.workspaceFacts row) : Inspected seen row' path := by
  simp only [Ledger.workspaceFacts, Prod.mk.injEq] at hfacts
  obtain ⟨-, hbackend, -, -, hbase, -, -⟩ := hfacts
  exact ⟨hid ▸ h.succeeded, h.clean, hbase ▸ hbackend ▸ h.safe⟩

theorem kind_path_of_facts (h : Ledger.workspaceFacts row' = Ledger.workspaceFacts row) :
    row'.kind = row.kind ∧ row'.path? = row.path? := by
  simp only [Ledger.workspaceFacts, Prod.mk.injEq] at h
  obtain ⟨hkind, -, -, -, -, -, hpath⟩ := h
  exact ⟨hkind, by rw [TaskWorkspace.path?, TaskWorkspace.path?, hpath]⟩

/-- A process that is about to remove a directory has a justification. -/
theorem exists_justified {c : Cmd} {next} (hs : ∀ p, s.procs p = none)
    (hat : (run S.machine.step s es).procs p = some (role, .call c next)) (hc : c.removes = some path) :
    ∃ before late, es = before ++ .start p role :: late ∧
      ∃ h : Machine.Lives S.machine s p role before late, ∃ row, Justified role h.worlds path row := by
  obtain ⟨before, late, rfl, h⟩ := Machine.exists_lives (hs p) hat
  refine ⟨before, late, rfl, h, ?_⟩
  have hallowed := (lives_allowed h hat).2
  cases c with
  | write op => cases hc
  | _ => exact hallowed path hc

/-- A row that has been read is still there, and says the same of its directory. -/
theorem row_of_hasRow {before late : List Event} {h : Machine.Lives S.machine s p role before late}
    (hrow : HasRow h.worlds row) :
    ∃ row' ∈ (run S.machine.step s (before ++ .start p role :: late)).world.ledger.taskWorkspaces,
      row'.taskId = row.taskId ∧ Ledger.workspaceFacts row' = Ledger.workspaceFacts row := by
  obtain ⟨w, hw, hrow⟩ := hrow
  obtain ⟨mid, tail, rfl, rfl⟩ := h.of_mem hw
  have hkeeps := (run_changes S (run S.machine.step s (before ++ .start p role :: mid)) tail).workspaces
    row.taskId row hrow
  rw [← run_append, List.append_assoc, List.cons_append] at hkeeps
  obtain ⟨row', hrow', hfacts⟩ := hkeeps
  exact ⟨row', KeyedTable.mem_of_get? hrow', KeyedTable.key_of_get? hrow', hfacts⟩

/-- What justifies a removal still holds of the row as it is now. -/
theorem Justified.current (hs : ∀ p, s.procs p = none) (hnone : ∀ taskId, ¬ Pending s.world.ledger taskId)
    {before late : List Event} {h : Machine.Lives S.machine s p role before late}
    (hjustified : Justified role h.worlds path row) :
    ∃ row' ∈ (run S.machine.step s (before ++ .start p role :: late)).world.ledger.taskWorkspaces,
      row'.taskId = row.taskId ∧ row'.kind = row.kind ∧ row'.path? = some path ∧
        Concerns role h.worlds row'.taskId ∧
        (row'.kind = .proposal ∨ OperatorConfirmed S s (before ++ .start p role :: late) row'.taskId ∨
          Inspected h.worlds row' path) := by
  obtain ⟨hrow, hpath, hconcerns, hcleared⟩ := hjustified
  obtain ⟨row', hrow', hid, hfacts⟩ := row_of_hasRow hrow
  obtain ⟨hkind', hpath'⟩ := kind_path_of_facts hfacts
  refine ⟨row', hrow', hid, hkind', hpath'.trans hpath, hid ▸ hconcerns, ?_⟩
  rw [hid]
  rcases hcleared with hproposal | hconfirmed | hmarked | hinspected
  · exact .inl (hkind'.trans hproposal)
  · exact .inr (.inl ⟨p, role, before, late, [], by simp, h, hconfirmed⟩)
  · -- an operator has left the mark before this process read it
    obtain ⟨w, hw, hrow⟩ := hrow
    obtain ⟨mid, tail, rfl, rfl⟩ := h.of_mem hw
    have hconfirmed := operatorConfirmed_of_pending hs hnone ⟨row, hrow, hmarked⟩
    exact .inr (.inl (by simpa using hconfirmed.append tail))
  · exact .inr (.inr (hinspected.of_facts hid hfacts))

end

/-- **A directory is removed for a reason.** When a process is about to remove a directory, in any
interleaving, it is that of a workspace which the process is about, and the workspace is a proposal, or an
operator has confirmed its removal, or the process has itself found, since its start, that the task has
succeeded, that the tree is clean and that its `HEAD` is the base or published. -/
theorem removal_justified (S : Setup) (s : Processes) (hs : ∀ p, s.procs p = none)
    (hnone : ∀ taskId, ¬ Pending s.world.ledger taskId) (es : List Event) (p : ℕ) (role : Role) (c : Cmd)
    (next) (hat : (run S.machine.step s es).procs p = some (role, .call c next)) (path : AbsPath)
    (hc : c.removes = some path) :
    ∃ before late, es = before ++ .start p role :: late ∧
      ∃ h : Machine.Lives S.machine s p role before late,
        ∃ row ∈ (run S.machine.step s es).world.ledger.taskWorkspaces, row.path? = some path ∧
          Concerns role h.worlds row.taskId ∧
          (row.kind = .proposal ∨ OperatorConfirmed S s es row.taskId ∨ Inspected h.worlds row path) := by
  obtain ⟨before, late, rfl, h, row, hjustified⟩ := exists_justified hs hat hc
  obtain ⟨row', hrow', -, -, hpath', hconcerns, hcleared⟩ := hjustified.current hs hnone
  exact ⟨before, late, rfl, h, row', hrow', hpath', hconcerns, hcleared⟩

theorem removal_justified_continuedLate :
    ∃ before late, continuedLate = before ++ .start 0 (.finalize 1) :: late ∧
      ∃ h : Machine.Lives removalSetup.machine succeeded 0 (.finalize 1) before late,
        ∃ row ∈ (run removalSetup.machine.step succeeded continuedLate).world.ledger.taskWorkspaces,
          row.path? = some exampleClonePath ∧ Concerns (.finalize 1) h.worlds row.taskId ∧
          (row.kind = .proposal ∨ OperatorConfirmed removalSetup succeeded continuedLate row.taskId ∨
            Inspected h.worlds row exampleClonePath) := by
  obtain ⟨next, hat⟩ := removing_continuedLate
  exact removal_justified removalSetup succeeded (fun _ => rfl) not_pending_succeeded continuedLate 0
    (.finalize 1) (.removeDirAll exampleClonePath) next hat exampleClonePath rfl

/-! ## Findings that are out of date -/

/-- The program may be about the task. -/
def Handles (role : Role) (l : Ledger) (taskId : ℕ) : Prop :=
  match role with
  | .finalize id => taskId = id
  | .startup _ => True
  | .cleanup runId _ _ => ∀ run, l.runs.get? runId = some run → run.taskId = taskId

/-- The removal of the workspace is under way: a process is about it, or an operator has confirmed it. -/
def Busy (s : Processes) (taskId : ℕ) : Prop :=
  Pending s.world.ledger taskId ∨ ∃ p role x, s.procs p = some (role, x) ∧ Handles role s.world.ledger taskId

/-- Since the ledger was last so, the removal has been under way. -/
def UnderWay (S : Setup) (s : Processes) (es : List Event) (taskId : ℕ) (P : Ledger → Prop) : Prop :=
  Since S.machine.step (fun s => P s.world.ledger) (fun s => Busy s taskId) s es

/-- Which task a process is about does not change. -/
theorem handles_of_concerns {before mid late : List Event} {h : Machine.Lives S.machine s p role before late}
    (hconcerns : Concerns role h.worlds taskId) (hmid : mid <+: late) :
    Handles role (run S.machine.step s (before ++ .start p role :: mid)).world.ledger taskId := by
  cases role with
  | finalize id => exact hconcerns
  | startup destructive => trivial
  | cleanup runId confirm repository =>
    intro found hfound
    obtain ⟨w, hw, read, hread, rfl⟩ := hconcerns
    obtain ⟨mid', tail, rfl, rfl⟩ := h.of_mem hw
    -- a run keeps its task between the two moments, whichever comes first
    have hkept : ∀ {mid mid' : List Event} {run₁ run₂ : Run}, mid <+: mid' →
        (run S.machine.step s (before ++ .start p (.cleanup runId confirm repository) :: mid)).world.ledger.runs.get?
          runId = some run₁ →
        (run S.machine.step s (before ++ .start p (.cleanup runId confirm repository) :: mid')).world.ledger.runs.get?
          runId = some run₂ → run₂.taskId = run₁.taskId := by
      rintro mid _ run₁ run₂ ⟨rest, rfl⟩ h₁ h₂
      obtain ⟨run', h', hevolves⟩ := (run_changes S _ rest).runs.kept h₁
      rw [← run_append, List.append_assoc, List.cons_append, h₂] at h'
      cases h'
      exact hevolves.task
    rcases List.prefix_or_prefix_of_prefix hmid (List.prefix_append mid' tail) with hle | hle
    · exact (hkept hle hfound hread).symm
    · exact hkept hle hread hfound

/-- As long as the process lives, the removal is under way. -/
theorem busy_of_lives {before mid late : List Event} {h : Machine.Lives S.machine s p role before late}
    (hconcerns : Concerns role h.worlds taskId) (hmid : mid <+: late) :
    Busy (run S.machine.step s (before ++ .start p role :: mid)) taskId := by
  have hhandles := handles_of_concerns hconcerns hmid
  obtain ⟨rest, rfl⟩ := hmid
  obtain ⟨x, hx, -⟩ := h.of_append.attested fun _ => attests_program role
  exact .inr ⟨p, role, x, hx, hhandles⟩

/-- The process has found the ledger so. -/
theorem underWay_of_lives {P : Ledger → Prop} {before late : List Event}
    {h : Machine.Lives S.machine s p role before late} (hconcerns : Concerns role h.worlds taskId)
    (hfound : Once h.worlds fun w => P w.ledger) : UnderWay S s (before ++ .start p role :: late) taskId P := by
  obtain ⟨w, hw, hfound⟩ := hfound
  obtain ⟨mid, tail, rfl, rfl⟩ := h.of_mem hw
  refine ⟨before ++ .start p role :: mid, tail, by simp, hfound, fun mid' tail' htail => ?_⟩
  rw [List.append_assoc, List.cons_append]
  exact busy_of_lives hconcerns ⟨tail', by rw [htail, List.append_assoc]⟩

theorem Inspected.over {seen : Set Site} {row : TaskWorkspace} {path : AbsPath} (h : Inspected seen row path) :
    Once seen fun w => w.ledger.TaskOver row.taskId :=
  h.succeeded.mono fun _ ⟨task, htask, hstate⟩ => ⟨task, htask, by rw [hstate]; rfl⟩

section
variable (hs : ∀ p, s.procs p = none) (hnone : ∀ taskId, ¬ Pending s.world.ledger taskId)
include hs hnone

theorem underWay_of_pending (h : Pending (run S.machine.step s es).world.ledger taskId) :
    UnderWay S s es taskId (·.TaskOver taskId) := by
  induction es using List.reverseRecOn with
  | nil => exact absurd h (hnone taskId)
  | append_singleton es e ih =>
    refine Since.concat ?_ (.inl h)
    rw [run_append] at h
    rcases (ledgerStep S (run S.machine.step s es) e).marks h with h | ⟨p, role, next, choice, rfl, hp⟩
    · exact ih h
    · obtain ⟨before, late, rfl, hlives⟩ := Machine.exists_lives (hs p) hp
      have hconfirmed : Confirmed role hlives.worlds taskId := confirmed_of_mark hlives hp
      exact underWay_of_lives (P := (·.TaskOver taskId)) hconfirmed.concerns hconfirmed.terminal

end

/-- A continuation of the task has been granted while its removal was under way. -/
def ContinuedMeanwhile (S : Setup) (s : Processes) (es : List Event) (taskId : ℕ) : Prop :=
  ∃ before host repository taskGid fingerprint late,
    es = before ++ .env (.call ⟨host, .requestContinuation repository taskGid fingerprint⟩) :: late ∧
      Busy (run S.machine.step s before) taskId ∧
      ∃ task workspace, (run S.machine.step s before).world.ledger.Grants S.crates repository taskGid
        fingerprint task workspace ∧ task.id = taskId

/-- What only a continuation changes of a task whose removal is under way, a continuation has changed meanwhile. -/
theorem UnderWay.continued {P : Ledger → Prop} (hs : ∀ p, s.procs p = none)
    (hledger : RetryQueue.Lockstep s.world.ledger.view) (h : UnderWay S s es taskId P)
    (hP : ∀ (l : Ledger) (c : Call), RetryQueue.Lockstep l.view → P l → ¬ P (l.step S.crates c) →
      l.Reopens S.crates c taskId)
    (hlost : ¬ P (run S.machine.step s es).world.ledger) : ContinuedMeanwhile S s es taskId := by
  obtain ⟨before, e, late, rfl, hbusy, hheld, hturn⟩ :=
    Since.exists_turn (P := fun s : Processes => P s.world.ledger) h hlost
  have hlockstep := run_lockstep S before hledger
  have hstep := ledgerStep S (run S.machine.step s before) e
  generalize (S.machine.step (run S.machine.step s before) e).world.ledger = l at hstep hturn
  cases hstep with
  | same => exact absurd hheld hturn
  | write p role op next choice he hp =>
    -- the processes here request no continuations
    obtain ⟨repository, taskGid, fingerprint, rfl, -⟩ := hP _ _ hlockstep hheld hturn
    obtain ⟨before, late, rfl, hlives⟩ := Machine.exists_lives (hs p) hp
    exact (lives_allowed hlives hp).2.elim
  | outside c he hc =>
    obtain ⟨repository, taskGid, fingerprint, hop, hgrants⟩ := hP _ _ hlockstep hheld hturn
    obtain ⟨host, op⟩ := c
    subst he hop
    exact ⟨before, host, repository, taskGid, fingerprint, late, rfl, hbusy, hgrants⟩

/-- What justifies the removal for a delivery has begun when the task was over. -/
theorem Justified.underWay {row : TaskWorkspace} {path : AbsPath} (hs : ∀ p, s.procs p = none)
    (hnone : ∀ taskId, ¬ Pending s.world.ledger taskId) {before late : List Event}
    {h : Machine.Lives S.machine s p role before late} (hjustified : Justified role h.worlds path row)
    (hdelivery : row.kind = .delivery) :
    UnderWay S s (before ++ .start p role :: late) row.taskId (·.TaskOver row.taskId) := by
  rcases hjustified.cleared with hproposal | hconfirmed | hmarked | hinspected
  · cases hproposal.symm.trans hdelivery
  · exact underWay_of_lives hjustified.concerns hconfirmed.terminal
  · -- the removal has been pending until the process has read so, and the process has lived since then
    obtain ⟨w, hw, hrow⟩ := hjustified.hasRow
    obtain ⟨mid, tail, rfl, rfl⟩ := h.of_mem hw
    have hpending := underWay_of_pending hs hnone ⟨row, hrow, hmarked⟩
    have hsince := hpending.append tail fun mid' tail' htail => by
      rw [List.append_assoc, List.cons_append]
      exact busy_of_lives hjustified.concerns ⟨tail', by rw [htail, List.append_assoc]⟩
    rwa [List.append_assoc, List.cons_append] at hsince
  · exact underWay_of_lives hjustified.concerns hinspected.over

theorem lockstep_of_calls {calls : List Call} (hledger : s.world.ledger = Ledger.empty.runCalls S.crates calls) :
    RetryQueue.Lockstep s.world.ledger.view := by
  rw [hledger]
  exact (Ledger.sound_reachable S.crates calls).lockstep

/-- The directory of the row is also on record for another task, which the process is about and whose workspace
may be removed. The unique index leaves the path to both rows only where one of them has been cleaned. -/
def PathReused (S : Setup) (s : Processes) (es : List Event) (p : ℕ) (role : Role) (row : TaskWorkspace)
    (path : AbsPath) : Prop :=
  ∃ before late, es = before ++ .start p role :: late ∧
    ∃ h : Machine.Lives S.machine s p role before late,
      ∃ other ∈ (run S.machine.step s es).world.ledger.taskWorkspaces, other.taskId ≠ row.taskId ∧
        other.path? = some path ∧ Concerns role h.worlds other.taskId ∧
        (other.kind = .proposal ∨ OperatorConfirmed S s es other.taskId ∨ Inspected h.worlds other path) ∧
        (other.path = row.path → other.state = .cleaned ∨ row.state = .cleaned)

/-- **Where a removal can go wrong.** If a delivery whose task is queued or running has the directory that is
about to be removed, then a continuation has been granted while the removal was under way: while a process that
is about the task was between its findings and the removal, or while a removal that an operator had confirmed
was pending. Or the removal is that of another task, whose directory has been given to this one. -/
theorem removal_of_active (S : Setup) (s : Processes) (calls : List Call)
    (hledger : s.world.ledger = Ledger.empty.runCalls S.crates calls) (hs : ∀ p, s.procs p = none)
    (hnone : ∀ taskId, ¬ Pending s.world.ledger taskId) (es : List Event) (p : ℕ) (role : Role) (c : Cmd)
    (next) (hat : (run S.machine.step s es).procs p = some (role, .call c next)) (path : AbsPath)
    (hc : c.removes = some path) :
    ∀ row ∈ (run S.machine.step s es).world.ledger.taskWorkspaces, row.path? = some path →
      row.kind = .delivery → (run S.machine.step s es).world.ledger.TaskActive row.taskId →
        ContinuedMeanwhile S s es row.taskId ∨ PathReused S s es p role row path := by
  intro row hrow hpath hdelivery hactive
  have hlockstep := lockstep_of_calls hledger
  have hapart : s.world.ledger.WorkspacesApart := by
    rw [hledger]
    exact Ledger.WorkspacesApart.runCalls (by rintro a ⟨⟩) S.crates calls
  obtain ⟨before, late, rfl, h, read, hjustified⟩ := exists_justified hs hat hc
  obtain ⟨other, hother, hid, hkind, hpath', hconcerns, hcleared⟩ := hjustified.current hs hnone
  by_cases hsame : other.taskId = row.taskId
  · -- the process is about this very row
    cases KeyedTable.eq_of_key_eq hother hrow hsame
    have hunder := hjustified.underWay hs hnone (hkind.symm.trans hdelivery)
    rw [← hid] at hunder
    exact .inl (hunder.continued hs hlockstep (fun _ _ => Ledger.reopens_of_not_over) hactive.not_over)
  · refine .inr ⟨before, late, rfl, h, other, hother, hsame, hpath', hconcerns, hcleared, fun hpaths => ?_⟩
    by_contra hlive
    push Not at hlive
    have hconflict : Ledger.conflictsWith other row = true :=
      Ledger.conflictsWith_iff.mpr ⟨hlive.2, .inl hpaths.symm⟩
    exact hsame (congrArg (·.taskId) (run_apart S _ hapart other hother row hrow hlive.1 hconflict))

/-- The clone of a task that has been continued is removed all the same. -/
theorem removal_of_active_continuedLate :
    (run removalSetup.machine.step succeeded continuedLate).world.ledger.TaskActive 1 ∧
    ∀ row ∈ (run removalSetup.machine.step succeeded continuedLate).world.ledger.taskWorkspaces,
      row.path? = some exampleClonePath → row.kind = .delivery →
        (run removalSetup.machine.step succeeded continuedLate).world.ledger.TaskActive row.taskId →
          ContinuedMeanwhile removalSetup succeeded continuedLate row.taskId ∨
            PathReused removalSetup succeeded continuedLate 0 (.finalize 1) row exampleClonePath := by
  obtain ⟨next, hat⟩ := removing_continuedLate
  exact ⟨⟨_, rfl, rfl⟩, removal_of_active removalSetup succeeded succeededCalls rfl (fun _ => rfl)
    not_pending_succeeded continuedLate 0 (.finalize 1)
      (.removeDirAll exampleClonePath) next hat exampleClonePath rfl⟩

/-- The clone is recorded as cleaned after the last look at it, and a second task is given its path. -/
def reusedLate : List Event :=
  .start 0 (.finalize 1) :: (List.replicate 16 (.act 0 { host := exampleHost }) ++ (exampleCalls
    [.updateTaskWorkspaceState 1 "cleaned" none,
      .enqueueWithPayload (.ticket "acme/site" "implement" "102" "r1") none,
      .reserveTaskWorkspace { taskWorkspaceCandidate exampleRetry.task "/srv/work" true "main" (exampleSha 'a') with
        taskId := 2 }]).map fun c => .env (.call c))

-- no continuation is requested, and the directory goes although the second task is queued for it
example : (∃ next, (run removalSetup.machine.step succeeded reusedLate).procs 0 =
      some (.finalize 1, .call (.removeDirAll exampleClonePath) next)) ∧
    (run removalSetup.machine.step succeeded reusedLate).world.ledger.TaskActive 2 ∧
    ∃ row, (run removalSetup.machine.step succeeded reusedLate).world.ledger.taskWorkspaces.get? 2 = some row ∧
      row.kind = .delivery ∧ row.path? = some exampleClonePath :=
  ⟨⟨_, rfl⟩, ⟨_, rfl, rfl⟩, _, rfl, rfl, rfl⟩

/-! ## Removals without a continuation meanwhile -/

/-- The directory of a delivery may go: its task is neither queued nor running, and an operator has confirmed the
removal, or the task has succeeded and the process has found the tree clean and its `HEAD` the base or published. -/
structure SafeRemoval (S : Setup) (s : Processes) (es : List Event) (seen : Set Site) (row : TaskWorkspace)
    (path : AbsPath) : Prop where
  idle : ¬ (run S.machine.step s es).world.ledger.TaskActive row.taskId
  cleared : OperatorConfirmed S s es row.taskId ∨
    (run S.machine.step s es).world.ledger.TaskIs row.taskId .succeeded ∧ Inspected seen row path

/-- The directory of a workspace that a living process is about is also that of a delivery, which is not cleaned. -/
def Contested (S : Setup) (s : Processes) (es : List Event) : Prop :=
  ∃ p role before late, es = before ++ .start p role :: late ∧ ∃ h : Machine.Lives S.machine s p role before late,
    ∃ row ∈ (run S.machine.step s es).world.ledger.taskWorkspaces, Concerns role h.worlds row.taskId ∧
      ∃ other ∈ (run S.machine.step s es).world.ledger.taskWorkspaces, other.taskId ≠ row.taskId ∧
        other.kind = .delivery ∧ other.state ≠ .cleaned ∧
          ∃ path, row.path? = some path ∧ other.path? = some path

/-- **A removal is safe, unless its task is continued meanwhile.** In a run that grants no continuation of a task
whose removal is under way, and in which no directory is retained for one workspace while a process may remove it
for another, a directory is removed only of a workspace on record which the process is about, of a delivery only if
that is safe, and no other workspace that is retained loses its directory. -/
theorem removal_safe (S : Setup) (s : Processes) (calls : List Call)
    (hledger : s.world.ledger = Ledger.empty.runCalls S.crates calls) (hs : ∀ p, s.procs p = none)
    (hnone : ∀ taskId, ¬ Pending s.world.ledger taskId) (es : List Event)
    (hcontinued : ∀ taskId, ¬ ContinuedMeanwhile S s es taskId)
    (hcontested : ∀ before late, es = before ++ late → ¬ Contested S s before) (p : ℕ) (role : Role)
    (c : Cmd) (next) (hat : (run S.machine.step s es).procs p = some (role, .call c next)) (path : AbsPath)
    (hc : c.removes = some path) :
    ∃ before late, es = before ++ .start p role :: late ∧
      ∃ h : Machine.Lives S.machine s p role before late,
        ∃ row ∈ (run S.machine.step s es).world.ledger.taskWorkspaces, row.path? = some path ∧
          Concerns role h.worlds row.taskId ∧ (row.kind = .delivery → SafeRemoval S s es h.worlds row path) ∧
          ∀ other ∈ (run S.machine.step s es).world.ledger.taskWorkspaces, other.path? = some path →
            other.kind = .delivery → other.state ≠ .cleaned → other = row := by
  have hlockstep := lockstep_of_calls hledger
  obtain ⟨before, late, rfl, h, read, hjustified⟩ := exists_justified hs hat hc
  obtain ⟨row, hrow, hid, hkind, hpath, hconcerns, hcleared⟩ := hjustified.current hs hnone
  refine ⟨before, late, rfl, h, row, hrow, hpath, hconcerns, fun hdelivery => ⟨fun hactive => ?_, ?_⟩,
    fun other hother hpath' hdelivery hlive => ?_⟩
  · have hunder := hjustified.underWay hs hnone (hkind.symm.trans hdelivery)
    rw [← hid] at hunder
    refine hcontinued row.taskId (hunder.continued hs hlockstep (fun _ _ => Ledger.reopens_of_not_over) ?_)
    exact hactive.not_over
  · have hnot : row.kind ≠ .proposal := fun hproposal => by cases hproposal.symm.trans hdelivery
    refine (hcleared.resolve_left hnot).imp_right fun hinspected => ⟨?_, hinspected⟩
    -- it has succeeded when the process looked, and only a continuation changes that
    by_contra hlost
    have hunder : UnderWay S s (before ++ .start p role :: late) row.taskId (·.TaskIs row.taskId .succeeded) :=
      underWay_of_lives hconcerns hinspected.succeeded
    exact hcontinued row.taskId (hunder.continued hs hlockstep
      (fun _ _ hlockstep => Ledger.reopens_of_changed hlockstep rfl) hlost)
  · by_contra hother'
    have hid' : other.taskId ≠ row.taskId := fun hid' => hother' (KeyedTable.eq_of_key_eq hother hrow hid')
    exact hcontested _ [] (List.append_nil _).symm ⟨p, role, before, late, rfl, h, row, hrow, hconcerns,
      other, hother, hid', hdelivery, hlive, path, hpath, hpath'⟩

/-- The daemon crashes in the finalization, another one polls and starts it again. -/
def restarted : List Event :=
  .start 0 (.finalize 1) :: (List.replicate 5 (.act 0 { host := exampleHost }) ++
    .crash 0 :: .env (.call ⟨exampleHost, examplePoll "r2" true⟩) :: .start 0 (.finalize 1) ::
      List.replicate 16 (.act 0 { host := exampleHost }))

theorem not_continued_restarted (taskId : ℕ) : ¬ ContinuedMeanwhile removalSetup succeeded restarted taskId := by
  rintro ⟨before, host, repository, taskGid, fingerprint, late, hes, -⟩
  have hmem : .env (.call ⟨host, .requestContinuation repository taskGid fingerprint⟩) ∈ restarted := by
    rw [hes]
    exact List.mem_append_right _ List.mem_cons_self
  simp [restarted, examplePoll] at hmem

/-- There is no other workspace. -/
theorem not_contested_restarted (before late : List Event) (hes : restarted = before ++ late) :
    ¬ Contested removalSetup succeeded before := by
  have hsole : ∀ before ∈ restarted.inits, ∀ row ∈ (run removalSetup.machine.step succeeded
      before).world.ledger.taskWorkspaces, row.taskId = 1 := by decide +kernel
  have hone := hsole before ((List.mem_inits _ _).mpr ⟨late, hes.symm⟩)
  rintro ⟨p, role, _, _, -, _, row, hrow, -, other, hother, hid, -⟩
  exact hid ((hone other hother).trans (hone row hrow).symm)

theorem removal_safe_restarted :
    ∃ before late, restarted = before ++ .start 0 (.finalize 1) :: late ∧
      ∃ h : Machine.Lives removalSetup.machine succeeded 0 (.finalize 1) before late,
        ∃ row ∈ (run removalSetup.machine.step succeeded restarted).world.ledger.taskWorkspaces,
          row.path? = some exampleClonePath ∧ Concerns (.finalize 1) h.worlds row.taskId ∧
          (row.kind = .delivery → SafeRemoval removalSetup succeeded restarted h.worlds row exampleClonePath) ∧
          ∀ other ∈ (run removalSetup.machine.step succeeded restarted).world.ledger.taskWorkspaces,
            other.path? = some exampleClonePath → other.kind = .delivery → other.state ≠ .cleaned →
              other = row := by
  obtain ⟨next, hat⟩ : ∃ next, (run removalSetup.machine.step succeeded restarted).procs 0 =
      some (.finalize 1, .call (.removeDirAll exampleClonePath) next) := ⟨_, rfl⟩
  exact removal_safe removalSetup succeeded succeededCalls rfl (fun _ => rfl) not_pending_succeeded restarted
    not_continued_restarted not_contested_restarted 0 (.finalize 1) (.removeDirAll exampleClonePath) next hat
    exampleClonePath rfl

/-- The directory of a delivery whose task is queued is removed. -/
theorem removal_unsafe : ¬ ∀ (es : List Event) (p : ℕ) (role : Role) (c : Cmd) (next) (path : AbsPath),
    (run removalSetup.machine.step succeeded es).procs p = some (role, .call c next) → c.removes = some path →
      ∀ row ∈ (run removalSetup.machine.step succeeded es).world.ledger.taskWorkspaces, row.path? = some path →
        row.kind = .delivery →
          ¬ (run removalSetup.machine.step succeeded es).world.ledger.TaskActive row.taskId := by
  intro hsafe
  obtain ⟨next, hat⟩ := removing_continuedLate
  obtain ⟨row, hrow, hpath, hdelivery, hid⟩ : ∃ row,
      (run removalSetup.machine.step succeeded continuedLate).world.ledger.taskWorkspaces.get? 1 = some row ∧
        row.path? = some exampleClonePath ∧ row.kind = .delivery ∧ row.taskId = 1 := ⟨_, rfl, rfl, rfl, rfl⟩
  refine hsafe continuedLate 0 (.finalize 1) _ next exampleClonePath hat rfl row (KeyedTable.mem_of_get? hrow) hpath
    hdelivery ?_
  rw [hid]
  exact ⟨_, rfl, rfl⟩

end Removal
end FlashyFactory
