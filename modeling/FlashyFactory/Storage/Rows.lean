import FlashyFactory.Storage.Calls

/-! # How the rows of runs change

Every statement that updates `runs` has `WHERE outcome = 'running'`, so a closed run is final;
and every statement that closes a run dates it. -/

namespace FlashyFactory

/-- A run that is over has an end date. -/
def Run.Dated (run : Run) : Prop := run.outcome ≠ .running → run.finishedAt.isSome

/-- What a row may become. -/
structure Run.Evolves (run run' : Run) : Prop where
  task : run'.taskId = run.taskId
  closed : run.outcome ≠ .running → run' = run
  dated : run.outcome = .running → run'.Dated

theorem Run.Evolves.refl : Run.Evolves run run :=
  ⟨rfl, fun _ => rfl, fun h h' => (h' h).elim⟩

theorem Run.Evolves.trans (h : Run.Evolves run run') (h' : Run.Evolves run' run'') :
    Run.Evolves run run'' := by
  refine ⟨h'.task.trans h.task, fun ho => ?_, fun ho => ?_⟩
  · have hsame := h.closed ho
    rw [h'.closed (hsame ▸ ho), hsame]
  · by_cases hmid : run'.outcome = .running
    · exact h'.dated hmid
    · rw [h'.closed hmid]
      exact h.dated ho

namespace Ledger
variable {l l' l'' : Ledger} {id : ℕ}

/-- No run disappears, every run evolves, and the runs that are new are dated. -/
structure RunsEvolve (t t' : KeyedTable Run.id) : Prop where
  kept : t.get? i = some run → ∃ run', t'.get? i = some run' ∧ run.Evolves run'
  fresh : t.get? i = none → t'.get? i = some run' → run'.Dated

namespace RunsEvolve
variable {t t' t'' : KeyedTable Run.id}

theorem refl : RunsEvolve t t :=
  ⟨fun hr => ⟨_, hr, .refl⟩, fun hn hr => by rw [hn] at hr; cases hr⟩

theorem trans (h : RunsEvolve t t') (h' : RunsEvolve t' t'') : RunsEvolve t t'' := by
  refine ⟨fun hr => ?_, fun {i run''} hn hr => ?_⟩
  · obtain ⟨run', hr', he⟩ := h.kept hr
    obtain ⟨run'', hr'', he'⟩ := h'.kept hr'
    exact ⟨run'', hr'', he.trans he'⟩
  · cases hmid : t'.get? i with
    | none => exact h'.fresh hmid hr
    | some run' =>
      obtain ⟨run, hrun, he⟩ := h'.kept hmid
      cases hrun.symm.trans hr
      by_cases ho : run'.outcome = .running
      · exact he.dated ho
      · rw [he.closed ho]
        exact h.fresh hn hmid

/-- An update of running runs. -/
theorem modify {p : Run → Bool} {f : Run → Run}
    (hp : ∀ run, p run = true → run.outcome = .running)
    (htask : ∀ run, (f run).taskId = run.taskId) (hdated : ∀ run, p run = true → (f run).Dated)
    (hf : ∀ run, (f run).id = run.id) : RunsEvolve t (t.modify id p f hf) := by
  refine ⟨fun {i run} hr => ?_, fun {i run'} hn hr => ?_⟩
  · rw [KeyedTable.get?_modify]
    by_cases hi : i = id
    · subst hi
      by_cases hrun : p run = true
      · refine ⟨f run, by simp [hr, hrun], htask run, fun ho => (ho (hp run hrun)).elim, ?_⟩
        exact fun _ => hdated run hrun
      · exact ⟨run, by simp [hr, hrun], .refl⟩
    · exact ⟨run, by simp [hi, hr], .refl⟩
  · rw [KeyedTable.get?_modify] at hr
    split at hr
    · next hi =>
      subst hi
      simp [hn] at hr
    · rw [hn] at hr
      cases hr

/-- An update that closes running runs. -/
theorem close {f : Run → Run} (hf : ∀ run, (f run).id = run.id)
    (htask : ∀ run, (f run).taskId = run.taskId) (hdone : ∀ run, (f run).finishedAt.isSome) :
    RunsEvolve t (t.modify id isRunning f hf) :=
  modify (fun run hrun => by simpa [isRunning] using hrun) htask (fun run _ _ => hdone run) hf

/-- An update of running runs that closes none. -/
theorem observe {p : Run → Bool} {f : Run → Run}
    (hp : ∀ run, p run = true → isRunning run = true) (hf : ∀ run, (f run).id = run.id)
    (htask : ∀ run, (f run).taskId = run.taskId) (houtcome : ∀ run, (f run).outcome = run.outcome) :
    RunsEvolve t (t.modify id p f hf) := by
  have hrunning : ∀ run, p run = true → run.outcome = .running := fun run hrun => by
    simpa [isRunning] using hp run hrun
  exact modify hrunning htask (fun run hrun ho => (ho ((houtcome run).trans (hrunning run hrun))).elim) hf

theorem insertNext {new : ℕ → Run} (hnew : (new t.nextId).outcome = .running)
    (h : ∀ n, (new n).id = n := by intro; rfl) : RunsEvolve t (t.insertNext new h) := by
  refine ⟨fun {i run} hr => ?_, fun {i run'} hn hr => ?_⟩
  · have hi : i ≠ t.nextId := by
      rintro rfl
      simp at hr
    exact ⟨run, by rw [KeyedTable.get?_insertNext, if_neg hi, hr], .refl⟩
  · rw [KeyedTable.get?_insertNext] at hr
    split at hr
    · cases hr
      exact fun ho => (ho hnew).elim
    · rw [hn] at hr
      cases hr

end RunsEvolve

/-! ## All tables -/

/-- What no operation rewrites of a task. -/
def taskFacts (task : Task) :
    String × TaskKind × String × String × Option String × Option String × ℤ :=
  (task.identityKey, task.kind, task.repository, task.workflow, task.sourceItem, task.payload,
    task.createdAt)

/-- What no operation rewrites of a workspace. -/
def workspaceFacts (workspace : TaskWorkspace) :
    WorkspaceKind × WorkspaceBackend × String × String × String × Option String × String :=
  (workspace.kind, workspace.backend, workspace.repository, workspace.baseBranch,
    workspace.baseSha, workspace.factoryBranch, workspace.path)

/-- The ledger `l` with the tables `ts` of `l'`. -/
def patch (ts : List Table) (l l' : Ledger) : Ledger where
  tasks := if .tasks ∈ ts then l'.tasks else l.tasks
  runs := if .runs ∈ ts then l'.runs else l.runs
  triggerObservations :=
    if .triggerObservations ∈ ts then l'.triggerObservations else l.triggerObservations
  taskWorkspaces := if .taskWorkspaces ∈ ts then l'.taskWorkspaces else l.taskWorkspaces
  continuations := if .continuations ∈ ts then l'.continuations else l.continuations
  runSandboxes := if .runSandboxes ∈ ts then l'.runSandboxes else l.runSandboxes
  daemonOwners := if .daemonOwners ∈ ts then l'.daemonOwners else l.daemonOwners
  scheduleCursors := if .scheduleCursors ∈ ts then l'.scheduleCursors else l.scheduleCursors
  scheduleOwners := if .scheduleOwners ∈ ts then l'.scheduleOwners else l.scheduleOwners

theorem same_of_patch (h : l.patch ts l' = l') (ht : t ∉ ts) : l.Same l' t := by
  rw [← h]
  cases t <;> exact if_neg ht

/-- How the ledger changes under statements that write the tables `ts`: no task, run or workspace
disappears, the durable facts of each stay, and the other tables are the same. -/
structure Changes (ts : List Table) (l l' : Ledger) : Prop where
  runs : RunsEvolve l.runs l'.runs
  tasks : KeyedTable.Keeps taskFacts l.tasks l'.tasks
  workspaces : KeyedTable.Keeps workspaceFacts l.taskWorkspaces l'.taskWorkspaces
  frame : ∀ t ∉ ts, l.Same l' t

namespace Changes
variable {ts ts' : List Table}

/-- For statements on known tables, the other tables are untouched by definition. -/
theorem of (runs : RunsEvolve l.runs l'.runs)
    (tasks : KeyedTable.Keeps taskFacts l.tasks l'.tasks)
    (workspaces : KeyedTable.Keeps workspaceFacts l.taskWorkspaces l'.taskWorkspaces)
    (frame : l.patch ts l' = l') : Changes ts l l' :=
  ⟨runs, tasks, workspaces, fun _ ht => same_of_patch frame ht⟩

theorem refl : Changes ts l l := ⟨.refl, .refl, .refl, fun t _ => by cases t <;> rfl⟩

theorem trans (h : Changes ts l l') (h' : Changes ts l' l'') : Changes ts l l'' := by
  refine ⟨h.runs.trans h'.runs, h.tasks.trans h'.tasks, h.workspaces.trans h'.workspaces, ?_⟩
  intro t ht
  have hsame := h.frame t ht
  have hsame' := h'.frame t ht
  cases t <;> exact Eq.trans hsame' hsame

theorem mono (hsub : ts ⊆ ts') (h : Changes ts l l') : Changes ts' l l' :=
  ⟨h.runs, h.tasks, h.workspaces, fun t ht => h.frame t fun hmem => ht (hsub hmem)⟩

theorem triggerObservations (h : Changes ts l l') (hts : .triggerObservations ∉ ts) :
    l'.triggerObservations = l.triggerObservations := h.frame _ hts

theorem continuations (h : Changes ts l l') (hts : .continuations ∉ ts) :
    l'.continuations = l.continuations := h.frame _ hts

theorem runSandboxes (h : Changes ts l l') (hts : .runSandboxes ∉ ts) :
    l'.runSandboxes = l.runSandboxes := h.frame _ hts

end Changes

theorem insertOrIgnoreTask_changes {identity : TaskIdentity} :
    Changes [.tasks] l (l.insertOrIgnoreTask identity payload now).2 := by
  unfold insertOrIgnoreTask
  split
  · exact .refl
  · exact .of .refl (.of_subset fun _ h => by simp [h]) .refl rfl

theorem pollObservation_changes
    (h : l.pollObservation host repository workflow prior i o = .ok (a, l')) :
    Changes [.tasks, .triggerObservations] l l' := by
  have hstore : ∀ {l : Ledger} {now}, Changes [.tasks, .triggerObservations] l
      (l.storeObservation repository workflow o now) := .of .refl .refl .refl rfl
  simp only [pollObservation] at h
  repeat' split at h
  all_goals cases h
  all_goals first
    | exact hstore
    | exact (insertOrIgnoreTask_changes.mono (by simp)).trans hstore

theorem pollObservations_changes
    (h : pollObservations host repository workflow prior i os l = .ok (a, l')) :
    Changes [.tasks, .triggerObservations] l l' := by
  induction os generalizing i l a with
  | nil =>
    cases h
    exact .refl
  | cons o os ih =>
    simp only [pollObservations] at h
    split at h
    · cases h
    · next hfirst =>
      split at h
      · cases h
      · next hrest =>
        cases h
        exact (pollObservation_changes hfirst).trans (ih hrest)

theorem updateRunning_changes {set : Run → Run} {hset : ∀ run, (set run).id = run.id}
    (h : l.updateRunning id set e hset = .ok (a, l')) (htask : ∀ run, (set run).taskId = run.taskId)
    (houtcome : ∀ run, (set run).outcome = run.outcome) : Changes [.runs] l l' := by
  simp only [updateRunning] at h
  split at h
  · cases h
    exact .of (.observe (fun _ hrun => hrun) hset htask houtcome) .refl .refl rfl
  · cases h

theorem requestRunCancellation_changes (h : l.requestRunCancellation host id = .ok (a, l')) :
    Changes [.runs] l l' := by
  have hp : ∀ run, isCancellable run = true → isRunning run = true := fun _ hrun =>
    (Bool.and_eq_true_iff.mp hrun).1
  simp only [requestRunCancellation] at h
  repeat' split at h
  all_goals cases h
  all_goals first
    | exact .refl
    | refine .of ?_ .refl .refl rfl
      apply RunsEvolve.observe hp
      all_goals exact fun _ => rfl

/-- The statements that close a run and move its task. -/
theorem closeRun_changes {f : Run → Run} {g : Task → Task} {hg : ∀ task, (g task).id = task.id}
    (hf : ∀ run, (f run).id = run.id) (htask : ∀ run, (f run).taskId = run.taskId)
    (hdone : ∀ run, (f run).finishedAt.isSome) (hfacts : ∀ task, taskFacts (g task) = taskFacts task) :
    Changes [.tasks, .runs] l
      (({ l with runs := l.runs.modify id isRunning f hf } : Ledger).updateRunningTask taskId g hg) :=
  .of (.close hf htask hdone) (.modify hg hfacts) .refl rfl

theorem failPrelaunchAndRequeue_changes
    (h : l.failPrelaunchAndRequeue crates host id error = .ok (a, l')) :
    Changes [.tasks, .runs] l l' := by
  simp only [failPrelaunchAndRequeue] at h
  repeat' split at h
  all_goals cases h
  all_goals (apply closeRun_changes <;> exact fun _ => rfl)

theorem finishRunAndTaskWithRecovery_changes
    (h : l.finishRunAndTaskWithRecovery crates host id outcome result error sessionId allow =
      .ok (a, l')) : Changes [.tasks, .runs] l l' := by
  simp only [finishRunAndTaskWithRecovery] at h
  repeat' split at h
  all_goals cases h
  all_goals (apply closeRun_changes <;> exact fun _ => rfl)

theorem closeOrphan_changes : Changes [.tasks, .runs] l (l.closeOrphan run now report).2 := by
  unfold closeOrphan
  split
  · apply closeRun_changes <;> exact fun _ => rfl
  · split <;> (apply closeRun_changes <;> exact fun _ => rfl)

theorem recoverRun_changes (h : l.recoverRun host repository cutoff now run report = .ok (a, l')) :
    Changes [.tasks, .runs] l l' := by
  simp only [recoverRun] at h
  split at h
  · cases h
    exact .refl
  · split at h
    · cases h
      refine .of ?_ .refl .refl rfl
      apply RunsEvolve.observe (fun _ hrun => hrun) <;> exact fun _ => rfl
    · split at h
      · cases h
      · obtain rfl : (l.closeOrphan run now report).2 = l' := congrArg Prod.snd (Except.ok.inj h)
        exact closeOrphan_changes

theorem recoverRuns_changes {active : List Run}
    (h : recoverRuns host repository cutoff i active report l = .ok (a, l')) :
    Changes [.tasks, .runs] l l' := by
  induction active generalizing i report l with
  | nil =>
    cases h
    exact .refl
  | cons run active ih =>
    simp only [recoverRuns] at h
    split at h
    · cases h
    · next hone => exact (recoverRun_changes hone).trans (ih h)

theorem claimAndStartRun_changes
    (h : l.claimAndStartRunWithWorkdirsFiltered crates host available runtimes ownerId ownerPid dirs
      allowNew = .ok (a, l')) : Changes [.tasks, .runs] l l' := by
  simp only [claimAndStartRunWithWorkdirsFiltered, startClaimedRun] at h
  repeat' split at h
  all_goals cases h
  all_goals first
    | exact .refl
    | refine .of (.insertNext rfl) (.trans (.modify ?_ ?_) (.modify ?_ ?_)) .refl rfl
      all_goals exact fun _ => rfl

theorem reserveTaskWorkspace_changes (h : l.reserveTaskWorkspace host workspace = .ok (a, l')) :
    Changes [.taskWorkspaces] l l' := by
  simp only [reserveTaskWorkspace] at h
  repeat' split at h
  all_goals cases h
  all_goals first
    | exact .refl
    | exact .of .refl .refl (.of_subset fun _ h => by simp [h]) rfl

theorem updateTaskWorkspaceState_changes
    (h : l.updateTaskWorkspaceState host taskId state summary = .ok (a, l')) :
    Changes [.taskWorkspaces] l l' := by
  simp only [updateTaskWorkspaceState] at h
  repeat' split at h
  all_goals cases h
  all_goals
    refine .of .refl .refl (.modify ?_ ?_) rfl
    all_goals exact fun _ => rfl

theorem requestContinuation_changes
    (h : l.requestContinuation crates host repository taskGid fingerprint = .ok (a, l')) :
    Changes [.tasks, .continuations] l l' := by
  simp only [requestContinuation] at h
  repeat' split at h
  all_goals cases h
  all_goals first
    | exact .refl
    | exact .of .refl .refl .refl rfl
    | refine .of .refl (.modify ?_ ?_) .refl rfl
      all_goals exact fun _ => rfl

/-- **The durable facts stay, and an operation writes its own tables only.** No call deletes or
rewrites what a task or a workspace is about, and only runs that are running change. -/
theorem step_changes (crates : Crates) (l : Ledger) (c : Call) :
    Changes c.op.writes l (l.step crates c) := by
  obtain ⟨host, op⟩ := c
  cases op with
  | enqueueWithPayload identity payload =>
    refine LedgerResult.ledger_of .refl fun _ _ h => ?_
    simp only [enqueueWithPayload] at h
    repeat' split at h
    all_goals cases h
    exact insertOrIgnoreTask_changes
  | reconcileTicketPoll repository workflow observations =>
    refine LedgerResult.ledger_of .refl fun _ _ h => ?_
    simp only [reconcileTicketPoll] at h
    split at h
    · cases h
    · have hreset : Changes [.tasks, .triggerObservations] l
        (l.resetEligibility repository workflow) := .of .refl .refl .refl rfl
      exact hreset.trans (pollObservations_changes h)
  | registerDaemonOwner ownerId pid =>
    refine LedgerResult.ledger_of .refl fun _ _ h => ?_
    simp only [registerDaemonOwner] at h
    split at h <;> cases h
    exact .of .refl .refl .refl rfl
  | heartbeatDaemonOwner ownerId =>
    refine LedgerResult.ledger_of .refl fun _ _ h => ?_
    simp only [heartbeatDaemonOwner] at h
    split at h <;> cases h
    exact .of .refl .refl .refl rfl
  | removeDaemonOwner ownerId => exact .of .refl .refl .refl rfl
  | initializeScheduleCursor repository workflow fingerprint nextDueAt startupAt ownerId =>
    refine LedgerResult.ledger_of .refl fun _ _ h => ?_
    simp only [initializeScheduleCursor] at h
    repeat' split at h
    all_goals cases h
    all_goals exact .of .refl .refl .refl rfl
  | enqueueScheduledOccurrence identity payload fingerprint expectedDueAt nextDueAt =>
    refine LedgerResult.ledger_of .refl fun _ _ h => ?_
    simp only [enqueueScheduledOccurrence] at h
    repeat' split at h
    all_goals cases h
    all_goals first
      | exact .refl
      | exact (insertOrIgnoreTask_changes.mono (by simp [Op.writes])).trans (.of .refl .refl .refl rfl)
  | claimAndStartRunWithWorkdirsFiltered available runtimes ownerId ownerPid dirs allowNew =>
    exact LedgerResult.ledger_of .refl fun _ _ h => claimAndStartRun_changes h
  | setRunAgentProfile runId profile model reasoningEffort serviceTier =>
    refine LedgerResult.ledger_of .refl fun _ _ h => ?_
    simp only [setRunAgentProfile] at h
    split at h
    · cases h
    · exact updateRunning_changes h (fun _ => rfl) fun _ => rfl
  | recordRunWorkspace runId dir baseBranch baseSha factoryBranch kind =>
    exact LedgerResult.ledger_of .refl fun _ _ h =>
      updateRunning_changes h (fun _ => rfl) fun _ => rfl
  | observeRun id processId processIdentity sessionId pullRequest activity =>
    refine LedgerResult.ledger_of .refl fun _ _ h => ?_
    simp only [observeRun] at h
    split at h
    · cases h
    · exact updateRunning_changes h (fun _ => rfl) fun _ => rfl
  | resetRunRuntimeObservation id =>
    exact LedgerResult.ledger_of .refl fun _ _ h =>
      updateRunning_changes h (fun _ => rfl) fun _ => rfl
  | requestRunCancellation id =>
    exact LedgerResult.ledger_of .refl fun _ _ h => requestRunCancellation_changes h
  | finishRunAndTask id outcome result error sessionId =>
    exact LedgerResult.ledger_of .refl fun _ _ h => finishRunAndTaskWithRecovery_changes h
  | finishRunAndTaskTerminal id outcome result error sessionId =>
    exact LedgerResult.ledger_of .refl fun _ _ h => finishRunAndTaskWithRecovery_changes h
  | failPrelaunchAndRequeue id error =>
    exact LedgerResult.ledger_of .refl fun _ _ h => failPrelaunchAndRequeue_changes h
  | recoverOrphanedRuns => exact LedgerResult.ledger_of .refl fun _ _ h => recoverRuns_changes h
  | recoverOrphanedRunsForRepository repository =>
    refine LedgerResult.ledger_of .refl fun _ _ h => ?_
    simp only [recoverOrphanedRunsForRepository] at h
    split at h
    · cases h
    · exact recoverRuns_changes h
  | reserveTaskWorkspace workspace =>
    exact LedgerResult.ledger_of .refl fun _ _ h => reserveTaskWorkspace_changes h
  | updateTaskWorkspaceState taskId state statusSummary =>
    exact LedgerResult.ledger_of .refl fun _ _ h => updateTaskWorkspaceState_changes h
  | recordRunSandbox sandbox =>
    refine LedgerResult.ledger_of .refl fun _ _ h => ?_
    simp only [recordRunSandbox] at h
    repeat' split at h
    all_goals cases h
    exact .of .refl .refl .refl rfl
  | finishRunSandbox runId state exitCode logs removed =>
    refine LedgerResult.ledger_of .refl fun _ _ h => ?_
    simp only [finishRunSandbox] at h
    split at h <;> cases h
    exact .of .refl .refl .refl rfl
  | requestContinuation repository taskGid fingerprint =>
    exact LedgerResult.ledger_of .refl fun _ _ h => requestContinuation_changes h

/-- All tables. -/
def allTables : List Table :=
  [.tasks, .runs, .triggerObservations, .taskWorkspaces, .continuations, .runSandboxes,
    .daemonOwners, .scheduleCursors, .scheduleOwners]

theorem mem_allTables : t ∈ allTables := by cases t <;> decide

theorem runCalls_changes (crates : Crates) (l : Ledger) (calls : List Call) :
    Changes allTables l (l.runCalls crates calls) :=
  Transition.Meets.climbs (C := fun _ _ => True) (R := Changes allTables) (fun _ => .refl)
    Changes.trans (fun l c _ => (step_changes crates l c).mono fun _ _ => mem_allTables)
    (.of_forall (fun _ _ => trivial) l calls)

/-- Every run of a reachable ledger that is over has an end date. -/
theorem dated_reachable (crates : Crates) (calls : List Call)
    (h : (Ledger.empty.runCalls crates calls).runs.get? id = some run) : run.Dated :=
  (runCalls_changes crates Ledger.empty calls).runs.fresh rfl h

end Ledger
end FlashyFactory
