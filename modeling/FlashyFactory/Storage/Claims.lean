import FlashyFactory.Storage.Invariants

/-! # Which task a claim takes

A claim takes the oldest queued task that its caller may work on, and a ticket is worked on by one
task at a time. A recovery or a continuation can put an older task of the ticket back on the queue;
it then waits there for the task that is running. -/

/-! ## The first element with a property -/

section
variable {α : Type u} {r : α → α → Prop} [DecidableRel r] [Std.Total r] [IsTrans α r] {p : α → Bool}
  {l : List α}

/-- In sorted order, the first element with the property is the least one. -/
theorem List.le_of_find?_insertionSort (h : (l.insertionSort r).find? p = some a)
    (hmem : b ∈ l.insertionSort r) (hp : p b = true) : r a b := by
  obtain ⟨-, before, after, hl, hbefore⟩ := List.find?_eq_some_iff_append.mp h
  have hsorted : (l.insertionSort r).Pairwise r := List.pairwise_insertionSort r l
  rw [hl] at hsorted hmem
  rcases List.mem_append.mp hmem with hb | hb
  · have hnot : (!p b) = true := hbefore b hb
    simp [hp] at hnot
  · rcases List.mem_cons.mp hb with rfl | hb
    · exact (Std.Total.total b b).elim id id
    · exact List.rel_of_pairwise_cons (List.pairwise_append.mp hsorted).2.1 hb

end

namespace FlashyFactory
open RetryQueue (Lockstep Runs)

namespace Ledger

/-! ## What a caller may claim -/

/-- The queued tasks that a claim may take. -/
structure Admissible (crates : Crates) (l : Ledger) (availableRepositories : List String)
    (workflowRuntimes : String → String → TaskKind → Option String) (ownerId : String)
    (allowNewTicketTasks : Bool) (task : Task) : Prop where
  queued : task ∈ l.tasks ∧ task.state = .queued
  available : task.repository ∈ availableRepositories
  configured : (workflowRuntimes task.repository task.workflow task.kind).isSome
  /-- No ticket task of the same source item is running. -/
  free : task.kind = .ticket → ∀ item, task.sourceItem = some item →
    ∀ other ∈ l.tasks, other.kind = .ticket → other.state = .running →
      other.repository = task.repository → other.sourceItem ≠ some item
  /-- Without new ticket tasks, only those with an uncleaned workspace go on. -/
  workspace : task.kind = .ticket → allowNewTicketTasks = false →
    ∃ workspace ∈ l.taskWorkspaces, workspace.taskId = task.id ∧ workspace.state ≠ .cleaned
  /-- The fingerprint in the payload is the caller's, and the cursor's. -/
  schedule : task.kind = .scheduled → ∃ fingerprint,
    scheduleFingerprint crates task = some fingerprint ∧
      (∃ owner ∈ l.scheduleOwners, owner.repository = task.repository ∧
        owner.workflow = task.workflow ∧ owner.ownerId = ownerId ∧ owner.fingerprint = fingerprint) ∧
      ∃ cursor ∈ l.scheduleCursors, cursor.repository = task.repository ∧
        cursor.workflow = task.workflow ∧ cursor.fingerprint = fingerprint

variable {l l' : Ledger} {availableRepositories : List String}
  {workflowRuntimes : String → String → TaskKind → Option String} {allowNewTicketTasks : Bool}

theorem ticketSourceIsRunning_eq_false : l.ticketSourceIsRunning repository item = false ↔
    ∀ other ∈ l.tasks, other.kind = .ticket → other.state = .running →
      other.repository = repository → other.sourceItem ≠ some item := by
  simp [ticketSourceIsRunning, List.any_eq_false]

theorem scheduleOwnership_eq_some : l.scheduleOwnership ownerId repository workflow = some fingerprint ↔
    (∃ owner ∈ l.scheduleOwners, owner.repository = repository ∧ owner.workflow = workflow ∧
      owner.ownerId = ownerId ∧ owner.fingerprint = fingerprint) ∧
    ∃ cursor ∈ l.scheduleCursors, cursor.repository = repository ∧ cursor.workflow = workflow ∧
      cursor.fingerprint = fingerprint := by
  simp only [scheduleOwnership]
  constructor
  · intro h
    split at h
    · next owner cursor howner hcursor =>
      split at h
      · next hsame =>
        cases h
        obtain ⟨howner, hkey⟩ := KeyedTable.get?_eq_some.mp howner
        obtain ⟨hcursor, hkey'⟩ := KeyedTable.get?_eq_some.mp hcursor
        simp only [ScheduleOwner.key, ScheduleCursor.key, Prod.mk.injEq] at hkey hkey'
        exact ⟨⟨owner, howner, hkey.1, hkey.2.1, hkey.2.2, rfl⟩, cursor, hcursor, hkey'.1, hkey'.2, hsame⟩
      · cases h
    · cases h
  · rintro ⟨⟨owner, howner, rfl, rfl, rfl, rfl⟩, cursor, hcursor, hrepository, hworkflow, hsame⟩
    have howner : l.scheduleOwners.get? (owner.repository, owner.workflow, owner.ownerId) = some owner :=
      KeyedTable.get?_of_mem howner
    have hcursor : l.scheduleCursors.get? (owner.repository, owner.workflow) = some cursor :=
      KeyedTable.get?_eq_some.mpr ⟨hcursor, by rw [ScheduleCursor.key, hrepository, hworkflow]⟩
    simp [howner, hcursor, hsame]

theorem workspace_hits :
    l.taskWorkspaces.hits taskId (fun workspace => workspace.state ≠ .cleaned) = true ↔
      ∃ workspace ∈ l.taskWorkspaces, workspace.taskId = taskId ∧ workspace.state ≠ .cleaned := by
  simp only [KeyedTable.hits_iff, KeyedTable.get?_eq_some, and_assoc, decide_eq_true_eq]

/-- The filter of the claim loop says which queued tasks are admissible. -/
theorem claimable_iff {task : Task} (hqueued : task ∈ l.tasks ∧ task.state = .queued) :
    l.claimable crates availableRepositories workflowRuntimes ownerId allowNewTicketTasks task = true ↔
      l.Admissible crates availableRepositories workflowRuntimes ownerId allowNewTicketTasks task := by
  have hbusy : task.sourceItem.any (l.ticketSourceIsRunning task.repository) = false ↔
      ∀ item, task.sourceItem = some item → ∀ other ∈ l.tasks, other.kind = .ticket →
        other.state = .running → other.repository = task.repository → other.sourceItem ≠ some item := by
    cases task.sourceItem with
    | none => simp
    | some item => simp only [Option.any_some, ticketSourceIsRunning_eq_false, Option.some.injEq,
        forall_eq']
  cases hkind : task.kind with
  | ticket =>
    have hcase : l.claimable crates availableRepositories workflowRuntimes ownerId allowNewTicketTasks
          task = true ↔
        task.sourceItem.any (l.ticketSourceIsRunning task.repository) = false ∧
          (allowNewTicketTasks = false →
            l.taskWorkspaces.hits task.id (fun workspace => workspace.state ≠ .cleaned) = true) ∧
          task.repository ∈ availableRepositories ∧
          (workflowRuntimes task.repository task.workflow task.kind).isSome := by
      cases allowNewTicketTasks <;>
        simp [claimable, hkind, Option.isSome_iff_ne_none]
    rw [hcase, hbusy, workspace_hits]
    constructor
    · rintro ⟨hfree, hworkspace, havailable, hconfigured⟩
      exact ⟨hqueued, havailable, hconfigured, fun _ => hfree, fun _ => hworkspace,
        fun h => (by cases hkind.symm.trans h)⟩
    · intro h
      exact ⟨h.free hkind, h.workspace hkind, h.available, h.configured⟩
  | scheduled =>
    have hcase : l.claimable crates availableRepositories workflowRuntimes ownerId allowNewTicketTasks
          task = true ↔
        task.repository ∈ availableRepositories ∧
          (workflowRuntimes task.repository task.workflow task.kind).isSome ∧
          ∃ fingerprint, scheduleFingerprint crates task = some fingerprint ∧
            l.scheduleOwnership ownerId task.repository task.workflow = some fingerprint := by
      cases hfingerprint : scheduleFingerprint crates task <;>
        cases howned : l.scheduleOwnership ownerId task.repository task.workflow <;>
        simp [claimable, hkind, Option.isSome_iff_ne_none, hfingerprint, howned, and_assoc]
      exact fun _ _ => eq_comm
    simp only [hcase, scheduleOwnership_eq_some]
    constructor
    · rintro ⟨havailable, hconfigured, hschedule⟩
      exact ⟨hqueued, havailable, hconfigured, fun h => (by cases hkind.symm.trans h),
        fun h => (by cases hkind.symm.trans h), fun _ => hschedule⟩
    · intro h
      exact ⟨h.available, h.configured, h.schedule hkind⟩

/-! ## The order of claims -/

instance : Std.Total claimsBefore := ⟨fun a b => by
  unfold claimsBefore
  omega⟩

instance : IsTrans Task claimsBefore := ⟨fun a b c hab hbc => by
  unfold claimsBefore at *
  omega⟩

theorem claimsBefore_of_find? {p : Task → Bool} {task other : Task}
    (h : l.claimCandidates.find? p = some task) (hother : other ∈ l.claimCandidates)
    (hp : p other = true) : claimsBefore task other := by
  unfold claimCandidates at h hother
  exact List.le_of_find?_insertionSort h hother hp

/-- The statements that follow the choice of `task`, when they succeed. -/
theorem startClaimedRun_ok {task : Task} (ht : task ∈ l.tasks)
    (h : l.startClaimedRun task runtime now ownerId ownerPid dirs = .ok (result, l')) :
    ∃ run, result = some ⟨{ task with state := .running, updatedAt := now }, run⟩ ∧
      run.taskId = task.id ∧
      ∀ id, l'.tasks.get? id = if id = task.id then
          some { task with state := .running, updatedAt := now, recoverySourceRunId := none }
        else l.tasks.get? id := by
  have hget : l.tasks.get? task.id = some task := KeyedTable.get?_of_mem ht
  simp only [startClaimedRun] at h
  split at h
  · cases h
  · next hhits =>
    have hqueued : task.state = .queued := by
      obtain ⟨t, ht', hs⟩ := KeyedTable.hits_iff.mp (by simpa using hhits)
      cases hget.symm.trans ht'
      simpa using hs
    split at h
    · cases h
    · split at h
      · cases h
      · split at h
        · cases h
        · split at h
          · next claimed run hclaimed hrun =>
            cases h
            rw [KeyedTable.get?_modify_self hget (by simpa using hqueued)] at hclaimed
            rw [KeyedTable.get?_insertNext, if_pos rfl] at hrun
            cases hclaimed
            cases hrun
            refine ⟨_, rfl, rfl, fun id => ?_⟩
            rw [KeyedTable.get?_modify, KeyedTable.get?_modify]
            split
            · next hid =>
              subst hid
              simp [hget, hqueued]
            · next hid => exact KeyedTable.get?_modify_ne hid
          · cases h
          · cases h

/-- The queued task that a claim takes is the oldest admissible one, and without one it takes
none. -/
structure TakesOldest (crates : Crates) (l : Ledger) (availableRepositories : List String)
    (workflowRuntimes : String → String → TaskKind → Option String) (ownerId : String)
    (allowNewTicketTasks : Bool) (now : ℤ) (result : Option ClaimedRun) (l' : Ledger) : Prop where
  none_iff : result = none ↔ ∀ task,
    ¬ l.Admissible crates availableRepositories workflowRuntimes ownerId allowNewTicketTasks task
  none_same : result = none → l' = l
  least : ∀ claimed, result = some claimed → ∃ task,
    l.Admissible crates availableRepositories workflowRuntimes ownerId allowNewTicketTasks task ∧
    (∀ other, l.Admissible crates availableRepositories workflowRuntimes ownerId allowNewTicketTasks
      other → claimsBefore task other) ∧
    claimed.task = { task with state := .running, updatedAt := now } ∧ claimed.run.taskId = task.id ∧
    ∀ id, l'.tasks.get? id = if id = task.id then
        some { task with state := .running, updatedAt := now, recoverySourceRunId := none }
      else l.tasks.get? id

theorem TakesOldest.none (h : ∀ task,
    ¬ l.Admissible crates availableRepositories workflowRuntimes ownerId allowNewTicketTasks task) :
    l.TakesOldest crates availableRepositories workflowRuntimes ownerId allowNewTicketTasks now none l :=
  ⟨⟨fun _ => h, fun _ => rfl⟩, fun _ => rfl, by rintro _ ⟨⟩⟩

theorem claimAndStartRun_takesOldest
    (h : l.claimAndStartRunWithWorkdirsFiltered crates host availableRepositories workflowRuntimes
      ownerId ownerPid dirs allowNewTicketTasks = .ok (result, l')) :
    l.TakesOldest crates availableRepositories workflowRuntimes ownerId allowNewTicketTasks
      (host.nowMillis 0) result l' := by
  simp only [claimAndStartRunWithWorkdirsFiltered] at h
  split at h
  · next hempty =>
    cases h
    have hnone : ∀ task, ¬ l.Admissible crates availableRepositories workflowRuntimes ownerId
        allowNewTicketTasks task := by
      intro task htask
      rw [List.isEmpty_iff.mp hempty] at htask
      cases htask.available
    exact .none hnone
  · split at h
    · cases h
    · split at h
      · next hfind =>
        cases h
        refine .none fun task htask => ?_
        have hclaimable := (claimable_iff htask.queued).mpr htask
        exact List.find?_eq_none.mp hfind task (mem_claimCandidates.mpr htask.queued) hclaimable
      · next task hfind =>
        have hqueued := mem_claimCandidates.mp (List.mem_of_find?_eq_some hfind)
        have htask : l.Admissible crates availableRepositories workflowRuntimes ownerId
            allowNewTicketTasks task := (claimable_iff hqueued).mp (List.find?_some hfind)
        split at h
        · cases h
        · obtain ⟨run, rfl, hrun, htasks⟩ := startClaimedRun_ok hqueued.1 h
          refine ⟨⟨by simp, fun hnone => (hnone task htask).elim⟩, by simp, ?_⟩
          rintro claimed ⟨⟩
          refine ⟨task, htask, fun other hother => ?_, rfl, hrun, htasks⟩
          exact claimsBefore_of_find? hfind (mem_claimCandidates.mpr hother.queued)
            ((claimable_iff hother.queued).mpr hother)

/-! ## One running task per ticket -/

end Ledger

/-- A ticket task that works on the source item. -/
def Task.WorksOn (repository item : String) (task : Task) : Prop :=
  task.kind = .ticket ∧ task.state = .running ∧ task.repository = repository ∧
    task.sourceItem = some item

/-- The operation is a claim. -/
def Op.claims : Op → Bool
  | claimAndStartRunWithWorkdirsFiltered .. => true
  | _ => false

namespace Ledger
variable {l l' : Ledger}

def OneRunningPerTicket (l : Ledger) : Prop :=
  ∀ repository item, ∀ a ∈ l.tasks, ∀ b ∈ l.tasks,
    a.WorksOn repository item → b.WorksOn repository item → a = b

/-- What only stops running tasks keeps one per ticket. -/
theorem OneRunningPerTicket.congr (H : OneRunningPerTicket l)
    (h : ∀ repository item, ∀ task' ∈ l'.tasks, task'.WorksOn repository item →
      ∃ task ∈ l.tasks, task.id = task'.id ∧ task.WorksOn repository item) :
    OneRunningPerTicket l' := by
  intro repository item a' ha' b' hb' hworks hworks'
  obtain ⟨a, ha, hid, hwa⟩ := h repository item a' ha' hworks
  obtain ⟨b, hb, hid', hwb⟩ := h repository item b' hb' hworks'
  have hab : a = b := H repository item a ha b hb hwa hwb
  exact KeyedTable.eq_of_key_eq ha' hb' (hid.symm.trans ((congrArg Task.id hab).trans hid'))

theorem oneRunning_claim
    (h : l.claimAndStartRunWithWorkdirsFiltered crates host availableRepositories workflowRuntimes
      ownerId ownerPid dirs allowNewTicketTasks = .ok (result, l')) (H : OneRunningPerTicket l) :
    OneRunningPerTicket l' := by
  have htakes := claimAndStartRun_takesOldest h
  cases result with
  | none => rwa [htakes.none_same rfl]
  | some claimed =>
    obtain ⟨task, htask, -, -, -, htasks⟩ := htakes.least claimed rfl
    -- the task that starts to work on a ticket was free to do so
    have hold : ∀ {repository item}, ∀ t ∈ l'.tasks, t.WorksOn repository item → t.id ≠ task.id →
        t ∈ l.tasks := by
      intro _ _ t ht _ hid
      have hget := (htasks t.id).symm.trans (KeyedTable.get?_of_mem ht)
      rw [if_neg hid] at hget
      exact KeyedTable.mem_of_get? hget
    have hnew : ∀ {repository item}, ∀ t ∈ l'.tasks, t.WorksOn repository item → t.id = task.id →
        task.kind = .ticket ∧ task.repository = repository ∧ task.sourceItem = some item := by
      rintro _ _ t ht ⟨hkind, -, hrepository, hitem⟩ hid
      have hget := (htasks t.id).symm.trans (KeyedTable.get?_of_mem ht)
      rw [if_pos hid] at hget
      cases hget
      exact ⟨hkind, hrepository, hitem⟩
    have hfree : ∀ {repository item}, ∀ t ∈ l'.tasks, ∀ u ∈ l'.tasks, t.WorksOn repository item →
        u.WorksOn repository item → t.id = task.id → u.id = task.id := by
      intro repository item t ht u hu htw huw hid
      by_contra hne
      obtain ⟨hkind, rfl, hitem⟩ := hnew t ht htw hid
      obtain ⟨hukind, hustate, hurepository, huitem⟩ := huw
      exact htask.free hkind item hitem u (hold u hu ⟨hukind, hustate, hurepository, huitem⟩ hne)
        hukind hustate hurepository huitem
    intro repository item a ha b hb hwa hwb
    by_cases hida : a.id = task.id
    · have hidb := hfree a ha b hb hwa hwb hida
      exact KeyedTable.eq_of_key_eq ha hb (hida.trans hidb.symm)
    · by_cases hidb : b.id = task.id
      · exact (hida (hfree b hb a ha hwb hwa hidb)).elim
      · exact H repository item a (hold a ha hwa hida) b (hold b hb hwb hidb) hwa hwb

/-- An operation other than a claim starts no task. -/
theorem running_step (crates : Crates) (L : Lockstep l.view) (c : Call) (hc : c.op.claims = false)
    {task' : Task} (ht : task' ∈ (l.step crates c).tasks) (hstate : task'.state = .running) :
    ∃ task ∈ l.tasks, task.id = task'.id ∧ task.state = .running ∧ taskFacts task' = taskFacts task := by
  have hstarts : ∀ s e, l.Emits crates c s e → ∀ j a, e ≠ .start j a := by
    rintro s e he j a rfl
    obtain ⟨host, op⟩ := c
    cases op <;> simp_all [Emits, PollEvent, CloseEvent, RecoverEvent, Op.claims]
  have hview := view_job (KeyedTable.get?_of_mem ht)
  have hactive : l.view.job task'.id = some task'.job :=
    Runs.active ((step_runs L c).mono hstarts) hview (by simpa [Task.job] using hstate)
  obtain ⟨task, htask, hjob⟩ := of_view_job hactive
  have hphase : task'.state.phase = task.state.phase := congrArg RetryQueue.Job.phase hjob
  obtain ⟨_, hkept, hfacts⟩ := (step_changes crates l c).tasks _ _ htask
  cases (KeyedTable.get?_of_mem ht).symm.trans hkept
  refine ⟨task, KeyedTable.mem_of_get? htask, KeyedTable.key_of_get? htask, ?_, hfacts⟩
  rw [hstate] at hphase
  exact TaskState.phase_eq_active.mp hphase.symm

theorem oneRunning_step (crates : Crates) (l : Ledger) (c : Call) (L : Lockstep l.view)
    (H : OneRunningPerTicket l) : OneRunningPerTicket (l.step crates c) := by
  cases hc : c.op.claims with
  | true =>
    obtain ⟨host, op⟩ := c
    cases op <;> first | cases hc; done | skip
    exact LedgerResult.ledger_of H fun _ _ h => oneRunning_claim h H
  | false =>
    refine H.congr fun repository item task' ht hworks => ?_
    obtain ⟨hkind, hstate, hrepository, hitem⟩ := hworks
    obtain ⟨task, ht, hid, hrunning, hfacts⟩ := running_step crates L c hc ht hstate
    simp only [taskFacts, Prod.mk.injEq] at hfacts
    obtain ⟨-, hkind', hrepository', -, hitem', -⟩ := hfacts
    exact ⟨task, ht, hid, hkind'.symm.trans hkind, hrunning, hrepository'.symm.trans hrepository,
      hitem'.symm.trans hitem⟩

/-- **Claims are exclusive and in order.** Whatever calls were made before, at most one task of a
ticket is running, and a claim that succeeds takes the oldest task that is admissible for it. -/
theorem claims_exclusive_in_order (crates : Crates) (calls : List Call) :
    OneRunningPerTicket (Ledger.empty.runCalls crates calls) ∧
    ∀ host availableRepositories workflowRuntimes ownerId ownerPid dirs allowNewTicketTasks result l',
      (Ledger.empty.runCalls crates calls).claimAndStartRunWithWorkdirsFiltered crates host
        availableRepositories workflowRuntimes ownerId ownerPid dirs allowNewTicketTasks =
          .ok (result, l') →
      (Ledger.empty.runCalls crates calls).TakesOldest crates availableRepositories workflowRuntimes
        ownerId allowNewTicketTasks (host.nowMillis 0) result l' := by
  have hrun : OneRunningPerTicket (Ledger.empty.runCalls crates calls) :=
    reachable_invariant crates nofun (oneRunning_step crates) calls
  exact ⟨hrun, fun _ _ _ _ _ _ _ _ _ h => claimAndStartRun_takesOldest h⟩

end Ledger
end FlashyFactory
