import FlashyFactory.Asana.BatchRuns

/-! # Any number of runs

A service on which batches are created again and again, each run with its own manifest, configuration and
failures, and on which people work in between. All tasks of one `batch_creation_id` stay tasks of one definition
in one project, and no identity is used twice. -/

namespace FlashyFactory
namespace Asana
namespace Batch

open CanonicalJson

variable {service : Service} {env : Environment} {python : Python} {plan other : Plan} {s t : Session}

/-! ## Identities -/

/-- The task has the identity of a task of the batch, whatever became of it. -/
def IsTaskOf (python : Python) (plan : Plan) (task : BatchTask) (stored : StoredTask) : Prop :=
  stored.external = some (plan.externalGid task, plan.externalData python task)

theorem externalData_inj {id id' definition definition' project project' backlog backlog' : String}
    {task task' : BatchTask} (h : externalData python id definition task project backlog =
      externalData python id' definition' task' project' backlog') :
    id = id' ∧ definition = definition' ∧ project = project' ∧ backlog = backlog' ∧ task.ref = task'.ref := by
  have hkeys : ["batch_creation_id", "batch_definition_sha256", "content_sha256", "project_gid", "section_gid",
    "task_ref", "version"].Pairwise (· ≤ ·) := by decide
  rw [externalData, externalData, String.ofList_inj, dumpsObject_of_sorted (by exact hkeys),
    dumpsObject_of_sorted (by exact hkeys)] at h
  obtain ⟨hid, h⟩ := writeObject_cons_inj selfDelimiting_quote h
  obtain ⟨hdefinition, h⟩ := writeObject_cons_inj selfDelimiting_quote h
  obtain ⟨-, h⟩ := writeObject_cons_inj selfDelimiting_quote h
  obtain ⟨hproject, h⟩ := writeObject_cons_inj selfDelimiting_quote h
  obtain ⟨hbacklog, h⟩ := writeObject_cons_inj selfDelimiting_quote h
  obtain ⟨href, -⟩ := writeObject_cons_inj selfDelimiting_quote h
  exact ⟨hid, hdefinition, hproject, hbacklog, href⟩

/-- The plans are of one batch, with one definition, in one section of one project. -/
structure Plan.Agrees (python : Python) (plan other : Plan) : Prop where
  creationId : plan.batchCreationId = other.batchCreationId
  definition : plan.definition python = other.definition python
  project : plan.setup.project = other.setup.project
  backlog : plan.setup.backlog = other.setup.backlog

theorem Plan.Agrees.symm (h : plan.Agrees python other) : other.Agrees python plan :=
  ⟨h.creationId.symm, h.definition.symm, h.project.symm, h.backlog.symm⟩

theorem Plan.Agrees.trans {last : Plan} (h : plan.Agrees python other) (h' : other.Agrees python last) :
    plan.Agrees python last := ⟨h.creationId.trans h'.creationId, h.definition.trans h'.definition,
  h.project.trans h'.project, h.backlog.trans h'.backlog⟩

def Plan.batchDefinition (plan : Plan) : BatchDefinition := ⟨plan.deliveryPolicy, plan.tasks, plan.edges⟩

theorem Plan.Agrees.same (h : plan.Agrees python other)
    (hdistinct : plan.batchDefinition.Distinguished python other.batchDefinition) :
    plan.batchDefinition.Same other.batchDefinition := .of_hash hdistinct h.definition

theorem IsTaskOf.agrees {task task' : BatchTask} {stored : StoredTask} (h : IsTaskOf python plan task stored)
    (h' : IsTaskOf python other task' stored) : plan.Agrees python other ∧ task.ref = task'.ref := by
  have hexternal := h.symm.trans h'
  simp only [Option.some.injEq, Prod.mk.injEq] at hexternal
  obtain ⟨hid, hdefinition, hproject, hbacklog, href⟩ := externalData_inj hexternal.2
  exact ⟨⟨hid, hdefinition, hproject, hbacklog⟩, href⟩

theorem IsTaskOf.externalGid? {task : BatchTask} {stored : StoredTask} (h : IsTaskOf python plan task stored) :
    stored.externalGid? = some (plan.externalGid task) := by
  rw [StoredTask.externalGid?, h, Option.map_some]

theorem externalGid_anchor {anchor anchor' : BatchTask} (href : anchor.ref = plan.anchorRef)
    (href' : anchor'.ref = other.anchorRef) (hid : plan.batchCreationId = other.batchCreationId) :
    plan.externalGid anchor = other.externalGid anchor' := by
  rw [Plan.externalGid, Plan.externalGid, href, href', hid]
  refine externalGid_inj.mpr ?_
  rw [identitySuffix_anchor rfl, identitySuffix_anchor rfl]

/-! ## The invariant -/

/-- The anchor of the batch exists, whatever became of it. -/
def Rooted (python : Python) (plan : Plan) (tasks : Tasks) : Prop :=
  ∃ anchor ∈ plan.tasks, anchor.ref = plan.anchorRef ∧
    ∃ gid stored, tasks.get? gid = some stored ∧ IsTaskOf python plan anchor stored

theorem Anchored.rooted {tasks : Tasks} (h : Anchored python plan tasks) : Rooted python plan tasks := by
  obtain ⟨anchor, hmem, href, gid, stored, hget, hcarries⟩ := h
  exact ⟨anchor, hmem, href, gid, stored, hget, hcarries.external⟩

theorem Rooted.keeps {tasks tasks' : Tasks} (h : Rooted python plan tasks)
    (hkeeps : tasks.Keeps StoredTask.external tasks') : Rooted python plan tasks' := by
  obtain ⟨anchor, hmem, href, gid, stored, hget, hid⟩ := h
  obtain ⟨stored', hget', hsame⟩ := hkeeps gid stored hget
  exact ⟨anchor, hmem, href, gid, stored', hget', hsame.trans hid⟩

/-- No identity is used twice, and a task that has one is of a batch whose anchor exists. -/
structure Bound (python : Python) (tasks : Tasks) : Prop where
  unique : Unique tasks
  rooted : ∀ gid stored, tasks.get? gid = some stored → stored.external ≠ none →
    ∃ plan : Plan, ∃ task ∈ plan.tasks, IsTaskOf python plan task stored ∧ Rooted python plan tasks

/-- Batches of one id that both have their anchors agree. -/
theorem Unique.agrees_of_rooted {tasks : Tasks} (h : Unique tasks) (hplan : Rooted python plan tasks)
    (hother : Rooted python other tasks) (hid : plan.batchCreationId = other.batchCreationId) :
    plan.Agrees python other := by
  obtain ⟨anchor, -, href, gid, stored, hget, hof⟩ := hplan
  obtain ⟨anchor', -, href', gid', stored', hget', hof'⟩ := hother
  have hsame := externalGid_anchor href href' hid
  obtain rfl := h gid gid' stored stored' hget hget' _ hof.externalGid? (hsame ▸ hof'.externalGid?)
  cases hget.symm.trans hget'
  exact (hof.agrees hof').1

/-- A batch has its anchor if it has any task. -/
theorem Bound.rooted_of_isTaskOf {tasks : Tasks} (h : Bound python tasks) {gid : String} {stored : StoredTask}
    (hget : tasks.get? gid = some stored) {task : BatchTask} (hof : IsTaskOf python plan task stored) :
    ∃ first : Plan, first.Agrees python plan ∧ Rooted python first tasks := by
  have hsome : stored.external ≠ none := by
    rw [hof]
    simp
  obtain ⟨first, task', -, hof', hrooted⟩ := h.rooted gid stored hget hsome
  exact ⟨first, (hof'.agrees hof).1, hrooted⟩

/-- The tasks of one `batch_creation_id` are of one definition, and no reference has two of them. -/
structure OneDefinition (python : Python) (tasks : Tasks) : Prop where
  agrees : ∀ {gid gid' stored stored'}, tasks.get? gid = some stored → tasks.get? gid' = some stored' →
    ∀ {plan other : Plan} {task task' : BatchTask}, IsTaskOf python plan task stored →
      IsTaskOf python other task' stored' → plan.batchCreationId = other.batchCreationId → plan.Agrees python other
  unique : ∀ {gid gid' stored stored'}, tasks.get? gid = some stored → tasks.get? gid' = some stored' →
    ∀ {plan : Plan} {task task' : BatchTask}, IsTaskOf python plan task stored →
      IsTaskOf python plan task' stored' → task.ref = task'.ref → gid = gid'

theorem Bound.oneDefinition {tasks : Tasks} (h : Bound python tasks) : OneDefinition python tasks := by
  constructor
  · intro gid gid' stored stored' hget hget' plan other task task' hof hof' hid
    obtain ⟨first, hfirst, hrooted⟩ := h.rooted_of_isTaskOf hget hof
    obtain ⟨second, hsecond, hrooted'⟩ := h.rooted_of_isTaskOf hget' hof'
    have hboth := h.unique.agrees_of_rooted hrooted hrooted'
      ((hfirst.creationId.trans hid).trans hsecond.creationId.symm)
    exact (hfirst.symm.trans hboth).trans hsecond
  · intro gid gid' stored stored' hget hget' plan task task' hof hof' href
    refine h.unique gid gid' stored stored' hget hget' _ hof.externalGid? ?_
    rw [externalGid_ref_inj.mpr href]
    exact hof'.externalGid?

/-! ## Runs -/

theorem Bound.keeps {tasks tasks' : Tasks} (h : Bound python tasks)
    (hkeeps : tasks.Keeps StoredTask.external tasks')
    (hnew : ∀ gid stored, tasks.get? gid = none → tasks'.get? gid = some stored → stored.external = none) :
    Bound python tasks' := by
  have hold : ∀ gid stored, tasks'.get? gid = some stored → stored.external ≠ none →
      ∃ stored', tasks.get? gid = some stored' ∧ stored'.external = stored.external := by
    intro gid stored hget hsome
    cases hbefore : tasks.get? gid with
    | none => exact (hsome (hnew gid stored hbefore hget)).elim
    | some stored' =>
      obtain ⟨_, hget', hsame⟩ := hkeeps gid stored' hbefore
      cases hget.symm.trans hget'
      exact ⟨stored', rfl, hsame.symm⟩
  have hidentified : ∀ {stored : StoredTask} {external}, stored.externalGid? = some external →
    stored.external ≠ none := by
    intro stored external hexternal hnone
    rw [StoredTask.externalGid?, hnone] at hexternal
    cases hexternal
  refine ⟨fun gid gid' stored stored' hget hget' external hexternal hexternal' => ?_,
    fun gid stored hget hsome => ?_⟩
  · obtain ⟨first, hfirst, hsame⟩ := hold gid stored hget (hidentified hexternal)
    obtain ⟨second, hsecond, hsame'⟩ := hold gid' stored' hget' (hidentified hexternal')
    refine h.unique gid gid' first second hfirst hsecond external ?_ ?_
    · rwa [StoredTask.externalGid?, hsame]
    · rwa [StoredTask.externalGid?, hsame']
  · obtain ⟨first, hfirst, hsame⟩ := hold gid stored hget hsome
    obtain ⟨plan, task, htask, hof, hrooted⟩ := h.rooted gid first hfirst (hsame ▸ hsome)
    exact ⟨plan, task, htask, hsame.symm.trans hof, hrooted.keeps hkeeps⟩

theorem keeps_external {tasks tasks' : Tasks} (h : tasks.Keeps StoredTask.core tasks') :
    tasks.Keeps StoredTask.external tasks' := by
  intro gid stored hget
  obtain ⟨stored', hget', hcore⟩ := h gid stored hget
  simp only [StoredTask.core, Prod.mk.injEq] at hcore
  exact ⟨stored', hget', hcore.2.2.2.1⟩

theorem Bound.ran {report : BatchReport} (h : Bound python s.tasks) (hran : Ran service python plan report s t) :
    Bound python t.tasks := by
  have hkeeps := keeps_external hran.core
  refine ⟨hran.unique h.unique, fun gid stored hget hsome => ?_⟩
  cases hbefore : s.tasks.get? gid with
  | none =>
    obtain ⟨task, htask, hcarries, -⟩ := hran.truthful.new gid stored hbefore hget
    exact ⟨plan, task, htask, hcarries.external, (hran.anchored gid stored hbefore hget).rooted⟩
  | some stored' =>
    obtain ⟨_, hget', hsame⟩ := hkeeps gid stored' hbefore
    cases hget.symm.trans hget'
    obtain ⟨first, task, htask, hof, hrooted⟩ := h.rooted gid stored' hbefore (hsame ▸ hsome)
    exact ⟨first, task, htask, hsame.trans hof, hrooted.keeps hkeeps⟩

/-- What happens to the tasks of a service. -/
inductive Happens (service : Service) (python : Python) (tasks : Tasks) : Tasks → Prop
  | returned {env : Environment} {manifest : List (String × Json)} {fates : ℕ → Fate} {log : List Event}
      {report : BatchReport} {t : Session}
      (h : createBatch service env python manifest ⟨tasks, fates, log⟩ = .ok report t) :
    Happens service python tasks t.tasks
  | raised {env : Environment} {manifest : List (String × Json)} {fates : ℕ → Fate} {log : List Event} {e : Raised}
      {t : Session} (h : createBatch service env python manifest ⟨tasks, fates, log⟩ = .error e t) :
    Happens service python tasks t.tasks
  /-- People change tasks, but not their identities, and create tasks that have none. -/
  | edited {tasks' : Tasks} (keeps : tasks.Keeps StoredTask.external tasks')
      (new : ∀ gid stored, tasks.get? gid = none → tasks'.get? gid = some stored → stored.external = none) :
    Happens service python tasks tasks'

theorem Bound.happens {tasks tasks' : Tasks} (h : Bound python tasks) (hstep : Happens service python tasks tasks') :
    Bound python tasks' := by
  cases hstep with
  | @returned env manifest fates log report t hrun =>
    obtain ⟨plan, -, hran⟩ := (Ends.ok_iff hrun).mp
      (@ends_createBatch service env python ⟨tasks, fates, log⟩ manifest)
    exact Bound.ran (s := ⟨tasks, fates, log⟩) h hran
  | @raised env manifest fates log e t hrun =>
    have hread : Reading service ⟨tasks, fates, log⟩ t := (Ends.error_iff hrun).mp
      (@ends_createBatch service env python ⟨tasks, fates, log⟩ manifest)
    rw [hread.tasks_eq]
    exact h
  | edited keeps new => exact h.keeps keeps new

theorem Bound.history {tasks tasks' : Tasks} (h : Bound python tasks)
    (hruns : Relation.ReflTransGen (Happens service python) tasks tasks') : Bound python tasks' := by
  induction hruns with
  | refl => exact h
  | tail _ hstep ih => exact ih.happens hstep

/-- **A `batch_creation_id` stays bound to one definition**, over any history of the service. -/
theorem history_oneDefinition {tasks tasks' : Tasks} (h : Bound python tasks)
    (hruns : Relation.ReflTransGen (Happens service python) tasks tasks') : OneDefinition python tasks' :=
  (h.history hruns).oneDefinition

/-! ## Another definition -/

theorem Found.agrees (hvalid : other.Valid) {placed : List Placed}
    (F : Found service python other s.tasks other.tasks placed) (h : Unique s.tasks)
    (hrooted : Rooted python plan s.tasks) (hid : plan.batchCreationId = other.batchCreationId) :
    plan.Agrees python other := by
  refine h.agrees_of_rooted hrooted ?_ hid
  obtain ⟨anchor, rest, horder, href⟩ := creationOrder_anchor hvalid
  have hmem : anchor ∈ other.tasks := creationOrder_perm.mem_iff.mp (horder ▸ List.mem_cons_self)
  by_cases hplaced : anchor.ref ∈ placed.map Placed.ref
  · obtain ⟨entry, hentry, hentryRef⟩ := List.mem_map.mp hplaced
    obtain ⟨task, htask, htaskRef, stored, hget, hcarries⟩ := F.holds entry hentry
    exact ⟨task, htask, htaskRef.trans (hentryRef.trans href), entry.gid, stored, hget, hcarries.external⟩
  · -- the anchor of the first batch would be found
    obtain ⟨first, -, hfirst, gid, stored, hget, hof⟩ := hrooted
    refine (findExternal_none.mp (F.missing anchor hmem hplaced) gid stored hget ?_).elim
    rw [hof.externalGid?, externalGid_anchor hfirst href hid]

/-- A run for a batch that has its anchor returns only if the plans agree. -/
theorem ends_createBatch_rooted (h : Unique s.tasks) (hrooted : Rooted python plan s.tasks)
    {manifest : List (String × Json)} (hid : plan.batchCreationId = creationId manifest) :
    Ends (createBatch service env python manifest) s
      (fun _ _ => ∃ other : Plan, other.Of service env s.tasks manifest ∧ plan.Agrees python other)
      (fun _ t => t.tasks = s.tasks ∧ ∃ events, t.log = s.log ++ events ∧ ∀ event ∈ events,
        event.change? = none) := by
  refine Ends.bind_iff.mpr (ends_prepare.mono ?_ fun e t hread => hread.requests_nothing)
  rintro ⟨other, placed⟩ t ⟨hread, hother, F⟩
  have hagrees := F.agrees hother.valid h hrooted (hid.trans hother.creationId.symm)
  rw [← hread.tasks_eq] at F
  refine (ends_createAndWire hother.valid F).mono (fun _ _ _ => ?_) fun _ _ hfalse => hfalse.elim
  exact ⟨other, hother, hagrees⟩

/-- **A `batch_creation_id` in use is refused for every other definition**, before anything is changed. -/
theorem createBatch_refuses (h : Bound python s.tasks) {gid : String} {stored : StoredTask}
    (hget : s.tasks.get? gid = some stored) {task : BatchTask} (hof : IsTaskOf python plan task stored)
    {manifest : List (String × Json)} (hid : creationId manifest = plan.batchCreationId) :
    Ends (createBatch service env python manifest) s
      (fun _ _ => ∃ other : Plan, other.Of service env s.tasks manifest ∧ plan.Agrees python other ∧
        (plan.batchDefinition.Distinguished python other.batchDefinition →
          plan.batchDefinition.Same other.batchDefinition))
      (fun _ t => t.tasks = s.tasks ∧ ∃ events, t.log = s.log ++ events ∧ ∀ event ∈ events,
        event.change? = none) := by
  obtain ⟨first, hfirst, hrooted⟩ := h.rooted_of_isTaskOf hget hof
  refine (ends_createBatch_rooted h.unique hrooted (hfirst.creationId.trans hid.symm)).mono ?_ fun _ _ h => h
  rintro report t ⟨other, hother, hboth⟩
  have hagrees := hfirst.symm.trans hboth
  exact ⟨other, hother, hagrees, hagrees.same⟩

/-! ## A service -/

def sampleGid (n : ℕ) : String := String.ofList (List.replicate (n + 1) '7')

theorem sampleGid_injective : Function.Injective sampleGid := by
  intro m n h
  have hlength := congrArg String.length h
  simpa [sampleGid] using hlength

/-- The first gid that is free. -/
def sampleNewGid (gids : List String) : String :=
  (((List.range (gids.length + 1)).map sampleGid).find? (· ∉ gids)).getD ""

theorem sampleNewGid_eq (gids : List String) :
    ∃ n ≤ gids.length, sampleNewGid gids = sampleGid n ∧ sampleGid n ∉ gids := by
  cases hfind : ((List.range (gids.length + 1)).map sampleGid).find? (· ∉ gids) with
  | none =>
    have hsubset : (List.range (gids.length + 1)).map sampleGid ⊆ gids := by
      intro gid hmem
      simpa using List.find?_eq_none.mp hfind gid hmem
    have hle := (List.nodup_range.map sampleGid_injective).length_le_of_subset hsubset
    simp at hle
  | some gid =>
    obtain ⟨n, hn, rfl⟩ := List.mem_map.mp (List.mem_of_find?_eq_some hfind)
    refine ⟨n, Nat.le_of_lt_succ (List.mem_range.mp hn), by rw [sampleNewGid, hfind, Option.getD_some], ?_⟩
    have hfree := List.find?_some hfind
    simpa using hfree

/-- The gid of a section is that of its project and one sign more. -/
def sampleService : Service where
  tags _ := [⟨"3", "factory:manual"⟩, ⟨"4", "factory:auto-to-pr"⟩]
  projectOf inSection := String.ofList inSection.toList.dropLast
  defaultSection project := project ++ "1"
  projectOf_defaultSection project := by simp
  newGid := sampleNewGid
  newGid_fresh gids := by
    obtain ⟨n, -, hgid, hfresh⟩ := sampleNewGid_eq gids
    exact hgid ▸ hfresh

def sampleEnvironment : Environment where
  get name := [("ASANA_PROJECT_GID", "1"), ("ASANA_WORKSPACE_GID", "9"), ("ASANA_BACKLOG_SECTION_GID", "11"),
    ("ASANA_BACKLOG_SECTION_WITNESS_TASK_GID", "5")].lookup name

def sampleTasks : Tasks := ⟨[{ gid := "5", name := "Witness", sections := ["11"] }], List.nodup_singleton _⟩

def sampleManifest (name : String) : List (String × Json) := [
  ("batch_creation_id", .string "b"),
  ("delivery_policy", .string "backlog_only"),
  ("tasks", .array [.object [("ref", .string "one"), ("name", .string name)]]),
  ("dependencies", .string "independent")]

def samplePlan : Plan where
  setup := { project := "1", backlog := "11", readyForSpec := none, manualTag := "3", autoTag := "4" }
  deliveryPolicy := .backlogOnly
  batchCreationId := "b"
  tasks := [{ ref := "one", name := "N" }]
  edges := []

/-- `create_batch` of a task with this name. -/
def sampleRun (name : String) (s : Session) : EStateM.Result Raised Session BatchReport :=
  createBatch sampleService sampleEnvironment BatchDefinition.samplePython (sampleManifest name) s

def sampleSession : Session := { tasks := sampleTasks, fates := fun _ => .answered }

/-- The identity of a task after a run that returns. -/
def externalAfter (gid : String) : EStateM.Result Raised Session BatchReport → Option (String × String)
  | .ok _ t => (t.tasks.get? gid).bind StoredTask.external
  | .error _ _ => none

def tasksAfter : EStateM.Result Raised Session BatchReport → Tasks
  | .ok _ t => t.tasks
  | .error _ t => t.tasks

theorem externalAfter_eq_some {gid : String} {result : EStateM.Result Raised Session BatchReport}
    {external : String × String} (h : externalAfter gid result = some external) :
    ∃ report t, result = .ok report t ∧ ∃ stored, t.tasks.get? gid = some stored ∧
      stored.external = some external := by
  cases result with
  | ok report t => exact ⟨report, t, rfl, Option.bind_eq_some_iff.mp h⟩
  | error e t => cases h

theorem bound_sampleTasks (python : Python) : Bound python sampleTasks := by
  have hnone : ∀ gid stored, sampleTasks.get? gid = some stored → stored.external = none := by
    intro gid stored hget
    obtain rfl := List.mem_singleton.mp (KeyedTable.mem_rows.mpr (KeyedTable.mem_of_get? hget))
    rfl
  refine ⟨fun gid gid' stored stored' hget _ external hexternal _ => ?_, fun gid stored hget hsome => ?_⟩
  · rw [StoredTask.externalGid?, hnone gid stored hget] at hexternal
    cases hexternal
  · exact (hsome (hnone gid stored hget)).elim

theorem sampleRun_creates : ∃ report t, sampleRun "N" sampleSession = .ok report t ∧
    ∃ stored, t.tasks.get? "7" = some stored ∧
      IsTaskOf BatchDefinition.samplePython samplePlan { ref := "one", name := "N" } stored :=
  externalAfter_eq_some (by decide +kernel)

theorem history_oneDefinition_sample : ∃ report t, sampleRun "N" sampleSession = .ok report t ∧
    OneDefinition BatchDefinition.samplePython t.tasks := by
  obtain ⟨report, t, hrun, -⟩ := sampleRun_creates
  exact ⟨report, t, hrun, history_oneDefinition (bound_sampleTasks _) (.single (.returned hrun))⟩

theorem createBatch_refuses_sample : ∃ report t, sampleRun "N" sampleSession = .ok report t ∧
    Ends (sampleRun "M") t (fun _ _ => False) (fun _ u => u.tasks = t.tasks) := by
  obtain ⟨report, t, hrun, stored, hget, hof⟩ := sampleRun_creates
  have hbound : Bound BatchDefinition.samplePython t.tasks := (bound_sampleTasks _).happens (.returned hrun)
  have hid : creationId (sampleManifest "M") = samplePlan.batchCreationId := by decide +kernel
  have hparsed : parseBatchManifest (sampleManifest "M") =
      .ok (.backlogOnly, [{ ref := "one", name := "M" }], []) := by decide +kernel
  refine ⟨report, t, hrun, (createBatch_refuses hbound hget hof hid).mono ?_ fun _ _ h => h.1⟩
  rintro _ _ ⟨other, hother, -, hsame⟩
  have hparts := hparsed.symm.trans hother.parsed
  simp only [Except.ok.injEq, Prod.mk.injEq] at hparts
  obtain ⟨hpolicy, htasks, hedges⟩ := hparts
  have hdefinition : other.batchDefinition = .sample "M" := by
    rw [Plan.batchDefinition, ← hpolicy, ← htasks, ← hedges]
    rfl
  rw [hdefinition] at hsame
  exact BatchDefinition.not_same_sample (hsame BatchDefinition.distinguished_sample)

end Batch
end Asana
end FlashyFactory
