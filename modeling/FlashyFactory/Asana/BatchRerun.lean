import FlashyFactory.Asana.BatchAnswers

/-! # Running a batch again

Whatever became of the requests of earlier runs, the tasks they left behind are accepted by the next one, as long
as a new task lands in a section of the batch. A run of the same manifest on a service that answers completes it. -/

namespace FlashyFactory
namespace Asana
namespace Batch

variable {service : Service} {env : Environment} {python : Python} {plan other : Plan} {s t : Session}
variable {manifest : List (String × Json)} {tasks tasks' : Tasks} {gid inSection : String} {task : BatchTask}
variable {stored : StoredTask}

/-! ## The plan of a manifest -/

theorem parseBatchManifest_identifiers {policy : DeliveryPolicy} {tasks : List BatchTask}
    {edges : List (String × String)} (h : parseBatchManifest manifest = .ok (policy, tasks, edges)) :
    isBatchCreationId (creationId manifest) = true ∧ ∀ task ∈ tasks, isTaskRef task.ref = true := by
  simp only [parseBatchManifest, Except.bind_eq_ok, Except.pure_eq_ok, Prod.mk.injEq] at h
  obtain ⟨head, hhead, _, -, _, -, -, rfl, -⟩ := h
  refine ⟨?_, fun task htask => (parseHead_refs hhead).2 _ (List.mem_map_of_mem htask)⟩
  simp only [parseHead, Except.bind_eq_ok, Except.pure_eq_ok] at hhead
  obtain ⟨_, -, id, hid, -⟩ := hhead
  unfold requireCreationId at hid
  split at hid
  · next value hvalue =>
    split at hid
    · next hvalid =>
      rw [creationId, hvalue]
      exact hvalid
    · cases hid
  · cases hid

theorem requireProject_valid {project : String} (h : requireProject env = .ok project) : isGid project = true := by
  obtain ⟨hvalid, rfl⟩ := requireGid_eq_ok.mp h
  exact hvalid

theorem requireVariable_valid {name : String} (h : requireVariable env name = .ok gid) : isGid gid = true := by
  obtain ⟨hvalid, rfl⟩ := requireGid_eq_ok.mp h
  exact hvalid

theorem Plan.Of.identity (h : plan.Of service env tasks manifest) (hdigest : python.HexDigest)
    (htask : task ∈ plan.tasks) :
    plan.identity python task = .ok (plan.externalGid task, plan.externalData python task) := by
  obtain ⟨hid, hrefs⟩ := parseBatchManifest_identifiers h.parsed
  exact taskExternalIdentity_of_valid hdigest (h.creationId ▸ hid) (hdigest.short _) (hrefs task htask)
    (requireProject_valid h.configured.project) (requireVariable_valid h.configured.backlog.configured)

theorem Configured.unique {policy : DeliveryPolicy} {setup setup' : Setup}
    (h : Configured service env tasks policy setup) (h' : Configured service env tasks' policy setup') :
    setup = setup' := by
  have hproject := Except.ok.inj (h.project.symm.trans h'.project)
  have hbacklog := Except.ok.inj (h.backlog.configured.symm.trans h'.backlog.configured)
  obtain ⟨workspace, hworkspace, pages, hpages, hmanual, hauto⟩ := h.tags
  obtain ⟨workspace', hworkspace', pages', hpages', hmanual', hauto'⟩ := h'.tags
  cases hworkspace.symm.trans hworkspace'
  cases hpages.symm.trans hpages'
  have hmanualTag := Except.ok.inj (hmanual.symm.trans hmanual')
  have hautoTag := Except.ok.inj (hauto.symm.trans hauto')
  have hready : setup.readyForSpec = setup'.readyForSpec := by
    have hfirst := h.readyForSpec
    have hsecond := h'.readyForSpec
    generalize setup.readyForSpec = ready at hfirst
    generalize setup'.readyForSpec = ready' at hsecond
    cases hfirst with
    | backlogOnly =>
      cases hsecond
      rfl
    | autonomousToPr hsection =>
      cases hsecond with
      | autonomousToPr hsection' => rw [Except.ok.inj (hsection.configured.symm.trans hsection'.configured)]
  cases setup
  cases setup'
  simp only at hproject hbacklog hmanualTag hautoTag hready
  rw [hproject, hbacklog, hmanualTag, hautoTag, hready]

theorem Plan.Of.unique (h : plan.Of service env tasks manifest) (h' : other.Of service env tasks' manifest) :
    plan = other := by
  have hparsed := Except.ok.inj (h.parsed.symm.trans h'.parsed)
  have hid := h.creationId.trans h'.creationId.symm
  have hconfigured := h.configured
  have hconfigured' := h'.configured
  cases plan
  cases other
  simp only [Prod.mk.injEq] at hparsed hid hconfigured hconfigured'
  obtain ⟨rfl, rfl, rfl⟩ := hparsed
  rw [hid, hconfigured.unique hconfigured']

/-! ## What the next run accepts -/

/-- A task that has an identity of the batch is accepted. -/
structure Fit (service : Service) (python : Python) (plan : Plan) (stored : StoredTask) : Prop where
  accepts : ∀ task ∈ plan.tasks, stored.externalGid? = some (plan.externalGid task) →
    plan.Accepts service python task stored
  dependencies : ∀ dependency ∈ stored.dependencies, isGid dependency = true

theorem Plan.Accepts.settles (hsectioned : plan.Sectioned service) {c : Change}
    (h : plan.Accepts service python task stored)
    (hsettles : plan.Settles gid c) : plan.Accepts service python task (c.update service stored) := by
  cases hsettles with
  | addTag tag => exact ⟨h.gid, h.external, h.unfinished, h.name, h.notes, h.fields, h.placed⟩
  | removeTag tag => exact ⟨h.gid, h.external, h.unfinished, h.name, h.notes, h.fields, h.placed⟩
  | @addTask inSection hsection =>
    have hallowed : inSection ∈ plan.setup.allowedExisting := by
      rcases hsection with rfl | rfl
      · exact List.mem_cons_self
      · exact hsectioned.target
    obtain ⟨before, -, hsections, hproject⟩ := h.placed
    have hmoved := hsectioned.project inSection hallowed
    exact ⟨h.gid, h.external, h.unfinished, h.name, h.notes, h.fields, inSection, hallowed,
      StoredTask.moved_sections hsections (hproject.trans hmoved.symm), hmoved⟩

/-- The dependencies that a run writes are gids. -/
theorem dependencies_update {c : Change} (hc : plan.Requests python c)
    (h : ∀ dependency ∈ stored.dependencies, isGid dependency = true) :
    ∀ dependency ∈ (c.update service stored).dependencies, isGid dependency = true := by
  cases hc with
  | create => exact h
  | settle hsettles =>
    have hsame : (c.update service stored).dependencies = stored.dependencies := by
      cases hsettles <;> rfl
    exact hsame ▸ h
  | addDependencies hblocker =>
    intro dependency hmem
    rcases List.mem_append.mp hmem with hmem | hmem
    · exact h dependency hmem
    · rw [List.mem_singleton.mp (List.mem_filter.mp hmem).1]
      exact hblocker

theorem externalGid?_update (c : Change) (stored : StoredTask) :
    (c.update service stored).externalGid? = stored.externalGid? :=
  StoredTask.externalGid?_of_core (Change.update_core c stored)

theorem Fit.update (hsectioned : plan.Sectioned service) {c : Change} (h : Fit service python plan stored)
    (hc : plan.Requests python c) : Fit service python plan (c.update service stored) := by
  refine ⟨fun task htask hgid => ?_, dependencies_update hc h.dependencies⟩
  have H := h.accepts task htask ((externalGid?_update c stored).symm.trans hgid)
  cases hc with
  | create => exact H
  | settle hsettles => exact H.settles hsectioned hsettles
  | addDependencies => exact ⟨H.gid, H.external, H.unfinished, H.name, H.notes, H.fields, H.placed⟩

/-- A new task is accepted, if its project puts it in a section of the batch. -/
theorem fit_new (hnodup : plan.references.Nodup)
    (hdefault : service.defaultSection plan.setup.project ∈ plan.setup.allowedExisting) (htask : task ∈ plan.tasks)
    (hkeys : task.fieldKeys.Nodup) (hgid : isGid gid = true) :
    Fit service python plan (.ofNew service (plan.newTask python task) gid) := by
  refine ⟨fun other hother hexternal => ?_, nofun⟩
  have href : task.ref = other.ref := externalGid_ref_inj.mp (Option.some.inj hexternal)
  obtain rfl := List.inj_on_of_nodup_map hnodup htask hother href
  refine ⟨hgid, rfl, rfl, rfl, rfl, ?_, _, hdefault, rfl, service.projectOf_defaultSection _⟩
  rw [StoredTask.hasFields, List.all_eq_true]
  exact fun field hmem => decide_eq_true (lookup_of_mem hkeys hmem)

/-- What a run may rely on, apart from the configuration. -/
structure Rules (service : Service) (plan : Plan) (most : ℕ) : Prop where
  nodup : plan.references.Nodup
  sectioned : plan.Sectioned service
  /-- The project puts a new task in a section of the batch. -/
  default : service.defaultSection plan.setup.project ∈ plan.setup.allowedExisting
  keys : ∀ task ∈ plan.tasks, task.fieldKeys.Nodup
  room : Room service most

/-- What the requests of a run keep of every task, and establish of the new ones. -/
theorem Each.apply_requests {I : StoredTask → Prop} {most : ℕ} (hroom : Room service most)
    (hupdate : ∀ c stored, plan.Requests python c → I stored → I (c.update service stored))
    (hnew : ∀ task ∈ plan.tasks, ∀ gid, isGid gid = true → I (.ofNew service (plan.newTask python task) gid))
    {c : Change} (hc : plan.Requests python c) (hmost : (c.apply service tasks).gids.length ≤ most)
    (h : Each (fun _ => I) tasks) : Each (fun _ => I) (c.apply service tasks) := by
  cases id hc with
  | settle hsettles => exact h.apply hsettles.target fun stored => hupdate _ stored hc
  | addDependencies hblocker => exact h.apply rfl fun stored => hupdate _ stored hc
  | @create task htask =>
    rw [length_gids_create] at hmost
    intro gid stored hget
    rw [Change.get?_apply_create] at hget
    split at hget
    · cases hget
      exact hnew task htask _ (hroom _ hmost)
    · exact h gid stored hget

theorem length_gids_le_apply {c : Change} : tasks.gids.length ≤ (c.apply service tasks).gids.length := by
  cases htarget : c.target? with
  | some gid => rw [length_gids_apply htarget]
  | none =>
    cases c with
    | create new =>
      rw [length_gids_create]
      exact Nat.le_succ _
    | _ => cases htarget

theorem Reaches.length_gids_le {A : Change → Prop} (h : Reaches service A s t) :
    s.tasks.gids.length ≤ t.tasks.gids.length :=
  h.keeps_tasks (P := fun tasks => s.tasks.gids.length ≤ tasks.gids.length) le_rfl fun _ _ _ _ hle =>
    hle.trans length_gids_le_apply

theorem Each.reaches_requests {I : StoredTask → Prop} {most : ℕ} (hroom : Room service most)
    (hupdate : ∀ c stored, plan.Requests python c → I stored → I (c.update service stored))
    (hnew : ∀ task ∈ plan.tasks, ∀ gid, isGid gid = true → I (.ofNew service (plan.newTask python task) gid))
    (hreaches : Reaches service (plan.Requests python) s t) (h : Each (fun _ => I) s.tasks)
    (hmost : t.tasks.gids.length ≤ most) : Each (fun _ => I) t.tasks := by
  refine hreaches.keeps_tasks (P := fun tasks => tasks.gids.length ≤ most → Each (fun _ => I) tasks)
    (fun _ => h) (fun tasks c hc _ ih hlength => ?_) hmost
  exact Each.apply_requests hroom hupdate hnew hc hlength (ih (length_gids_le_apply.trans hlength))

theorem Fit.reaches {most : ℕ} (R : Rules service plan most) (hreaches : Reaches service (plan.Requests python) s t)
    (h : Each (fun _ => Fit service python plan) s.tasks) (hmost : t.tasks.gids.length ≤ most) :
    Each (fun _ => Fit service python plan) t.tasks :=
  Each.reaches_requests R.room (fun _ _ hc hfit => hfit.update R.sectioned hc)
    (fun task htask _ hgid => fit_new R.nodup R.default htask (R.keys task htask) hgid) hreaches h hmost

/-! ## States that a run can be resumed from -/

/-- The variables of the witness tasks. -/
def Plan.witnesses (plan : Plan) : List String :=
  "ASANA_BACKLOG_SECTION_WITNESS_TASK_GID" :: match plan.deliveryPolicy with
    | .backlogOnly => []
    | .autonomousToPr => ["ASANA_READY_FOR_SPEC_SECTION_WITNESS_TASK_GID"]

/-- The batch is configured, its witness tasks are no tasks of a batch, and its own tasks are accepted. -/
structure Resumable (service : Service) (env : Environment) (python : Python) (plan : Plan) (tasks : Tasks) : Prop where
  configured : Configured service env tasks plan.deliveryPolicy plan.setup
  witnesses : ∀ name ∈ plan.witnesses, ∃ gid stored, requireVariable env name = .ok gid ∧
    tasks.get? gid = some stored ∧ stored.external = none
  fit : Each (fun _ => Fit service python plan) tasks

/-- The witness tasks stay as they are. -/
def KeepsWitnesses (env : Environment) (plan : Plan) (tasks tasks' : Tasks) : Prop :=
  ∀ name ∈ plan.witnesses, ∀ gid stored, requireVariable env name = .ok gid → tasks.get? gid = some stored →
    tasks'.get? gid = some stored

theorem SectionOf.keeps {project sectionName witness : String}
    (h : SectionOf service env tasks project sectionName witness inSection) (hmem : witness ∈ plan.witnesses)
    (hkeeps : KeepsWitnesses env plan tasks tasks') :
    SectionOf service env tasks' project sectionName witness inSection := by
  obtain ⟨gid, found, hgid, hget, hone⟩ := h.witness
  exact ⟨h.configured, gid, found, hgid, hkeeps witness hmem gid found hgid hget, hone⟩

theorem Configured.keeps (h : Configured service env tasks plan.deliveryPolicy plan.setup)
    (hkeeps : KeepsWitnesses env plan tasks tasks') : Configured service env tasks' plan.deliveryPolicy plan.setup := by
  have hready : ∀ {policy ready}, plan.deliveryPolicy = policy →
      ReadyForSpecOf service env tasks plan.setup.project policy ready →
        ReadyForSpecOf service env tasks' plan.setup.project policy ready := by
    intro policy ready hpolicy hof
    cases hof with
    | backlogOnly => exact .backlogOnly
    | autonomousToPr hsection =>
      refine .autonomousToPr (@SectionOf.keeps _ _ plan _ _ _ _ _ _ hsection ?_ hkeeps)
      rw [Plan.witnesses, hpolicy]
      simp
  exact ⟨h.oauth, h.project, h.backlog.keeps List.mem_cons_self hkeeps, hready rfl h.readyForSpec, h.tags⟩

theorem Resumable.ran {most : ℕ} {report : BatchReport} (R : Rules service plan most)
    (h : Resumable service env python plan s.tasks) (hran : Ran service python plan report s t)
    (hmost : t.tasks.gids.length ≤ most) : Resumable service env python plan t.tasks := by
  have hstays : ∀ gid stored, s.tasks.get? gid = some stored → stored.external = none →
      t.tasks.get? gid = some stored := by
    intro gid stored hget hnone
    refine hran.frame gid stored hget fun task _ hcarries => ?_
    rw [hcarries.external] at hnone
    cases hnone
  have hkeeps : KeepsWitnesses env plan s.tasks t.tasks := by
    intro name hname gid stored hgid hget
    obtain ⟨gid', stored', hgid', hget', hnone⟩ := h.witnesses name hname
    cases hgid.symm.trans hgid'
    cases hget.symm.trans hget'
    exact hstays gid stored hget hnone
  refine ⟨h.configured.keeps hkeeps, fun name hname => ?_, Fit.reaches R hran.requests h.fit hmost⟩
  obtain ⟨gid, stored, hgid, hget, hnone⟩ := h.witnesses name hname
  exact ⟨gid, stored, hgid, hstays gid stored hget hnone, hnone⟩

/-- One run of the manifest, whatever becomes of its requests. -/
inductive Run (service : Service) (env : Environment) (python : Python) (manifest : List (String × Json))
    (tasks : Tasks) : Tasks → Prop
  | returned {fates : ℕ → Fate} {log : List Event} {report : BatchReport} {t : Session}
      (h : createBatch service env python manifest ⟨tasks, fates, log⟩ = .ok report t) :
    Run service env python manifest tasks t.tasks
  | raised {fates : ℕ → Fate} {log : List Event} {e : Raised} {t : Session}
      (h : createBatch service env python manifest ⟨tasks, fates, log⟩ = .error e t) :
    Run service env python manifest tasks t.tasks

theorem Plan.Of.resumable (hof : plan.Of service env tasks manifest)
    (h : Resumable service env python plan tasks') : plan.Of service env tasks' manifest :=
  ⟨hof.parsed, hof.creationId, h.configured⟩

/-- A run that raises has changed nothing. -/
theorem Run.ran (hrun : Run service env python manifest tasks tasks') : tasks' = tasks ∨
    ∃ (s t : Session) (plan : Plan) (report : BatchReport), s.tasks = tasks ∧ t.tasks = tasks' ∧
      plan.Of service env tasks manifest ∧ Ran service python plan report s t := by
  cases hrun with
  | @returned fates log report t hresult =>
    obtain ⟨plan, hof, hran⟩ := (Ends.ok_iff hresult).mp
      (@ends_createBatch service env python ⟨tasks, fates, log⟩ manifest)
    exact .inr ⟨⟨tasks, fates, log⟩, t, plan, report, rfl, rfl, hof, hran⟩
  | @raised fates log e t hresult =>
    have hread : Reading service ⟨tasks, fates, log⟩ t := (Ends.error_iff hresult).mp
      (@ends_createBatch service env python ⟨tasks, fates, log⟩ manifest)
    exact .inl hread.tasks_eq

theorem Run.length_gids_le (hrun : Run service env python manifest tasks tasks') :
    tasks.gids.length ≤ tasks'.gids.length := by
  rcases hrun.ran with rfl | ⟨s, t, plan, report, rfl, rfl, -, hran⟩
  · exact le_rfl
  · exact hran.requests.length_gids_le

theorem Resumable.run {most : ℕ} (R : Rules service plan most) (hof : plan.Of service env tasks manifest)
    (h : Resumable service env python plan tasks) (hrun : Run service env python manifest tasks tasks')
    (hmost : tasks'.gids.length ≤ most) : Resumable service env python plan tasks' := by
  rcases hrun.ran with rfl | ⟨s, t, other, report, rfl, rfl, hother, hran⟩
  · exact h
  · obtain rfl := hof.unique hother
    exact Resumable.ran R h hran hmost

theorem Resumable.runs {most : ℕ} (R : Rules service plan most) (hof : plan.Of service env tasks manifest)
    (h : Resumable service env python plan tasks)
    (hruns : Relation.ReflTransGen (Run service env python manifest) tasks tasks')
    (hmost : tasks'.gids.length ≤ most) : Resumable service env python plan tasks' := by
  induction hruns with
  | refl => exact h
  | tail _ hlast ih =>
    have hmiddle := ih (hlast.length_gids_le.trans hmost)
    exact hmiddle.run R (hof.resumable hmiddle) hlast hmost

/-! ## A run from such a state -/

theorem ends_configuredBatchSection_answers {project sectionName witness label : String}
    (h : SectionOf service env s.tasks project sectionName witness inSection) (hanswers : Answers s) :
    Ends (configuredBatchSection service env project sectionName witness label) s
      (fun found t => found = inSection ∧ t.tasks = s.tasks ∧ Answers t) (fun _ _ => False) := by
  obtain ⟨gid, found, hgid, hget, hone⟩ := h.witness
  refine Ends.bind_iff.mpr ((ends_validate_ok h.configured).mono ?_ fun _ _ h => h)
  rintro _ t ⟨rfl, rfl⟩
  refine Ends.bind_iff.mpr ((ends_validate_ok hgid).mono ?_ fun _ _ h => h)
  rintro _ t ⟨rfl, rfl⟩
  refine Ends.bind_iff.mpr ((ends_readTask_answers hanswers hget).mono ?_ fun _ _ h => h)
  rintro _ t ⟨hanswers, rfl, htasks⟩
  refine Ends.bind_iff.mpr ((ends_validate_ok (a := ()) (refuseIf_eq_ok.mpr (not_not.mpr hone))).mono ?_ fun _ _ h => h)
  rintro _ t ⟨-, rfl⟩
  exact Ends.pure_iff.mpr ⟨rfl, htasks, hanswers⟩

theorem ends_configure_answers {policy : DeliveryPolicy} {setup : Setup}
    (h : Configured service env s.tasks policy setup) (hanswers : Answers s) : Ends (configure service env policy) s
      (fun found t => found = setup ∧ t.tasks = s.tasks ∧ Answers t) (fun _ _ => False) := by
  obtain ⟨workspace, hworkspace, pages, hpages, hmanual, hauto⟩ := h.tags
  refine Ends.bind_iff.mpr ((ends_validate_ok h.oauth).mono ?_ fun _ _ h => h)
  rintro _ t ⟨rfl, rfl⟩
  refine Ends.bind_iff.mpr ((ends_validate_ok h.project).mono ?_ fun _ _ h => h)
  rintro _ t ⟨rfl, rfl⟩
  refine Ends.bind_iff.mpr ((ends_validate_ok hworkspace).mono ?_ fun _ _ h => h)
  rintro workspace t ⟨rfl, rfl⟩
  refine Ends.bind_iff.mpr ((ends_configuredBatchSection_answers h.backlog hanswers).mono ?_ fun _ _ h => h)
  rintro _ u ⟨rfl, htasks, hanswers⟩
  have hready : Ends (configuredReadyForSpec service env setup.project policy) u (fun found t =>
      found = setup.readyForSpec ∧ t.tasks = u.tasks ∧ Answers t) (fun _ _ => False) := by
    have hof := h.readyForSpec
    rw [← htasks] at hof
    generalize setup.readyForSpec = ready at hof
    cases hof with
    | backlogOnly => exact Ends.pure_iff.mpr ⟨rfl, rfl, hanswers⟩
    | autonomousToPr hsection =>
      refine Ends.bind_iff.mpr ((ends_configuredBatchSection_answers hsection hanswers).mono ?_ fun _ _ h => h)
      rintro _ v ⟨rfl, htasks', hanswers'⟩
      exact Ends.pure_iff.mpr ⟨rfl, htasks', hanswers'⟩
  refine Ends.bind_iff.mpr (hready.mono ?_ fun _ _ h => h)
  rintro _ v ⟨rfl, htasks', hanswers⟩
  have hfetch : Ends (fetch fun _ => service.tags workspace) v (fun tags t => tags = service.tags workspace ∧
      t.tasks = v.tasks ∧ Answers t) (fun _ _ => False) := by
    have hok : fetch (fun _ => service.tags workspace) v = .ok (service.tags workspace) v.next := by
      simp [fetch, hanswers 0]
    exact (Ends.ok_iff hok).mpr ⟨rfl, rfl, fun n => hanswers (n + 1)⟩
  have htags : Ends (resolveAuthorizationTags service workspace) v (fun found t =>
      found = (setup.manualTag, setup.autoTag) ∧ t.tasks = v.tasks ∧ Answers t) (fun _ _ => False) := by
    refine Ends.bind_iff.mpr (hfetch.mono ?_ fun _ _ h => h)
    rintro _ w ⟨rfl, htasks, hanswers⟩
    refine Ends.bind_iff.mpr ((ends_validate_ok hpages).mono ?_ fun _ _ h => h)
    rintro _ w ⟨rfl, rfl⟩
    refine Ends.bind_iff.mpr ((ends_validate_ok hmanual).mono ?_ fun _ _ h => h)
    rintro _ w ⟨rfl, rfl⟩
    refine Ends.bind_iff.mpr ((ends_validate_ok hauto).mono ?_ fun _ _ h => h)
    rintro _ w ⟨rfl, rfl⟩
    exact Ends.pure_iff.mpr ⟨rfl, htasks, hanswers⟩
  refine Ends.bind_iff.mpr (htags.mono ?_ fun _ _ h => h)
  rintro _ w ⟨rfl, htasks'', hanswers⟩
  exact Ends.pure_iff.mpr ⟨rfl, (htasks''.trans htasks').trans htasks, hanswers⟩

theorem ends_getExternalTask_answers {externalGid : String} (hanswers : Answers s)
    (hgid : ∀ stored, findExternal externalGid s.tasks = some stored → isGid stored.gid = true) :
    Ends (getExternalTask externalGid) s
      (fun found t => found = findExternal externalGid s.tasks ∧ t.tasks = s.tasks ∧ Answers t)
        (fun _ _ => False) := by
  have hfetch : fetch (findExternal externalGid) s = .ok (findExternal externalGid s.tasks) s.next := by
    simp [fetch, hanswers 0]
  have hnext : Answers s.next := fun n => hanswers (n + 1)
  refine Ends.bind_iff.mpr ((Ends.ok_iff hfetch).mpr ?_)
  cases hfind : findExternal externalGid s.tasks with
  | none => exact Ends.pure_iff.mpr ⟨rfl, rfl, hnext⟩
  | some found =>
    refine Ends.bind_iff.mpr (ends_noteRead_iff.mpr (Ends.bind_iff.mpr ?_))
    refine (ends_validate_ok (requireGid_eq_ok.mpr ⟨hgid found hfind, rfl⟩)).mono ?_ fun _ _ h => h
    rintro _ t ⟨-, rfl⟩
    exact Ends.pure_iff.mpr ⟨rfl, rfl, hnext⟩

theorem ends_lookUpTask_answers (hidentity : plan.identity python task =
    .ok (plan.externalGid task, plan.externalData python task)) (htask : task ∈ plan.tasks)
    (hfit : Each (fun _ => Fit service python plan) s.tasks) (hanswers : Answers s) :
    Ends (lookUpTask service python plan task) s (fun _ t => t.tasks = s.tasks ∧ Answers t) (fun _ _ => False) := by
  have haccepts : ∀ stored, findExternal (plan.externalGid task) s.tasks = some stored →
      plan.Accepts service python task stored := by
    intro stored hfind
    obtain ⟨hget, data, hexternal⟩ := findExternal_some hfind
    refine (hfit _ stored hget).accepts task htask ?_
    rw [StoredTask.externalGid?, hexternal, Option.map_some]
  refine Ends.bind_iff.mpr ((ends_validate_ok hidentity).mono ?_ fun _ _ h => h)
  rintro _ t ⟨rfl, rfl⟩
  refine Ends.bind_iff.mpr ((ends_getExternalTask_answers hanswers fun stored hfind =>
    (haccepts stored hfind).gid).mono ?_ fun _ _ h => h)
  rintro found u ⟨hfound, htasks, hanswers⟩
  cases found with
  | none => exact Ends.pure_iff.mpr ⟨htasks, hanswers⟩
  | some stored =>
    have hverify := verifyExternalTask_eq_ok.mpr ⟨rfl, haccepts stored hfound.symm⟩
    refine Ends.bind_iff.mpr ((ends_validate_ok hverify).mono ?_ fun _ _ h => h)
    rintro _ v ⟨-, rfl⟩
    exact Ends.pure_iff.mpr ⟨htasks, hanswers⟩

theorem ends_lookUpTasks_answers {wanted : List BatchTask} (hwanted : ∀ task ∈ wanted, task ∈ plan.tasks ∧
    plan.identity python task = .ok (plan.externalGid task, plan.externalData python task))
    (hfit : Each (fun _ => Fit service python plan) s.tasks) (hanswers : Answers s) :
    Ends (lookUpTasks service python plan wanted) s (fun _ t => t.tasks = s.tasks ∧ Answers t)
      (fun _ _ => False) := by
  induction wanted generalizing s with
  | nil => exact Ends.pure_iff.mpr ⟨rfl, hanswers⟩
  | cons task wanted ih =>
    obtain ⟨⟨htask, hidentity⟩, hwanted⟩ := List.forall_mem_cons.mp hwanted
    refine Ends.bind_iff.mpr ((ends_lookUpTask_answers hidentity htask hfit hanswers).mono ?_ fun _ _ h => h)
    rintro found t ⟨htasks, hanswers⟩
    refine Ends.bind_iff.mpr ((ih hwanted (htasks ▸ hfit) hanswers).mono ?_ fun _ _ h => h)
    rintro rest u ⟨htasks', hanswers⟩
    exact Ends.pure_iff.mpr ⟨htasks'.trans htasks, hanswers⟩

theorem ends_prepare_answers (hof : plan.Of service env s.tasks manifest) (hdigest : python.HexDigest)
    (hfit : Each (fun _ => Fit service python plan) s.tasks) (hanswers : Answers s) :
    Ends (prepare service env python manifest) s (fun result t => result.1 = plan ∧ t.tasks = s.tasks ∧ Answers t)
      (fun _ _ => False) := by
  refine Ends.bind_iff.mpr ((ends_validate_ok hof.parsed).mono ?_ fun _ _ h => h)
  rintro _ t ⟨rfl, rfl⟩
  refine Ends.bind_iff.mpr ((ends_configure_answers hof.configured hanswers).mono ?_ fun _ _ h => h)
  rintro _ t ⟨rfl, htasks, hanswers⟩
  have hplan : (⟨plan.setup, plan.deliveryPolicy, creationId manifest, plan.tasks, plan.edges⟩ : Plan) = plan := by
    rw [← hof.creationId]
  refine Ends.bind_iff.mpr ?_
  change Ends (lookUpTasks service python ⟨plan.setup, plan.deliveryPolicy, creationId manifest,
    plan.tasks, plan.edges⟩
    plan.tasks) t _ _
  rw [hplan]
  refine (ends_lookUpTasks_answers (fun task htask => ⟨htask, hof.identity hdigest htask⟩) (htasks ▸ hfit)
    hanswers).mono ?_ fun _ _ h => h
  rintro placed u ⟨htasks', hanswers⟩
  exact Ends.pure_iff.mpr ⟨hplan, htasks'.trans htasks, hanswers⟩

/-- A run on a service that answers succeeds, if the tasks of the batch that exist are accepted. -/
theorem ends_createBatch_answers (hof : plan.Of service env s.tasks manifest) (hdigest : python.HexDigest)
    (hfit : Each (fun _ => Fit service python plan) s.tasks) (hkeys : ∀ task ∈ plan.tasks, task.fieldKeys.Nodup)
    (hroom : Room service (s.tasks.gids.length + plan.tasks.length)) (hanswers : Answers s) :
    Ends (createBatch service env python manifest) s (fun report _ => report.ok = true ∧ report.failures = [])
      (fun _ _ => False) := by
  have hfound := @ends_prepare service env python s manifest
  refine Ends.bind_iff.mpr (((ends_prepare_answers hof hdigest hfit hanswers).and hfound).mono ?_ fun _ _ h => h.1)
  rintro ⟨found, placed⟩ t ⟨⟨rfl, htasks, hanswers⟩, -, -, F⟩
  rw [← htasks] at F hroom
  have hdependencies : ValidDependencies t.tasks := by
    rw [htasks]
    exact fun gid stored hget => (hfit gid stored hget).dependencies
  exact ends_createAndWire_answers hroom hof.valid hof.configured.sectioned hkeys F.gids
    (F.ready hof.valid.nodup hdependencies hanswers) le_rfl

/-- **A batch that was interrupted is completed**: after any number of runs of a manifest, whatever became of their
requests, one on a service that answers is `ok`. -/
theorem createBatch_converges (hof : plan.Of service env tasks manifest) (hdigest : python.HexDigest)
    (h : Resumable service env python plan tasks)
    (hruns : Relation.ReflTransGen (Run service env python manifest) tasks s.tasks)
    (R : Rules service plan (s.tasks.gids.length + plan.tasks.length)) (hanswers : Answers s) :
    Ends (createBatch service env python manifest) s (fun report t => report.ok = true ∧ report.failures = [] ∧
      Truthful service python plan s.tasks t.tasks report ∧ (Unique s.tasks → Unique t.tasks))
        (fun _ _ => False) := by
  have hresumable := h.runs R hof hruns (Nat.le_add_right _ _)
  have hof' := hof.resumable hresumable
  refine ((ends_createBatch_answers hof' hdigest hresumable.fit R.keys R.room hanswers).and
    ends_createBatch).mono ?_ fun _ _ h => h.1
  rintro report t ⟨⟨hok, hfailures⟩, other, hother, hran⟩
  obtain rfl := hof'.unique hother
  exact ⟨hok, hfailures, hran.truthful, hran.unique⟩

/-! ## A task that lies elsewhere -/

/-- The task is in a section that a run does not accept. -/
def Misplaced (service : Service) (plan : Plan) (stored : StoredTask) : Prop :=
  ∀ inSection ∈ plan.setup.allowedExisting, stored.sections = [inSection] →
    service.projectOf inSection ≠ plan.setup.project

theorem Found.not_misplaced {placed : List Placed} (F : Found service python plan tasks plan.tasks placed)
    (hnodup : plan.references.Nodup) (hunique : Unique tasks) (htask : task ∈ plan.tasks)
    (hget : tasks.get? gid = some stored) (hexternal : stored.externalGid? = some (plan.externalGid task)) :
    ¬ Misplaced service plan stored := by
  intro hmisplaced
  by_cases hplaced : task.ref ∈ placed.map Placed.ref
  · obtain ⟨entry, hentry, href⟩ := List.mem_map.mp hplaced
    obtain ⟨other, hother, hotherRef, stored', hget', haccepts⟩ := F.accepted entry hentry
    obtain rfl := List.inj_on_of_nodup_map hnodup hother htask (hotherRef.trans href)
    have hexternal' : stored'.externalGid? = some (plan.externalGid other) := by
      rw [StoredTask.externalGid?, haccepts.external, Option.map_some]
    obtain rfl := hunique gid entry.gid stored stored' hget hget' _ hexternal hexternal'
    cases hget.symm.trans hget'
    obtain ⟨inSection, hallowed, hsections, hproject⟩ := haccepts.placed
    exact hmisplaced inSection hallowed hsections hproject
  · exact findExternal_none.mp (F.missing task htask hplaced) gid stored hget hexternal

theorem refuses_misplaced (hof : plan.Of service env s.tasks manifest) (hunique : Unique s.tasks)
    (htask : task ∈ plan.tasks) (hget : s.tasks.get? gid = some stored)
    (hexternal : stored.externalGid? = some (plan.externalGid task)) (hmisplaced : Misplaced service plan stored) :
    Ends (createBatch service env python manifest) s (fun _ _ => False) (fun _ t => t.tasks = s.tasks) := by
  refine Ends.bind_iff.mpr (ends_prepare.mono ?_ fun _ _ hread => hread.tasks_eq)
  rintro ⟨other, placed⟩ t ⟨-, hother, F⟩
  obtain rfl := hof.unique hother
  exact (F.not_misplaced hof.valid.nodup hunique htask hget hexternal hmisplaced).elim

/-- **A batch one of whose tasks lies in another section cannot be resumed**: no run changes anything any more. -/
theorem runs_of_misplaced (hof : plan.Of service env tasks manifest) (hunique : Unique tasks)
    (htask : task ∈ plan.tasks) (hget : tasks.get? gid = some stored)
    (hexternal : stored.externalGid? = some (plan.externalGid task)) (hmisplaced : Misplaced service plan stored)
    (hruns : Relation.ReflTransGen (Run service env python manifest) tasks tasks') : tasks' = tasks := by
  have hrefuses : ∀ s : Session, s.tasks = tasks → Ends (createBatch service env python manifest) s
      (fun _ _ => False) (fun _ t => t.tasks = s.tasks) := by
    rintro s rfl
    exact refuses_misplaced hof hunique htask hget hexternal hmisplaced
  induction hruns with
  | refl => rfl
  | tail _ hlast ih =>
    subst ih
    cases hlast with
    | returned hresult => exact ((Ends.ok_iff hresult).mp (hrefuses _ rfl)).elim
    | raised hresult => exact (Ends.error_iff hresult).mp (hrefuses _ rfl)

/-! ## Runs that are interrupted -/

theorem run_tasksAfter (manifest : List (String × Json)) (fates : ℕ → Fate) (log : List Event) :
    Run service env python manifest tasks
      (tasksAfter (createBatch service env python manifest ⟨tasks, fates, log⟩)) := by
  cases hresult : createBatch service env python manifest ⟨tasks, fates, log⟩ with
  | ok report t => exact .returned hresult
  | error e t => exact .raised hresult

theorem of_sample (htags : service.tags = sampleService.tags) (hproject : service.projectOf = sampleService.projectOf) :
    samplePlan.Of service sampleEnvironment sampleTasks (sampleManifest "N") := by
  refine ⟨parse_sample, by decide +kernel, rfl, by decide +kernel,
    ⟨by decide +kernel, "5", _, by decide +kernel, rfl, ?_⟩,
    .backlogOnly, "9", by decide +kernel, sampleService.tags "9", ?_, by decide +kernel, by decide +kernel⟩
  · rw [hproject]
    decide +kernel
  · rw [htags]
    rfl

theorem rules_sample : Rules sampleService samplePlan 100 where
  nodup := List.nodup_singleton _
  sectioned := (@of_sample sampleService rfl rfl).configured.sectioned
  default := by decide +kernel
  keys := by decide
  room := room_sample

theorem resumable_sample :
    Resumable sampleService sampleEnvironment BatchDefinition.samplePython samplePlan sampleTasks := by
  refine ⟨(@of_sample sampleService rfl rfl).configured, fun name hname => ?_, fun gid stored hget => ?_⟩
  · obtain rfl := List.mem_singleton.mp hname
    exact ⟨"5", _, by decide +kernel, rfl, rfl⟩
  · obtain rfl := List.mem_singleton.mp (KeyedTable.mem_rows.mpr (KeyedTable.mem_of_get? hget))
    exact ⟨fun _ _ => nofun, nofun⟩

/-- From the first creation on, every request takes effect and fails. -/
def interrupted : Session := {
  tasks := sampleTasks
  fates := fun n => if n < 3 then .answered else .failed true "timed out" false }

theorem Rules.mono {most fewer : ℕ} (R : Rules service plan most) (hle : fewer ≤ most) : Rules service plan fewer :=
  ⟨R.nodup, R.sectioned, R.default, R.keys, R.room.mono hle⟩

theorem createBatch_converges_sample : Ends (sampleRun "N")
    { tasks := tasksAfter (sampleRun "N" interrupted), fates := fun _ => .answered }
    (fun report _ => report.ok = true) (fun _ _ => False) := by
  have hruns : Relation.ReflTransGen (Run sampleService sampleEnvironment BatchDefinition.samplePython
      (sampleManifest "N")) sampleTasks (tasksAfter (sampleRun "N" interrupted)) :=
    .single (run_tasksAfter (sampleManifest "N") interrupted.fates [])
  have hlength : (tasksAfter (sampleRun "N" interrupted)).gids.length = 2 := by decide +kernel
  have hof := @of_sample sampleService rfl rfl
  -- the run is not evaluated
  generalize tasksAfter (sampleRun "N" interrupted) = tasks at hruns hlength ⊢
  unfold sampleRun
  generalize sampleManifest "N" = manifest at hruns hof ⊢
  have hrules : Rules sampleService samplePlan (tasks.gids.length + samplePlan.tasks.length) :=
    rules_sample.mono (by rw [hlength]; exact Nat.le_of_ble_eq_true rfl)
  refine (@createBatch_converges sampleService sampleEnvironment BatchDefinition.samplePython samplePlan
    { tasks := tasks, fates := fun _ => .answered } manifest sampleTasks hof BatchDefinition.hexDigest_samplePython
    resumable_sample hruns hrules fun _ => rfl).mono (fun _ _ h => h.1) fun _ _ h => h

/-- A project that puts new tasks in a section of its own. -/
def strayService : Service := { sampleService with
  defaultSection := fun project => project ++ "0"
  projectOf_defaultSection := fun project => by simp [sampleService] }

/-- The new task is not moved. -/
def strayRun (tasks : Tasks) : EStateM.Result Raised Session BatchReport :=
  createBatch strayService sampleEnvironment BatchDefinition.samplePython (sampleManifest "N")
    { tasks := tasks, fates := fun n => if n = 4 then .failed false "timed out" false else .answered }

theorem Run.happens (h : Run service env python manifest tasks tasks') : Happens service python tasks tasks' := by
  cases h with
  | returned hresult => exact .returned hresult
  | raised hresult => exact .raised hresult

/-- The task that was created lies in the section that the project puts new tasks in. -/
theorem misplaced_stray : ∃ stored, (tasksAfter (strayRun sampleTasks)).get? "7" = some stored ∧
    stored.externalGid? = some (samplePlan.externalGid { ref := "one", name := "N" }) ∧
    Misplaced strayService samplePlan stored := by
  have hlost : ((tasksAfter (strayRun sampleTasks)).get? "7").map (fun stored =>
    (stored.externalGid?, stored.sections)) =
      some (some (samplePlan.externalGid { ref := "one", name := "N" }), ["10"]) := by decide +kernel
  obtain ⟨stored, hget, hstored⟩ := Option.map_eq_some_iff.mp hlost
  rw [Prod.mk.injEq] at hstored
  refine ⟨stored, hget, hstored.1, fun inSection hallowed hsections => ?_⟩
  rw [List.mem_singleton.mp hallowed, hstored.2] at hsections
  exact absurd hsections (by decide)

theorem of_strayRun :
    samplePlan.Of strayService sampleEnvironment (tasksAfter (strayRun sampleTasks)) (sampleManifest "N") := by
  have hwitness : (tasksAfter (strayRun sampleTasks)).get? "5" = sampleTasks.get? "5" := by decide +kernel
  have hof := @of_sample strayService rfl rfl
  -- the run is not evaluated
  generalize tasksAfter (strayRun sampleTasks) = tasks at hwitness ⊢
  generalize sampleManifest "N" = manifest at hof ⊢
  have hkeeps : KeepsWitnesses sampleEnvironment samplePlan sampleTasks tasks := by
    intro name hname gid stored hgid hget
    obtain rfl := List.mem_singleton.mp hname
    have hfive : gid = "5" := Except.ok.inj (hgid.symm.trans (by decide +kernel))
    subst hfive
    exact hwitness.trans hget
  exact ⟨hof.parsed, hof.creationId, hof.configured.keeps hkeeps⟩

theorem unique_strayRun : Unique (tasksAfter (strayRun sampleTasks)) := by
  have hrun : Run strayService sampleEnvironment BatchDefinition.samplePython (sampleManifest "N") sampleTasks
      (tasksAfter (strayRun sampleTasks)) := run_tasksAfter _ _ []
  exact ((bound_sampleTasks _).happens hrun.happens).unique

theorem runs_of_misplaced_sample :
    tasksAfter (strayRun (tasksAfter (strayRun sampleTasks))) = tasksAfter (strayRun sampleTasks) := by
  have hagain : Run strayService sampleEnvironment BatchDefinition.samplePython (sampleManifest "N")
      (tasksAfter (strayRun sampleTasks)) (tasksAfter (strayRun (tasksAfter (strayRun sampleTasks)))) :=
    run_tasksAfter _ _ []
  obtain ⟨stored, hget, hexternal, hmisplaced⟩ := misplaced_stray
  have hof := of_strayRun
  have hunique := unique_strayRun
  -- the runs are not evaluated
  generalize tasksAfter (strayRun sampleTasks) = tasks at hagain hget hof hunique ⊢
  exact runs_of_misplaced hof hunique List.mem_cons_self hget hexternal hmisplaced (.single hagain)

end Batch
end Asana
end FlashyFactory
