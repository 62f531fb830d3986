import FlashyFactory.Asana.BatchBinding
import FlashyFactory.Asana.BatchReport

/-! # Runs of `create_batch`

A run raises without a request that changes something, or it reports truthfully what it did. Tasks outside the
batch stay as they are. -/

namespace FlashyFactory
namespace Asana
namespace Batch

variable {service : Service} {env : Environment} {python : Python} {plan : Plan} {s t : Session}
variable {placed : List Placed}

/-! ## The plan -/

structure Plan.Valid (plan : Plan) : Prop where
  nodup : plan.references.Nodup
  nonempty : plan.tasks ≠ []
  declared : ∀ e ∈ plan.edges, e.1 ∈ plan.references ∧ e.2 ∈ plan.references

theorem parseBatchManifest_valid {manifest : List (String × Json)} {policy : DeliveryPolicy} {tasks : List BatchTask}
    {edges : List (String × String)} (h : parseBatchManifest manifest = .ok (policy, tasks, edges)) :
    (tasks.map BatchTask.ref).Nodup ∧ tasks ≠ [] ∧
      ∀ e ∈ edges, e.1 ∈ tasks.map BatchTask.ref ∧ e.2 ∈ tasks.map BatchTask.ref := by
  simp only [parseBatchManifest, Except.bind_eq_ok, Except.pure_eq_ok, Prod.mk.injEq] at h
  obtain ⟨head, hhead, _, hedges, _, -, rfl, rfl, rfl⟩ := h
  obtain ⟨hnodup, hrefs⟩ := parseHead_refs hhead
  refine ⟨hnodup, ?_, (requests_of_parseDependencies hrefs hedges).2⟩
  simp only [parseHead, Except.bind_eq_ok, Except.pure_eq_ok] at hhead
  obtain ⟨_, -, _, -, _, -, tasks, htasks, rfl⟩ := hhead
  unfold requireTasks at htasks
  split at htasks
  · simp only [Except.bind_eq_ok] at htasks
    obtain ⟨_, -, htasks⟩ := htasks
    rw [parseTasks, Except.bind_eq_ok] at htasks
    obtain ⟨task, -, htasks⟩ := htasks
    simp only [Except.bind_eq_ok, Except.pure_eq_ok] at htasks
    obtain ⟨rest, -, rfl⟩ := htasks
    simp
  · cases htasks

theorem creationOrder_perm : plan.creationOrder.Perm plan.tasks := by
  have hfilter := List.filter_append_perm (fun task : BatchTask => decide (task.ref = plan.anchorRef)) plan.tasks
  simpa [Plan.creationOrder] using hfilter

theorem creationOrder_anchor (hvalid : plan.Valid) :
    ∃ anchor rest, plan.creationOrder = anchor :: rest ∧ anchor.ref = plan.anchorRef := by
  have hne : sorted plan.references ≠ [] := by
    intro hnil
    have hperm := (sorted_perm plan.references).length_eq
    rw [hnil, List.length_nil, Plan.references, List.length_map] at hperm
    exact hvalid.nonempty (List.eq_nil_of_length_eq_zero hperm.symm)
  obtain ⟨first, others, hsorted⟩ := List.exists_cons_of_ne_nil hne
  have hanchor : plan.anchorRef = first := by rw [Plan.anchorRef, hsorted, List.headD_cons]
  have hmem : first ∈ plan.references := (sorted_perm plan.references).mem_iff.mp (hsorted ▸ List.mem_cons_self)
  obtain ⟨task, htask, href⟩ := List.mem_map.mp hmem
  have hfilter : task ∈ plan.tasks.filter (·.ref = plan.anchorRef) := by
    rw [List.mem_filter, hanchor]
    exact ⟨htask, decide_eq_true href⟩
  cases hlist : plan.tasks.filter (·.ref = plan.anchorRef) with
  | nil =>
    rw [hlist] at hfilter
    cases hfilter
  | cons anchor rest =>
    have hhead : anchor ∈ plan.tasks.filter (·.ref = plan.anchorRef) := hlist ▸ List.mem_cons_self
    refine ⟨anchor, rest ++ plan.tasks.filter (·.ref ≠ plan.anchorRef),
      by rw [Plan.creationOrder, hlist]; rfl, ?_⟩
    exact of_decide_eq_true (List.mem_filter.mp hhead).2

/-! ## Before the first change -/

theorem ends_validate_any {α : Type} {answer : Answer α} :
    Ends (validate answer) s (fun a t => answer = .ok a ∧ t = s)
    (fun _ t => t = s) := by
  unfold validate
  split
  · exact Ends.pure_iff.mpr ⟨rfl, rfl⟩
  · exact Ends.throw_iff.mpr rfl
  · exact Ends.throw_iff.mpr rfl

/-- The section that the environment names, as its witness task shows it. -/
structure SectionOf (service : Service) (env : Environment) (tasks : Tasks)
    (project sectionEnvironment witnessEnvironment inSection : String) : Prop where
  configured : requireVariable env sectionEnvironment = .ok inSection
  witness : ∃ witnessGid witness, requireVariable env witnessEnvironment = .ok witnessGid ∧
    tasks.get? witnessGid = some witness ∧
      (witness.sections.filter fun other => service.projectOf other = project ∧ other = inSection).length = 1

theorem ends_configuredBatchSection {project section_ witness label : String} :
    Ends (configuredBatchSection service env project section_ witness label) s
      (fun inSection t => Reading service s t ∧ SectionOf service env s.tasks project section_ witness inSection)
      (fun _ t => Reading service s t) := by
  refine Ends.bind_iff.mpr (ends_validate_any.mono ?_ fun e t h => h ▸ .refl)
  rintro inSection t ⟨hsection, rfl⟩
  refine Ends.bind_iff.mpr (ends_validate_any.mono ?_ fun e t h => h ▸ .refl)
  rintro witnessGid t ⟨hwitness, rfl⟩
  refine Ends.bind_iff.mpr (ends_readTask.mono ?_ fun e t h => h.2)
  rintro found t ⟨hget, hread, -⟩
  refine Ends.bind_iff.mpr (ends_validate_any.mono ?_ fun e t h => h ▸ hread)
  rintro _ t ⟨hone, rfl⟩
  rw [refuseIf_eq_ok, ne_eq, not_not] at hone
  exact Ends.pure_iff.mpr ⟨hread, hsection, witnessGid, found, hwitness, hget, hone⟩

/-- The section that tasks are released to, if the policy has one. -/
inductive ReadyForSpecOf (service : Service) (env : Environment) (tasks : Tasks) (project : String) :
    DeliveryPolicy → Option String → Prop
  | backlogOnly : ReadyForSpecOf service env tasks project .backlogOnly none
  | autonomousToPr {inSection : String} (h : SectionOf service env tasks project "ASANA_READY_FOR_SPEC_SECTION_GID"
      "ASANA_READY_FOR_SPEC_SECTION_WITNESS_TASK_GID" inSection) :
    ReadyForSpecOf service env tasks project .autonomousToPr (some inSection)

theorem ends_configuredReadyForSpec {project : String} {policy : DeliveryPolicy} :
    Ends (configuredReadyForSpec service env project policy) s
      (fun inSection t => Reading service s t ∧ ReadyForSpecOf service env s.tasks project policy inSection)
      (fun _ t => Reading service s t) := by
  unfold configuredReadyForSpec
  split
  · exact Ends.pure_iff.mpr ⟨.refl, .backlogOnly⟩
  · refine Ends.bind_iff.mpr (ends_configuredBatchSection.mono ?_ fun _ _ h => h)
    rintro inSection t ⟨hread, hsection⟩
    exact Ends.pure_iff.mpr ⟨hread, .autonomousToPr hsection⟩

/-- The tags of the workspace that the policies name. -/
structure TagsOf (service : Service) (workspace manualTag autoTag : String) : Prop where
  tags : ∃ tags, paginate 1000 (service.tags workspace) = .ok tags ∧
    authorizationTag tags DeliveryPolicy.backlogOnly.tag = .ok manualTag ∧
    authorizationTag tags DeliveryPolicy.autonomousToPr.tag = .ok autoTag

theorem ends_resolveAuthorizationTags {workspace : String} : Ends (resolveAuthorizationTags service workspace) s
    (fun found t => Reading service s t ∧ TagsOf service workspace found.1 found.2)
    (fun _ t => Reading service s t) := by
  have hnext : Reading service s s.next := .single .pass
  refine Ends.bind_iff.mpr (ends_fetch.mono ?_ fun e t h => h.2 ▸ hnext)
  rintro tags t ⟨rfl, rfl⟩
  refine Ends.bind_iff.mpr (ends_validate_any.mono ?_ fun e t h => h ▸ hnext)
  rintro tags t ⟨hpages, rfl⟩
  refine Ends.bind_iff.mpr (ends_validate_any.mono ?_ fun e t h => h ▸ hnext)
  rintro manualTag t ⟨hmanual, rfl⟩
  refine Ends.bind_iff.mpr (ends_validate_any.mono ?_ fun e t h => h ▸ hnext)
  rintro autoTag t ⟨hauto, rfl⟩
  exact Ends.pure_iff.mpr ⟨hnext, tags, hpages, hmanual, hauto⟩

/-- What the environment and the service say of the project. -/
structure Configured (service : Service) (env : Environment) (tasks : Tasks) (policy : DeliveryPolicy) (setup : Setup) :
    Prop where
  oauth : env.oauth = .ok ()
  project : requireProject env = .ok setup.project
  backlog : SectionOf service env tasks setup.project "ASANA_BACKLOG_SECTION_GID"
    "ASANA_BACKLOG_SECTION_WITNESS_TASK_GID" setup.backlog
  readyForSpec : ReadyForSpecOf service env tasks setup.project policy setup.readyForSpec
  tags : ∃ workspace, requireVariable env "ASANA_WORKSPACE_GID" = .ok workspace ∧
    TagsOf service workspace setup.manualTag setup.autoTag

theorem ends_configure {policy : DeliveryPolicy} : Ends (configure service env policy) s
    (fun setup t => Reading service s t ∧ Configured service env s.tasks policy setup)
    (fun _ t => Reading service s t) := by
  refine Ends.bind_iff.mpr (ends_validate_any.mono ?_ fun e t h => h ▸ .refl)
  rintro _ t ⟨hoauth, rfl⟩
  refine Ends.bind_iff.mpr (ends_validate_any.mono ?_ fun e t h => h ▸ .refl)
  rintro project t ⟨hproject, rfl⟩
  refine Ends.bind_iff.mpr (ends_validate_any.mono ?_ fun e t h => h ▸ .refl)
  rintro workspace t ⟨hworkspace, rfl⟩
  refine Ends.bind_iff.mpr (ends_configuredBatchSection.mono ?_ fun _ _ h => h)
  rintro backlog u ⟨htu, hbacklog⟩
  refine Ends.bind_iff.mpr (ends_configuredReadyForSpec.mono ?_ fun _ _ h => htu.trans h)
  rintro readyForSpec v ⟨huv, hready⟩
  refine Ends.bind_iff.mpr (ends_resolveAuthorizationTags.mono ?_ fun _ _ h => (htu.trans huv).trans h)
  rintro ⟨manualTag, autoTag⟩ w ⟨hvw, htags⟩
  rw [htu.tasks_eq] at hready
  exact Ends.pure_iff.mpr ⟨(htu.trans huv).trans hvw, hoauth, hproject, hbacklog, hready, workspace,
    hworkspace, htags⟩

def creationId (manifest : List (String × Json)) : String :=
  ((manifest.lookup "batch_creation_id").bind Json.asStr?).getD ""

/-- The plan is the one of the manifest and the configuration. -/
structure Plan.Of (service : Service) (env : Environment) (tasks : Tasks) (manifest : List (String × Json))
    (plan : Plan) : Prop where
  parsed : parseBatchManifest manifest = .ok (plan.deliveryPolicy, plan.tasks, plan.edges)
  creationId : plan.batchCreationId = creationId manifest
  configured : Configured service env tasks plan.deliveryPolicy plan.setup

theorem Plan.Of.valid {tasks : Tasks} {manifest : List (String × Json)} (h : plan.Of service env tasks manifest) :
    plan.Valid := by
  obtain ⟨hnodup, hne, hdeclared⟩ := parseBatchManifest_valid h.parsed
  exact ⟨hnodup, hne, hdeclared⟩

theorem ends_prepare {manifest : List (String × Json)} : Ends (prepare service env python manifest) s
    (fun result t => Reading service s t ∧ result.1.Of service env s.tasks manifest ∧
      Found service python result.1 s.tasks result.1.tasks result.2)
    (fun _ t => Reading service s t) := by
  refine Ends.bind_iff.mpr (ends_validate_any.mono ?_ fun e t h => h ▸ .refl)
  rintro ⟨policy, tasks, edges⟩ t ⟨hparsed, rfl⟩
  refine Ends.bind_iff.mpr (ends_configure.mono ?_ fun _ _ h => h)
  rintro setup t ⟨hread, hconfigured⟩
  refine Ends.bind_iff.mpr (ends_lookUpTasks.mono ?_ fun e u h => hread.trans h.2)
  rintro placed u ⟨hread', F⟩
  rw [hread.tasks_eq] at F
  exact Ends.pure_iff.mpr ⟨hread.trans hread', ⟨hparsed, rfl, hconfigured⟩, F⟩

/-! ## The report -/

/-- The task is reported with the gid. -/
def BatchReport.Names (report : BatchReport) (reference gid : String) : Prop :=
  ∃ created ∈ report.createdTasks, created.ref = reference ∧ created.gid = gid

/-- The task of the dependent has the task of the blocker among its dependencies. -/
def BatchReport.InPlace (report : BatchReport) (tasks : Tasks) (edge : String × String) : Prop :=
  ∃ dependent blocker stored, report.Names edge.1 dependent ∧ report.Names edge.2 blocker ∧
    tasks.get? dependent = some stored ∧ blocker ∈ stored.dependencies

/-- The report says of the tasks after the run what is so. -/
structure Truthful (service : Service) (python : Python) (plan : Plan) (before after : Tasks) (report : BatchReport) :
    Prop where
  /-- A new task is reported, or its identity is. -/
  new : ∀ gid stored, before.get? gid = none → after.get? gid = some stored → ∃ task ∈ plan.tasks,
    Carries python plan task stored ∧ (report.Names task.ref gid ∨
      plan.externalGid task ∈ report.unreconciledExternalIdentities.map UnreconciledIdentity.externalGid)
  carries : ∀ reference gid, report.Names reference gid → ∃ task ∈ plan.tasks, task.ref = reference ∧
    Holds python plan after task gid
  covered : ∀ reference gid, report.Names reference gid → ∃ r ∈ report.components, reference ∈ r.tasks
  settled : ∀ r ∈ report.components, ∀ reference ∈ r.tasks, ∀ gid, report.Names reference gid →
    gid ∈ r.unsafeTaskGids ∨
      Verified service plan after (plan.placeOf r.status).1 (plan.placeOf r.status).2 reference gid
  unsafeGids : ∀ r ∈ report.components, r.unsafeTaskGids ≠ [] → r.status = .authorizationStateUnsafe
  edges : ∀ r ∈ report.components, r.status.IsActive → ∀ edge ∈ componentEdges plan.edges r.tasks,
    report.InPlace after edge
  ok : report.ok = true → report.failedTasks = [] ∧
    (∀ task ∈ plan.tasks, ∃ gid, report.Names task.ref gid) ∧
    (∀ edge ∈ plan.edges, report.InPlace after edge) ∧ ∀ r ∈ report.components, r.status.IsActive

/-- The dependent was read, and had the task of the blocker among its dependencies. -/
def BatchReport.WasRead (report : BatchReport) (log : List Event) (edge : String × String) : Prop :=
  ∃ dependent blocker stored, report.Names edge.1 dependent ∧ report.Names edge.2 blocker ∧
    .read stored ∈ log ∧ stored.gid = dependent ∧ blocker ∈ stored.dependencies

/-- What the report says has been read. -/
structure ReadSo (service : Service) (plan : Plan) (s : Session) (report : BatchReport) : Prop where
  named : ∀ r ∈ report.components, ∀ reference ∈ r.tasks, ∃ gid, report.Names reference gid
  settled : ∀ r ∈ report.components, ∀ reference ∈ r.tasks, ∀ gid, report.Names reference gid →
    gid ∈ r.unsafeTaskGids ∨ Seen service plan s (plan.placeOf r.status).1 (plan.placeOf r.status).2 reference gid
  edges : ∀ r ∈ report.components, r.status.IsActive → ∀ edge ∈ componentEdges plan.edges r.tasks,
    report.WasRead s.log edge
  place : ∀ r ∈ report.components, r.status.IsActive →
    plan.placeOf r.status = (plan.targetSection, plan.selectedTag)

theorem gid?_eq_some_of_ref {reference : String} (h : reference ∈ placed.map Placed.ref) :
    ∃ gid, gid? placed reference = some gid := by
  obtain ⟨entry, hentry, rfl⟩ := List.mem_map.mp h
  cases hfind : placed.find? (·.ref = entry.ref) with
  | none => exact (List.find?_eq_none.mp hfind entry hentry (decide_eq_true rfl)).elim
  | some found => exact ⟨found.gid, by rw [gid?, hfind, Option.map_some]⟩

theorem mem_of_gid? {reference gid : String} (h : gid? placed reference = some gid) :
    ∃ entry ∈ placed, entry.ref = reference ∧ entry.gid = gid := by
  obtain ⟨entry, hfind, hgid⟩ := Option.map_eq_some_iff.mp h
  exact ⟨entry, List.mem_of_find?_eq_some hfind, by simpa using List.find?_some hfind, hgid⟩

theorem names_report {report : BatchReport} (hcreated : report.createdTasks = createdTasks plan placed)
    {reference gid : String} :
    report.Names reference gid ↔ reference ∈ plan.references ∧ gid? placed reference = some gid := by
  rw [BatchReport.Names, hcreated, createdTasks]
  constructor
  · rintro ⟨created, hmem, rfl, rfl⟩
    obtain ⟨task, htask, hcreated⟩ := List.mem_filterMap.mp hmem
    obtain ⟨entry, hfind, rfl⟩ := Option.map_eq_some_iff.mp hcreated
    exact ⟨List.mem_map_of_mem htask, by rw [gid?, hfind, Option.map_some]⟩
  · rintro ⟨href, hgid⟩
    obtain ⟨task, htask, rfl⟩ := List.mem_map.mp href
    obtain ⟨entry, hfind, rfl⟩ := Option.map_eq_some_iff.mp hgid
    exact ⟨_, List.mem_filterMap.mpr ⟨task, htask, by rw [hfind, Option.map_some]⟩, rfl, rfl⟩

theorem within_placed {c : Change} {reference gid : String} (hgid : gid? placed reference = some gid)
    (htarget : c.target? = some gid) : Within (placed.map Placed.gid) c := by
  obtain ⟨entry, hentry, -, rfl⟩ := mem_of_gid? hgid
  exact ⟨entry.gid, List.mem_map_of_mem hentry, htarget⟩

theorem About.within {component : List String} {c : Change} (h : About plan placed component c) :
    Within (placed.map Placed.gid) c := by
  obtain ⟨reference, -, gid, hgid, hsettles⟩ := h
  exact within_placed hgid hsettles.target

theorem Wires.within {c : Change} (h : Wires placed c) : Within (placed.map Placed.gid) c := by
  obtain ⟨reference, gid, hgid, _, _, -, rfl⟩ := h
  exact within_placed hgid rfl

/-- The dependencies stay while a component is settled. -/
theorem Reaches.dependencies {component : List String} (h : Reaches service (About plan placed component) s t) :
    s.tasks.Keeps StoredTask.dependencies t.tasks := by
  refine h.keeps_tasks (P := fun tasks => s.tasks.Keeps StoredTask.dependencies tasks) .refl
    fun tasks c hc _ hkeeps => hkeeps.trans fun gid stored hget => ?_
  obtain ⟨_, -, target, -, hsettles⟩ := hc
  rw [Change.get?_apply hsettles.target, hget]
  split
  · refine ⟨_, rfl, ?_⟩
    cases hsettles <;> rfl
  · exact ⟨stored, rfl, rfl⟩

/-- What is left after the creation loop. -/
structure Accounted (python : Python) (plan : Plan) (before after : Tasks) (p : Progress) : Prop where
  new : ∀ gid stored, before.get? gid = none → after.get? gid = some stored → ∃ task ∈ plan.tasks,
    Carries python plan task stored ∧ (gid? p.placed task.ref = some gid ∨
      plan.externalGid task ∈ p.unreconciled.map UnreconciledIdentity.externalGid)
  placements : Placements python plan after p.placed

theorem Placements.gid?_eq {tasks : Tasks} (h : Placements python plan tasks placed) {entry : Placed}
    (hentry : entry ∈ placed) : gid? placed entry.ref = some entry.gid := by
  obtain ⟨gid, hgid⟩ := gid?_eq_some_of_ref (List.mem_map_of_mem hentry)
  obtain ⟨other, hother, href, rfl⟩ := mem_of_gid? hgid
  rw [hgid, List.inj_on_of_nodup_map h.refs hother hentry href]

theorem Creating.accounted {A : Change → Prop} {before : Tasks} {p : Progress}
    (C : Creating python plan before p s.tasks) (h : Reaches service A s t)
    (hwithin : ∀ c, A c → Within (p.placed.map Placed.gid) c) : Accounted python plan before t.tasks p := by
  have hplacements := C.placements.keeps h.core
  refine ⟨fun gid stored hbefore hget => ?_, hplacements⟩
  cases hold : s.tasks.get? gid with
  | none =>
    rw [h.no_new hwithin gid hold] at hget
    cases hget
  | some stored' =>
    obtain ⟨_, hget', hcore⟩ := h.core gid stored' hold
    rw [hget, Option.some.injEq] at hget'
    subst hget'
    obtain ⟨task, htask, hcarries, hreported⟩ := C.fresh gid stored' hbefore hold
    refine ⟨task, htask, hcarries.of_core hcore, hreported.imp_left fun hmem => ?_⟩
    obtain ⟨entry, hentry, rfl⟩ := List.mem_map.mp hmem
    obtain ⟨other, -, href, stored'', hget', hcarries'⟩ := hplacements.holds entry hentry
    rw [hget, Option.some.injEq] at hget'
    subst hget'
    rw [(hcarries.of_core hcore).ref_eq hcarries', href]
    exact hplacements.gid?_eq hentry

theorem Accounted.new_named {before after : Tasks} {p : Progress} (H : Accounted python plan before after p)
    {report : BatchReport} (hcreated : report.createdTasks = createdTasks plan p.placed)
    (hlost : report.unreconciledExternalIdentities = p.unreconciled) :
    ∀ gid stored, before.get? gid = none → after.get? gid = some stored → ∃ task ∈ plan.tasks,
      Carries python plan task stored ∧ (report.Names task.ref gid ∨
        plan.externalGid task ∈ report.unreconciledExternalIdentities.map UnreconciledIdentity.externalGid) := by
  intro gid stored hbefore hget
  obtain ⟨task, htask, hcarries, hreported⟩ := H.new gid stored hbefore hget
  refine ⟨task, htask, hcarries, hreported.imp (fun hgid => ?_) fun hmem => hlost ▸ hmem⟩
  exact (names_report hcreated).mpr ⟨List.mem_map_of_mem htask, hgid⟩

theorem Accounted.carries {before after : Tasks} {p : Progress} (H : Accounted python plan before after p)
    {report : BatchReport} (hcreated : report.createdTasks = createdTasks plan p.placed) :
    ∀ reference gid, report.Names reference gid → ∃ task ∈ plan.tasks, task.ref = reference ∧
      Holds python plan after task gid := by
  intro reference gid hnames
  obtain ⟨entry, hentry, rfl, rfl⟩ := mem_of_gid? ((names_report hcreated).mp hnames).2
  exact H.placements.holds entry hentry

theorem known_of_refs {references : List String} (hplan : references ⊆ plan.references)
    (hplaced : references ⊆ placed.map Placed.ref) : Known plan placed references := by
  intro reference hmem
  refine ⟨gid?_eq_some_of_ref (hplaced hmem), ?_⟩
  obtain ⟨task, htask, href⟩ := List.mem_map.mp (hplan hmem)
  cases hfind : plan.tasks.find? (·.ref = reference) with
  | none => exact (List.find?_eq_none.mp hfind task htask (decide_eq_true href)).elim
  | some expected => exact ⟨expected, rfl⟩

theorem ends_partialReport {before : Tasks} {p : Progress} (C : Creating python plan before p s.tasks) :
    Ends (partialReport service env python plan p) s
      (fun report t => Reaches service (Safeguards plan p.placed plan.references) s t ∧
        Truthful service python plan before t.tasks report ∧ ReadSo service plan t report ∧
          report.failedTasks = p.failedTasks)
      (fun _ _ => False) := by
  unfold partialReport
  dsimp only
  have hwithin : ∀ c, Safeguards plan p.placed plan.references c → Within (p.placed.map Placed.gid) c :=
    fun c hc => hc.about.within
  have hcreated : ∀ reference gid, reference ∈ plan.references → gid? p.placed reference = some gid →
      reference ∈ (plan.tasks.map BatchTask.ref).filter fun reference => reference ∈ p.placed.map Placed.ref := by
    intro reference gid hplan hgid
    obtain ⟨entry, hentry, rfl, -⟩ := mem_of_gid? hgid
    exact List.mem_filter.mpr ⟨hplan, decide_eq_true (List.mem_map_of_mem hentry)⟩
  split
  · next hnone =>
    have H := C.accounted (@Relation.ReflTransGen.refl _ (Step service _) s) hwithin
    -- there is no component
    refine Ends.pure_iff.mpr ⟨.refl, ⟨H.new_named rfl rfl, H.carries rfl, fun reference gid hnames => ?_,
      fun _ hr => (List.not_mem_nil hr).elim, fun _ hr => (List.not_mem_nil hr).elim,
      fun _ hr => (List.not_mem_nil hr).elim, fun hok => (Bool.false_ne_true hok).elim⟩,
      ⟨fun _ hr => (List.not_mem_nil hr).elim, fun _ hr => (List.not_mem_nil hr).elim,
        fun _ hr => (List.not_mem_nil hr).elim, fun _ hr => (List.not_mem_nil hr).elim⟩, rfl⟩
    obtain ⟨hplan, hgid⟩ := (names_report rfl).mp hnames
    have hmem := hcreated reference gid hplan hgid
    rw [hnone] at hmem
    cases hmem
  · have hsubset : (plan.tasks.map BatchTask.ref).filter (fun reference => reference ∈ p.placed.map Placed.ref) ⊆
        plan.references := List.filter_subset_self _
    have hknown := known_of_refs hsubset fun reference hmem => of_decide_eq_true (List.mem_filter.mp hmem).2
    refine Ends.bind_iff.mpr ((ends_safeguardComponent hknown).mono ?_ fun _ _ h => h)
    rintro ⟨unsafeGids, failures⟩ t ⟨hreaches, hlisted⟩
    replace hreaches := hreaches.mono fun c hc => Safeguards.mono hc hsubset
    have H := C.accounted hreaches hwithin
    have hsettled := @settled_safeguarded service plan _ _ _ unsafeGids (plan.edges.map edgeText)
      .manualBacklogPartialCreate hlisted (by simp)
    -- the one component is not active
    have hinactive : ¬ ComponentStatus.IsActive
        (if unsafeGids = [] then .manualBacklogPartialCreate else .authorizationStateUnsafe) := by
      by_cases hnone : unsafeGids = [] <;> simp [hnone, ComponentStatus.IsActive]
    refine Ends.pure_iff.mpr ⟨hreaches,
      ⟨H.new_named rfl rfl, H.carries rfl, fun reference gid hnames => ?_, ?_, ?_, ?_,
        fun hok => (Bool.false_ne_true hok).elim⟩, ⟨?_, ?_, ?_, ?_⟩, rfl⟩
    · obtain ⟨hplan, hgid⟩ := (names_report rfl).mp hnames
      exact ⟨_, List.mem_singleton_self _, hcreated reference gid hplan hgid⟩
    · intro r hr reference hmem gid hnames
      obtain rfl := List.mem_singleton.mp hr
      exact (hsettled.listed reference hmem gid ((names_report rfl).mp hnames).2).imp_right Seen.verified
    · intro r hr
      obtain rfl := List.mem_singleton.mp hr
      exact hsettled.unsafeGids
    · intro r hr hactive
      obtain rfl := List.mem_singleton.mp hr
      exact (hinactive hactive).elim
    · intro r hr reference hmem
      obtain rfl := List.mem_singleton.mp hr
      obtain ⟨⟨gid, hgid⟩, -⟩ := hknown reference hmem
      exact ⟨gid, (names_report rfl).mpr ⟨hsubset hmem, hgid⟩⟩
    · intro r hr reference hmem gid hnames
      obtain rfl := List.mem_singleton.mp hr
      exact hsettled.listed reference hmem gid ((names_report rfl).mp hnames).2
    · intro r hr hactive
      obtain rfl := List.mem_singleton.mp hr
      exact (hinactive hactive).elim
    · intro r hr hactive
      obtain rfl := List.mem_singleton.mp hr
      exact (hinactive hactive).elim

/-- An edge that is found is one of a task that has been read. -/
theorem Confirmed.stored {blockers : List (String × List String)} {edge : String × String}
    (h : Confirmed placed blockers edge) (hback : ReadBack placed s blockers) :
    ∃ gid blocker stored, gid? placed edge.1 = some gid ∧ gid? placed edge.2 = some blocker ∧
      s.tasks.get? gid = some stored ∧ .read stored ∈ s.log ∧ blocker ∈ stored.dependencies := by
  obtain ⟨blocker, hblocker, hmem⟩ := h
  cases hlookup : blockers.lookup edge.1 with
  | none =>
    rw [hlookup] at hmem
    cases hmem
  | some gids =>
    rw [hlookup, Option.getD_some] at hmem
    obtain ⟨gid, stored, hgid, hget, hread, rfl⟩ := hback edge.1 gids hlookup
    exact ⟨gid, blocker, stored, hgid, hblocker, hget, hread, hmem⟩

/-- The edges that are found stay in place. -/
theorem Confirmed.inPlace {component : List String} {blockers : List (String × List String)}
    {edge : String × String} (h : Confirmed placed blockers edge) (hback : ReadBack placed s blockers)
    (hreaches : Reaches service (About plan placed component) s t) {report : BatchReport}
    (hcreated : report.createdTasks = createdTasks plan placed) (hplan : edge.1 ∈ plan.references)
    (hplan' : edge.2 ∈ plan.references) : report.InPlace t.tasks edge ∧ report.WasRead t.log edge := by
  obtain ⟨gid, blocker, stored, hgid, hblocker, hget, hread, hmem⟩ := h.stored hback
  obtain ⟨stored', hget', hsame⟩ := hreaches.dependencies gid stored hget
  have hdependent : report.Names edge.1 gid := (names_report hcreated).mpr ⟨hplan, hgid⟩
  have hnamed : report.Names edge.2 blocker := (names_report hcreated).mpr ⟨hplan', hblocker⟩
  exact ⟨⟨gid, blocker, stored', hdependent, hnamed, hget', hsame ▸ hmem⟩,
    gid, blocker, stored, hdependent, hnamed, hreaches.log_subset hread, KeyedTable.key_of_get? hget, hmem⟩

/-- The requests of a run. -/
inductive Plan.Requests (python : Python) (plan : Plan) : Change → Prop
  | create {task : BatchTask} (h : task ∈ plan.tasks) : Requests python plan (.create (plan.newTask python task))
  | settle {gid : String} {c : Change} (h : plan.Settles gid c) : Requests python plan c
  | addDependencies {gid blocker : String} (h : isGid blocker = true) :
      Requests python plan (.addDependencies gid [blocker])

/-- The requests about tasks that are placed. -/
def OfPlaced (python : Python) (plan : Plan) (placed : List Placed) (c : Change) : Prop :=
  Within (placed.map Placed.gid) c ∧ plan.Requests python c

theorem About.ofPlaced {component : List String} {c : Change} (h : About plan placed component c) :
    OfPlaced python plan placed c := by
  obtain ⟨_, -, _, -, hsettles⟩ := id h
  exact ⟨h.within, .settle hsettles⟩

theorem Wires.ofPlaced {c : Change} (hgids : ∀ entry ∈ placed, isGid entry.gid = true) (h : Wires placed c) :
    OfPlaced python plan placed c := by
  obtain ⟨_, _, -, _, _, hblocker, rfl⟩ := id h
  obtain ⟨entry, hentry, -, rfl⟩ := mem_of_gid? hblocker
  exact ⟨h.within, .addDependencies (hgids entry hentry)⟩

theorem ends_wiredReport {before : Tasks} {p : Progress} (hvalid : plan.Valid)
    (C : Creating python plan before p s.tasks) (hcomplete : ∀ task ∈ plan.tasks, task.ref ∈ p.refs)
    (hdone : p.failedTasks = []) : Ends (wiredReport service env python plan p) s
      (fun report t => Reaches service (OfPlaced python plan p.placed) s t ∧
        Truthful service python plan before t.tasks report ∧ ReadSo service plan t report ∧
          report.failedTasks = p.failedTasks)
      (fun _ _ => False) := by
  have hrefs : plan.references ⊆ p.placed.map Placed.ref := by
    intro reference hmem
    obtain ⟨task, htask, rfl⟩ := List.mem_map.mp hmem
    exact hcomplete task htask
  have hplaced : ∀ reference ∈ plan.references, ∃ gid, gid? p.placed reference = some gid :=
    fun reference hmem => gid?_eq_some_of_ref (hrefs hmem)
  have hlinked : Linked p.placed plan.edges := fun edge hedge =>
    ⟨hplaced _ (hvalid.declared edge hedge).1, hplaced _ (hvalid.declared edge hedge).2⟩
  have P := connectedComponents_partition hvalid.nodup hvalid.declared
  have hparts : ∀ part ∈ connectedComponents plan.references plan.edges, part ⊆ plan.references :=
    fun part hpart reference hmem => P.perm.mem_iff.mp (List.mem_flatten.mpr ⟨part, hpart, hmem⟩)
  refine Ends.bind_iff.mpr ((ends_addDependencies hlinked).mono ?_ fun _ _ h => h)
  intro writeFailures t hst
  refine Ends.bind_iff.mpr ((ends_verifyDependencies fun dependent hmem => ?_).mono ?_ fun _ _ h => h)
  · obtain ⟨edge, hedge, rfl⟩ := List.mem_map.mp (List.mem_eraseDups.mp hmem)
    exact (hlinked edge hedge).1
  rintro ⟨blockers, verificationFailures⟩ u ⟨hread, hback⟩
  refine Ends.bind_iff.mpr ((ends_classifyEdges hlinked).mono ?_ fun _ _ h => h)
  rintro ⟨verified, missing⟩ _ ⟨rfl, hedges⟩
  have hinj : ∀ entry ∈ p.placed, ∀ other ∈ p.placed, entry.gid = other.gid → entry = other :=
    fun entry hentry other hother => C.placements.gid_inj hentry hother
  refine Ends.bind_iff.mpr ((ends_settleComponents hinj (P.disjoint hvalid.nodup) fun part hpart =>
    known_of_refs (hparts part hpart) (List.Subset.trans (hparts part hpart) hrefs)).mono ?_ fun _ _ h => h)
  rintro ⟨components, failures⟩ v ⟨htasks, huv, hturned⟩
  have hwired : Reaches service (OfPlaced python plan p.placed) s v :=
    ((hst.mono fun _ => Wires.ofPlaced C.placements.gids).trans (hread.mono fun _ hfalse => hfalse.elim)).trans
      (huv.mono fun _ => About.ofPlaced)
  have H := C.accounted hwired fun _ hc => hc.1
  have hinPlace : ∀ {report : BatchReport}, report.createdTasks = createdTasks plan p.placed →
    ∀ edge ∈ plan.edges,
      edge ∉ missing.map Prod.fst → report.InPlace v.tasks edge ∧ report.WasRead v.log edge := by
    intro report hcreated edge hedge hfound
    obtain ⟨hdependent, hblocker⟩ := hvalid.declared edge hedge
    exact ((hedges edge hedge).resolve_left hfound).inPlace hback huv hcreated hdependent hblocker
  refine Ends.pure_iff.mpr ⟨hwired, ⟨H.new_named rfl rfl, H.carries rfl, fun reference gid hnames => ?_,
    fun r hr reference hmem gid hnames => ?_, fun r hr => (hturned r hr).settled.unsafeGids,
    fun r hr hactive edge hedge => ?_, fun hok => ?_⟩, ⟨fun r hr reference hmem => ?_,
    fun r hr reference hmem gid hnames => ?_, fun r hr hactive edge hedge => ?_,
    fun r hr => (hturned r hr).place⟩, rfl⟩
  · have hmem := P.perm.mem_iff.mpr ((names_report rfl).mp hnames).1
    obtain ⟨part, hpart, hmem⟩ := List.mem_flatten.mp hmem
    rw [← htasks] at hpart
    obtain ⟨r, hr, rfl⟩ := List.mem_map.mp hpart
    exact ⟨r, hr, hmem⟩
  · exact ((hturned r hr).settled.listed reference hmem gid
      ((names_report rfl).mp hnames).2).imp_right Seen.verified
  · exact (hinPlace rfl edge (List.mem_filter.mp hedge).1 ((hturned r hr).active hactive edge hedge)).1
  · obtain ⟨hmissing, hcomponents⟩ := (Bool.and_eq_true _ _).mp hok
    rw [List.isEmpty_iff] at hmissing
    refine ⟨hdone, fun task htask => ?_, fun edge hedge => (hinPlace rfl edge hedge (by simp [hmissing])).1,
      fun r hr => ?_⟩
    · obtain ⟨gid, hgid⟩ := hplaced task.ref (List.mem_map_of_mem htask)
      exact ⟨gid, (names_report rfl).mpr ⟨List.mem_map_of_mem htask, hgid⟩⟩
    · simpa [ComponentStatus.IsActive] using List.all_eq_true.mp hcomponents r hr
  · have hpart : r.tasks ∈ connectedComponents plan.references plan.edges := htasks ▸ List.mem_map_of_mem hr
    obtain ⟨gid, hgid⟩ := hplaced reference (hparts _ hpart hmem)
    exact ⟨gid, (names_report rfl).mpr ⟨hparts _ hpart hmem, hgid⟩⟩
  · exact (hturned r hr).settled.listed reference hmem gid ((names_report rfl).mp hnames).2
  · exact (hinPlace rfl edge (List.mem_filter.mp hedge).1 ((hturned r hr).active hactive edge hedge)).2

/-! ## Runs -/

/-- The requests of a creation that stays partial. -/
def Plan.Harmless (python : Python) (plan : Plan) (c : Change) : Prop :=
  (∃ task ∈ plan.tasks, c = .create (plan.newTask python task)) ∨ ∃ gid, c = .addTask plan.setup.backlog gid ∨
    c = .removeTag plan.setup.autoTag gid ∨ c = .addTag plan.setup.manualTag gid

theorem Plan.Creation.harmless {c : Change} (h : plan.Creation python c) : plan.Harmless python c := by
  obtain htask | ⟨gid, rfl⟩ := h
  · exact .inl htask
  · exact .inr ⟨gid, .inl rfl⟩

theorem Plan.Creation.requests {c : Change} (h : plan.Creation python c) : plan.Requests python c := by
  obtain ⟨task, htask, rfl⟩ | ⟨gid, rfl⟩ := h
  · exact .create htask
  · exact .settle (.addTask (.inl rfl))

theorem Safeguards.harmless {references : List String} {c : Change} (h : Safeguards plan placed references c) :
    plan.Harmless python c := by
  obtain ⟨_, -, gid, -, hc⟩ := h
  exact .inr ⟨gid, hc⟩

/-- What a run that returns has done. -/
structure Ran (service : Service) (python : Python) (plan : Plan) (report : BatchReport) (s t : Session) : Prop where
  truthful : Truthful service python plan s.tasks t.tasks report
  readSo : ReadSo service plan t report
  core : s.tasks.Keeps StoredTask.core t.tasks
  /-- The tasks that are not of the batch stay. -/
  frame : ∀ gid stored, s.tasks.get? gid = some stored →
    (∀ task ∈ plan.tasks, ¬ Carries python plan task stored) →
    t.tasks.get? gid = some stored
  harmless : report.failedTasks ≠ [] → Reaches service (plan.Harmless python) s t
  requests : Reaches service (plan.Requests python) s t
  unique : Unique s.tasks → Unique t.tasks
  anchored : ∀ gid stored, s.tasks.get? gid = none → t.tasks.get? gid = some stored → Anchored python plan t.tasks

theorem StoredTask.externalGid?_of_core {task other : StoredTask} (h : task.core = other.core) :
    task.externalGid? = other.externalGid? := by
  simp only [StoredTask.core, Prod.mk.injEq] at h
  rw [StoredTask.externalGid?, StoredTask.externalGid?, h.2.2.2.1]

theorem Unique.reaches {A : Change → Prop} {gids : List String} (h : Unique s.tasks)
    (hreaches : Reaches service A s t)
    (hwithin : ∀ c, A c → Within gids c) : Unique t.tasks := by
  have hold : ∀ gid stored, t.tasks.get? gid = some stored →
      ∃ stored', s.tasks.get? gid = some stored' ∧ stored'.externalGid? = stored.externalGid? := by
    intro gid stored hget
    cases hbefore : s.tasks.get? gid with
    | none =>
      rw [hreaches.no_new hwithin gid hbefore] at hget
      cases hget
    | some stored' =>
      obtain ⟨_, hget', hcore⟩ := hreaches.core gid stored' hbefore
      cases hget.symm.trans hget'
      exact ⟨stored', rfl, (StoredTask.externalGid?_of_core hcore).symm⟩
  intro gid gid' stored stored' hget hget' external hexternal hexternal'
  obtain ⟨first, hfirst, hsame⟩ := hold gid stored hget
  obtain ⟨second, hsecond, hsame'⟩ := hold gid' stored' hget'
  exact h gid gid' first second hfirst hsecond external (hsame.trans hexternal) (hsame'.trans hexternal')

/-- What the creation loop establishes, and then requests about the tasks that are placed. -/
theorem Creating.ran {p : Progress} {u : Session} {report : BatchReport}
    (C : Creating python plan s.tasks p t.tasks) (hst : Reaches service (plan.Creation python) s t)
    (htu : Reaches service (OfPlaced python plan p.placed) t u)
    (htruthful : Truthful service python plan s.tasks u.tasks report) (hreadSo : ReadSo service plan u report)
    (hharmless : report.failedTasks ≠ [] → Reaches service (plan.Harmless python) t u) :
    Ran service python plan report s u := by
  have hcreation := hst.mono fun c (hc : plan.Creation python c) => hc.harmless
  refine ⟨htruthful, hreadSo, hst.core.trans htu.core, fun gid stored hget hother => ?_, fun hfailed =>
    hcreation.trans (hharmless hfailed), (hst.mono fun _ hc => hc.requests).trans (htu.mono fun _ hc => hc.2),
    fun hunique => (C.unique hunique).reaches htu fun _ hc => hc.1, fun gid stored hbefore hget => ?_⟩
  · have hkept := C.kept gid stored hget
    refine (htu.frame (fun _ hc => hc.1) gid fun hmem => ?_).trans hkept
    obtain ⟨entry, hentry, rfl⟩ := List.mem_map.mp hmem
    obtain ⟨task, htask, -, stored', hget', hcarries⟩ := C.placements.holds entry hentry
    cases hkept.symm.trans hget'
    exact hother task htask hcarries
  · cases hold : t.tasks.get? gid with
    | none =>
      rw [htu.no_new (fun _ hc => hc.1) gid hold] at hget
      cases hget
    | some stored' => exact (C.anchored gid stored' hbefore hold).keeps htu.core

theorem Found.creating (hvalid : plan.Valid) (F : Found service python plan s.tasks plan.tasks placed) :
    Creating python plan s.tasks { placed := placed } s.tasks := by
  refine ⟨⟨hvalid.nodup.sublist F.refs, F.gids, F.holds⟩, fun _ _ h => h, ?_, ?_, id⟩
  · intro gid stored hbefore hget
    rw [hbefore] at hget
    cases hget
  · intro gid stored hbefore hget
    rw [hbefore] at hget
    cases hget

theorem ends_createAndWire (hvalid : plan.Valid) (F : Found service python plan s.tasks plan.tasks placed) :
    Ends (createAndWire service env python plan placed) s (fun report t => Ran service python plan report s t)
      (fun _ _ => False) := by
  have hmem : ∀ task, task ∈ plan.creationOrder ↔ task ∈ plan.tasks := fun task => creationOrder_perm.mem_iff
  have hmissing : Missing plan { placed := placed } s.tasks plan.creationOrder := fun task htask hnot =>
    F.missing task ((hmem task).mp htask) hnot
  have hnodup : (plan.creationOrder.map BatchTask.ref).Nodup := (creationOrder_perm.map _).nodup_iff.mpr hvalid.nodup
  refine Ends.bind_iff.mpr ((ends_createTasks (F.creating hvalid) hmissing hnodup (fun task => (hmem task).mp)
    (.inr (creationOrder_anchor hvalid))).mono ?_ fun _ _ h => h)
  intro p t C
  split
  · next hdone =>
    have hcomplete : ∀ task ∈ plan.tasks, task.ref ∈ p.refs := fun task htask =>
      C.complete hdone task ((hmem task).mpr htask)
    refine (ends_wiredReport hvalid C.creating hcomplete hdone).mono ?_ fun _ _ h => h
    rintro report u ⟨hreaches, htruthful, hreadSo, hfailed⟩
    exact C.creating.ran C.reaches hreaches htruthful hreadSo fun hne => (hne (hfailed.trans hdone)).elim
  · refine (ends_partialReport C.creating).mono ?_ fun _ _ h => h
    rintro report u ⟨hreaches, htruthful, hreadSo, -⟩
    exact C.creating.ran C.reaches (hreaches.mono fun _ hc => hc.about.ofPlaced) htruthful hreadSo fun _ =>
      hreaches.mono fun _ hc => hc.harmless

theorem ends_createBatch {manifest : List (String × Json)} : Ends (createBatch service env python manifest) s
    (fun report t => ∃ plan : Plan, plan.Of service env s.tasks manifest ∧ Ran service python plan report s t)
    (fun _ t => Reading service s t) := by
  refine Ends.bind_iff.mpr (ends_prepare.mono ?_ fun _ _ h => h)
  rintro ⟨plan, placed⟩ t ⟨hread, hof, F⟩
  have hsame := hread.tasks_eq
  rw [← hsame] at F
  refine (ends_createAndWire hof.valid F).mono ?_ fun _ _ h => h.elim
  intro report u hran
  have hbefore : Reaches service (plan.Harmless python) s t := hread.mono fun _ hfalse => hfalse.elim
  refine ⟨plan, hof, ?_, hran.readSo, ?_, ?_, fun hfailed => hbefore.trans (hran.harmless hfailed),
    (hread.mono fun _ hfalse => hfalse.elim).trans hran.requests, ?_, ?_⟩
  · exact hsame ▸ hran.truthful
  · exact hsame ▸ hran.core
  · exact hsame ▸ hran.frame
  · exact hsame ▸ hran.unique
  · exact hsame ▸ hran.anchored

theorem Reading.requests_nothing (h : Reading service s t) : t.tasks = s.tasks ∧
    ∃ events, t.log = s.log ++ events ∧ ∀ event ∈ events, event.change? = none := by
  obtain ⟨events, hlog, hevents⟩ := h.log
  exact ⟨h.tasks_eq, events, hlog, fun event hevent => Option.eq_none_iff_forall_ne_some.mpr (hevents event hevent)⟩

/-- **A partial batch writes no dependency and no autonomous tag.** -/
theorem createBatch_partial (manifest : List (String × Json)) : Ends (createBatch service env python manifest) s
    (fun report t => report.failedTasks ≠ [] → ∃ plan : Plan, plan.Of service env s.tasks manifest ∧
      ∃ events, t.log = s.log ++ events ∧
        ∀ event ∈ events, ∀ change, event.change? = some change → plan.Harmless python change)
    (fun _ _ => True) := by
  refine ends_createBatch.mono ?_ fun _ _ _ => trivial
  rintro report t ⟨plan, hof, hran⟩ hfailed
  exact ⟨plan, hof, (hran.harmless hfailed).log⟩

/-- The status of the component says how the task was read, and nothing has changed it since. -/
def SeenAs (service : Service) (plan : Plan) (t : Session) (report : BatchReport) (r : ComponentReport)
    (reference gid : String) : Prop :=
  report.Names reference gid ∧ Seen service plan t (plan.placeOf r.status).1 (plan.placeOf r.status).2 reference gid

/-- What the report of a run promises. -/
structure Closed (service : Service) (python : Python) (plan : Plan) (before : Tasks) (report : BatchReport)
    (t : Session) : Prop where
  /-- The edges and the tasks of a component that is ready have been read back. -/
  ready : ∀ r ∈ report.components, r.status = .readyForSpec →
    (∀ edge ∈ componentEdges plan.edges r.tasks, report.WasRead t.log edge) ∧
      ∀ reference ∈ r.tasks, ∃ gid, SeenAs service plan t report r reference gid
  /-- After a creation that stays partial, no dependency and no autonomous tag is written. -/
  harmless : report.failedTasks ≠ [] → ∀ event ∈ t.log, ∀ change, event.change? = some change →
    plan.Harmless python change
  /-- A new task is as the status of its component says, or it is listed as unsafe, or its identity is listed. -/
  accounted : ∀ gid stored, before.get? gid = none → t.tasks.get? gid = some stored →
    (∃ r ∈ report.components, gid ∈ r.unsafeTaskGids ∨
      ∃ reference ∈ r.tasks, SeenAs service plan t report r reference gid) ∨
    ∃ identity ∈ report.unreconciledExternalIdentities, stored.externalGid? = some identity.externalGid
  /-- Every task, every edge and every component is verified. -/
  ok : report.ok = true → report.failedTasks = [] ∧
    (∀ task ∈ plan.tasks, ∃ r ∈ report.components, task.ref ∈ r.tasks ∧
      ∃ gid, SeenAs service plan t report r task.ref gid) ∧
    (∀ edge ∈ plan.edges, report.WasRead t.log edge) ∧ ∀ r ∈ report.components, r.status.IsActive

/-- The tasks of an active component have been read as its status says. -/
theorem Ran.seenAs {report : BatchReport} (h : Ran service python plan report s t) {r : ComponentReport}
    (hr : r ∈ report.components) (hactive : r.status.IsActive) {reference gid : String} (hmem : reference ∈ r.tasks)
    (hnames : report.Names reference gid) : SeenAs service plan t report r reference gid := by
  refine ⟨hnames, (h.readSo.settled r hr reference hmem gid hnames).resolve_left fun hlisted => ?_⟩
  -- only the component of an unsafe status lists tasks
  have hstatus := h.truthful.unsafeGids r hr (List.ne_nil_of_mem hlisted)
  rw [hstatus] at hactive
  rcases hactive with hready | hmanual
  · cases hready
  · cases hmanual

theorem Ran.accounted {report : BatchReport} (h : Ran service python plan report s t) {gid : String}
    {stored : StoredTask} (hnew : s.tasks.get? gid = none) (hget : t.tasks.get? gid = some stored) :
    (∃ r ∈ report.components, gid ∈ r.unsafeTaskGids ∨
      ∃ reference ∈ r.tasks, SeenAs service plan t report r reference gid) ∨
    ∃ identity ∈ report.unreconciledExternalIdentities, stored.externalGid? = some identity.externalGid := by
  obtain ⟨task, -, hcarries, hnames | hunreconciled⟩ := h.truthful.new gid stored hnew hget
  · obtain ⟨r, hr, hmem⟩ := h.truthful.covered task.ref gid hnames
    refine .inl ⟨r, hr, (h.readSo.settled r hr task.ref hmem gid hnames).imp_right fun hseen => ?_⟩
    exact ⟨task.ref, hmem, hnames, hseen⟩
  · obtain ⟨identity, hidentity, hexternal⟩ := List.mem_map.mp hunreconciled
    refine .inr ⟨identity, hidentity, ?_⟩
    rw [StoredTask.externalGid?, hcarries.external, hexternal]
    rfl

theorem Ran.closed {report : BatchReport} (h : Ran service python plan report s t) (hvalid : plan.Valid)
    (hlog : s.log = []) : Closed service python plan s.tasks report t := by
  refine ⟨fun r hr hready => ⟨h.readSo.edges r hr (.inl hready), fun reference hmem => ?_⟩, fun hfailed => ?_,
    fun gid stored => h.accounted, fun hok => ?_⟩
  · obtain ⟨gid, hnames⟩ := h.readSo.named r hr reference hmem
    exact ⟨gid, h.seenAs hr (.inl hready) hmem hnames⟩
  · obtain ⟨events, hevents, hharmless⟩ := (h.harmless hfailed).log
    rw [hevents, hlog, List.nil_append]
    exact hharmless
  · obtain ⟨hfailed, hnamed, -, hactive⟩ := h.truthful.ok hok
    refine ⟨hfailed, fun task htask => ?_, fun edge hedge => ?_, hactive⟩
    · obtain ⟨gid, hnames⟩ := hnamed task htask
      obtain ⟨r, hr, hmem⟩ := h.truthful.covered task.ref gid hnames
      exact ⟨r, hr, hmem, gid, h.seenAs hr (hactive r hr) hmem hnames⟩
    · -- the component of the dependent has the edge
      obtain ⟨task, htask, href⟩ := List.mem_map.mp (hvalid.declared edge hedge).1
      obtain ⟨gid, hnames⟩ := hnamed task htask
      obtain ⟨r, hr, hmem⟩ := h.truthful.covered task.ref gid hnames
      refine h.readSo.edges r hr (hactive r hr) edge (List.mem_filter.mpr ⟨hedge, ?_⟩)
      rw [href] at hmem
      simp [hmem]

end Batch
end Asana
end FlashyFactory
