import FlashyFactory.Asana.BatchHistory

/-! # A batch on a service that answers

When every request is answered, a run that gets past its preparation creates what is missing, writes every
edge and authorizes every component: its report is `ok`. -/

namespace FlashyFactory
namespace Asana
namespace Batch

variable {service : Service} {env : Environment} {python : Python} {plan : Plan} {s t : Session}
variable {placed : List Placed} {component : List String} {inSection tag reference gid : String}

/-! ## Requests that are answered -/

def Answers (s : Session) : Prop := ∀ n, s.fates n = .answered

theorem ends_send_answers {change : Change} (h : Answers s) (hfinds : change.finds s.tasks = true) :
    Ends (send service change) s (fun gid t => Answers t ∧ gid = change.gid service s.tasks ∧
      t.tasks = change.apply service s.tasks) (fun _ _ => False) := by
  have hsend : send service change s = .ok (change.gid service s.tasks) (s.next.apply service change) := by
    simp [send, h 0, hfinds]
  exact (Ends.ok_iff hsend).mpr ⟨fun n => h (n + 1), rfl, rfl⟩

theorem ends_mutate_answers {change : Change} (h : Answers s) (hfinds : change.finds s.tasks = true) :
    Ends (mutate service change) s (fun _ t => Answers t ∧ t.tasks = change.apply service s.tasks)
      (fun _ _ => False) := by
  refine Ends.bind_iff.mpr ((ends_send_answers h hfinds).mono ?_ fun _ _ h => h)
  rintro gid t ⟨hanswers, -, htasks⟩
  exact Ends.pure_iff.mpr ⟨hanswers, htasks⟩

theorem ends_readTask_answers {task : StoredTask} (h : Answers s) (hget : s.tasks.get? gid = some task) :
    Ends (readTask gid) s (fun found t => Answers t ∧ found = task ∧ t.tasks = s.tasks) (fun _ _ => False) := by
  have hread : readTask gid s = .ok task (s.next.note (.read task)) := by
    have hfetch : fetch (·.get? gid) s = .ok (some task) s.next := by simp [fetch, h 0, hget]
    change EStateM.bind _ _ s = _
    rw [EStateM.bind, hfetch]
    rfl
  exact (Ends.ok_iff hread).mpr ⟨fun n => h (n + 1), rfl, rfl⟩

theorem ends_validate_ok {α : Type} {answer : Answer α} {a : α} (h : answer = .ok a) :
    Ends (validate answer) s (fun b t => b = a ∧ t = s) (fun _ _ => False) := by
  subst h
  exact Ends.pure_iff.mpr ⟨rfl, rfl⟩

theorem ends_catch_ok {α : Type} {x : Client α} {Q : α → Session → Prop} (h : Ends x s Q fun _ _ => False) :
    Ends (catchClientError x) s (fun result t => ∃ a, result = .ok a ∧ Q a t) (fun _ _ => False) := by
  refine ends_catch_iff.mpr (h.mono (fun a t hQ => ⟨a, rfl, hQ⟩) ?_)
  exact fun _ _ hfalse => hfalse.elim

theorem ends_tryRequest_answers {operation : String} {request : Client Unit} {Q : Session → Prop}
    (h : Ends request s (fun _ t => Q t) fun _ _ => False) :
    Ends (tryRequest env operation request) s (fun failures t => failures = [] ∧ Q t) (fun _ _ => False) := by
  refine Ends.bind_iff.mpr ((ends_catch_ok h).mono ?_ fun _ _ h => h)
  rintro _ t ⟨a, rfl, hQ⟩
  exact Ends.pure_iff.mpr ⟨rfl, hQ⟩

/-! ## Every task -/

/-- Every task is as required, given its gid. -/
def Each (I : String → StoredTask → Prop) (tasks : Tasks) : Prop :=
  ∀ gid stored, tasks.get? gid = some stored → I gid stored

theorem Each.apply {I : String → StoredTask → Prop} {tasks : Tasks} {c : Change} (h : Each I tasks)
    (htarget : c.target? = some gid) (hI : ∀ stored, I gid stored → I gid (c.update service stored)) :
    Each I (c.apply service tasks) := by
  intro other stored hget
  rw [Change.get?_apply htarget] at hget
  split at hget
  · next hsame =>
    subst hsame
    obtain ⟨before, hbefore, rfl⟩ := Option.map_eq_some_iff.mp hget
    exact hI before (h other before hbefore)
  · exact h other stored hget

/-- The tasks that exist. -/
def Existing (tasks : Tasks) (gids : List String) : Prop := ∀ gid ∈ gids, ∃ stored, tasks.get? gid = some stored

theorem Existing.apply {tasks : Tasks} {gids : List String} (h : Existing tasks gids) (c : Change) :
    Existing (c.apply service tasks) gids := by
  intro gid hmem
  obtain ⟨stored, hget⟩ := h gid hmem
  obtain ⟨stored', hget', -⟩ := @Change.keeps_apply service c tasks gid stored hget
  exact ⟨stored', hget'⟩

theorem finds_of_target {tasks : Tasks} {c : Change} {stored : StoredTask} (htarget : c.target? = some gid)
    (hget : tasks.get? gid = some stored) : c.finds tasks = true := by
  cases c <;> cases htarget <;> simp [Change.finds, hget]

/-- What a loop over the tasks of a component establishes of each of them. -/
theorem ends_mutateAll_answers {change : String → Change} (htarget : ∀ gid, (change gid).target? = some gid)
    {I : String → StoredTask → Prop} {P : StoredTask → Prop}
    (hI : ∀ gid stored, I gid stored → I gid ((change gid).update service stored))
    (hP : ∀ gid ∈ component.filterMap (gid? placed), ∀ stored, I gid stored →
      P ((change gid).update service stored))
    (hplaced : ∀ reference ∈ component, ∃ gid, gid? placed reference = some gid) (hanswers : Answers s)
    (hexisting : Existing s.tasks (placed.map Placed.gid)) (heach : Each I s.tasks) :
    Ends (mutateAll service placed change component) s
      (fun _ t => Answers t ∧ Existing t.tasks (placed.map Placed.gid) ∧
        Each (fun gid stored => I gid stored ∧ (gid ∈ component.filterMap (gid? placed) → P stored)) t.tasks)
      (fun _ _ => False) := by
  induction component generalizing s I with
  | nil => exact Ends.pure_iff.mpr ⟨hanswers, hexisting, fun gid stored hget => ⟨heach gid stored hget, nofun⟩⟩
  | cons reference component ih =>
    obtain ⟨gid, hgid⟩ := hplaced reference List.mem_cons_self
    obtain ⟨entry, hentry, -, rfl⟩ := mem_of_gid? hgid
    obtain ⟨stored, hget⟩ := hexisting _ (List.mem_map_of_mem hentry)
    rw [List.filterMap_cons_some hgid] at hP ⊢
    rw [List.forall_mem_cons] at hP
    rw [mutateAll, gidOf_eq hgid]
    refine Ends.bind_iff.mpr (Ends.pure_iff.mpr (Ends.bind_iff.mpr ?_))
    refine (ends_mutate_answers hanswers (finds_of_target (htarget _) hget)).mono ?_ fun _ _ h => h
    rintro _ t ⟨hanswers, htasks⟩
    -- what is established of the first task is kept from here on
    let J : String → StoredTask → Prop := fun gid stored => I gid stored ∧ (gid = entry.gid → P stored)
    have hJ : ∀ gid stored, J gid stored → J gid ((change gid).update service stored) := by
      refine fun gid stored hstored => ⟨hI gid stored hstored.1, ?_⟩
      rintro rfl
      exact hP.1 stored hstored.1
    have heach' : Each J t.tasks := by
      rw [htasks]
      intro other stored hget
      rw [Change.get?_apply (htarget entry.gid)] at hget
      split at hget
      · next hsame =>
        obtain ⟨before, hbefore, rfl⟩ := Option.map_eq_some_iff.mp hget
        subst hsame
        exact ⟨hI _ _ (heach _ _ hbefore), fun _ => hP.1 _ (heach _ _ hbefore)⟩
      · next hother => exact ⟨heach other stored hget, fun hsame => (hother hsame).elim⟩
    refine (ih hJ (fun gid hmem stored hstored => hP.2 gid hmem stored hstored.1)
      (fun other hother => hplaced other (List.mem_cons_of_mem _ hother)) hanswers
      (htasks ▸ hexisting.apply _) heach').mono ?_ fun _ _ h => h
    rintro _ u ⟨hanswers, hexisting, heach⟩
    refine ⟨hanswers, hexisting, fun gid stored hget => ?_⟩
    obtain ⟨⟨hstored, hfirst⟩, hrest⟩ := heach gid stored hget
    exact ⟨hstored, fun hmem => (List.mem_cons.mp hmem).elim hfirst hrest⟩

/-! ## Tasks in their sections -/

/-- The task is in a section of the batch, with its custom fields. -/
structure Sited (plan : Plan) (expected : BatchTask) (stored : StoredTask) : Prop where
  fields : stored.hasFields (expected.customFields.getD []) = true
  sections : ∃ inSection ∈ plan.setup.allowedExisting, stored.sections = [inSection]

/-- The sections of the batch are sections of its project. -/
structure Plan.Sectioned (service : Service) (plan : Plan) : Prop where
  project : ∀ inSection ∈ plan.setup.allowedExisting, service.projectOf inSection = plan.setup.project
  target : plan.targetSection ∈ plan.setup.allowedExisting
  backlogOnly : plan.deliveryPolicy = .backlogOnly → plan.setup.allowedExisting = [plan.targetSection]

theorem SectionOf.project {tasks : Tasks} {project name witness inSection : String}
    (h : SectionOf service env tasks project name witness inSection) : service.projectOf inSection = project := by
  obtain ⟨_, found, -, -, hone⟩ := h.witness
  obtain ⟨other, hother⟩ := List.exists_mem_of_length_pos (hone ▸ Nat.one_pos)
  have hfound := of_decide_eq_true (List.mem_filter.mp hother).2
  exact hfound.2 ▸ hfound.1

theorem ReadyForSpecOf.cases {tasks : Tasks} {project : String} {policy : DeliveryPolicy} {ready : Option String}
    (h : ReadyForSpecOf service env tasks project policy ready) : (policy = .backlogOnly ∧ ready = none) ∨
      policy = .autonomousToPr ∧ ∃ inSection, ready = some inSection ∧ service.projectOf inSection = project := by
  cases h with
  | backlogOnly => exact .inl ⟨rfl, rfl⟩
  | autonomousToPr h => exact .inr ⟨rfl, _, rfl, h.project⟩

theorem Configured.sectioned {tasks : Tasks} (h : Configured service env tasks plan.deliveryPolicy plan.setup) :
    plan.Sectioned service := by
  have hbacklog := h.backlog.project
  rcases h.readyForSpec.cases with ⟨hpolicy, hnone⟩ | ⟨hpolicy, ready, hsome, hready⟩
  · have hallowed : plan.setup.allowedExisting = [plan.setup.backlog] := by
      rw [Setup.allowedExisting, hnone]
      rfl
    have htarget : plan.targetSection = plan.setup.backlog := by rw [Plan.targetSection, hpolicy]
    refine ⟨fun inSection hmem => ?_, by simp [hallowed, htarget], fun _ => by rw [hallowed, htarget]⟩
    rw [hallowed, List.mem_singleton] at hmem
    exact hmem ▸ hbacklog
  · have hallowed : plan.setup.allowedExisting = [plan.setup.backlog, ready] := by
      rw [Setup.allowedExisting, hsome]
      rfl
    have htarget : plan.targetSection = ready := by
      rw [Plan.targetSection, hpolicy, hsome]
      rfl
    refine ⟨fun inSection hmem => ?_, by simp [hallowed, htarget], fun hother => ?_⟩
    · rw [hallowed, List.mem_pair] at hmem
      exact hmem.elim (fun heq => heq ▸ hbacklog) fun heq => heq ▸ hready
    · rw [hpolicy] at hother
      cases hother

/-- What is so of the tasks that are placed. -/
structure Standing (plan : Plan) (placed : List Placed) (gid : String) (stored : StoredTask) : Prop where
  sited : ∀ reference expected, gid? placed reference = some gid →
    plan.tasks.find? (·.ref = reference) = some expected → Sited plan expected stored
  dependencies : ∀ dependency ∈ stored.dependencies, isGid dependency = true

/-- The changes that leave the tasks in their sections. -/
def Plan.Fits (plan : Plan) : Change → Prop
  | .addTask inSection _ => inSection ∈ plan.setup.allowedExisting
  | .addDependencies _ blockers => ∀ blocker ∈ blockers, isGid blocker = true
  | _ => True

theorem StoredTask.moved_sections {stored : StoredTask} {other : String} (h : stored.sections = [other])
    (hproject : service.projectOf other = service.projectOf inSection) :
    (stored.moved service inSection).sections = [inSection] := by
  simp [StoredTask.moved, h, hproject]

theorem Sited.moved (hsectioned : plan.Sectioned service) {expected : BatchTask} {stored : StoredTask}
    (h : Sited plan expected stored) (hallowed : inSection ∈ plan.setup.allowedExisting) :
    (stored.moved service inSection).sections = [inSection] := by
  obtain ⟨other, hother, hsections⟩ := h.sections
  exact StoredTask.moved_sections hsections ((hsectioned.project other hother).trans
    (hsectioned.project inSection hallowed).symm)

theorem Standing.update (hsectioned : plan.Sectioned service) {stored : StoredTask} {c : Change}
    (h : Standing plan placed gid stored) (hfits : plan.Fits c) :
      Standing plan placed gid (c.update service stored) := by
  cases c with
  | create new => exact h
  | addTask inSection other =>
    refine ⟨fun reference expected hgid hexpected => ?_, h.dependencies⟩
    have hsited := h.sited reference expected hgid hexpected
    exact ⟨hsited.fields, inSection, hfits, hsited.moved hsectioned hfits⟩
  | addTag tag other => exact ⟨fun reference expected hgid hexpected =>
      ⟨(h.sited reference expected hgid hexpected).fields, (h.sited reference expected hgid hexpected).sections⟩,
    h.dependencies⟩
  | removeTag tag other => exact ⟨fun reference expected hgid hexpected =>
      ⟨(h.sited reference expected hgid hexpected).fields, (h.sited reference expected hgid hexpected).sections⟩,
    h.dependencies⟩
  | addDependencies other blockers =>
    refine ⟨fun reference expected hgid hexpected =>
      ⟨(h.sited reference expected hgid hexpected).fields, (h.sited reference expected hgid hexpected).sections⟩,
      fun dependency hmem => ?_⟩
    rcases List.mem_append.mp hmem with hmem | hmem
    · exact h.dependencies dependency hmem
    · exact hfits dependency (List.mem_filter.mp hmem).1

/-! ## Components -/

/-- What is known of the tasks of a session whose requests are answered. -/
structure Ready (plan : Plan) (placed : List Placed) (s : Session) : Prop where
  answers : Answers s
  existing : Existing s.tasks (placed.map Placed.gid)
  standing : Each (Standing plan placed) s.tasks

theorem ends_taskInProject_answers {project : String} {task : StoredTask} (h : Answers s)
    (hget : s.tasks.get? gid = some task) (hproject : task.sections.any (service.projectOf · = project) = true) :
    Ends (taskInProject service project gid) s (fun found t => Answers t ∧ found = task ∧ t.tasks = s.tasks)
      (fun _ _ => False) := by
  refine Ends.bind_iff.mpr ((ends_readTask_answers h hget).mono ?_ fun _ _ h => h)
  rintro found t ⟨hanswers, rfl, htasks⟩
  have hok : refuseIf (found.sections.any (service.projectOf · = project) = false)
      ("Asana task " ++ gid ++ " does not belong to ASANA_PROJECT_GID " ++ project) = .ok () := by
    rw [refuseIf_eq_ok, hproject]
    simp
  refine Ends.bind_iff.mpr ((ends_validate_ok hok).mono ?_ fun _ _ h => h)
  rintro _ u ⟨-, rfl⟩
  exact Ends.pure_iff.mpr ⟨hanswers, rfl, htasks⟩

/-- The task is read back as it should be. -/
def Authorized (service : Service) (plan : Plan) (placed : List Placed) (tasks : Tasks)
    (inSection tag reference : String) :
    Prop := ∃ gid stored expected, gid? placed reference = some gid ∧ tasks.get? gid = some stored ∧
  plan.tasks.find? (·.ref = reference) = some expected ∧
    stored.sections.any (service.projectOf · = plan.setup.project) = true ∧
      stored.isAuthorized service plan.setup inSection tag expected = true

theorem ends_verifyComponentAuthorization_answers (h : Answers s)
    (hauthorized : ∀ reference ∈ component, Authorized service plan placed s.tasks inSection tag reference) :
    Ends (verifyComponentAuthorization service env plan placed inSection tag component) s
      (fun result t => result = ([], []) ∧ Answers t ∧ t.tasks = s.tasks) (fun _ _ => False) := by
  induction component generalizing s with
  | nil => exact Ends.pure_iff.mpr ⟨rfl, h, rfl⟩
  | cons reference component ih =>
    obtain ⟨gid, stored, expected, hgid, hget, hexpected, hproject, hstored⟩ :=
      hauthorized reference List.mem_cons_self
    have hplan : plan.expected reference = pure expected := by rw [Plan.expected, hexpected]
    have hhead : Ends (verifyAuthorization service env plan placed inSection tag reference) s
        (fun found t => found = none ∧ Answers t ∧ t.tasks = s.tasks) (fun _ _ => False) := by
      rw [verifyAuthorization, gidOf_eq hgid, hplan]
      refine Ends.bind_iff.mpr (Ends.pure_iff.mpr (Ends.bind_iff.mpr (Ends.pure_iff.mpr (Ends.bind_iff.mpr ?_))))
      refine (ends_catch_ok (ends_taskInProject_answers h hget hproject)).mono ?_ fun _ _ h => h
      rintro _ t ⟨task, rfl, hanswers, rfl, htasks⟩
      dsimp only
      rw [if_pos hstored]
      exact Ends.pure_iff.mpr ⟨rfl, hanswers, htasks⟩
    refine Ends.bind_iff.mpr (hhead.mono ?_ fun _ _ h => h)
    rintro _ t ⟨rfl, hanswers, htasks⟩
    refine Ends.bind_iff.mpr ((ih hanswers fun other hother => ?_).mono ?_ fun _ _ h => h)
    · rw [htasks]
      exact hauthorized other (List.mem_cons_of_mem _ hother)
    · rintro _ u ⟨rfl, hanswers, htasks'⟩
      exact Ends.pure_iff.mpr ⟨rfl, hanswers, htasks'.trans htasks⟩

/-- The tags that authorize are the one that is selected. -/
theorem isOnly_authorizationTags {stored : StoredTask} (hselected : plan.selectedTag ∈ stored.tags)
    (hopposite : ∀ tag ∈ stored.tags, tag = plan.oppositeTag → tag = plan.selectedTag) :
    isOnly (stored.authorizationTags plan.setup) plan.selectedTag = true := by
  have hboth : ∀ tag, tag = plan.setup.manualTag ∨ tag = plan.setup.autoTag ↔
      tag = plan.selectedTag ∨ tag = plan.oppositeTag := by
    intro tag
    unfold Plan.selectedTag Plan.oppositeTag
    cases plan.deliveryPolicy with
    | autonomousToPr => exact or_comm
    | backlogOnly => exact Iff.rfl
  simp only [isOnly, Bool.and_eq_true, List.contains_iff_mem, List.all_eq_true, decide_eq_true_eq]
  refine ⟨List.mem_filter.mpr ⟨hselected, decide_eq_true ((hboth _).mpr (.inl rfl))⟩, fun tag hmem => ?_⟩
  obtain ⟨htag, hauthorizes⟩ := List.mem_filter.mp hmem
  exact ((hboth tag).mp (of_decide_eq_true hauthorizes)).elim id (hopposite tag htag)

theorem isAuthorized_of_sited (hsectioned : plan.Sectioned service) {stored : StoredTask} {expected : BatchTask}
    (hsited : Sited plan expected stored) (hselected : plan.selectedTag ∈ stored.tags)
    (hopposite : ∀ tag ∈ stored.tags, tag = plan.oppositeTag → tag = plan.selectedTag)
    (hsections : stored.sections = [plan.targetSection]) :
    stored.sections.any (service.projectOf · = plan.setup.project) = true ∧
      stored.isAuthorized service plan.setup plan.targetSection plan.selectedTag expected = true := by
  have hproject := hsectioned.project _ hsectioned.target
  constructor
  · simp [hsections, hproject]
  · rw [StoredTask.isAuthorized, isOnly_authorizationTags hselected hopposite, hsited.fields]
    simp [StoredTask.projectSections, hsections, hproject, isOnly]

theorem mem_tags_addTag {stored : StoredTask} {other : String} :
    other ∈ ((Change.addTag tag gid).update service stored).tags ↔ other ∈ stored.tags ∨ other = tag := by
  change other ∈ (if tag ∈ stored.tags then stored.tags else stored.tags ++ [tag]) ↔ _
  split
  · next hmem =>
    refine ⟨.inl, fun h => h.elim id ?_⟩
    rintro rfl
    exact hmem
  · rw [List.mem_append, List.mem_singleton]

theorem Known.gids (h : Known plan placed component) : ∀ reference ∈ component,
    ∃ gid, gid? placed reference = some gid := fun reference hmem => (h reference hmem).1

theorem ends_moveToTarget_answers {I : String → StoredTask → Prop} (hsectioned : plan.Sectioned service)
    (hI : ∀ gid stored, I gid stored → I gid (stored.moved service plan.targetSection))
    (hstanding : ∀ gid stored, I gid stored → Standing plan placed gid stored)
    (hknown : Known plan placed component)
    (hanswers : Answers s) (hexisting : Existing s.tasks (placed.map Placed.gid)) (heach : Each I s.tasks) :
    Ends (moveToTarget service plan placed component) s
      (fun _ t => Answers t ∧ Existing t.tasks (placed.map Placed.gid) ∧ Each (fun gid stored => I gid stored ∧
        (gid ∈ component.filterMap (gid? placed) → stored.sections = [plan.targetSection])) t.tasks)
      (fun _ _ => False) := by
  have hsited : ∀ gid ∈ component.filterMap (gid? placed), ∀ stored, I gid stored →
      ∃ expected, Sited plan expected stored := by
    intro gid hmem stored hstored
    obtain ⟨reference, hreference, hgid⟩ := List.mem_filterMap.mp hmem
    obtain ⟨-, expected, hexpected⟩ := hknown reference hreference
    exact ⟨expected, (hstanding gid stored hstored).sited reference expected hgid hexpected⟩
  unfold moveToTarget
  split
  · refine ends_mutateAll_answers (fun _ => rfl) hI (fun gid hmem stored hstored => ?_) hknown.gids hanswers
      hexisting heach
    obtain ⟨expected, hsited⟩ := hsited gid hmem stored hstored
    exact hsited.moved hsectioned hsectioned.target
  · next hpolicy =>
    refine Ends.pure_iff.mpr ⟨hanswers, hexisting, fun gid stored hget =>
      ⟨heach gid stored hget, fun hmem => ?_⟩⟩
    obtain ⟨expected, hsited⟩ := hsited gid hmem stored (heach gid stored hget)
    obtain ⟨inSection, hallowed, hsections⟩ := hsited.sections
    rw [hsectioned.backlogOnly hpolicy, List.mem_singleton] at hallowed
    rw [hsections, hallowed]

theorem ends_authorizeComponent_answers (hsectioned : plan.Sectioned service) (hknown : Known plan placed component)
    (hready : Ready plan placed s) : Ends (authorizeComponent service env plan placed component) s
      (fun result t => result = ([], []) ∧ Ready plan placed t) (fun _ _ => False) := by
  let gids := component.filterMap (gid? placed)
  let Cleared (gid : String) (stored : StoredTask) : Prop := Standing plan placed gid stored ∧
    (gid ∈ gids → ∀ tag ∈ stored.tags, tag = plan.oppositeTag → tag = plan.selectedTag)
  let Tagged (gid : String) (stored : StoredTask) : Prop := Cleared gid stored ∧
    (gid ∈ gids → plan.selectedTag ∈ stored.tags)
  refine Ends.bind_iff.mpr ((ends_mutateAll_answers (I := Standing plan placed)
    (P := fun stored => ∀ tag ∈ stored.tags, tag ≠ plan.oppositeTag) (fun _ => rfl)
    (fun gid stored hstored => hstored.update (c := .removeTag plan.oppositeTag gid) hsectioned trivial)
    (fun gid _ stored _ tag htag => ?_) hknown.gids
    hready.answers hready.existing hready.standing).mono ?_ fun _ _ h => h)
  · exact of_decide_eq_true (List.mem_filter.mp htag).2
  rintro _ t ⟨hanswers, hexisting, heach⟩
  have hcleared : Each Cleared t.tasks := fun gid stored hget =>
    ⟨(heach gid stored hget).1, fun hmem tag htag hopposite =>
      ((heach gid stored hget).2 hmem tag htag hopposite).elim⟩
  refine Ends.bind_iff.mpr ((ends_mutateAll_answers (I := Cleared) (P := fun stored => plan.selectedTag ∈ stored.tags)
    (fun _ => rfl) (fun gid stored hstored => ?_) (fun gid _ stored _ => ?_) hknown.gids hanswers hexisting
    hcleared).mono ?_ fun _ _ h => h)
  · refine ⟨hstored.1.update (c := .addTag plan.selectedTag gid) hsectioned trivial,
      fun hmem tag htag hopposite => ?_⟩
    exact (mem_tags_addTag.mp htag).elim (fun htag => hstored.2 hmem tag htag hopposite) id
  · exact mem_tags_addTag.mpr (.inr rfl)
  rintro _ u ⟨hanswers, hexisting, htagged⟩
  refine Ends.bind_iff.mpr ((ends_moveToTarget_answers (I := Tagged) hsectioned (fun gid stored hstored => ?_)
    (fun gid stored hstored => hstored.1.1) hknown hanswers hexisting htagged).mono ?_ fun _ _ h => h)
  · have hstanding := hstored.1.1.update (c := .addTask plan.targetSection gid) hsectioned hsectioned.target
    exact ⟨⟨hstanding, hstored.1.2⟩, hstored.2⟩
  rintro _ v ⟨hanswers, hexisting, hmoved⟩
  refine (ends_verifyComponentAuthorization_answers hanswers fun reference hmem => ?_).mono ?_ fun _ _ h => h
  · obtain ⟨⟨gid, hgid⟩, expected, hexpected⟩ := hknown reference hmem
    obtain ⟨entry, hentry, -, rfl⟩ := mem_of_gid? hgid
    obtain ⟨stored, hget⟩ := hexisting _ (List.mem_map_of_mem hentry)
    have hgids : entry.gid ∈ gids := List.mem_filterMap.mpr ⟨reference, hmem, hgid⟩
    obtain ⟨⟨⟨hstanding, hopposite⟩, hselected⟩, hsections⟩ := hmoved _ stored hget
    have hsited := hstanding.sited reference expected hgid hexpected
    exact ⟨_, stored, expected, hgid, hget, hexpected,
      isAuthorized_of_sited hsectioned hsited (hselected hgids) (hopposite hgids) (hsections hgids)⟩
  · rintro result w ⟨hresult, hanswers, htasks⟩
    exact ⟨hresult, hanswers, htasks ▸ hexisting, fun gid stored hget =>
      (hmoved gid stored (htasks ▸ hget)).1.1.1⟩

theorem ends_settleComponent_answers (hsectioned : plan.Sectioned service) (hknown : Known plan placed component)
    (hready : Ready plan placed s) : Ends (settleComponent service env plan placed [] component) s
      (fun result t => result.2 = [] ∧ result.1.status.IsActive ∧ Ready plan placed t) (fun _ _ => False) := by
  have hactivate : Ends (activateComponent service env plan placed component) s
      (fun result t => result = (true, [], []) ∧ Ready plan placed t) (fun _ _ => False) := by
    refine Ends.bind_iff.mpr ((ends_catch_ok (ends_authorizeComponent_answers hsectioned hknown hready)).mono ?_
      fun _ _ h => h)
    rintro _ t ⟨_, rfl, rfl, hready⟩
    exact Ends.pure_iff.mpr ⟨rfl, hready⟩
  unfold settleComponent
  simp only [List.not_mem_nil, decide_false, List.filter_false, List.map_nil, if_true]
  refine Ends.bind_iff.mpr (hactivate.mono ?_ fun _ _ h => h)
  rintro _ t ⟨rfl, hready⟩
  refine Ends.pure_iff.mpr ⟨rfl, ?_, hready⟩
  dsimp only [activationStatus]
  rw [if_pos rfl]
  cases plan.deliveryPolicy with
  | autonomousToPr => exact .inl rfl
  | backlogOnly => exact .inr rfl

theorem ends_settleComponents_answers {parts : List (List String)} (hsectioned : plan.Sectioned service)
    (hknown : ∀ part ∈ parts, Known plan placed part) (hready : Ready plan placed s) :
    Ends (settleComponents service env plan placed [] parts) s
      (fun result _ => result.2 = [] ∧ ∀ r ∈ result.1, r.status.IsActive) (fun _ _ => False) := by
  induction parts generalizing s with
  | nil => exact Ends.pure_iff.mpr ⟨rfl, nofun⟩
  | cons part parts ih =>
    refine Ends.bind_iff.mpr ((ends_settleComponent_answers hsectioned (hknown part List.mem_cons_self) hready).mono ?_
      fun _ _ h => h)
    rintro ⟨r, failures⟩ t ⟨rfl, hactive, hready⟩
    refine Ends.bind_iff.mpr ((ih (fun other hother => hknown other (List.mem_cons_of_mem _ hother)) hready).mono ?_
      fun _ _ h => h)
    rintro ⟨rest, others⟩ u ⟨rfl, hrest⟩
    exact Ends.pure_iff.mpr ⟨rfl, List.forall_mem_cons.mpr ⟨hactive, hrest⟩⟩

/-! ## Edges -/

/-- The edge is in place. -/
def Wired (placed : List Placed) (tasks : Tasks) (edge : String × String) : Prop :=
  ∃ dependent blocker stored, gid? placed edge.1 = some dependent ∧ gid? placed edge.2 = some blocker ∧
    tasks.get? dependent = some stored ∧ blocker ∈ stored.dependencies

theorem mem_dependencies_update {c : Change} {stored : StoredTask} {dependency : String}
    (h : dependency ∈ stored.dependencies) : dependency ∈ (c.update service stored).dependencies := by
  cases c with
  | addDependencies other blockers => exact List.mem_append_left _ h
  | _ => exact h

theorem Wired.apply {tasks : Tasks} {c : Change} {edge : String × String} (h : Wired placed tasks edge)
    (htarget : c.target? = some gid) : Wired placed (c.apply service tasks) edge := by
  obtain ⟨dependent, blocker, stored, hdependent, hblocker, hget, hmem⟩ := h
  by_cases hgid : dependent = gid
  · refine ⟨dependent, blocker, c.update service stored, hdependent, hblocker, ?_, mem_dependencies_update hmem⟩
    rw [Change.get?_apply htarget, if_pos hgid, hget, Option.map_some]
  · refine ⟨dependent, blocker, stored, hdependent, hblocker, ?_, hmem⟩
    rw [Change.get?_apply htarget, if_neg hgid, hget]

theorem Ready.apply (hsectioned : plan.Sectioned service) {c : Change} (h : Ready plan placed s) (hanswers : Answers t)
    (htasks : t.tasks = c.apply service s.tasks) (htarget : c.target? = some gid) (hfits : plan.Fits c) :
    Ready plan placed t := by
  refine ⟨hanswers, htasks ▸ h.existing.apply c, ?_⟩
  rw [htasks]
  exact h.standing.apply htarget fun stored hstored => hstored.update hsectioned hfits

theorem Ready.get (h : Ready plan placed s) (hgid : gid? placed reference = some gid) :
    ∃ stored, s.tasks.get? gid = some stored ∧ Standing plan placed gid stored := by
  obtain ⟨entry, hentry, -, rfl⟩ := mem_of_gid? hgid
  obtain ⟨stored, hget⟩ := h.existing _ (List.mem_map_of_mem hentry)
  exact ⟨stored, hget, h.standing _ stored hget⟩

theorem ends_addDependencies_answers (hsectioned : plan.Sectioned service)
    (hgids : ∀ entry ∈ placed, isGid entry.gid = true) {edges : List (String × String)}
    (hlinked : Linked placed edges) (hready : Ready plan placed s) :
    Ends (addDependencies service env placed edges) s
      (fun failures t => failures = [] ∧ Ready plan placed t ∧ (∀ edge ∈ edges, Wired placed t.tasks edge) ∧
        ∀ edge, Wired placed s.tasks edge → Wired placed t.tasks edge) (fun _ _ => False) := by
  induction edges generalizing s with
  | nil => exact Ends.pure_iff.mpr ⟨rfl, hready, nofun, fun _ h => h⟩
  | cons edge edges ih =>
    obtain ⟨⟨dependent, hdependent⟩, blocker, hblocker⟩ := hlinked edge List.mem_cons_self
    obtain ⟨stored, hget, -⟩ := hready.get hdependent
    obtain ⟨entry, hentry, -, rfl⟩ := mem_of_gid? hblocker
    have htarget : (Change.addDependencies dependent [entry.gid]).target? = some dependent := rfl
    have hrequest : Ends (addDependency service placed edge) s (fun _ t => Answers t ∧
        t.tasks = (Change.addDependencies dependent [entry.gid]).apply service s.tasks) (fun _ _ => False) := by
      rw [addDependency, gidOf_eq hdependent, gidOf_eq hblocker]
      refine Ends.bind_iff.mpr (Ends.pure_iff.mpr (Ends.bind_iff.mpr (Ends.pure_iff.mpr ?_)))
      exact ends_mutate_answers hready.answers (finds_of_target htarget hget)
    refine Ends.bind_iff.mpr ((ends_tryRequest_answers hrequest).mono ?_ fun _ _ h => h)
    rintro _ t ⟨rfl, hanswers, htasks⟩
    have hready' : Ready plan placed t := hready.apply hsectioned hanswers htasks htarget (by
      rintro other hmem
      rw [List.mem_singleton.mp hmem]
      exact hgids entry hentry)
    have hwired : Wired placed t.tasks edge := by
      refine ⟨dependent, entry.gid, (Change.addDependencies dependent [entry.gid]).update service stored, hdependent,
        hblocker, ?_, ?_⟩
      · rw [htasks, Change.get?_apply htarget, if_pos rfl, hget, Option.map_some]
      · change _ ∈ stored.dependencies ++ _
        by_cases hmem : entry.gid ∈ stored.dependencies <;> simp [hmem]
    refine Ends.bind_iff.mpr ((ih (fun other hother => hlinked other (List.mem_cons_of_mem _ hother)) hready').mono ?_
      fun _ _ h => h)
    rintro _ u ⟨rfl, hready, hrest, hkept⟩
    refine Ends.pure_iff.mpr ⟨rfl, hready, List.forall_mem_cons.mpr ⟨hkept edge hwired, hrest⟩,
      fun other hother => ?_⟩
    refine hkept other ?_
    rw [htasks]
    exact hother.apply htarget

theorem Sited.inProject (hsectioned : plan.Sectioned service) {expected : BatchTask} {stored : StoredTask}
    (h : Sited plan expected stored) : stored.sections.any (service.projectOf · = plan.setup.project) = true := by
  obtain ⟨inSection, hallowed, hsections⟩ := h.sections
  simp [hsections, hsectioned.project inSection hallowed]

theorem mapM_requireGid_ok {name : String} {gids : List String} (h : ∀ gid ∈ gids, isGid gid = true) :
    gids.mapM (requireGid name) = .ok gids := by
  refine Except.mapM_eq_ok.mpr ?_
  rw [List.forall₂_same]
  exact fun gid hmem => requireGid_eq_ok.mpr ⟨h gid hmem, rfl⟩

theorem ends_verifyDependencies_answers (hsectioned : plan.Sectioned service) {dependents : List String}
    (hknown : Known plan placed dependents) (hready : Ready plan placed s) :
    Ends (verifyDependencies service env plan placed dependents) s
      (fun result t => result.2 = [] ∧ Answers t ∧ t.tasks = s.tasks ∧ ∀ dependent ∈ dependents,
        ∃ gid stored, gid? placed dependent = some gid ∧ s.tasks.get? gid = some stored ∧
          result.1.lookup dependent = some stored.dependencies) (fun _ _ => False) := by
  induction dependents generalizing s with
  | nil => exact Ends.pure_iff.mpr ⟨rfl, hready.answers, rfl, nofun⟩
  | cons dependent dependents ih =>
    obtain ⟨⟨gid, hgid⟩, expected, hexpected⟩ := hknown.head
    obtain ⟨stored, hget, hstanding⟩ := hready.get hgid
    have hread : Ends (readDependencies service plan placed dependent) s (fun gids t => gids = stored.dependencies ∧
        Answers t ∧ t.tasks = s.tasks) (fun _ _ => False) := by
      rw [readDependencies, gidOf_eq hgid]
      refine Ends.bind_iff.mpr (Ends.pure_iff.mpr (Ends.bind_iff.mpr ?_))
      refine (ends_taskInProject_answers hready.answers hget
        ((hstanding.sited _ _ hgid hexpected).inProject hsectioned)).mono ?_ fun _ _ h => h
      rintro _ t ⟨hanswers, rfl, htasks⟩
      refine (ends_validate_ok (mapM_requireGid_ok hstanding.dependencies)).mono ?_ fun _ _ h => h
      rintro _ u ⟨rfl, rfl⟩
      exact ⟨rfl, hanswers, htasks⟩
    refine Ends.bind_iff.mpr ((ends_catch_ok hread).mono ?_ fun _ _ h => h)
    rintro _ t ⟨_, rfl, rfl, hanswers, htasks⟩
    have hready' : Ready plan placed t := ⟨hanswers, htasks ▸ hready.existing, htasks ▸ hready.standing⟩
    refine Ends.bind_iff.mpr ((ih hknown.tail hready').mono ?_ fun _ _ h => h)
    rintro ⟨blockers, failures⟩ u ⟨rfl, hanswers, htasks', hblockers⟩
    refine Ends.pure_iff.mpr ⟨rfl, hanswers, htasks'.trans htasks, fun other hother => ?_⟩
    by_cases hsame : other = dependent
    · subst hsame
      exact ⟨gid, stored, hgid, hget, List.lookup_cons_self⟩
    · obtain ⟨gid', stored', hgid', hget', hlookup⟩ :=
        hblockers other ((List.mem_cons.mp hother).resolve_left hsame)
      refine ⟨gid', stored', hgid', htasks ▸ hget', ?_⟩
      have hne : (other == dependent) = false := by simpa using hsame
      rw [List.lookup_cons, hne]
      exact hlookup

theorem ends_classifyEdges_answers {blockers : List (String × List String)} {edges : List (String × String)}
    (hlinked : Linked placed edges) (hconfirmed : ∀ edge ∈ edges, Confirmed placed blockers edge) :
    Ends (classifyEdges placed blockers edges) s (fun result t => result.2 = [] ∧ t = s) (fun _ _ => False) := by
  induction edges generalizing s with
  | nil => exact Ends.pure_iff.mpr ⟨rfl, rfl⟩
  | cons edge edges ih =>
    obtain ⟨⟨dependent, hdependent⟩, blocker, hblocker⟩ := hlinked edge List.mem_cons_self
    obtain ⟨other, hother, hmem⟩ := hconfirmed edge List.mem_cons_self
    cases hblocker.symm.trans hother
    have hrecord : edgeRecord placed edge = pure ⟨edgeText edge, edge.1, dependent, edge.2, blocker⟩ := by
      rw [edgeRecord, gidOf_eq hdependent, gidOf_eq hblocker]
      rfl
    rw [classifyEdges, hrecord]
    refine Ends.bind_iff.mpr (Ends.pure_iff.mpr (Ends.bind_iff.mpr ?_))
    refine (ih (fun e he => hlinked e (List.mem_cons_of_mem _ he))
      fun e he => hconfirmed e (List.mem_cons_of_mem _ he)).mono ?_ fun _ _ h => h
    rintro ⟨verified, missing⟩ t ⟨rfl, rfl⟩
    dsimp only
    rw [if_pos hmem]
    exact Ends.pure_iff.mpr ⟨rfl, rfl⟩

theorem ends_wiredReport_answers {p : Progress} (hvalid : plan.Valid) (hsectioned : plan.Sectioned service)
    (hrefs : plan.references ⊆ p.placed.map Placed.ref) (hgids : ∀ entry ∈ p.placed, isGid entry.gid = true)
    (hready : Ready plan p.placed s) : Ends (wiredReport service env python plan p) s
      (fun report _ => report.ok = true ∧ report.failures = []) (fun _ _ => False) := by
  have hplaced : ∀ reference ∈ plan.references, ∃ gid, gid? p.placed reference = some gid :=
    fun reference hmem => gid?_eq_some_of_ref (hrefs hmem)
  have hlinked : Linked p.placed plan.edges := fun edge hedge =>
    ⟨hplaced _ (hvalid.declared edge hedge).1, hplaced _ (hvalid.declared edge hedge).2⟩
  have P := connectedComponents_partition hvalid.nodup hvalid.declared
  have hparts : ∀ part ∈ connectedComponents plan.references plan.edges, part ⊆ plan.references :=
    fun part hpart reference hmem => P.perm.mem_iff.mp (List.mem_flatten.mpr ⟨part, hpart, hmem⟩)
  have hknown : ∀ {references}, references ⊆ plan.references → Known plan p.placed references :=
    fun hsubset => known_of_refs hsubset (List.Subset.trans hsubset hrefs)
  refine Ends.bind_iff.mpr ((ends_addDependencies_answers hsectioned hgids hlinked hready).mono ?_ fun _ _ h => h)
  rintro _ t ⟨rfl, hready, hwired, -⟩
  have hdependents : (plan.edges.map Prod.fst).eraseDups ⊆ plan.references := by
    intro dependent hmem
    obtain ⟨edge, hedge, rfl⟩ := List.mem_map.mp (List.mem_eraseDups.mp hmem)
    exact (hvalid.declared edge hedge).1
  refine Ends.bind_iff.mpr ((ends_verifyDependencies_answers hsectioned (hknown hdependents) hready).mono ?_
    fun _ _ h => h)
  rintro ⟨blockers, failures⟩ u ⟨rfl, hanswers, htasks, hblockers⟩
  refine Ends.bind_iff.mpr ((ends_classifyEdges_answers hlinked fun edge hedge => ?_).mono ?_ fun _ _ h => h)
  · obtain ⟨dependent, blocker, stored, hdependent, hblocker, hget, hmem⟩ := hwired edge hedge
    obtain ⟨gid, stored', hgid, hget', hlookup⟩ :=
      hblockers edge.1 (List.mem_eraseDups.mpr (List.mem_map_of_mem hedge))
    cases hdependent.symm.trans hgid
    cases hget.symm.trans hget'
    exact ⟨blocker, hblocker, by rwa [hlookup, Option.getD_some]⟩
  rintro ⟨verified, missing⟩ u ⟨rfl, rfl⟩
  have hready' : Ready plan p.placed u := ⟨hanswers, htasks ▸ hready.existing, htasks ▸ hready.standing⟩
  refine Ends.bind_iff.mpr ((ends_settleComponents_answers hsectioned (fun part hpart => hknown (hparts part hpart))
    hready').mono ?_ fun _ _ h => h)
  rintro ⟨components, failures⟩ v ⟨rfl, hactive⟩
  refine Ends.pure_iff.mpr ⟨?_, rfl⟩
  simpa [ComponentStatus.IsActive] using hactive

/-! ## Creation -/

theorem lookup_of_mem {fields : List (String × String)} (hkeys : (fields.map Prod.fst).Nodup)
    {field : String × String}
    (hmem : field ∈ fields) : fields.lookup field.1 = some field.2 := by
  obtain ⟨before, after, rfl⟩ := List.append_of_mem hmem
  rw [List.map_append, List.map_cons, List.nodup_append'] at hkeys
  refine List.lookup_eq_some_iff.mpr ⟨before, after, rfl, fun other hother => ?_⟩
  rw [bne_iff_ne]
  exact fun hsame => hkeys.2.2 (List.mem_map_of_mem hother) (hsame ▸ List.mem_cons_self)

theorem find?_of_nodup {tasks : List BatchTask} (hnodup : (tasks.map BatchTask.ref).Nodup) {task : BatchTask}
    (hmem : task ∈ tasks) : tasks.find? (·.ref = task.ref) = some task := by
  cases hfind : tasks.find? (·.ref = task.ref) with
  | none => exact (List.find?_eq_none.mp hfind task hmem (decide_eq_true rfl)).elim
  | some found =>
    have href : found.ref = task.ref := by simpa using List.find?_some hfind
    rw [List.inj_on_of_nodup_map hnodup (List.mem_of_find?_eq_some hfind) hmem href]

/-- The next gids are valid, as long as there are not more tasks than this. -/
def Room (service : Service) (most : ℕ) : Prop :=
  ∀ gids : List String, gids.length < most → isGid (service.newGid gids) = true

theorem length_gids_apply {tasks : Tasks} {c : Change} (htarget : c.target? = some gid) :
    (c.apply service tasks).gids.length = tasks.gids.length := by
  cases c <;> cases htarget <;> simp [Tasks.gids, Change.apply, KeyedTable.modify, KeyedTable.modifyWhere]

theorem length_gids_create {tasks : Tasks} {new : NewTask} :
    ((Change.create new).apply service tasks).gids.length = tasks.gids.length + 1 := by
  simp [Tasks.gids, Change.apply, KeyedTable.insert]

theorem gid?_append_singleton {entry : Placed} (h : gid? (placed ++ [entry]) reference = some gid) :
    gid? placed reference = some gid ∨ entry.ref = reference ∧ entry.gid = gid := by
  rw [gid?, List.find?_append] at h
  cases hfind : placed.find? (·.ref = reference) with
  | some found =>
    rw [hfind, Option.some_or] at h
    exact .inl (by rw [gid?, hfind, h])
  | none =>
    rw [hfind, Option.none_or] at h
    obtain ⟨found, hfound, hgid⟩ := Option.map_eq_some_iff.mp h
    have hmem := List.mem_singleton.mp (List.mem_of_find?_eq_some hfound)
    subst hmem
    exact .inr ⟨by simpa using List.find?_some hfound, hgid⟩

/-- What is known in the creation loop. -/
structure Filling (service : Service) (plan : Plan) (most : ℕ) (p : Progress) (todo : List BatchTask) (s : Session) :
    Prop where
  ready : Ready plan p.placed s
  gids : ∀ entry ∈ p.placed, isGid entry.gid = true
  room : s.tasks.gids.length + todo.length ≤ most
  complete : p.failedTasks = []

theorem Ready.nextGid_fresh (h : Ready plan placed s) : s.tasks.nextGid service ∉ placed.map Placed.gid := by
  intro hmem
  obtain ⟨stored, hget⟩ := h.existing _ hmem
  rw [Change.get?_nextGid] at hget
  cases hget

/-- What a new task is like once it is moved to its section. -/
theorem sited_new (hsectioned : plan.Sectioned service) {task : BatchTask} (hkeys : task.fieldKeys.Nodup)
    {gid : String} :
    Sited plan task ((StoredTask.ofNew service (plan.newTask python task) gid).moved service plan.setup.backlog) := by
  have hbacklog : plan.setup.backlog ∈ plan.setup.allowedExisting := List.mem_cons_self
  refine ⟨?_, plan.setup.backlog, hbacklog, ?_⟩
  · rw [StoredTask.hasFields, List.all_eq_true]
    exact fun field hmem => decide_eq_true (lookup_of_mem hkeys hmem)
  · exact StoredTask.moved_sections rfl
      ((service.projectOf_defaultSection plan.setup.project).trans (hsectioned.project _ hbacklog).symm)

/-- A task is created and moved to its section. -/
theorem Ready.place (H : Ready plan placed s) (hnodup : plan.references.Nodup) (hsectioned : plan.Sectioned service)
    {task : BatchTask} (hkeys : task.fieldKeys.Nodup) (htask : task ∈ plan.tasks) (hanswers : Answers t)
    (htasks : t.tasks = (Change.addTask plan.setup.backlog (s.tasks.nextGid service)).apply service
      ((Change.create (plan.newTask python task)).apply service s.tasks)) :
    Ready plan (placed ++ [⟨task.ref, s.tasks.nextGid service, .created⟩]) t := by
  have hnew : t.tasks.get? (s.tasks.nextGid service) = some ((StoredTask.ofNew service (plan.newTask python task)
      (s.tasks.nextGid service)).moved service plan.setup.backlog) := by
    have htarget : (Change.addTask plan.setup.backlog (s.tasks.nextGid service)).target? =
        some (s.tasks.nextGid service) := rfl
    rw [htasks, Change.get?_apply htarget, if_pos rfl, Change.get?_apply_create, if_pos rfl]
    rfl
  have hold : ∀ gid ≠ s.tasks.nextGid service, t.tasks.get? gid = s.tasks.get? gid := by
    intro gid hgid
    have htarget : (Change.addTask plan.setup.backlog (s.tasks.nextGid service)).target? =
        some (s.tasks.nextGid service) := rfl
    rw [htasks, Change.get?_apply htarget, if_neg hgid, Change.get?_apply_create, if_neg hgid]
  refine ⟨hanswers, fun gid hmem => ?_, fun gid stored hget => ?_⟩
  · rw [List.map_append, List.mem_append] at hmem
    rcases hmem with hmem | hmem
    · obtain ⟨stored, hget⟩ := H.existing gid hmem
      refine ⟨stored, (hold gid ?_).trans hget⟩
      rintro rfl
      exact H.nextGid_fresh hmem
    · obtain rfl := List.mem_singleton.mp hmem
      exact ⟨_, hnew⟩
  · by_cases hgid : gid = s.tasks.nextGid service
    · subst hgid
      cases hnew.symm.trans hget
      refine ⟨fun reference expected hplaced hexpected => ?_, nofun⟩
      rcases gid?_append_singleton hplaced with hplaced | ⟨rfl, -⟩
      · obtain ⟨entry, hentry, -, hsame⟩ := mem_of_gid? hplaced
        exact (H.nextGid_fresh (List.mem_map.mpr ⟨entry, hentry, hsame⟩)).elim
      · cases (find?_of_nodup hnodup htask).symm.trans hexpected
        exact sited_new hsectioned hkeys
    · rw [hold gid hgid] at hget
      have hstanding := H.standing gid stored hget
      refine ⟨fun reference expected hplaced hexpected => ?_, hstanding.dependencies⟩
      rcases gid?_append_singleton hplaced with hplaced | ⟨-, hsame⟩
      · exact hstanding.sited reference expected hplaced hexpected
      · exact (hgid hsame.symm).elim

theorem ends_requestCreation_answers {task : BatchTask} (hgid : isGid (s.tasks.nextGid service) = true)
    (hanswers : Answers s) (hfresh : s.tasks.nextGid service ∉ placed.map Placed.gid) :
    Ends (requestCreation service python plan placed task) s (fun gid t =>
      gid = s.tasks.nextGid service ∧ Answers t ∧
      t.tasks = (Change.addTask plan.setup.backlog (s.tasks.nextGid service)).apply service
        ((Change.create (plan.newTask python task)).apply service s.tasks)) (fun _ _ => False) := by
  refine Ends.bind_iff.mpr ((ends_send_answers hanswers rfl).mono ?_ fun _ _ h => h)
  rintro _ t ⟨hanswers, rfl, htasks⟩
  refine Ends.bind_iff.mpr ((ends_validate_ok (requireGid_eq_ok.mpr ⟨hgid, rfl⟩)).mono ?_ fun _ _ h => h)
  rintro _ t ⟨rfl, rfl⟩
  have hfinds : (Change.addTask plan.setup.backlog (s.tasks.nextGid service)).finds t.tasks = true := by
    rw [htasks]
    exact finds_of_target rfl (Change.get?_apply_create.trans (if_pos rfl))
  refine Ends.bind_iff.mpr ((ends_mutate_answers hanswers hfinds).mono ?_ fun _ _ h => h)
  rintro _ u ⟨hanswers, htasks'⟩
  refine Ends.bind_iff.mpr ((ends_validate_ok (a := ()) (refuseIf_eq_ok.mpr hfresh)).mono ?_ fun _ _ h => h)
  rintro _ u ⟨-, rfl⟩
  exact Ends.pure_iff.mpr ⟨rfl, hanswers, htasks ▸ htasks'⟩

theorem ends_createTask_answers {most : ℕ} {p : Progress} {task : BatchTask} {todo : List BatchTask}
    (hroom : Room service most) (hnodup : plan.references.Nodup) (hsectioned : plan.Sectioned service)
    (hkeys : task.fieldKeys.Nodup) (htask : task ∈ plan.tasks) (H : Filling service plan most p (task :: todo) s) :
    Ends (createTask service env python plan p task) s
      (fun result t => result.2 = true ∧ Filling service plan most result.1 todo t ∧
        result.1.refs = p.refs ++ [task.ref]) (fun _ _ => False) := by
  have hgid : isGid (s.tasks.nextGid service) = true := by
    refine hroom _ ?_
    have hlength := H.room
    rw [List.length_cons] at hlength
    omega
  have hfresh := @Ready.nextGid_fresh service _ _ _ H.ready
  refine Ends.bind_iff.mpr ((ends_catch_ok (ends_requestCreation_answers hgid H.ready.answers hfresh)).mono ?_
    fun _ _ h => h)
  rintro _ t ⟨_, rfl, rfl, hanswers, htasks⟩
  have hplace : p.place task.ref (s.tasks.nextGid service) .created =
      { p with placed := p.placed ++ [⟨task.ref, s.tasks.nextGid service, .created⟩] } := if_neg hfresh
  refine Ends.pure_iff.mpr ⟨rfl, ?_, ?_⟩
  · rw [hplace]
    refine ⟨H.ready.place hnodup hsectioned hkeys htask hanswers htasks, fun entry hentry => ?_, ?_, H.complete⟩
    · rcases List.mem_append.mp hentry with hentry | hentry
      · exact H.gids entry hentry
      · rw [List.mem_singleton.mp hentry]
        exact hgid
    · have hlength := H.room
      rw [htasks, length_gids_apply rfl, length_gids_create]
      rw [List.length_cons] at hlength
      omega
  · rw [hplace]
    simp [Progress.refs]

theorem ends_createTasks_answers {most : ℕ} {p : Progress} {todo : List BatchTask} (hroom : Room service most)
    (hnodup : plan.references.Nodup) (hsectioned : plan.Sectioned service)
    (hkeys : ∀ task ∈ plan.tasks, task.fieldKeys.Nodup) (htodo : ∀ task ∈ todo, task ∈ plan.tasks)
    (H : Filling service plan most p todo s) : Ends (createTasks service env python plan todo p) s
      (fun p' t => Filling service plan most p' [] t ∧ p.refs ⊆ p'.refs ∧ ∀ task ∈ todo, task.ref ∈ p'.refs)
      (fun _ _ => False) := by
  induction todo generalizing p s with
  | nil => exact Ends.pure_iff.mpr ⟨H, List.Subset.refl _, nofun⟩
  | cons task todo ih =>
    have htodo' : ∀ other ∈ todo, other ∈ plan.tasks := fun other hother =>
      htodo other (List.mem_cons_of_mem _ hother)
    unfold createTasks
    split
    · next hplaced =>
      have hlength := H.room
      rw [List.length_cons] at hlength
      refine (ih htodo' ⟨H.ready, H.gids, by omega, H.complete⟩).mono ?_ fun _ _ h => h
      rintro p' t ⟨H', hrefs, hdone⟩
      exact ⟨H', hrefs, List.forall_mem_cons.mpr ⟨hrefs hplaced, hdone⟩⟩
    · have htask := htodo task List.mem_cons_self
      refine Ends.bind_iff.mpr ((ends_createTask_answers hroom hnodup hsectioned (hkeys task htask) htask H).mono ?_
        fun _ _ h => h)
      rintro ⟨p', more⟩ t ⟨rfl, H', hrefs⟩
      dsimp only at hrefs ⊢
      rw [if_pos rfl]
      refine (ih htodo' H').mono ?_ fun _ _ h => h
      rintro p'' u ⟨H'', hsubset, hdone⟩
      rw [hrefs] at hsubset
      refine ⟨H'', List.Subset.trans (List.subset_append_left _ _) hsubset,
        List.forall_mem_cons.mpr ⟨?_, hdone⟩⟩
      exact hsubset (List.mem_append_right _ (List.mem_singleton_self _))

theorem ends_createAndWire_answers {most : ℕ} (hroom : Room service most) (hvalid : plan.Valid)
    (hsectioned : plan.Sectioned service) (hkeys : ∀ task ∈ plan.tasks, task.fieldKeys.Nodup)
    (hgids : ∀ entry ∈ placed, isGid entry.gid = true) (hready : Ready plan placed s)
    (hmost : s.tasks.gids.length + plan.tasks.length ≤ most) : Ends (createAndWire service env python plan placed) s
      (fun report _ => report.ok = true ∧ report.failures = []) (fun _ _ => False) := by
  have hlength := (@creationOrder_perm plan).length_eq
  refine Ends.bind_iff.mpr ((ends_createTasks_answers hroom hvalid.nodup hsectioned hkeys
    (fun task htask => creationOrder_perm.mem_iff.mp htask) ⟨hready, hgids, by omega, rfl⟩).mono ?_ fun _ _ h => h)
  rintro p t ⟨H, -, hdone⟩
  rw [if_pos H.complete]
  refine ends_wiredReport_answers hvalid hsectioned (fun reference hmem => ?_) H.gids H.ready
  obtain ⟨task, htask, rfl⟩ := List.mem_map.mp hmem
  exact hdone task (creationOrder_perm.mem_iff.mpr htask)

/-! ## Preparation -/

/-- The service goes on answering. -/
def KeepsAnswers (s t : Session) : Prop := Answers s → Answers t

instance : Std.Refl KeepsAnswers := ⟨fun _ h => h⟩

instance : IsTrans Session KeepsAnswers := ⟨fun _ _ _ hst htu h => htu (hst h)⟩

theorem keepsAnswers_validate {α : Type} {answer : Answer α} : Stays KeepsAnswers (validate answer) := by
  intro s
  refine ends_validate_any.mono ?_ ?_
  · rintro a t ⟨-, rfl⟩
    exact id
  · rintro e t rfl
    exact id

theorem keepsAnswers_fetch {α : Type} {answer : Tasks → α} : Stays KeepsAnswers (fetch answer) := by
  intro s
  have hnext : KeepsAnswers s s.next := fun h n => h (n + 1)
  refine ends_fetch.mono ?_ ?_
  · rintro a t ⟨-, rfl⟩
    exact hnext
  · rintro e t ⟨-, rfl⟩
    exact hnext

theorem keepsAnswers_noteRead {task : StoredTask} : Stays KeepsAnswers (noteRead task) :=
  fun _ => ends_noteRead_iff.mpr id

theorem keepsAnswers_readTask : Stays KeepsAnswers (readTask gid) := by
  refine keepsAnswers_fetch.bind fun found => ?_
  cases found with
  | none => exact Stays.throw _
  | some task => exact keepsAnswers_noteRead.bind fun _ => Stays.pure _

theorem keepsAnswers_configuredBatchSection {project name witness label : String} :
    Stays KeepsAnswers (configuredBatchSection service env project name witness label) :=
  keepsAnswers_validate.bind fun _ => keepsAnswers_validate.bind fun _ => keepsAnswers_readTask.bind fun _ =>
    keepsAnswers_validate.bind fun _ => Stays.pure _

theorem keepsAnswers_configure {policy : DeliveryPolicy} : Stays KeepsAnswers (configure service env policy) := by
  have hready : ∀ project, Stays KeepsAnswers (configuredReadyForSpec service env project policy) := by
    intro project
    cases policy with
    | backlogOnly => exact Stays.pure _
    | autonomousToPr => exact keepsAnswers_configuredBatchSection.bind fun _ => Stays.pure _
  have htags : ∀ workspace, Stays KeepsAnswers (resolveAuthorizationTags service workspace) := fun workspace =>
    keepsAnswers_fetch.bind fun _ => keepsAnswers_validate.bind fun _ => keepsAnswers_validate.bind fun _ =>
      keepsAnswers_validate.bind fun _ => Stays.pure _
  exact keepsAnswers_validate.bind fun _ => keepsAnswers_validate.bind fun _ => keepsAnswers_validate.bind fun _ =>
    keepsAnswers_configuredBatchSection.bind fun _ => (hready _).bind fun _ => (htags _).bind fun _ => Stays.pure _

theorem keepsAnswers_lookUpTask {task : BatchTask} : Stays KeepsAnswers (lookUpTask service python plan task) := by
  have hfind : ∀ externalGid, Stays KeepsAnswers (getExternalTask externalGid) := by
    intro externalGid
    refine keepsAnswers_fetch.bind fun found => ?_
    cases found with
    | none => exact Stays.pure _
    | some task => exact keepsAnswers_noteRead.bind fun _ => keepsAnswers_validate.bind fun _ => Stays.pure _
  refine keepsAnswers_validate.bind fun _ => (hfind _).bind fun found => ?_
  cases found with
  | none => exact Stays.pure _
  | some task => exact keepsAnswers_validate.bind fun _ => Stays.pure _

theorem keepsAnswers_prepare {manifest : List (String × Json)} :
    Stays KeepsAnswers (prepare service env python manifest) := by
  have hlookups : ∀ plan wanted, Stays KeepsAnswers (lookUpTasks service python plan wanted) := by
    intro plan wanted
    induction wanted with
    | nil => exact Stays.pure _
    | cons task wanted ih => exact keepsAnswers_lookUpTask.bind fun _ => ih.bind fun _ => Stays.pure _
  exact keepsAnswers_validate.bind fun _ => keepsAnswers_configure.bind fun _ =>
    (hlookups _ _).bind fun _ => Stays.pure _

/-- The gids of the dependencies are valid. -/
def ValidDependencies (tasks : Tasks) : Prop :=
  Each (fun _ stored => ∀ dependency ∈ stored.dependencies, isGid dependency = true) tasks

theorem Found.ready (F : Found service python plan s.tasks plan.tasks placed) (hnodup : plan.references.Nodup)
    (hdependencies : ValidDependencies s.tasks) (hanswers : Answers s) :
    Ready plan placed s := by
  refine ⟨hanswers, fun gid hmem => ?_, fun gid stored hget => ⟨fun reference expected hgid hexpected => ?_,
    hdependencies gid stored hget⟩⟩
  · obtain ⟨entry, hentry, rfl⟩ := List.mem_map.mp hmem
    obtain ⟨_, -, -, stored, hget, -⟩ := F.accepted entry hentry
    exact ⟨stored, hget⟩
  · obtain ⟨entry, hentry, rfl, rfl⟩ := mem_of_gid? hgid
    obtain ⟨task, htask, href, stored', hget', haccepts⟩ := F.accepted entry hentry
    cases hget.symm.trans hget'
    rw [← href] at hexpected
    cases (find?_of_nodup hnodup htask).symm.trans hexpected
    obtain ⟨inSection, hallowed, hsections, -⟩ := haccepts.placed
    exact ⟨haccepts.fields, inSection, hallowed, hsections⟩

/-- **On a service that answers, a batch is created as a whole or not begun.** -/
theorem createBatch_answers {manifest : List (String × Json)} {policy : DeliveryPolicy} {tasks : List BatchTask}
    {edges : List (String × String)} (hparsed : parseBatchManifest manifest = .ok (policy, tasks, edges))
    (hkeys : ∀ task ∈ tasks, task.fieldKeys.Nodup) (hroom : Room service (s.tasks.gids.length + tasks.length))
    (hdependencies : ValidDependencies s.tasks) (hanswers : Answers s) :
    Ends (createBatch service env python manifest) s (fun report _ => report.ok = true ∧ report.failures = [])
      (fun _ t => t.tasks = s.tasks ∧ ∃ events, t.log = s.log ++ events ∧ ∀ event ∈ events,
        event.change? = none) := by
  refine Ends.bind_iff.mpr ((ends_prepare.and (keepsAnswers_prepare s)).mono ?_ fun _ _ h => h.1.requests_nothing)
  rintro ⟨plan, placed⟩ t ⟨⟨hread, hof, F⟩, hkeeps⟩
  have hsame := hread.tasks_eq
  have hplan := hparsed.symm.trans hof.parsed
  simp only [Except.ok.injEq, Prod.mk.injEq] at hplan
  obtain ⟨-, rfl, -⟩ := hplan
  rw [← hsame] at F hdependencies hroom
  have hready := F.ready hof.valid.nodup hdependencies (hkeeps hanswers)
  exact (ends_createAndWire_answers hroom hof.valid hof.configured.sectioned hkeys F.gids hready le_rfl).mono
    (fun _ _ h => h) fun _ _ h => h.elim

theorem Room.mono {most fewer : ℕ} (h : Room service most) (hle : fewer ≤ most) : Room service fewer :=
  fun gids hlength => h gids (lt_of_lt_of_le hlength hle)

theorem room_sample : Room sampleService 100 := by
  intro gids hlength
  obtain ⟨n, hn, hgid, -⟩ := sampleNewGid_eq gids
  change isGid (sampleNewGid gids) = true
  rw [hgid, isGid_iff]
  refine ⟨by simp [sampleGid], by simp [sampleGid]; omega, fun c hc => ?_⟩
  rw [sampleGid, String.toList_ofList] at hc
  rw [List.eq_of_mem_replicate hc]
  decide

theorem parse_sample : parseBatchManifest (sampleManifest "N") = .ok (.backlogOnly, samplePlan.tasks, []) := by
  decide +kernel

theorem createBatch_answers_sample : ∃ report t, sampleRun "N" sampleSession = .ok report t ∧ report.ok = true := by
  obtain ⟨report, t, hrun, -⟩ := sampleRun_creates
  have hdependencies : ValidDependencies sampleTasks := by
    intro gid stored hget
    obtain rfl := List.mem_singleton.mp (KeyedTable.mem_rows.mpr (KeyedTable.mem_of_get? hget))
    exact nofun
  have hanswers : Answers sampleSession := fun _ => rfl
  have hkeys : ∀ task ∈ samplePlan.tasks, task.fieldKeys.Nodup := by decide
  have hroom : Room sampleService (sampleSession.tasks.gids.length + samplePlan.tasks.length) :=
    room_sample.mono (Nat.le_of_ble_eq_true rfl)
  have hparsed := parse_sample
  rw [sampleRun] at hrun ⊢
  generalize sampleManifest "N" = manifest at hrun hparsed ⊢
  have hends := @createBatch_answers sampleService sampleEnvironment BatchDefinition.samplePython sampleSession manifest
    _ _ _ hparsed hkeys hroom hdependencies hanswers
  exact ⟨report, t, hrun, ((Ends.ok_iff hrun).mp hends).1⟩

end Batch
end Asana
end FlashyFactory
