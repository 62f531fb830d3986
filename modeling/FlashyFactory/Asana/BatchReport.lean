import FlashyFactory.Asana.BatchPhases

/-! # What the report of a batch says

What `create_batch` establishes once every lookup is done: how each component ends, and what the report says of
it. Nothing raises any more from the first request that changes something. -/

namespace FlashyFactory
namespace Asana
namespace Batch

variable {service : Service} {env : Environment} {python : Python} {plan : Plan} {s t : Session}
variable {placed : List Placed} {component : List String} {inSection tag reference gid : String}

/-! ## Reading back -/

theorem ends_taskInProject {project : String} : Ends (taskInProject service project gid) s
    (fun task t => s.tasks.get? gid = some task ∧ Reading service s t ∧ .read task ∈ t.log)
    (fun e t => IsClientError e ∧ Reading service s t) := by
  refine Ends.bind_iff.mpr (ends_readTask.mono ?_ fun _ _ h => h)
  rintro task t ⟨hget, hread, hlog⟩
  refine Ends.bind_iff.mpr ((ends_validate (refuses_refuseIf _)).mono ?_ ?_)
  · rintro _ u ⟨-, rfl⟩
    exact Ends.pure_iff.mpr ⟨hget, hread, hlog⟩
  · rintro e u ⟨he, rfl⟩
    exact ⟨he, hread⟩

/-- The references are those of tasks of the batch that are placed. -/
def Known (plan : Plan) (placed : List Placed) (component : List String) : Prop :=
  ∀ reference ∈ component, (∃ gid, gid? placed reference = some gid) ∧
    ∃ expected, plan.tasks.find? (·.ref = reference) = some expected

theorem Known.head (h : Known plan placed (reference :: component)) :
    (∃ gid, gid? placed reference = some gid) ∧ ∃ expected, plan.tasks.find? (·.ref = reference) =
      some expected :=
  h reference List.mem_cons_self

theorem Known.tail (h : Known plan placed (reference :: component)) : Known plan placed component :=
  fun other hother => h other (List.mem_cons_of_mem _ hother)

theorem gidOf_eq (h : gid? placed reference = some gid) : gidOf placed reference = pure gid := by
  rw [gidOf, h]

/-- The task was read back with the tag and the section, and with its custom fields. -/
def Verified (service : Service) (plan : Plan) (tasks : Tasks) (inSection tag reference gid : String) : Prop :=
  ∃ stored expected, plan.tasks.find? (·.ref = reference) = some expected ∧ tasks.get? gid = some stored ∧
    stored.isAuthorized service plan.setup inSection tag expected = true

/-- The task has been read so, and nothing has changed it since. -/
def Seen (service : Service) (plan : Plan) (s : Session) (inSection tag reference gid : String) : Prop :=
  ∃ stored expected, plan.tasks.find? (·.ref = reference) = some expected ∧ s.tasks.get? gid = some stored ∧
    .read stored ∈ s.log ∧ stored.isAuthorized service plan.setup inSection tag expected = true

theorem Seen.verified (h : Seen service plan s inSection tag reference gid) :
    Verified service plan s.tasks inSection tag reference gid := by
  obtain ⟨stored, expected, hexpected, hget, -, hauthorized⟩ := h
  exact ⟨stored, expected, hexpected, hget, hauthorized⟩

theorem Seen.keeps (h : Seen service plan s inSection tag reference gid)
    (hsame : t.tasks.get? gid = s.tasks.get? gid) (hlog : s.log ⊆ t.log) :
    Seen service plan t inSection tag reference gid := by
  obtain ⟨stored, expected, hexpected, hget, hread, hauthorized⟩ := h
  exact ⟨stored, expected, hexpected, hsame.trans hget, hlog hread, hauthorized⟩

theorem ends_verifyAuthorization (hgid : gid? placed reference = some gid)
    {expected : BatchTask} (hexpected : plan.tasks.find? (·.ref = reference) = some expected) :
    Ends (verifyAuthorization service env plan placed inSection tag reference) s
      (fun found t => Reading service s t ∧
        (gid ∈ found.toList.map Prod.fst ∨ Seen service plan t inSection tag reference gid))
      (fun _ _ => False) := by
  have hplan : plan.expected reference = pure expected := by rw [Plan.expected, hexpected]
  rw [verifyAuthorization, gidOf_eq hgid, hplan]
  refine Ends.bind_iff.mpr (Ends.pure_iff.mpr (Ends.bind_iff.mpr (Ends.pure_iff.mpr (Ends.bind_iff.mpr ?_))))
  refine (ends_catch ends_taskInProject).mono ?_ fun _ _ h => h
  rintro (message | task) t hresult
  · exact Ends.pure_iff.mpr ⟨hresult, .inl (by simp)⟩
  · obtain ⟨hget, hread, hlog⟩ := hresult
    rw [← hread.tasks_eq] at hget
    dsimp only
    split
    · next hauthorized =>
      exact Ends.pure_iff.mpr ⟨hread, .inr ⟨task, expected, hexpected, hget, hlog, hauthorized⟩⟩
    · exact Ends.pure_iff.mpr ⟨hread, .inl (by simp)⟩

/-- Every task of the component is verified or listed. -/
def Listed (service : Service) (plan : Plan) (placed : List Placed) (s : Session) (inSection tag : String)
    (component unsafeGids : List String) : Prop :=
  ∀ reference ∈ component, ∀ gid, gid? placed reference = some gid →
    gid ∈ unsafeGids ∨ Seen service plan s inSection tag reference gid

theorem ends_verifyComponentAuthorization (hknown : Known plan placed component) :
    Ends (verifyComponentAuthorization service env plan placed inSection tag component) s
      (fun result t => Reading service s t ∧ Listed service plan placed t inSection tag component result.1)
      (fun _ _ => False) := by
  induction component generalizing s with
  | nil => exact Ends.pure_iff.mpr ⟨.refl, nofun⟩
  | cons reference component ih =>
    obtain ⟨⟨gid, hgid⟩, expected, hexpected⟩ := hknown.head
    refine Ends.bind_iff.mpr ((ends_verifyAuthorization hgid hexpected).mono ?_ fun _ _ h => h)
    rintro found t ⟨hread, hfound⟩
    refine Ends.bind_iff.mpr ((ih hknown.tail).mono ?_ fun _ _ h => h)
    rintro ⟨unsafeGids, failures⟩ u ⟨hread', hlisted⟩
    refine Ends.pure_iff.mpr ⟨hread.trans hread', fun other hother gid' hgid' => ?_⟩
    rcases List.mem_cons.mp hother with rfl | hother
    · cases hgid.symm.trans hgid'
      exact hfound.imp (List.mem_append_left _) fun hseen =>
        hseen.keeps (by rw [hread'.tasks_eq]) hread'.log_subset
    · exact (hlisted other hother gid' hgid').imp_left (List.mem_append_right _)

/-! ## Components -/

/-- The changes of tags and of sections, to one that the plan has. -/
inductive Plan.Settles (plan : Plan) (gid : String) : Change → Prop
  | addTag (tag : String) : Settles plan gid (.addTag tag gid)
  | removeTag (tag : String) : Settles plan gid (.removeTag tag gid)
  | addTask {inSection : String} (h : inSection = plan.setup.backlog ∨ inSection = plan.targetSection) :
    Settles plan gid (.addTask inSection gid)

/-- The request is about a task of the component, and writes no dependency. -/
def About (plan : Plan) (placed : List Placed) (component : List String) (c : Change) : Prop :=
  ∃ reference ∈ component, ∃ gid, gid? placed reference = some gid ∧ plan.Settles gid c

theorem Plan.Settles.target {c : Change} (h : plan.Settles gid c) : c.target? = some gid := by
  cases h <;> rfl

/-- The requests that put a task back. -/
def Safeguards (plan : Plan) (placed : List Placed) (component : List String) (c : Change) : Prop :=
  ∃ reference ∈ component, ∃ gid, gid? placed reference = some gid ∧
    (c = .addTask plan.setup.backlog gid ∨ c = .removeTag plan.setup.autoTag gid ∨
      c = .addTag plan.setup.manualTag gid)

theorem Safeguards.about {c : Change} (h : Safeguards plan placed component c) : About plan placed component c := by
  obtain ⟨reference, hmem, gid, hgid, rfl | rfl | rfl⟩ := h
  · exact ⟨reference, hmem, gid, hgid, .addTask (.inl rfl)⟩
  · exact ⟨reference, hmem, gid, hgid, .removeTag _⟩
  · exact ⟨reference, hmem, gid, hgid, .addTag _⟩

theorem Safeguards.mono {c : Change} {others : List String} (h : Safeguards plan placed component c)
    (hsubset : component ⊆ others) : Safeguards plan placed others c := by
  obtain ⟨reference, hmem, hrest⟩ := h
  exact ⟨reference, hsubset hmem, hrest⟩

theorem About.mono {c : Change} {others : List String} (h : About plan placed component c)
    (hsubset : component ⊆ others) : About plan placed others c := by
  obtain ⟨reference, hmem, hrest⟩ := h
  exact ⟨reference, hsubset hmem, hrest⟩

theorem ends_tryRequest {operation : String} {request : Client Unit} {A : Change → Prop}
    (h : Ends request s (fun _ t => Reaches service A s t) fun e t => IsClientError e ∧ Reaches service A s t) :
    Ends (tryRequest env operation request) s (fun _ t => Reaches service A s t) (fun _ _ => False) := by
  refine Ends.bind_iff.mpr ((ends_catch h).mono ?_ fun _ _ h => h)
  rintro (message | a) t hreaches
  · exact Ends.pure_iff.mpr hreaches
  · exact Ends.pure_iff.mpr hreaches

theorem ends_mutate_of {c : Change} {A : Change → Prop} (h : A c) : Ends (mutate service c) s
    (fun _ t => Reaches service A s t) (fun e t => IsClientError e ∧ Reaches service A s t) := by
  have hmono : ∀ t, Reaches service (· = c) s t → Reaches service A s t := by
    intro t hreaches
    refine hreaches.mono ?_
    rintro c' rfl
    exact h
  exact ends_mutate.mono (fun _ => hmono) fun e t he => ⟨he.1, hmono t he.2⟩

theorem ends_safeguardTask (hmem : reference ∈ component) (hgid : gid? placed reference = some gid) :
    Ends (safeguardTask service env plan placed reference) s
      (fun _ t => Reaches service (Safeguards plan placed component) s t) (fun _ _ => False) := by
  have hsafeguards : ∀ c, c = .addTask plan.setup.backlog gid ∨ c = .removeTag plan.setup.autoTag gid ∨
      c = .addTag plan.setup.manualTag gid → Safeguards plan placed component c :=
    fun c hc => ⟨reference, hmem, gid, hgid, hc⟩
  rw [safeguardTask, gidOf_eq hgid]
  refine Ends.bind_iff.mpr (Ends.pure_iff.mpr (Ends.bind_iff.mpr ?_))
  refine (ends_tryRequest (ends_mutate_of (hsafeguards _ (.inl rfl)))).mono ?_ fun _ _ h => h
  intro _ t hst
  refine Ends.bind_iff.mpr ((ends_tryRequest (ends_mutate_of (hsafeguards _ (.inr (.inl rfl))))).mono ?_
    fun _ _ h => h)
  intro _ u htu
  refine Ends.bind_iff.mpr ((ends_tryRequest (ends_mutate_of (hsafeguards _ (.inr (.inr rfl))))).mono ?_
    fun _ _ h => h)
  intro _ v huv
  exact Ends.pure_iff.mpr ((hst.trans htu).trans huv)

theorem ends_safeguardTasks {references : List String} (hsubset : references ⊆ component)
    (hknown : Known plan placed component) : Ends (safeguardTasks service env plan placed references) s
      (fun _ t => Reaches service (Safeguards plan placed component) s t) (fun _ _ => False) := by
  induction references generalizing s with
  | nil => exact Ends.pure_iff.mpr .refl
  | cons reference references ih =>
    have hmem := hsubset List.mem_cons_self
    obtain ⟨⟨gid, hgid⟩, -⟩ := hknown reference hmem
    refine Ends.bind_iff.mpr ((ends_safeguardTask hmem hgid).mono ?_ fun _ _ h => h)
    intro _ t hst
    refine Ends.bind_iff.mpr ((ih (List.subset_of_cons_subset hsubset)).mono ?_ fun _ _ h => h)
    intro _ u htu
    exact Ends.pure_iff.mpr (hst.trans htu)

theorem ends_safeguardComponent (hknown : Known plan placed component) :
    Ends (safeguardComponent service env plan placed component) s
      (fun result t => Reaches service (Safeguards plan placed component) s t ∧
        Listed service plan placed t plan.setup.backlog plan.setup.manualTag component result.1)
      (fun _ _ => False) := by
  refine Ends.bind_iff.mpr ((ends_safeguardTasks (List.reverse_subset.mpr (List.Subset.refl _)) hknown).mono ?_
    fun _ _ h => h)
  intro _ t hst
  refine Ends.bind_iff.mpr ((ends_verifyComponentAuthorization hknown).mono ?_ fun _ _ h => h)
  rintro ⟨unsafeGids, failures⟩ u ⟨hread, hlisted⟩
  exact Ends.pure_iff.mpr ⟨hst.trans (hread.mono fun _ hfalse => hfalse.elim), hlisted⟩

theorem ends_mutateAll {change : String → Change} (hchange : ∀ gid, plan.Settles gid (change gid))
    {references : List String}
    (hsubset : references ⊆ component) (hknown : Known plan placed component) :
    Ends (mutateAll service placed change references) s (fun _ t => Reaches service (About plan placed component) s t)
      (fun e t => IsClientError e ∧ Reaches service (About plan placed component) s t) := by
  induction references generalizing s with
  | nil => exact Ends.pure_iff.mpr .refl
  | cons reference references ih =>
    have hmem := hsubset List.mem_cons_self
    obtain ⟨⟨gid, hgid⟩, -⟩ := hknown reference hmem
    rw [mutateAll, gidOf_eq hgid]
    refine Ends.bind_iff.mpr (Ends.pure_iff.mpr (Ends.bind_iff.mpr ?_))
    refine (ends_mutate_of ⟨reference, hmem, gid, hgid, hchange gid⟩).mono ?_ fun _ _ h => h
    intro _ t hst
    exact (ih (List.subset_of_cons_subset hsubset)).mono (fun _ u htu => hst.trans htu)
      fun e u he => ⟨he.1, hst.trans he.2⟩

theorem ends_moveToTarget (hknown : Known plan placed component) :
    Ends (moveToTarget service plan placed component) s (fun _ t => Reaches service (About plan placed component) s t)
      (fun e t => IsClientError e ∧ Reaches service (About plan placed component) s t) := by
  unfold moveToTarget
  split
  · exact ends_mutateAll (fun _ => .addTask (.inr rfl)) (List.Subset.refl _) hknown
  · exact Ends.pure_iff.mpr .refl

theorem ends_authorizeComponent (hknown : Known plan placed component) :
    Ends (authorizeComponent service env plan placed component) s
      (fun result t => Reaches service (About plan placed component) s t ∧
        Listed service plan placed t plan.targetSection plan.selectedTag component result.1)
      (fun e t => IsClientError e ∧ Reaches service (About plan placed component) s t) := by
  refine Ends.bind_iff.mpr ((ends_mutateAll (fun _ => .removeTag _) (List.Subset.refl _) hknown).mono ?_
    fun _ _ h => h)
  intro _ t hst
  refine Ends.bind_iff.mpr ((ends_mutateAll (fun _ => .addTag _) (List.Subset.refl _) hknown).mono ?_
    fun e u he => ⟨he.1, hst.trans he.2⟩)
  intro _ u htu
  refine Ends.bind_iff.mpr ((ends_moveToTarget hknown).mono ?_ fun e v he => ⟨he.1, (hst.trans htu).trans he.2⟩)
  intro _ v huv
  refine (ends_verifyComponentAuthorization hknown).mono ?_ fun _ _ h => h.elim
  rintro ⟨unsafeGids, failures⟩ w ⟨hread, hlisted⟩
  exact ⟨((hst.trans htu).trans huv).trans (hread.mono fun _ hfalse => hfalse.elim), hlisted⟩

theorem ends_fallBack {failures : List OperationFailure} (hknown : Known plan placed component) :
    Ends (fallBack service env plan placed component failures) s
      (fun result t => Reaches service (About plan placed component) s t ∧ result.1 = false ∧
        Listed service plan placed t plan.setup.backlog plan.setup.manualTag component result.2.1)
      (fun _ _ => False) := by
  refine Ends.bind_iff.mpr ((ends_safeguardComponent hknown).mono ?_ fun _ _ h => h)
  rintro ⟨unsafeGids, failures⟩ t ⟨hreaches, hlisted⟩
  exact Ends.pure_iff.mpr ⟨hreaches.mono fun _ h => Safeguards.about h, rfl, hlisted⟩

/-- A component is authorized, or it is put back. -/
def Activated (service : Service) (plan : Plan) (placed : List Placed) (s : Session) (component : List String)
    (activated : Bool) (unsafeGids : List String) : Prop :=
  (activated = true → unsafeGids = [] ∧
    Listed service plan placed s plan.targetSection plan.selectedTag component []) ∧
  (activated = false →
    Listed service plan placed s plan.setup.backlog plan.setup.manualTag component unsafeGids)

theorem ends_activateComponent (hknown : Known plan placed component) :
    Ends (activateComponent service env plan placed component) s
      (fun result t => Reaches service (About plan placed component) s t ∧
        Activated service plan placed t component result.1 result.2.1)
      (fun _ _ => False) := by
  have hback : ∀ t failures, Reaches service (About plan placed component) s t →
      Ends (fallBack service env plan placed component failures) t
        (fun result u => Reaches service (About plan placed component) s u ∧
          Activated service plan placed u component result.1 result.2.1) (fun _ _ => False) := by
    intro t failures hst
    refine (ends_fallBack hknown).mono ?_ fun _ _ h => h
    rintro ⟨activated, unsafeGids, failures⟩ u ⟨htu, rfl, hlisted⟩
    exact ⟨hst.trans htu, nofun, fun _ => hlisted⟩
  refine Ends.bind_iff.mpr ((ends_catch (ends_authorizeComponent hknown)).mono ?_ fun _ _ h => h)
  rintro (message | ⟨unsafeGids, failures⟩) t hresult
  · exact hback t _ hresult
  · obtain ⟨hst, hlisted⟩ := hresult
    dsimp only
    split
    · next hnone =>
      cases hnone
      exact Ends.pure_iff.mpr ⟨hst, fun _ => ⟨rfl, hlisted⟩, nofun⟩
    · exact hback t _ hst

/-! ## Edges -/

/-- The request writes a dependency between tasks that are placed. -/
def Wires (placed : List Placed) (c : Change) : Prop :=
  ∃ reference gid, gid? placed reference = some gid ∧ ∃ other blocker, gid? placed other = some blocker ∧
    c = .addDependencies gid [blocker]

/-- Both ends of the edges are placed. -/
def Linked (placed : List Placed) (edges : List (String × String)) : Prop :=
  ∀ e ∈ edges, (∃ gid, gid? placed e.1 = some gid) ∧ ∃ gid, gid? placed e.2 = some gid

theorem ends_addDependency {edge : String × String} {dependent blocker : String}
    (hdependent : gid? placed edge.1 = some dependent) (hblocker : gid? placed edge.2 = some blocker) :
    Ends (addDependency service placed edge) s (fun _ t => Reaches service (Wires placed) s t)
      (fun e t => IsClientError e ∧ Reaches service (Wires placed) s t) := by
  rw [addDependency, gidOf_eq hdependent, gidOf_eq hblocker]
  refine Ends.bind_iff.mpr (Ends.pure_iff.mpr (Ends.bind_iff.mpr (Ends.pure_iff.mpr ?_)))
  exact ends_mutate_of ⟨edge.1, dependent, hdependent, edge.2, blocker, hblocker, rfl⟩

theorem ends_addDependencies {edges : List (String × String)} (hlinked : Linked placed edges) :
    Ends (addDependencies service env placed edges) s (fun _ t => Reaches service (Wires placed) s t)
      (fun _ _ => False) := by
  induction edges generalizing s with
  | nil => exact Ends.pure_iff.mpr .refl
  | cons edge edges ih =>
    obtain ⟨⟨dependent, hdependent⟩, blocker, hblocker⟩ := hlinked edge List.mem_cons_self
    refine Ends.bind_iff.mpr ((ends_tryRequest (ends_addDependency hdependent hblocker)).mono ?_ fun _ _ h => h)
    intro _ t hst
    refine Ends.bind_iff.mpr ((ih fun e he => hlinked e (List.mem_cons_of_mem _ he)).mono ?_ fun _ _ h => h)
    intro _ u htu
    exact Ends.pure_iff.mpr (hst.trans htu)

theorem mapM_requireGid {name : String} {items gids : List String} (h : items.mapM (requireGid name) = .ok gids) :
    gids = items := by
  have hall := Except.mapM_eq_ok.mp h
  refine (List.forall₂_eq_eq_eq ▸ hall.imp ?_ : items = gids).symm
  intro item gid hgid
  exact (requireGid_eq_ok.mp hgid).2

theorem ends_readDependencies {dependent : String} (hgid : gid? placed dependent = some gid) :
    Ends (readDependencies service plan placed dependent) s
      (fun gids t => Reading service s t ∧ ∃ stored, s.tasks.get? gid = some stored ∧ .read stored ∈ t.log ∧
        gids = stored.dependencies)
      (fun e t => IsClientError e ∧ Reading service s t) := by
  rw [readDependencies, gidOf_eq hgid]
  refine Ends.bind_iff.mpr (Ends.pure_iff.mpr (Ends.bind_iff.mpr (ends_taskInProject.mono ?_ fun _ _ h => h)))
  rintro stored t ⟨hget, hread, hlog⟩
  refine (ends_validate (refuses_mapM (refuses_requireGid _) _)).mono ?_ ?_
  · rintro gids u ⟨hgids, rfl⟩
    exact ⟨hread, stored, hget, hlog, mapM_requireGid hgids⟩
  · rintro e u ⟨he, rfl⟩
    exact ⟨he, hread⟩

/-- The dependencies are those that the tasks have, and were read so. -/
def ReadBack (placed : List Placed) (s : Session) (blockers : List (String × List String)) : Prop :=
  ∀ dependent gids, blockers.lookup dependent = some gids → ∃ gid stored, gid? placed dependent = some gid ∧
    s.tasks.get? gid = some stored ∧ .read stored ∈ s.log ∧ gids = stored.dependencies

theorem ends_verifyDependencies {dependents : List String}
    (hplaced : ∀ dependent ∈ dependents, ∃ gid, gid? placed dependent = some gid) :
    Ends (verifyDependencies service env plan placed dependents) s
      (fun result t => Reading service s t ∧ ReadBack placed t result.1) (fun _ _ => False) := by
  induction dependents generalizing s with
  | nil => exact Ends.pure_iff.mpr ⟨.refl, nofun⟩
  | cons dependent dependents ih =>
    obtain ⟨gid, hgid⟩ := hplaced dependent List.mem_cons_self
    refine Ends.bind_iff.mpr ((ends_catch (ends_readDependencies hgid)).mono ?_ fun _ _ h => h)
    intro found t hfound
    have hread : Reading service s t := by
      cases found with
      | error message => exact hfound
      | ok gids => exact hfound.1
    refine Ends.bind_iff.mpr ((ih fun other hother => hplaced other (List.mem_cons_of_mem _ hother)).mono ?_
      fun _ _ h => h)
    rintro ⟨blockers, failures⟩ u ⟨hread', hback⟩
    cases found with
    | error message => exact Ends.pure_iff.mpr ⟨hread.trans hread', hback⟩
    | ok gids =>
      obtain ⟨-, stored, hget, hlog, hgids⟩ := hfound
      refine Ends.pure_iff.mpr ⟨hread.trans hread', fun other others hlookup => ?_⟩
      rw [List.lookup_cons] at hlookup
      split at hlookup
      · next hsame =>
        obtain rfl := eq_of_beq hsame
        cases hlookup
        rw [← hread.tasks_eq, ← hread'.tasks_eq] at hget
        exact ⟨gid, stored, hgid, hget, hread'.log_subset hlog, hgids⟩
      · exact hback other others hlookup

/-- The edge was found among the dependencies that were read. -/
def Confirmed (placed : List Placed) (blockers : List (String × List String)) (edge : String × String) : Prop :=
  ∃ blocker, gid? placed edge.2 = some blocker ∧ blocker ∈ (blockers.lookup edge.1).getD []

theorem ends_classifyEdges {blockers : List (String × List String)} {edges : List (String × String)}
    (hlinked : Linked placed edges) : Ends (classifyEdges placed blockers edges) s
      (fun result t => t = s ∧ ∀ edge ∈ edges, edge ∈ result.2.map Prod.fst ∨ Confirmed placed blockers edge)
      (fun _ _ => False) := by
  induction edges generalizing s with
  | nil => exact Ends.pure_iff.mpr ⟨rfl, nofun⟩
  | cons edge edges ih =>
    obtain ⟨⟨dependent, hdependent⟩, blocker, hblocker⟩ := hlinked edge List.mem_cons_self
    have hrecord : edgeRecord placed edge = pure ⟨edgeText edge, edge.1, dependent, edge.2, blocker⟩ := by
      rw [edgeRecord, gidOf_eq hdependent, gidOf_eq hblocker]
      rfl
    rw [classifyEdges, hrecord]
    refine Ends.bind_iff.mpr (Ends.pure_iff.mpr (Ends.bind_iff.mpr ?_))
    refine (ih fun e he => hlinked e (List.mem_cons_of_mem _ he)).mono ?_ fun _ _ h => h
    rintro ⟨verified, missing⟩ t ⟨rfl, hedges⟩
    dsimp only
    split
    · next hmem =>
      exact Ends.pure_iff.mpr ⟨rfl, List.forall_mem_cons.mpr ⟨.inr ⟨blocker, hblocker, hmem⟩, hedges⟩⟩
    · refine Ends.pure_iff.mpr ⟨rfl, List.forall_mem_cons.mpr ⟨.inl (by simp), fun e he => ?_⟩⟩
      exact (hedges e he).imp_left fun hmem => List.mem_cons_of_mem _ hmem

/-! ## Statuses -/

/-- The section and the tag that a status says of the tasks. -/
def Plan.placeOf (plan : Plan) : ComponentStatus → String × String
  | .readyForSpec => (plan.setup.readyForSpec.getD "", plan.setup.autoTag)
  | _ => (plan.setup.backlog, plan.setup.manualTag)

/-- The statuses of a component that is as it was requested. -/
def ComponentStatus.IsActive (status : ComponentStatus) : Prop := status = .readyForSpec ∨ status = .manualBacklog

/-- The status says where the tasks of the component are that are not listed as unsafe. -/
structure SettledAs (service : Service) (plan : Plan) (placed : List Placed) (s : Session) (r : ComponentReport) :
    Prop where
  listed : Listed service plan placed s (plan.placeOf r.status).1 (plan.placeOf r.status).2 r.tasks r.unsafeTaskGids
  unsafeGids : r.unsafeTaskGids ≠ [] → r.status = .authorizationStateUnsafe

theorem placeOf_activated (unsafeGids : List String) : plan.placeOf (activationStatus plan true unsafeGids) =
    (plan.targetSection, plan.selectedTag) := by
  rw [activationStatus, if_pos rfl, Plan.targetSection, Plan.selectedTag]
  cases plan.deliveryPolicy <;> rfl

theorem Activated.settled {activated : Bool} {unsafeGids missing : List String}
    (h : Activated service plan placed s component activated unsafeGids) : SettledAs service plan placed s
      ⟨component, missing, unsafeGids, activationStatus plan activated unsafeGids⟩ := by
  cases activated with
  | true =>
    obtain ⟨rfl, hlisted⟩ := h.1 rfl
    refine ⟨?_, fun hne => (hne rfl).elim⟩
    rw [placeOf_activated []]
    exact hlisted
  | false =>
    have hlisted := h.2 rfl
    unfold activationStatus
    by_cases hnone : unsafeGids = []
    · subst hnone
      exact ⟨hlisted, fun hne => (hne rfl).elim⟩
    · simp only [Bool.false_eq_true, if_false, if_neg hnone]
      exact ⟨hlisted, fun _ => rfl⟩

/-- Only a component that is authorized becomes active. -/
theorem activated_of_isActive {activated : Bool} {unsafeGids : List String}
    (h : (activationStatus plan activated unsafeGids).IsActive) : activated = true := by
  cases activated with
  | true => rfl
  | false =>
    by_cases hnone : unsafeGids = [] <;> simp [activationStatus, hnone, ComponentStatus.IsActive] at h

theorem settled_safeguarded {unsafeGids missing : List String} {status : ComponentStatus}
    (hlisted : Listed service plan placed s plan.setup.backlog plan.setup.manualTag component unsafeGids)
    (hstatus : status ≠ .readyForSpec) : SettledAs service plan placed s
      ⟨component, missing, unsafeGids, if unsafeGids = [] then status else .authorizationStateUnsafe⟩ := by
  by_cases hnone : unsafeGids = []
  · subst hnone
    refine ⟨?_, fun hne => (hne rfl).elim⟩
    have hplace : plan.placeOf status = (plan.setup.backlog, plan.setup.manualTag) := by
      cases status <;> first | rfl | exact (hstatus rfl).elim
    rw [if_pos rfl, hplace]
    exact hlisted
  · rw [if_neg hnone]
    exact ⟨hlisted, fun _ => rfl⟩

/-- How a turn of the loop over the components ends. -/
structure Turned (service : Service) (plan : Plan) (placed : List Placed) (missingPairs : List (String × String))
    (s : Session) (r : ComponentReport) : Prop where
  settled : SettledAs service plan placed s r
  active : r.status.IsActive → ∀ edge ∈ componentEdges plan.edges r.tasks, edge ∉ missingPairs
  place : r.status.IsActive → plan.placeOf r.status = (plan.targetSection, plan.selectedTag)

theorem ends_settleComponent {missingPairs : List (String × String)} (hknown : Known plan placed component) :
    Ends (settleComponent service env plan placed missingPairs component) s
      (fun result t => result.1.tasks = component ∧ Reaches service (About plan placed component) s t ∧
        Turned service plan placed missingPairs t result.1)
      (fun _ _ => False) := by
  unfold settleComponent
  dsimp only
  split
  · next hmissing =>
    refine Ends.bind_iff.mpr ((ends_activateComponent hknown).mono ?_ fun _ _ h => h)
    rintro ⟨activated, unsafeGids, failures⟩ t ⟨hreaches, hactivated⟩
    refine Ends.pure_iff.mpr ⟨rfl, hreaches, hactivated.settled, fun _ edge hedge hmem => ?_, fun hactive => ?_⟩
    · have hnone := List.map_eq_nil_iff.mp hmissing
      refine List.filter_eq_nil_iff.mp hnone edge hedge ?_
      exact decide_eq_true hmem
    · obtain rfl := activated_of_isActive hactive
      exact placeOf_activated unsafeGids
  · refine Ends.bind_iff.mpr ((ends_safeguardComponent hknown).mono ?_ fun _ _ h => h)
    rintro ⟨unsafeGids, failures⟩ t ⟨hreaches, hlisted⟩
    have hinactive : ¬ ComponentStatus.IsActive
        (if unsafeGids = [] then .manualBacklogUnverified else .authorizationStateUnsafe) := by
      by_cases hnone : unsafeGids = [] <;> simp [hnone, ComponentStatus.IsActive]
    exact Ends.pure_iff.mpr ⟨rfl, hreaches.mono fun _ h => Safeguards.about h,
      settled_safeguarded hlisted (by simp), fun hactive => (hinactive hactive).elim,
      fun hactive => (hinactive hactive).elim⟩

theorem SettledAs.keeps {r : ComponentReport} (h : SettledAs service plan placed s r)
    (hsame : ∀ reference ∈ r.tasks, ∀ gid, gid? placed reference = some gid →
      t.tasks.get? gid = s.tasks.get? gid) (hlog : s.log ⊆ t.log) : SettledAs service plan placed t r := by
  refine ⟨fun reference hmem gid hgid => ?_, h.unsafeGids⟩
  exact (h.listed reference hmem gid hgid).imp_right fun hseen => hseen.keeps (hsame reference hmem gid hgid) hlog

theorem gid?_inj (hplaced : ∀ entry ∈ placed, ∀ other ∈ placed, entry.gid = other.gid → entry = other)
    {first second : String} (hfirst : gid? placed first = some gid) (hsecond : gid? placed second = some gid) :
    first = second := by
  obtain ⟨entry, hentry, hgid⟩ := Option.map_eq_some_iff.mp hfirst
  obtain ⟨other, hother, hgid'⟩ := Option.map_eq_some_iff.mp hsecond
  have hsame := hplaced entry (List.mem_of_find?_eq_some hentry) other (List.mem_of_find?_eq_some hother)
    (hgid.trans hgid'.symm)
  subst hsame
  have href := List.find?_some hentry
  have href' := List.find?_some hother
  rw [decide_eq_true_eq] at href href'
  exact href.symm.trans href'

/-- A component is not touched while another one is settled. -/
theorem Reaches.outside (h : Reaches service (About plan placed component) s t)
    (hplaced : ∀ entry ∈ placed, ∀ other ∈ placed, entry.gid = other.gid → entry = other)
    (hgid : gid? placed reference = some gid) (hnot : reference ∉ component) :
      t.tasks.get? gid = s.tasks.get? gid := by
  refine @Reaches.frame service s t _ (component.filterMap (gid? placed)) h ?_ gid ?_
  · rintro c ⟨other, hmem, target, htarget, hc⟩
    exact ⟨target, List.mem_filterMap.mpr ⟨other, hmem, htarget⟩, hc.target⟩
  · intro hmem
    obtain ⟨other, hother, hgid'⟩ := List.mem_filterMap.mp hmem
    exact hnot (gid?_inj hplaced hgid hgid' ▸ hother)

theorem ends_settleComponents {missingPairs : List (String × String)} {parts : List (List String)}
    (hplaced : ∀ entry ∈ placed, ∀ other ∈ placed, entry.gid = other.gid → entry = other)
    (hdisjoint : parts.Pairwise List.Disjoint) (hknown : ∀ part ∈ parts, Known plan placed part) :
    Ends (settleComponents service env plan placed missingPairs parts) s
      (fun result t => result.1.map ComponentReport.tasks = parts ∧
        Reaches service (About plan placed parts.flatten) s t ∧
        ∀ r ∈ result.1, Turned service plan placed missingPairs t r)
      (fun _ _ => False) := by
  induction parts generalizing s with
  | nil => exact Ends.pure_iff.mpr ⟨rfl, .refl, nofun⟩
  | cons part parts ih =>
    obtain ⟨hhead, htail⟩ := List.pairwise_cons.mp hdisjoint
    refine Ends.bind_iff.mpr ((ends_settleComponent (hknown part List.mem_cons_self)).mono ?_ fun _ _ h => h)
    rintro ⟨r, failures⟩ t ⟨htasks, hst, hturned⟩
    refine Ends.bind_iff.mpr ((ih htail fun other hother => hknown other (List.mem_cons_of_mem _ hother)).mono ?_
      fun _ _ h => h)
    rintro ⟨rest, others⟩ u ⟨hparts, htu, hrest⟩
    refine Ends.pure_iff.mpr ⟨?_, ?_, List.forall_mem_cons.mpr ⟨?_, hrest⟩⟩
    · exact congrArg₂ List.cons htasks hparts
    · refine (hst.mono fun _ h => h.mono ?_).trans (htu.mono fun _ h => h.mono ?_)
      · exact List.subset_append_left _ _
      · exact List.subset_append_right _ _
    · refine ⟨hturned.settled.keeps (fun reference hmem gid hgid => ?_) htu.log_subset, hturned.active,
        hturned.place⟩
      refine htu.outside hplaced hgid fun hflatten => ?_
      obtain ⟨other, hother, hmem'⟩ := List.mem_flatten.mp hflatten
      exact hhead other hother (htasks ▸ hmem) hmem'

end Batch
end Asana
end FlashyFactory
