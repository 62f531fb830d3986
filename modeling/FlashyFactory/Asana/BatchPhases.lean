import FlashyFactory.Asana.BatchRules

/-! # The tasks that a batch finds and creates

What no request changes of a task, which tasks a phase leaves alone, and what the lookup loop and the creation
loop of `create_batch` establish. -/

namespace FlashyFactory
namespace Asana
namespace Batch

variable {service : Service} {env : Environment} {python : Python} {plan : Plan} {s t : Session}

/-! ## What requests leave alone -/

/-- What no request changes. -/
def StoredTask.core (task : StoredTask) :
    String × String × Bool × Option (String × String) × List (String × String) :=
  (task.name, task.notes, task.completed, task.external, task.customFields)

/-- The existing task that is changed. -/
def Change.target? : Change → Option String
  | create _ => none
  | addTask _ gid | addTag _ gid | removeTag _ gid | addDependencies gid _ => some gid

namespace Change

theorem update_core (c : Change) (task : StoredTask) : (c.update service task).core = task.core := by
  cases c <;> rfl

theorem get?_apply_create {tasks : Tasks} {new : NewTask} {gid : String} :
    ((create new).apply service tasks).get? gid =
      if gid = tasks.nextGid service then some (.ofNew service new (tasks.nextGid service)) else tasks.get? gid := by
  exact @KeyedTable.get?_insert _ _ _ (.ofNew service new (tasks.nextGid service)) gid _ tasks
    (tasks.nextGid_fresh service)

theorem get?_apply {tasks : Tasks} {c : Change} {gid target : String} (h : c.target? = some target) :
    (c.apply service tasks).get? gid =
      if gid = target then (tasks.get? gid).map (c.update service) else tasks.get? gid := by
  have hmodify : ∀ update : StoredTask → StoredTask, (hupdate : ∀ task, (update task).gid = task.gid) →
      (tasks.modify target (fun _ => true) update hupdate).get? gid =
        if gid = target then (tasks.get? gid).map update else tasks.get? gid := by
    intro update hupdate
    rw [KeyedTable.get?_modify]
    by_cases hgid : gid = target
    · simp [hgid]
    · simp [hgid]
  cases c <;> cases h <;> exact hmodify _ _

theorem get?_nextGid (tasks : Tasks) : tasks.get? (tasks.nextGid service) = none :=
  KeyedTable.get?_eq_none.mpr (tasks.nextGid_fresh service)

theorem keeps_apply (c : Change) (tasks : Tasks) : tasks.Keeps StoredTask.core (c.apply service tasks) := by
  intro gid task htask
  cases htarget : c.target? with
  | none =>
    cases c with
    | create new =>
      refine ⟨task, ?_, rfl⟩
      rw [get?_apply_create, if_neg, htask]
      rintro rfl
      rw [get?_nextGid] at htask
      cases htask
    | _ => cases htarget
  | some target =>
    rw [get?_apply htarget, htask]
    split
    · exact ⟨_, rfl, update_core c task⟩
    · exact ⟨task, rfl, rfl⟩

end Change

theorem Reaches.core {A : Change → Prop} (h : Reaches service A s t) : s.tasks.Keeps StoredTask.core t.tasks :=
  h.keeps_tasks (P := fun tasks => s.tasks.Keeps StoredTask.core tasks) .refl fun tasks c _ _ hkeeps =>
    hkeeps.trans (c.keeps_apply tasks)

/-- The change is one of an existing task among these. -/
def Within (gids : List String) (c : Change) : Prop := ∃ gid ∈ gids, c.target? = some gid

/-- Only the tasks among these are changed. -/
theorem Reaches.frame {A : Change → Prop} {gids : List String} (h : Reaches service A s t)
    (hwithin : ∀ c, A c → Within gids c) : ∀ gid ∉ gids, t.tasks.get? gid = s.tasks.get? gid := by
  intro gid hgid
  refine h.keeps_tasks (P := fun tasks => tasks.get? gid = s.tasks.get? gid) rfl fun tasks c hc _ hsame => ?_
  obtain ⟨target, htarget, hc⟩ := hwithin c hc
  rw [Change.get?_apply hc, if_neg, hsame]
  rintro rfl
  exact hgid htarget

/-- Nothing is created. -/
theorem Reaches.no_new {A : Change → Prop} {gids : List String} (h : Reaches service A s t)
    (hwithin : ∀ c, A c → Within gids c) : ∀ gid, s.tasks.get? gid = none → t.tasks.get? gid = none := by
  intro gid hnone
  refine h.keeps_tasks (P := fun tasks => tasks.get? gid = none) hnone fun tasks c hc _ hnone => ?_
  obtain ⟨target, -, hc⟩ := hwithin c hc
  rw [Change.get?_apply hc, hnone]
  simp

/-! ## Tasks of the batch -/

/-- The task has the identity of a task of the batch, and its content. -/
structure Carries (python : Python) (plan : Plan) (task : BatchTask) (stored : StoredTask) : Prop where
  external : stored.external = some (plan.externalGid task, plan.externalData python task)
  name : stored.name = task.name
  notes : stored.notes = task.notes.getD ""
  unfinished : stored.completed = false

theorem Carries.of_core {task : BatchTask} {stored stored' : StoredTask} (h : Carries python plan task stored)
    (hcore : stored'.core = stored.core) : Carries python plan task stored' := by
  simp only [StoredTask.core, Prod.mk.injEq] at hcore
  obtain ⟨hname, hnotes, hcompleted, hexternal, -⟩ := hcore
  exact ⟨hexternal.trans h.external, hname.trans h.name, hnotes.trans h.notes, hcompleted.trans h.unfinished⟩

theorem Carries.of_matches {task : BatchTask} {stored : StoredTask} {project : String} {allowed : List String}
    (h : Matches service task (plan.externalGid task) (plan.externalData python task) project allowed stored) :
    Carries python plan task stored := ⟨h.external, h.name, h.notes, h.unfinished⟩

def Holds (python : Python) (plan : Plan) (tasks : Tasks) (task : BatchTask) (gid : String) : Prop :=
  ∃ stored, tasks.get? gid = some stored ∧ Carries python plan task stored

theorem Holds.keeps {tasks tasks' : Tasks} {task : BatchTask} {gid : String} (h : Holds python plan tasks task gid)
    (hkeeps : tasks.Keeps StoredTask.core tasks') : Holds python plan tasks' task gid := by
  obtain ⟨stored, hget, hcarries⟩ := h
  obtain ⟨stored', hget', hcore⟩ := hkeeps gid stored hget
  exact ⟨stored', hget', hcarries.of_core hcore⟩

theorem externalGid_ref_inj {task other : BatchTask} :
    plan.externalGid task = plan.externalGid other ↔ task.ref = other.ref := by
  constructor
  · intro h
    have hsuffix := externalGid_inj.mp h
    rw [List.append_cancel_left_eq, List.cons_inj_right] at hsuffix
    by_cases htask : task.ref = plan.anchorRef
    · by_cases hother : other.ref = plan.anchorRef
      · rw [htask, hother]
      · rw [identitySuffix_anchor htask, identitySuffix_task hother] at hsuffix
        exact absurd hsuffix (by simp)
    · by_cases hother : other.ref = plan.anchorRef
      · rw [identitySuffix_task htask, identitySuffix_anchor hother] at hsuffix
        exact absurd hsuffix (by simp)
      · rw [identitySuffix_task htask, identitySuffix_task hother] at hsuffix
        simpa [String.toList_inj] using hsuffix
  · intro h
    rw [Plan.externalGid, Plan.externalGid, h]

theorem Carries.ref_eq {task other : BatchTask} {stored : StoredTask} (h : Carries python plan task stored)
    (h' : Carries python plan other stored) : task.ref = other.ref := by
  have hexternal := h.external.symm.trans h'.external
  simp only [Option.some.injEq, Prod.mk.injEq] at hexternal
  exact externalGid_ref_inj.mp hexternal.1

def Progress.refs (progress : Progress) : List String := progress.placed.map Placed.ref

/-- What is known of the tasks that are placed. -/
structure Placements (python : Python) (plan : Plan) (tasks : Tasks) (placed : List Placed) : Prop where
  refs : (placed.map Placed.ref).Nodup
  gids : ∀ entry ∈ placed, isGid entry.gid = true
  holds : ∀ entry ∈ placed, ∃ task ∈ plan.tasks, task.ref = entry.ref ∧ Holds python plan tasks task entry.gid

theorem Placements.keeps {tasks tasks' : Tasks} {placed : List Placed} (h : Placements python plan tasks placed)
    (hkeeps : tasks.Keeps StoredTask.core tasks') : Placements python plan tasks' placed := by
  refine ⟨h.refs, h.gids, fun entry hentry => ?_⟩
  obtain ⟨task, htask, href, hholds⟩ := h.holds entry hentry
  exact ⟨task, htask, href, hholds.keeps hkeeps⟩

/-- No task is placed twice. -/
theorem Placements.gid_inj {tasks : Tasks} {placed : List Placed} (h : Placements python plan tasks placed)
    {entry other : Placed} (hentry : entry ∈ placed) (hother : other ∈ placed) (hgid : entry.gid = other.gid) :
    entry = other := by
  obtain ⟨task, -, href, stored, hget, hcarries⟩ := h.holds entry hentry
  obtain ⟨task', -, href', stored', hget', hcarries'⟩ := h.holds other hother
  rw [hgid, hget', Option.some.injEq] at hget
  subst hget
  have hrefs : entry.ref = other.ref := by rw [← href, ← href', hcarries.ref_eq hcarries']
  exact List.inj_on_of_nodup_map h.refs hentry hother hrefs

/-! ## The lookup loop -/

theorem findExternal_some {externalGid : String} {tasks : Tasks} {stored : StoredTask}
    (h : findExternal externalGid tasks = some stored) : tasks.get? stored.gid = some stored ∧
      ∃ data, stored.external = some (externalGid, data) := by
  obtain ⟨hmatch, before, after, hrows, -⟩ := List.find?_eq_some_iff_append.mp h
  refine ⟨KeyedTable.get?_of_mem ?_, ?_⟩
  · rw [← KeyedTable.mem_rows, hrows]
    simp
  · cases hexternal : stored.external with
    | none => simp [hexternal] at hmatch
    | some external =>
      obtain ⟨gid, data⟩ := external
      simp only [hexternal, Option.any_some, decide_eq_true_eq] at hmatch
      exact ⟨data, by rw [hmatch]⟩

def StoredTask.externalGid? (task : StoredTask) : Option String := task.external.map Prod.fst

theorem findExternal_none {externalGid : String} {tasks : Tasks} :
    findExternal externalGid tasks = none ↔ ∀ gid stored, tasks.get? gid = some stored →
      stored.externalGid? ≠ some externalGid := by
  rw [findExternal, List.find?_eq_none]
  constructor
  · intro h gid stored hget hexternal
    refine h stored (KeyedTable.mem_of_get? hget) ?_
    obtain ⟨external, hsome, rfl⟩ := Option.map_eq_some_iff.mp hexternal
    simp [hsome]
  · intro h stored hmem hexternal
    refine h stored.gid stored (KeyedTable.get?_of_mem hmem) ?_
    obtain ⟨external, hsome, hgid⟩ := (Option.any_eq_true _ _).mp hexternal
    rw [StoredTask.externalGid?, hsome, Option.map_some, of_decide_eq_true hgid]

/-- The task is accepted as one of the batch. -/
abbrev Plan.Accepts (service : Service) (python : Python) (plan : Plan) (task : BatchTask) (stored : StoredTask) :
    Prop :=
  Matches service task (plan.externalGid task) (plan.externalData python task) plan.setup.project
    plan.setup.allowedExisting stored

/-- What the lookup loop finds. -/
structure Found (service : Service) (python : Python) (plan : Plan) (tasks : Tasks) (wanted : List BatchTask)
    (placed : List Placed) : Prop where
  refs : (placed.map Placed.ref).Sublist (wanted.map BatchTask.ref)
  accepted : ∀ entry ∈ placed, ∃ task ∈ wanted, task.ref = entry.ref ∧ ∃ stored,
    tasks.get? entry.gid = some stored ∧
    plan.Accepts service python task stored
  missing : ∀ task ∈ wanted, task.ref ∉ placed.map Placed.ref →
    findExternal (plan.externalGid task) tasks = none

theorem Found.holds {tasks : Tasks} {wanted : List BatchTask} {placed : List Placed}
    (F : Found service python plan tasks wanted placed) :
    ∀ entry ∈ placed, ∃ task ∈ wanted, task.ref = entry.ref ∧ Holds python plan tasks task entry.gid := by
  intro entry hentry
  obtain ⟨task, htask, href, stored, hget, haccepts⟩ := F.accepted entry hentry
  exact ⟨task, htask, href, stored, hget, .of_matches haccepts⟩

theorem Found.gids {tasks : Tasks} {wanted : List BatchTask} {placed : List Placed}
    (F : Found service python plan tasks wanted placed) : ∀ entry ∈ placed, isGid entry.gid = true := by
  intro entry hentry
  obtain ⟨_, -, -, stored, hget, haccepts⟩ := F.accepted entry hentry
  rw [← (KeyedTable.get?_eq_some.mp hget).2]
  exact haccepts.gid

theorem plan_identity_eq_ok {task : BatchTask} (h : plan.identity python task = .ok (gid, data)) :
    gid = plan.externalGid task ∧ data = plan.externalData python task := by
  obtain ⟨hgid, -, hdata, -⟩ := taskExternalIdentity_eq_ok.mp h
  exact ⟨hgid, hdata⟩

theorem refuses_identity {task : BatchTask} : Refuses (plan.identity python task) :=
  (refuses_refuseIf _).bind fun _ => (refuses_refuseIf _).bind fun _ => refuses_ok _

theorem ends_lookUpTask {task : BatchTask} : Ends (lookUpTask service python plan task) s
    (fun found t => Reading service s t ∧
      (found = none ∧ findExternal (plan.externalGid task) s.tasks = none ∨
        ∃ stored, found = some ⟨task.ref, stored.gid, .reused⟩ ∧ s.tasks.get? stored.gid = some stored ∧
          plan.Accepts service python task stored))
    (fun e t => IsClientError e ∧ Reading service s t) := by
  refine Ends.bind_iff.mpr ((ends_validate refuses_identity).mono ?_ ?_)
  · rintro ⟨gid, data⟩ t ⟨hidentity, rfl⟩
    obtain ⟨rfl, rfl⟩ := plan_identity_eq_ok hidentity
    refine Ends.bind_iff.mpr ((@ends_getExternalTask service t _).mono ?_ fun _ _ h => h)
    rintro found u ⟨hfind, hread⟩
    cases found with
    | none => exact Ends.pure_iff.mpr ⟨hread, .inl ⟨rfl, hfind⟩⟩
    | some stored =>
      refine Ends.bind_iff.mpr ((ends_validate refuses_verifyExternalTask).mono ?_ ?_)
      · rintro gid v ⟨hverify, rfl⟩
        obtain ⟨rfl, hmatches⟩ := verifyExternalTask_eq_ok.mp hverify
        exact Ends.pure_iff.mpr ⟨hread, .inr ⟨stored, rfl, (findExternal_some hfind).1, hmatches⟩⟩
      · rintro e v ⟨he, rfl⟩
        exact ⟨he, hread⟩
  · rintro e t ⟨he, rfl⟩
    exact ⟨he, .refl⟩

theorem ends_lookUpTasks {wanted : List BatchTask} : Ends (lookUpTasks service python plan wanted) s
    (fun placed t => Reading service s t ∧ Found service python plan s.tasks wanted placed)
    (fun e t => IsClientError e ∧ Reading service s t) := by
  induction wanted generalizing s with
  | nil => exact Ends.pure_iff.mpr ⟨.refl, .slnil, nofun, nofun⟩
  | cons task wanted ih =>
    refine Ends.bind_iff.mpr (ends_lookUpTask.mono ?_ fun _ _ h => h)
    rintro found t ⟨hread, hfound⟩
    refine Ends.bind_iff.mpr (ih.mono ?_ fun e u h => ⟨h.1, hread.trans h.2⟩)
    rintro placed u ⟨hread', F⟩
    rw [hread.tasks_eq] at F
    have haccepted : ∀ entry ∈ placed, ∃ task' ∈ task :: wanted, task'.ref = entry.ref ∧
        ∃ stored, s.tasks.get? entry.gid = some stored ∧ plan.Accepts service python task' stored := by
      intro entry hentry
      obtain ⟨task', htask', hrest⟩ := F.accepted entry hentry
      exact ⟨task', List.mem_cons_of_mem _ htask', hrest⟩
    refine Ends.pure_iff.mpr ⟨hread.trans hread', ?_⟩
    rcases hfound with ⟨rfl, hnone⟩ | ⟨stored, rfl, hget, haccepts⟩
    · refine ⟨F.refs.cons _, haccepted, fun other hother hnot => ?_⟩
      rcases List.mem_cons.mp hother with rfl | hother
      · exact hnone
      · exact F.missing other hother hnot
    · refine ⟨F.refs.cons_cons _, fun entry hentry => ?_, fun other hother hnot => ?_⟩
      · rcases List.mem_cons.mp hentry with rfl | hentry
        · exact ⟨task, List.mem_cons_self, rfl, stored, hget, haccepts⟩
        · exact haccepted entry hentry
      · rcases List.mem_cons.mp hother with rfl | hother
        · exact (hnot List.mem_cons_self).elim
        · exact F.missing other hother fun hmem => hnot (List.mem_cons_of_mem _ hmem)

/-! ## The creation loop -/

theorem ends_mutate {c : Change} : Ends (mutate service c) s (fun _ t => Reaches service (· = c) s t)
    (fun e t => IsClientError e ∧ Reaches service (· = c) s t) := by
  have hpass : Reaches service (· = c) s s.next := .single .pass
  refine Ends.bind_iff.mpr (ends_send.mono ?_ ?_)
  · rintro gid t ⟨hfinds, -, rfl⟩
    exact Ends.pure_iff.mpr (hpass.tail (.applied rfl hfinds))
  · rintro e t ⟨he, rfl | ⟨hfinds, rfl⟩⟩
    · exact ⟨he, hpass.tail (.refused rfl)⟩
    · exact ⟨he, hpass.tail (.applied rfl hfinds)⟩

/-- The requests of the creation loop. -/
def Plan.Creation (python : Python) (plan : Plan) (c : Change) : Prop :=
  (∃ task ∈ plan.tasks, c = .create (plan.newTask python task)) ∨ ∃ gid, c = .addTask plan.setup.backlog gid

/-- The task was created, and it is the only task that is not as it was. -/
def Made (service : Service) (python : Python) (plan : Plan) (task : BatchTask) (before after : Tasks) : Prop :=
  (∃ stored, after.get? (before.nextGid service) = some stored ∧ Carries python plan task stored) ∧
    ∀ gid ≠ before.nextGid service, after.get? gid = before.get? gid

theorem Made.create {task : BatchTask} (tasks : Tasks) : Made service python plan task tasks
    ((Change.create (plan.newTask python task)).apply service tasks) := by
  refine ⟨⟨_, by rw [Change.get?_apply_create, if_pos rfl], ⟨rfl, rfl, rfl, rfl⟩⟩, fun gid hgid => ?_⟩
  rw [Change.get?_apply_create, if_neg hgid]

theorem Made.within {A : Change → Prop} {task : BatchTask} {before : Tasks}
    (h : Made service python plan task before s.tasks) (hreaches : Reaches service A s t)
    (hwithin : ∀ c, A c → Within [before.nextGid service] c) : Made service python plan task before t.tasks := by
  obtain ⟨hholds, hframe⟩ := h
  refine ⟨Holds.keeps hholds hreaches.core, fun gid hgid => ?_⟩
  rw [hreaches.frame hwithin gid (by simpa using hgid), hframe gid hgid]

/-- What an attempt at creating the task leaves. -/
structure Attempted (service : Service) (python : Python) (plan : Plan) (task : BatchTask) (s t : Session) : Prop where
  reaches : Reaches service (plan.Creation python) s t
  tasks : t.tasks = s.tasks ∨ Made service python plan task s.tasks t.tasks

theorem Attempted.reading {task : BatchTask} {u : Session} (h : Attempted service python plan task s t)
    (hread : Reading service t u) : Attempted service python plan task s u := by
  refine ⟨h.reaches.trans (hread.mono fun _ hfalse => hfalse.elim), ?_⟩
  rw [hread.tasks_eq]
  exact h.tasks

theorem ends_requestCreation {task : BatchTask} {placed : List Placed} (htask : task ∈ plan.tasks) :
    Ends (requestCreation service python plan placed task) s
      (fun gid t => Attempted service python plan task s t ∧ isGid gid = true ∧ Holds python plan t.tasks task gid)
      (fun e t => IsClientError e ∧ Attempted service python plan task s t) := by
  have hcreation : plan.Creation python (.create (plan.newTask python task)) := .inl ⟨task, htask, rfl⟩
  have hpass : Reaches service (plan.Creation python) s s.next := .single .pass
  have hcreated : Attempted service python plan task s
      (s.next.apply service (.create (plan.newTask python task))) :=
    ⟨hpass.tail (.applied hcreation rfl), .inr (.create s.tasks)⟩
  refine Ends.bind_iff.mpr (ends_send.mono ?_ ?_)
  · rintro gid t ⟨-, rfl, rfl⟩
    refine Ends.bind_iff.mpr ((ends_validate (refuses_requireGid _ _)).mono ?_ ?_)
    · rintro gid t ⟨hgid, rfl⟩
      obtain ⟨hvalid, rfl⟩ := requireGid_eq_ok.mp hgid
      have hmoved : ∀ u, Reaches service (· = .addTask plan.setup.backlog (s.tasks.nextGid service))
          (s.next.apply service (.create (plan.newTask python task))) u →
          Attempted service python plan task s u ∧ Made service python plan task s.tasks u.tasks := by
        intro u hreaches
        have hmade : Made service python plan task s.tasks u.tasks := by
          refine (Made.create s.tasks).within hreaches ?_
          rintro c rfl
          exact ⟨_, List.mem_singleton_self _, rfl⟩
        refine ⟨⟨hcreated.reaches.trans (hreaches.mono ?_), .inr hmade⟩, hmade⟩
        rintro c rfl
        exact .inr ⟨_, rfl⟩
      refine Ends.bind_iff.mpr (ends_mutate.mono ?_ ?_)
      · intro _ u hreaches
        obtain ⟨hattempted, hmade⟩ := hmoved u hreaches
        refine Ends.bind_iff.mpr ((ends_validate (refuses_refuseIf _)).mono ?_ ?_)
        · rintro _ v ⟨-, rfl⟩
          exact Ends.pure_iff.mpr ⟨hattempted, hvalid, hmade.1⟩
        · rintro e v ⟨he, rfl⟩
          exact ⟨he, hattempted⟩
      · rintro e u ⟨he, hreaches⟩
        exact ⟨he, (hmoved u hreaches).1⟩
    · rintro e t ⟨he, rfl⟩
      exact ⟨he, hcreated⟩
  · rintro e t ⟨he, rfl | ⟨-, rfl⟩⟩
    · exact ⟨he, hpass.tail (.refused hcreation), .inl rfl⟩
    · exact ⟨he, hcreated⟩

/-- How a turn of the creation loop ends; the tasks are those after it. -/
inductive Turn (python : Python) (plan : Plan) (tasks : Tasks) (task : BatchTask) (p p' : Progress) : Bool → Prop
  | placed {gid : String} {source : Source} (valid : isGid gid = true) (holds : Holds python plan tasks task gid)
      (placed : p'.placed = p.placed ++ [⟨task.ref, gid, source⟩]) (failedTasks : p'.failedTasks = p.failedTasks)
      (unreconciled : p'.unreconciled = p.unreconciled) : Turn python plan tasks task p p' true
  /-- The gid is that of another task. -/
  | duplicate {gid : String} (holds : Holds python plan tasks task gid) (mem : gid ∈ p.placed.map Placed.gid)
      (placed : p'.placed = p.placed) (failedTasks : p'.failedTasks ≠ [])
      (unreconciled : p'.unreconciled = p.unreconciled) : Turn python plan tasks task p p' true
  | lost {error : String} (placed : p'.placed = p.placed) (failedTasks : p'.failedTasks ≠ [])
      (unreconciled : p'.unreconciled = p.unreconciled ++ [⟨task.ref, plan.externalGid task, error⟩]) :
    Turn python plan tasks task p p' (task.ref ≠ plan.anchorRef)

theorem Turn.place {tasks : Tasks} {task : BatchTask} {p : Progress} {gid : String} {source : Source}
    (recoveries : List CreationRecovery) (valid : isGid gid = true) (holds : Holds python plan tasks task gid) :
      Turn python plan tasks task p
      ({ p with creationRecoveries := recoveries }.place task.ref gid source) true := by
  unfold Progress.place
  split
  · next hmem => exact .duplicate holds hmem rfl (by simp) rfl
  · exact .placed valid holds rfl rfl rfl

theorem ends_createTask {task : BatchTask} {p : Progress} (htask : task ∈ plan.tasks) :
    Ends (createTask service env python plan p task) s
      (fun result t => Attempted service python plan task s t ∧
        Turn python plan t.tasks task p result.1 result.2) (fun _ _ => False) := by
  refine Ends.bind_iff.mpr ((ends_catch (ends_requestCreation htask)).mono ?_ fun _ _ h => h)
  rintro (createError | gid) t hresult
  · have hattempted : Attempted service python plan task s t := hresult
    refine Ends.bind_iff.mpr ((ends_catch (@ends_recoverCreation service env python plan t task)).mono ?_
      fun _ _ h => h)
    rintro (recoveryError | gid) u hrecovered
    · exact Ends.pure_iff.mpr ⟨hattempted.reading hrecovered, .lost rfl (by simp [Progress.fail]) rfl⟩
    · obtain ⟨hread, stored, hfind, rfl, hmatches⟩ := hrecovered
      have hholds : Holds python plan u.tasks task stored.gid := by
        rw [hread.tasks_eq]
        exact ⟨stored, (findExternal_some hfind).1, .of_matches hmatches⟩
      exact Ends.pure_iff.mpr ⟨hattempted.reading hread, .place _ hmatches.gid hholds⟩
  · obtain ⟨hattempted, hvalid, hholds⟩ := hresult
    exact Ends.pure_iff.mpr ⟨hattempted, .place p.creationRecoveries hvalid hholds⟩

/-- No two tasks have the same external gid. -/
def Unique (tasks : Tasks) : Prop := ∀ gid gid' stored stored', tasks.get? gid = some stored →
  tasks.get? gid' = some stored' → ∀ external, stored.externalGid? = some external →
    stored'.externalGid? = some external → gid = gid'

/-- The anchor of the batch exists. -/
def Anchored (python : Python) (plan : Plan) (tasks : Tasks) : Prop :=
  ∃ anchor ∈ plan.tasks, anchor.ref = plan.anchorRef ∧ ∃ gid, Holds python plan tasks anchor gid

theorem Anchored.keeps {tasks tasks' : Tasks} (h : Anchored python plan tasks)
    (hkeeps : tasks.Keeps StoredTask.core tasks') : Anchored python plan tasks' := by
  obtain ⟨anchor, hmem, href, gid, hholds⟩ := h
  exact ⟨anchor, hmem, href, gid, hholds.keeps hkeeps⟩

/-- The invariant of the creation loop; `before` are the tasks at its start. -/
structure Creating (python : Python) (plan : Plan) (before : Tasks) (p : Progress) (tasks : Tasks) : Prop where
  placements : Placements python plan tasks p.placed
  kept : ∀ gid stored, before.get? gid = some stored → tasks.get? gid = some stored
  /-- A new task is reported, or its identity is. -/
  fresh : ∀ gid stored, before.get? gid = none → tasks.get? gid = some stored → ∃ task ∈ plan.tasks,
    Carries python plan task stored ∧
      (gid ∈ p.placed.map Placed.gid ∨
        plan.externalGid task ∈ p.unreconciled.map UnreconciledIdentity.externalGid)
  anchored : ∀ gid stored, before.get? gid = none → tasks.get? gid = some stored → Anchored python plan tasks
  unique : Unique before → Unique tasks

/-- Nothing has the identities of the tasks to come. -/
def Missing (plan : Plan) (p : Progress) (tasks : Tasks) (todo : List BatchTask) : Prop :=
  ∀ task ∈ todo, task.ref ∉ p.refs → findExternal (plan.externalGid task) tasks = none

theorem Carries.externalGid? {task : BatchTask} {stored : StoredTask} (h : Carries python plan task stored) :
    stored.externalGid? = some (plan.externalGid task) := by
  rw [StoredTask.externalGid?, h.external, Option.map_some]

theorem Made.eq_of_holds {task : BatchTask} {before after : Tasks} {gid : String}
    (h : Made service python plan task before after) (hnone : findExternal (plan.externalGid task) before = none)
    (hholds : Holds python plan after task gid) : gid = before.nextGid service := by
  by_contra hne
  obtain ⟨stored, hget, hcarries⟩ := hholds
  rw [h.2 gid hne] at hget
  exact findExternal_none.mp hnone gid stored hget hcarries.externalGid?

theorem Made.kept {task : BatchTask} {before after : Tasks} (h : Made service python plan task before after) :
    ∀ gid stored, before.get? gid = some stored → after.get? gid = some stored := by
  intro gid stored hget
  rw [h.2 gid, hget]
  rintro rfl
  rw [Change.get?_nextGid] at hget
  cases hget

theorem Made.unique {task : BatchTask} {before after : Tasks} (h : Made service python plan task before after)
    (hnone : findExternal (plan.externalGid task) before = none) (hunique : Unique before) : Unique after := by
  obtain ⟨⟨made, hmade, hcarries⟩, hframe⟩ := h
  intro gid gid' stored stored' hget hget' external hexternal hexternal'
  have hold : ∀ gid stored, gid ≠ before.nextGid service → after.get? gid = some stored →
      before.get? gid = some stored ∧ stored.externalGid? ≠ some (plan.externalGid task) := by
    intro gid stored hne hget
    rw [hframe gid hne] at hget
    exact ⟨hget, findExternal_none.mp hnone gid stored hget⟩
  have hnew : ∀ stored, after.get? (before.nextGid service) = some stored →
      stored.externalGid? = some (plan.externalGid task) := by
    intro stored hget
    cases hmade.symm.trans hget
    exact hcarries.externalGid?
  by_cases hgid : gid = before.nextGid service
  · by_cases hgid' : gid' = before.nextGid service
    · rw [hgid, hgid']
    · refine ((hold gid' stored' hgid' hget').2 ?_).elim
      rw [hexternal', ← hexternal]
      exact hnew stored (hgid ▸ hget)
  · obtain ⟨hbefore, hother⟩ := hold gid stored hgid hget
    by_cases hgid' : gid' = before.nextGid service
    · refine (hother ?_).elim
      rw [hexternal, ← hexternal']
      exact hnew stored' (hgid' ▸ hget')
    · exact hunique _ _ _ _ hbefore (hold gid' stored' hgid' hget').1 external hexternal hexternal'

theorem Made.missing {task : BatchTask} {before after : Tasks} (h : Made service python plan task before after)
    {other : BatchTask} (hne : other.ref ≠ task.ref) (hnone : findExternal (plan.externalGid other) before = none) :
    findExternal (plan.externalGid other) after = none := by
  obtain ⟨⟨made, hmade, hcarries⟩, hframe⟩ := h
  refine findExternal_none.mpr fun gid stored hget hexternal => ?_
  by_cases hgid : gid = before.nextGid service
  · rw [hgid, hmade] at hget
    cases hget
    rw [hcarries.externalGid?, Option.some.injEq] at hexternal
    exact hne (externalGid_ref_inj.mp hexternal).symm
  · rw [hframe gid hgid] at hget
    exact findExternal_none.mp hnone gid stored hget hexternal

theorem Turn.subset {tasks : Tasks} {task : BatchTask} {p p' : Progress} {more : Bool}
    (h : Turn python plan tasks task p p' more) : p.placed ⊆ p'.placed ∧ p.unreconciled ⊆ p'.unreconciled := by
  cases h with
  | placed _ _ hplaced _ hlost => exact ⟨by simp [hplaced], by simp [hlost]⟩
  | duplicate _ _ hplaced _ hlost => exact ⟨by simp [hplaced], by simp [hlost]⟩
  | lost hplaced _ hlost => exact ⟨by simp [hplaced], by simp [hlost]⟩

theorem Turn.placements {tasks : Tasks} {task : BatchTask} {p p' : Progress} {more : Bool}
    (h : Turn python plan tasks task p p' more) (htask : task ∈ plan.tasks) (hnot : task.ref ∉ p.refs)
    (H : Placements python plan tasks p.placed) : Placements python plan tasks p'.placed := by
  cases h with
  | placed hvalid hholds hplaced _ _ =>
    rw [hplaced]
    refine ⟨?_, fun entry hentry => ?_, fun entry hentry => ?_⟩
    · rw [List.map_append, List.map_singleton, List.nodup_append']
      refine ⟨H.refs, List.nodup_singleton _, ?_⟩
      simpa [Progress.refs] using hnot
    · rcases List.mem_append.mp hentry with hentry | hentry
      · exact H.gids entry hentry
      · rw [List.mem_singleton.mp hentry]
        exact hvalid
    · rcases List.mem_append.mp hentry with hentry | hentry
      · exact H.holds entry hentry
      · obtain rfl := List.mem_singleton.mp hentry
        exact ⟨task, htask, rfl, hholds⟩
  | duplicate _ _ hplaced _ _ => exact hplaced ▸ H
  | lost hplaced _ _ => exact hplaced ▸ H

/-- A task that was made in a turn is reported, or its identity is. -/
theorem Turn.reports {before tasks : Tasks} {task : BatchTask} {p p' : Progress} {more : Bool}
    (h : Turn python plan tasks task p p' more) (hmade : Made service python plan task before tasks)
    (hnone : findExternal (plan.externalGid task) before = none) (H : Placements python plan before p.placed) :
    before.nextGid service ∈ p'.placed.map Placed.gid ∨
      plan.externalGid task ∈ p'.unreconciled.map UnreconciledIdentity.externalGid := by
  cases h with
  | placed _ hholds hplaced _ _ =>
    rw [hplaced, ← hmade.eq_of_holds hnone hholds]
    simp
  | duplicate hholds hmem _ _ _ =>
    obtain ⟨entry, hentry, hgid⟩ := List.mem_map.mp hmem
    obtain ⟨_, -, -, stored, hget, -⟩ := H.holds entry hentry
    rw [hgid, hmade.eq_of_holds hnone hholds, Change.get?_nextGid] at hget
    cases hget
  | lost _ _ hlost =>
    rw [hlost]
    simp

theorem Creating.turn {before : Tasks} {task : BatchTask} {todo : List BatchTask} {p p' : Progress} {more : Bool}
    (H : Creating python plan before p s.tasks) (hmissing : Missing plan p s.tasks (task :: todo))
    (hnodup : ((task :: todo).map BatchTask.ref).Nodup) (htask : task ∈ plan.tasks) (hnot : task.ref ∉ p.refs)
    (hanchor : task.ref = plan.anchorRef ∨ Anchored python plan s.tasks)
    (hattempted : Attempted service python plan task s t) (hturn : Turn python plan t.tasks task p p' more) :
    Creating python plan before p' t.tasks ∧ Missing plan p' t.tasks todo := by
  have hkeeps := hattempted.reaches.core
  have hnone := hmissing task List.mem_cons_self hnot
  obtain ⟨hplaced, hlost⟩ := hturn.subset
  have hplacements := hturn.placements htask hnot (H.placements.keeps hkeeps)
  have hkept : ∀ gid stored, s.tasks.get? gid = some stored → t.tasks.get? gid = some stored := by
    rcases hattempted.tasks with hsame | hmade
    · rw [hsame]
      exact fun _ _ h => h
    · exact hmade.kept
  have hnew : ∀ gid stored, s.tasks.get? gid = none → t.tasks.get? gid = some stored →
      gid = s.tasks.nextGid service ∧ Carries python plan task stored ∧
        Made service python plan task s.tasks t.tasks := by
    intro gid stored hold hget
    rcases hattempted.tasks with hsame | hmade
    · rw [hsame, hold] at hget
      cases hget
    · obtain ⟨⟨made, hmade', hcarries⟩, hframe⟩ := hmade
      by_cases hgid : gid = s.tasks.nextGid service
      · rw [hgid, hmade'] at hget
        cases hget
        exact ⟨hgid, hcarries, ⟨_, hmade', hcarries⟩, hframe⟩
      · rw [hframe gid hgid, hold] at hget
        cases hget
  refine ⟨⟨hplacements, fun gid stored hget => hkept gid stored (H.kept gid stored hget), ?_, ?_, ?_⟩, ?_⟩
  · intro gid stored hbefore hget
    cases hold : s.tasks.get? gid with
    | none =>
      obtain ⟨rfl, hcarries, hmade⟩ := hnew gid stored hold hget
      exact ⟨task, htask, hcarries, hturn.reports hmade hnone H.placements⟩
    | some stored' =>
      rw [hkept gid stored' hold] at hget
      cases hget
      obtain ⟨other, hother, hcarries, hreported⟩ := H.fresh gid _ hbefore hold
      exact ⟨other, hother, hcarries, hreported.imp (List.map_subset _ hplaced ·) (List.map_subset _ hlost ·)⟩
  · intro gid stored hbefore hget
    cases hold : s.tasks.get? gid with
    | none =>
      obtain ⟨rfl, hcarries, -⟩ := hnew gid stored hold hget
      rcases hanchor with href | hanchored
      · exact ⟨task, htask, href, _, stored, hget, hcarries⟩
      · exact hanchored.keeps hkeeps
    | some stored' => exact (H.anchored gid stored' hbefore hold).keeps hkeeps
  · intro hunique
    rcases hattempted.tasks with hsame | hmade
    · rw [hsame]
      exact H.unique hunique
    · exact hmade.unique hnone (H.unique hunique)
  · intro other hother hunplaced
    have hbefore := hmissing other (List.mem_cons_of_mem _ hother) fun hmem =>
      hunplaced (List.map_subset _ hplaced hmem)
    rcases hattempted.tasks with hsame | hmade
    · rwa [hsame]
    · refine hmade.missing ?_ hbefore
      rintro href
      rw [List.map_cons, List.nodup_cons] at hnodup
      exact hnodup.1 (href ▸ List.mem_map_of_mem hother)

/-- What the creation loop establishes. -/
structure Created (service : Service) (python : Python) (plan : Plan) (before : Tasks) (todo : List BatchTask)
    (p p' : Progress) (s t : Session) : Prop where
  creating : Creating python plan before p' t.tasks
  reaches : Reaches service (plan.Creation python) s t
  refs : p.refs ⊆ p'.refs
  failed : p.failedTasks ≠ [] → p'.failedTasks ≠ []
  complete : p'.failedTasks = [] → ∀ task ∈ todo, task.ref ∈ p'.refs

theorem ends_createTasks {before : Tasks} {todo : List BatchTask} {p : Progress}
    (H : Creating python plan before p s.tasks) (hmissing : Missing plan p s.tasks todo)
    (hnodup : (todo.map BatchTask.ref).Nodup) (htodo : ∀ task ∈ todo, task ∈ plan.tasks)
    (hanchor : Anchored python plan s.tasks ∨ ∃ task rest, todo = task :: rest ∧ task.ref = plan.anchorRef) :
    Ends (createTasks service env python plan todo p) s
      (fun p' t => Created service python plan before todo p p' s t) (fun _ _ => False) := by
  induction todo generalizing p s with
  | nil => exact Ends.pure_iff.mpr ⟨H, .refl, List.Subset.refl _, id, nofun⟩
  | cons task todo ih =>
    have hnodup' : (todo.map BatchTask.ref).Nodup := (List.nodup_cons.mp hnodup).2
    have htodo' : ∀ task ∈ todo, task ∈ plan.tasks := fun other hother =>
      htodo other (List.mem_cons_of_mem _ hother)
    have htask := htodo task List.mem_cons_self
    unfold createTasks
    split
    · next hplaced =>
      have hanchored : Anchored python plan s.tasks := by
        rcases hanchor with hanchored | ⟨_, _, heq, href⟩
        · exact hanchored
        · cases heq
          obtain ⟨entry, hentry, hentryRef⟩ := List.mem_map.mp hplaced
          obtain ⟨anchor, hmem, hanchorRef, hholds⟩ := H.placements.holds entry hentry
          exact ⟨anchor, hmem, hanchorRef.trans (hentryRef.trans href), _, hholds⟩
      refine (ih H (fun other hother => hmissing other (List.mem_cons_of_mem _ hother)) hnodup' htodo'
        (.inl hanchored)).mono ?_ fun _ _ h => h
      intro p' t C
      refine ⟨C.creating, C.reaches, C.refs, C.failed,
        fun hdone => List.forall_mem_cons.mpr ⟨?_, C.complete hdone⟩⟩
      exact C.refs hplaced
    · next hnot =>
      have hhead : task.ref = plan.anchorRef ∨ Anchored python plan s.tasks := by
        rcases hanchor with hanchored | ⟨_, _, heq, href⟩
        · exact .inr hanchored
        · cases heq
          exact .inl href
      refine Ends.bind_iff.mpr ((ends_createTask htask).mono ?_ fun _ _ h => h)
      rintro ⟨p', more⟩ t ⟨hattempted, hturn⟩
      dsimp only at hturn
      obtain ⟨H', hmissing'⟩ := H.turn hmissing hnodup htask hnot hhead hattempted hturn
      have hrefs : p.refs ⊆ p'.refs := List.map_subset _ hturn.subset.1
      have hfailed : p'.failedTasks = [] → p.failedTasks = [] ∧ task.ref ∈ p'.refs := by
        intro hdone
        cases hturn with
        | placed _ _ hplaced hsame _ => exact ⟨hsame ▸ hdone, by simp [Progress.refs, hplaced]⟩
        | duplicate _ _ _ hfail _ => exact (hfail hdone).elim
        | lost _ hfail _ => exact (hfail hdone).elim
      dsimp only
      split
      · next hmore =>
        have hanchored : Anchored python plan t.tasks := by
          rcases hhead with href | hanchored
          · cases hturn with
            | placed _ hholds _ _ _ => exact ⟨task, htask, href, _, hholds⟩
            | duplicate hholds _ _ _ _ => exact ⟨task, htask, href, _, hholds⟩
            | lost _ _ _ => exact (of_decide_eq_true hmore href).elim
          · exact hanchored.keeps hattempted.reaches.core
        refine (ih H' hmissing' hnodup' htodo' (.inl hanchored)).mono ?_ fun _ _ h => h
        intro p'' u C
        refine ⟨C.creating, hattempted.reaches.trans C.reaches, List.Subset.trans hrefs C.refs, fun hfail => ?_,
          fun hdone => ?_⟩
        · exact C.failed fun hdone => hfail (hfailed hdone).1
        · have hdone' : p'.failedTasks = [] := by
            by_contra hne
            exact C.failed hne hdone
          exact List.forall_mem_cons.mpr ⟨C.refs (hfailed hdone').2, C.complete hdone⟩
      · next hmore =>
        have hstop : p'.failedTasks ≠ [] := by
          cases hturn with
          | placed _ _ _ _ _ => exact (hmore rfl).elim
          | duplicate _ _ _ _ _ => exact (hmore rfl).elim
          | lost _ hfail _ => exact hfail
        exact Ends.pure_iff.mpr ⟨H', hattempted.reaches, hrefs, fun hfail hdone => hfail (hfailed hdone).1,
          fun hdone => (hstop hdone).elim⟩

end Batch
end Asana
end FlashyFactory
