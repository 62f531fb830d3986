import FlashyFactory.Asana.Dependencies

/-! # What a change leaves of an observation

Tasks are completed and moved within a project. A walk of the dependency graph then takes the same
course, so the report on a task changes only with the completion of what is reached. -/

namespace FlashyFactory
namespace Asana
open DepthFirst (walk)

/-- Which tasks are completed and which are moved. -/
structure Change where
  completes : String → Bool := fun _ => false
  places : String → Option ProjectSection := fun _ => none

namespace Change

def apply (change : Change) (project gid : String) (task : Task) : Task :=
  { task with
    completed := task.completed || change.completes gid
    memberships := match change.places gid with
      | none => task.memberships
      | some found => [⟨project, found⟩] }

def andThen (a b : Change) : Change where
  completes gid := a.completes gid || b.completes gid
  places gid := (b.places gid).or (a.places gid)

theorem apply_andThen {a b : Change} {task : Task} :
    (a.andThen b).apply project gid task = b.apply project gid (a.apply project gid task) := by
  cases hb : b.places gid <;> simp [apply, andThen, hb, Bool.or_assoc]

theorem apply_within {change : Change} {task : Task} (h : task.Within project) :
    (change.apply project gid task).Within project := by
  obtain ⟨before, hbefore⟩ := h
  cases hplaces : change.places gid with
  | none => exact ⟨before, by simp [apply, hplaces, hbefore]⟩
  | some found => exact ⟨found, by simp [apply, hplaces]⟩

end Change

variable {σ : Type} {api : Api σ} {s s' s'' : σ} {project gid : String} {change change' : Change}

/-- From `s` to `s'`, the tasks of the project change so. -/
structure Changes (api : Api σ) (project : String) (change : Change) (s s' : σ) : Prop where
  rewrites : Rewrites api s s' (change.apply project)
  within : ∀ gid found task, change.places gid = some found → api.task s gid = some task → task.Within project

namespace Changes

theorem task (H : Changes api project change s s') {task : Task} (h : api.task s gid = some task) :
    ∃ modifiedAt, api.task s' gid = some { change.apply project gid task with modifiedAt := modifiedAt } := by
  obtain ⟨modifiedAt, hrewrite⟩ := H.rewrites.task
  exact ⟨modifiedAt gid, by rw [hrewrite, h]; rfl⟩

theorem of_task (H : Changes api project change s s') {task' : Task} (h : api.task s' gid = some task') :
    ∃ task modifiedAt, api.task s gid = some task ∧
      task' = { change.apply project gid task with modifiedAt := modifiedAt } := by
  obtain ⟨modifiedAt, hrewrite⟩ := H.rewrites.task
  rw [hrewrite] at h
  obtain ⟨task, htask, rfl⟩ := Option.map_eq_some_iff.mp h
  exact ⟨task, modifiedAt gid, htask, rfl⟩

theorem refl : Changes api project {} s s where
  rewrites := by
    refine ⟨rfl, fun gid => ((api.task s gid).map Task.modifiedAt).getD "", fun gid => ?_⟩
    cases h : api.task s gid <;> simp [Change.apply, h]
  within := nofun

theorem trans (H : Changes api project change s s') (H' : Changes api project change' s' s'') :
    Changes api project (change.andThen change') s s'' where
  rewrites := by
    obtain ⟨modifiedAt, hrewrite⟩ := H.rewrites.task
    obtain ⟨modifiedAt', hrewrite'⟩ := H'.rewrites.task
    refine ⟨H'.rewrites.sections.trans H.rewrites.sections, modifiedAt', fun gid => ?_⟩
    rw [hrewrite', hrewrite]
    cases api.task s gid with
    | none => rfl
    | some task => simp only [Option.map_some, Change.apply_andThen]; rfl
  within gid found task hplaces htask := by
    simp only [Change.andThen, Option.or_eq_some_iff] at hplaces
    rcases hplaces with hplaces | ⟨-, hplaces⟩
    · obtain ⟨modifiedAt, htask'⟩ := H.task htask
      have hwithin' := H'.within gid found _ hplaces htask'
      cases hbefore : change.places gid with
      | none =>
        obtain ⟨before, h⟩ := hwithin'
        exact ⟨before, by simpa [Change.apply, hbefore] using h⟩
      | some before => exact H.within gid before task hbefore htask
    · exact H.within gid found task hplaces htask

theorem addTask (hdoc : api.Documented) {task : Task} (hfound : found ∈ api.sections s project)
    (htask : api.task s gid = some task) (hwithin : task.Within project) :
    Changes api project { places := fun other => if other = gid then some found else none } s
      (api.addTask s found.gid gid) where
  rewrites := by
    obtain ⟨hsections, modifiedAt, hrewrite⟩ := hdoc.addTask hfound htask hwithin
    refine ⟨hsections, modifiedAt, fun other => ?_⟩
    rw [hrewrite]
    congr 1
    funext task
    by_cases h : other = gid <;> simp [onTask, Change.apply, h]
  within other _ task' hplaces htask' := by
    simp only at hplaces
    split at hplaces
    · next h =>
      cases (h ▸ htask').symm.trans htask
      exact hwithin
    · cases hplaces

theorem complete (hdoc : api.Documented) :
    Changes api project { completes := fun other => other = gid } s (api.complete s gid) where
  rewrites := by
    obtain ⟨hsections, modifiedAt, hrewrite⟩ : Rewrites api s (api.complete s gid) _ := hdoc.complete
    refine ⟨hsections, modifiedAt, fun other => ?_⟩
    rw [hrewrite]
    congr 1
    funext task
    by_cases h : other = gid <;> simp [onTask, Change.apply, h]
  within := nofun

/-- A task that is completed already. -/
theorem completed {task : Task} (htask : api.task s gid = some task) (hcompleted : task.completed = true) :
    Changes api project { completes := fun other => other = gid } s s where
  rewrites := by
    refine ⟨rfl, fun gid => ((api.task s gid).map Task.modifiedAt).getD "", fun other => ?_⟩
    by_cases h : other = gid
    · subst h
      simp [htask, Change.apply, ← hcompleted]
    · cases hother : api.task s other <;> simp [Change.apply, h, hother]
  within := nofun

/-! ## Observations -/

theorem requireMembership_eq (H : Changes api project change s s') {task : Task}
    (htask : api.task s gid = some task) {modifiedAt : String} :
    requireMembership project { change.apply project gid task with modifiedAt := modifiedAt } subject exactly =
      requireMembership project task subject exactly := by
  cases hplaces : change.places gid with
  | none => simp [requireMembership, Change.apply, hplaces]
  | some found =>
    obtain ⟨before, hbefore⟩ := H.within gid found task hplaces htask
    simp [requireMembership, Change.apply, hplaces, hbefore]

theorem observeTask_eq (H : Changes api project change s s') : observeTask api s' project gid =
    (observeTask api s project gid).map fun observed => (observed.1 || change.completes gid, observed.2) := by
  unfold observeTask request
  cases htask : api.task s gid with
  | none =>
    have hnone : api.task s' gid = none := by
      obtain ⟨modifiedAt, hrewrite⟩ := H.rewrites.task
      rw [hrewrite, htask, Option.map_none]
    rw [hnone]
    rfl
  | some task =>
    obtain ⟨modifiedAt, htask'⟩ := H.task htask
    rw [htask']
    simp only [Except.ok_bind, H.requireMembership_eq htask, Except.map_bind]
    rfl

theorem walk_eq (H : Changes api project change s s') : walk (graph api s' project) n gid {} =
    (walk (graph api s project) n gid {}).map
      (DepthFirst.Walk.map fun node observed => (observed.1 || change.completes node, observed.2)) :=
  DepthFirst.walk_map (w := {}) (fun _ => H.observeTask_eq) (fun _ _ => rfl) rfl rfl

theorem dependencyState_eq_error (H : Changes api project change s s') :
    dependencyState api s' project python gid assumedCompleted = .error e ↔
      dependencyState api s project python gid assumedCompleted = .error e := by
  unfold dependencyState
  rw [H.walk_eq]
  cases walk (graph api s project) python.recursionLimit gid {} with
  | error e' => exact .rfl
  | ok w => exact ⟨nofun, nofun⟩

theorem dependencyState_ok (H : Changes api project change s s')
    (h : dependencyState api s project python gid assumedCompleted = .ok state) :
    ∃ state', dependencyState api s' project python gid assumedCompleted = .ok state' := by
  cases h' : dependencyState api s' project python gid assumedCompleted with
  | error e => cases h.symm.trans (H.dependencyState_eq_error.mp h')
  | ok state' => exact ⟨state', rfl⟩

theorem completion_eq (H : Changes api project change s s') {gids : List String}
    (h : ∀ gid ∈ gids, change.completes gid = false) : completion api s' gids = completion api s gids := by
  refine List.map_congr_left fun gid hgid => ?_
  obtain ⟨modifiedAt, hrewrite⟩ := H.rewrites.task
  rw [hrewrite]
  cases api.task s gid <;> simp [Change.apply, h gid hgid]

/-- No direct blocker is completed: the revision stays. -/
theorem dependencyRevision_eq (H : Changes api project change s s')
    (h : dependencyState api s project python gid assumedCompleted = .ok state)
    (h' : dependencyState api s' project python gid assumedCompleted = .ok state')
    {task : Task} (htask : api.task s gid = some task)
    (hdirect : ∀ blocker ∈ task.dependencies, change.completes blocker = false) :
    state'.dependencyRevision = state.dependencyRevision := by
  obtain ⟨other, hother, hstate⟩ := dependencyState_describes h
  obtain ⟨other', hother', hstate'⟩ := dependencyState_describes h'
  cases htask.symm.trans hother
  obtain ⟨modifiedAt, htask'⟩ := H.task htask
  cases htask'.symm.trans hother'
  rw [hstate.dependencyRevision, hstate'.dependencyRevision]
  simp only [Change.apply]
  rw [H.completion_eq fun blocker hblocker => hdirect blocker ((List.mem_insertionSort _).mp hblocker)]

end Changes
end Asana
end FlashyFactory
