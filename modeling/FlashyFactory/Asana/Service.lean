import FlashyFactory.Asana.Client
import FlashyFactory.Lib.KeyedTable

/-! # The service

What the requests do according to the service's documentation, and a service in memory that does so. -/

namespace FlashyFactory
namespace Asana

/-- The only membership of the task is in the project. -/
def Task.Within (project : String) (task : Task) : Prop := ∃ found, task.memberships = [⟨project, found⟩]

/-- Each task is rewritten, apart from the time of its last change. -/
structure Rewrites {σ : Type} (api : Api σ) (s s' : σ) (f : String → Task → Task) : Prop where
  sections : api.sections s' = api.sections s
  task : ∃ modifiedAt : String → String, ∀ gid,
    api.task s' gid = (api.task s gid).map fun task => { f gid task with modifiedAt := modifiedAt gid }

/-- The change of one task. -/
def onTask (gid : String) (f : Task → Task) (other : String) (task : Task) : Task :=
  if other = gid then f task else task

/-- What the documentation says about the requests; the order of dependencies is not defined. -/
structure Api.Documented {σ : Type} (api : Api σ) : Prop where
  gid_of_task : ∀ {s gid task}, api.task s gid = some task → task.gid = gid
  mem_sectionTasks : ∀ {s inSection task}, task ∈ api.sectionTasks s inSection ↔
    api.task s task.gid = some task ∧ task.completed = false ∧
      ∃ membership ∈ task.memberships, membership.inSection.gid = inSection
  nodup_sectionTasks : ∀ {s inSection}, ((api.sectionTasks s inSection).map Task.gid).Nodup
  mem_dependents : ∀ {s gid dependent}, dependent ∈ api.dependents s gid ↔
    ∃ task, api.task s dependent = some task ∧ gid ∈ task.dependencies
  nodup_dependents : ∀ {s gid}, (api.dependents s gid).Nodup
  addTask : ∀ {s project gid task found}, found ∈ api.sections s project → api.task s gid = some task →
    task.Within project → Rewrites api s (api.addTask s found.gid gid)
      (onTask gid fun task => { task with memberships := [⟨project, found⟩] })
  complete : ∀ {s gid}, Rewrites api s (api.complete s gid)
    (onTask gid fun task => { task with completed := true })
  addDependencies : ∀ {s gid blockers}, blockers.Nodup → ∃ order : List String → List String,
    (∀ dependencies, (order dependencies).Perm dependencies) ∧
    Rewrites api s (api.addDependencies s gid blockers) (onTask gid fun task =>
      { task with dependencies := order (task.dependencies ++ blockers.filter (· ∉ task.dependencies)) })
  removeDependencies : ∀ {s gid blockers}, ∃ order : List String → List String,
    (∀ dependencies, (order dependencies).Perm dependencies) ∧
    Rewrites api s (api.removeDependencies s gid blockers) (onTask gid fun task =>
      { task with dependencies := order (task.dependencies.filter (· ∉ blockers)) })

/-! ## A service in memory -/

structure Memory where
  tasks : KeyedTable Task.gid
  /-- The sections, each with its project. -/
  sections : KeyedTable fun entry : String × ProjectSection => entry.2.gid

namespace Memory
variable {m : Memory} {gid : String}

def update (m : Memory) (gid : String) (f : Task → Task) (hf : ∀ task, (f task).gid = task.gid := by intro; rfl) :
    Memory :=
  { m with tasks := m.tasks.modify gid (fun _ => true) f hf }

def api : Api Memory where
  task m gid := m.tasks.get? gid
  sections m project := (m.sections.rows.filter fun entry => entry.1 = project).map Prod.snd
  sectionTasks m inSection := m.tasks.rows.filter fun task =>
    !task.completed && task.memberships.any fun membership => membership.inSection.gid = inSection
  dependents m gid := (m.tasks.rows.filter fun task => gid ∈ task.dependencies).map Task.gid
  addTask m inSection gid := match m.sections.get? inSection with
    | none => m
    | some (project, found) => m.update gid fun task => { task with
        memberships := (task.memberships.filter fun membership => membership.project ≠ project) ++
          [⟨project, found⟩] }
  complete m gid := m.update gid fun task => { task with completed := true }
  addDependencies m gid blockers := m.update gid fun task => { task with
    dependencies := task.dependencies ++ blockers.filter (· ∉ task.dependencies) }
  removeDependencies m gid blockers := m.update gid fun task => { task with
    dependencies := task.dependencies.filter (· ∉ blockers) }

theorem rewrites_update {f g : Task → Task} {hf : ∀ task, (f task).gid = task.gid}
    (hg : ∀ task, m.tasks.get? gid = some task → { g task with modifiedAt := task.modifiedAt } = f task) :
    Rewrites api m (m.update gid f hf) (onTask gid g) := by
  refine ⟨rfl, fun other => ((m.tasks.get? other).map Task.modifiedAt).getD "", fun other => ?_⟩
  simp only [api, update, KeyedTable.get?_modify]
  by_cases h : other = gid
  · subst h
    cases htask : m.tasks.get? other with
    | none => simp
    | some task => simp [onTask, hg task htask]
  · cases m.tasks.get? other <;> simp [onTask, h]

theorem documented : api.Documented where
  gid_of_task h := KeyedTable.key_of_get? h
  mem_sectionTasks {m inSection task} := by
    have hmem : api.task m task.gid = some task ↔ task ∈ m.tasks.rows :=
      ⟨KeyedTable.mem_of_get?, KeyedTable.get?_of_mem⟩
    rw [hmem]
    simp [api]
  nodup_sectionTasks {m inSection} := m.tasks.nodup.sublist (List.filter_sublist.map _)
  mem_dependents {m gid dependent} := by
    simp only [api, List.mem_map, List.mem_filter, decide_eq_true_eq, KeyedTable.get?_eq_some]
    constructor
    · rintro ⟨task, ⟨ht, hg⟩, hd⟩
      exact ⟨task, ⟨ht, hd⟩, hg⟩
    · rintro ⟨task, ⟨ht, hd⟩, hg⟩
      exact ⟨task, ⟨ht, hg⟩, hd⟩
  nodup_dependents {m gid} := m.tasks.nodup.sublist (List.filter_sublist.map _)
  addTask {m project gid task found} hfound htask hwithin := by
    have hsection : m.sections.get? found.gid = some (project, found) := by
      simp only [api, List.mem_map, List.mem_filter, decide_eq_true_eq] at hfound
      obtain ⟨⟨owner, inSection⟩, ⟨hentry, rfl⟩, rfl⟩ := hfound
      exact KeyedTable.get?_of_mem hentry
    simp only [api, hsection]
    refine rewrites_update fun other hother => ?_
    cases htask.symm.trans hother
    obtain ⟨before, hbefore⟩ := hwithin
    simp [hbefore]
  complete := rewrites_update fun _ _ => rfl
  addDependencies _ := ⟨id, fun _ => .refl _, rewrites_update fun _ _ => rfl⟩
  removeDependencies := ⟨id, fun _ => .refl _, rewrites_update fun _ _ => rfl⟩

end Memory
end Asana
end FlashyFactory
