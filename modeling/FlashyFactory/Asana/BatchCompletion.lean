import FlashyFactory.Asana.BatchRerun

/-! # Completing a batch that was interrupted

A run leaves tasks behind that have the content of the batch, wherever they lie. The next run, on a service that
answers, completes the batch exactly if none of them lies in a section that is not accepted. -/

namespace FlashyFactory
namespace Asana
namespace Batch

variable {service : Service} {env : Environment} {python : Python} {plan : Plan} {s t : Session}
variable {manifest : List (String × Json)} {tasks : Tasks} {stored : StoredTask}

/-! ## What a run leaves behind -/

/-- No task has an identity of the batch yet. -/
def Fresh (plan : Plan) (tasks : Tasks) : Prop := ∀ task ∈ plan.tasks, ∀ gid stored,
  tasks.get? gid = some stored → stored.externalGid? ≠ some (plan.externalGid task)

/-- A task that has an identity of the batch has its content, wherever it lies. -/
structure Genuine (python : Python) (plan : Plan) (stored : StoredTask) : Prop where
  gid : ∀ task ∈ plan.tasks, stored.externalGid? = some (plan.externalGid task) → isGid stored.gid = true
  carries : ∀ task ∈ plan.tasks, stored.externalGid? = some (plan.externalGid task) →
    Carries python plan task stored
  fields : ∀ task ∈ plan.tasks, stored.externalGid? = some (plan.externalGid task) →
    stored.hasFields (task.customFields.getD []) = true
  dependencies : ∀ dependency ∈ stored.dependencies, isGid dependency = true

theorem hasFields_of_core {other : StoredTask} (h : other.core = stored.core) (expected : List (String × String)) :
    other.hasFields expected = stored.hasFields expected := by
  simp only [StoredTask.core, Prod.mk.injEq] at h
  rw [StoredTask.hasFields, StoredTask.hasFields, h.2.2.2.2]

theorem Genuine.update {c : Change} (h : Genuine python plan stored) (hc : plan.Requests python c) :
    Genuine python plan (c.update service stored) := by
  have hcore := @Change.update_core service c stored
  have hidentity := @externalGid?_update service c stored
  refine ⟨fun task htask hgid => ?_, fun task htask hgid => ?_, fun task htask hgid => ?_,
    dependencies_update hc h.dependencies⟩
  · rw [Change.update_gid]
    exact h.gid task htask (hidentity.symm.trans hgid)
  · exact (h.carries task htask (hidentity.symm.trans hgid)).of_core hcore
  · rw [hasFields_of_core hcore]
    exact h.fields task htask (hidentity.symm.trans hgid)

theorem genuine_new (hnodup : plan.references.Nodup) {task : BatchTask} (htask : task ∈ plan.tasks)
    (hkeys : task.fieldKeys.Nodup) {gid : String} (hgid : isGid gid = true) :
    Genuine python plan (.ofNew service (plan.newTask python task) gid) := by
  have hsame : ∀ other ∈ plan.tasks, (StoredTask.ofNew service (plan.newTask python task) gid).externalGid? =
      some (plan.externalGid other) → task = other := by
    intro other hother hexternal
    exact List.inj_on_of_nodup_map hnodup htask hother (externalGid_ref_inj.mp (Option.some.inj hexternal))
  refine ⟨fun _ _ _ => hgid, fun other hother hexternal => ?_, fun other hother hexternal => ?_,
    fun _ hmem => (List.not_mem_nil hmem).elim⟩
  · obtain rfl := hsame other hother hexternal
    exact ⟨rfl, rfl, rfl, rfl⟩
  · obtain rfl := hsame other hother hexternal
    rw [StoredTask.hasFields, List.all_eq_true]
    exact fun field hmem => decide_eq_true (lookup_of_mem hkeys hmem)

theorem Genuine.reaches {most : ℕ} (hroom : Room service most) (hnodup : plan.references.Nodup)
    (hkeys : ∀ task ∈ plan.tasks, task.fieldKeys.Nodup) (hreaches : Reaches service (plan.Requests python) s t)
    (h : Each (fun _ => Genuine python plan) s.tasks) (hmost : t.tasks.gids.length ≤ most) :
    Each (fun _ => Genuine python plan) t.tasks :=
  Each.reaches_requests hroom (fun _ _ hc hgenuine => hgenuine.update hc)
    (fun task htask _ hgid => genuine_new hnodup htask (hkeys task htask) hgid) hreaches h hmost

/-- Such a task is accepted where it is not misplaced. -/
theorem Genuine.fit (h : Genuine python plan stored) (hplaced : ∀ task ∈ plan.tasks,
    stored.externalGid? = some (plan.externalGid task) → ¬ Misplaced service plan stored) :
    Fit service python plan stored := by
  refine ⟨fun task htask hexternal => ?_, h.dependencies⟩
  have hcarries := h.carries task htask hexternal
  have hwhere := hplaced task htask hexternal
  unfold Misplaced at hwhere
  push Not at hwhere
  exact ⟨h.gid task htask hexternal, hcarries.external, hcarries.unfinished, hcarries.name, hcarries.notes,
    h.fields task htask hexternal, hwhere⟩

theorem Fresh.genuine (h : Fresh plan tasks) (hdependencies : ValidDependencies tasks) :
    Each (fun _ => Genuine python plan) tasks := by
  intro gid stored hget
  exact ⟨fun task htask hexternal => (h task htask gid stored hget hexternal).elim,
    fun task htask hexternal => (h task htask gid stored hget hexternal).elim,
    fun task htask hexternal => (h task htask gid stored hget hexternal).elim, hdependencies gid stored hget⟩

/-- The first run leaves its configuration as it was, and tasks with the content of the batch. -/
theorem Fresh.run {most : ℕ} {tasks' : Tasks} (h : Fresh plan tasks) (hof : plan.Of service env tasks manifest)
    (hdependencies : ValidDependencies tasks) (hkeys : ∀ task ∈ plan.tasks, task.fieldKeys.Nodup)
    (hroom : Room service most) (hmost : tasks'.gids.length ≤ most)
    (hrun : Run service env python manifest tasks tasks') :
    plan.Of service env tasks' manifest ∧ Each (fun _ => Genuine python plan) tasks' := by
  rcases hrun.ran with rfl | ⟨s, t, other, report, rfl, rfl, hother, hran⟩
  · exact ⟨hof, h.genuine hdependencies⟩
  · obtain rfl := hof.unique hother
    have hstays : ∀ gid stored, s.tasks.get? gid = some stored → t.tasks.get? gid = some stored := by
      refine fun gid stored hget => hran.frame gid stored hget fun task htask hcarries => ?_
      refine h task htask gid stored hget ?_
      rw [StoredTask.externalGid?, hcarries.external, Option.map_some]
    refine ⟨⟨hof.parsed, hof.creationId, hof.configured.keeps fun _ _ gid stored _ => hstays gid stored⟩, ?_⟩
    exact Genuine.reaches hroom hof.valid.nodup hkeys hran.requests (h.genuine hdependencies) hmost

theorem Run.unique {tasks' : Tasks} (hrun : Run service env python manifest tasks tasks') (h : Unique tasks) :
    Unique tasks' := by
  rcases hrun.ran with rfl | ⟨s, t, plan, report, rfl, rfl, -, hran⟩
  · exact h
  · exact hran.unique h

/-! ## A batch that is complete -/

/-- The batch is as it was requested. -/
structure Complete (service : Service) (python : Python) (plan : Plan) (after : Tasks) : Prop where
  /-- Each reference has exactly one task, in its section and with its tag. -/
  tasks : ∀ task ∈ plan.tasks, ∃ gid stored, after.get? gid = some stored ∧ Carries python plan task stored ∧
    stored.isAuthorized service plan.setup plan.targetSection plan.selectedTag task = true ∧
    ∀ gid' stored', after.get? gid' = some stored' → stored'.externalGid? = some (plan.externalGid task) →
      gid' = gid
  edges : ∀ edge ∈ plan.edges, ∃ first ∈ plan.tasks, ∃ second ∈ plan.tasks,
    first.ref = edge.1 ∧ second.ref = edge.2 ∧ ∃ dependent blocker stored, after.get? dependent = some stored ∧
      Carries python plan first stored ∧ Holds python plan after second blocker ∧ blocker ∈ stored.dependencies

/-- What a run that reports `ok` leaves behind is complete. -/
theorem Ran.complete {report : BatchReport} (h : Ran service python plan report s t) (hvalid : plan.Valid)
    (hunique : Unique s.tasks) (hok : report.ok = true) : Complete service python plan t.tasks := by
  obtain ⟨-, hnamed, hedges, hactive⟩ := h.truthful.ok hok
  refine ⟨fun task htask => ?_, fun edge hedge => ?_⟩
  · obtain ⟨gid, hnames⟩ := hnamed task htask
    obtain ⟨other, hother, href, stored, hget, hcarries⟩ := h.truthful.carries task.ref gid hnames
    obtain rfl := List.inj_on_of_nodup_map hvalid.nodup hother htask href
    obtain ⟨r, hr, hmem⟩ := h.truthful.covered other.ref gid hnames
    obtain ⟨-, stored', expected, hexpected, hget', -, hauthorized⟩ := h.seenAs hr (hactive r hr) hmem hnames
    cases hget.symm.trans hget'
    cases (find?_of_nodup hvalid.nodup htask).symm.trans hexpected
    rw [h.readSo.place r hr (hactive r hr)] at hauthorized
    refine ⟨gid, stored, hget, hcarries, hauthorized, fun gid' stored' hget' hexternal => ?_⟩
    refine h.unique hunique gid' gid stored' stored hget' hget _ hexternal ?_
    rw [StoredTask.externalGid?, hcarries.external, Option.map_some]
  · obtain ⟨dependent, blocker, stored, hdependent, hblocker, hget, hmem⟩ := hedges edge hedge
    obtain ⟨first, hfirst, href, stored', hget', hcarries⟩ := h.truthful.carries edge.1 dependent hdependent
    obtain ⟨second, hsecond, href', hholds⟩ := h.truthful.carries edge.2 blocker hblocker
    cases hget.symm.trans hget'
    exact ⟨first, hfirst, second, hsecond, href, href', dependent, blocker, stored, hget, hcarries, hholds, hmem⟩

/-- **A batch that was interrupted is completed by the next run**, on a service that answers, exactly if the first run,
whatever became of its requests, has left no task of the batch in another section. -/
theorem rerun_completes_iff (hof : plan.Of service env tasks manifest) (hdigest : python.HexDigest)
    (hfresh : Fresh plan tasks) (hunique : Unique tasks) (hdependencies : ValidDependencies tasks)
    (hkeys : ∀ task ∈ plan.tasks, task.fieldKeys.Nodup) (hrun : Run service env python manifest tasks s.tasks)
    (hroom : Room service (s.tasks.gids.length + plan.tasks.length)) (hanswers : Answers s) :
    Ends (createBatch service env python manifest) s
      (fun report t => report.ok = true ∧ Complete service python plan t.tasks) (fun _ _ => False) ↔
    ∀ task ∈ plan.tasks, ∀ gid stored, s.tasks.get? gid = some stored →
      stored.externalGid? = some (plan.externalGid task) → ¬ Misplaced service plan stored := by
  obtain ⟨hof', hgenuine⟩ := hfresh.run hof hdependencies hkeys hroom (Nat.le_add_right _ _) hrun
  constructor
  · intro hends task htask gid stored hget hexternal hmisplaced
    exact hends.absurd (refuses_misplaced hof' (hrun.unique hunique) htask hget hexternal hmisplaced)
  · intro hplaced
    have hfit : Each (fun _ => Fit service python plan) s.tasks := fun gid stored hget =>
      (hgenuine gid stored hget).fit fun task htask => hplaced task htask gid stored hget
    refine ((ends_createBatch_answers hof' hdigest hfit hkeys hroom hanswers).and ends_createBatch).mono ?_
      fun _ _ h => h.1
    rintro report t ⟨⟨hok, -⟩, other, hother, hran⟩
    obtain rfl := hof'.unique hother
    exact ⟨hok, hran.complete hof'.valid (hrun.unique hunique) hok⟩

/-! ## A service -/

theorem fresh_sampleTasks : Fresh samplePlan sampleTasks ∧ ValidDependencies sampleTasks := by
  have hrow : ∀ gid stored, sampleTasks.get? gid = some stored →
      stored.external = none ∧ stored.dependencies = [] := by
    intro gid stored hget
    obtain rfl := List.mem_singleton.mp (KeyedTable.mem_rows.mpr (KeyedTable.mem_of_get? hget))
    exact ⟨rfl, rfl⟩
  refine ⟨fun task _ gid stored hget hexternal => ?_, fun gid stored hget dependency hmem => ?_⟩
  · rw [StoredTask.externalGid?, (hrow gid stored hget).1] at hexternal
    cases hexternal
  · rw [(hrow gid stored hget).2] at hmem
    cases hmem

/-- Every request of the first run but the first three takes effect and fails. -/
theorem rerun_completes_interrupted : Ends (sampleRun "N")
    { tasks := tasksAfter (sampleRun "N" interrupted), fates := fun _ => .answered }
    (fun report t => report.ok = true ∧ Complete sampleService BatchDefinition.samplePython samplePlan t.tasks)
    (fun _ _ => False) := by
  have hrun : Run sampleService sampleEnvironment BatchDefinition.samplePython (sampleManifest "N") sampleTasks
      (tasksAfter (sampleRun "N" interrupted)) := run_tasksAfter (sampleManifest "N") interrupted.fates []
  have hlength : (tasksAfter (sampleRun "N" interrupted)).gids.length = 2 := by decide +kernel
  have hbacklog : ∀ stored ∈ (tasksAfter (sampleRun "N" interrupted)).rows, stored.sections = ["11"] := by
    decide +kernel
  have hof := @of_sample sampleService rfl rfl
  -- the run is not evaluated
  generalize tasksAfter (sampleRun "N" interrupted) = tasks at hrun hlength hbacklog ⊢
  unfold sampleRun
  generalize sampleManifest "N" = manifest at hrun hof ⊢
  have hroom : Room sampleService (tasks.gids.length + samplePlan.tasks.length) :=
    rules_sample.room.mono (by rw [hlength]; exact Nat.le_of_ble_eq_true rfl)
  refine (@rerun_completes_iff sampleService sampleEnvironment BatchDefinition.samplePython samplePlan
    { tasks := tasks, fates := fun _ => .answered } manifest sampleTasks hof BatchDefinition.hexDigest_samplePython
    fresh_sampleTasks.1 (bound_sampleTasks BatchDefinition.samplePython).unique fresh_sampleTasks.2 (by decide) hrun
    hroom fun _ => rfl).mpr ?_
  intro task _ gid stored hget _ hmisplaced
  refine hmisplaced "11" List.mem_cons_self (hbacklog stored ?_) (by decide +kernel)
  exact KeyedTable.mem_rows.mpr (KeyedTable.mem_of_get? hget)

/-- The first run creates the task, but does not move it: no further run succeeds. -/
theorem rerun_stuck : ¬ ∀ s : Session, Run strayService sampleEnvironment BatchDefinition.samplePython
    (sampleManifest "N") sampleTasks s.tasks → Answers s →
      Ends (createBatch strayService sampleEnvironment BatchDefinition.samplePython (sampleManifest "N")) s
        (fun report _ => report.ok = true) (fun _ _ => False) := by
  intro h
  have hrun : Run strayService sampleEnvironment BatchDefinition.samplePython (sampleManifest "N") sampleTasks
      (tasksAfter (strayRun sampleTasks)) := run_tasksAfter _ _ []
  obtain ⟨stored, hget, hexternal, hmisplaced⟩ := misplaced_stray
  have hof := of_strayRun
  have hunique := unique_strayRun
  -- the run is not evaluated
  generalize tasksAfter (strayRun sampleTasks) = tasks at hrun hget hof hunique
  let s : Session := { tasks := tasks, fates := fun _ => .answered }
  exact (h s hrun fun _ => rfl).absurd
    (refuses_misplaced (s := s) hof hunique List.mem_cons_self hget hexternal hmisplaced)

end Batch
end Asana
end FlashyFactory
