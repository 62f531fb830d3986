import FlashyFactory.Asana.BatchHistory

/-! # A `batch_creation_id` that is used again

Two manifests of one id. If they differ in more than order, the second is refused as soon as a run of the first
has created its anchor; otherwise both are the same batch. -/

namespace FlashyFactory
namespace Asana
namespace Batch

variable {service : Service} {env env' : Environment} {python : Python} {plan : Plan} {s u : Session}
  {manifest manifest' : List (String × Json)} {first second : BatchDefinition}

/-! ## Manifests -/

/-- The definition of a valid manifest; the keys of an object are distinct. -/
structure Defines (manifest : List (String × Json)) (d : BatchDefinition) : Prop where
  parsed : parseBatchManifest manifest = .ok (d.deliveryPolicy, d.tasks, d.edges)
  fieldKeys : ∀ task ∈ d.tasks, task.fieldKeys.Nodup

theorem Defines.references_nodup (h : Defines manifest first) : first.references.Nodup :=
  (parseBatchManifest_valid h.parsed).1

theorem Plan.Of.batchDefinition {tasks : Tasks} (h : plan.Of service env tasks manifest)
    (hdefines : Defines manifest first) : plan.batchDefinition = first := by
  have hparts := h.parsed.symm.trans hdefines.parsed
  simp only [Except.ok.injEq, Prod.mk.injEq] at hparts
  obtain ⟨hpolicy, htasks, hedges⟩ := hparts
  rw [Plan.batchDefinition, hpolicy, htasks, hedges]

def Plan.ofDefinition (setup : Setup) (batchCreationId : String) (d : BatchDefinition) : Plan :=
  ⟨setup, d.deliveryPolicy, batchCreationId, d.tasks, d.edges⟩

/-! ## The same batch -/

theorem anchorRef_of_same (h : first.Same second) (setup : Setup) (id : String) :
    (Plan.ofDefinition setup id first).anchorRef = (Plan.ofDefinition setup id second).anchorRef :=
  congrArg (·.headD "") (sorted_eq_of_perm h.references)

theorem identity_of_same (h : first.Same second) (hfirst : Defines manifest first) (setup : Setup) (id : String)
    {task next : BatchTask} (htask : task ∈ first.tasks) (hsame : task.Same next) :
    (Plan.ofDefinition setup id first).identity python task =
      (Plan.ofDefinition setup id second).identity python next := by
  have hdefinition : (Plan.ofDefinition setup id first).definition python =
      (Plan.ofDefinition setup id second).definition python := h.hash hfirst.references_nodup hfirst.fieldKeys
  have hcontent : taskContentHash python task = taskContentHash python next := by
    rw [taskContentHash, taskContentHash, contentText_eq, contentText_eq,
      hsame.content (hfirst.fieldKeys task htask)]
  rw [Plan.identity, Plan.identity, hdefinition, anchorRef_of_same h]
  simp only [taskExternalIdentity, externalData, hsame.ref, hcontent]
  rfl

/-! ## Another batch -/

/-- A run of the manifest has created a task, its anchor or one after it, and the tasks have kept their identities
since; no two tasks have one identity. -/
structure Begun (service : Service) (env : Environment) (python : Python) (manifest : List (String × Json))
    (s : Session) (tasks : Tasks) : Prop where
  created : ∃ gid, s.tasks.get? gid = none ∧
    ((tasksAfter (createBatch service env python manifest s)).get? gid).isSome
  kept : (tasksAfter (createBatch service env python manifest s)).Keeps StoredTask.external tasks
  unique : Unique tasks

/-- The anchor is the first task that a run creates. -/
theorem Begun.rooted {tasks : Tasks} (h : Begun service env python manifest s tasks) :
    ∃ plan : Plan, plan.Of service env s.tasks manifest ∧ Rooted python plan tasks := by
  obtain ⟨gid, hnew, hcreated⟩ := h.created
  have hkept := h.kept
  cases hrun : createBatch service env python manifest s with
  | ok report t =>
    rw [hrun] at hcreated hkept
    obtain ⟨stored, hget⟩ := Option.isSome_iff_exists.mp hcreated
    obtain ⟨plan, hof, hran⟩ := (Ends.ok_iff hrun).mp ends_createBatch
    exact ⟨plan, hof, (hran.anchored gid stored hnew hget).rooted.keeps hkept⟩
  | error e t =>
    -- a run that raises has created nothing
    have hread : Reading service s t := (Ends.error_iff hrun).mp ends_createBatch
    rw [hrun, tasksAfter, hread.tasks_eq, hnew] at hcreated
    cases hcreated

theorem Begun.refuses (h : Begun service env python manifest s u.tasks) (hfirst : Defines manifest first)
    (hsecond : Defines manifest' second) (hid : creationId manifest = creationId manifest')
    (hdistinct : first.Distinguished python second)
    (hdiffers : requireProject env ≠ requireProject env' ∨ first.Differs second) :
    Ends (createBatch service env' python manifest') u (fun _ _ => False)
      (fun _ t => t.tasks = u.tasks ∧ ∃ events, t.log = u.log ++ events ∧ ∀ event ∈ events,
        event.change? = none) := by
  obtain ⟨plan, hof, hrooted⟩ := h.rooted
  refine (ends_createBatch_rooted h.unique hrooted (hof.creationId.trans hid)).mono ?_ fun _ _ h => h
  rintro _ _ ⟨other, hother, hagrees⟩
  rcases hdiffers with hproject | hdiffers
  · refine hproject ?_
    rw [hof.configured.project, hother.configured.project, hagrees.project]
  · refine hdiffers.not_same hsecond.references_nodup ?_
    rw [← hof.batchDefinition hfirst, ← hother.batchDefinition hsecond] at hdistinct ⊢
    exact hagrees.same hdistinct

/-- **Two manifests of one `batch_creation_id` are one batch, or the second is refused** before anything is changed,
once a run of the first has created its anchor. -/
theorem creationId_binds (hfirst : Defines manifest first) (hsecond : Defines manifest' second)
    (hid : creationId manifest = creationId manifest') :
    (first.Distinguished python second → ∀ (service : Service) (env env' : Environment) (s u : Session),
      Begun service env python manifest s u.tasks →
      requireProject env ≠ requireProject env' ∨ first.Differs second →
      Ends (createBatch service env' python manifest') u (fun _ _ => False)
        (fun _ t => t.tasks = u.tasks ∧ ∃ events, t.log = u.log ++ events ∧ ∀ event ∈ events,
          event.change? = none)) ∧
    (first.Same second → first.hash python = second.hash python ∧
      ∀ setup, ∀ task ∈ first.tasks, ∃ next ∈ second.tasks, task.ref = next.ref ∧
        (Plan.ofDefinition setup (creationId manifest) first).identity python task =
          (Plan.ofDefinition setup (creationId manifest') second).identity python next) := by
  constructor
  · intro hdistinct service env env' s u hbegun hdiffers
    exact hbegun.refuses hfirst hsecond hid hdistinct hdiffers
  · intro hsame
    refine ⟨hsame.hash hfirst.references_nodup hfirst.fieldKeys, fun setup task htask => ?_⟩
    obtain ⟨next, hnext, htasks⟩ := hsame.task htask
    refine ⟨next, hnext, htasks.ref, ?_⟩
    rw [← hid]
    exact identity_of_same hsame hfirst setup _ htask htasks

/-! ## A service -/

/-- A manifest of two tasks, in this order. -/
def pairManifest (tasks : List Json) : List (String × Json) := [
  ("batch_creation_id", .string "b"),
  ("delivery_policy", .string "backlog_only"),
  ("tasks", .array tasks),
  ("dependencies", .string "independent")]

def fieldsOf (fields : List (String × String)) : Json := .object (fields.map fun field => (field.1, .string field.2))

/-- The task `one` with its custom fields. -/
def rawOne (fields : List (String × String)) : Json :=
  .object [("ref", .string "one"), ("name", .string "N"), ("custom_fields", fieldsOf fields)]

def rawTwo : Json := .object [("ref", .string "two"), ("name", .string "M")]

def taskOne (fields : List (String × String)) : BatchTask := { ref := "one", name := "N", customFields := some fields }

def taskTwo : BatchTask := { ref := "two", name := "M" }

def pairDefinition (tasks : List BatchTask) : BatchDefinition := ⟨.backlogOnly, tasks, []⟩

theorem defines_sample : Defines (sampleManifest "N") (.sample "N") ∧ Defines (sampleManifest "M") (.sample "M") :=
  ⟨⟨by decide +kernel, by decide⟩, ⟨by decide +kernel, by decide⟩⟩

theorem defines_pair :
    Defines (pairManifest [rawOne [("1", "2"), ("3", "4")], rawTwo])
      (pairDefinition [taskOne [("1", "2"), ("3", "4")], taskTwo]) ∧
    Defines (pairManifest [rawTwo, rawOne [("3", "4"), ("1", "2")]])
      (pairDefinition [taskTwo, taskOne [("3", "4"), ("1", "2")]]) :=
  ⟨⟨by decide +kernel, by decide⟩, ⟨by decide +kernel, by decide⟩⟩

theorem same_pair : (pairDefinition [taskOne [("1", "2"), ("3", "4")], taskTwo]).Same
    (pairDefinition [taskTwo, taskOne [("3", "4"), ("1", "2")]]) where
  deliveryPolicy := rfl
  tasks := by
    refine ⟨[taskOne [("3", "4"), ("1", "2")], taskTwo], ?_, .swap _ _ _⟩
    exact .cons ⟨rfl, rfl, rfl, .swap _ _ _⟩ (.cons ⟨rfl, rfl, rfl, .refl _⟩ .nil)
  edges := .refl _

theorem creationId_binds_samples :
    (∃ report t, sampleRun "N" sampleSession = .ok report t ∧
      Ends (sampleRun "M") t (fun _ _ => False) (fun _ u => u.tasks = t.tasks ∧
        ∃ events, u.log = t.log ++ events ∧ ∀ event ∈ events, event.change? = none)) ∧
    (pairDefinition [taskOne [("1", "2"), ("3", "4")], taskTwo]).hash BatchDefinition.samplePython =
      (pairDefinition [taskTwo, taskOne [("3", "4"), ("1", "2")]]).hash BatchDefinition.samplePython := by
  obtain ⟨hfirst, hsecond⟩ := defines_sample
  obtain ⟨hpair, hswapped⟩ := defines_pair
  refine ⟨?_, ((creationId_binds hpair hswapped (by decide +kernel)).2 same_pair).1⟩
  obtain ⟨report, t, hrun, stored, hget, -⟩ := sampleRun_creates
  have hafter : tasksAfter (sampleRun "N" sampleSession) = t.tasks := by rw [hrun, tasksAfter]
  have hbegun : Begun sampleService sampleEnvironment BatchDefinition.samplePython (sampleManifest "N") sampleSession
      t.tasks := by
    refine ⟨⟨"7", by decide +kernel, ?_⟩, ?_, ((bound_sampleTasks _).happens (.returned hrun)).unique⟩
    · exact Option.isSome_iff_exists.mpr ⟨stored, hafter ▸ hget⟩
    · exact fun gid stored hget => ⟨stored, hafter ▸ hget, rfl⟩
  have hname : (BatchDefinition.sample "N").Differs (.sample "M") :=
    .content { ref := "one", name := "N" } { ref := "one", name := "M" } (by decide) (by decide) rfl (.inl (by decide))
  exact ⟨report, t, hrun, (creationId_binds hfirst hsecond (by decide +kernel)).1
    BatchDefinition.distinguished_sample _ _ sampleEnvironment _ t hbegun (.inr hname)⟩

end Batch
end Asana
end FlashyFactory
