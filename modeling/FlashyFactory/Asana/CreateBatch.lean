import FlashyFactory.Asana.BatchGraph
import FlashyFactory.Asana.BatchService

/-! # Creating a batch

`create_batch` with what it calls. What is derived from the manifest and the configuration is a `Plan`. -/

namespace FlashyFactory
namespace Asana
namespace Batch

open CanonicalJson

/-! ## The configuration -/

structure Environment where
  /-- `os.environ.get` -/
  get : String → Option String
  /-- `args.project` -/
  project : Option String := none
  /-- `validate_batch_oauth` -/
  oauth : Answer Unit := .ok ()

/-- The section gids and the tag gids that the batch uses. -/
structure Setup where
  project : String
  backlog : String
  readyForSpec : Option String
  manualTag : String
  autoTag : String
deriving DecidableEq, Repr

section
variable (service : Service) (env : Environment)

/-- `redacted_error` -/
def Environment.redacted (message : String) : String :=
  ["ASANA_ACCESS_TOKEN", "ASANA_OAUTH_ACCESS_TOKEN"].foldl (fun message name =>
    let token := (env.get name).getD ""
    if token = "" then message else message.replace token "[REDACTED]") message

def requireVariable (name : String) : Answer String := requireGid name ((env.get name).getD "")

def requireProject : Answer String :=
  requireGid "--project or ASANA_PROJECT_GID"
    (((env.project.filter (· ≠ "")).or (env.get "ASANA_PROJECT_GID")).getD "")

def configuredBatchSection (project sectionEnvironment witnessEnvironment label : String) : Client String := do
  let inSection ← validate (requireVariable env sectionEnvironment)
  let witnessGid ← validate (requireVariable env witnessEnvironment)
  let witness ← readTask witnessGid
  let found := witness.sections.filter fun other => service.projectOf other = project ∧ other = inSection
  validate (refuseIf (found.length ≠ 1) (label ++ " witness task " ++ witnessGid ++
    " must have exactly one membership in ASANA_PROJECT_GID " ++ project ++ " and section " ++ inSection))
  return inSection

def configuredReadyForSpec (project : String) (deliveryPolicy : DeliveryPolicy) : Client (Option String) :=
  match deliveryPolicy with
  | .backlogOnly => return none
  | .autonomousToPr => do
    let inSection ← configuredBatchSection service env project "ASANA_READY_FOR_SPEC_SECTION_GID"
      "ASANA_READY_FOR_SPEC_SECTION_WITNESS_TASK_GID" "Ready For Spec"
    return some inSection

def authorizationTag (tags : List Tag) (name : String) : Answer String :=
  match tags.filter (·.name = name) with
  | [found] => requireGid "tag.gid" found.gid
  | found => refuse ("Asana workspace must contain exactly one tag named " ++ pythonRepr name ++
      "; found " ++ toString found.length)

/-- `resolve_authorization_tags`: the manual tag and the autonomous one -/
def resolveAuthorizationTags (workspace : String) : Client (String × String) := do
  let tags ← fetch fun _ => service.tags workspace
  let tags ← validate (paginate 1000 tags)
  let manualTag ← validate (authorizationTag tags DeliveryPolicy.backlogOnly.tag)
  let autoTag ← validate (authorizationTag tags DeliveryPolicy.autonomousToPr.tag)
  return (manualTag, autoTag)

/-- What is read before the identities of the batch are looked up. -/
def configure (deliveryPolicy : DeliveryPolicy) : Client Setup := do
  validate env.oauth
  let project ← validate (requireProject env)
  let workspace ← validate (requireVariable env "ASANA_WORKSPACE_GID")
  let backlog ← configuredBatchSection service env project "ASANA_BACKLOG_SECTION_GID"
    "ASANA_BACKLOG_SECTION_WITNESS_TASK_GID" "Backlog"
  let readyForSpec ← configuredReadyForSpec service env project deliveryPolicy
  let (manualTag, autoTag) ← resolveAuthorizationTags service workspace
  return ⟨project, backlog, readyForSpec, manualTag, autoTag⟩

end

/-! ## The plan -/

structure Plan where
  setup : Setup
  deliveryPolicy : DeliveryPolicy
  batchCreationId : String
  tasks : List BatchTask
  edges : List (String × String)

section
variable (python : Python) (plan : Plan)

def Plan.references : List String := plan.tasks.map BatchTask.ref

def Plan.definition : String := batchDefinitionHash python plan.deliveryPolicy plan.tasks plan.edges

/-- The least reference of the batch. -/
def Plan.anchorRef : String := (sorted plan.references).headD ""

def Plan.identity (task : BatchTask) : Answer (String × String) :=
  taskExternalIdentity python plan.batchCreationId (plan.definition python) plan.anchorRef task plan.setup.project
    plan.setup.backlog

def Plan.externalGid (task : BatchTask) : String := Asana.externalGid plan.batchCreationId plan.anchorRef task.ref

def Plan.externalData (task : BatchTask) : String :=
  Asana.externalData python plan.batchCreationId (plan.definition python) task plan.setup.project plan.setup.backlog

/-- `expected_tasks[reference]` -/
def Plan.expected (reference : String) : Client BatchTask :=
  match plan.tasks.find? (·.ref = reference) with
  | some task => pure task
  | none => throw (.keyError reference)

def Setup.allowedExisting (setup : Setup) : List String := setup.backlog :: setup.readyForSpec.toList

def Setup.tag (setup : Setup) : DeliveryPolicy → String
  | .backlogOnly => setup.manualTag
  | .autonomousToPr => setup.autoTag

end

/-! ## Existing tasks -/

section
variable (service : Service) (env : Environment)

def getExternalTask (externalGid : String) : Client (Option StoredTask) := do
  match ← fetch (findExternal externalGid) with
  | none => return none
  | some task => do
    noteRead task
    let _ ← validate (requireGid "external task.gid" task.gid)
    return some task

def recoveryAttempts : ℕ := 3

/-- The attempts that are left, and the error of the one before. -/
def recoverExternalTask (externalGid : String) : ℕ → String → Client StoredTask
  | 0, lastError => throw (.clientError ("external creation identity " ++ pythonRepr externalGid ++
      " remained unresolved after " ++ toString recoveryAttempts ++ " lookup attempts: " ++ env.redacted lastError))
  | attempts + 1, _ => do
    match ← catchClientError (getExternalTask externalGid) with
    | .ok (some task) => return task
    | .ok none =>
      recoverExternalTask externalGid attempts
        ("external creation identity " ++ pythonRepr externalGid ++ " was not found")
    | .error message => recoverExternalTask externalGid attempts message

/-- `custom_fields_match` -/
def StoredTask.hasFields (task : StoredTask) (expected : List (String × String)) : Bool :=
  expected.all fun (field, option) => task.customFields.lookup field = some option

def verifyExternalTask (task : StoredTask) (expected : BatchTask) (externalGid externalData project : String)
    (allowedSections : List String) : Answer String := do
  let gid ← requireGid "external task.gid" task.gid
  match task.external with
  | none => refuse ("Asana task " ++ gid ++ " has no readable external identity")
  | some external => do
    let identity := "external creation identity " ++ pythonRepr externalGid
    refuseIf (external ≠ (externalGid, externalData)) (identity ++ " is already used by mismatched content")
    refuseIf (task.completed = true) (identity ++ " belongs to a completed task")
    refuseIf (task.name ≠ expected.name ∨ task.notes ≠ expected.notes.getD "")
      (identity ++ " has mismatched live content")
    refuseIf (task.hasFields (expected.customFields.getD []) = false) (identity ++ " has mismatched custom fields")
    match task.sections with
    | [inSection] => do
      refuseIf (service.projectOf inSection ≠ project ∨ inSection ∉ allowedSections)
        (identity ++ " is outside the expected project section")
      return gid
    | _ => refuse (identity ++ " is attached to an unexpected project")

/-! ## Requests about one task -/

/-- A request whose answer is not looked at. -/
def mutate (change : Change) : Client Unit := do
  let _ ← send service change

def mutateSection (gid inSection : String) : Client Unit := mutate service (.addTask inSection gid)

def taskInProject (project gid : String) : Client StoredTask := do
  let task ← readTask gid
  validate (refuseIf (task.sections.any (service.projectOf · = project) = false)
    ("Asana task " ++ gid ++ " does not belong to ASANA_PROJECT_GID " ++ project))
  return task

end

/-! ## Creation -/

inductive Source
  | reused
  | created
  | recovered
deriving DecidableEq, Repr

/-- An entry of `gids` and of `sources`. -/
structure Placed where
  ref : String
  gid : String
  source : Source
deriving DecidableEq, Repr

structure CreationRecovery where
  ref : String
  gid : String
  createError : String
deriving DecidableEq, Repr

structure UnreconciledIdentity where
  ref : String
  externalGid : String
  error : String
deriving DecidableEq, Repr

structure FailedTask where
  ref : String
  error : String
deriving DecidableEq, Repr

def gid? (placed : List Placed) (reference : String) : Option String :=
  (placed.find? (·.ref = reference)).map Placed.gid

/-- `gids[reference]` -/
def gidOf (placed : List Placed) (reference : String) : Client String :=
  match gid? placed reference with
  | some gid => pure gid
  | none => throw (.keyError reference)

structure Progress where
  placed : List Placed := []
  creationRecoveries : List CreationRecovery := []
  unreconciled : List UnreconciledIdentity := []
  failedTasks : List FailedTask := []

namespace Progress

/-- The end of a turn of the creation loop. -/
def place (progress : Progress) (reference gid : String) (source : Source) : Progress :=
  if gid ∈ progress.placed.map Placed.gid then
    { progress with failedTasks := progress.failedTasks ++
        [⟨reference, "Asana returned duplicate created task GID " ++ gid⟩] }
  else { progress with placed := progress.placed ++ [⟨reference, gid, source⟩] }

def recovered (progress : Progress) (reference gid createError : String) : Progress :=
  { progress with creationRecoveries := progress.creationRecoveries ++ [⟨reference, gid, createError⟩] }

def fail (progress : Progress) (reference externalGid createError recoveryError : String) : Progress :=
  { progress with
    unreconciled := progress.unreconciled ++ [⟨reference, externalGid, recoveryError⟩]
    failedTasks := progress.failedTasks ++
      [⟨reference, createError ++ "; recovery failed: " ++ recoveryError⟩] }

end Progress

section
variable (service : Service) (env : Environment) (python : Python) (plan : Plan)

/-- One turn of the lookup loop. -/
def lookUpTask (task : BatchTask) : Client (Option Placed) := do
  let (externalGid, externalData) ← validate (plan.identity python task)
  match ← getExternalTask externalGid with
  | none => return none
  | some existing => do
    let gid ← validate (verifyExternalTask service existing task externalGid externalData plan.setup.project
      plan.setup.allowedExisting)
    return some ⟨task.ref, gid, .reused⟩

def lookUpTasks : List BatchTask → Client (List Placed)
  | [] => return []
  | task :: tasks => do
    let found ← lookUpTask service python plan task
    let rest ← lookUpTasks tasks
    return found.toList ++ rest

def Plan.creationOrder : List BatchTask :=
  plan.tasks.filter (·.ref = plan.anchorRef) ++ plan.tasks.filter (·.ref ≠ plan.anchorRef)

def Plan.newTask (task : BatchTask) : NewTask where
  name := task.name
  project := plan.setup.project
  externalGid := plan.externalGid task
  externalData := plan.externalData python task
  notes := task.notes
  customFields := task.customFields

def requestCreation (placed : List Placed) (task : BatchTask) : Client String := do
  let created ← send service (.create (plan.newTask python task))
  let gid ← validate (requireGid "created task.gid" created)
  mutateSection service gid plan.setup.backlog
  validate (refuseIf (gid ∈ placed.map Placed.gid) ("Asana returned duplicate created task GID " ++ gid))
  return gid

def recoverCreation (task : BatchTask) : Client String := do
  let recovered ← recoverExternalTask env (plan.externalGid task) recoveryAttempts ""
  validate (verifyExternalTask service recovered task (plan.externalGid task) (plan.externalData python task)
    plan.setup.project [plan.setup.backlog])

/-- One turn of the creation loop, and whether the loop goes on. -/
def createTask (progress : Progress) (task : BatchTask) : Client (Progress × Bool) := do
  match ← catchClientError (requestCreation service python plan progress.placed task) with
  | .ok gid => return (progress.place task.ref gid .created, true)
  | .error createError => do
    match ← catchClientError (recoverCreation service env python plan task) with
    | .ok gid =>
      return ((progress.recovered task.ref gid (env.redacted createError)).place task.ref gid .recovered, true)
    | .error recoveryError =>
      return (progress.fail task.ref (plan.externalGid task) (env.redacted createError) (env.redacted recoveryError),
        task.ref ≠ plan.anchorRef)

def createTasks : List BatchTask → Progress → Client Progress
  | [], progress => return progress
  | task :: tasks, progress =>
    if task.ref ∈ progress.placed.map Placed.ref then createTasks tasks progress
    else do
      let (progress, more) ← createTask service env python plan progress task
      if more then createTasks tasks progress else return progress

end

/-! ## Authorization -/

structure OperationFailure where
  operation : String
  error : String
deriving DecidableEq, Repr

/-- The elements are the one of a set of one. -/
def isOnly (items : List String) (item : String) : Bool := items.contains item && items.all (· = item)

/-- The `repr` of a sorted set. -/
def pythonSet (items : List String) : String :=
  "[" ++ String.intercalate ", " ((sorted items.dedup).map pythonRepr) ++ "]"

section
variable (service : Service) (env : Environment) (plan : Plan) (placed : List Placed)

def StoredTask.authorizationTags (setup : Setup) (task : StoredTask) : List String :=
  task.tags.filter fun tag => tag = setup.manualTag ∨ tag = setup.autoTag

def StoredTask.projectSections (project : String) (task : StoredTask) : List String :=
  task.sections.filter fun inSection => service.projectOf inSection = project

/-- The task has the selected tag only, is in the section only, and has its custom fields. -/
def StoredTask.isAuthorized (setup : Setup) (inSection tag : String) (expected : BatchTask) (task : StoredTask) :
    Bool :=
  isOnly (task.authorizationTags setup) tag && isOnly (task.projectSections service setup.project) inSection &&
    task.hasFields (expected.customFields.getD [])

def authorizationError (inSection : String) (task : StoredTask) (expected : BatchTask) : String :=
  "expected exactly one selected authorization tag and section " ++ inSection ++ "; found tags " ++
    pythonSet (task.authorizationTags plan.setup) ++ " and sections " ++
    pythonSet (task.projectSections service plan.setup.project) ++ "; custom fields match: " ++
    (if task.hasFields (expected.customFields.getD []) then "True" else "False")

/-- One turn of the loop of `verify_component_authorization`: the gid of a task that is not verified. -/
def verifyAuthorization (inSection tag reference : String) : Client (Option (String × OperationFailure)) := do
  let gid ← gidOf placed reference
  let expected ← plan.expected reference
  match ← catchClientError (taskInProject service plan.setup.project gid) with
  | .error message => return some (gid, ⟨"verify_authorization:" ++ reference, env.redacted message⟩)
  | .ok task =>
    if task.isAuthorized service plan.setup inSection tag expected then return none
    else return some (gid, ⟨"verify_authorization:" ++ reference,
      authorizationError service plan inSection task expected⟩)

/-- The gids of the tasks that are not verified, and the failures. -/
def verifyComponentAuthorization (inSection tag : String) :
    List String → Client (List String × List OperationFailure)
  | [] => return ([], [])
  | reference :: component => do
    let found ← verifyAuthorization service env plan placed inSection tag reference
    let (unsafeGids, failures) ← verifyComponentAuthorization inSection tag component
    return (found.toList.map Prod.fst ++ unsafeGids, found.toList.map Prod.snd ++ failures)

/-- A request whose failure is noted. -/
def tryRequest (operation : String) (request : Client Unit) : Client (List OperationFailure) := do
  match ← catchClientError request with
  | .ok _ => return []
  | .error message => return [⟨operation, env.redacted message⟩]

def safeguardTask (reference : String) : Client (List OperationFailure) := do
  let gid ← gidOf placed reference
  let first ← tryRequest env ("safeguard_section:" ++ reference) (mutateSection service gid plan.setup.backlog)
  let second ← tryRequest env ("safeguard_auto_tag:" ++ reference)
    (mutate service (.removeTag plan.setup.autoTag gid))
  let third ← tryRequest env ("safeguard_manual_tag:" ++ reference)
    (mutate service (.addTag plan.setup.manualTag gid))
  return first ++ second ++ third

def safeguardTasks : List String → Client (List OperationFailure)
  | [] => return []
  | reference :: component => do
    let failures ← safeguardTask service env plan placed reference
    let rest ← safeguardTasks component
    return failures ++ rest

def safeguardComponent (component : List String) : Client (List String × List OperationFailure) := do
  let failures ← safeguardTasks service env plan placed component.reverse
  let (unsafeGids, verificationFailures) ← verifyComponentAuthorization service env plan placed plan.setup.backlog
    plan.setup.manualTag component
  return (unsafeGids, failures ++ verificationFailures)

/-- A loop that sends one request for each task of the component. -/
def mutateAll (change : String → Change) : List String → Client Unit
  | [] => return
  | reference :: component => do
    let gid ← gidOf placed reference
    mutate service (change gid)
    mutateAll change component

def Plan.selectedTag : String := plan.setup.tag plan.deliveryPolicy

def Plan.oppositeTag : String :=
  plan.setup.tag (match plan.deliveryPolicy with | .autonomousToPr => .backlogOnly | .backlogOnly => .autonomousToPr)

/-- The section of an authorized task. -/
def Plan.targetSection : String :=
  match plan.deliveryPolicy with
  | .autonomousToPr => plan.setup.readyForSpec.getD ""
  | .backlogOnly => plan.setup.backlog

def moveToTarget (component : List String) : Client Unit :=
  match plan.deliveryPolicy with
  | .autonomousToPr => mutateAll service placed (.addTask plan.targetSection) component
  | .backlogOnly => return

def authorizeComponent (component : List String) : Client (List String × List OperationFailure) := do
  mutateAll service placed (.removeTag plan.oppositeTag) component
  mutateAll service placed (.addTag plan.selectedTag) component
  moveToTarget service plan placed component
  verifyComponentAuthorization service env plan placed plan.targetSection plan.selectedTag component

/-- What `activate_component` returns once the component is not authorized. -/
def fallBack (component : List String) (failures : List OperationFailure) :
    Client (Bool × List String × List OperationFailure) := do
  let (unsafeGids, safeguardFailures) ← safeguardComponent service env plan placed component
  return (false, unsafeGids, failures ++ safeguardFailures)

def activateComponent (component : List String) : Client (Bool × List String × List OperationFailure) := do
  match ← catchClientError (authorizeComponent service env plan placed component) with
  | .ok (unsafeGids, failures) =>
    if unsafeGids = [] then return (true, [], failures) else fallBack service env plan placed component failures
  | .error message =>
    fallBack service env plan placed component [⟨"authorize_component", env.redacted message⟩]

end

/-! ## The report -/

structure CreatedTask where
  ref : String
  gid : String
  source : Source
  customFields : List (String × String)
deriving DecidableEq, Repr

structure EdgeRecord where
  edge : String
  dependent : String
  dependentGid : String
  blocker : String
  blockerGid : String
deriving DecidableEq, Repr

/-- An entry of `missing_edges`. -/
inductive MissingEdge
  | text (edge : String)
  | record (edge : EdgeRecord)
deriving DecidableEq, Repr

inductive ComponentStatus
  | readyForSpec
  | manualBacklog
  | manualBacklogPartialCreate
  | manualBacklogUnverified
  | backlogAuthorizationFailed
  | authorizationStateUnsafe
deriving DecidableEq, Repr

structure ComponentReport where
  tasks : List String
  missingEdges : List String
  unsafeTaskGids : List String
  status : ComponentStatus
deriving DecidableEq, Repr

structure BatchReport where
  ok : Bool := false
  deliveryPolicy : DeliveryPolicy
  batchCreationId : String
  batchDefinitionSha256 : String
  createdTasks : List CreatedTask
  creationRecoveries : List CreationRecovery
  unreconciledExternalIdentities : List UnreconciledIdentity
  failedTasks : List FailedTask
  requestedEdges : List String
  verifiedEdges : List EdgeRecord := []
  missingEdges : List MissingEdge := []
  components : List ComponentReport := []
  failures : List OperationFailure := []
deriving DecidableEq, Repr

section
variable (service : Service) (env : Environment) (python : Python) (plan : Plan)

def edgeText (edge : String × String) : String := edge.1 ++ " -> " ++ edge.2

def createdTasks (placed : List Placed) : List CreatedTask :=
  plan.tasks.filterMap fun task => (placed.find? (·.ref = task.ref)).map fun entry =>
    ⟨task.ref, entry.gid, entry.source, task.customFields.getD []⟩

def report (progress : Progress) : BatchReport where
  deliveryPolicy := plan.deliveryPolicy
  batchCreationId := plan.batchCreationId
  batchDefinitionSha256 := plan.definition python
  createdTasks := createdTasks plan progress.placed
  creationRecoveries := progress.creationRecoveries
  unreconciledExternalIdentities := progress.unreconciled
  failedTasks := progress.failedTasks
  requestedEdges := plan.edges.map edgeText

/-- The report of a partial creation. -/
def partialReport (progress : Progress) : Client BatchReport :=
  let created := (plan.tasks.map BatchTask.ref).filter fun reference => reference ∈ progress.placed.map Placed.ref
  let requested := plan.edges.map edgeText
  let partialFailure : OperationFailure := ⟨"create_tasks",
    "batch creation was partial; no dependencies or autonomous authorization were attempted"⟩
  if created = [] then
    return { report python plan progress with missingEdges := requested.map .text, failures := [partialFailure] }
  else do
    let (unsafeGids, failures) ← safeguardComponent service env plan progress.placed created
    return { report python plan progress with
      missingEdges := requested.map .text
      failures := partialFailure :: failures
      components := [{
        tasks := created
        missingEdges := requested
        unsafeTaskGids := unsafeGids
        status := if unsafeGids = [] then .manualBacklogPartialCreate else .authorizationStateUnsafe }] }

variable (placed : List Placed)

def addDependency (edge : String × String) : Client Unit := do
  let dependent ← gidOf placed edge.1
  let blocker ← gidOf placed edge.2
  mutate service (.addDependencies dependent [blocker])

def addDependencies : List (String × String) → Client (List OperationFailure)
  | [] => return []
  | edge :: edges => do
    let failures ← tryRequest env ("add_dependency:" ++ edgeText edge) (addDependency service placed edge)
    let rest ← addDependencies edges
    return failures ++ rest

def readDependencies (dependent : String) : Client (List String) := do
  let gid ← gidOf placed dependent
  let task ← taskInProject service plan.setup.project gid
  validate (task.dependencies.mapM (requireGid "dependency.gid"))

/-- `blockers_by_dependent` and the failures -/
def verifyDependencies : List String → Client (List (String × List String) × List OperationFailure)
  | [] => return ([], [])
  | dependent :: dependents => do
    let found ← catchClientError (readDependencies service plan placed dependent)
    let (blockers, failures) ← verifyDependencies dependents
    match found with
    | .ok gids => return ((dependent, gids) :: blockers, failures)
    | .error message => return (blockers, ⟨"verify_dependencies:" ++ dependent, env.redacted message⟩ :: failures)

def edgeRecord (edge : String × String) : Client EdgeRecord := do
  let dependentGid ← gidOf placed edge.1
  let blockerGid ← gidOf placed edge.2
  return ⟨edgeText edge, edge.1, dependentGid, edge.2, blockerGid⟩

/-- The verified edges, and those that are missing. -/
def classifyEdges (blockers : List (String × List String)) :
    List (String × String) → Client (List EdgeRecord × List ((String × String) × EdgeRecord))
  | [] => return ([], [])
  | edge :: edges => do
    let record ← edgeRecord placed edge
    let (verified, missing) ← classifyEdges blockers edges
    if record.blockerGid ∈ (blockers.lookup edge.1).getD [] then return (record :: verified, missing)
    else return (verified, (edge, record) :: missing)

def activationStatus (activated : Bool) (unsafeGids : List String) : ComponentStatus :=
  if activated then
    match plan.deliveryPolicy with
    | .autonomousToPr => .readyForSpec
    | .backlogOnly => .manualBacklog
  else if unsafeGids = [] then .backlogAuthorizationFailed
  else .authorizationStateUnsafe

/-- One turn of the loop over the components. -/
def settleComponent (missingPairs : List (String × String)) (component : List String) :
    Client (ComponentReport × List OperationFailure) :=
  let missing := ((componentEdges plan.edges component).filter (· ∈ missingPairs)).map edgeText
  if missing = [] then do
    let (activated, unsafeGids, failures) ← activateComponent service env plan placed component
    return (⟨component, missing, unsafeGids, activationStatus plan activated unsafeGids⟩, failures)
  else do
    let (unsafeGids, failures) ← safeguardComponent service env plan placed component
    return (⟨component, missing, unsafeGids,
      if unsafeGids = [] then .manualBacklogUnverified else .authorizationStateUnsafe⟩, failures)

def settleComponents (missingPairs : List (String × String)) :
    List (List String) → Client (List ComponentReport × List OperationFailure)
  | [] => return ([], [])
  | component :: components => do
    let (settled, failures) ← settleComponent service env plan placed missingPairs component
    let (rest, others) ← settleComponents missingPairs components
    return (settled :: rest, failures ++ others)

end

section
variable (service : Service) (env : Environment) (python : Python) (plan : Plan)

/-- The report once every task exists. -/
def wiredReport (progress : Progress) : Client BatchReport := do
  let writeFailures ← addDependencies service env progress.placed plan.edges
  let (blockers, verificationFailures) ← verifyDependencies service env plan progress.placed
    (plan.edges.map Prod.fst).eraseDups
  let (verified, missing) ← classifyEdges progress.placed blockers plan.edges
  let (components, failures) ← settleComponents service env plan progress.placed (missing.map Prod.fst)
    (connectedComponents plan.references plan.edges)
  return { report python plan progress with
    ok := missing.isEmpty && components.all fun component =>
      component.status = .readyForSpec || component.status = .manualBacklog
    verifiedEdges := verified
    missingEdges := missing.map fun entry => .record entry.2
    components := components
    failures := writeFailures ++ verificationFailures ++ failures }

/-- The part of `create_batch` that may change something. -/
def createAndWire (placed : List Placed) : Client BatchReport := do
  let progress ← createTasks service env python plan plan.creationOrder { placed := placed }
  if progress.failedTasks = [] then wiredReport service env python plan progress
  else partialReport service env python plan progress

/-- The part of `create_batch` that only reads: the plan, and the tasks that exist. -/
def prepare (manifest : List (String × Json)) : Client (Plan × List Placed) := do
  let (deliveryPolicy, tasks, edges) ← validate (parseBatchManifest manifest)
  let setup ← configure service env deliveryPolicy
  let plan : Plan := ⟨setup, deliveryPolicy, ((manifest.lookup "batch_creation_id").bind Json.asStr?).getD "",
    tasks, edges⟩
  let placed ← lookUpTasks service python plan tasks
  return (plan, placed)

def createBatch (manifest : List (String × Json)) : Client BatchReport := do
  let (plan, placed) ← prepare service env python manifest
  createAndWire service env python plan placed

end

end Batch
end Asana
end FlashyFactory
