import FlashyFactory.Lib.DepthFirst
import FlashyFactory.Lib.Exceptions
import FlashyFactory.Storage.Records
import Mathlib.Data.List.Sort

/-! # The Asana client

`list_source`, `dependency_state` and `reconcile_pull_request` of the client for Asana workflows. The
service answers every request; it is a parameter, with the requests that the client makes as its
operations. An error is raised before the first request that changes something. -/

namespace FlashyFactory
namespace Asana

/-! ## What the service keeps -/

structure Tag where
  gid : String
  name : String
deriving DecidableEq, Repr

structure ProjectSection where
  gid : String
  name : String
deriving DecidableEq, Repr

structure Membership where
  project : String
  inSection : ProjectSection
deriving DecidableEq, Repr

/-- Parts of a task whose JSON type the client checks. -/
inductive Field
  /-- the task itself -/
  | data
  | completed
  | dependencies
  /-- one of the dependencies -/
  | dependency
  | memberships
  /-- one of the memberships -/
  | membership
deriving DecidableEq, Repr

/-- A task as it is read; a malformed part has its default. -/
structure Task where
  gid : String
  name : String
  notes : String := ""
  completed : Bool := false
  modifiedAt : String := ""
  permalinkUrl : String := ""
  createdBy : String := ""
  tags : List Tag := []
  dependencies : List String := []
  memberships : List Membership
  malformed : List Field := []
deriving DecidableEq, Repr

/-- The requests, over the states of the service. -/
structure Api (σ : Type) where
  /-- `GET /tasks/{gid}`, where `none` is the answer 404 -/
  task : σ → String → Option Task
  /-- `GET /projects/{gid}/sections` -/
  sections : σ → String → List ProjectSection
  /-- `GET /sections/{gid}/tasks`, of the tasks that are not completed -/
  sectionTasks : σ → String → List Task
  /-- `GET /tasks/{gid}/dependents` -/
  dependents : σ → String → List String
  /-- `POST /sections/{gid}/addTask` -/
  addTask : σ → String → String → σ
  /-- `PUT /tasks/{gid}` with `completed` -/
  complete : σ → String → σ
  /-- `POST /tasks/{gid}/addDependencies` -/
  addDependencies : σ → String → List String → σ
  /-- `POST /tasks/{gid}/removeDependencies` -/
  removeDependencies : σ → String → List String → σ

/-! ## Errors -/

inductive Failure
  | clientError (message : String) (rateLimited : Bool)
  /-- `RecursionError` -/
  | recursionError
deriving DecidableEq, Repr

/-- What a command of the client returns or raises. -/
abbrev Answer (α : Type) := Except Failure α

def refuse (message : String) : Answer α := .error (.clientError message false)

def refuseIf (p : Prop) [Decidable p] (message : String) : Answer Unit :=
  if p then refuse message else .ok ()

/-- `GID_PATTERN.fullmatch` -/
def isGid (value : String) : Bool :=
  1 ≤ value.length && value.length ≤ 100 &&
    value.toList.all fun c => c.isAlphanum || c = '_' || c = '-'

def requireGid (name value : String) : Answer String :=
  if isGid value then .ok value else refuse (name ++ " must be a valid Asana GID")

/-- All pages of a collection. -/
def paginate (maximum : ℕ) (items : List α) : Answer (List α) :=
  if maximum < items.length then
    refuse ("Asana result exceeded " ++ toString maximum ++ " records; narrow the project or state")
  else .ok items

@[simp] theorem refuse_eq_ok : (refuse message : Answer α) = .ok a ↔ False := by simp [refuse]

@[simp] theorem refuseIf_eq_ok {p : Prop} [Decidable p] : refuseIf p message = .ok u ↔ ¬ p := by
  by_cases h : p <;> simp [refuseIf, h]

@[simp] theorem requireGid_eq_ok : requireGid name value = .ok gid ↔ isGid value ∧ value = gid := by
  by_cases h : isGid value <;> simp [requireGid, h]

@[simp] theorem paginate_eq_ok {items all : List α} :
    paginate maximum items = .ok all ↔ items.length ≤ maximum ∧ items = all := by
  by_cases h : maximum < items.length
  · simp [paginate, h]
  · simp [paginate, h, Nat.le_of_not_lt h]

/-- `not value.strip()` -/
def isBlankText (value : String) : Bool :=
  value.toList.all fun c => isWhiteSpace c || (0x1C ≤ c.toNat && c.toNat ≤ 0x1F)

/-- The `repr` of a text without quotes. -/
def pythonRepr (text : String) : String := "'" ++ text ++ "'"

def backlogOnly : String := "factory:manual"
def autonomousToPr : String := "factory:auto-to-pr"
def waiting : String := "Approved - Waiting On Dependencies"
def readyToImplement : String := "Ready To Implement"
def needsDecision : String := "Needs Decision"
def done : String := "Done"

variable {σ : Type} (api : Api σ) (s : σ) (project : String)

def request (gid : String) : Answer Task :=
  match api.task s gid with
  | none => refuse "Asana API returned HTTP 404"
  | some task => .ok task

def resolveSection (name : String) : Answer ProjectSection := do
  let sections ← paginate 1000 (api.sections s project)
  match sections.filter (·.name = name) with
  | [found] => do
    let _ ← requireGid "section.gid" found.gid
    return found
  | found => refuse ("Asana project must contain exactly one section named " ++ pythonRepr name ++
      "; found " ++ toString found.length)

def taskInProject (gid : String) : Answer Task := do
  let task ← request api s gid
  refuseIf (.data ∈ task.malformed) ("Asana task " ++ gid ++ " returned invalid data")
  refuseIf (task.memberships.any (·.project = project) = false)
    ("Asana task " ++ gid ++ " does not belong to ASANA_PROJECT_GID " ++ project)
  return task

/-! ## Dependencies -/

/-- What is read of a task of the dependency graph: whether it is completed, and its dependencies in
the order in which they are read. -/
abbrev Observed := Bool × List String

/-- The task belongs to this project only; `subject` names it in a refusal, and `exactly` is the refusal
of another number of memberships. -/
def requireMembership (task : Task) (subject exactly : String) : Answer Unit :=
  match task.memberships with
  | [membership] =>
    if .memberships ∈ task.malformed then refuse exactly
    else refuseIf (.membership ∈ task.malformed ∨ membership.project ≠ project)
      (subject ++ " does not belong only to ASANA_PROJECT_GID " ++ project)
  | _ => refuse exactly

def observeTask (gid : String) : Answer Observed := do
  let task ← request api s gid
  refuseIf (.data ∈ task.malformed ∨ task.gid ≠ gid) ("dependency task " ++ gid ++ " returned invalid data")
  requireMembership project task ("dependency task " ++ gid)
    ("dependency task " ++ gid ++ " must belong to exactly ASANA_PROJECT_GID " ++ project)
  refuseIf (.dependencies ∈ task.malformed) ("dependency task " ++ gid ++ " returned malformed dependencies")
  refuseIf (.completed ∈ task.malformed) ("dependency task " ++ gid ++ " returned malformed completion state")
  refuseIf (.dependency ∈ task.malformed) ("dependency task " ++ gid ++ " returned malformed dependency")
  refuseIf (task.dependencies.all isGid = false) "dependency.gid must be a valid Asana GID"
  refuseIf (¬ task.dependencies.Nodup) ("dependency task " ++ gid ++ " returned duplicate dependencies")
  return (task.completed, task.dependencies.insertionSort (· ≤ ·))

/-- The graph that `read` walks. -/
def graph : DepthFirst.Graph String Observed Failure where
  visit := observeTask api s project
  successors := Prod.snd
  cycle gid := .clientError ("dependency graph contains a cycle involving task " ++ gid) false
  deep := .recursionError

/-- The functions of the standard library that the client calls. -/
structure Python where
  /-- `hashlib.sha256(..).hexdigest()` of an ASCII text -/
  sha256 : String → String
  /-- How deep `read` may recurse. -/
  recursionLimit : ℕ

/-- `json.dumps` of the observed dependencies, whose gids need no escapes. -/
def canonical (observed : List (String × Bool)) : String :=
  "[" ++ String.intercalate "," (observed.map fun (gid, completed) =>
    "[\"" ++ gid ++ "\"," ++ (if completed then "true" else "false") ++ "]") ++ "]"

structure DependencyState where
  dependencies : List String
  dependencyRevision : String
  blocked : Bool
deriving DecidableEq, Repr

/-- What the walk has noted, as `dependency_state` reports it. -/
def DependencyState.ofNotes (python : Python) (gid : String) (assumedCompleted : List String)
    (notes : List (String × Observed)) : DependencyState :=
  let direct := ((notes.lookup gid).map Prod.snd).getD []
  let observed := (direct.map fun blocker =>
    (blocker, ((notes.lookup blocker).map Prod.fst).getD false)).insertionSort fun a b => a.1 ≤ b.1
  { dependencies := observed.map Prod.fst
    dependencyRevision := "sha256:" ++ python.sha256 (canonical observed)
    blocked := notes.any fun (node, completed, _) =>
      !completed && node ≠ gid && !assumedCompleted.contains node }

def dependencyState (python : Python) (gid : String) (assumedCompleted : List String) :
    Answer DependencyState := do
  let walk ← DepthFirst.walk (graph api s project) python.recursionLimit gid {}
  return .ofNotes python gid assumedCompleted walk.notes

/-- `dependency_state` in a monad in which the tasks are requested. -/
def dependencyStateM {m : Type → Type} [Monad m] (raise : Failure → m (DepthFirst.Walk String Observed))
    (observe : String → m Observed) (python : Python) (gid : String) (assumedCompleted : List String) :
    m DependencyState := do
  let walk ← DepthFirst.walkM raise observe Prod.snd
    (fun gid => .clientError ("dependency graph contains a cycle involving task " ++ gid) false)
    .recursionError python.recursionLimit gid {}
  return .ofNotes python gid assumedCompleted walk.notes

/-- `dependency_state` with a log of the tasks that it requests. -/
def dependencyStateLogged (python : Python) (gid : String) (assumedCompleted : List String) :
    DepthFirst.Logging String Failure DependencyState :=
  dependencyStateM throw (DepthFirst.Logging.visit (observeTask api s project)) python gid assumedCompleted

/-! ## Listing a source -/

structure Issue where
  key : String
  title : String
  description : String
  state : String
  labels : List String
  url : String
  author : String
  revision : String
  dependencies : Option (List String)
  dependencyRevision : Option String
deriving DecidableEq, Repr

namespace Task

def tagNames (task : Task) : List String := task.tags.map Tag.name

def tagGids (task : Task) : String :=
  String.intercalate "," ((task.tags.map Tag.gid).insertionSort (· ≤ ·))

def issue (task : Task) (state revision : String) (dependency : Option DependencyState) : Issue where
  key := task.gid
  title := task.name
  description := String.ofList (task.notes.toList.take 2000)
  state := state
  labels := task.tagNames
  url := task.permalinkUrl
  author := task.createdBy
  revision := revision
  dependencies := dependency.map DependencyState.dependencies
  dependencyRevision := dependency.map DependencyState.dependencyRevision

end Task

/-- One turn of the loop of `list_source`. -/
def sourceIssue (python : Python) (state : String) (labels : List String) (found : ProjectSection)
    (task : Task) : Answer (Option Issue) :=
  if task.completed || !labels.all task.tagNames.contains ||
      state = waiting && task.tagNames.contains backlogOnly then .ok none
  else do
    let gid ← requireGid "task.gid" task.gid
    refuseIf (isBlankText task.name = true) ("Asana task " ++ gid ++ " has no valid name")
    if task.tagNames.contains autonomousToPr then
      match dependencyState api s project python gid [] with
      | .ok dependency =>
        let stamp := if state = waiting then found.gid else task.modifiedAt ++ ":" ++ found.gid
        return some (task.issue state ("asana:" ++ stamp ++ ":" ++ task.tagGids ++ ":" ++
          dependency.dependencyRevision) (some dependency))
      | .error (.clientError message rateLimited) =>
        if rateLimited || state ≠ waiting then .error (.clientError message rateLimited)
        else
          let revision := python.sha256 (found.gid ++ ":" ++ task.tagGids ++ ":unsafe")
          return some (task.issue state ("asana:" ++ found.gid ++ ":" ++ task.tagGids ++ ":unsafe:" ++
            revision) none)
      | .error .recursionError => .error .recursionError
    else
      return some (task.issue state ("asana:" ++ task.modifiedAt ++ ":" ++ found.gid ++ ":" ++
        task.tagGids) none)

def isPrintableName (value : String) : Bool :=
  !isBlankText value && value.length ≤ 200 && value.toList.all fun c => 32 ≤ c.toNat

def requireName (name value : String) : Answer String :=
  if isPrintableName value then .ok value else refuse (name ++ " must be 1-200 printable characters")

def listSource (python : Python) (state : String) (labels : List String) (maxResults : ℕ) :
    Answer (List Issue) := do
  let project ← requireGid "--project or ASANA_PROJECT_GID" project
  let state ← requireName "--state" state
  let labels ← labels.mapM (requireName "--label")
  refuseIf (¬ (1 ≤ maxResults ∧ maxResults ≤ 1000)) "--max-results must be between 1 and 1000"
  let found ← resolveSection api s project state
  let tasks ← paginate maxResults (api.sectionTasks s found.gid)
  let issues ← tasks.mapM (sourceIssue api s project python state labels found)
  return issues.filterMap id

/-! ## Reconciling a pull request -/

inductive Lane
  | manual
  | autonomous
  | contradictory
deriving DecidableEq, Repr

def Task.authorization (task : Task) : Lane :=
  let manual := task.tagNames.contains backlogOnly
  let autonomous := task.tagNames.contains autonomousToPr
  if manual && !autonomous then .manual
  else if !autonomous || manual then .contradictory
  else .autonomous

def reconciliationTask (gid : String) : Answer Task := do
  let task ← taskInProject api s project gid
  requireMembership project task ("task " ++ gid)
    ("task " ++ gid ++ " must belong only to ASANA_PROJECT_GID " ++ project)
  refuseIf (.completed ∈ task.malformed) ("task " ++ gid ++ " returned malformed completion state")
  return task

/-- The sections of the task are exactly the one of this name. -/
def Task.isIn (task : Task) (name : String) : Bool :=
  task.memberships ≠ [] && task.memberships.all (·.inSection.name = name)

inductive Outcome
  | merged
  | closed
  /-- `unsafe` -/
  | untrusted
deriving DecidableEq, Repr

structure Report where
  status : String
  released : List String := []
deriving DecidableEq, Repr

/-- Where a dependent of a merged task goes, if it goes anywhere. -/
def routeOf (python : Python) (gid dependent : String) (live : Task) : Answer (List (String × String)) :=
  if live.authorization = .manual || live.completed || !live.isIn waiting then .ok []
  else if live.authorization ≠ .autonomous then .ok [(dependent, needsDecision)]
  else (dependencyState api s project python dependent [gid]).map fun state =>
    if state.blocked then [] else [(dependent, readyToImplement)]

/-- The loop over the dependents; `seen` are the dependents before. -/
def routes (python : Python) (gid : String) (seen : List String) :
    List String → Answer (List (String × String))
  | [] => .ok []
  | dependent :: dependents => do
    let dependent ← requireGid "dependent.gid" dependent
    refuseIf (dependent ∈ seen) ("task " ++ gid ++ " returned duplicate dependent " ++ dependent)
    let live ← reconciliationTask api s project dependent
    let route ← routeOf api s project python gid dependent live
    let rest ← routes python gid (dependent :: seen) dependents
    return route ++ rest

/-- The task is moved to the section unless it is there. -/
def settleIn (task : Task) (gid name : String) : Answer σ :=
  if task.isIn name then .ok s
  else (resolveSection api s project name).map fun found => api.addTask s found.gid gid

def completeUnless (task : Task) (gid : String) (s : σ) : σ :=
  if task.completed then s else api.complete s gid

/-- The dependents are moved to their destinations. -/
def release (destinations : List (String × ProjectSection)) (routes : List (String × String)) (s : σ) : σ :=
  routes.foldl (fun s (dependent, name) => match destinations.lookup name with
    | some found => api.addTask s found.gid dependent
    | none => s) s

/-- The autonomous task of a merged pull request: its dependents are read and validated before it is
changed. -/
def reconcileMerged (python : Python) (task : Task) (gid : String) : Answer (Report × σ) := do
  let dependents ← paginate 1000 (api.dependents s gid)
  let routes ← routes api s project python gid [] dependents
  let names := (routes.map Prod.snd ++ if task.isIn done then [] else [done]).dedup
  let destinations ← names.mapM fun name =>
    (resolveSection api s project name).map fun found => (name, found)
  let moved := if task.isIn done then s else match destinations.lookup done with
    | some found => api.addTask s found.gid gid
    | none => s
  return ({ status := "merged"
            released := (routes.filter fun route => route.2 = readyToImplement).map Prod.fst },
    release api destinations routes (completeUnless api task gid moved))

def reconcilePullRequest (python : Python) (gid : String) (outcome : Outcome) : Answer (Report × σ) := do
  let gid ← requireGid "task_gid" gid
  let project ← requireGid "ASANA_PROJECT_GID" project
  let task ← reconciliationTask api s project gid
  if task.authorization = .manual then
    if outcome ≠ .merged then return ({ status := "manual_untouched" }, s)
    else do
      let moved ← settleIn api s project task gid done
      return ({ status := "merged" }, completeUnless api task gid moved)
  else if task.completed && outcome ≠ .merged then return ({ status := "completed_untouched" }, s)
  else if task.authorization ≠ .autonomous then do
    let moved ← settleIn api s project task gid needsDecision
    return ({ status := "unsafe" }, moved)
  else if outcome ≠ .merged then do
    let moved ← settleIn api s project task gid needsDecision
    return ({ status := if outcome = .closed then "closed_unmerged" else "unsafe" }, moved)
  else reconcileMerged api s project python task gid

end Asana
end FlashyFactory
