import FlashyFactory.Asana.Reconciliation
import FlashyFactory.Lib.StackSearch

/-! # Approving a specification

`dependency_reaches` and `apply_spec_approval`, over requests that may fail. -/

namespace FlashyFactory
namespace Asana

def awaitingApproval : String := "Awaiting Approval"

/-! ## The input -/

/-- `approval.get("confirmed_dependencies")`, where `none` is no list of strings. -/
def confirmedOf (fields : List (String × Json)) : Option (List String) :=
  ((fields.lookup "confirmed_dependencies").bind Json.asArray?).bind fun items => items.mapM Json.asStr?

/-- `approval` is the JSON value that is read. -/
def readApproval (gid : String) (approval : Json) : Answer (List String) :=
  match approval with
  | .object fields => do
    let unknown := (fields.map Prod.fst).filter (· ≠ "confirmed_dependencies")
    refuseIf (unknown ≠ []) ("approval contains unknown fields: " ++
      String.intercalate ", " (unknown.insertionSort (· ≤ ·)))
    match confirmedOf fields with
    | none => refuse "approval.confirmed_dependencies must be an array of task GIDs"
    | some items => do
      let gids ← items.mapM (requireGid "approval dependency")
      let confirmed := gids.dedup.insertionSort (· ≤ ·)
      refuseIf (confirmed.length ≠ items.length) "approval.confirmed_dependencies contains a duplicate dependency"
      refuseIf (gid ∈ confirmed) "a task cannot be its own dependency"
      return confirmed
  | _ => refuse "approval must contain a JSON object"

/-! ## Reads -/

variable {σ : Type} (api : Api σ) (project : String)

/-- The dependencies of a task, in their order, as `dependency_reaches` reads them. -/
def reachTask (s : σ) (current : String) : Answer (List String) := do
  let task ← request api s current
  refuseIf (.data ∈ task.malformed ∨ task.gid ≠ current)
    ("dependency task " ++ current ++ " returned invalid data")
  requireMembership project task ("dependency task " ++ current)
    ("dependency task " ++ current ++ " must belong to exactly ASANA_PROJECT_GID " ++ project)
  refuseIf (.dependencies ∈ task.malformed) ("dependency task " ++ current ++ " returned malformed dependencies")
  refuseIf (task.dependencies.all isGid = false) "dependency.gid must be a valid Asana GID"
  refuseIf (.dependency ∈ task.malformed) ("dependency task " ++ current ++ " returned malformed dependency")
  return task.dependencies

/-- The task that is to be approved. -/
def approvalTask (s : σ) (gid : String) : Answer Task := do
  let task ← taskInProject api s project gid
  refuseIf (task.isIn awaitingApproval = false) "spec approval requires the task to remain in Awaiting Approval"
  refuseIf (task.tagNames.contains autonomousToPr = task.tagNames.contains backlogOnly)
    "spec approval requires exactly one factory authorization tag"
  return task

structure ApprovalReport where
  taskGid : String
  confirmedDependencies : List String
  addedDependencies : List String
  removedDependencies : List String
  dependencyRevision : String
  destination : String
deriving DecidableEq, Repr

namespace Client

/-- Whether `start` reaches the target; `none` if `turns` of the loop do not suffice. -/
def dependencyReaches (turns : ℕ) (start target : String) : Client σ (Option Bool) :=
  StackSearch.search (fun current => read (reachTask api project · current)) target turns [start] []

/-- No new blocker reaches the task. -/
def checkAdditions (turns : ℕ) (gid : String) : List String → Client σ (Option Unit)
  | [] => return some ()
  | blocker :: additions => do
    match ← dependencyReaches api project turns blocker gid with
    | none => return none
    | some true => validate (refuse ("confirmed dependency " ++ blocker ++
        " would create a cycle involving task " ++ gid))
    | some false => checkAdditions turns gid additions

def mutateUnless (skip : Prop) [Decidable skip] (mutation : Mutation) : Client σ Unit :=
  if skip then return else mutate api mutation

def moveTask (gid name : String) : Client σ Unit := do
  let gid ← validate (requireGid "task_gid" gid)
  let project ← validate (requireGid "ASANA_PROJECT_GID" project)
  let _ ← read (taskInProject api · project gid)
  let name ← validate (requireName "--section" name)
  let found ← read (resolveSection api · project name)
  mutate api (.addTask found gid)

/-- The writes of an approval, and where it sends the task. -/
def writeApproval (python : Python) (gid : String) (confirmed additions removals : List String) :
    Client σ ApprovalReport := do
  mutateUnless api (additions = []) (.addDependencies gid additions)
  mutateUnless api (removals = []) (.removeDependencies gid removals)
  let dependency ← dependencyState api project python gid []
  let destination := if dependency.blocked then waiting else readyToImplement
  moveTask api project gid destination
  return ⟨gid, confirmed, additions, removals, dependency.dependencyRevision, destination⟩

/-- The reads of an approval: what is confirmed, and the dependencies before. -/
def readConfirmed (python : Python) (gid : String) (approval : Json) : Client σ (List String × List String) := do
  let _ ← read (approvalTask api project · gid)
  let confirmed ← validate (readApproval gid approval)
  let _ ← confirmed.mapM fun blocker => read (taskInProject api · project blocker)
  let live ← dependencyState api project python gid []
  return (confirmed, live.dependencies)

/-- `none` if `turns` do not suffice for a search. -/
def applySpecApproval (python : Python) (turns : ℕ) (gid : String) (approval : Json) :
    Client σ (Option ApprovalReport) := do
  let gid ← validate (requireGid "task_gid" gid)
  let project ← validate (requireGid "ASANA_PROJECT_GID" project)
  let (confirmed, existing) ← readConfirmed api project python gid approval
  let additions := confirmed.filter fun blocker => blocker ∉ existing
  let removals := (existing.filter fun blocker => blocker ∉ confirmed).insertionSort (· ≤ ·)
  match ← checkAdditions api project turns gid additions with
  | none => return none
  | some () => do
    let report ← writeApproval api project python gid confirmed additions removals
    return some report

end Client
end Asana
end FlashyFactory
