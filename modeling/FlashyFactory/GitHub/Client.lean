import FlashyFactory.Lib.Exceptions
import FlashyFactory.Repository.Remote
import FlashyFactory.Storage.Tasks

/-! # Tickets of a GitHub repository

The part of `github.rs` that polls a repository for issues with a project status or a label and
that authorizes the claims of their tasks, over the answers of `gh`. -/

namespace FlashyFactory
namespace GitHub

/-! ## What `gh` answers -/

/-- A user as `gh api users/..` prints it. -/
structure User where
  id : UInt64
  login : String
  nodeId : Option String
deriving DecidableEq, Repr

/-- An option of a single-select field. -/
structure ProjectOption where
  id : String
  name : String
deriving DecidableEq, Repr

/-- A field of a project. Only single-select fields have options. -/
structure ProjectField where
  id : String
  name : String
  kind : String
  options : List ProjectOption
deriving DecidableEq, Repr

/-- The author of an issue. Not every kind of account has an id. -/
structure ProjectAuthor where
  id : Option String
  login : String
deriving DecidableEq, Repr

/-- The issue behind an item, when the item is not a draft or a pull request. -/
structure ProjectIssue where
  id : String
  number : UInt64
  title : String
  url : String
  state : String
  author : Option ProjectAuthor
  /-- `repository.nameWithOwner` -/
  nameWithOwner : String
deriving DecidableEq, Repr

/-- The option that an item has in the status field, and since when. -/
structure ProjectStatusValue where
  optionId : String
  updatedAt : String
deriving DecidableEq, Repr

/-- An item of a project with its value of the status field. -/
structure ProjectItem where
  id : String
  content : Option ProjectIssue
  fieldValue : Option ProjectStatusValue
deriving DecidableEq, Repr

/-- One page of the items of a project, and where the next one starts. -/
structure ProjectItems where
  nodes : List ProjectItem
  hasNextPage : Bool
  endCursor : Option String
deriving DecidableEq, Repr

/-- A single item, which is asked for with all of its fields. -/
structure ProjectItemWithValues where
  id : String
  content : Option ProjectIssue
  /-- The values of single-select fields, each with the id of its field. -/
  fieldValues : List (String × ProjectStatusValue)
deriving DecidableEq, Repr

/-- An issue of the REST interface, which lists pull requests as issues too. -/
structure ApiIssue where
  number : UInt64
  htmlUrl : String
  title : String
  labels : List String
  state : String
  isPullRequest : Bool
  userId : UInt64
  userLogin : String
deriving DecidableEq, Repr

/-- An event of the timeline of an issue; `labeled` names its label. -/
structure ApiTimelineEvent where
  id : UInt64
  event : String
  label : Option String
deriving DecidableEq, Repr

/-- An answer, or the messages of an error, the outermost first. -/
abbrev Result (α : Type) := Except (List String) α

/-- The output of a command that prints JSON. -/
inductive Reply (α : Type)
  | failed (chain : List String)
  | malformed (cause : String)
  | output (value : α)

/-- The answers of `gh` in a checkout, whose path is the first argument. -/
structure Gh where
  version : Result Unit
  authStatus : Result Unit
  /-- `gh repo view --json nameWithOwner` -/
  repoView : String → Result String
  /-- `gh api users/..` -/
  user : String → String → Reply User
  /-- `gh project view`: the id of the project -/
  projectView : String → UInt64 → String → Reply String
  /-- `gh project field-list` -/
  projectFieldList : String → UInt64 → String → Reply (List ProjectField)
  /-- A page of the items of a project, with the value of the status field. -/
  projectItems : String → String → String → Option String → Reply (Option ProjectItems)
  projectItem : String → String → Reply (Option ProjectItemWithValues)
  /-- `gh api repos/../issues?state=open`, all pages -/
  issues : String → String → Reply (List ApiIssue)
  /-- `gh api repos/../issues/..` -/
  issue : String → String → UInt64 → Reply ApiIssue
  /-- `gh api repos/../issues/../timeline`, all pages -/
  issueTimeline : String → String → UInt64 → Reply (List ApiTimelineEvent)

/-- `anyhow::Context::context` -/
def context (message : String) : Result α → Result α := Except.mapError (message :: ·)

/-- A value that must be there. -/
def orBail (value : Option α) (message : String) : Result α :=
  match value with
  | some a => .ok a
  | none => .error [message]

/-- `bail!` under a condition. -/
def bailIf (p : Prop) [Decidable p] (message : String) : Result Unit :=
  if p then .error [message] else .ok ()

/-- `serde_json::from_slice` of what a command printed, with a message for malformed output. -/
def Reply.parsed (message : String) : Reply α → Result α
  | failed chain => .error chain
  | malformed cause => .error [message, cause]
  | output value => .ok value

@[simp] theorem orBail_eq_ok {value : Option α} : orBail value message = .ok a ↔ value = some a := by
  cases value <;> simp [orBail]

@[simp] theorem bailIf_eq_ok {p : Prop} [Decidable p] : bailIf p message = .ok u ↔ ¬ p := by
  by_cases h : p <;> simp [bailIf, h]

@[simp] theorem Reply.parsed_eq_ok {r : Reply α} : r.parsed message = .ok a ↔ r = .output a := by
  cases r <;> simp [parsed]

/-- `owner/repository`, neither of them empty. -/
def validNameWithOwner (value : String) : Bool :=
  match value.toList.splitOn '/' with
  | [owner, repository] => owner ≠ [] && repository ≠ []
  | _ => false

/-- `gh` is installed and has an account. -/
def validateGlobal (gh : Gh) : Result Unit := do
  context "GitHub CLI is unavailable; install gh and ensure it is executable" gh.version
  context "GitHub CLI is not authenticated; run gh auth login" gh.authStatus

def validateRepository (gh : Gh) (repository : String) : Result String := do
  let output ← context ("GitHub CLI cannot read configured repository " ++ repository)
    (gh.repoView repository)
  let name := trim output
  bailIf (validNameWithOwner name = false)
    ("gh returned invalid repository identity " ++ debugStr name)
  return name

/-- The account of a trusted login, whose ids stay when the login changes. -/
def Gh.getUser (gh : Gh) (repository login : String) : Result User :=
  context ("failed to resolve trusted GitHub user " ++ debugStr login)
    ((gh.user repository login).parsed ("gh returned malformed JSON for users/" ++ login))

/-! ## The configuration -/

/-- The `[source]` of the configuration: the project to poll and the users to trust. -/
structure SourceConfig where
  command : List String
  owner : String
  projectNumber : UInt64
  statusField : String
  trustedUsers : List String
deriving DecidableEq, Repr

/-- What starts the task of a workflow. -/
inductive Trigger
  | schedule
  | source
  | label (name : String)
  | status (name : String)
deriving DecidableEq, Repr

/-- A workflow of the catalog. One with errors is never polled for. -/
structure WorkflowEntry where
  repository : String
  id : String
  trigger : Option Trigger
  errors : List String
deriving DecidableEq, Repr

/-- The triggers are a table of the configuration: each id is there once. -/
structure WorkflowCatalog where
  entries : List WorkflowEntry
  nodup : (entries.map WorkflowEntry.id).Nodup

/-- The repository that the configuration was written for. -/
structure RepositoryConfig where
  provider : RepositoryProvider
  identity : String
deriving DecidableEq, Repr

/-- What polling reads of the configuration. -/
structure Config where
  repositories : List String
  repository : RepositoryConfig
  source : Option SourceConfig
deriving DecidableEq, Repr

/-! ## The project -/

/-- The project and its status field under their ids, which survive renames. -/
structure ResolvedProjectSource where
  projectId : String
  statusFieldId : String
  options : List ProjectOption
deriving DecidableEq, Repr

namespace ResolvedProjectSource

/-- The id of the option with a given name. -/
def option? (resolved : ResolvedProjectSource) (status : String) : Option String :=
  (resolved.options.find? (·.name = status)).map ProjectOption.id

end ResolvedProjectSource

/-- The options of the status field, collected in the first list. No two share a name or an id. -/
def resolveOptions (statusField : String) :
    List ProjectOption → List ProjectOption → Result (List ProjectOption)
  | seen, [] => .ok seen
  | seen, option :: options =>
    if seen.any (·.name = option.name) then
      .error ["GitHub Project field " ++ debugStr statusField ++
        " contains more than one option named " ++ debugStr option.name]
    else match seen.find? (·.id = option.id) with
      | some previous => .error ["GitHub Project field " ++ debugStr statusField ++
          " must use a distinct project option ID for " ++ debugStr previous.name ++ " and " ++
          debugStr option.name]
      | none => resolveOptions statusField (seen ++ [option]) options

/-- The project of the configuration and its only field of the configured name. -/
def resolveProjectSource (gh : Gh) (repository : String) (source : SourceConfig) :
    Result ResolvedProjectSource := do
  let projectId ← match gh.projectView repository source.projectNumber source.owner with
    | .failed chain => .error (("failed to read GitHub Project " ++ toString source.projectNumber ++
        " for owner " ++ debugStr source.owner) :: chain)
    | reply => reply.parsed "gh project view returned malformed JSON"
  bailIf (isBlank projectId = true) "GitHub Project returned an empty node ID"
  let fields ← match gh.projectFieldList repository source.projectNumber source.owner with
    | .failed chain => .error ("failed to list GitHub Project fields" :: chain)
    | reply => reply.parsed "gh project field-list returned malformed JSON"
  match fields.filter (·.name = source.statusField) with
  | [] => .error ["GitHub Project does not contain status field " ++ debugStr source.statusField]
  | _ :: _ :: _ => .error ["GitHub Project contains more than one field named " ++
      debugStr source.statusField]
  | [field] =>
    bailIf (field.kind ≠ "ProjectV2SingleSelectField") ("GitHub Project field " ++
      debugStr source.statusField ++ " must be a single-select field")
    let options ← resolveOptions source.statusField [] field.options
    return ⟨projectId, field.id, options⟩

/-- The keys of the map of trusted users. -/
def trustedSourceUserIds (gh : Gh) (repository : String) (source : SourceConfig) :
    Result (List String) :=
  source.trustedUsers.mapM fun login => do
    let user ← gh.getUser repository login
    orBail user.nodeId ("GitHub user " ++ debugStr user.login ++ " has no stable node ID")

/-- The ids that the REST interface knows the trusted users by. -/
def trustedSourceNumericUserIds (gh : Gh) (repository : String) (source : SourceConfig) :
    Result (List UInt64) :=
  source.trustedUsers.mapM fun login => return (← gh.getUser repository login).id

/-- `project_items` from a cursor on. The loop asks for pages as long as `gh` says that there are
more of them; the first argument bounds it. -/
def projectItemsFrom (gh : Gh) (repository projectId statusField : String) :
    ℕ → Option String → Result (List ProjectItem)
  | 0, _ => .error []
  | n + 1, cursor => do
    let node ← (gh.projectItems repository projectId statusField cursor).parsed
      "gh api graphql returned malformed Project items JSON"
    let page ← orBail node "GitHub Project node was not found"
    if page.hasNextPage then
      let cursor ← orBail page.endCursor "GitHub Project page has no end cursor"
      return page.nodes ++ (← projectItemsFrom gh repository projectId statusField n (some cursor))
    else return page.nodes

/-- One item, read again before its task is launched. -/
def readProjectItem (gh : Gh) (repository itemId statusFieldId : String) :
    Result (Option ProjectItem) := do
  let node ← (gh.projectItem repository itemId).parsed
    "gh api graphql returned malformed Project item JSON"
  return node.map fun item =>
    ⟨item.id, item.content, (item.fieldValues.find? (·.1 = statusFieldId)).map Prod.snd⟩

end GitHub
end FlashyFactory
