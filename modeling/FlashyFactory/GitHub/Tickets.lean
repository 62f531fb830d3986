import FlashyFactory.GitHub.Client

/-! # Polling for tickets and claiming them

What a poll observes of a repository is stored with the tasks it creates as a JSON text. Before a
task is launched, the text is read back and compared with what `gh` answers then. -/

namespace FlashyFactory

/-- `u64` of `serde_json`: a number without sign, point or exponent. -/
def Json.asU64? : Json → Option UInt64
  | number n =>
    let digits := n.toList
    let value := Nat.ofDigitChars 10 digits 0
    if digits ≠ [] && digits.all Char.isDigit && value < 2 ^ 64 then some (UInt64.ofNat value)
    else none
  | _ => none

def Json.ofU64 (n : UInt64) : Json := number (toString n.toNat)

@[simp] theorem Json.asU64?_ofU64 (n : UInt64) : (ofU64 n).asU64? = some n := by
  have hdigits : (Nat.toDigits 10 n.toNat).all Char.isDigit = true :=
    List.all_eq_true.mpr fun c hc => Nat.isDigit_of_mem_toDigits (by decide) (by decide) hc
  simp [asU64?, ofU64, Nat.toString_eq_repr, Nat.toList_repr, hdigits, n.toNat_lt]

namespace GitHub

/-! ## What is stored with a task -/

/-- What a status trigger stores of the item that created a task. -/
structure ProjectTicketContext where
  projectId : String
  projectItemId : String
  statusFieldId : String
  issueNodeId : String
  number : UInt64
  url : String
  title : String
  authorId : String
  authorLogin : String
  repository : String
  expectedStatus : String
  expectedOptionId : String
  statusUpdatedAt : String
deriving DecidableEq, Repr

namespace ProjectTicketContext

def toJson (c : ProjectTicketContext) : Json :=
  .object [("project_id", .string c.projectId), ("project_item_id", .string c.projectItemId),
    ("status_field_id", .string c.statusFieldId), ("issue_node_id", .string c.issueNodeId),
    ("number", .ofU64 c.number), ("url", .string c.url), ("title", .string c.title),
    ("author_id", .string c.authorId), ("author_login", .string c.authorLogin),
    ("repository", .string c.repository), ("expected_status", .string c.expectedStatus),
    ("expected_option_id", .string c.expectedOptionId),
    ("status_updated_at", .string c.statusUpdatedAt)]

def fromJson? (json : Json) : Option ProjectTicketContext := do
  let text := fun name => (json.get? name).bind Json.asStr?
  return {
    projectId := ← text "project_id"
    projectItemId := ← text "project_item_id"
    statusFieldId := ← text "status_field_id"
    issueNodeId := ← text "issue_node_id"
    number := ← (json.get? "number").bind Json.asU64?
    url := ← text "url"
    title := ← text "title"
    authorId := ← text "author_id"
    authorLogin := ← text "author_login"
    repository := ← text "repository"
    expectedStatus := ← text "expected_status"
    expectedOptionId := ← text "expected_option_id"
    statusUpdatedAt := ← text "status_updated_at" }

@[simp] theorem fromJson?_toJson (c : ProjectTicketContext) : fromJson? c.toJson = some c := by
  have hread : fromJson? c.toJson =
      (Json.ofU64 c.number).asU64?.bind fun number => some { c with number } := rfl
  rw [hread, Json.asU64?_ofU64]
  rfl

end ProjectTicketContext

/-- What a label trigger stores of the issue that created a task. -/
structure LabelTicketContext where
  number : UInt64
  url : String
  title : String
  authorId : UInt64
  authorLogin : String
  repository : String
  expectedLabel : String
  labelEventId : UInt64
deriving DecidableEq, Repr

namespace LabelTicketContext

def toJson (c : LabelTicketContext) : Json :=
  .object [("number", .ofU64 c.number), ("url", .string c.url), ("title", .string c.title),
    ("author_id", .ofU64 c.authorId), ("author_login", .string c.authorLogin),
    ("repository", .string c.repository), ("expected_label", .string c.expectedLabel),
    ("label_event_id", .ofU64 c.labelEventId)]

def fromJson? (json : Json) : Option LabelTicketContext := do
  let text := fun name => (json.get? name).bind Json.asStr?
  let number := fun name => (json.get? name).bind Json.asU64?
  return {
    number := ← number "number"
    url := ← text "url"
    title := ← text "title"
    authorId := ← number "author_id"
    authorLogin := ← text "author_login"
    repository := ← text "repository"
    expectedLabel := ← text "expected_label"
    labelEventId := ← number "label_event_id" }

@[simp] theorem fromJson?_toJson (c : LabelTicketContext) : fromJson? c.toJson = some c := by
  have hread : fromJson? c.toJson = (Json.ofU64 c.number).asU64?.bind fun number =>
      (Json.ofU64 c.authorId).asU64?.bind fun authorId =>
        (Json.ofU64 c.labelEventId).asU64?.bind fun labelEventId =>
          some { c with number, authorId, labelEventId } := rfl
  simp only [hread, Json.asU64?_ofU64, Option.bind_some]

end LabelTicketContext

/-! ## Polls -/

/-- An item that leaves a status and returns later has another revision. -/
def projectSourceRevision (itemId optionId statusUpdatedAt : String) : String :=
  "project-item:" ++ itemId ++ ":option:" ++ optionId ++ ":at:" ++ statusUpdatedAt

/-- The issue belongs to the repository. -/
def ProjectIssue.isOf (issue : ProjectIssue) (name : String) : Bool :=
  eqIgnoreAsciiCase issue.nameWithOwner.toList name.toList

/-- The context of an item whose author and value of the status field are known. -/
def ProjectIssue.ticketContext (issue : ProjectIssue) (resolved : ResolvedProjectSource)
    (itemId authorId authorLogin name status optionId updatedAt : String) : ProjectTicketContext where
  projectId := resolved.projectId
  projectItemId := itemId
  statusFieldId := resolved.statusFieldId
  issueNodeId := issue.id
  number := issue.number
  url := issue.url
  title := issue.title
  authorId := authorId
  authorLogin := authorLogin
  repository := name
  expectedStatus := status
  expectedOptionId := optionId
  statusUpdatedAt := updatedAt

/-- What a status trigger observes of one item. -/
def observeItem (crates : Crates) (name : String) (resolved : ResolvedProjectSource)
    (trusted : List String) (status optionId : String) (item : ProjectItem) : Option ObservedTicket :=
  match item.content with
  | none => none
  | some issue =>
    if issue.isOf name = false || issue.state ≠ "OPEN" then none
    else match issue.author with
      | none => none
      | some author => match author.id with
        | none => none
        | some authorId => match item.fieldValue with
          | none => none
          | some value =>
            some {
              sourceItem := toString issue.number
              revision := projectSourceRevision item.id optionId value.updatedAt
              eligible := value.optionId = optionId && trusted.contains authorId
              payload := crates.jsonToString (issue.ticketContext resolved item.id authorId
                author.login name status optionId value.updatedAt).toJson }

/-- The greatest id of an event that put the label on the issue. -/
def latestLabelEventId (events : List ApiTimelineEvent) (label : String) : Option UInt64 :=
  ((events.filter fun event => event.event = "labeled" && event.label = some label).map
    ApiTimelineEvent.id).max?

/-- The context of an issue that got its label by the given event. -/
def ApiIssue.ticketContext (issue : ApiIssue) (name label : String) (labelEventId : UInt64) :
    LabelTicketContext where
  number := issue.number
  url := issue.htmlUrl
  title := issue.title
  authorId := issue.userId
  authorLogin := issue.userLogin
  repository := name
  expectedLabel := label
  labelEventId := labelEventId

/-- The timeline is read of an issue that has the label and a trusted author. -/
def labelContext (gh : Gh) (repository name : String) (trusted : List UInt64) (label : String)
    (issue : ApiIssue) : Result (Option LabelTicketContext) :=
  if label ∈ issue.labels ∧ issue.userId ∈ trusted then do
    let timeline ← (gh.issueTimeline repository name issue.number).parsed
      ("gh returned malformed paginated JSON for repos/" ++ name ++ "/issues/" ++
        toString issue.number ++ "/timeline?per_page=100")
    return (latestLabelEventId timeline label).map fun id => issue.ticketContext name label id
  else .ok none

/-- What a label trigger observes of one issue. -/
def observeIssue (crates : Crates) (gh : Gh) (repository name : String) (trusted : List UInt64)
    (label : String) (issue : ApiIssue) : Result ObservedTicket := do
  let context ← labelContext gh repository name trusted label issue
  return {
    sourceItem := toString issue.number
    revision := match context with
      | none => "issue:" ++ toString issue.number ++ ":label:" ++ label ++ ":absent"
      | some context => "issue:" ++ toString issue.number ++ ":label:" ++ label ++ ":event:" ++
        toString context.labelEventId
    eligible := context.isSome
    payload := match context with
      | none => "\x7b\x7d"
      | some context => crates.jsonToString context.toJson }

/-- The report of a poll of one repository. -/
structure RepositoryPoll where
  repository : String
  nameWithOwner : Option String
  issuesSeen : ℕ
  tasksCreated : ℕ
  error : Option String := none
deriving DecidableEq, Repr

/-- The loop of a poll over the workflows of a kind: what was stored for one workflow stays when the
next one fails. -/
def pollWorkflows (host : String → Host) (name : String)
    (observe : WorkflowEntry → Result (List ObservedTicket)) :
    List WorkflowEntry → Ledger → Result ℕ × Ledger
  | [], l => (.ok 0, l)
  | workflow :: workflows, l =>
    match observe workflow with
    | .error e => (.error e, l)
    | .ok observations =>
      match l.reconcileTicketPoll (host workflow.id) name workflow.id observations with
      | .error e => (.error [e.message], l)
      | .ok (answers, l') =>
        let (result, l'') := pollWorkflows host name observe workflows l'
        (result.map ((answers.filter fun task => task.created).length + ·), l'')

/-- A pinned identity is not asked for again. -/
def validatedRepositoryIdentity (gh : Gh) (repository : String) : Option String → Result String
  | some identity => .ok identity
  | none => validateRepository gh repository

/-- What one status workflow observes of the items of the project. -/
def projectObservations (crates : Crates) (name : String) (resolved : ResolvedProjectSource)
    (trusted : List String) (items : List ProjectItem) (workflow : WorkflowEntry) :
    Result (List ObservedTicket) :=
  match workflow.trigger with
  | some (.status status) => do
    let optionId ← orBail (resolved.option? status)
      "trigger status was not found in the configured project field"
    return items.filterMap (observeItem crates name resolved trusted status optionId)
  | _ => .ok []

/-- What one label workflow observes of the open issues. -/
def labelObservations (crates : Crates) (gh : Gh) (repository name : String) (trusted : List UInt64)
    (issues : List ApiIssue) (workflow : WorkflowEntry) : Result (List ObservedTicket) :=
  match workflow.trigger with
  | some (.label label) => issues.mapM (observeIssue crates gh repository name trusted label)
  | _ => .ok []

/-- All that a poll of the project asks `gh` for, before it touches the ledger. -/
def readProject (gh : Gh) (limit : ℕ) (repository : String) (source : SourceConfig)
    (pinned : Option String) :
    Result (String × ResolvedProjectSource × List String × List ProjectItem) := do
  let name ← validatedRepositoryIdentity gh repository pinned
  let resolved ← resolveProjectSource gh repository source
  let trusted ← trustedSourceUserIds gh repository source
  let items ← projectItemsFrom gh repository resolved.projectId source.statusField limit none
  return (name, resolved, trusted, items)

/-- One poll of the project for the status workflows of a repository. -/
def pollProjectRepository (crates : Crates) (gh : Gh) (host : String → Host) (limit : ℕ)
    (repository : String) (workflows : List WorkflowEntry) (source : SourceConfig)
    (pinned : Option String) (l : Ledger) : Result RepositoryPoll × Ledger :=
  match readProject gh limit repository source pinned with
  | .error e => (.error e, l)
  | .ok (name, resolved, trusted, items) =>
    let (result, l') := pollWorkflows host name
      (projectObservations crates name resolved trusted items) workflows l
    (result.map fun tasksCreated => {
      repository, tasksCreated
      nameWithOwner := some name
      issuesSeen := items.countP fun item => item.content.any (·.isOf name) }, l')

/-- All that a poll of the issues asks `gh` for but the timelines. -/
def readIssues (gh : Gh) (repository : String) (source : SourceConfig) (pinned : Option String) :
    Result (String × List ApiIssue × List UInt64) := do
  let name ← validatedRepositoryIdentity gh repository pinned
  let issues ← (gh.issues repository name).parsed ("gh returned malformed paginated JSON for repos/" ++
    name ++ "/issues?state=open&per_page=100")
  let trusted ← trustedSourceNumericUserIds gh repository source
  return (name, issues.filter fun issue => !issue.isPullRequest, trusted)

/-- One poll of the open issues for the label workflows of a repository. -/
def pollLabelRepository (crates : Crates) (gh : Gh) (host : String → Host) (repository : String)
    (workflows : List WorkflowEntry) (source : SourceConfig) (pinned : Option String) (l : Ledger) :
    Result RepositoryPoll × Ledger :=
  match readIssues gh repository source pinned with
  | .error e => (.error e, l)
  | .ok (name, issues, trusted) =>
    let (result, l') := pollWorkflows host name
      (labelObservations crates gh repository name trusted issues) workflows l
    (result.map fun tasksCreated => {
      repository, tasksCreated
      nameWithOwner := some name
      issuesSeen := issues.length }, l')

/-- A workflow without errors that a status starts. -/
def WorkflowEntry.isStatus (entry : WorkflowEntry) : Bool :=
  entry.errors.isEmpty && match entry.trigger with
    | some (.status _) => true
    | _ => false

/-- A workflow without errors that a label starts. -/
def WorkflowEntry.isLabel (entry : WorkflowEntry) : Bool :=
  entry.errors.isEmpty && match entry.trigger with
    | some (.label _) => true
    | _ => false

theorem WorkflowEntry.isStatus_iff {entry : WorkflowEntry} : entry.isStatus = true ↔
    entry.errors.isEmpty = true ∧ ∃ status, entry.trigger = some (.status status) := by
  unfold isStatus
  split <;> simp_all

theorem WorkflowEntry.isLabel_iff {entry : WorkflowEntry} : entry.isLabel = true ↔
    entry.errors.isEmpty = true ∧ ∃ label, entry.trigger = some (.label label) := by
  unfold isLabel
  split <;> simp_all

/-- The status workflows of one repository. -/
def statusWorkflows (entries : List WorkflowEntry) (repository : String) : List WorkflowEntry :=
  entries.filter fun entry => entry.repository = repository && entry.isStatus

/-- The label workflows of one repository. -/
def labelWorkflows (entries : List WorkflowEntry) (repository : String) : List WorkflowEntry :=
  entries.filter fun entry => entry.repository = repository && entry.isLabel

/-- The project is left alone when no workflow of the repository is started by a status. -/
def pollStatuses (crates : Crates) (gh : Gh) (host : String → Host) (limit : ℕ)
    (source : SourceConfig) (entries : List WorkflowEntry) (pinned : Option String)
    (repository : String) (l : Ledger) : Result RepositoryPoll × Ledger :=
  if statusWorkflows entries repository = [] then (.ok ⟨repository, none, 0, 0, none⟩, l)
  else pollProjectRepository crates gh host limit repository (statusWorkflows entries repository)
    source pinned l

/-- The issues are left alone when no workflow is started by a label. The report is that of both
polls. -/
def pollLabels (crates : Crates) (gh : Gh) (host : String → Host) (source : SourceConfig)
    (entries : List WorkflowEntry) (pinned : Option String) (repository : String)
    (report : RepositoryPoll) (l : Ledger) : Result RepositoryPoll × Ledger :=
  if labelWorkflows entries repository = [] then (.ok report, l)
  else
    let (result, l') := pollLabelRepository crates gh host repository
      (labelWorkflows entries repository) source pinned l
    (result.map fun labels => { report with
      nameWithOwner := labels.nameWithOwner
      issuesSeen := max report.issuesSeen labels.issuesSeen
      tasksCreated := report.tasksCreated + labels.tasksCreated }, l')

/-- The status workflows of a repository are polled first, then its label workflows. -/
def pollRepository (crates : Crates) (gh : Gh) (host : String → Host) (limit : ℕ)
    (source : Option SourceConfig) (entries : List WorkflowEntry) (pinned : Option String)
    (repository : String) (l : Ledger) : Result RepositoryPoll × Ledger :=
  match source with
  | none => (.error ["ticket triggers require a configured source"], l)
  | some source =>
    match pollStatuses crates gh host limit source entries pinned repository l with
    | (.error e, l') => (.error e, l')
    | (.ok report, l') =>
      match pollLabels crates gh host source entries pinned repository report l' with
      | (.error e, l'') => (.error e, l'')
      | (.ok report, l'') =>
        (match report.nameWithOwner with
          | some _ => .ok report
          | none => (validatedRepositoryIdentity gh repository pinned).map fun name =>
            { report with nameWithOwner := some name }, l'')

/-- One report for every repository: a failure of one does not keep the others from being polled. -/
def pollOnceAfterGlobalValidation (crates : Crates) (gh : Gh) (host : String → Host) (limit : ℕ)
    (config : Config) (entries : List WorkflowEntry) (pinned : Option String) (l : Ledger) :
    List RepositoryPoll × Ledger :=
  config.repositories.foldl (fun (reports, l) repository =>
    match pollRepository crates gh host limit config.source entries pinned repository l with
    | (.ok report, l) => (reports ++ [report], l)
    | (.error e, l) =>
      (reports ++ [⟨repository, none, 0, 0, some (String.intercalate ": " e)⟩], l)) ([], l)

/-! ## Claims -/

/-- The item is still the open issue that was queued, has its author and the required status. -/
def validateProjectItem (current : ProjectItem) (expected : ProjectTicketContext)
    (requiredOptionId : String) : Result Unit := do
  let issue ← orBail current.content "project item is no longer an issue"
  let status ← orBail current.fieldValue "project item no longer has the configured status"
  bailIf (current.id ≠ expected.projectItemId ∨ issue.id ≠ expected.issueNodeId ∨
      issue.number ≠ expected.number ∨ issue.url ≠ expected.url ∨
      issue.nameWithOwner ≠ expected.repository ∨ issue.state ≠ "OPEN")
    "project item no longer matches the queued issue"
  let author ← orBail issue.author "project issue no longer has an author"
  bailIf (author.id ≠ some expected.authorId ∨ status.optionId ≠ requiredOptionId)
    "project issue author or status changed before claim"

/-- A task of a status trigger is launched if `gh` still answers what was stored with it and its
author is still trusted. -/
def authorizeProjectClaim (crates : Crates) (gh : Gh) (repository : String) (source : SourceConfig)
    (task : Task) : Result Unit := do
  let payload ← orBail task.payload "project task has no source payload"
  let expected ← orBail ((crates.jsonFromStr payload).bind ProjectTicketContext.fromJson?)
    "project task source payload is invalid"
  let sourceItem ← orBail task.sourceItem "project task has no issue number"
  bailIf (sourceItem ≠ toString expected.number ∨ task.repository ≠ expected.repository)
    "project task payload does not match its durable identity"
  let name ← validateRepository gh repository
  bailIf (name ≠ task.repository) "project task repository no longer matches the configured checkout"
  let resolved ← resolveProjectSource gh repository source
  let trusted ← trustedSourceUserIds gh repository source
  bailIf (expected.authorId ∉ trusted) "project issue author is no longer trusted"
  let optionId ← orBail (resolved.option? expected.expectedStatus)
    "queued expected state is no longer configured"
  bailIf (resolved.projectId ≠ expected.projectId ∨ resolved.statusFieldId ≠ expected.statusFieldId ∨
      optionId ≠ expected.expectedOptionId)
    "project source configuration changed after this task was queued"
  let item ← readProjectItem gh repository expected.projectItemId expected.statusFieldId
  let current ← orBail item "project item no longer exists or is not an issue"
  validateProjectItem current expected expected.expectedOptionId

/-- A task of a label trigger is launched if its label has not been put on the issue anew since. -/
def authorizeLabelClaim (crates : Crates) (gh : Gh) (repository : String) (source : SourceConfig)
    (expectedLabel : String) (task : Task) : Result Unit := do
  let payload ← orBail task.payload "label task has no source payload"
  let expected ← orBail ((crates.jsonFromStr payload).bind LabelTicketContext.fromJson?)
    "label task source payload is invalid"
  let sourceItem ← orBail task.sourceItem "label task has no issue number"
  bailIf (sourceItem ≠ toString expected.number ∨ task.repository ≠ expected.repository ∨
      expected.expectedLabel ≠ expectedLabel)
    "label task payload does not match its durable identity"
  let name ← validateRepository gh repository
  bailIf (name ≠ task.repository) "label task repository no longer matches the configured checkout"
  let trusted ← trustedSourceNumericUserIds gh repository source
  let issue ← (gh.issue repository task.repository expected.number).parsed
    ("gh returned malformed JSON for repos/" ++ task.repository ++ "/issues/" ++
      toString expected.number)
  bailIf (issue.state ≠ "open" ∨ issue.userId ≠ expected.authorId ∨
      issue.userLogin ≠ expected.authorLogin ∨ issue.htmlUrl ≠ expected.url ∨
      issue.userId ∉ trusted ∨ expectedLabel ∉ issue.labels)
    "issue author, state, URL, or label changed before claim"
  let timeline ← (gh.issueTimeline repository task.repository expected.number).parsed
    ("gh returned malformed paginated JSON for repos/" ++ task.repository ++ "/issues/" ++
      toString expected.number ++ "/timeline?per_page=100")
  bailIf (latestLabelEventId timeline expectedLabel ≠ some expected.labelEventId)
    "issue label entry changed before claim"

end GitHub
end FlashyFactory
