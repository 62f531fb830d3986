import FlashyFactory.GitHub.Tickets
import FlashyFactory.Storage.TriggerEdges

/-! # One repository under two spellings

`gh` spells a repository as its owner does, and the configuration spells it in lower case, whatever
the remote says. A poll, the dispatch of its tasks and the authorization of their claims agree on
the name of the repository exactly when the two spellings are the same. -/

namespace FlashyFactory
namespace GitHub

/-! ## A daemon that polls GitHub -/

def providerText : RepositoryProvider → String
  | .gitHub => "github"
  | .gitLab => "gitlab"

def isIdentityCharacter (c : Char) : Bool :=
  c.isAlphanum || c = '-' || c = '_' || c = '.'

def validateConfiguredRepositoryIdentity (provider : RepositoryProvider) (identity : String) :
    Result String := do
  let segments := identity.toList.splitOn '/'
  let validShape : Bool := match provider with
    | .gitHub => segments.length = 2
    | .gitLab => 3 ≤ segments.length && eqIgnoreAsciiCase (segments.headD []) "gitlab.com".toList
  bailIf (identity = "" ∨ toAsciiLowercase identity.toList ≠ identity.toList ∨
      (segments.all fun segment => segment ≠ [] && segment.all isIdentityCharacter) = false ∨
      validShape = false)
    ("repository.identity must be a canonical " ++ providerText provider ++ " identity")
  return identity

def safeRepositoryIdentityForError (provider : RepositoryProvider) (identity : String) : String :=
  match validateConfiguredRepositoryIdentity provider identity with
  | .ok identity => identity
  | .error _ => "<invalid>"

/-- The `[repository]` table, if there is one, has to agree with the remote. -/
def resolveRepositoryConfig (configured : Option RepositoryConfig) (actual : RepositoryRef) :
    Result RepositoryConfig := do
  let shown := safeRepositoryIdentityForError actual.provider actual.identity
  match configured with
  | some configured =>
    let expected ← validateConfiguredRepositoryIdentity configured.provider configured.identity
    bailIf (configured.provider ≠ actual.provider ∨ expected ≠ actual.identity)
      ("configured repository " ++ providerText configured.provider ++ " identity " ++ expected ++
        " does not match origin " ++ providerText actual.provider ++ " identity " ++ shown)
    return ⟨configured.provider, expected⟩
  | none =>
    bailIf (actual.provider ≠ .gitHub) ("configuration without [repository] means GitHub, but origin is " ++
      providerText actual.provider ++ " identity " ++ shown ++ "; add an explicit [repository] table")
    return ⟨.gitHub, actual.identity⟩

theorem resolveRepositoryConfig_eq (h : resolveRepositoryConfig configured actual = .ok config) :
    config = ⟨actual.provider, actual.identity⟩ := by
  unfold resolveRepositoryConfig at h
  cases configured with
  | some configured =>
    simp only [Except.bind_eq_ok, bailIf_eq_ok, Except.pure_eq_ok, not_or, not_not] at h
    obtain ⟨expected, -, -, ⟨hprovider, hidentity⟩, rfl⟩ := h
    rw [hprovider, hidentity]
  | none =>
    simp only [Except.bind_eq_ok, bailIf_eq_ok, Except.pure_eq_ok, not_not] at h
    obtain ⟨-, hprovider, rfl⟩ := h
    rw [hprovider]

/-- A daemon for one GitHub checkout, whose tickets come from `gh`. -/
structure FactoryDaemon where
  remote : RepositoryRef
  configured : Option RepositoryConfig
  path : String
  config : Config
  catalog : WorkflowCatalog
  pinnedIdentity : String
  gitHub : remote.provider = .gitHub
  /-- `Config::load` -/
  resolved : resolveRepositoryConfig configured remote = .ok config.repository
  single : config.repositories = [path]
  /-- `with_clients` pins the identity of the configuration, and `validate_checkout` requires that
  of the remote in a fleet. -/
  pinned : pinnedIdentity = remote.identity
  command : ∀ source ∈ config.source, source.command = []

/-- `GitHubForge::validate` -/
def forgeValidate (gh : Gh) (repository expectedIdentity : String) : Result Unit := do
  Except.mapError (fun _ => ["GitHub CLI is unavailable or unauthenticated; run gh auth login " ++
    "--hostname github.com"]) (validateGlobal gh)
  let name ← Except.mapError (fun _ => ["GitHub CLI cannot read the configured GitHub repository"])
    (validateRepository gh repository)
  let discovered := String.ofList (toAsciiLowercase name.toList)
  bailIf (discovered ≠ expectedIdentity) ("GitHub repository identity " ++ discovered ++
    " does not match configured identity " ++ expectedIdentity)

def validateIssueSource (gh : Gh) (repository : String) (source : SourceConfig) : Result Unit := do
  let _ ← trustedSourceNumericUserIds gh repository source

def validateProjectSource (gh : Gh) (repository : String) (source : SourceConfig)
    (statuses : List String) : Result Unit := do
  let _ ← trustedSourceUserIds gh repository source
  let resolved ← resolveProjectSource gh repository source
  statuses.forM fun status => bailIf (resolved.option? status = none) ("GitHub Project field " ++
    debugStr source.statusField ++ " has no option " ++ debugStr status ++ " required by a status trigger")

structure RepositoryTarget where
  path : String
  provider : RepositoryProvider
  identity : String
  workflows : List (String × Trigger)
deriving DecidableEq, Repr

namespace FactoryDaemon
variable (D : FactoryDaemon)

def statuses : List String :=
  D.catalog.entries.filterMap fun entry => match entry.trigger with
    | some (.status status) => some status
    | _ => none

/-- The entries of the repository that are fit to run, with their triggers. -/
def workflows (repository : String) : List (String × Trigger) :=
  (D.catalog.entries.filter fun entry => entry.repository = repository && entry.errors.isEmpty).filterMap
    fun entry => entry.trigger.map fun trigger => (entry.id, trigger)

def validateSource (gh : Gh) (repository : String) : Result Unit :=
  match D.config.source with
  | none => .ok ()
  | some source => do
    validateGlobal gh
    validateIssueSource gh repository source
    if D.statuses = [] then return ()
    else validateProjectSource gh repository source D.statuses

/-- One turn of the loop over the repositories; `HashMap::insert` replaces an entry. -/
def resolveTarget (gh : Gh) (targets : List (String × RepositoryTarget)) (repository : String) :
    Result (List (String × RepositoryTarget)) := do
  forgeValidate gh repository D.config.repository.identity
  D.validateSource gh repository
  return (D.pinnedIdentity, ⟨repository, D.config.repository.provider, D.pinnedIdentity,
    D.workflows repository⟩) :: targets.filter fun target => target.1 ≠ D.pinnedIdentity

def resolveTargets (gh : Gh) : Result (List (String × RepositoryTarget)) :=
  D.config.repositories.foldlM (D.resolveTarget gh) []

/-- Who polls. -/
inductive Mode
  /-- `FactoryDaemon::run`: `poll_until_cancelled`, without a pinned identity -/
  | continuous
  /-- `FleetSupervisor::run`: `poll_fleet_target`, for one workflow -/
  | fleet (workflow : String)

def poll (crates : Crates) (gh : Gh) (host : String → Host) (limit : ℕ) : Mode → Ledger →
    List RepositoryPoll × Ledger
  | .continuous, l =>
    match validateGlobal gh with
    | .error _ => ([], l)
    | .ok () => pollOnceAfterGlobalValidation crates gh host limit D.config D.catalog.entries none l
  | .fleet workflow, l =>
    pollOnceAfterGlobalValidation crates gh host limit D.config
      (D.catalog.entries.filter fun entry => entry.id = workflow) (some D.pinnedIdentity) l

/-- What `dispatch_available` asks before it launches a task; `connector` stands for the answer of
the source command to a task of a source trigger. -/
def authorize (crates : Crates) (gh : Gh) (connector : Task → Result Unit)
    (targets : List (String × RepositoryTarget)) (task : Task) : Result Unit := do
  let target ← orBail (targets.lookup task.repository) "claimed task repository is not configured"
  let trigger ← orBail (target.workflows.lookup task.workflow) "claimed workflow is not configured"
  match trigger with
  | .schedule => return ()
  | .source => connector task
  | .status _ => do
    let source ← orBail D.config.source "project workflow has no configured source"
    authorizeProjectClaim crates gh target.path source task
  | .label label => do
    let source ← orBail D.config.source "label workflow has no configured source"
    authorizeLabelClaim crates gh target.path source label task

end FactoryDaemon

/-! ## What a poll queues -/

theorem reconcileTicketPoll_queued {l l' : Ledger} {task : Task}
    (h : l.reconcileTicketPoll host repository workflow os = .ok (answers, l'))
    (htask : task ∈ l'.tasks) : task ∈ l.tasks ∨
      ∃ o ∈ os, o.eligible = true ∧ Ledger.QueuedFor repository workflow o task := by
  simp only [Ledger.reconcileTicketPoll] at h
  split at h
  · cases h
  · next hkey =>
    simp only [Bool.or_eq_true, not_or, Bool.not_eq_true] at hkey
    obtain ⟨_, _, new, hpoll, hpolled, -⟩ := Ledger.pollObservations_polled host
      (l.priorObservation repository workflow) 0 (l.resetEligibility repository workflow) hkey.1 hkey.2
      (Ledger.pollObservations_nonblank h)
    cases hpoll.symm.trans h
    rw [← KeyedTable.mem_rows, hpolled.rows, List.mem_append] at htask
    refine htask.imp id fun hnew => ?_
    obtain ⟨o, ho, hedge, hqueued⟩ := hpolled.queued task hnew
    simp only [Ledger.isEdge, Bool.and_eq_true] at hedge
    exact ⟨o, ho, hedge.1, hqueued⟩

/-- A task was queued for what a workflow among `workflows` observed. -/
def QueuedBy (name : String) (observe : WorkflowEntry → Result (List ObservedTicket))
    (workflows : List WorkflowEntry) (task : Task) : Prop :=
  ∃ entry ∈ workflows, ∃ observations, observe entry = .ok observations ∧
    ∃ o ∈ observations, o.eligible = true ∧ Ledger.QueuedFor name entry.id o task

theorem pollWorkflows_queued {l : Ledger} {task : Task}
    (htask : task ∈ (pollWorkflows host name observe workflows l).2.tasks) :
    task ∈ l.tasks ∨ QueuedBy name observe workflows task := by
  induction workflows generalizing l with
  | nil => exact .inl htask
  | cons entry workflows ih =>
    simp only [pollWorkflows] at htask
    split at htask
    · exact .inl htask
    · next observations hobserve =>
      split at htask
      · exact .inl htask
      · next answers l' hpoll =>
        rcases ih htask with h | ⟨other, hother, h⟩
        · refine (reconcileTicketPoll_queued hpoll h).imp id fun h => ?_
          exact ⟨entry, List.mem_cons_self, observations, hobserve, h⟩
        · exact .inr ⟨other, List.mem_cons_of_mem _ hother, h⟩

/-- The task that a poll queued for an issue with a project status. -/
structure QueuedForStatus (crates : Crates) (gh : Gh) (limit : ℕ) (repository : String)
    (source : SourceConfig) (entries : List WorkflowEntry) (pinned : Option String) (name : String)
    (task : Task) : Prop where
  queued : ∃ resolved trusted items, readProject gh limit repository source pinned =
    .ok (name, resolved, trusted, items) ∧
    QueuedBy name (projectObservations crates name resolved trusted items)
      (statusWorkflows entries repository) task

/-- The task that a poll queued for an issue with a label. -/
structure QueuedForLabel (crates : Crates) (gh : Gh) (repository : String) (source : SourceConfig)
    (entries : List WorkflowEntry) (pinned : Option String) (name : String) (task : Task) : Prop where
  queued : ∃ issues trusted, readIssues gh repository source pinned = .ok (name, issues, trusted) ∧
    QueuedBy name (labelObservations crates gh repository name trusted issues)
      (labelWorkflows entries repository) task

/-- The task that a poll of a repository queued under `name`. -/
def Queued (crates : Crates) (gh : Gh) (limit : ℕ) (source : Option SourceConfig)
    (entries : List WorkflowEntry) (pinned : Option String) (repository name : String) (task : Task) :
    Prop :=
  ∃ source' ∈ source,
    QueuedForStatus crates gh limit repository source' entries pinned name task ∨
      QueuedForLabel crates gh repository source' entries pinned name task

section
variable {l : Ledger} {task : Task}

theorem pollStatuses_queued
    (htask : task ∈ (pollStatuses crates gh host limit source entries pinned repository l).2.tasks) :
    task ∈ l.tasks ∨
      ∃ name, Queued crates gh limit (some source) entries pinned repository name task := by
  simp only [pollStatuses, pollProjectRepository] at htask
  split at htask
  · exact .inl htask
  · split at htask
    · exact .inl htask
    · next name resolved trusted items hread =>
      refine (pollWorkflows_queued htask).imp id fun h => ?_
      exact ⟨name, source, rfl, .inl ⟨resolved, trusted, items, hread, h⟩⟩

theorem pollLabels_queued
    (htask : task ∈ (pollLabels crates gh host source entries pinned repository report l).2.tasks) :
    task ∈ l.tasks ∨
      ∃ name, Queued crates gh limit (some source) entries pinned repository name task := by
  simp only [pollLabels, pollLabelRepository] at htask
  split at htask
  · exact .inl htask
  · split at htask
    · exact .inl htask
    · next name issues trusted hread =>
      refine (pollWorkflows_queued htask).imp id fun h => ?_
      exact ⟨name, source, rfl, .inr ⟨issues, trusted, hread, h⟩⟩

theorem pollRepository_queued
    (htask : task ∈ (pollRepository crates gh host limit source entries pinned repository l).2.tasks) :
    task ∈ l.tasks ∨ ∃ name, Queued crates gh limit source entries pinned repository name task := by
  cases source with
  | none => exact .inl htask
  | some source =>
    have hstatus : task ∈
        (pollStatuses crates gh host limit source entries pinned repository l).2.tasks →
        task ∈ l.tasks ∨
          ∃ name, Queued crates gh limit (some source) entries pinned repository name task :=
      pollStatuses_queued
    simp only [pollRepository] at htask
    split at htask
    · next hpolled =>
      rw [hpolled] at hstatus
      exact hstatus htask
    · next report l' hpolled =>
      rw [hpolled] at hstatus
      have hlabel : task ∈
          (pollLabels crates gh host source entries pinned repository report l').2.tasks →
          task ∈ l'.tasks ∨
            ∃ name, Queued crates gh limit (some source) entries pinned repository name task :=
        pollLabels_queued
      have htask' : task ∈
          (pollLabels crates gh host source entries pinned repository report l').2.tasks := by
        split at htask <;> next hpolled' => rw [hpolled']; exact htask
      rcases hlabel htask' with h | h
      · exact hstatus h
      · exact .inr h

end

/-! ## Claims of an unchanged issue -/

/-- What `gh` says of a checkout does not contradict itself. -/
structure Gh.Consistent (gh : Gh) (repository : String) : Prop where
  /-- The issues of the repository carry its name as `gh repo view` spells it. -/
  spelling : ∀ {projectId statusField cursor page item issue name},
    gh.projectItems repository projectId statusField cursor = .output (some page) →
    item ∈ page.nodes → item.content = some issue → validateRepository gh repository = .ok name →
    issue.isOf name = true → issue.nameWithOwner = name
  /-- An item of a project is read again as it was listed. -/
  item : ∀ {source resolved cursor page item},
    resolveProjectSource gh repository source = .ok resolved →
    gh.projectItems repository resolved.projectId source.statusField cursor = .output (some page) →
    item ∈ page.nodes → readProjectItem gh repository item.id resolved.statusFieldId = .ok (some item)
  /-- An issue is read again as it was listed, and only open ones are listed. -/
  issue : ∀ {name issues issue}, gh.issues repository name = .output issues → issue ∈ issues →
    gh.issue repository name issue.number = .output issue ∧ issue.state = "open"

/-- `serde_json` reads the payload back as the context it was written from. -/
structure ReadsBack (crates : Crates) (payload : Option String) : Prop where
  project : ∀ c : ProjectTicketContext, payload = some (crates.jsonToString c.toJson) →
    crates.jsonFromStr (crates.jsonToString c.toJson) = some c.toJson
  label : ∀ c : LabelTicketContext, payload = some (crates.jsonToString c.toJson) →
    crates.jsonFromStr (crates.jsonToString c.toJson) = some c.toJson

theorem projectItemsFrom_mem (h : projectItemsFrom gh repository projectId statusField n cursor = .ok items)
    (hitem : item ∈ items) : ∃ cursor page,
      gh.projectItems repository projectId statusField cursor = .output (some page) ∧
        item ∈ page.nodes := by
  induction n generalizing cursor items with
  | zero => cases h
  | succ n ih =>
    simp only [projectItemsFrom, Except.bind_eq_ok, orBail_eq_ok, Reply.parsed_eq_ok] at h
    obtain ⟨_, hpage, page, rfl, h⟩ := h
    split at h
    · simp only [Except.bind_eq_ok, Except.pure_eq_ok] at h
      obtain ⟨next, -, rest, hrest, rfl⟩ := h
      rcases List.mem_append.mp hitem with hitem | hitem
      · exact ⟨cursor, page, hpage, hitem⟩
      · exact ih hrest hitem
    · obtain rfl := Except.pure_eq_ok.mp h
      exact ⟨cursor, page, hpage, hitem⟩

theorem observeItem_eq_some
    (h : observeItem crates name resolved trusted status optionId item = some o) :
    ∃ issue author authorId value, item.content = some issue ∧ issue.isOf name = true ∧
      issue.state = "OPEN" ∧ issue.author = some author ∧ author.id = some authorId ∧
      item.fieldValue = some value ∧ o.sourceItem = toString issue.number ∧
      o.eligible = (decide (value.optionId = optionId) && trusted.contains authorId) ∧
      o.payload = crates.jsonToString (issue.ticketContext resolved item.id authorId author.login name
        status optionId value.updatedAt).toJson := by
  unfold observeItem at h
  split at h
  · cases h
  · next issue hissue =>
    split at h
    · cases h
    · next hopen =>
      simp only [Bool.or_eq_true, decide_eq_true_eq, not_or, Bool.not_eq_false, not_not] at hopen
      split at h
      · cases h
      · next author hauthor =>
        split at h
        · cases h
        · next authorId hid =>
          split at h
          · cases h
          · next value hvalue =>
            cases h
            exact ⟨issue, author, authorId, value, hissue, hopen.1, hopen.2, hauthor, hid, hvalue,
              rfl, rfl, rfl⟩

variable {task : Task}

/-- **A claim of an unchanged project issue** is authorized exactly when `gh` still spells the
repository as the task does. -/
theorem authorizeProjectClaim_iff (hgh : gh.Consistent repository)
    (hjson : ReadsBack crates task.payload)
    (hqueued : QueuedForStatus crates gh limit repository source entries pinned name task) :
    authorizeProjectClaim crates gh repository source task = .ok () ↔
      validateRepository gh repository = .ok name := by
  obtain ⟨resolved, trusted, items, hread, entry, -, observations, hobserve, o, ho, heligible,
    revision, now, id, rfl⟩ := hqueued
  simp only [readProject, Except.bind_eq_ok, Except.pure_eq_ok, Prod.mk.injEq] at hread
  obtain ⟨name, -, resolved, hresolved, trusted, htrusted, items, hitems, rfl, rfl, rfl, rfl⟩ := hread
  unfold projectObservations at hobserve
  split at hobserve
  · next status htrigger =>
    simp only [Except.bind_eq_ok, orBail_eq_ok, Except.pure_eq_ok] at hobserve
    obtain ⟨optionId, hoption, rfl⟩ := hobserve
    obtain ⟨item, hitem, hsome⟩ := List.mem_filterMap.mp ho
    obtain ⟨issue, author, authorId, value, hissue, hof, hopen, hauthor, hid, hvalue, hsource,
      heligible', hpayload⟩ := observeItem_eq_some hsome
    have hdecode : (crates.jsonFromStr o.payload).bind ProjectTicketContext.fromJson? =
        some (issue.ticketContext resolved item.id authorId author.login name status optionId
          value.updatedAt) := by
      rw [hpayload, hjson.project _ (congrArg some hpayload)]
      exact ProjectTicketContext.fromJson?_toJson _
    simp only [authorizeProjectClaim, Except.bind_eq_ok, orBail_eq_ok, bailIf_eq_ok]
    constructor
    · rintro ⟨_, -, _, -, _, -, _, -, viewed, hviewed, _, hsame, -⟩
      rwa [not_not.mp hsame] at hviewed
    · intro hview
      obtain ⟨cursor, page, hpage, hmem⟩ := projectItemsFrom_mem hitems hitem
      have hspelling := hgh.spelling hpage hmem hissue hview hof
      rw [heligible', Bool.and_eq_true, decide_eq_true_eq, List.contains_iff_mem] at heligible
      refine ⟨_, rfl, _, hdecode, _, rfl, (), ?_, name, hview, (), not_not.mpr rfl, resolved, hresolved,
        trusted, htrusted, (), not_not.mpr heligible.2, optionId, hoption, (), ?_, _,
        hgh.item hresolved hpage hmem, item, rfl, ?_⟩
      · simp [hsource, ProjectIssue.ticketContext, Ledger.queuedTask, TaskIdentity.sourceItem,
          TaskIdentity.repository]
      · simp [ProjectIssue.ticketContext]
      · simp [validateProjectItem, hissue, hvalue, hauthor, hid, hopen, hspelling, heligible.1,
          ProjectIssue.ticketContext]
  · cases hobserve
    cases ho

theorem observeIssue_eligible
    (h : observeIssue crates gh repository name trusted label issue = .ok o) (ho : o.eligible = true) :
    label ∈ issue.labels ∧ issue.userId ∈ trusted ∧ ∃ timeline event,
      gh.issueTimeline repository name issue.number = .output timeline ∧
      latestLabelEventId timeline label = some event ∧ o.sourceItem = toString issue.number ∧
      o.payload = crates.jsonToString (issue.ticketContext name label event).toJson := by
  simp only [observeIssue, Except.bind_eq_ok, Except.pure_eq_ok] at h
  obtain ⟨context, hcontext, rfl⟩ := h
  obtain ⟨context, rfl⟩ := Option.isSome_iff_exists.mp ho
  unfold labelContext at hcontext
  split at hcontext
  · next hlabel =>
    simp only [Except.bind_eq_ok, Reply.parsed_eq_ok, Except.pure_eq_ok, Option.map_eq_some_iff] at hcontext
    obtain ⟨timeline, htimeline, event, hevent, rfl⟩ := hcontext
    exact ⟨hlabel.1, hlabel.2, timeline, event, htimeline, hevent, rfl, rfl⟩
  · cases hcontext

theorem mem_of_mapM {f : α → Result β} {xs : List α} (h : xs.mapM f = .ok ys) (hy : y ∈ ys) :
    ∃ x ∈ xs, f x = .ok y := by
  induction xs generalizing ys with
  | nil =>
    rw [List.mapM_nil, Except.pure_eq_ok] at h
    subst h
    cases hy
  | cons x xs ih =>
    simp only [List.mapM_cons, Except.bind_eq_ok, Except.pure_eq_ok] at h
    obtain ⟨z, hz, zs, hzs, rfl⟩ := h
    rcases List.mem_cons.mp hy with rfl | hy
    · exact ⟨x, List.mem_cons_self, hz⟩
    · obtain ⟨x', hx', h⟩ := ih hzs hy
      exact ⟨x', List.mem_cons_of_mem _ hx', h⟩

/-- **A claim of an unchanged labelled issue** is authorized exactly when `gh` still spells the
repository as the task does. -/
theorem authorizeLabelClaim_iff (hgh : gh.Consistent repository)
    (hjson : ReadsBack crates task.payload)
    (hread : readIssues gh repository source pinned = .ok (name, issues, trusted))
    (hobserve : issues.mapM (observeIssue crates gh repository name trusted label) = .ok observations)
    (ho : o ∈ observations) (heligible : o.eligible = true)
    (hqueued : Ledger.QueuedFor name workflow o task) :
    authorizeLabelClaim crates gh repository source label task = .ok () ↔
      validateRepository gh repository = .ok name := by
  obtain ⟨revision, now, id, rfl⟩ := hqueued
  simp only [readIssues, Except.bind_eq_ok, Reply.parsed_eq_ok, Except.pure_eq_ok, Prod.mk.injEq] at hread
  obtain ⟨name, -, listed, hlisted, trusted, htrusted, rfl, rfl, rfl⟩ := hread
  obtain ⟨issue, hissue, hone⟩ := mem_of_mapM hobserve ho
  obtain ⟨hlabel, hauthor, timeline, event, htimeline, hevent, hsource, hpayload⟩ :=
    observeIssue_eligible hone heligible
  obtain ⟨hagain, hopen⟩ := hgh.issue hlisted (List.mem_filter.mp hissue).1
  have hdecode : (crates.jsonFromStr o.payload).bind LabelTicketContext.fromJson? =
      some (issue.ticketContext name label event) := by
    rw [hpayload, hjson.label _ (congrArg some hpayload)]
    exact LabelTicketContext.fromJson?_toJson _
  simp only [authorizeLabelClaim, Except.bind_eq_ok, orBail_eq_ok, bailIf_eq_ok, Reply.parsed_eq_ok]
  constructor
  · rintro ⟨_, -, _, -, _, -, _, -, viewed, hviewed, _, hsame, -⟩
    rwa [not_not.mp hsame] at hviewed
  · intro hview
    refine ⟨_, rfl, _, hdecode, _, rfl, (), ?_, name, hview, (), not_not.mpr rfl, trusted, htrusted,
      issue, hagain, (), ?_, timeline, htimeline, not_not.mpr hevent⟩
    · simp [hsource, ApiIssue.ticketContext, Ledger.queuedTask, TaskIdentity.sourceItem,
        TaskIdentity.repository]
    · simp [ApiIssue.ticketContext, hopen, hauthor, hlabel]

/-! ## The three names -/

theorem lookup_of_mem {xs : List (String × β)} (hnodup : (xs.map Prod.fst).Nodup)
    (h : (a, b) ∈ xs) : xs.lookup a = some b := by
  induction xs with
  | nil => cases h
  | cons x xs ih =>
    obtain ⟨hfresh, hnodup⟩ := List.nodup_cons.mp hnodup
    rcases List.mem_cons.mp h with rfl | h
    · exact List.lookup_cons_self
    · have hne : (a == x.1) = false := by
        rw [beq_eq_false_iff_ne]
        exact fun heq => hfresh (heq ▸ List.mem_map_of_mem h)
      rw [List.lookup_cons, hne]
      exact ih hnodup h

theorem pollOnce_eq {config : Config} {pinned : Option String} (h : config.repositories = [repository]) {l : Ledger} :
    (pollOnceAfterGlobalValidation crates gh host limit config entries pinned l).2 =
      (pollRepository crates gh host limit config.source entries pinned repository l).2 := by
  simp only [pollOnceAfterGlobalValidation, h, List.foldl_cons, List.foldl_nil]
  split <;> next hpolled => rw [hpolled]

namespace Queued
variable {pinned : Option String} {source : Option SourceConfig}

theorem validated (h : Queued crates gh limit source entries pinned repository name task) :
    validatedRepositoryIdentity gh repository pinned = .ok name := by
  obtain ⟨_, -, ⟨_, _, _, hread, -⟩ | ⟨_, _, hread, -⟩⟩ := h
  · simp only [readProject, Except.bind_eq_ok, Except.pure_eq_ok, Prod.mk.injEq] at hread
    obtain ⟨_, h, _, -, _, -, _, -, rfl, -⟩ := hread
    exact h
  · simp only [readIssues, Except.bind_eq_ok, Except.pure_eq_ok, Prod.mk.injEq] at hread
    obtain ⟨_, h, _, -, _, -, rfl, -⟩ := hread
    exact h

theorem repository_eq (h : Queued crates gh limit source entries pinned repository name task) :
    task.repository = name := by
  obtain ⟨_, -, ⟨_, _, _, -, _, -, _, -, _, -, -, _, _, _, rfl⟩ |
    ⟨_, _, -, _, -, _, -, _, -, -, _, _, _, rfl⟩⟩ := h <;> rfl

end Queued

namespace FactoryDaemon
variable {D : FactoryDaemon}

theorem identity_eq : D.config.repository.identity = D.remote.identity :=
  congrArg RepositoryConfig.identity (resolveRepositoryConfig_eq D.resolved)

theorem workflows_sublist (entries : List WorkflowEntry) :
    ((entries.filterMap fun entry => entry.trigger.map fun trigger => (entry.id, trigger)).map
      Prod.fst).Sublist (entries.map WorkflowEntry.id) := by
  induction entries with
  | nil => exact .slnil
  | cons entry entries ih =>
    cases htrigger : entry.trigger with
    | none => simpa [htrigger] using ih.cons _
    | some trigger => simpa [htrigger] using ih

theorem lookup_workflows (hentry : entry ∈ D.catalog.entries) (hrepository : entry.repository = repository)
    (herrors : entry.errors.isEmpty = true) (htrigger : entry.trigger = some trigger) :
    (D.workflows repository).lookup entry.id = some trigger := by
  refine lookup_of_mem ?_ (List.mem_filterMap.mpr ⟨entry, List.mem_filter.mpr ⟨hentry, ?_⟩, ?_⟩)
  · exact ((workflows_sublist _).trans (List.filter_sublist.map _)).nodup D.catalog.nodup
  · simp [hrepository, herrors]
  · simp [htrigger]

/-- There is one target, under the identity of the remote, and `gh` spells the repository like it
but for the case of the letters. -/
theorem resolveTargets_eq (h : D.resolveTargets gh = .ok targets) :
    ∃ name, validateRepository gh D.path = .ok name ∧
      String.ofList (toAsciiLowercase name.toList) = D.remote.identity ∧
      targets = [(D.remote.identity, ⟨D.path, D.config.repository.provider, D.remote.identity,
        D.workflows D.path⟩)] := by
  simp only [resolveTargets, D.single, List.foldlM_cons, List.foldlM_nil, resolveTarget, forgeValidate,
    Except.bind_eq_ok, Except.pure_eq_ok, bailIf_eq_ok, Except.mapError_eq_ok, not_not] at h
  obtain ⟨_, ⟨_, ⟨_, -, name, hname, hidentity⟩, _, -, rfl⟩, rfl⟩ := h
  rw [identity_eq] at hidentity
  exact ⟨name, hname, hidentity, by simp [D.pinned]⟩

/-- The identity under which the source is polled. -/
def Mode.pinned (D : FactoryDaemon) : Mode → Option String
  | .continuous => none
  | .fleet _ => some D.pinnedIdentity

theorem poll_queued {l : Ledger} (hnew : task ∈ (D.poll crates gh host limit mode l).2.tasks)
    (hold : task ∉ l.tasks) : ∃ entries ⊆ D.catalog.entries, ∃ name,
      Queued crates gh limit D.config.source entries (mode.pinned D) D.path name task := by
  have hmany : ∀ entries pinned, task ∈ (pollOnceAfterGlobalValidation crates gh host limit D.config
      entries pinned l).2.tasks →
      ∃ name, Queued crates gh limit D.config.source entries pinned D.path name task := by
    intro entries pinned htask
    rw [pollOnce_eq D.single] at htask
    exact (pollRepository_queued htask).resolve_left hold
  cases mode with
  | continuous =>
    simp only [poll] at hnew
    split at hnew
    · exact (hold hnew).elim
    · exact ⟨_, List.Subset.refl _, hmany _ _ hnew⟩
  | fleet workflow => exact ⟨_, List.filter_subset_self _, hmany _ _ hnew⟩

/-- The daemon has a target for the task and authorizes its claim. -/
def Accepts (D : FactoryDaemon) (crates : Crates) (gh : Gh) (connector : Task → Result Unit)
    (targets : List (String × RepositoryTarget)) (task : Task) : Prop :=
  (targets.lookup task.repository).isSome = true ∧
    D.authorize crates gh connector targets task = .ok ()

theorem authorize_status (htarget : targets.lookup task.repository = some target)
    (hworkflow : target.workflows.lookup task.workflow = some (.status status))
    (hsource : D.config.source = some source) :
    D.authorize crates gh connector targets task =
      authorizeProjectClaim crates gh target.path source task := by
  simp only [authorize, htarget, orBail, Except.ok_bind, hworkflow, hsource]

theorem authorize_label (htarget : targets.lookup task.repository = some target)
    (hworkflow : target.workflows.lookup task.workflow = some (.label label))
    (hsource : D.config.source = some source) :
    D.authorize crates gh connector targets task =
      authorizeLabelClaim crates gh target.path source label task := by
  simp only [authorize, htarget, orBail, Except.ok_bind, hworkflow, hsource]

/-- A task that was queued under `name` is launched when that is both the identity of the remote and
the name that `gh` gives the repository. -/
theorem accepts_queued {pinned : Option String} (hgh : gh.Consistent D.path)
    (htargets : targets = [(D.remote.identity, ⟨D.path, provider, D.remote.identity, D.workflows D.path⟩)])
    (hsub : entries ⊆ D.catalog.entries) (hjson : ReadsBack crates task.payload)
    (hqueued : Queued crates gh limit D.config.source entries pinned D.path name task) :
    D.Accepts crates gh connector targets task ↔
      name = D.remote.identity ∧ validateRepository gh D.path = .ok name := by
  have hrepository := hqueued.repository_eq
  by_cases hidentity : name = D.remote.identity
  · have htarget : targets.lookup task.repository =
        some ⟨D.path, provider, D.remote.identity, D.workflows D.path⟩ := by
      rw [htargets, hrepository, hidentity]
      exact List.lookup_cons_self
    have hauthorize : D.authorize crates gh connector targets task = .ok () ↔
        validateRepository gh D.path = .ok name := by
      obtain ⟨source, hsource, hstatus | hlabel⟩ := hqueued
      · rw [← authorizeProjectClaim_iff hgh hjson hstatus]
        obtain ⟨_, _, _, -, entry, hentry, _, -, o, -, -, _, _, _, rfl⟩ := hstatus
        obtain ⟨hmem, hfit⟩ := List.mem_filter.mp hentry
        simp only [Bool.and_eq_true, decide_eq_true_eq, WorkflowEntry.isStatus_iff] at hfit
        obtain ⟨hpath, herrors, status, htrigger⟩ := hfit
        rw [authorize_status htarget (lookup_workflows (hsub hmem) hpath herrors htrigger) hsource]
      · obtain ⟨issues, trusted, hread, entry, hentry, observations, hobserve, o, ho, heligible, hq⟩ :=
          hlabel
        obtain ⟨hmem, hfit⟩ := List.mem_filter.mp hentry
        simp only [Bool.and_eq_true, decide_eq_true_eq, WorkflowEntry.isLabel_iff] at hfit
        obtain ⟨hpath, herrors, label, htrigger⟩ := hfit
        simp only [labelObservations, htrigger] at hobserve
        rw [← authorizeLabelClaim_iff hgh hjson hread hobserve ho heligible hq]
        obtain ⟨_, _, _, rfl⟩ := hq
        rw [authorize_label htarget (lookup_workflows (hsub hmem) hpath herrors htrigger) hsource]
    simp [Accepts, htarget, hidentity, hauthorize]
  · have htarget : targets.lookup task.repository = none := by
      rw [htargets, hrepository, List.lookup_cons, beq_eq_false_iff_ne.mpr hidentity]
      rfl
    simp [Accepts, htarget, hidentity]

/-- **The daemon accepts the tasks that it queues itself** exactly when `gh` spells the repository in
lower case. -/
theorem accepts_iff (D : FactoryDaemon) (crates : Crates) (gh : Gh) (connector : Task → Result Unit)
    (host : String → Host) (limit : ℕ) (mode : Mode) (l : Ledger) (task : Task)
    (hgh : gh.Consistent D.path) (htargets : D.resolveTargets gh = .ok targets)
    (hname : validateRepository gh D.path = .ok name)
    (hnew : task ∈ (D.poll crates gh host limit mode l).2.tasks) (hold : task ∉ l.tasks)
    (hjson : ReadsBack crates task.payload) :
    D.Accepts crates gh connector targets task ↔ toAsciiLowercase name.toList = name.toList := by
  obtain ⟨viewed, hviewed, hlower, htargets⟩ := resolveTargets_eq htargets
  obtain rfl : viewed = name := Except.ok.inj (hviewed.symm.trans hname)
  obtain ⟨entries, hsub, polled, hqueued⟩ := poll_queued hnew hold
  have hsame : toAsciiLowercase viewed.toList = viewed.toList ↔ viewed = D.remote.identity := by
    rw [← hlower, ← String.toList_inj, String.toList_ofList]
    exact eq_comm
  rw [accepts_queued hgh htargets hsub hjson hqueued, hname, Except.ok.injEq, hsame]
  have hvalidated := hqueued.validated
  cases mode with
  | continuous =>
    obtain rfl : viewed = polled := Except.ok.inj (hname.symm.trans hvalidated)
    exact and_iff_left rfl
  | fleet workflow =>
    obtain rfl : D.pinnedIdentity = polled := Except.ok.inj hvalidated
    rw [D.pinned]
    exact and_iff_right rfl

end FactoryDaemon

/-! ### A labelled issue -/

def exampleIssue : ApiIssue where
  number := 7
  htmlUrl := "https://github.com/acme/site/issues/7"
  title := "Fix the site"
  labels := ["ready"]
  state := "open"
  isPullRequest := false
  userId := 1
  userLogin := "alice"

/-- A repository with one open issue, which `gh` spells like `name`. -/
def exampleGh (name : String) : Gh where
  version := .ok ()
  authStatus := .ok ()
  repoView _ := .ok name
  user _ login := .output ⟨1, login, some "U1"⟩
  projectView _ _ _ := .failed ["no project"]
  projectFieldList _ _ _ := .failed ["no project"]
  projectItems _ _ _ _ := .failed ["no project"]
  projectItem _ _ := .failed ["no project"]
  issues _ _ := .output [exampleIssue]
  issue _ _ _ := .output exampleIssue
  issueTimeline _ _ _ := .output [⟨11, "labeled", some "ready"⟩]

theorem exampleGh_consistent (name repository : String) : (exampleGh name).Consistent repository where
  spelling h := by cases h
  item _ h := by cases h
  issue h hissue := by
    cases h
    obtain rfl := List.mem_singleton.mp hissue
    exact ⟨rfl, rfl⟩

/-- The text of the context of the issue. -/
def exampleText (name : String) : String :=
  "\x7b\"number\":7,\"url\":\"https://github.com/acme/site/issues/7\",\"title\":\"Fix the site\"," ++
  "\"author_id\":1,\"author_login\":\"alice\",\"repository\":\"" ++ name ++
  "\",\"expected_label\":\"ready\",\"label_event_id\":11\x7d"

def exampleSerde (name : String) : Crates where
  jsonFromStr text :=
    if text = exampleText name then some (exampleIssue.ticketContext name "ready" 11).toJson else none
  jsonToString json :=
    if LabelTicketContext.fromJson? json = some (exampleIssue.ticketContext name "ready" 11) then
      exampleText name else ""
  sanitizeForStorage text := text

def exampleFactoryDaemon : FactoryDaemon where
  remote := ⟨.gitHub, "github.com", "Acme", "Site"⟩
  configured := none
  path := "/srv/acme"
  config := ⟨["/srv/acme"], ⟨.gitHub, "acme/site"⟩, some ⟨[], "acme", 1, "Status", ["alice"]⟩⟩
  catalog := ⟨[⟨"/srv/acme", "implement", some (.label "ready"), []⟩], by decide⟩
  pinnedIdentity := "acme/site"
  gitHub := rfl
  resolved := by decide
  single := rfl
  pinned := by decide
  command := by decide

def exampleTask (name : String) : Task :=
  Ledger.queuedTask (.ticket name "implement" "7" "issue:7:label:ready:event:11")
    (some (exampleText name)) 1000000 1

theorem exampleText_ne (name : String) : exampleText name ≠ "" := by
  intro h
  have htext : (exampleText name).toList = [] := by rw [h, String.toList_empty]
  unfold exampleText at htext
  rw [String.toList_append] at htext
  have hend := (List.append_eq_nil_iff.mp htext).2
  revert hend
  decide

theorem exampleSerde_readsBack (name : String) :
    ReadsBack (exampleSerde name) (exampleTask name).payload := by
  refine ⟨fun c hc => ?_, fun c hc => ?_⟩
  · have hnone : LabelTicketContext.fromJson? c.toJson = none := by
      have hread : LabelTicketContext.fromJson? c.toJson =
          (Json.ofU64 c.number).asU64?.bind fun _ => none := rfl
      rw [hread, Json.asU64?_ofU64]
      rfl
    simp only [exampleSerde, hnone, reduceCtorEq, if_false] at hc
    exact (exampleText_ne name (Option.some.inj hc)).elim
  · simp only [exampleSerde, LabelTicketContext.fromJson?_toJson] at hc ⊢
    split at hc
    · next h =>
      cases h
      simp
    · exact (exampleText_ne name (Option.some.inj hc)).elim

set_option maxRecDepth 20000 in
theorem accepts_lower_case : exampleFactoryDaemon.Accepts (exampleSerde "acme/site")
    (exampleGh "acme/site") (fun _ => .ok ())
    [("acme/site", ⟨"/srv/acme", .gitHub, "acme/site", [("implement", .label "ready")]⟩)]
    (exampleTask "acme/site") := by
  have hname : validateRepository (exampleGh "acme/site") "/srv/acme" = .ok "acme/site" := by decide
  exact (exampleFactoryDaemon.accepts_iff _ _ _ (fun _ => exampleHost) 0 .continuous .empty _
    (exampleGh_consistent _ _) (by decide) hname (by decide) (by decide)
    (exampleSerde_readsBack _)).mpr (by decide)

set_option maxRecDepth 20000 in
theorem not_accepts_mixed_case : ¬ ∀ (D : FactoryDaemon) (crates : Crates) (gh : Gh)
    (connector : Task → Result Unit) (host : String → Host) (limit : ℕ) (mode : FactoryDaemon.Mode)
    (l : Ledger) (task : Task) (targets : List (String × RepositoryTarget)),
    gh.Consistent D.path → D.resolveTargets gh = .ok targets →
    task ∈ (D.poll crates gh host limit mode l).2.tasks → task ∉ l.tasks →
    ReadsBack crates task.payload → D.Accepts crates gh connector targets task := by
  intro h
  have haccepts := h exampleFactoryDaemon (exampleSerde "Acme/Site") (exampleGh "Acme/Site")
    (fun _ => .ok ()) (fun _ => exampleHost) 0 .continuous .empty (exampleTask "Acme/Site")
    [("acme/site", ⟨"/srv/acme", .gitHub, "acme/site", [("implement", .label "ready")]⟩)]
    (exampleGh_consistent _ _) (by decide) (by decide) (by decide) (exampleSerde_readsBack _)
  have htarget := haccepts.1
  revert htarget
  decide

end GitHub
end FlashyFactory
