import FlashyFactory.Storage.Refinement
import FlashyFactory.Storage.Rows

/-! # Continuing what the daemon delivered

`request_continuation` continues a delivery only if its workspace has a branch. The workspaces
that the daemon reserves have none: the agent chooses its branch later, and no operation writes
the column again. -/

namespace FlashyFactory

/-- `Path::join` with a relative name. -/
def joinPath (root name : String) : String :=
  if root = "" || root.toList.getLast? = some '/' then root ++ name else root ++ "/" ++ name

def taskWorkspaceCandidate (task : Task) (workspaceRoot : String) (sandboxed : Bool)
    (baseBranch baseSha : String) : TaskWorkspace where
  taskId := task.id
  kind := if task.kind = .ticket then .delivery else .proposal
  backend := if sandboxed then .clone else .worktree
  repository := task.repository
  baseBranch := baseBranch
  baseSha := baseSha
  factoryBranch := none
  path := joinPath workspaceRoot
    (if sandboxed then "triage-" ++ toString task.id else "proposal-" ++ toString task.id)
  state := .preparing
  statusSummary := none
  createdAt := 0
  updatedAt := 0
  cleanedAt := none

namespace Ledger
variable {l l' : Ledger} {repository taskGid fingerprint : String}

/-- What a reservation writes. -/
theorem reserveTaskWorkspace_row (h : l.reserveTaskWorkspace host workspace = .ok (a, l')) :
    ∃ row, l'.taskWorkspaces.get? workspace.taskId = some row ∧
      workspaceFacts row = workspaceFacts workspace := by
  simp only [reserveTaskWorkspace] at h
  split at h
  · next existing hrow =>
    split at h
    · next hsame =>
      cases h
      refine ⟨a, hrow, ?_⟩
      simp only [sameWorkspace, Bool.and_eq_true, decide_eq_true_eq] at hsame
      simp [workspaceFacts, hsame]
    · cases h
  · split at h
    · cases h
    · split at h
      · cases h
      · split at h
        · cases h
        · cases h
          refine ⟨reservation workspace (host.nowMillis 0), ?_, rfl⟩
          rw [KeyedTable.get?_insert]
          exact if_pos rfl

/-- The newest delivery task of the ticket that owns a workspace is the target. -/
theorem continuationTarget_eq {id : ℕ} (ht : l.tasks.get? id = some task)
    (hw : l.taskWorkspaces.get? id = some workspace) (hrepository : task.repository = repository)
    (hworkflow : task.workflow = deliveryWorkflow) (hitem : task.sourceItem = some taskGid)
    (hnewest : ∀ other ∈ l.tasks, other.repository = repository → other.workflow = deliveryWorkflow →
      other.sourceItem = some taskGid → (l.taskWorkspaces.get? other.id).isSome → other.id ≤ id) :
    l.continuationTarget repository taskGid = some (task, workspace) := by
  have hid := KeyedTable.key_of_get? ht
  let newer : Task × TaskWorkspace → Task × TaskWorkspace → Prop := fun a b => b.1.id ≤ a.1.id
  have : IsTrans _ newer := ⟨fun _ _ _ hab hbc => le_trans hbc hab⟩
  have : Std.Total newer := ⟨fun a b => le_total b.1.id a.1.id⟩
  let candidates := l.tasks.rows.filterMap fun task => (l.taskWorkspaces.get? task.id).bind
    fun workspace => if task.repository = repository && task.workflow = deliveryWorkflow &&
      task.sourceItem = some taskGid then some (task, workspace) else none
  have hmem : (task, workspace) ∈ candidates.insertionSort newer := by
    rw [(List.perm_insertionSort _ _).mem_iff, List.mem_filterMap]
    exact ⟨task, KeyedTable.mem_of_get? ht, by simp [hid, hw, hrepository, hworkflow, hitem]⟩
  have hsorted := List.pairwise_insertionSort newer candidates
  cases htarget : l.continuationTarget repository taskGid with
  | none =>
    rw [show candidates.insertionSort newer = [] from List.head?_eq_none_iff.mp htarget] at hmem
    cases hmem
  | some p =>
    obtain ⟨tail, htail⟩ : ∃ tail, candidates.insertionSort newer = p :: tail :=
      List.head?_eq_some_iff.mp htarget
    obtain ⟨htask, hworkspace, hfacts⟩ := of_continuationTarget htarget
    have hle : p.1.id ≤ id := hnewest p.1 (KeyedTable.mem_of_get? htask) hfacts.1 hfacts.2.1
      hfacts.2.2 (by simp [hworkspace])
    have hge : id ≤ p.1.id := by
      rw [htail] at hmem hsorted
      rcases List.mem_cons.mp hmem with rfl | hmem
      · exact hid.ge
      · exact hid ▸ (List.pairwise_cons.mp hsorted).1 _ hmem
    have heq : p.1.id = id := le_antisymm hle hge
    rw [heq, ht] at htask
    rw [heq, hw] at hworkspace
    rw [Option.some.inj htask, Option.some.inj hworkspace]

/-- A request for a target without a branch is refused. -/
theorem requestContinuation_isUnsafe {task : Task} {workspace : TaskWorkspace}
    (hvalid : validPullRequestEventKey repository taskGid fingerprint = true)
    (hunreserved : l.continuations.get? (repository, taskGid, fingerprint) = none)
    (htarget : l.continuationTarget repository taskGid = some (task, workspace))
    (hbranch : workspace.factoryBranch = none) :
    l.requestContinuation crates host repository taskGid fingerprint = .ok (.isUnsafe, l) := by
  have hguard : continuable crates task workspace = false := by simp [continuable, hbranch]
  simp only [requestContinuation, hvalid, Bool.not_true, Bool.false_eq_true, if_false]
  split
  · next hsome =>
    rw [hunreserved] at hsome
    cases hsome
  · simp [htarget, hguard]

/-- The delivery of the task `id` may be continued: it has succeeded, its labels authorise it, its
workspace is not cleaned and no delivery of the ticket is newer; and the request is new. -/
structure AwaitsContinuation (crates : Crates) (l : Ledger) (id : ℕ)
    (repository taskGid fingerprint : String) : Prop where
  task : ∃ task, l.tasks.get? id = some task ∧ task.kind = .ticket ∧ task.repository = repository ∧
    task.workflow = deliveryWorkflow ∧ task.sourceItem = some taskGid ∧ task.state = .succeeded ∧
    autonomous crates task.payload = true
  workspace : ∃ workspace, l.taskWorkspaces.get? id = some workspace ∧ workspace.state ≠ .cleaned
  newest : ∀ other ∈ l.tasks, other.repository = repository → other.workflow = deliveryWorkflow →
    other.sourceItem = some taskGid → (l.taskWorkspaces.get? other.id).isSome → other.id ≤ id
  valid : validPullRequestEventKey repository taskGid fingerprint = true
  unreserved : l.continuations.get? (repository, taskGid, fingerprint) = none
  below : l.continuations.rows.countP (isContinuationOf repository taskGid) < 3

/-- The request is answered `Queued` and puts the task back on the queue. -/
def Continues (id : ℕ) (result : LedgerResult ContinuationRequest) : Prop :=
  ∃ l' task, result = .ok (.queued, l') ∧ l'.tasks.get? id = some task ∧ task.state = .queued

/-- **The daemon's own deliveries are never continued.** Whatever happens after the daemon has
reserved its workspace for a task, a request to continue that delivery is not granted. -/
theorem daemon_delivery_not_continued (crates : Crates) (before after : List Call)
    (host host' : Host) (task : Task) (workspaceRoot : String) (sandboxed : Bool)
    (baseBranch baseSha : String) (reserved : TaskWorkspace) (l : Ledger)
    (repository taskGid fingerprint : String)
    (hreserve : (Ledger.empty.runCalls crates before).reserveTaskWorkspace host
      (taskWorkspaceCandidate task workspaceRoot sandboxed baseBranch baseSha) = .ok (reserved, l))
    (hawaits : (l.runCalls crates after).AwaitsContinuation crates task.id repository taskGid
      fingerprint) :
    ¬ Continues task.id
      ((l.runCalls crates after).requestContinuation crates host' repository taskGid fingerprint) := by
  obtain ⟨row, hrow, hfacts⟩ := reserveTaskWorkspace_row hreserve
  obtain ⟨workspace, hworkspace, hkept⟩ := (runCalls_changes crates l after).workspaces _ _ hrow
  obtain ⟨t, ht, -, hrepository, hworkflow, hitem, -⟩ := hawaits.task
  have htarget := continuationTarget_eq ht hworkspace hrepository hworkflow hitem hawaits.newest
  have hbranch : workspace.factoryBranch = none := by
    have hall := hkept.trans hfacts
    simp only [workspaceFacts, Prod.mk.injEq] at hall
    exact hall.2.2.2.2.2.1
  rintro ⟨l', task', h, -⟩
  rw [requestContinuation_isUnsafe hawaits.valid hawaits.unreserved htarget hbranch] at h
  cases h

/-- The first task is claimed. -/
def claimedFirst : List Call := exampleCalls [exampleDaemon, examplePoll "r1" true, exampleClaim]

/-- The daemon has reserved a worktree for it. -/
def reservedFirst : Ledger := Ledger.empty.runCalls exampleCrates (claimedFirst ++ exampleCalls
  [.reserveTaskWorkspace (taskWorkspaceCandidate
    (queuedTask (.ticket "acme/site" "implement" "101" "r1") (some examplePayload) 1000000 1)
    "/srv/work" false "main" "c0ffee")])

/-- It succeeds, and its worktree is retained. -/
def deliveredFirst : List Call :=
  exampleCalls [exampleSuccess 1, .updateTaskWorkspaceState 1 "retained" none]

theorem awaitsContinuation_deliveredFirst :
    (reservedFirst.runCalls exampleCrates deliveredFirst).AwaitsContinuation exampleCrates 1
      "acme/site" "101" (String.ofList (List.replicate 64 'a')) where
  task := ⟨_, rfl, by decide, by decide, by decide, by decide, by decide, by decide⟩
  workspace := ⟨_, rfl, by decide⟩
  newest := by decide
  valid := by decide
  unreserved := rfl
  below := by decide

theorem not_continued_deliveredFirst : ¬ Continues 1
    ((reservedFirst.runCalls exampleCrates deliveredFirst).requestContinuation exampleCrates
      exampleHost "acme/site" "101" (String.ofList (List.replicate 64 'a'))) :=
  daemon_delivery_not_continued exampleCrates claimedFirst deliveredFirst exampleHost exampleHost
    (queuedTask (.ticket "acme/site" "implement" "101" "r1") (some examplePayload) 1000000 1)
    "/srv/work" false "main" "c0ffee" _ reservedFirst "acme/site" "101" _ rfl
    awaitsContinuation_deliveredFirst

theorem delivery_not_live : ¬ ∀ (crates : Crates) (before after : List Call) (host host' : Host)
    (task : Task) (workspaceRoot : String) (sandboxed : Bool) (baseBranch baseSha : String)
    (reserved : TaskWorkspace) (l : Ledger) (repository taskGid fingerprint : String),
    (Ledger.empty.runCalls crates before).reserveTaskWorkspace host
      (taskWorkspaceCandidate task workspaceRoot sandboxed baseBranch baseSha) = .ok (reserved, l) →
    (l.runCalls crates after).AwaitsContinuation crates task.id repository taskGid fingerprint →
    Continues task.id
      ((l.runCalls crates after).requestContinuation crates host' repository taskGid fingerprint) := by
  intro h
  obtain ⟨l', task, hqueued, -⟩ := h exampleCrates claimedFirst deliveredFirst exampleHost exampleHost
    (queuedTask (.ticket "acme/site" "implement" "101" "r1") (some examplePayload) 1000000 1)
    "/srv/work" false "main" "c0ffee" _ reservedFirst "acme/site" "101" _ rfl
    awaitsContinuation_deliveredFirst
  have hrefused : (reservedFirst.runCalls exampleCrates deliveredFirst).requestContinuation exampleCrates
      exampleHost "acme/site" "101" (String.ofList (List.replicate 64 'a')) =
        .ok (.isUnsafe, reservedFirst.runCalls exampleCrates deliveredFirst) := rfl
  rw [hrefused] at hqueued
  cases hqueued

end Ledger
end FlashyFactory
