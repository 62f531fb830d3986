import FlashyFactory.Workspace.Rules

/-! # Preparing a retry

What `prepare_task_workspace` does with a workspace that the task owns already: when it succeeds
and leaves `HEAD`, the branch, the index and the files of the directory as they are. -/

namespace FlashyFactory
open Git.Repository

/-- The ledger has a row for the task, which may be `ready`, and the run is running. -/
def Prepare.Confirmable (taskId runId : ℕ) (l : Ledger) : Prop :=
  l.taskWorkspaces.hits taskId (fun row => !l.superseded row) = true ∧
    l.runs.hits runId Ledger.isRunning = true

/-- A prepared workspace that matches its row is confirmed; nothing but the ledger changes. -/
theorem Prepare.succeeds_confirm {env : Services} {s : Site} {workspace : TaskWorkspace}
    {mismatch : String} {path : AbsPath} {branch : Option String} {baseBranch baseSha : String}
    {Q : AbsPath → Site → Prop} (hQ : ∀ p s l, Q p { s with ledger := l } ↔ Q p s) :
    Succeeds (confirm env taskId workspace mismatch runId path branch baseBranch baseSha) s Q ↔
      (some path = workspace.path? ∧ branch = workspace.factoryBranch ∧
        baseBranch = workspace.baseBranch ∧ baseSha = workspace.baseSha) ∧
        Confirmable taskId runId s.ledger ∧ Q path s := by
  have hready : WorkspaceState.ofStr? "ready" = some .ready := rfl
  by_cases hrow : s.ledger.taskWorkspaces.hits taskId (fun row => !s.ledger.superseded row) = true
  · obtain ⟨l, hupdate, hruns⟩ : ∃ l, s.ledger.updateTaskWorkspaceState env.host taskId "ready" none =
        .ok ((), l) ∧ l.runs = s.ledger.runs := by
      obtain ⟨row, hget, hfree⟩ := KeyedTable.hits_iff.mp hrow
      simp only [Ledger.updateTaskWorkspaceState, hready, hget]
      rw [if_neg (by simpa using hfree)]
      exact ⟨_, rfl, rfl⟩
    by_cases hrun : s.ledger.runs.hits runId Ledger.isRunning = true
    · obtain ⟨l', hrecord⟩ : ∃ l', l.recordRunWorkspace runId path.display baseBranch baseSha branch
          workspace.kind.text = .ok ((), l') := by
        rw [Ledger.recordRunWorkspace, Ledger.updateRunning, hruns, if_pos hrun]
        exact ⟨_, rfl⟩
      simp [confirm, Confirmable, hupdate, hrecord, hrow, hrun, hQ, and_assoc]
    · have hrecord : l.recordRunWorkspace runId path.display baseBranch baseSha branch
          workspace.kind.text = .error (.runGoneBeforeWorkspace runId) := by
        rw [Ledger.recordRunWorkspace, Ledger.updateRunning, hruns, if_neg hrun]
      simp [confirm, Confirmable, hupdate, hrecord, hrun]
  · obtain ⟨e, hupdate⟩ : ∃ e, s.ledger.updateTaskWorkspaceState env.host taskId "ready" none =
        .error e := by
      simp only [Ledger.updateTaskWorkspaceState, hready]
      split
      · exact ⟨_, rfl⟩
      · next row hget =>
        have hsuperseded : s.ledger.superseded row = true := by
          by_contra hfree
          exact hrow (KeyedTable.hits_iff.mpr ⟨row, hget, by simpa using hfree⟩)
        exact ⟨_, if_pos (by simp [hsuperseded])⟩
    simp [confirm, Confirmable, hupdate, hrow]

/-- A call of `prepare_task_workspace`. -/
structure Retry (ω : Type) where
  target : RepositoryTarget ω
  repositoryIdentity : String
  workspaceRoot : AbsPath
  task : Task
  runId : ℕ
  sandboxed : Bool
  repositoryTokenEnv : Option String

def Retry.prepare (env : Services) (c : Retry ω) : Act (RepositoryTarget ω) :=
  prepareTaskWorkspace env c.target c.repositoryIdentity c.workspaceRoot c.task c.runId c.sandboxed
    c.repositoryTokenEnv

/-- The name of the directory that the backend prepares for a task, and the branch it prepares. -/
inductive Named (env : Services) (task : Task) : WorkspaceBackend → String → Option String → Prop
  | proposal : Named env task .worktree (proposalDirectory task.id) none
  | triage : Named env task .clone (triageDirectory task.id) none
  | delivery : ticketSummary env.ticketContexts task = .ok ticket → ticket.number ≠ 0 →
    WorkspaceManager.ValidBranch env (WorkspaceManager.deliveryBranch ticket.number ticket.title) →
    Named env task backend (issueDirectory ticket.number)
      (some (WorkspaceManager.deliveryBranch ticket.number ticket.title))

theorem Named.plain {env : Services} {task : Task} {backend : WorkspaceBackend} {name : String}
    {branch : Option String} (h : Named env task backend name branch) : AbsPath.Plain name := by
  cases h with
  | proposal | triage | delivery =>
    exact AbsPath.plain_numbered (by decide) (by decide) (by decide) _

/-- The next run of a task is prepared that owns `workspace`, whose directory `path` holds the
working tree `t` in the repository `r`. -/
structure Owned (env : Services) (s : Site) (c : Retry ω) (manager : WorkspaceManager)
    (workspace : TaskWorkspace) (path : AbsPath) (r : GitRepository) (t : WorkTree) : Prop where
  row : s.ledger.taskWorkspaces.get? c.task.id = some workspace
  not_preparing : workspace.state ≠ .preparing
  not_cleaned : workspace.state ≠ .cleaned
  task_id : c.task.id ≠ 0
  task_repository : c.task.repository = c.repositoryIdentity
  repository : workspace.repository = c.repositoryIdentity
  backend : workspace.backend = expectedBackend c.sandboxed
  running : s.ledger.runs.hits c.runId Ledger.isRunning = true
  root : env.canonicalize c.workspaceRoot = some manager.workspaceRoot
  accepted : WorkspaceManager.new env s c.target.path manager.workspaceRoot.toAbsPath = .ok manager
  named : ∃ name, Named env c.task workspace.backend name workspace.factoryBranch ∧
    path = manager.workspaceRoot.join name ∧
    workspace.path = joinPath manager.workspaceRoot.display name
  base_branch : WorkspaceManager.ValidBranch env workspace.baseBranch
  base_sha : validateRevision workspace.baseSha = .ok ()
  /-- The directory stands, and its `HEAD` is a commit. -/
  directory : s.pathExists path = true
  holds : s.repository? workspace.backend path = some r
  work_tree : r.workTree? path = some t
  born : (r.commitAt? t.head).isSome
  base_known : (r.tree? workspace.baseSha).isSome
  /-- The remote is reachable and serves the base branch. -/
  serves : CloneManager.Serves s workspace.baseBranch
  identity : validateRepository env.provider c.task.repository = .ok ()
  token : c.sandboxed = true → ∃ name token, c.repositoryTokenEnv = some name ∧
    env.env name = some token ∧ isBlank token = false
  origin : ∀ clone, s.clone? path = some clone →
    checkOrigin env.provider c.task.repository clone.origin = .ok ()

/-- What is checked out is what the preparation asks for. -/
def ReservationCheckedOut (s : Site) (workspace : TaskWorkspace) (path : AbsPath) (t : WorkTree) :
    Prop :=
  match workspace.backend, workspace.factoryBranch with
  | .worktree, none => ∃ sha, t.head = .detached sha
  | .worktree, some branch => WorkspaceManager.OnlyAt s branch path t
  | .clone, none => t.head = .detached workspace.baseSha ∧ t.isUnmerged = false
  | .clone, some branch => t.head = .branch branch ∧ t.isUnmerged = false

namespace WorkspaceManager
variable {env : Services} {s : Site} {m : WorkspaceManager}

theorem canonicalDirectory_ok {name : String} {path : AbsPath} {directory : CanonicalPath}
    (h : canonicalDirectory env s name path = .ok directory) :
    env.canonicalize path = some directory ∧ s.isDir directory.toAbsPath = true := by
  simp only [canonicalDirectory] at h
  split at h
  · next d hd =>
    split at h
    · next hdir =>
      cases h
      exact ⟨hd, hdir⟩
    · cases h
  · cases h

/-- What `new` has checked. -/
theorem new_ok {repository root : AbsPath} (h : new env s repository root = .ok m) :
    env.canonicalize root = some m.workspaceRoot ∧ s.isDir m.workspaceRoot.toAbsPath = true ∧
      m.repository.startsWith m.workspaceRoot.toAbsPath = false := by
  simp only [new] at h
  split at h
  · cases h
  · split at h
    · cases h
    · next root' hroot =>
      split at h
      · cases h
      · next houtside =>
        simp only [Bool.or_eq_true, decide_eq_true_eq, not_or, Bool.not_eq_true] at houtside
        split at h
        · cases h
        · split at h
          · cases h
          · cases h
            obtain ⟨hcanonical, hdir⟩ := canonicalDirectory_ok hroot
            exact ⟨hcanonical, hdir, houtside.1.2⟩

end WorkspaceManager

namespace Owned
variable {ω : Type} {env : Services} {s : Site} {c : Retry ω} {manager : WorkspaceManager}
  {workspace : TaskWorkspace} {path : AbsPath} {r : GitRepository} {t : WorkTree}

theorem plain (h : Owned env s c manager workspace path r t) :
    ∀ component ∈ path.components, AbsPath.Plain component := by
  obtain ⟨name, hnamed, rfl, -⟩ := h.named
  intro component hcomponent
  rcases List.mem_append.mp hcomponent with hroot | hname
  · exact manager.workspaceRoot.plain component hroot
  · rw [List.mem_singleton.mp hname]
    exact hnamed.plain

theorem path? (h : Owned env s c manager workspace path r t) : workspace.path? = some path := by
  obtain ⟨name, -, rfl, hpath⟩ := h.named
  rw [TaskWorkspace.path?, hpath, AbsPath.joinPath_display manager.workspaceRoot.plain]
  exact AbsPath.ofStr?_display h.plain

theorem managed (h : Owned env s c manager workspace path r t) : manager.Managed path where
  no_parent hparent := (h.plain _ hparent).not_parent rfl
  parent := by
    obtain ⟨name, -, rfl, -⟩ := h.named
    exact AbsPath.parent_join _ _
  not_checkout heq := by
    have houtside := (WorkspaceManager.new_ok h.accepted).2.2
    obtain ⟨name, -, rfl, -⟩ := h.named
    rw [← heq] at houtside
    have hinside : manager.workspaceRoot.components.isPrefixOf
        (manager.workspaceRoot.components ++ [name]) = true :=
      List.isPrefixOf_iff_prefix.mpr (List.prefix_append _ _)
    rw [AbsPath.startsWith, AbsPath.join, hinside] at houtside
    cases houtside

end Owned

namespace Prepare
variable {env : Services} {s : Site} {task : Task} {workspace : TaskWorkspace} {identity : String}

theorem succeeds_checkOwner {Q : Unit → Site → Prop} (htask : task.repository = identity)
    (hrow : workspace.repository = identity) :
    Succeeds (checkOwner env identity task (some workspace)) s Q ↔ Q () s := by
  simp [checkOwner, htask, hrow]

theorem succeeds_workspaceOf {manager : WorkspaceManager} {root : CanonicalPath}
    {Q : TaskWorkspace × DeliveryReuse → Site → Prop} (hcleaned : workspace.state ≠ .cleaned)
    (hpreparing : workspace.state ≠ .preparing) :
    Succeeds (workspaceOf env manager root task sandboxed (some workspace)) s Q ↔
      Q (workspace, .owned) s := by
  simp [workspaceOf, hcleaned, hpreparing]

end Prepare

namespace Owned
variable {ω : Type} {env : Services} {s : Site} {c : Retry ω} {manager : WorkspaceManager}
  {workspace : TaskWorkspace} {path : AbsPath} {r : GitRepository} {t : WorkTree}

/-- The preparation of an owned workspace is that of its backend. -/
theorem succeeds_prepare {Q : AbsPath → Site → Prop} (h : Owned env s c manager workspace path r t) :
    Succeeds (c.prepare env) s (fun target s' => Q target.path s') ↔
      Succeeds (Prepare.withBackend env manager manager.workspaceRoot.toAbsPath c.task workspace .owned
        c.runId c.sandboxed c.repositoryTokenEnv) s Q := by
  have hbackend : decide (workspace.backend ≠ expectedBackend c.sandboxed) = false := by
    simp [h.backend]
  simp only [Retry.prepare, prepareTaskWorkspace, h.root, h.row, Succeeds.bind_iff, Succeeds.get_iff,
    Prepare.succeeds_checkOwner h.task_repository h.repository, Act.succeeds_lift, h.accepted,
    Except.ok.injEq, exists_eq_left', Prepare.succeeds_workspaceOf h.not_cleaned h.not_preparing,
    Act.succeeds_bailIf, hbackend, true_and, Succeeds.pure_iff]

/-- What a retry must leave behind. -/
def Leaves (s : Site) (workspace : TaskWorkspace) (path p : AbsPath) (s' : Site) : Prop :=
  p = path ∧ s'.view? workspace.backend path = s.view? workspace.backend path

theorem leaves_ledger (p : AbsPath) (s' : Site) (l : Ledger) :
    Leaves s workspace path p { s' with ledger := l } ↔ Leaves s workspace path p s' := by
  unfold Leaves
  cases workspace.backend <;> exact Iff.rfl

theorem confirmable (h : Owned env s c manager workspace path r t) :
    Prepare.Confirmable c.task.id c.runId s.ledger :=
  ⟨KeyedTable.hits_iff.mpr ⟨workspace, h.row, by simp [Ledger.superseded, h.not_cleaned]⟩, h.running⟩

theorem sandboxed_eq (h : Owned env s c manager workspace path r t) :
    c.sandboxed = decide (workspace.backend = .clone) := by
  rw [h.backend, expectedBackend]
  cases c.sandboxed <;> rfl

/-- A worktree. -/
theorem succeeds_worktree (h : Owned env s c manager workspace path r t)
    (hbackend : workspace.backend = .worktree) :
    Succeeds (Prepare.withBackend env manager manager.workspaceRoot.toAbsPath c.task workspace .owned
        c.runId c.sandboxed c.repositoryTokenEnv) s (Leaves s workspace path) ↔
      ReservationCheckedOut s workspace path t := by
  have hsandboxed : c.sandboxed = false := by rw [h.sandboxed_eq, hbackend]; rfl
  obtain rfl : s.canonical = r := by
    have hholds := h.holds
    rw [hbackend] at hholds
    exact Option.some.inj hholds
  have hview : (WorkspaceManager.pruned s).view? .worktree path = s.view? .worktree path :=
    view?_prune h.directory
  obtain ⟨name, hnamed, hpath, -⟩ := h.named
  rw [hbackend] at hnamed
  simp only [Prepare.withBackend, hsandboxed, Bool.false_eq_true, if_false, Succeeds.bind_iff,
    Prepare.succeeds_confirm leaves_ledger, ReservationCheckedOut, hbackend]
  cases hfactory : workspace.factoryBranch with
  | none =>
    rw [hfactory] at hnamed
    cases hnamed
    simp only [Prepare.worktreeFor, hfactory, Option.isSome_none, Bool.false_eq_true, if_false]
    rw [WorkspaceManager.succeeds_prepareProposal h.task_id h.base_branch h.base_sha h.base_known hpath
      h.managed h.directory h.work_tree]
    simp [h.path?, Leaves, hbackend, hview, Git.Head.branch?_eq_none,
      show (WorkspaceManager.pruned s).ledger = s.ledger from rfl, h.confirmable]
  | some branch =>
    rw [hfactory] at hnamed
    cases hnamed with
    | delivery hticket hnumber hvalid =>
      simp only [Prepare.worktreeFor, hfactory, Option.isSome_some, if_true, Succeeds.bind_iff,
        Act.succeeds_lift, hticket, Except.ok.injEq, exists_eq_left']
      rw [WorkspaceManager.succeeds_prepareDelivery hnumber h.base_branch hvalid h.base_sha h.base_known
        hpath h.managed h.directory h.work_tree fun p s' hp => hp.2.2.1]
      simp [h.path?, Leaves, hbackend, hview,
        show (WorkspaceManager.pruned s).ledger = s.ledger from rfl, h.confirmable]

theorem cloneManager (h : Owned env s c manager workspace path r t) :
    CloneManager.new env s manager.workspaceRoot.toAbsPath = .ok ⟨manager.workspaceRoot⟩ := by
  obtain ⟨hcanonical, hdir, -⟩ := WorkspaceManager.new_ok h.accepted
  simp only [CloneManager.new, hcanonical]
  rw [if_pos hdir]

/-- A clone. -/
theorem succeeds_clone (h : Owned env s c manager workspace path r t)
    (hbackend : workspace.backend = .clone) :
    Succeeds (Prepare.withBackend env manager manager.workspaceRoot.toAbsPath c.task workspace .owned
        c.runId c.sandboxed c.repositoryTokenEnv) s (Leaves s workspace path) ↔
      ReservationCheckedOut s workspace path t := by
  have hsandboxed : c.sandboxed = true := by rw [h.sandboxed_eq, hbackend]; rfl
  obtain ⟨clone, hclone, rfl⟩ : ∃ clone, s.clone? path = some clone ∧ clone.repository = r := by
    have hholds := h.holds
    rw [hbackend] at hholds
    exact Option.map_eq_some_iff.mp hholds
  obtain ⟨tokenEnv, token, htokenEnv, htoken, hblank⟩ := h.token hsandboxed
  have hview : s.view? .clone path = clone.repository.view? path := by
    simp [Site.view?, Site.repository?, hclone]
  obtain ⟨name, hnamed, hpath, -⟩ := h.named
  rw [hbackend] at hnamed
  -- the confirmation, as a condition on the clone and the ledger that the preparation leaves
  let L : StandaloneClone → Ledger → Prop := fun p l =>
    (some p.path = workspace.path? ∧ p.branch = workspace.factoryBranch ∧
      p.baseBranch = workspace.baseBranch ∧ p.baseSha = workspace.baseSha) ∧
      Prepare.Confirmable c.task.id c.runId l ∧ p.path = path
  have hleft : ∀ (p : StandaloneClone) (s' : Site),
      ((some p.path = workspace.path? ∧ p.branch = workspace.factoryBranch ∧
        p.baseBranch = workspace.baseBranch ∧ p.baseSha = workspace.baseSha) ∧
        Prepare.Confirmable c.task.id c.runId s'.ledger ∧ Leaves s workspace path p.path s') ↔
        CloneManager.Left path (clone.repository.view? path) (L p) s' := by
    intro p s'
    simp only [Leaves, CloneManager.Left, L, hbackend, hview]
    tauto
  have hL (branch : Option String) (hbranch : branch = workspace.factoryBranch) :
      L ⟨path, branch, workspace.baseBranch, workspace.baseSha⟩ s.ledger :=
    ⟨⟨h.path?.symm, hbranch, rfl, rfl⟩, h.confirmable, rfl⟩
  obtain ⟨hcanonical, -, -⟩ := WorkspaceManager.new_ok h.accepted
  simp only [Prepare.withBackend, hsandboxed, if_true, Succeeds.bind_iff,
    Prepare.succeeds_confirm leaves_ledger, ReservationCheckedOut, hbackend, Prepare.cloneFor,
    htokenEnv, Succeeds.get_iff, Act.succeeds_lift, h.cloneManager, Except.ok.injEq, exists_eq_left',
    Succeeds.congr hleft]
  cases hfactory : workspace.factoryBranch with
  | none =>
    rw [hfactory] at hnamed
    cases hnamed
    simp only [Option.isSome_none, Bool.false_eq_true, if_false, CloneManager.prepareProposal]
    rw [CloneManager.succeeds_prepare hcanonical h.task_id (by simp) h.identity h.base_sha rfl
      (if_neg Bool.false_ne_true).symm htoken hblank hpath hclone (h.origin clone hclone) h.serves h.work_tree h.born
      h.base_known]
    simp [hL none hfactory.symm, Git.Head.onto]
  | some branch =>
    rw [hfactory] at hnamed
    cases hnamed with
    | delivery hticket hnumber hvalid =>
      simp only [Option.isSome_some, if_true, Succeeds.bind_iff, Act.succeeds_lift, hticket,
        Except.ok.injEq, exists_eq_left']
      rw [CloneManager.succeeds_prepare hcanonical h.task_id (fun _ => hnumber) h.identity
        h.base_sha rfl (if_pos rfl).symm htoken hblank hpath hclone (h.origin clone hclone) h.serves
        h.work_tree h.born h.base_known]
      simp [hL _ hfactory.symm, Git.Head.onto]

end Owned

/-- **When a retry keeps its workspace.** The preparation of the next run succeeds and leaves what
the directory holds exactly if what is checked out there is what the preparation asks for. -/
theorem retry_keeps_workspace_iff {ω : Type} (env : Services) (s : Site) (c : Retry ω)
    (manager : WorkspaceManager) (workspace : TaskWorkspace) (path : AbsPath) (r : GitRepository)
    (t : WorkTree) (h : Owned env s c manager workspace path r t) :
    Succeeds (c.prepare env) s (fun target s' => target.path = path ∧
        s'.view? workspace.backend path = s.view? workspace.backend path) ↔
      ReservationCheckedOut s workspace path t := by
  refine (h.succeeds_prepare (Q := Owned.Leaves s workspace path)).trans ?_
  cases hbackend : workspace.backend with
  | worktree => exact h.succeeds_worktree hbackend
  | clone => exact h.succeeds_clone hbackend

/-! ### A task of Docker Sandbox mode -/

instance : DecidablePred AbsPath.Plain := fun name =>
  decidable_of_iff (name ≠ "" ∧ name ≠ "." ∧ name ≠ ".." ∧ '/' ∉ name.toList)
    ⟨fun h => ⟨h.1, h.2.1, h.2.2.1, h.2.2.2⟩, fun h => ⟨h.1, h.2, h.3, h.4⟩⟩

def exampleSha (digit : Char) : String := String.ofList (List.replicate 40 digit)

def exampleServices : Services where
  provider := .gitHub
  host := exampleHost
  canonicalize path := if h : ∀ c ∈ path.components, AbsPath.Plain c then some ⟨path, h⟩ else none
  osError := "No such file or directory (os error 2)"
  stderr _ := "fatal"
  exitStatus _ := "exit status: 1"
  checkRefFormat _ := true
  env name := if name = "GH_TOKEN" then some "token" else none
  defaultBranch _ := .ok "main"
  cloneRepository _ _ := .error ["offline"]
  ticketContexts :=
    { source _ := none, project _ := none, label _ := none, ticket _ := none, complaint _ := "" }

/-- A commit of the agent on top of the base, or the base itself. -/
def exampleHead (committed : Bool) : String := exampleSha (if committed then 'b' else 'a')

/-- A repository with one working tree, whose `HEAD` is detached. -/
def exampleRepository (dir : AbsPath) (committed : Bool) : GitRepository where
  main := dir
  commits := ((∅ : AList fun _ : String => Git.Tree String String).insert (exampleSha 'a') ∅).insert
    (exampleSha 'b') ((∅ : Git.Tree String String).insert "fix.rs" "fn main")
  branches := ∅
  remoteBranches := ∅
  workTrees := (∅ : KeyedTable (Git.WorkTree.dir : WorkTree → AbsPath)).upsert
    (.fresh dir (.detached (exampleHead committed)) ∅)
  ignored _ := false
  branches_known := by decide
  remoteBranches_known := by decide
  heads_known t ht c hc := by
    obtain rfl := List.mem_singleton.mp ht
    cases hc
    cases committed <;> decide

def exampleClonePath : AbsPath := ⟨["srv", "work", "triage-1"]⟩

/-- The task owns a clone, which its first run has left, and is claimed again. -/
def exampleLedger : Ledger := Ledger.empty.runCalls exampleCrates (exampleCalls
  [exampleDaemon, examplePoll "r1" true, exampleClaim,
    .reserveTaskWorkspace (taskWorkspaceCandidate
      (Ledger.queuedTask (.ticket "acme/site" "implement" "101" "r1") (some examplePayload) 1000000 1)
      "/srv/work" true "main" (exampleSha 'a')),
    .updateTaskWorkspaceState 1 "ready" none, .failPrelaunchAndRequeue 1 "offline", exampleClaim])

def exampleSite (committed : Bool) : Site where
  ledger := exampleLedger
  canonical := exampleRepository ⟨["srv", "site"]⟩ false
  entries := ((((∅ : AList fun _ : AbsPath => DirEntry).insert ⟨["srv"]⟩ .directory).insert
    ⟨["srv", "site"]⟩ .directory).insert ⟨["srv", "work"]⟩ .directory).insert exampleClonePath
      (.clone { repository := exampleRepository exampleClonePath committed,
                origin := "https://github.com/acme/site.git", config := fun _ => [] })
  remote := some fun branch => if branch = "main" then
    some ⟨exampleSha 'a', (∅ : AList fun _ : String => Git.Tree String String).insert (exampleSha 'a') ∅,
      by decide⟩ else none

def exampleRetry : Retry Unit where
  target := ⟨⟨["srv", "site"]⟩, .gitHub, "acme/site", ()⟩
  repositoryIdentity := "acme/site"
  workspaceRoot := ⟨["srv", "work"]⟩
  task := Ledger.queuedTask (.ticket "acme/site" "implement" "101" "r1") (some examplePayload) 1000000 1
  runId := 2
  sandboxed := true
  repositoryTokenEnv := some "GH_TOKEN"

def exampleManager : WorkspaceManager where
  repository := ⟨⟨["srv", "site"]⟩, by decide⟩
  workspaceRoot := ⟨⟨["srv", "work"]⟩, by decide⟩

def exampleCloneRow : TaskWorkspace :=
  { taskWorkspaceCandidate exampleRetry.task "/srv/work" true "main" (exampleSha 'a') with
    state := .ready, createdAt := 1000000, updatedAt := 1000000 }

theorem exampleLedger_row : exampleLedger.taskWorkspaces.get? 1 = some exampleCloneRow := by rfl

theorem exampleLedger_running : exampleLedger.runs.hits 2 Ledger.isRunning = true := by rfl

theorem owned_example (committed : Bool) : Owned exampleServices (exampleSite committed) exampleRetry
    exampleManager exampleCloneRow exampleClonePath (exampleRepository exampleClonePath committed)
    (.fresh exampleClonePath (.detached (exampleHead committed)) ∅) where
  row := exampleLedger_row
  not_preparing := by decide
  not_cleaned := by decide
  task_id := by decide
  task_repository := by decide
  repository := by decide
  backend := by decide
  running := exampleLedger_running
  root := by decide
  accepted := by rfl
  named := ⟨_, .triage, by decide, by decide⟩
  base_branch := ⟨by decide, by decide, rfl⟩
  base_sha := by decide
  directory := by rfl
  holds := by rfl
  work_tree := by rfl
  born := by rfl
  base_known := by rfl
  serves := ⟨_, _, rfl, rfl⟩
  identity := by decide
  token _ := ⟨"GH_TOKEN", "token", rfl, rfl, by decide⟩
  origin clone h := by
    cases h
    have horigin : checkOrigin .gitHub "acme/site" "https://github.com/acme/site.git" = .ok () := by
      decide
    exact horigin

theorem retry_keeps_workspace_atBase :
    Succeeds (exampleRetry.prepare exampleServices) (exampleSite false) fun target s' =>
      target.path = exampleClonePath ∧
        s'.view? .clone exampleClonePath = (exampleSite false).view? .clone exampleClonePath :=
  (retry_keeps_workspace_iff exampleServices (exampleSite false) exampleRetry exampleManager
    exampleCloneRow exampleClonePath _ _ (owned_example false)).mpr ⟨rfl, rfl⟩

/-- The commit that the agent has made in its clone is not checked out any more. -/
theorem retry_leaves_commit : ¬ ∀ (ω : Type) (env : Services) (s : Site) (c : Retry ω)
    (manager : WorkspaceManager) (workspace : TaskWorkspace) (path : AbsPath) (r : GitRepository)
    (t : WorkTree), Owned env s c manager workspace path r t →
      Succeeds (c.prepare env) s fun target s' => target.path = path ∧
        s'.view? workspace.backend path = s.view? workspace.backend path := by
  intro h
  have hkept := h Unit exampleServices (exampleSite true) exampleRetry exampleManager
    exampleCloneRow exampleClonePath _ _ (owned_example true)
  have hclone := ((owned_example true).succeeds_prepare
    (Q := Owned.Leaves (exampleSite true) exampleCloneRow exampleClonePath)).mp hkept
  have hhead := (((owned_example true).succeeds_clone rfl).mp hclone).1
  exact absurd (Git.Head.detached.inj hhead) (by decide)

end FlashyFactory
