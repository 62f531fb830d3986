import FlashyFactory.Lib.Evidence
import FlashyFactory.Workspace.Removal
import FlashyFactory.Workspace.Rules

/-! # What justifies a removal

`Justified` says what a process has seen of a workspace before it removes its directory, and the rules say
that each function of `Removal` removes nothing without such a justification, whatever else happens to the
site meanwhile. -/

namespace FlashyFactory

namespace Site

/-- The branch is checked out in the directory, as the backend sees it. -/
def CheckedOut (w : Site) (backend : WorkspaceBackend) (path : AbsPath) (branch : String) : Prop :=
  match backend with
  | .worktree => ∃ t, w.canonical.workTree? path = some t ∧ t.head = .branch branch
  | .clone => w.currentBranch path = .ok (some branch)

/-- What is compared with the remote: the tip of the branch, and in a clone its `HEAD`. -/
def tip? (w : Site) (backend : WorkspaceBackend) (path : AbsPath) (branch : String) : Option String :=
  match backend with
  | .worktree => w.canonical.branches.lookup branch
  | .clone => (w.head path).toOption

end Site

namespace Removal
open Process Script

/-- The branch stood where it stands at the remote. -/
def Pushed (seen : Set Site) (backend : WorkspaceBackend) (path : AbsPath) (branch : String) : Prop :=
  ∃ tip, Once seen (fun w => w.tip? backend path branch = some tip) ∧
    Once seen (fun w => Git.Repository.lsRemote w.remote branch = .ok (some tip))

/-- A branch that was checked out in the directory is pushed. -/
def Published (seen : Set Site) (backend : WorkspaceBackend) (path : AbsPath) : Prop :=
  ∃ branch, Once seen (fun w => w.CheckedOut backend path branch) ∧ Pushed seen backend path branch

/-- What an automatic removal of a delivery has found out about it. -/
structure Inspected (seen : Set Site) (row : TaskWorkspace) (path : AbsPath) : Prop where
  succeeded : Once seen fun w => ∃ task, w.ledger.tasks.get? row.taskId = some task ∧ task.state = .succeeded
  clean : Once seen fun w => w.status path = .ok false
  safe : Once seen (fun w => w.head path = .ok row.baseSha) ∨ Published seen row.backend path

/-- The process is about the task. A startup is about those whose workspace it can have found not cleaned. -/
def Concerns (role : Role) (seen : Set Site) (taskId : ℕ) : Prop :=
  match role with
  | .finalize id => taskId = id
  | .startup _ => Once seen fun w => ∃ row, w.ledger.taskWorkspaces.get? taskId = some row ∧ row.state ≠ .cleaned
  | .cleanup runId _ _ => Once seen fun w => ∃ run, w.ledger.runs.get? runId = some run ∧ run.taskId = taskId

/-- The process is an operator who has confirmed the removal. -/
def Role.confirms : Role → Bool
  | cleanup _ confirm _ => confirm
  | _ => false

/-- An operator has confirmed the removal, and the task has been found neither queued nor running. -/
structure Confirmed (role : Role) (seen : Set Site) (taskId : ℕ) : Prop where
  operator : role.confirms = true
  concerns : Concerns role seen taskId
  terminal : Once seen fun w => ∃ task, w.ledger.tasks.get? taskId = some task ∧ task.state.isTerminal = true

/-- The ledger says that an operator has confirmed the removal. -/
def Marked (row : TaskWorkspace) : Prop :=
  row.state = .cleanupPending ∧ row.statusSummary = some operatorConfirmedCleanup

/-- Why the directory of a row may be removed. -/
def Cleared (role : Role) (seen : Set Site) (row : TaskWorkspace) (path : AbsPath) : Prop :=
  row.kind = .proposal ∨ Confirmed role seen row.taskId ∨ Marked row ∨ Inspected seen row path

/-- The row has been read. -/
def HasRow (seen : Set Site) (row : TaskWorkspace) : Prop :=
  Once seen fun w => w.ledger.taskWorkspaces.get? row.taskId = some row

/-- Why a directory may be removed: it is that of a workspace, whose row has been read. -/
structure Justified (role : Role) (seen : Set Site) (path : AbsPath) (row : TaskWorkspace) : Prop where
  hasRow : HasRow seen row
  directory : row.path? = some path
  concerns : Concerns role seen row.taskId
  cleared : Cleared role seen row path

/-- What a process may do, given what it has seen. -/
def Allowed (role : Role) (seen : Set Site) : Cmd → Prop
  | .write (.updateTaskWorkspaceState taskId state statusSummary) =>
    state = "cleanup_pending" → statusSummary = some operatorConfirmedCleanup → Confirmed role seen taskId
  | .write (.recoverOrphanedRunsForRepository _) => True
  | .write _ => False
  | c => ∀ path, c.removes = some path → ∃ row, Justified role seen path row

section
variable {role : Role} {seen seen' : Set Site} {row : TaskWorkspace} {path : AbsPath} {backend : WorkspaceBackend}

theorem Pushed.grow {branch : String} (h : Pushed seen backend path branch) (hsub : seen ⊆ seen') :
    Pushed seen' backend path branch := by
  obtain ⟨tip, htip, hremote⟩ := h
  exact ⟨tip, htip.grow hsub, hremote.grow hsub⟩

theorem Published.grow (h : Published seen backend path) (hsub : seen ⊆ seen') : Published seen' backend path := by
  obtain ⟨branch, hbranch, hpushed⟩ := h
  exact ⟨branch, hbranch.grow hsub, hpushed.grow hsub⟩

theorem Inspected.grow (h : Inspected seen row path) (hsub : seen ⊆ seen') : Inspected seen' row path :=
  ⟨h.succeeded.grow hsub, h.clean.grow hsub, h.safe.imp (·.grow hsub) (·.grow hsub)⟩

theorem Concerns.grow {taskId : ℕ} (h : Concerns role seen taskId) (hsub : seen ⊆ seen') :
    Concerns role seen' taskId := by
  cases role with
  | finalize id => exact h
  | startup destructive => exact Once.grow h hsub
  | cleanup runId confirm repository => exact Once.grow h hsub

theorem Confirmed.grow {taskId : ℕ} (h : Confirmed role seen taskId) (hsub : seen ⊆ seen') :
    Confirmed role seen' taskId := ⟨h.operator, h.concerns.grow hsub, h.terminal.grow hsub⟩

theorem Cleared.grow (h : Cleared role seen row path) (hsub : seen ⊆ seen') : Cleared role seen' row path :=
  h.imp_right fun h => h.imp (·.grow hsub) fun h => h.imp_right (·.grow hsub)

theorem Justified.grow (h : Justified role seen path row) (hsub : seen ⊆ seen') : Justified role seen' path row :=
  ⟨h.hasRow.grow hsub, h.directory, h.concerns.grow hsub, h.cleared.grow hsub⟩

end

variable {S : Setup} {role : Role} {seen : Set Site} {row : TaskWorkspace}

/-- The process does only what it may do, and what the function returns satisfies `Q`. -/
abbrev Heeds (S : Setup) (role : Role) (x : Fallible β) (Q : β → Set Site → Prop) (seen : Set Site) : Prop :=
  Attests (exec S) (Allowed role) x Q seen

/-! ## Commands -/

theorem exec_look {w : Site} {query : Site → Except (List String) α} {o : Choice} :
    (exec S w (.look α query) o).2 = w := rfl

/-- What a question is answered was true of a world. -/
theorem heeds_look {query : Site → Except (List String) α} :
    Heeds S role (look query) (fun a seen => Once seen fun w => query w = .ok a) seen := by
  refine attests_issue (fun _ _ path hpath => by cases hpath) fun seen' _ w hw o a ha => ?_
  rw [exec_look, Set.insert_eq_of_mem hw]
  simp only [exec, id] at ha
  split at ha
  · cases ha
  · exact ⟨w, hw, ha⟩

theorem heeds_ask {x : Act α} :
    Heeds S role (ask x) (fun a seen => Once seen fun w => ∃ w', x w = .ok a w') seen := by
  refine heeds_look.mono fun a seen ha => ha.mono fun w hw => ?_
  cases hx : x w with
  | ok b w' =>
    simp only [hx, Except.ok.injEq] at hw
    exact ⟨w', hw ▸ rfl⟩
  | error e w' => simp [hx] at hw

theorem ok_of_mapError {x : Except ε α} {f : ε → ε'} (h : x.mapError f = .ok a) : x = .ok a := by
  cases x with
  | ok b => exact congrArg Except.ok (Except.ok.inj h)
  | error e => cases h

theorem heeds_askGit {env : Services} {args : List String} {query : Site → Except Git.Error α} :
    Heeds S role (askGit env args query) (fun a seen => Once seen fun w => query w = .ok a) seen :=
  heeds_look.mono fun _ _ ha => ha.mono fun _ => ok_of_mapError

theorem heeds_askClone {env : Services} {query : Site → Except Git.Error α} :
    Heeds S role (CloneManager.askClone env query) (fun a seen => Once seen fun w => query w = .ok a) seen :=
  heeds_look.mono fun _ _ ha => ha.mono fun _ => ok_of_mapError

theorem heeds_pathExists {path : AbsPath} :
    Heeds S role (issue (.pathExists path) Except.ok) (fun _ _ => True) seen :=
  attests_issue (fun _ _ path hpath => by cases hpath) fun _ _ _ _ _ _ _ => trivial

theorem heeds_prune : Heeds S role (issue .prune id) (fun _ _ => True) seen :=
  attests_issue (fun _ _ path hpath => by cases hpath) fun _ _ _ _ _ _ _ => trivial

/-- A directory is removed for a reason. -/
theorem heeds_removal {c : Cmd} {answer : c.Answer → Except (List String) Unit} {path path' : AbsPath}
    (hc : c.removes = some path') (hpath : path' = path) (h : Justified role seen path row) :
    Heeds S role (issue c answer) (fun _ _ => True) seen := by
  subst hpath
  refine attests_issue (fun seen' hsub => ?_) fun _ _ _ _ _ _ _ => trivial
  cases c with
  | write op => cases hc
  | _ =>
    rintro path' hpath'
    rw [hc] at hpath'
    cases hpath'
    exact ⟨row, h.grow hsub⟩

theorem heeds_update {taskId : ℕ} {state statusSummary : String}
    (h : state = "cleanup_pending" → statusSummary = operatorConfirmedCleanup → Confirmed role seen taskId) :
    Heeds S role (updateTaskWorkspaceState taskId state statusSummary) (fun _ _ => True) seen := by
  refine attests_issue (fun seen' hsub hstate hsummary => ?_) fun _ _ _ _ _ _ _ => trivial
  exact (h hstate (Option.some.inj hsummary)).grow hsub

theorem heeds_bail {message : String} {Q : β → Set Site → Prop} : Heeds S role (bail message) Q seen :=
  attests_throw.mpr trivial

theorem heeds_orBail {value : Option β} {message : String} :
    Heeds S role (orBail value message) (fun b _ => value = some b) seen := by
  cases value with
  | none => exact heeds_bail
  | some b => exact attests_pure.mpr rfl

/-- A directory that exists is that of the workspace. -/
theorem heeds_existing {workspace : TaskWorkspace} :
    Heeds S role (existing workspace) (fun found _ => ∀ path, found = some path → workspace.path? = some path)
      seen := by
  unfold existing
  cases hpath : workspace.path? with
  | none => exact attests_pure.mpr nofun
  | some path =>
    refine heeds_pathExists.bind fun exists? _ _ _ => ?_
    cases exists? with
    | false => exact attests_pure.mpr nofun
    | true => exact attests_pure.mpr fun path' h => h

/-! ## Managers -/

/-- What a preview says of a directory. -/
structure Previewed (seen : Set Site) (backend : WorkspaceBackend) (directory : AbsPath)
    (preview : CleanupPreview) : Prop where
  path : preview.path = directory
  status : Once seen fun w => w.status directory = .ok preview.dirty
  branch : ∀ branch, preview.branch = some branch → Once seen fun w => w.CheckedOut backend directory branch

end Removal

namespace WorkspaceManager
open Removal Process Script
variable {S : Removal.Setup} {role : Removal.Role} {seen : Set Site} {env : Services} {m : WorkspaceManager}
  {path : AbsPath} {row : TaskWorkspace}

theorem registeredWorktree_ok {w w' : Site} {item : RegisteredWorktree}
    (h : registeredWorktree path w = .ok (some item) w') :
    ∃ t, w.canonical.workTree? path = some t ∧ item = ⟨path, t.head.branch?⟩ := by
  have hdots : ".." ∉ path.components := by
    intro hdots
    have hfails : ¬ Succeeds (registeredWorktree path) w fun _ _ => True := by
      simp [registeredWorktree, absoluteLexical, hdots]
    exact hfails ⟨_, _, h, trivial⟩
  have hfound : Succeeds (registeredWorktree path) w fun found _ => found = some item := ⟨_, _, h, rfl⟩
  rw [succeeds_registeredWorktree hdots, Option.map_eq_some_iff] at hfound
  obtain ⟨t, ht, hitem⟩ := hfound
  refine ⟨t, ht, ?_⟩
  rw [← hitem, Git.Repository.workTree?_dir ht]

theorem heeds_previewCleanup :
    Heeds S role (m.previewCleanup env path) (fun preview seen => Previewed seen .worktree path preview) seen := by
  refine heeds_ask.bind fun _ _ _ _ => heeds_ask.bind fun found seen₂ _ hfound => ?_
  cases found with
  | none => exact heeds_bail
  | some registered =>
    obtain ⟨w, hw, w', hfound⟩ := hfound
    obtain ⟨t, ht, rfl⟩ := registeredWorktree_ok hfound
    refine heeds_askGit.bind fun dirty seen₃ hsub hdirty =>
      attests_pure.mpr ⟨rfl, hdirty, fun branch hbranch => ?_⟩
    exact ⟨w, hsub hw, t, ht, Git.Head.branch?_eq_some.mp hbranch⟩

theorem heeds_previewOrphaned :
    Heeds S role (previewOrphaned path) (fun preview _ => preview.path = path) seen := by
  refine heeds_look.bind fun path' _ _ hpath => attests_pure.mpr ?_
  obtain ⟨_, _, hpath⟩ := hpath
  simp only [absoluteLexical] at hpath
  split at hpath
  · cases hpath
  · cases hpath
    rfl

theorem heeds_removeOrphaned (h : Justified role seen path row) :
    Heeds S role (removeOrphaned path) (fun _ _ => True) seen := by
  refine heeds_previewOrphaned.bind fun preview seen₁ hsub₁ hpath => ?_
  refine heeds_pathExists.bind fun exists? seen₂ hsub₂ _ => ?_
  cases exists? with
  | false => exact attests_pure.mpr trivial
  | true =>
    have hj := h.grow (hsub₁.trans hsub₂)
    exact (attests_mapFailure (heeds_removal rfl hpath hj)).bind fun _ _ _ _ => attests_pure.mpr trivial

/-- The part that the three ways to clean up have in common. -/
theorem heeds_whenRegistered {x f : Fallible β}
    (hx : ∀ seen', seen ⊆ seen' → Heeds S role x (fun _ _ => True) seen')
    (hf : ∀ seen', seen ⊆ seen' → Heeds S role f (fun _ _ => True) seen') :
    Heeds S role (do
      ask (m.ensureManagedPath path)
      match ← ask (registeredWorktree path) with
      | none => x
      | some _ => f) (fun _ _ => True) seen := by
  refine heeds_ask.bind fun _ seen₁ hsub₁ _ => heeds_ask.bind fun found seen₂ hsub₂ _ => ?_
  cases found with
  | none => exact hx seen₂ (hsub₁.trans hsub₂)
  | some _ => exact hf seen₂ (hsub₁.trans hsub₂)

theorem heeds_cleanup_preview : Heeds S role (m.cleanup env path false) (fun _ _ => True) seen := by
  refine heeds_whenRegistered (fun _ _ => ?_) fun _ _ => ?_
  · exact heeds_previewOrphaned.bind fun _ _ _ _ => attests_pure.mpr trivial
  · exact heeds_previewCleanup.bind fun _ _ _ _ => attests_pure.mpr trivial

theorem heeds_cleanup (h : Justified role seen path row) :
    Heeds S role (m.cleanup env path true) (fun _ _ => True) seen := by
  refine heeds_whenRegistered (fun seen₁ hsub₁ => ?_) fun seen₁ hsub₁ => ?_
  · exact (heeds_removeOrphaned (h.grow hsub₁)).bind fun _ _ _ _ => attests_pure.mpr trivial
  · refine heeds_previewCleanup.bind fun preview seen₂ hsub₂ hpreview => ?_
    have hj := h.grow (hsub₁.trans hsub₂)
    exact (heeds_removal rfl hpreview.path hj).bind fun _ _ _ _ => attests_pure.mpr trivial

theorem heeds_cleanupClean (h : Justified role seen path row) :
    Heeds S role (m.cleanupClean env path) (fun _ _ => True) seen := by
  refine heeds_whenRegistered (fun seen₁ hsub₁ => heeds_removeOrphaned (h.grow hsub₁)) fun seen₁ hsub₁ => ?_
  refine heeds_previewCleanup.bind fun preview seen₂ hsub₂ hpreview => ?_
  have hj := h.grow (hsub₁.trans hsub₂)
  split
  · exact heeds_bail
  · exact (heeds_removal rfl hpreview.path hj).bind fun _ _ _ _ => attests_pure.mpr trivial

theorem heeds_cleanupDisposable (h : Justified role seen path row) :
    Heeds S role (m.cleanupDisposable env path) (fun _ _ => True) seen := by
  refine heeds_whenRegistered (fun seen₁ hsub₁ => heeds_removeOrphaned (h.grow hsub₁)) fun seen₁ hsub₁ => ?_
  refine heeds_previewCleanup.bind fun preview seen₂ hsub₂ hpreview => ?_
  have hj := h.grow (hsub₁.trans hsub₂)
  exact (heeds_removal rfl hpreview.path hj).bind fun _ _ _ _ => attests_pure.mpr trivial

theorem resolveCommit_branch {w w' : Site} {branch tip : String}
    (h : m.resolveCommit env (.branch branch) w = .ok tip w') : w.canonical.branches.lookup branch = some tip := by
  have hresolved : Succeeds (m.resolveCommit env (.branch branch)) w fun sha _ => sha = tip := ⟨_, _, h, rfl⟩
  simp only [resolveCommit, resolveCommitIn, Succeeds.bind_iff, Act.succeeds_bailIf, Succeeds.get_iff] at hresolved
  obtain ⟨-, hresolved⟩ := hresolved
  cases hlookup : w.canonical.branches.lookup branch with
  | none => simp [Git.Repository.revParse, hlookup] at hresolved
  | some sha => simpa [Git.Repository.revParse, hlookup] using hresolved

theorem heeds_branchIsPushed {branch : String} :
    Heeds S role (m.branchIsPushed env branch)
      (fun pushed seen => pushed = true → Pushed seen .worktree path branch) seen := by
  refine heeds_ask.bind fun _ _ _ _ => heeds_ask.bind fun tip seen₂ _ htip => ?_
  refine heeds_askGit.bind fun remote seen₃ hsub hremote => attests_pure.mpr fun hpushed => ?_
  obtain rfl : remote = some tip := by simpa using hpushed
  exact ⟨tip, (htip.grow hsub).mono fun w ⟨_, hw⟩ => resolveCommit_branch hw, hremote⟩

end WorkspaceManager

namespace CloneManager
open Removal Process Script
variable {S : Removal.Setup} {role : Removal.Role} {seen : Set Site} {env : Services} {m : CloneManager}
  {path : AbsPath} {row : TaskWorkspace}

theorem heeds_remove (h : Justified role seen path row) :
    Heeds S role (m.remove env path) (fun _ _ => True) seen := by
  refine heeds_ask.bind fun _ seen₁ hsub₁ _ => heeds_pathExists.bind fun exists? seen₂ hsub₂ _ => ?_
  cases exists? with
  | false => exact attests_pure.mpr trivial
  | true => exact attests_mapFailure (heeds_removal rfl rfl (h.grow (hsub₁.trans hsub₂)))

theorem heeds_previewCleanup :
    Heeds S role (m.previewCleanup env path) (fun preview seen => Previewed seen .clone path preview) seen := by
  refine heeds_ask.bind fun _ _ _ _ => heeds_look.bind fun standalone seen₂ _ _ => ?_
  split
  · exact heeds_bail
  · refine heeds_askClone.bind fun dirty seen₃ _ hdirty => ?_
    refine heeds_askClone.bind fun branch seen₄ hsub hbranch => attests_pure.mpr ⟨rfl, hdirty.grow hsub, ?_⟩
    rintro b rfl
    exact hbranch

theorem heeds_branchIsPushed {branch tokenEnv : String} :
    Heeds S role (m.branchIsPushed env path branch tokenEnv)
      (fun pushed seen => pushed = true → Pushed seen .clone path branch) seen := by
  refine heeds_ask.bind fun _ _ _ _ => ?_
  split
  · exact attests_throw.mpr trivial
  · refine heeds_askClone.bind fun head seen₂ _ hhead => ?_
    refine heeds_askClone.bind fun remote seen₃ hsub hremote => attests_pure.mpr fun hpushed => ?_
    obtain rfl : remote = some head := by simpa using hpushed
    exact ⟨head, (hhead.grow hsub).mono fun w hw => by simp [Site.tip?, hw, Except.toOption], hremote⟩

end CloneManager

namespace Removal
open Process Script
variable {S : Setup} {role : Role} {seen : Set Site} {M : Managers} {workspace : TaskWorkspace} {path : AbsPath}
  {row : TaskWorkspace}

theorem heeds_note {taskId : ℕ} {state statusSummary : String} (h : state ≠ "cleanup_pending") :
    Heeds S role (updateTaskWorkspaceState taskId state statusSummary) (fun _ _ => True) seen :=
  heeds_update fun hstate => absurd hstate h

theorem heeds_mark {taskId : ℕ} {state statusSummary : String} (h : statusSummary ≠ operatorConfirmedCleanup) :
    Heeds S role (updateTaskWorkspaceState taskId state statusSummary) (fun _ _ => True) seen :=
  heeds_update fun _ hsummary => absurd hsummary h

namespace Managers

theorem heeds_previewCleanup : Heeds S role (M.previewCleanup S workspace path)
    (fun preview seen => Previewed seen workspace.backend path preview) seen := by
  unfold previewCleanup
  cases hbackend : workspace.backend with
  | clone => exact CloneManager.heeds_previewCleanup
  | worktree => exact WorkspaceManager.heeds_previewCleanup

theorem heeds_remove {f : WorkspaceManager → Fallible α} (h : Justified role seen path row)
    (hf : ∀ m, Heeds S role (f m) (fun _ _ => True) seen) :
    Heeds S role (M.remove S workspace path f) (fun _ _ => True) seen := by
  unfold remove
  split
  · exact CloneManager.heeds_remove h
  · exact (hf M.worktrees).bind fun _ _ _ _ => attests_pure.mpr trivial

theorem heeds_published {branch : Option String} : Heeds S role (M.published S workspace path branch)
    (fun pushed seen => pushed = true → ∃ b, branch = some b ∧ Pushed seen workspace.backend path b) seen := by
  unfold published
  cases branch with
  | none => exact attests_pure.mpr nofun
  | some branch =>
    cases hbackend : workspace.backend with
    | clone =>
      refine heeds_orBail.bind fun token seen₁ _ _ => ?_
      exact CloneManager.heeds_branchIsPushed.mono fun _ _ h hpushed => ⟨branch, rfl, h hpushed⟩
    | worktree =>
      exact WorkspaceManager.heeds_branchIsPushed.mono fun _ _ h hpushed => ⟨branch, rfl, h hpushed⟩

end Managers

theorem heeds_managers : Heeds S role (managers S) (fun _ _ => True) seen :=
  heeds_look.bind fun _ _ _ _ => heeds_look.bind fun _ _ _ _ => attests_pure.mpr trivial

theorem heeds_taskOf {taskId : ℕ} {complaint : String} : Heeds S role (taskOf taskId complaint)
    (fun task seen => Once seen fun w => w.ledger.tasks.get? taskId = some task) seen := by
  refine heeds_look.bind fun found seen₁ _ hfound => heeds_orBail.grows.mono ?_
  rintro task seen₂ ⟨hsub, rfl⟩
  exact (hfound.grow hsub).mono fun w hw => Except.ok.inj hw

theorem heeds_workspaceOwnerIsResolved :
    Heeds S role (workspaceOwnerIsResolved S workspace) (fun _ _ => True) seen := by
  refine heeds_taskOf.bind fun task _ _ _ => ?_
  split
  · exact attests_pure.mpr trivial
  · exact (heeds_note (by decide)).bind fun _ _ _ _ => attests_pure.mpr trivial

theorem heeds_currentCommit {complaint : String} : Heeds S role (currentCommit path complaint)
    (fun head seen => Once seen fun w => w.head path = .ok head) seen := by
  refine heeds_look.bind fun found seen₁ _ hfound => heeds_orBail.grows.mono ?_
  rintro head seen₂ ⟨hsub, rfl⟩
  refine (hfound.grow hsub).mono fun w hw => ?_
  cases hhead : w.head path with
  | ok sha => simpa [hhead, Except.toOption] using hw
  | error e => simp [hhead, Except.toOption] at hw

theorem heeds_inspected {taskId : ℕ} {summary message : String} {x : Fallible β} {Q : β → Set Site → Prop}
    (hx : Heeds S role x Q seen) : Heeds S role (inspected taskId summary message x) Q seen := by
  refine attests_bind.mpr (attests_attempt (hx.mono fun b seen hb => attests_pure.mpr hb) fun e seen => ?_)
  exact (heeds_note (by decide)).bind fun _ _ _ _ => attests_throw.mpr trivial

/-! ## `daemon.rs` -/

/-- What a function knows of the workspace that it is given. -/
structure Given (role : Role) (seen : Set Site) (workspace : TaskWorkspace) : Prop where
  row : HasRow seen workspace
  concerns : Concerns role seen workspace.taskId

theorem Given.grow {seen' : Set Site} (h : Given role seen workspace) (hsub : seen ⊆ seen') :
    Given role seen' workspace := ⟨h.row.grow hsub, h.concerns.grow hsub⟩

theorem Given.justified (h : Given role seen workspace) (hpath : workspace.path? = some path)
    (hcleared : Cleared role seen workspace path) : Justified role seen path workspace :=
  ⟨h.row, hpath, h.concerns, hcleared⟩

theorem heeds_finalizeProposal (hgiven : Given role seen workspace) (hkind : workspace.kind = .proposal) :
    Heeds S role (finalizeProposal S M workspace) (fun _ _ => True) seen := by
  refine (heeds_mark (by decide)).bind fun _ seen₁ hsub₁ _ => ?_
  refine heeds_existing.bind fun found seen₂ hsub₂ hfound => ?_
  cases found with
  | none => exact heeds_note (by decide)
  | some path =>
    have hj : Justified role seen₂ path workspace :=
      (hgiven.grow (hsub₁.trans hsub₂)).justified (hfound path rfl) (.inl hkind)
    dsimp only
    split
    · refine CloneManager.heeds_previewCleanup.bind fun preview seen₃ hsub₃ _ => ?_
      refine (CloneManager.heeds_remove (hj.grow hsub₃)).bind fun _ _ _ _ => ?_
      exact heeds_note (by decide)
    · refine (WorkspaceManager.heeds_cleanupDisposable hj).bind fun _ _ _ _ => ?_
      exact heeds_note (by decide)

theorem heeds_deliveryPublished {changed : Bool} {branch : Option String} :
    Heeds S role (deliveryPublished S M workspace path changed branch)
      (fun published seen => published = true → changed = true →
        ∃ b, branch = some b ∧ Pushed seen workspace.backend path b) seen := by
  unfold deliveryPublished
  cases changed with
  | false => exact attests_pure.mpr nofun
  | true =>
    rw [Bool.not_true, if_neg Bool.false_ne_true]
    cases branch with
    | none => exact attests_pure.mpr nofun
    | some branch =>
      dsimp only
      split
      · exact heeds_bail
      · exact heeds_inspected (Managers.heeds_published.mono fun _ _ h hpublished _ => h hpublished)

theorem heeds_awaitsContinuation {task : Task} :
    Heeds S role (awaitsContinuation task) (fun _ _ => True) seen := by
  unfold awaitsContinuation
  split
  · exact heeds_look.mono fun _ _ _ => trivial
  · exact attests_pure.mpr trivial

theorem heeds_finalizeDelivery {task : Task} (hgiven : Given role seen workspace) (hpath : workspace.path? = some path)
    (htask : Once seen fun w => w.ledger.tasks.get? workspace.taskId = some task) :
    Heeds S role (finalizeDelivery S M task workspace path) (fun _ _ => True) seen := by
  refine (heeds_inspected Managers.heeds_previewCleanup).bind fun preview seen₁ hsub₁ hpreview => ?_
  refine heeds_currentCommit.bind fun head seen₂ hsub₂ hhead => ?_
  refine heeds_deliveryPublished.bind fun published seen₃ hsub₃ hpublished => ?_
  refine heeds_awaitsContinuation.bind fun awaits seen₄ hsub₄ _ => ?_
  split
  · next h =>
    simp only [Bool.and_eq_true, decide_eq_true_eq, Bool.not_eq_true'] at h
    obtain ⟨⟨⟨hsucceeded, hclean⟩, hpub⟩, -⟩ := h
    refine (heeds_mark (by decide)).bind fun _ seen₅ hsub₅ _ => ?_
    have hinspected : Inspected seen₄ workspace path := by
      refine ⟨?_, ?_, ?_⟩
      · refine (htask.grow (hsub₁.trans (hsub₂.trans (hsub₃.trans hsub₄)))).mono fun w hw => ?_
        exact ⟨task, hw, hsucceeded⟩
      · exact hclean ▸ hpreview.status.grow (hsub₂.trans (hsub₃.trans hsub₄))
      · by_cases hbase : head = workspace.baseSha
        · exact .inl (hbase ▸ hhead.grow (hsub₃.trans hsub₄))
        · obtain ⟨branch, hbranch, hpushed⟩ := hpublished hpub (by simp [hbase])
          exact .inr ⟨branch, (hpreview.branch branch hbranch).grow (hsub₂.trans (hsub₃.trans hsub₄)),
            hpushed.grow hsub₄⟩
    have hj : Justified role seen₅ path workspace := by
      refine (hgiven.grow ?_).justified hpath (.inr (.inr (.inr (hinspected.grow hsub₅))))
      exact hsub₁.trans (hsub₂.trans (hsub₃.trans (hsub₄.trans hsub₅)))
    refine (Managers.heeds_remove hj fun _ => WorkspaceManager.heeds_cleanupClean hj).bind fun _ _ _ _ => ?_
    exact heeds_note (by decide)
  · exact heeds_note (by decide)

theorem hasRow_of_get? {taskId : ℕ} (h : Once seen fun w : Site =>
    Except.ok (ε := List String) (w.ledger.taskWorkspaces.get? taskId) = .ok (some workspace)) :
    workspace.taskId = taskId ∧ HasRow seen workspace := by
  obtain ⟨w, hw, hget⟩ := h
  have hkey := KeyedTable.key_of_get? (Except.ok.inj hget)
  exact ⟨hkey, w, hw, hkey ▸ Except.ok.inj hget⟩

theorem heeds_finalizeTaskWorkspace {taskId : ℕ} (hconcerns : Concerns role seen taskId) :
    Heeds S role (finalizeTaskWorkspace S taskId) (fun _ _ => True) seen := by
  refine heeds_look.bind fun _ seen₁ hsub₁ _ => heeds_taskOf.bind fun task seen₂ hsub₂ htask => ?_
  refine heeds_look.bind fun found seen₃ hsub₃ hfound => heeds_orBail.bind ?_
  rintro workspace seen₄ hsub₄ rfl
  obtain ⟨hid, hrow⟩ := hasRow_of_get? (hfound.grow hsub₄)
  have htask := htask.grow (hsub₃.trans hsub₄)
  have hconcerns := hconcerns.grow (hsub₁.trans (hsub₂.trans (hsub₃.trans hsub₄)))
  subst hid
  split
  · exact attests_pure.mpr trivial
  refine heeds_workspaceOwnerIsResolved.bind fun resolved seen₅ hsub₅ _ => ?_
  split
  · exact heeds_bail
  refine heeds_managers.bind fun M seen₆ hsub₆ _ => ?_
  have hgiven : Given role seen₆ workspace :=
    ⟨hrow.grow (hsub₅.trans hsub₆), hconcerns.grow (hsub₅.trans hsub₆)⟩
  split
  · next hkind => exact heeds_finalizeProposal hgiven hkind
  refine heeds_existing.bind fun found seen₇ hsub₇ hpath => ?_
  cases found with
  | none => exact heeds_note (by decide)
  | some path =>
    exact heeds_finalizeDelivery (hgiven.grow hsub₇) (hpath path rfl)
      (htask.grow (hsub₅.trans (hsub₆.trans hsub₇)))

/-- What the revalidation of an interrupted automatic cleanup has found out. -/
theorem heeds_automaticCleanupIsStillSafe {manager : WorkspaceManager} :
    Heeds S role (automaticCleanupIsStillSafe S manager workspace path)
      (fun safe seen => safe = true → Inspected seen workspace path) seen := by
  refine heeds_taskOf.bind fun task seen₁ _ htask => ?_
  split
  · exact attests_pure.mpr nofun
  next hsucceeded =>
  refine heeds_orBail.bind fun parent seen₂ hsub₂ _ => heeds_look.bind fun clones seen₃ hsub₃ _ => ?_
  refine Managers.heeds_previewCleanup.bind fun preview seen₄ hsub₄ hpreview => ?_
  split
  · exact attests_pure.mpr nofun
  next hclean =>
  have hsucceeded₄ : Once seen₄ fun w => ∃ task, w.ledger.tasks.get? workspace.taskId = some task ∧
      task.state = .succeeded :=
    (htask.grow (hsub₂.trans (hsub₃.trans hsub₄))).mono fun w hw => ⟨task, hw, by simpa using hsucceeded⟩
  have hclean₄ : Once seen₄ fun w => w.status path = .ok false := by
    have hdirty : preview.dirty = false := by simpa using hclean
    exact hdirty ▸ hpreview.status
  refine heeds_currentCommit.bind fun head seen₅ hsub₅ hhead => ?_
  split
  · next hbase =>
    exact attests_pure.mpr fun _ => ⟨hsucceeded₄.grow hsub₅, hclean₄.grow hsub₅, .inl (hbase ▸ hhead)⟩
  · refine Managers.heeds_published.grows.mono fun pushed seen₆ h hpushed => ?_
    obtain ⟨branch, hbranch, hpushed⟩ := h.2 hpushed
    have hsub₆ := hsub₅.trans h.1
    exact ⟨hsucceeded₄.grow hsub₆, hclean₄.grow hsub₆,
      .inr ⟨branch, (hpreview.branch branch hbranch).grow hsub₆, hpushed⟩⟩

theorem heeds_completing {x : Fallible Unit} (h : Heeds S role x (fun _ _ => True) seen) :
    Heeds S role (completing workspace x) (fun _ _ => True) seen := by
  refine (attests_attempt (Q := fun _ _ => True) h fun _ _ => trivial).bind fun result _ _ _ => ?_
  cases result with
  | ok _ => exact heeds_note (by decide)
  | error e => exact attests_pure.mpr trivial

theorem heeds_resumeCleanup (hgiven : Given role seen workspace) (hstate : workspace.state = .cleanupPending) :
    Heeds S role (resumeCleanup S M workspace) (fun _ _ => True) seen := by
  refine heeds_existing.bind fun found seen₁ hsub₁ hpath => ?_
  cases found with
  | none => exact heeds_note (by decide)
  | some path =>
    have hj : ∀ {seen'}, seen ⊆ seen' → Cleared role seen' workspace path →
        Justified role seen' path workspace := fun hsub h => (hgiven.grow hsub).justified (hpath path rfl) h
    dsimp only
    split
    · next hkind =>
      have hj := hj hsub₁ (.inl hkind)
      exact heeds_completing (Managers.heeds_remove hj fun _ => WorkspaceManager.heeds_cleanupDisposable hj)
    split
    · next hsummary =>
      have hj := hj hsub₁ (.inr (.inr (.inl ⟨hstate, hsummary⟩)))
      exact heeds_completing (Managers.heeds_remove hj fun _ => WorkspaceManager.heeds_cleanup hj)
    split
    · refine (attests_attempt (Q := fun result seen => result = .ok true → Inspected seen workspace path)
        (heeds_automaticCleanupIsStillSafe.mono fun safe _ h hsafe => h (by simpa using hsafe))
        fun _ _ => nofun).bind fun result seen₂ hsub₂ hsafe => ?_
      cases result with
      | error e => exact heeds_note (by decide)
      | ok safe =>
        cases safe with
        | false => exact heeds_note (by decide)
        | true =>
          have hj := hj (hsub₁.trans hsub₂) (.inr (.inr (.inr (hsafe rfl))))
          exact heeds_completing (Managers.heeds_remove hj fun _ => WorkspaceManager.heeds_cleanupClean hj)
    · exact heeds_note (by decide)

theorem heeds_resolvedAmong : ∀ {workspaces : List TaskWorkspace} {seen : Set Site},
    Heeds S role (resolvedAmong S workspaces) (fun resolved _ => ∀ row ∈ resolved, row ∈ workspaces) seen
  | [], _ => attests_pure.mpr fun _ h => h
  | workspace :: rest, _ => by
    refine heeds_workspaceOwnerIsResolved.bind fun resolved _ _ _ => heeds_resolvedAmong.bind fun among _ _ h => ?_
    refine attests_pure.mpr fun row hrow => ?_
    cases resolved with
    | false => exact List.mem_cons_of_mem _ (h row hrow)
    | true =>
      rcases List.mem_cons.mp hrow with rfl | hrow
      · exact List.mem_cons_self
      · exact List.mem_cons_of_mem _ (h row hrow)

theorem mem_taskWorkspacesInState {l : Ledger} {state : WorkspaceState}
    (h : workspace ∈ l.taskWorkspacesInState state) :
    l.taskWorkspaces.get? workspace.taskId = some workspace ∧ workspace.state = state := by
  simp only [Ledger.taskWorkspacesInState, List.mem_insertionSort, List.mem_filter, decide_eq_true_eq] at h
  exact ⟨KeyedTable.get?_of_mem h.1, h.2⟩

theorem mem_activeTaskWorkspaces {l : Ledger} (h : workspace ∈ l.activeTaskWorkspaces) :
    l.taskWorkspaces.get? workspace.taskId = some workspace ∧ workspace.state ≠ .cleaned := by
  simp only [Ledger.activeTaskWorkspaces, List.mem_insertionSort, List.mem_filter, decide_eq_true_eq] at h
  exact ⟨KeyedTable.get?_of_mem h.1, h.2⟩

variable (hrole : ∀ {seen : Set Site} {taskId : ℕ}, (Once seen fun w => ∃ row,
  w.ledger.taskWorkspaces.get? taskId = some row ∧ row.state ≠ .cleaned) → Concerns role seen taskId)
include hrole

theorem heeds_reconcilePendingCleanup :
    Heeds S role (reconcilePendingCleanup S) (fun _ _ => True) seen := by
  refine heeds_look.bind fun pending seen₁ _ hpending => ?_
  refine heeds_resolvedAmong.bind fun workspaces seen₂ hsub₂ hamong => ?_
  split
  · exact attests_pure.mpr trivial
  refine heeds_managers.bind fun M seen₃ hsub₃ _ => heeds_prune.bind fun _ seen₄ hsub₄ _ => ?_
  refine attests_forM fun workspace hworkspace seen₅ hsub₅ => ?_
  obtain ⟨w, hw, hrows⟩ := hpending
  obtain ⟨hget, hstate⟩ := mem_taskWorkspacesInState (Except.ok.inj hrows ▸ hamong workspace hworkspace)
  have hw₅ := hsub₅ (hsub₄ (hsub₃ (hsub₂ hw)))
  have hconcerns := hrole ⟨w, hw₅, workspace, hget, by simp [hstate]⟩
  exact heeds_resumeCleanup ⟨⟨w, hw₅, hget⟩, hconcerns⟩ hstate

theorem heeds_reconcileTerminalWorkspaces :
    Heeds S role (reconcileTerminalWorkspaces S) (fun _ _ => True) seen := by
  refine heeds_look.bind fun rows seen₁ _ hrows => attests_forM fun workspace hworkspace seen₂ hsub₂ => ?_
  obtain ⟨w, hw, hrows⟩ := hrows
  obtain ⟨hget, hstate⟩ := mem_activeTaskWorkspaces (Except.ok.inj hrows ▸ hworkspace)
  have hconcerns := hrole ⟨w, hsub₂ hw, workspace, hget, hstate⟩
  unfold reconcileTerminalWorkspace
  split
  · exact attests_pure.mpr trivial
  refine heeds_workspaceOwnerIsResolved.bind fun resolved seen₃ hsub₃ _ => ?_
  split
  · exact attests_pure.mpr trivial
  refine heeds_taskOf.bind fun task seen₄ hsub₄ htask => ?_
  split
  · exact attests_pure.mpr trivial
  refine heeds_look.bind fun runs seen₅ hsub₅ _ => ?_
  split
  · exact heeds_note (by decide)
  · obtain ⟨w', -, htask⟩ := htask
    have hid : task.id = workspace.taskId := KeyedTable.key_of_get? htask
    have hconcerns : Concerns role seen₅ task.id := hid ▸ hconcerns.grow (hsub₃.trans (hsub₄.trans hsub₅))
    refine (attests_attempt (Q := fun _ _ => True) (heeds_finalizeTaskWorkspace hconcerns) fun _ _ => trivial).bind
      fun _ _ _ _ => attests_pure.mpr trivial

omit hrole

theorem heeds_retainUnresolvableWorkspaces :
    Heeds S role (retainUnresolvableWorkspaces S) (fun _ _ => True) seen :=
  heeds_look.bind fun _ _ _ _ => attests_forM fun _ _ _ _ =>
    heeds_workspaceOwnerIsResolved.bind fun _ _ _ _ => attests_pure.mpr trivial

theorem heeds_reconcileRecoveryState {destructive : Bool} :
    Heeds S (.startup destructive) (reconcileRecoveryState S destructive) (fun _ _ => True) seen := by
  refine Attests.bind (P := fun _ _ => True) ?_ fun _ _ _ _ => ?_
  · exact attests_issue (fun _ _ => trivial) fun _ _ _ _ _ _ _ => trivial
  refine heeds_retainUnresolvableWorkspaces.bind fun _ _ _ _ => ?_
  cases destructive with
  | false => exact attests_pure.mpr trivial
  | true =>
    exact (heeds_reconcilePendingCleanup id).bind fun _ _ _ _ => heeds_reconcileTerminalWorkspaces id

/-! ## `main.rs` -/

theorem heeds_refuseActive {task : Task} {what : String} :
    Heeds S role (refuseActive task what) (fun _ _ => task.state.isTerminal = true) seen := by
  unfold refuseActive
  split
  · exact heeds_bail
  · next h => exact attests_pure.mpr (by cases hs : task.state <;> simp_all [TaskState.isTerminal])

theorem heeds_confirmedCleanup {task : Task} (hgiven : Given role seen workspace) (hpath : workspace.path? = some path)
    (hid : workspace.taskId = task.id) (h : task.state.isTerminal = true → Confirmed role seen task.id) :
    Heeds S role (confirmedCleanup S M task workspace path) (fun _ _ => True) seen := by
  refine heeds_refuseActive.bind fun _ seen₁ hsub₁ hterminal => ?_
  have hconfirmed := (h hterminal).grow hsub₁
  refine (heeds_update fun _ _ => hconfirmed).bind fun _ seen₂ hsub₂ _ => ?_
  have hj : Justified role seen₂ path workspace := (hgiven.grow (hsub₁.trans hsub₂)).justified hpath
    (.inr (.inl (hid ▸ hconfirmed.grow hsub₂)))
  refine (Managers.heeds_remove hj fun _ => WorkspaceManager.heeds_cleanup hj).bind fun _ _ _ _ => ?_
  exact heeds_note (by decide)

theorem heeds_cleanupPresent {task : Task} {confirm : Bool} (hgiven : Given role seen workspace)
    (hpath : workspace.path? = some path) (hid : workspace.taskId = task.id)
    (h : confirm = true → task.state.isTerminal = true → Confirmed role seen task.id) :
    Heeds S role (cleanupPresent S M task workspace path confirm) (fun _ _ => True) seen := by
  have hrest : ∀ seen', seen ⊆ seen' → Heeds S role
      (if !confirm then pure () else confirmedCleanup S M task workspace path) (fun _ _ => True) seen' := by
    intro seen' hsub
    cases confirm with
    | false => exact attests_pure.mpr trivial
    | true => exact heeds_confirmedCleanup (hgiven.grow hsub) hpath hid fun hterminal => (h rfl hterminal).grow hsub
  unfold cleanupPresent
  dsimp only
  split
  · exact CloneManager.heeds_previewCleanup.bind fun _ seen₁ hsub₁ _ => hrest seen₁ hsub₁
  · refine WorkspaceManager.heeds_cleanup_preview.bind fun _ seen₁ hsub₁ _ => ?_
    exact attests_bind.mpr (attests_pure.mpr (hrest seen₁ hsub₁))

theorem heeds_cleanupRun {runId : ℕ} {confirm : Bool} {repository : Option String} :
    Heeds S (.cleanup runId confirm repository) (cleanupRun S runId confirm repository) (fun _ _ => True) seen := by
  refine heeds_look.bind fun found seen₁ _ hfound => heeds_orBail.bind ?_
  rintro run seen₂ hsub₂ rfl
  refine heeds_taskOf.bind fun task seen₃ hsub₃ htask => ?_
  have hid : task.id = run.taskId := by
    obtain ⟨w, -, hw⟩ := htask
    exact KeyedTable.key_of_get? hw
  have hconcerns : Concerns (.cleanup runId confirm repository) seen₃ task.id :=
    (hfound.grow (hsub₂.trans hsub₃)).mono fun w hw => ⟨run, Except.ok.inj hw, hid.symm⟩
  have hconfirmed : confirm = true → task.state.isTerminal = true →
      Confirmed (.cleanup runId confirm repository) seen₃ task.id := fun hconfirm hterminal =>
    ⟨hconfirm, hconcerns, htask.mono fun w hw => ⟨task, hid ▸ hw, hterminal⟩⟩
  refine heeds_look.bind fun found seen₄ hsub₄ hrow => heeds_orBail.bind ?_
  rintro workspace seen₅ hsub₅ rfl
  obtain ⟨hworkspace, hrow⟩ := hasRow_of_get? (hrow.grow hsub₅)
  split
  · exact heeds_bail
  split
  · exact attests_pure.mpr trivial
  refine heeds_look.bind fun worktrees seen₆ hsub₆ _ => heeds_look.bind fun clones seen₇ hsub₇ _ => ?_
  refine heeds_existing.bind fun found seen₈ hsub₈ hpath => ?_
  have hsub : seen₅ ⊆ seen₈ := hsub₆.trans (hsub₇.trans hsub₈)
  cases found with
  | none =>
    cases confirm with
    | false => exact attests_pure.mpr trivial
    | true =>
      refine heeds_refuseActive.bind fun _ _ _ _ => ?_
      exact heeds_note (by decide)
  | some path =>
    have hsub₈ := hsub₄.trans (hsub₅.trans hsub)
    exact heeds_cleanupPresent ⟨hrow.grow hsub, hworkspace ▸ hconcerns.grow hsub₈⟩ (hpath path rfl) hworkspace
      fun hconfirm hterminal => (hconfirmed hconfirm hterminal).grow hsub₈

/-- Each program removes nothing without a justification. -/
theorem attests_program (role : Role) : (program S role).Attests (exec S) (Allowed role) (fun _ _ => True) seen := by
  cases role with
  | finalize taskId => exact attests_detach (heeds_finalizeTaskWorkspace rfl)
  | startup destructive => exact attests_detach heeds_reconcileRecoveryState
  | cleanup runId confirm repository => exact attests_detach heeds_cleanupRun

end Removal
end FlashyFactory
