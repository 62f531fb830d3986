import FlashyFactory.Workspace.Prepare
import FlashyFactory.Lib.Succeeds
import FlashyFactory.Storage.Rows
import Mathlib.Logic.Unique

/-! # When the preparation of an owned workspace succeeds

One rule for each action of `WorkspaceManager` and `CloneManager` that a preparation takes when the
directory of the workspace stands already: the condition under which the action returns, and the
site that it leaves. -/

namespace FlashyFactory
open Git.Repository

/-! ## When the actions succeed -/

namespace Act
variable {s : Site} {message : String}

@[simp] theorem succeeds_bail {Q : α → Site → Prop} : Succeeds (bail message) s Q ↔ False :=
  Succeeds.throw_iff

@[simp] theorem succeeds_bailIf {c : Bool} {Q : Unit → Site → Prop} :
    Succeeds (bailIf c message) s Q ↔ c = false ∧ Q () s := by
  cases c <;> simp [bailIf]

@[simp] theorem succeeds_lift {x : Except (List String) α} {Q : α → Site → Prop} :
    Succeeds (lift x) s Q ↔ ∃ a, x = .ok a ∧ Q a s := by
  cases x <;> simp [lift]

@[simp] theorem succeeds_context {x : Act α} {Q : α → Site → Prop} :
    Succeeds (context message x) s Q ↔ Succeeds x s Q := by
  cases h : x s with
  | ok a s' => rw [Succeeds.ok_iff h, Succeeds.ok_iff (a := a) (t := s') (by simp [context, h])]
  | error e s' =>
    rw [Succeeds.error_iff h, Succeeds.error_iff (e := message :: e) (t := s') (by simp [context, h])]

@[simp] theorem succeeds_ledger {f : Ledger → LedgerResult α} {Q : α → Site → Prop} :
    Succeeds (ledger f) s Q ↔ ∃ a l, f s.ledger = .ok (a, l) ∧ Q a { s with ledger := l } := by
  cases h : f s.ledger with
  | ok p =>
    obtain ⟨a, l⟩ := p
    rw [Succeeds.ok_iff (a := a) (t := { s with ledger := l }) (by simp [ledger, h])]
    simp
  | error e =>
    rw [Succeeds.error_iff (e := [e.message]) (t := s) (by simp [ledger, h])]
    simp

end Act

namespace WorkspaceManager
variable {env : Services} {m : WorkspaceManager} {s : Site} {path : AbsPath}

@[simp] theorem succeeds_git {args : List String} {f : Site → Except Git.Error GitRepository}
    {Q : Unit → Site → Prop} :
    Succeeds (git env args f) s Q ↔ ∃ r, f s = .ok r ∧ Q () { s with canonical := r } := by
  cases h : f s with
  | ok r =>
    rw [Succeeds.ok_iff (a := ()) (t := { s with canonical := r }) (by simp [git, h])]
    simp
  | error e =>
    rw [Succeeds.error_iff (e := gitFailed env args e) (t := s) (by simp [git, h])]
    simp

/-- A branch name that `validate_branch` accepts. -/
structure ValidBranch (env : Services) (branch : String) : Prop where
  not_blank : isBlank branch = false
  not_option : branch.toList.head? ≠ some '-'
  format : env.checkRefFormat branch = true

@[simp] theorem succeeds_validateBranch {Q : Unit → Site → Prop} (h : ValidBranch env branch) :
    Succeeds (validateBranch env branch) s Q ↔ Q () s := by
  simp [validateBranch, h.not_blank, h.not_option, h.format, Unique.exists_iff]

theorem isHexDigit_toNat (h : Ledger.isHexDigit c = true) :
    48 ≤ c.toNat ∧ c.toNat ≤ 57 ∨ 97 ≤ c.toNat ∧ c.toNat ≤ 102 ∨ 65 ≤ c.toNat ∧ c.toNat ≤ 70 := by
  simpa [Ledger.isHexDigit, Char.le_def, UInt32.le_iff_toNat_le, or_assoc] using h

theorem isHexDigit_ne (h : Ledger.isHexDigit c = true) : isWhiteSpace c = false ∧ c ≠ '-' := by
  have hn := isHexDigit_toNat h
  constructor
  · simp only [isWhiteSpace, Bool.or_eq_false_iff, Bool.and_eq_false_iff, decide_eq_false_iff_not]
    omega
  · rintro rfl
    revert hn
    decide

/-- A full object name is not blank and cannot be taken for an option. -/
theorem revision_spelled (h : validateRevision sha = .ok ()) :
    isBlank sha = false ∧ sha.toList.head? ≠ some '-' := by
  simp only [validateRevision] at h
  split at h
  · cases h
  · next hsha =>
    simp only [Bool.or_eq_true, Bool.not_eq_true', not_or, Bool.not_eq_false,
      List.all_eq_true] at hsha
    obtain ⟨hlen, hhex⟩ := hsha
    cases hlist : sha.toList with
    | nil =>
      have : sha = "" := String.toList_injective (by simpa using hlist)
      simp [this] at hlen
    | cons c cs =>
      obtain ⟨hblank, hdash⟩ := isHexDigit_ne (hhex c (by simp [hlist]))
      exact ⟨by simp [isBlank, hlist, hblank], by simpa using hdash⟩

theorem succeeds_resolveCommit {Q : String → Site → Prop} (hspelled : validateRevision sha = .ok ())
    (hknown : (s.canonical.tree? sha).isSome) :
    Succeeds (m.resolveCommit env (.commit sha)) s Q ↔ Q sha s := by
  obtain ⟨hblank, hdash⟩ := revision_spelled hspelled
  have htext : revisionText (.commit sha) = sha := rfl
  have hparse : s.canonical.revParse m.repository.toAbsPath (.commit sha) = .ok sha := by
    simp only [revParse, hknown, if_true]
  have hguard : (isBlank sha || decide (sha.toList.head? = some '-')) = false := by
    rw [hblank, Bool.false_or, decide_eq_false_iff_not]
    exact hdash
  unfold resolveCommit resolveCommitIn
  simp only [htext, hguard, hparse, Succeeds.bind_iff, Act.succeeds_bailIf, Succeeds.get_iff,
    Succeeds.pure_iff, true_and]

/-- The site after `git worktree prune`. -/
def pruned (s : Site) : Site := { s with canonical := s.canonical.prune s.pathExists }

@[simp] theorem succeeds_prune {Q : Unit → Site → Prop} :
    Succeeds (prune env) s Q ↔ Q () (pruned s) := by
  simp [prune, pruned]

@[simp] theorem succeeds_worktrees {Q : List RegisteredWorktree → Site → Prop} :
    Succeeds worktrees s Q ↔ Q (s.canonical.workTreeList.map fun w => ⟨w.1, w.2⟩) s := by
  simp [worktrees]

/-- The branches of the worktrees, as `worktree_for_branch` reads them. -/
def checkedOut (s : Site) (branch : String) : List AbsPath :=
  (s.canonical.workTrees.rows.filter fun t => t.head = .branch branch).map Git.WorkTree.dir

theorem succeeds_worktreeForBranch {Q : Option AbsPath → Site → Prop} :
    Succeeds (worktreeForBranch branch) s Q ↔
      (checkedOut s branch).length ≤ 1 ∧ Q (checkedOut s branch).head? s := by
  have hfound : (s.canonical.workTreeList.map fun w => (⟨w.1, w.2⟩ : RegisteredWorktree)).filter
      (fun item => item.branch = some branch) =
        (s.canonical.workTrees.rows.filter fun t => t.head = .branch branch).map
          fun t => ⟨t.dir, t.head.branch?⟩ := by
    rw [Git.Repository.workTreeList, List.map_map, List.filter_map]
    congr 1
    refine List.filter_congr fun t _ => decide_eq_decide.mpr ?_
    exact Git.Head.branch?_eq_some
  simp only [worktreeForBranch, Succeeds.bind_iff, succeeds_worktrees, hfound, Act.succeeds_bailIf,
    Succeeds.pure_iff]
  simp [checkedOut, List.head?_map, Function.comp_def]

theorem registered (hcanonical : ".." ∉ path.components) :
    (s.canonical.workTreeList.map fun w => (⟨w.1, w.2⟩ : RegisteredWorktree)).find?
        (RegisteredWorktree.isAt path) =
      (s.canonical.workTree? path).map fun t => ⟨t.dir, t.head.branch?⟩ := by
  rw [Git.Repository.workTreeList, List.map_map, List.find?_map]
  congr 2
  funext t
  simp only [Function.comp, RegisteredWorktree.isAt, absoluteLexical]
  split
  · next candidate h =>
    split at h
    · cases h
    · cases h
      rfl
  · next h =>
    split at h
    · next hdots =>
      have hne : t.dir ≠ path := fun heq => hcanonical (heq ▸ hdots)
      simp [hne]
    · cases h

theorem succeeds_registeredWorktree {Q : Option RegisteredWorktree → Site → Prop}
    (hcanonical : ".." ∉ path.components) :
    Succeeds (registeredWorktree path) s Q ↔
      Q ((s.canonical.workTree? path).map fun t => ⟨t.dir, t.head.branch?⟩) s := by
  have habsolute : absoluteLexical path = .ok path := by simp [absoluteLexical, hcanonical]
  simp only [registeredWorktree, habsolute, Succeeds.bind_iff, Act.succeeds_lift,
    succeeds_worktrees, Succeeds.pure_iff, Except.ok.injEq, exists_eq_left']
  rw [registered hcanonical]

/-- A directory directly under the managed root that is not the canonical checkout. -/
structure Managed (m : WorkspaceManager) (path : AbsPath) : Prop where
  no_parent : ".." ∉ path.components
  parent : path.parent = some m.workspaceRoot.toAbsPath
  not_checkout : path ≠ m.repository.toAbsPath

theorem succeeds_ensureManagedPath {Q : Unit → Site → Prop} (h : Managed m path) :
    Succeeds (m.ensureManagedPath path) s Q ↔ Q () s := by
  simp [ensureManagedPath, absoluteLexical, h.no_parent, h.parent, h.not_checkout]

theorem not_succeeds_ensureAvailableTarget {Q : Unit → Site → Prop} (h : Managed m path)
    (hexists : s.pathExists path = true) : ¬ Succeeds (m.ensureAvailableTarget path) s Q := by
  simp [ensureAvailableTarget, succeeds_ensureManagedPath h, hexists]

/-! ## Worktrees that the task owns -/

variable {t : WorkTree} {baseBranch baseSha : String} {id : ℕ}

theorem workTree?_pruned (ht : s.canonical.workTree? path = some t) (hexists : s.pathExists path = true) :
    (pruned s).canonical.workTree? path = some t := by
  rw [← ht]
  exact workTree?_of_view? (view?_prune hexists)

/-- The proposal workspace of a task is reused if its `HEAD` is detached. -/
theorem succeeds_prepareProposal {Q : PreparedWorkspace → Site → Prop} (hid : id ≠ 0)
    (hbranch : ValidBranch env baseBranch) (hspelled : validateRevision baseSha = .ok ())
    (hknown : (s.canonical.tree? baseSha).isSome)
    (hpath : path = m.workspaceRoot.join (proposalDirectory id)) (hmanaged : Managed m path)
    (hexists : s.pathExists path = true) (ht : s.canonical.workTree? path = some t) :
    Succeeds (m.prepareProposal env id baseBranch baseSha .owned) s Q ↔
      t.head.branch? = none ∧ Q ⟨.proposal, path, none, baseBranch, baseSha, .reused⟩ (pruned s) := by
  have hdir := workTree?_dir ht
  simp [prepareProposal, hid, hbranch, succeeds_resolveCommit hspelled hknown, ← hpath,
    succeeds_registeredWorktree hmanaged.no_parent, workTree?_pruned ht hexists, reuseProposal,
    hdir, succeeds_ensureManagedPath hmanaged]

/-- The branch is checked out in this worktree and in no other. -/
def OnlyAt (s : Site) (branch : String) (path : AbsPath) (t : WorkTree) : Prop :=
  t.head = .branch branch ∧
    ∀ t' ∈ (pruned s).canonical.workTrees, t'.head = .branch branch → t'.dir = path

theorem checkedOut_eq_singleton (ht : (pruned s).canonical.workTree? path = some t) :
    checkedOut (pruned s) branch = [path] ↔ OnlyAt s branch path t := by
  have hmem : ∀ t', t' ∈ (pruned s).canonical.workTrees.rows.filter
      (fun t => t.head = .branch branch) ↔
        t' ∈ (pruned s).canonical.workTrees ∧ t'.head = .branch branch := by
    intro t'
    simp
  have hdir : t.dir = path := workTree?_dir ht
  have htree : t ∈ (pruned s).canonical.workTrees := KeyedTable.mem_of_get? ht
  constructor
  · intro hlist
    have hall : ∀ t' ∈ (pruned s).canonical.workTrees, t'.head = .branch branch → t'.dir = path := by
      intro t' ht' hhead
      have hin : t'.dir ∈ checkedOut (pruned s) branch :=
        List.mem_map_of_mem ((hmem t').mpr ⟨ht', hhead⟩)
      rwa [hlist, List.mem_singleton] at hin
    refine ⟨?_, hall⟩
    have hin : path ∈ checkedOut (pruned s) branch := by rw [hlist]; exact List.mem_singleton_self _
    obtain ⟨t', ht', hpath⟩ := List.mem_map.mp hin
    obtain ⟨htree', hhead⟩ := (hmem t').mp ht'
    rw [KeyedTable.eq_of_key_eq htree htree' (hdir.trans hpath.symm)]
    exact hhead
  · rintro ⟨hhead, hall⟩
    have hnodup : (checkedOut (pruned s) branch).Nodup :=
      (List.filter_sublist.map Git.WorkTree.dir).nodup (pruned s).canonical.workTrees.nodup
    have hin : path ∈ checkedOut (pruned s) branch :=
      List.mem_map.mpr ⟨t, (hmem t).mpr ⟨htree, hhead⟩, hdir⟩
    have heq : ∀ p ∈ checkedOut (pruned s) branch, p = path := by
      intro p hp
      obtain ⟨t', ht', rfl⟩ := List.mem_map.mp hp
      obtain ⟨htree', hhead'⟩ := (hmem t').mp ht'
      exact hall t' htree' hhead'
    rw [List.eq_replicate_of_mem heq] at hnodup hin ⊢
    have hlen : (checkedOut (pruned s) branch).length ≤ 1 := List.nodup_replicate.mp hnodup
    have hpos : (checkedOut (pruned s) branch).length ≠ 0 := (List.mem_replicate.mp hin).1
    rw [show (checkedOut (pruned s) branch).length = 1 by omega]
    rfl

/-- A branch that is checked out nowhere cannot be given a worktree where a directory stands. -/
theorem not_succeeds_createDelivery {issue : ℕ} {Q : PreparedWorkspace → Site → Prop}
    (hmanaged : Managed m (m.workspaceRoot.join (issueDirectory issue)))
    (hexists : s.pathExists (m.workspaceRoot.join (issueDirectory issue)) = true) :
    ¬ Succeeds (m.createDelivery env issue branch baseBranch baseSha .owned) s Q := by
  simp only [createDelivery, requireCapacity, retainedCount, Succeeds.bind_iff, Succeeds.get_iff,
    Succeeds.pure_iff, Act.succeeds_bailIf]
  exact fun h => not_succeeds_ensureAvailableTarget hmanaged hexists h.2

/-- The delivery workspace of a ticket is reused if its branch is checked out there alone. -/
theorem succeeds_prepareDelivery {issue : ℕ} {title : String} {Q : PreparedWorkspace → Site → Prop}
    (hissue : issue ≠ 0) (hbase : ValidBranch env baseBranch)
    (hbranch : ValidBranch env (deliveryBranch issue title))
    (hspelled : validateRevision baseSha = .ok ()) (hknown : (s.canonical.tree? baseSha).isSome)
    (hpath : path = m.workspaceRoot.join (issueDirectory issue)) (hmanaged : Managed m path)
    (hexists : s.pathExists path = true) (ht : s.canonical.workTree? path = some t)
    (hQ : ∀ p s', Q p s' → p.path = path) :
    Succeeds (m.prepareDelivery env issue title baseBranch baseSha .owned) s Q ↔
      OnlyAt s (deliveryBranch issue title) path t ∧
        Q ⟨.delivery, path, some (deliveryBranch issue title), baseBranch, baseSha, .reused⟩
          (pruned s) := by
  rw [← checkedOut_eq_singleton (workTree?_pruned ht hexists)]
  have hzero : decide (issue = 0) = false := by simpa using hissue
  simp only [prepareDelivery, Succeeds.bind_iff, Act.succeeds_bailIf, hzero, true_and,
    succeeds_validateBranch hbase, succeeds_validateBranch hbranch,
    succeeds_resolveCommit hspelled hknown, succeeds_prune, succeeds_worktreeForBranch]
  cases checkedOut (pruned s) (deliveryBranch issue title) with
  | nil =>
    have hcreate : ¬ Succeeds (m.createDelivery env issue (deliveryBranch issue title) baseBranch
        baseSha .owned) (pruned s) Q :=
      not_succeeds_createDelivery (hpath ▸ hmanaged) (hpath ▸ hexists)
    simp [hcreate]
  | cons p rest =>
    cases rest with
    | nil =>
      by_cases hp : p = path
      · subst hp
        simp [reuseDelivery, succeeds_ensureManagedPath hmanaged]
      · have hmismatch : ∀ s' : Site, ¬ Q ⟨.delivery, p, some (deliveryBranch issue title), baseBranch,
            baseSha, .reused⟩ s' := fun s' hq => hp (hQ _ s' hq)
        simp [reuseDelivery, hp, hmismatch]
    | cons q rest => simp

end WorkspaceManager
/-! ## Clones that the task owns -/

namespace CloneManager
variable {env : Services} {m : CloneManager} {s : Site} {path : AbsPath} {c : Clone} {t : WorkTree}
  {baseBranch baseSha repository : String} {L : Ledger → Prop}

/-- The site whose clone at `path` is `c`. -/
def withClone (s : Site) (path : AbsPath) (c : Clone) : Site :=
  { s with entries := s.entries.insert path (.clone c) }

@[simp] theorem clone?_withClone : (withClone s path c).clone? path = some c := by
  simp [Site.clone?, withClone]

@[simp] theorem withClone_withClone : withClone (withClone s path c) path c' = withClone s path c' := by
  simp [withClone, AList.insert_insert]

/-- A directory holds `view`, and the ledger is as `L` says. -/
def Left (path : AbsPath) (view : Option (WorkTree × Option String)) (L : Ledger → Prop) (s : Site) :
    Prop :=
  s.view? .clone path = view ∧ L s.ledger

@[simp] theorem view?_withClone :
    (withClone s path c).view? .clone path = c.repository.view? path := by
  simp [Site.view?, Site.repository?]

theorem left_withClone {view : Option (WorkTree × Option String)} :
    Left path view L (withClone s path c) ↔ c.repository.view? path = view ∧ L s.ledger := by
  rw [Left, view?_withClone]
  rfl

theorem succeeds_git {f : Clone → Except Git.Error Clone} {Q : Unit → Site → Prop}
    (hc : s.clone? path = some c) :
    Succeeds (git env path f) s Q ↔ ∃ c', f c = .ok c' ∧ Q () (withClone s path c') := by
  cases h : f c with
  | ok c' =>
    rw [Succeeds.ok_iff (a := ()) (t := withClone s path c') (by simp [git, hc, h, withClone])]
    simp
  | error e =>
    rw [Succeeds.error_iff (e := ["Git command failed with " ++ env.exitStatus e]) (t := s)
      (by simp [git, hc, h])]
    simp

theorem succeeds_git_withClone {f : Clone → Except Git.Error Clone} {Q : Unit → Site → Prop} :
    Succeeds (git env path f) (withClone s path c) Q ↔
      ∃ c', f c = .ok c' ∧ Q () (withClone s path c') := by
  simp [succeeds_git clone?_withClone]

theorem succeeds_gitOutput {f : Clone → Except Git.Error α} {Q : α → Site → Prop}
    (hc : s.clone? path = some c) :
    Succeeds (gitOutput env path f) s Q ↔ ∃ a, f c = .ok a ∧ Q a s := by
  cases h : f c with
  | ok a =>
    rw [Succeeds.ok_iff (a := a) (t := s) (by simp [gitOutput, hc, h])]
    simp
  | error e =>
    rw [Succeeds.error_iff (e := ["Git command failed with " ++ env.exitStatus e]) (t := s)
      (by simp [gitOutput, hc, h])]
    simp

theorem onRepository_ok {f : GitRepository → Except Git.Error GitRepository}
    (h : onRepository f c = .ok c') : f c.repository = .ok c'.repository := by
  cases hf : f c.repository with
  | error e =>
    rw [onRepository, hf] at h
    cases h
  | ok r =>
    rw [onRepository, hf] at h
    cases h
    rfl

/-- A command of Git that must leave the directory as it is. -/
theorem succeeds_onRepository {f : GitRepository → Except Git.Error GitRepository}
    (hc : s.clone? path = some c) :
    Succeeds (git env path (onRepository f)) s
        (fun _ s' => Left path (c.repository.view? path) L s') ↔
      c.repository.Keeps path (f c.repository) ∧ L s.ledger := by
  rw [succeeds_git hc]
  simp only [left_withClone]
  constructor
  · rintro ⟨c', h, hview, hledger⟩
    exact ⟨⟨c'.repository, onRepository_ok h, hview⟩, hledger⟩
  · rintro ⟨⟨r, h, hview⟩, hledger⟩
    exact ⟨{ c with repository := r }, by rw [onRepository, h]; rfl, hview, hledger⟩

/-- The remote serves the branch. -/
def Serves (s : Site) (branch : String) : Prop :=
  ∃ serve tip, s.remote = some serve ∧ serve branch = some tip

theorem Serves.fetch (h : Serves s branch) (r : GitRepository) :
    ∃ r', r.fetch s.remote branch = .ok r' := by
  obtain ⟨serve, tip, hremote, htip⟩ := h
  rw [hremote]
  exact fetch_ok r htip

/-- After the base has been refreshed, the clone holds what it held. -/
theorem succeeds_refreshBase (env : Services) {Q : Unit → Site → Prop} (hc : s.clone? path = some c)
    (hserves : Serves s baseBranch) (hknown : (c.repository.tree? baseSha).isSome) :
    ∃ c', c'.repository.view? path = c.repository.view? path ∧
      c'.repository.branches = c.repository.branches ∧
      (∀ sha, (c.repository.tree? sha).isSome → (c'.repository.tree? sha).isSome) ∧
      (Succeeds (refreshBase env path baseBranch baseSha) s Q ↔ Q () (withClone s path c')) := by
  obtain ⟨r, hr⟩ := hserves.fetch c.repository
  let credentials := gitCredentials env.provider
  let configured := addConfig credentials.credentialKey credentials.credentialHelper
    (replaceConfig credentials.credentialKey "" c)
  refine ⟨{ configured with repository := r }, view?_fetch hr, branches_fetch hr,
    fun sha => tree?_fetch hr, ?_⟩
  have hparse : r.revParse path (.commit baseSha) = .ok baseSha := by
    simp only [revParse, tree?_fetch hr hknown, if_true]
  have hfetch : onRepository (fun r => r.fetch s.remote baseBranch) configured =
      .ok { configured with repository := r } := by
    rw [onRepository, show configured.repository = c.repository from rfl, hr]
    rfl
  simp only [refreshBase, fetchInto, Succeeds.bind_iff, succeeds_git hc, succeeds_git_withClone,
    Succeeds.get_iff, succeeds_gitOutput clone?_withClone, Act.succeeds_bailIf, Except.ok.injEq,
    exists_eq_left']
  rw [show (withClone s path configured).remote = s.remote from rfl]
  simp [configured, credentials, hfetch, hparse]

/-- A branch of the remote that is not checked out here is not kept out. -/
theorem not_succeeds_checkoutRemoteBranch (env : Services) {branch : String} (hc : s.clone? path = some c)
    (ht : c.repository.workTree? path = some t) (hhead : t.head ≠ .branch branch) :
    ¬ Succeeds (checkoutRemoteBranch env path branch) s
      (fun _ s' => Left path (c.repository.view? path) L s') := by
  simp only [checkoutRemoteBranch, fetchInto, Succeeds.bind_iff, Succeeds.get_iff, succeeds_git hc]
  rintro ⟨c', hfetch, h⟩
  have hview : c'.repository.view? path = c.repository.view? path := view?_fetch (onRepository_ok hfetch)
  rw [← hview, succeeds_onRepository clone?_withClone] at h
  obtain ⟨hkeeps, -⟩ := h
  split at hkeeps
  · obtain ⟨r, hr, -⟩ := hkeeps
    cases hr
  · exact not_keeps_checkoutReset ((workTree?_of_view? hview).trans ht) hhead hkeeps

/-- The checkout of a retry keeps what the clone holds if it asks for what is checked out. -/
theorem succeeds_checkoutFor (env : Services) (branch : Option String) (hc : s.clone? path = some c)
    (ht : c.repository.workTree? path = some t) (hborn : (c.repository.commitAt? t.head).isSome)
    (hbase : (c.repository.tree? baseSha).isSome) :
    Succeeds (checkoutFor env path branch baseSha) s
        (fun _ s' => Left path (c.repository.view? path) L s') ↔
      (t.head = .onto branch baseSha ∧ t.isUnmerged = false) ∧ L s.ledger := by
  cases branch with
  | none =>
    exact (succeeds_onRepository hc).trans (and_congr_left' (keeps_checkoutDetached_iff ht hbase))
  | some branch =>
    simp only [checkoutFor, checkoutBranch, showRef, Succeeds.bind_iff, Succeeds.get_iff, hc,
      Succeeds.pure_iff]
    cases hlocal : c.repository.branches.lookup branch with
    | some tip =>
      simp only [Option.isSome_some, if_true]
      exact (succeeds_onRepository hc).trans
        (and_congr_left' (keeps_checkoutBranch_iff ht hlocal (branch_known hlocal)))
    | none =>
      have hhead : t.head ≠ .branch branch := by
        intro h
        rw [h] at hborn
        simp [commitAt?, hlocal] at hborn
      have hremote := not_succeeds_checkoutRemoteBranch env (L := L) hc ht hhead
      have hreset : ¬ Succeeds (git env path (onRepository fun r => r.checkoutReset path branch baseSha))
          s (fun _ s' => Left path (c.repository.view? path) L s') := by
        rw [succeeds_onRepository hc]
        exact fun h => not_keeps_checkoutReset ht hhead h.1
      simp only [Option.isSome_none, Bool.false_eq_true, if_false, one_ne_zero, Act.succeeds_bailIf,
        lsRemote, Succeeds.bind_iff, Succeeds.get_iff]
      split
      · simp [hhead, Git.Head.onto]
      · split
        · simp [hremote, hhead, Git.Head.onto]
        · simp [hreset, hhead, Git.Head.onto]

theorem succeeds_tokenOf {name token : String} {Q : String → Site → Prop} (h : env.env name = some token)
    (hblank : isBlank token = false) : Succeeds (tokenOf env name) s Q ↔ Q token s := by
  simp [tokenOf, h, hblank]

theorem succeeds_ensureManagedPath {name : String} {Q : Unit → Site → Prop}
    (hroot : env.canonicalize m.root.toAbsPath = some m.root)
    (hc : s.clone? (m.root.join name) = some c) :
    Succeeds (m.ensureManagedPath env (m.root.join name)) s Q ↔ Q () s := by
  have hentry : ∃ c, s.entries.lookup (m.root.join name) = some (.clone c) := by
    simp only [Site.clone?] at hc
    split at hc
    · next c' hlookup => exact ⟨c', hlookup⟩
    · cases hc
  obtain ⟨c', hentry⟩ := hentry
  simp [ensureManagedPath, hroot, hentry, AbsPath.join_ne]

theorem succeeds_requireStandaloneClone {Q : Unit → Site → Prop} (hc : s.clone? path = some c)
    (horigin : checkOrigin env.provider repository c.origin = .ok ()) :
    Succeeds (requireStandaloneClone env path repository) s Q ↔ Q () s := by
  simp [requireStandaloneClone, hc, succeeds_gitOutput hc, horigin, Unique.exists_iff]

/-- The clone of a task that has one is kept if the checkout asks for what is checked out. -/
theorem succeeds_prepare {taskId issue : ℕ} {title tokenEnv token name : String}
    {implementation : Bool} {branch : Option String} {L : StandaloneClone → Ledger → Prop}
    (hroot : env.canonicalize m.root.toAbsPath = some m.root)
    (htask : taskId ≠ 0) (hissue : implementation = true → issue ≠ 0)
    (hrepository : validateRepository env.provider repository = .ok ())
    (hspelled : validateRevision baseSha = .ok ())
    (hname : name = if implementation then issueDirectory issue else triageDirectory taskId)
    (hbranch : branch =
      if implementation then some (WorkspaceManager.deliveryBranch issue title) else none)
    (htoken : env.env tokenEnv = some token) (hblank : isBlank token = false)
    (hpath : path = m.root.join name) (hc : s.clone? path = some c)
    (horigin : checkOrigin env.provider repository c.origin = .ok ())
    (hserves : Serves s baseBranch) (ht : c.repository.workTree? path = some t)
    (hborn : (c.repository.commitAt? t.head).isSome)
    (hbase : (c.repository.tree? baseSha).isSome) :
    Succeeds (m.prepare env repository taskId issue title baseBranch baseSha implementation tokenEnv) s
        (fun p s' => Left path (c.repository.view? path) (L p) s') ↔
      (t.head = .onto branch baseSha ∧ t.isUnmerged = false) ∧
        L ⟨path, branch, baseBranch, baseSha⟩ s.ledger := by
  have hguard : (decide (taskId = 0) || implementation && decide (issue = 0)) = false := by
    cases implementation with
    | false => simp [htask]
    | true => simp [htask, hissue rfl]
  have hexists : s.pathExists path = true := by
    simp only [Site.clone?] at hc
    split at hc
    · next hlookup => simp [Site.pathExists, hlookup]
    · cases hc
  obtain ⟨c', hview, hbranches, hknown, hrefresh⟩ := succeeds_refreshBase env
    (Q := fun _ s => Succeeds (checkoutFor env path branch baseSha) s fun _ s' =>
      Left path (c.repository.view? path) (L ⟨path, branch, baseBranch, baseSha⟩) s')
    hc hserves hbase
  have hmanaged {Q : Unit → Site → Prop} :
      Succeeds (m.ensureManagedPath env path) s Q ↔ Q () s := by
    subst hpath
    exact succeeds_ensureManagedPath hroot hc
  have ht' : c'.repository.workTree? path = some t := (workTree?_of_view? hview).trans ht
  have hborn' : (c'.repository.commitAt? t.head).isSome := by
    cases hhead : t.head with
    | detached sha => rfl
    | branch b =>
      rw [hhead] at hborn
      rw [commitAt?, hbranches]
      exact hborn
  have hcheckout := succeeds_checkoutFor env branch (s := withClone s path c')
    (L := L ⟨path, branch, baseBranch, baseSha⟩) clone?_withClone ht' hborn' (hknown _ hbase)
  rw [hview] at hcheckout
  simp only [prepare, Succeeds.bind_iff, Act.succeeds_bailIf, Act.succeeds_lift, hguard, hrepository,
    hspelled, ← hname, ← hpath, hmanaged, succeeds_tokenOf htoken hblank, Succeeds.get_iff, hexists,
    Succeeds.pure_iff, succeeds_requireStandaloneClone hc horigin, ← hbranch, true_and,
    Unique.exists_iff, Bool.not_true, Bool.false_eq_true, if_false]
  exact hrefresh.trans hcheckout

end CloneManager

end FlashyFactory
