import FlashyFactory.Lib.KeyedTable
import Mathlib.Data.List.AList

/-! # Git repositories with several working trees

What the commands of Git do to the refs of a repository and to its working trees, each of which
has its own `HEAD` and index. The names of directories, branches, commits and paths and the
contents of files are parameters. A path is atomic: that a file stands where another path needs
a directory is not represented. -/

namespace Git
universe u

inductive Error
  | notAWorkTree
  | unknownRevision
  | branchInUse
  | branchExists
  | unmergedIndex
  | wouldOverwrite
  | unreachable
  | noRemoteBranch
  | alreadyExists
deriving DecidableEq, Repr

/-- What `HEAD` names. -/
inductive Head (B C : Type u) : Type u
  | detached (commit : C)
  | branch (name : B)
deriving DecidableEq

namespace Head

def branch? {B C : Type u} : Head B C → Option B
  | detached _ => none
  | branch name => some name

theorem branch?_eq_some {B C : Type u} {b : B} {h : Head B C} : h.branch? = some b ↔ h = .branch b := by
  cases h <;> simp [branch?]

theorem branch?_eq_none {B C : Type u} {h : Head B C} : h.branch? = none ↔ ∃ c, h = .detached c := by
  cases h <;> simp [branch?]

/-- The `HEAD` of a checkout: on a branch, or detached at the commit. -/
def onto (name : Option B) (commit : C) : Head B C :=
  match name with
  | none => .detached commit
  | some name => .branch name

theorem onto_detached {name : Option B} (h : onto name commit = .detached c) : c = commit := by
  cases name with
  | none => exact (detached.inj h).symm
  | some name => cases h

end Head

inductive Revision (B C : Type u) : Type u
  | head
  | commit (commit : C)
  | branch (name : B)
  | remoteBranch (name : B)

/-- The entry of a path in the index. -/
inductive Entry (X : Type u) : Type u
  | staged (blob : X)
  | unmerged
deriving DecidableEq

def Entry.isUnmerged {X : Type u} : Entry X → Bool
  | staged _ => false
  | unmerged => true

/-- The files of a commit. -/
abbrev Tree (P X : Type u) : Type u := AList fun _ : P => X

structure WorkTree (D B C P X : Type u) : Type u where
  dir : D
  head : Head B C
  index : AList fun _ : P => Entry X
  files : AList fun _ : P => X

/-- Every ref names a commit that the repository has. -/
structure Repository (D B C P X : Type u) [DecidableEq C] : Type u where
  /-- The directory of the main working tree. -/
  main : D
  commits : AList fun _ : C => Tree P X
  branches : AList fun _ : B => C
  /-- `refs/remotes/origin` -/
  remoteBranches : AList fun _ : B => C
  workTrees : KeyedTable (WorkTree.dir : WorkTree D B C P X → D)
  /-- The exclude patterns. -/
  ignored : P → Bool
  branches_known : ∀ e ∈ branches.entries, (commits.lookup e.2).isSome
  remoteBranches_known : ∀ e ∈ remoteBranches.entries, (commits.lookup e.2).isSome
  heads_known : ∀ t ∈ workTrees, ∀ c, t.head = .detached c → (commits.lookup c).isSome

/-- A branch of a remote, with the commits that lead to its tip. -/
structure RemoteBranch (C P X : Type u) [DecidableEq C] : Type u where
  tip : C
  commits : AList fun _ : C => Tree P X
  tip_known : (commits.lookup tip).isSome

/-- The branches that a remote serves. -/
abbrev Remote (B C P X : Type u) [DecidableEq C] : Type u := B → Option (RemoteBranch C P X)

variable {D B C P X : Type u}

/-! ## One working tree -/

/-- What a checkout does with one path. -/
inductive Move (X : Type u) : Type u
  | keep
  | put (new : Option X)
  | refuse

/-- The two-tree merge of a path that has the version `old` in the commit that is left and `new`
in the one that is entered. A file that is gone is no obstacle, and an ignored file that is not
in the index is overwritten. -/
def move [DecidableEq X] (ignored : Bool) (old new : Option X) (entry : Option (Entry X)) (file : Option X) : Move X :=
  if old = new ∨ entry = new.map .staged then .keep
  else if entry = old.map .staged ∧ (file = old ∨ file = none ∨ old = none ∧ ignored) then .put new
  else .refuse

namespace WorkTree
variable [DecidableEq P]

def isUnmerged (t : WorkTree D B C P X) : Bool := t.index.entries.any fun e => e.2.isUnmerged

def put (t : WorkTree D B C P X) (path : P) : Option X → WorkTree D B C P X
  | none => { t with index := t.index.erase path, files := t.files.erase path }
  | some blob =>
    { t with index := t.index.insert path (.staged blob), files := t.files.insert path blob }

def apply (t : WorkTree D B C P X) : List (P × Move X) → Except Error (WorkTree D B C P X)
  | [] => .ok t
  | (_, .keep) :: moves => t.apply moves
  | (path, .put new) :: moves => (t.put path new).apply moves
  | (_, .refuse) :: _ => .error .wouldOverwrite

/-- The working tree of a commit that has just been checked out. -/
def fresh (dir : D) (head : Head B C) (tree : Tree P X) : WorkTree D B C P X where
  dir := dir
  head := head
  index := ⟨tree.entries.map fun e => ⟨e.1, .staged e.2⟩, by
    have hkeys : (tree.entries.map fun e => (⟨e.1, .staged e.2⟩ : Σ _ : P, Entry X)).keys =
        tree.keys := by simp [List.keys, AList.keys]
    rw [List.NodupKeys, hkeys]
    exact tree.keys_nodup⟩
  files := tree

@[simp] theorem put_dir (t : WorkTree D B C P X) (path : P) (new : Option X) :
    (t.put path new).dir = t.dir := by cases new <;> rfl

theorem apply_dir {t t' : WorkTree D B C P X} {ms : List (P × Move X)} (h : t.apply ms = .ok t') :
    t'.dir = t.dir := by
  induction ms generalizing t with
  | nil =>
    cases h
    rfl
  | cons m ms ih =>
    obtain ⟨path, move⟩ := m
    cases move with
    | keep => exact ih h
    | put new => exact (ih (t := t.put path new) h).trans (put_dir t path new)
    | refuse => cases h

section
variable [DecidableEq X]

def moves (ignored : P → Bool) (old new : Tree P X) (t : WorkTree D B C P X) : List (P × Move X) :=
  (old.keys ++ new.keys).dedup.map fun path => (path,
    move (ignored path) (old.lookup path) (new.lookup path) (t.index.lookup path) (t.files.lookup path))

/-- `git status --porcelain` prints something. -/
def dirty (ignored : P → Bool) (head : Tree P X) (t : WorkTree D B C P X) : Bool :=
  (head.keys ++ t.index.keys ++ t.files.keys).any fun path =>
    let entry := t.index.lookup path
    let file := t.files.lookup path
    entry ≠ (head.lookup path).map .staged ||
      entry ≠ file.map .staged && (entry.isSome || !ignored path)

/-- A checkout of the commit that is checked out does nothing. -/
theorem apply_moves_self (ignored : P → Bool) (tree : Tree P X) (t : WorkTree D B C P X) :
    t.apply (t.moves ignored tree tree) = .ok t := by
  rw [moves]
  induction (tree.keys ++ tree.keys).dedup with
  | nil => rfl
  | cons path paths ih =>
    rw [List.map_cons, show move _ _ _ _ _ = Move.keep from if_pos (.inl rfl)]
    exact ih

end

end WorkTree

/-! ## The repository -/

namespace Repository
variable [DecidableEq D] [DecidableEq B] [DecidableEq C] {r r' : Repository D B C P X}
  {t : WorkTree D B C P X} {dir : D} {b : B} {c : C} {branch : Option B}

def workTree? (r : Repository D B C P X) (dir : D) : Option (WorkTree D B C P X) :=
  r.workTrees.get? dir

def tree? (r : Repository D B C P X) (c : C) : Option (Tree P X) := r.commits.lookup c

/-- The commit at `HEAD`; none on a branch yet to be born. -/
def commitAt? (r : Repository D B C P X) : Head B C → Option C
  | .detached c => some c
  | .branch b => r.branches.lookup b

/-- What a directory holds: its working tree, and the commit at its `HEAD`. -/
def view? (r : Repository D B C P X) (dir : D) : Option (WorkTree D B C P X × Option C) :=
  (r.workTree? dir).map fun t => (t, r.commitAt? t.head)

/-- `git rev-parse --verify ..^{commit}` -/
def revParse (r : Repository D B C P X) (dir : D) (rev : Revision B C) : Except Error C :=
  let found := match rev with
    | .head => (r.workTree? dir).bind fun t => r.commitAt? t.head
    | .commit c => if (r.tree? c).isSome then some c else none
    | .branch b => r.branches.lookup b
    | .remoteBranch b => r.remoteBranches.lookup b
  match found with
  | some c => .ok c
  | none => .error .unknownRevision

/-- `git worktree list` -/
def workTreeList (r : Repository D B C P X) : List (D × Option B) :=
  r.workTrees.rows.map fun t => (t.dir, t.head.branch?)

/-- `git status --porcelain` prints something. -/
def isDirty [DecidableEq P] [DecidableEq X] (r : Repository D B C P X) (dir : D) : Bool :=
  (r.workTree? dir).any fun t => t.dirty r.ignored (((r.commitAt? t.head).bind r.tree?).getD ∅)

/-- The working tree of a directory becomes `t`. -/
def place (r : Repository D B C P X) (t : WorkTree D B C P X)
    (h : ∀ c, t.head = .detached c → (r.commits.lookup c).isSome) : Repository D B C P X :=
  { r with
    workTrees := r.workTrees.upsert t
    heads_known := fun t' ht' => by
      rcases KeyedTable.mem_of_mem_upsert ht' with rfl | ht'
      · exact h
      · exact r.heads_known t' ht' }

def setBranch (r : Repository D B C P X) (b : B) (c : C) (h : (r.commits.lookup c).isSome) :
    Repository D B C P X :=
  { r with
    branches := r.branches.insert b c
    branches_known := fun e he => by
      rw [AList.entries_insert] at he
      rcases List.mem_cons.mp he with rfl | he
      · exact h
      · exact r.branches_known e ((List.kerase_sublist _ _).subset he) }

/-- `git worktree prune` -/
def prune (r : Repository D B C P X) (pathExists : D → Bool) : Repository D B C P X :=
  { r with
    workTrees := r.workTrees.eraseWhere fun t => t.dir ≠ r.main && !pathExists t.dir
    heads_known := fun t ht => r.heads_known t (KeyedTable.mem_eraseWhere.mp ht).1 }

theorem known_union {commits new : AList fun _ : C => Tree P X} (h : (commits.lookup c).isSome) :
    ((commits ∪ new).lookup c).isSome :=
  AList.lookup_isSome.mpr (AList.mem_union.mpr (.inl (AList.lookup_isSome.mp h)))

/-- `git fetch --no-tags origin +refs/heads/b:refs/remotes/origin/b` -/
def fetch (r : Repository D B C P X) (remote : Option (Remote B C P X)) (b : B) :
    Except Error (Repository D B C P X) :=
  match remote with
  | none => .error .unreachable
  | some serve =>
    match serve b with
    | none => .error .noRemoteBranch
    | some branch => .ok { r with
        commits := r.commits ∪ branch.commits
        remoteBranches := r.remoteBranches.insert b branch.tip
        branches_known := fun e he => known_union (r.branches_known e he)
        remoteBranches_known := fun e he => by
          rw [AList.entries_insert] at he
          rcases List.mem_cons.mp he with rfl | he
          · exact AList.lookup_isSome.mpr
              (AList.mem_union.mpr (.inr (AList.lookup_isSome.mp branch.tip_known)))
          · exact known_union (r.remoteBranches_known e ((List.kerase_sublist _ _).subset he))
        heads_known := fun t ht c hc => known_union (r.heads_known t ht c hc) }

/-- `git ls-remote --exit-code --heads origin refs/heads/b` -/
def lsRemote (remote : Option (Remote B C P X)) (b : B) : Except Error (Option C) :=
  match remote with
  | none => .error .unreachable
  | some serve => .ok ((serve b).map RemoteBranch.tip)

/-- The branch is checked out in a working tree, but not in this directory. -/
def inUseElsewhere (r : Repository D B C P X) (dir : D) (b : B) : Bool :=
  (r.workTree? dir).map WorkTree.head ≠ some (.branch b) &&
    r.workTrees.rows.any fun t => t.head = .branch b

section
variable [DecidableEq P] [DecidableEq X]

/-- Checks a commit out in a directory, on a branch or with a detached `HEAD`. -/
def switch (r : Repository D B C P X) (dir : D) (branch : Option B) (c : C) :
    Except Error (Repository D B C P X) :=
  match r.workTree? dir, hc : r.tree? c with
  | none, _ => .error .notAWorkTree
  | some _, none => .error .unknownRevision
  | some t, some new =>
    if t.isUnmerged then .error .unmergedIndex
    else
      let old := ((r.commitAt? t.head).bind r.tree?).getD ∅
      match t.apply (t.moves r.ignored old new) with
      | .error e => .error e
      | .ok t => .ok (r.place { t with head := .onto branch c } fun _ h => by
          rw [Head.onto_detached h]
          exact Option.isSome_of_eq_some hc)

/-- `git checkout b` -/
def checkoutBranch (r : Repository D B C P X) (dir : D) (b : B) : Except Error (Repository D B C P X) :=
  match r.branches.lookup b with
  | none => .error .unknownRevision
  | some c => if r.inUseElsewhere dir b then .error .branchInUse else r.switch dir (some b) c

/-- `git checkout --detach c` -/
def checkoutDetached (r : Repository D B C P X) (dir : D) (c : C) :
    Except Error (Repository D B C P X) :=
  r.switch dir none c

/-- `git checkout -B b c` -/
def checkoutReset (r : Repository D B C P X) (dir : D) (b : B) (c : C) :
    Except Error (Repository D B C P X) :=
  if r.inUseElsewhere dir b then .error .branchInUse
  else match r.switch dir (some b) c with
    | .error e => .error e
    | .ok r => if h : (r.commits.lookup c).isSome then .ok (r.setBranch b c h)
      else .error .unknownRevision

/-- `git worktree add dir b` and `git worktree add --detach dir c` -/
def worktreeAdd (r : Repository D B C P X) (pathExists : D → Bool) (dir : D) (branch : Option B)
    (c : C) : Except Error (Repository D B C P X) :=
  match hc : r.tree? c with
  | none => .error .unknownRevision
  | some tree =>
    if pathExists dir then .error .alreadyExists
    else if branch.any fun b => r.inUseElsewhere dir b then .error .branchInUse
    else .ok (r.place (.fresh dir (.onto branch c) tree) fun _ h => by
      rw [Head.onto_detached h]
      exact Option.isSome_of_eq_some hc)

/-- `git worktree add -b b dir c` -/
def worktreeAddNew (r : Repository D B C P X) (pathExists : D → Bool) (dir : D) (b : B) (c : C) :
    Except Error (Repository D B C P X) :=
  if (r.branches.lookup b).isSome then .error .branchExists
  else if h : (r.commits.lookup c).isSome then
    (r.setBranch b c h).worktreeAdd pathExists dir (some b) c
  else .error .unknownRevision

/-- `git worktree remove`, without `--force` unless `force`. -/
def worktreeRemove (r : Repository D B C P X) (force : Bool) (dir : D) :
    Except Error (Repository D B C P X) :=
  if (r.workTree? dir).isNone || dir = r.main then .error .notAWorkTree
  else if !force && r.isDirty dir then .error .wouldOverwrite
  else .ok { r with
    workTrees := r.workTrees.eraseWhere fun t => t.dir = dir
    heads_known := fun t ht => r.heads_known t (KeyedTable.mem_eraseWhere.mp ht).1 }

end

/-! ### What leaves a directory as it is -/

omit [DecidableEq D] in
theorem branch_known (h : r.branches.lookup b = some c) : (r.tree? c).isSome :=
  r.branches_known ⟨b, c⟩ (AList.mem_lookup_iff.mp h)

omit [DecidableEq B] in
theorem workTree?_dir (h : r.workTree? dir = some t) : t.dir = dir := KeyedTable.key_of_get? h

omit [DecidableEq B] in
theorem workTree?_place {h} : (r.place t h).workTree? t.dir = some t := by
  simp [workTree?, place, KeyedTable.get?_upsert]

theorem view?_prune {pathExists : D → Bool} (h : pathExists dir = true) :
    (r.prune pathExists).view? dir = r.view? dir := by
  have hget : (r.prune pathExists).workTree? dir = r.workTree? dir :=
    KeyedTable.get?_eraseWhere fun t _ ht => by simp [ht, h]
  rw [view?, view?, hget]
  rfl

theorem view?_fetch {remote : Option (Remote B C P X)} (h : r.fetch remote b = .ok r') :
    r'.view? dir = r.view? dir := by
  simp only [fetch] at h
  split at h
  · cases h
  · split at h
    · cases h
    · cases h
      rfl

omit [DecidableEq D] in
theorem fetch_ok (r : Repository D B C P X) {serve : Remote B C P X} (h : serve b = some tip) :
    ∃ r', r.fetch (some serve) b = .ok r' := by
  simp only [fetch, h]
  exact ⟨_, rfl⟩

omit [DecidableEq D] in
theorem branches_fetch {remote : Option (Remote B C P X)} (h : r.fetch remote b = .ok r') :
    r'.branches = r.branches := by
  simp only [fetch] at h
  split at h
  · cases h
  · split at h
    · cases h
    · cases h
      rfl

omit [DecidableEq D] in
theorem tree?_fetch {remote : Option (Remote B C P X)} (h : r.fetch remote b = .ok r')
    (hc : (r.tree? c).isSome) : (r'.tree? c).isSome := by
  simp only [fetch] at h
  split at h
  · cases h
  · split at h
    · cases h
    · cases h
      exact known_union hc

theorem workTree?_of_view? (h : r'.view? dir = r.view? dir) : r'.workTree? dir = r.workTree? dir := by
  simpa [view?, Option.map_map, Function.comp_def] using congrArg (Option.map Prod.fst) h

/-- A command succeeds and leaves what a directory holds as it is. -/
def Keeps (r : Repository D B C P X) (dir : D) (result : Except Error (Repository D B C P X)) : Prop :=
  ∃ r', result = .ok r' ∧ r'.view? dir = r.view? dir

section
variable [DecidableEq P] [DecidableEq X]

theorem switch_head (h : r.switch dir branch c = .ok r') :
    ∃ t, r'.workTree? dir = some t ∧ t.head = .onto branch c := by
  simp only [switch] at h
  split at h
  · cases h
  · cases h
  · next t new ht hc =>
    split at h
    · cases h
    · split at h
      · cases h
      · next t' happly =>
        cases h
        have hdir : t'.dir = dir := (t.apply_dir happly).trans (workTree?_dir ht)
        subst hdir
        exact ⟨{ t' with head := .onto branch c }, workTree?_place, rfl⟩

theorem switch_unmerged (ht : r.workTree? dir = some t) (hunmerged : t.isUnmerged = true) :
    r.switch dir branch c ≠ .ok r' := by
  intro h
  simp only [switch] at h
  split at h
  · cases h
  · cases h
  · next t' new ht' hc =>
    rw [ht] at ht'
    cases ht'
    rw [if_pos hunmerged] at h
    cases h

/-- A checkout of what is checked out. -/
theorem switch_self (ht : r.workTree? dir = some t) (hmerged : t.isUnmerged = false)
    (hhead : t.head = .onto branch c) (hcommit : r.commitAt? t.head = some c)
    (hc : (r.tree? c).isSome) : ∃ h, r.switch dir branch c = .ok (r.place t h) := by
  obtain ⟨tree, htree⟩ := Option.isSome_iff_exists.mp hc
  have hknown : ∀ c', t.head = .detached c' → (r.commits.lookup c').isSome := fun c' h => by
    rw [Head.onto_detached (hhead.symm.trans h)]
    exact hc
  refine ⟨hknown, ?_⟩
  simp only [switch]
  split
  · next h => cases ht.symm.trans h
  · next h => cases htree.symm.trans h
  · next t' new ht' hc' =>
    cases ht.symm.trans ht'
    cases htree.symm.trans hc'
    rw [if_neg (by simp [hmerged])]
    have hold : ((r.commitAt? t.head).bind r.tree?).getD ∅ = tree := by simp [hcommit, htree]
    simp only [hold, WorkTree.apply_moves_self, ← hhead]

omit [DecidableEq P] [DecidableEq X] in
theorem view?_place {h} (ht : r.workTree? dir = some t) : (r.place t h).view? dir = r.view? dir := by
  obtain rfl := workTree?_dir ht
  rw [view?, workTree?_place, view?, ht]
  rfl

/-- A checkout keeps a directory exactly if it asks for what is checked out there already. -/
theorem keeps_switch_iff (ht : r.workTree? dir = some t) (hc : (r.tree? c).isSome)
    (hcommit : t.head = .onto branch c → r.commitAt? t.head = some c) :
    r.Keeps dir (r.switch dir branch c) ↔ t.head = .onto branch c ∧ t.isUnmerged = false := by
  constructor
  · rintro ⟨r', h, hview⟩
    refine ⟨?_, ?_⟩
    · obtain ⟨t', ht', hhead⟩ := switch_head h
      rw [← workTree?_of_view? hview, ht'] at ht
      cases ht
      exact hhead
    · by_contra hunmerged
      exact switch_unmerged ht (by simpa using hunmerged) h
  · rintro ⟨hhead, hmerged⟩
    obtain ⟨hknown, h⟩ := switch_self ht hmerged hhead (hcommit hhead) hc
    exact ⟨_, h, view?_place ht⟩

theorem keeps_checkoutDetached_iff (ht : r.workTree? dir = some t) (hc : (r.tree? c).isSome) :
    r.Keeps dir (r.checkoutDetached dir c) ↔ t.head = .detached c ∧ t.isUnmerged = false :=
  keeps_switch_iff ht hc fun h => by rw [h]; rfl

theorem keeps_checkoutBranch_iff (ht : r.workTree? dir = some t) (hb : r.branches.lookup b = some c)
    (hc : (r.tree? c).isSome) :
    r.Keeps dir (r.checkoutBranch dir b) ↔ t.head = .branch b ∧ t.isUnmerged = false := by
  have hswitch : r.Keeps dir (r.switch dir (some b) c) ↔
      t.head = .branch b ∧ t.isUnmerged = false :=
    keeps_switch_iff ht hc fun h => by rw [h]; exact hb
  simp only [checkoutBranch, hb]
  split
  · next huse =>
    have hhead : t.head ≠ .branch b := fun h => by simp [inUseElsewhere, ht, h] at huse
    refine ⟨fun h => ?_, fun h => (hhead h.1).elim⟩
    obtain ⟨_, h, -⟩ := h
    cases h
  · exact hswitch

/-- `git checkout -B` of a branch that is not checked out here. -/
theorem not_keeps_checkoutReset (ht : r.workTree? dir = some t) (hhead : t.head ≠ .branch b) :
    ¬ r.Keeps dir (r.checkoutReset dir b c) := by
  rintro ⟨r', h, hview⟩
  simp only [checkoutReset] at h
  split at h
  · cases h
  · split at h
    · cases h
    · next r₁ hswitch =>
      split at h
      · cases h
        obtain ⟨t', ht', hhead'⟩ := switch_head hswitch
        have hsame : some t' = some t := ht'.symm.trans ((workTree?_of_view? hview).trans ht)
        cases hsame
        exact hhead hhead'
      · cases h

end

end Repository
end Git
