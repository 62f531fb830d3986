import FlashyFactory.Asana.Release

/-! # The last dependency of a waiting task

A task waits until everything that it reaches is completed. When a merged pull request completes the
last of it, the task is released, or at least listed with another revision, exactly if this last one is
among its direct dependencies. -/

namespace FlashyFactory
namespace Asana

variable {σ : Type} {api : Api σ} {s s' : σ} {project gid last : String} {python : Python}

/-! ## Listing the waiting tasks -/

theorem requireName_eq_ok : requireName name value = .ok a ↔ isPrintableName value ∧ value = a := by
  by_cases h : isPrintableName value <;> simp [requireName, h]

theorem listSource_eq_ok : listSource api s project python state labels maxResults = .ok issues ↔
    (isGid project ∧ isPrintableName state ∧ (∀ label ∈ labels, isPrintableName label) ∧
      1 ≤ maxResults ∧ maxResults ≤ 1000) ∧
    ∃ found, resolveSection api s project state = .ok found ∧
      (api.sectionTasks s found.gid).length ≤ maxResults ∧
      ∃ answers, List.Forall₂ (fun task answer => sourceIssue api s project python state labels found task =
        .ok answer) (api.sectionTasks s found.gid) answers ∧ answers.filterMap id = issues := by
  have hlabels : ∀ labels', labels.mapM (requireName "--label") = .ok labels' ↔
      (∀ label ∈ labels, isPrintableName label) ∧ labels = labels' := by
    intro labels'
    simp only [Except.mapM_eq_ok, requireName_eq_ok]
    rw [List.forall₂_and_left, List.forall₂_eq_eq_eq]
  simp only [listSource, Except.bind_eq_ok, requireGid_eq_ok, requireName_eq_ok, hlabels, refuseIf_eq_ok,
    paginate_eq_ok, Except.mapM_eq_ok, Except.pure_eq_ok, not_not]
  constructor
  · rintro ⟨_, ⟨hproject, rfl⟩, _, ⟨hstate, rfl⟩, _, ⟨hlabels, rfl⟩, _, hmax, found, hfound, _,
      ⟨hlength, rfl⟩, answers, hanswers, h⟩
    exact ⟨⟨hproject, hstate, hlabels, hmax⟩, found, hfound, hlength, answers, hanswers, h⟩
  · rintro ⟨⟨hproject, hstate, hlabels, hmax⟩, found, hfound, hlength, answers, hanswers, h⟩
    exact ⟨_, ⟨hproject, rfl⟩, _, ⟨hstate, rfl⟩, _, ⟨hlabels, rfl⟩, (), hmax, found, hfound, _,
      ⟨hlength, rfl⟩, answers, hanswers, h⟩

/-- The waiting tasks are listed, this one with the revision. -/
def Reports (api : Api σ) (s : σ) (project : String) (python : Python) (labels : List String) (maxResults : ℕ)
    (gid revision : String) : Prop :=
  ∃ issues, listSource api s project python waiting labels maxResults = .ok issues ∧
    ∃ issue ∈ issues, issue.key = gid ∧ issue.revision = revision

/-- What is listed of an autonomous waiting task. -/
def waitingRevision (found : ProjectSection) (task : Task) (dependency : DependencyState) : String :=
  "asana:" ++ found.gid ++ ":" ++ task.tagGids ++ ":" ++ dependency.dependencyRevision

def untrustedRevision (python : Python) (found : ProjectSection) (task : Task) : String :=
  "asana:" ++ found.gid ++ ":" ++ task.tagGids ++ ":unsafe:" ++
    python.sha256 (found.gid ++ ":" ++ task.tagGids ++ ":unsafe")

variable {labels : List String} {found : ProjectSection} {task : Task} {change : Change}

@[simp] theorem tagNames_modifiedAt : ({ task with modifiedAt := modifiedAt } : Task).tagNames = task.tagNames := rfl

@[simp] theorem isIn_modifiedAt :
    ({ task with modifiedAt := modifiedAt } : Task).isIn name = task.isIn name := rfl

theorem key_of_sourceIssue (h : sourceIssue api s project python state labels found task = .ok (some issue)) :
    issue.key = task.gid := by
  unfold sourceIssue at h
  split at h
  · cases h
  simp only [Except.bind_eq_ok, requireGid_eq_ok, refuseIf_eq_ok] at h
  obtain ⟨_, ⟨-, rfl⟩, _, -, h⟩ := h
  split at h
  · split at h
    · simp only [Except.pure_eq_ok, Option.some.injEq] at h
      exact h ▸ rfl
    · split at h
      · cases h
      · simp only [Except.pure_eq_ok, Option.some.injEq] at h
        exact h ▸ rfl
    · cases h
  · simp only [Except.pure_eq_ok, Option.some.injEq] at h
    exact h ▸ rfl

theorem revision_of_sourceIssue (htag : task.tagNames.contains autonomousToPr = true) (hgid : task.gid = gid)
    (h : sourceIssue api s project python waiting labels found task = .ok (some issue)) :
    (∃ dependency, dependencyState api s project python gid [] = .ok dependency ∧
      issue.revision = waitingRevision found task dependency) ∨
    ∃ message rateLimited, dependencyState api s project python gid [] =
      .error (.clientError message rateLimited) ∧ issue.revision = untrustedRevision python found task := by
  subst hgid
  unfold sourceIssue at h
  split at h
  · cases h
  simp only [Except.bind_eq_ok, requireGid_eq_ok, refuseIf_eq_ok, if_true] at h
  obtain ⟨_, ⟨-, rfl⟩, _, -, h⟩ := h
  split at h
  · next dependency hdependency =>
    simp only [Except.pure_eq_ok, Option.some.injEq] at h
    exact .inl ⟨dependency, hdependency, h ▸ rfl⟩
  · next message rateLimited hdependency =>
    split at h
    · cases h
    · simp only [Except.pure_eq_ok, Option.some.injEq] at h
      exact .inr ⟨message, rateLimited, hdependency, h ▸ rfl⟩
  · cases h

/-- The listing of a waiting task that does not change itself goes on to succeed. -/
theorem sourceIssue_changes (H : Changes api project change s s') (modifiedAt : String)
    (h : sourceIssue api s project python waiting labels found task = .ok answer) :
    ∃ answer', sourceIssue api s' project python waiting labels found { task with modifiedAt := modifiedAt } =
      .ok answer' ∧ (answer.isSome → answer'.isSome) := by
  unfold sourceIssue at h ⊢
  simp only [Task.tagNames] at h ⊢
  split at h
  · next hskip =>
    cases h
    rw [if_pos hskip]
    exact ⟨none, rfl, fun h => by cases h⟩
  next hskip =>
  rw [if_neg hskip]
  simp only [Except.bind_eq_ok, requireGid_eq_ok, refuseIf_eq_ok] at h ⊢
  obtain ⟨_, ⟨hgid, rfl⟩, _, hname, h⟩ := h
  split at h
  · next htag =>
    simp only [htag, if_true]
    split at h
    · next dependency hdependency =>
      obtain ⟨dependency', hdependency'⟩ := H.dependencyState_ok hdependency
      exact ⟨_, ⟨_, ⟨hgid, rfl⟩, (), hname, by rw [hdependency']; rfl⟩, fun _ => rfl⟩
    · next message rateLimited hdependency =>
      split at h
      · cases h
      next hlimit =>
      have hdependency' := H.dependencyState_eq_error.mpr hdependency
      exact ⟨_, ⟨_, ⟨hgid, rfl⟩, (), hname, by rw [hdependency']; simp only [hlimit]; rfl⟩, fun _ => rfl⟩
    · cases h
  · next htag =>
    simp only [htag]
    exact ⟨_, ⟨_, ⟨hgid, rfl⟩, (), hname, rfl⟩, fun _ => rfl⟩

/-- What is behind a reported revision. -/
theorem Reports.source (hdoc : api.Documented) (h : Reports api s project python labels maxResults gid revision) :
    ∃ found task issue, resolveSection api s project waiting = .ok found ∧
      task ∈ api.sectionTasks s found.gid ∧ api.task s gid = some task ∧ task.gid = gid ∧
      sourceIssue api s project python waiting labels found task = .ok (some issue) ∧
      issue.revision = revision := by
  obtain ⟨issues, hissues, issue, hissue, hkey, hrevision⟩ := h
  obtain ⟨-, found, hfound, -, answers, hanswers, rfl⟩ := listSource_eq_ok.mp hissues
  have hanswer : some issue ∈ answers := by simpa using hissue
  obtain ⟨task, htask, hsource⟩ := Except.mapM_backward hanswers hanswer
  have hgid : task.gid = gid := (key_of_sourceIssue hsource).symm.trans hkey
  exact ⟨found, task, issue, hfound, htask, hgid ▸ (hdoc.mem_sectionTasks.mp htask).1, hgid, hsource, hrevision⟩

/-! ## The text of the direct dependencies -/

def canonicalEntry (entry : String × Bool) : String :=
  "[\"" ++ entry.1 ++ "\"," ++ (if entry.2 then "true" else "false") ++ "]"

theorem canonicalEntry_append_inj {key : String} {x y : List Char} (h :
      (canonicalEntry (key, a)).toList ++ x = (canonicalEntry (key, b)).toList ++ y) : a = b ∧ x = y := by
  simp only [canonicalEntry, String.toList_append, List.append_assoc, List.append_cancel_left_eq] at h
  cases a <;> cases b <;> simp_all

theorem canonical_inj {entries entries' : List (String × Bool)}
    (hkeys : entries.map Prod.fst = entries'.map Prod.fst) (h : canonical entries = canonical entries') :
    entries = entries' := by
  have htexts : ([','].intercalate (entries.map fun entry => (canonicalEntry entry).toList)) ++ [']'] =
      ([','].intercalate (entries'.map fun entry => (canonicalEntry entry).toList)) ++ [']'] := by
    have hlists := congrArg String.toList h
    simpa [canonical, canonicalEntry, String.toList_append, String.toList_intercalate, Function.comp_def] using hlists
  clear h
  induction entries generalizing entries' with
  | nil =>
    cases entries' with
    | nil => rfl
    | cons => cases hkeys
  | cons entry entries ih =>
    cases entries' with
    | nil => cases hkeys
    | cons entry' entries' =>
      obtain ⟨key, a⟩ := entry
      obtain ⟨key', b⟩ := entry'
      simp only [List.map_cons, List.cons.injEq] at hkeys
      obtain ⟨rfl, hkeys⟩ := hkeys
      cases entries with
      | nil =>
        cases entries' with
        | nil =>
          simp only [List.map_cons, List.map_nil, List.intercalate_singleton] at htexts
          obtain ⟨rfl, -⟩ := canonicalEntry_append_inj htexts
          rfl
        | cons => cases hkeys
      | cons next entries =>
        cases entries' with
        | nil => cases hkeys
        | cons next' entries' =>
          simp only [List.map_cons, List.intercalate_cons_cons, List.append_assoc] at htexts
          obtain ⟨rfl, hrest⟩ := canonicalEntry_append_inj htexts
          rw [ih hkeys (List.append_cancel_left hrest)]

/-! ## The last dependency -/

/-- The autonomous task waits, of all that it reaches, for this one only. -/
structure WaitsForLast (api : Api σ) (s : σ) (project gid last : String) (task : Task) : Prop where
  wellFormed : WellFormed api s project gid
  known : api.task s gid = some task
  autonomous : task.authorization = .autonomous
  incomplete : task.completed = false
  isIn : task.isIn waiting = true
  ne : last ≠ gid
  reaches : Reaches api s gid last
  blocks : ∃ blocker, api.task s last = some blocker ∧ blocker.completed = false
  others : ∀ node, Reaches api s gid node → node ≠ gid → node ≠ last →
    ∃ blocker, api.task s node = some blocker ∧ blocker.completed = true

/-- The digest tells the texts of the direct dependencies before and after apart. -/
def Python.Distinguishes (python : Python) (api : Api σ) (s s' : σ) (task : Task) : Prop :=
  let text (s : σ) := canonical (completion api s (task.dependencies.insertionSort (· ≤ ·)))
  python.sha256 (text s) = python.sha256 (text s') → text s = text s'

theorem autonomous_tag (h : task.authorization = .autonomous) : task.tagNames.contains autonomousToPr = true := by
  unfold Task.authorization at h
  generalize task.tagNames.contains backlogOnly = manual at h
  generalize task.tagNames.contains autonomousToPr = autonomous at h ⊢
  cases manual <;> cases autonomous <;> simp_all

theorem not_isIn_both (h : task.isIn waiting = true) : task.isIn readyToImplement = false := by
  simp only [Task.isIn, Bool.and_eq_true, decide_eq_true_eq, List.all_eq_true] at h
  obtain ⟨hne, hall⟩ := h
  obtain ⟨membership, hmem⟩ := List.exists_mem_of_ne_nil _ hne
  simp only [Task.isIn, Bool.and_eq_false_iff, List.all_eq_false]
  refine .inr ⟨membership, hmem, ?_⟩
  rw [hall membership hmem]
  decide

namespace WaitsForLast
variable (W : WaitsForLast api s project gid last task)
include W

/-- The report on the task, if the last dependency is taken as completed. -/
theorem unblocked {state : DependencyState} (h : dependencyState api s project python gid [last] = .ok state) :
    state.blocked = false := by
  obtain ⟨other, hother, hstate⟩ := dependencyState_describes h
  rw [← Bool.not_eq_true, hstate.blocked]
  rintro ⟨node, hreaches, hnode, hassumed, blocker, hblocker, hincomplete⟩
  obtain ⟨other, hother, hcompleted⟩ := W.others node hreaches hnode (by simpa using hassumed)
  cases hblocker.symm.trans hother
  cases hincomplete.symm.trans hcompleted

/-- A direct dependent that is validated is released. -/
theorem routed {found : List (String × String)} (hdirect : last ∈ task.dependencies) (hdoc : api.Documented)
    (h : RoutesOf api s project python last (api.dependents s last) found) :
    (gid, readyToImplement) ∈ found := by
  have hdependent : gid ∈ api.dependents s last := hdoc.mem_dependents.mpr ⟨task, W.known, hdirect⟩
  obtain ⟨live, hlive, route, hroute⟩ := h.read gid hdependent
  cases W.known.symm.trans (reconciliationTask_ok hlive).1
  refine (h.mem gid _).mpr ⟨hdependent, ?_⟩
  simp only [routeOf, W.autonomous, W.incomplete, W.isIn, reduceCtorEq, decide_false, Bool.or_self,
    Bool.not_true, Bool.false_eq_true, if_false, ne_eq, not_true_eq_false] at hroute
  obtain ⟨state, hstate, -⟩ := Except.map_eq_ok.mp hroute
  exact .autonomous hlive W.incomplete W.isIn W.autonomous hstate (W.unblocked hstate)

/-- What the task was listed with. -/
theorem revision {revision : String} (hdoc : api.Documented)
    (h : Reports api s project python labels maxResults gid revision) :
    ∃ found state, resolveSection api s project waiting = .ok found ∧ task ∈ api.sectionTasks s found.gid ∧
      dependencyState api s project python gid [] = .ok state ∧ revision = waitingRevision found task state := by
  obtain ⟨found, other, issue, hfound, hmem, hother, hgid, hsource, rfl⟩ := h.source hdoc
  cases W.known.symm.trans hother
  refine ⟨found, ?_⟩
  rcases revision_of_sourceIssue (autonomous_tag W.autonomous) hgid hsource with
    ⟨state, hstate, hrevision⟩ | ⟨message, rateLimited, herror, -⟩
  · exact ⟨state, hfound, hmem, hstate, hrevision⟩
  · rw [dependencyState, Except.bind_eq_error] at herror
    rcases herror with hwalk | ⟨w, -, h⟩
    · exact (W.wellFormed.walk_ne_clientError hwalk).elim
    · cases h

end WaitsForLast

theorem Changes.resolveSection_eq (H : Changes api project change s s') :
    resolveSection api s' project name = resolveSection api s project name := by
  unfold resolveSection
  rw [H.rewrites.sections]

/-- A task that is neither moved nor completed. -/
theorem Changes.kept (H : Changes api project change s s') (h : api.task s gid = some task)
    (hplaces : change.places gid = none) (hcompletes : change.completes gid = false) :
    ∃ modifiedAt, api.task s' gid = some { task with modifiedAt := modifiedAt } := by
  obtain ⟨modifiedAt, htask⟩ := H.task h
  exact ⟨modifiedAt, by simpa [Change.apply, hplaces, hcompletes] using htask⟩

/-- What the completion of the last dependency leaves behind. -/
theorem reconciled_change (hdoc : api.Documented)
    (hrun : reconcilePullRequest api s project python last .merged = .ok (report, s'))
    (hblocks : ∃ blocker, api.task s last = some blocker ∧ blocker.completed = false)
    (hcompleted : ∃ blocker, api.task s' last = some blocker ∧ blocker.completed = true) :
    ∃ change, Changes api project change s s' ∧ (∀ other, change.completes other = decide (other = last)) ∧
      ((∀ other, other ≠ last → change.places other = none) ∨
        ∃ found, RoutesOf api s project python last (api.dependents s last) found ∧
          (∀ dependent name, (dependent, name) ∈ found →
            ∃ sec, change.places dependent = some sec ∧ resolveSection api s project name = .ok sec) ∧
          ∀ other, other ≠ last → other ∉ found.map Prod.fst → change.places other = none) := by
  obtain ⟨blocker, hblocker, hincomplete⟩ := hblocks
  obtain ⟨blocker', hblocker', hcompleted⟩ := hcompleted
  obtain ⟨task, htask, hlane⟩ := reconcilePullRequest_merged hrun
  cases hblocker.symm.trans (reconciliationTask_ok htask).1
  rcases hlane with ⟨-, moved, hmoved, rfl⟩ | ⟨-, hmoved⟩ | ⟨hlane, hmerged⟩
  · obtain ⟨change, hchange, hcompletes, hplaces⟩ := settleIn_ok hdoc htask hmoved
    obtain ⟨modifiedAt, h⟩ := hchange.task hblocker
    have hcomplete : Changes api project { completes := fun other => other = last } _ _ :=
      completeUnless_changes hdoc blocker h (by simp [Change.apply, hcompletes])
    refine ⟨_, hchange.trans hcomplete, fun other => ?_, .inl fun other hother => ?_⟩
    · simp [Change.andThen, hcompletes]
    · simp [Change.andThen, hplaces other hother]
  · obtain ⟨change, hchange, hcompletes, -⟩ := settleIn_ok hdoc htask hmoved
    obtain ⟨modifiedAt, h⟩ := hchange.task hblocker
    cases hblocker'.symm.trans h
    simp [Change.apply, hcompletes, hincomplete] at hcompleted
  · obtain ⟨found, change, hroutes, H⟩ := reconcileMerged_ok hdoc htask hlane hmerged
    exact ⟨change, H.changes, H.completes, .inr ⟨found, hroutes, H.routed, H.unrouted⟩⟩

/-- Only one task is completed, and no other is moved: what is listed after was listed before. -/
theorem Changes.listed_before (H : Changes api project change s s') (hdoc : api.Documented)
    (hcompletes : ∀ other, change.completes other = decide (other = last))
    (hplaces : ∀ other, other ≠ last → change.places other = none) {task' : Task}
    (hmem : task' ∈ api.sectionTasks s' inSection) :
    ∃ task modifiedAt, task ∈ api.sectionTasks s inSection ∧ task' = { task with modifiedAt := modifiedAt } := by
  obtain ⟨hknown, hincomplete, hsection⟩ := hdoc.mem_sectionTasks.mp hmem
  obtain ⟨before, modifiedAt, hbefore, heq⟩ := H.of_task hknown
  have hgid : task'.gid ≠ last := by
    intro hgid
    have hcompleted := congrArg Task.completed heq
    simp [Change.apply, hcompletes, hgid, hincomplete] at hcompleted
  have hsame : task' = { before with modifiedAt := modifiedAt } := by
    simpa [Change.apply, hcompletes, hplaces _ hgid, hgid] using heq
  subst hsame
  exact ⟨before, modifiedAt, hdoc.mem_sectionTasks.mpr ⟨hbefore, hincomplete, hsection⟩, rfl⟩

theorem length_sectionTasks_le (hdoc : api.Documented)
    (h : ∀ task' ∈ api.sectionTasks s' inSection, ∃ task modifiedAt, task ∈ api.sectionTasks s inSection ∧
      task' = { task with modifiedAt := modifiedAt }) :
    (api.sectionTasks s' inSection).length ≤ (api.sectionTasks s inSection).length := by
  have hsub : (api.sectionTasks s' inSection).map Task.gid ⊆ (api.sectionTasks s inSection).map Task.gid := by
    intro key hkey
    obtain ⟨task', hmem, rfl⟩ := List.mem_map.mp hkey
    obtain ⟨before, modifiedAt, hbefore, rfl⟩ := h task' hmem
    exact List.mem_map.mpr ⟨before, hbefore, rfl⟩
  simpa using (hdoc.nodup_sectionTasks.subperm hsub).length_le

/-- The digests of two texts that differ at the last dependency differ. -/
theorem WaitsForLast.revision_ne (W : WaitsForLast api s project gid last task)
    (hdirect : last ∈ task.dependencies) (H : Changes api project change s s')
    (hcompletes : ∀ other, change.completes other = decide (other = last))
    (hdigest : python.Distinguishes api s s' task) {state state' : DependencyState}
    (hstate : dependencyState api s project python gid [] = .ok state)
    (hstate' : dependencyState api s' project python gid [] = .ok state') :
    state'.dependencyRevision ≠ state.dependencyRevision := by
  intro heq
  obtain ⟨_, hother, hdescribes⟩ := dependencyState_describes hstate
  cases W.known.symm.trans hother
  obtain ⟨modifiedAt, htask'⟩ := H.task W.known
  obtain ⟨_, hother', hdescribes'⟩ := dependencyState_describes hstate'
  cases htask'.symm.trans hother'
  rw [hdescribes.dependencyRevision, hdescribes'.dependencyRevision, String.append_right_inj] at heq
  have hentries := canonical_inj (by simp) (hdigest heq.symm)
  have hlast := List.map_inj_left.mp hentries last ((List.mem_insertionSort _).mpr hdirect)
  obtain ⟨blocker, hblocker, hincomplete⟩ := W.blocks
  obtain ⟨modifiedAt', hblocker'⟩ := H.task hblocker
  simp [hblocker, hblocker', hincomplete, Change.apply, hcompletes] at hlast

/-- A manual completion leaves the listing of the waiting tasks, with the completed dependency in the
text of the task. -/
theorem WaitsForLast.relisted (W : WaitsForLast api s project gid last task) (hdoc : api.Documented)
    (hdirect : last ∈ task.dependencies) (H : Changes api project change s s')
    (hcompletes : ∀ other, change.completes other = decide (other = last))
    (hplaces : ∀ other, other ≠ last → change.places other = none)
    (hdigest : python.Distinguishes api s s' task) {revision : String}
    (hreports : Reports api s project python labels maxResults gid revision) :
    ∃ revision', Reports api s' project python labels maxResults gid revision' ∧ revision' ≠ revision := by
  obtain ⟨found, state, hfound, hmem, hstate, rfl⟩ := W.revision hdoc hreports
  obtain ⟨_, _, issue, hfound', -, htask, hgid, hsource, -⟩ := hreports.source hdoc
  cases W.known.symm.trans htask
  cases hfound.symm.trans hfound'
  obtain ⟨issues, hissues, -⟩ := hreports
  obtain ⟨harguments, _, hfound', hlength, answers, hanswers, rfl⟩ := listSource_eq_ok.mp hissues
  cases hfound.symm.trans hfound'
  have hbefore : ∀ task' ∈ api.sectionTasks s' found.gid, ∃ before modifiedAt,
      before ∈ api.sectionTasks s found.gid ∧ task' = { before with modifiedAt := modifiedAt } :=
    fun _ => H.listed_before hdoc hcompletes hplaces
  obtain ⟨answers', hanswers'⟩ : ∃ answers', List.Forall₂
      (fun task' answer' => sourceIssue api s' project python waiting labels found task' = .ok answer')
      (api.sectionTasks s' found.gid) answers' := by
    refine Except.mapM_total fun task' hmem' => ?_
    obtain ⟨before, modifiedAt, hbefore, rfl⟩ := hbefore task' hmem'
    obtain ⟨answer, -, hanswer⟩ := Except.mapM_forward hanswers hbefore
    obtain ⟨answer', hanswer', -⟩ := sourceIssue_changes H modifiedAt hanswer
    exact ⟨answer', hanswer'⟩
  have hcompletesGid : change.completes gid = false := by simpa [hcompletes] using W.ne.symm
  obtain ⟨modifiedAt, htask'⟩ := H.kept W.known (hplaces gid W.ne.symm) hcompletesGid
  have hmem' : { task with modifiedAt := modifiedAt } ∈ api.sectionTasks s' found.gid := by
    obtain ⟨-, hincomplete, hsection⟩ := hdoc.mem_sectionTasks.mp hmem
    exact hdoc.mem_sectionTasks.mpr ⟨hgid ▸ htask', hincomplete, hsection⟩
  obtain ⟨answer', hanswer', hsource'⟩ := Except.mapM_forward hanswers' hmem'
  obtain ⟨_, hsource'', hsome⟩ := sourceIssue_changes H modifiedAt hsource
  cases hsource'.symm.trans hsource''
  obtain ⟨issue', rfl⟩ := Option.isSome_iff_exists.mp (hsome rfl)
  obtain ⟨state', hstate'⟩ := H.dependencyState_ok hstate
  refine ⟨issue'.revision, ⟨_, listSource_eq_ok.mpr ⟨harguments, found, H.resolveSection_eq.trans hfound,
    (length_sectionTasks_le hdoc hbefore).trans hlength, answers', hanswers', rfl⟩, issue', by simpa using hanswer',
    (key_of_sourceIssue hsource').trans hgid, rfl⟩, fun heq => ?_⟩
  have htag : ({ task with modifiedAt := modifiedAt } : Task).tagNames.contains autonomousToPr = true := by
    rw [tagNames_modifiedAt]
    exact autonomous_tag W.autonomous
  rcases revision_of_sourceIssue htag hgid hsource' with ⟨_, h, hrevision'⟩ | ⟨_, _, h, -⟩
  · cases hstate'.symm.trans h
    rw [hrevision'] at heq
    exact W.revision_ne hdirect H hcompletes hdigest hstate hstate' (by simpa [waitingRevision, Task.tagGids] using heq)
  · cases hstate'.symm.trans h

/-- An indirect dependency that is completed leaves the task in its section, with its revision. -/
theorem WaitsForLast.unnoticed (W : WaitsForLast api s project gid last task) (hdoc : api.Documented)
    (hindirect : last ∉ task.dependencies)
    (hrun : reconcilePullRequest api s project python last .merged = .ok (report, s'))
    (hcompleted : ∃ blocker, api.task s' last = some blocker ∧ blocker.completed = true) {revision : String}
    (hreports : Reports api s project python labels maxResults gid revision) :
    (∀ live, api.task s' gid = some live → live.isIn readyToImplement = false) ∧
      ∀ revision', Reports api s' project python labels maxResults gid revision' → revision' = revision := by
  obtain ⟨change, H, hcompletes, hplaces⟩ := reconciled_change hdoc hrun W.blocks hcompleted
  have hcompletesGid : change.completes gid = false := by simpa [hcompletes] using W.ne.symm
  have hunplaced : change.places gid = none := by
    rcases hplaces with hplaces | ⟨found, hroutes, -, hunrouted⟩
    · exact hplaces gid W.ne.symm
    · refine hunrouted gid W.ne.symm fun hmem => hindirect ?_
      obtain ⟨⟨_, name⟩, hname, rfl⟩ := List.mem_map.mp hmem
      obtain ⟨_, hother, hdirect⟩ := hdoc.mem_dependents.mp ((hroutes.mem _ name).mp hname).1
      cases W.known.symm.trans hother
      exact hdirect
  obtain ⟨modifiedAt, htask'⟩ := H.kept W.known hunplaced hcompletesGid
  refine ⟨fun live hlive => ?_, fun revision' hreports' => ?_⟩
  · cases htask'.symm.trans hlive
    rw [isIn_modifiedAt, not_isIn_both W.isIn]
  · obtain ⟨found, state, hfound, -, hstate, rfl⟩ := W.revision hdoc hreports
    obtain ⟨found', other, issue, hfound', -, hother, hgid, hsource, rfl⟩ := hreports'.source hdoc
    rw [H.resolveSection_eq] at hfound'
    cases hfound.symm.trans hfound'
    cases htask'.symm.trans hother
    obtain ⟨state', hstate'⟩ := H.dependencyState_ok hstate
    have hsame := H.dependencyRevision_eq hstate hstate' W.known fun blocker hblocker => by
      have hne : blocker ≠ last := fun h => hindirect (h ▸ hblocker)
      simpa [hcompletes] using hne
    have htag : ({ task with modifiedAt := modifiedAt } : Task).tagNames.contains autonomousToPr = true := by
      rw [tagNames_modifiedAt]
      exact autonomous_tag W.autonomous
    rcases revision_of_sourceIssue htag hgid hsource with ⟨_, h, hrevision⟩ | ⟨_, _, h, -⟩
    · cases hstate'.symm.trans h
      exact hrevision.trans (by simp [waitingRevision, Task.tagGids, hsame])
    · cases hstate'.symm.trans h

/-- **The last dependency wakes the task exactly if it is a direct one**: either the merged pull request
releases the task, or its listing has another revision. -/
theorem last_dependency_wakes_iff (hdoc : api.Documented) (W : WaitsForLast api s project gid last task)
    (hrun : reconcilePullRequest api s project python last .merged = .ok (report, s'))
    (hcompleted : ∃ blocker, api.task s' last = some blocker ∧ blocker.completed = true)
    (hdigest : python.Distinguishes api s s' task) {revision : String}
    (hreports : Reports api s project python labels maxResults gid revision) :
    ((∃ live, api.task s' gid = some live ∧ live.isIn readyToImplement = true) ∨
      ∃ revision', Reports api s' project python labels maxResults gid revision' ∧ revision' ≠ revision) ↔
    last ∈ task.dependencies := by
  constructor
  · intro hwakes
    by_contra hindirect
    obtain ⟨hsection, hrevision⟩ := W.unnoticed hdoc hindirect hrun hcompleted hreports
    rcases hwakes with ⟨live, hlive, hready⟩ | ⟨revision', hreports', hne⟩
    · cases hready.symm.trans (hsection live hlive)
    · exact hne (hrevision revision' hreports')
  · intro hdirect
    obtain ⟨change, H, hcompletes, hplaces⟩ := reconciled_change hdoc hrun W.blocks hcompleted
    rcases hplaces with hplaces | ⟨found, hroutes, hrouted, -⟩
    · exact .inr (W.relisted hdoc hdirect H hcompletes hplaces hdigest hreports)
    · obtain ⟨sec, hsec, hname⟩ := hrouted gid readyToImplement (W.routed hdirect hdoc hroutes)
      obtain ⟨modifiedAt, htask'⟩ := H.task W.known
      exact .inl ⟨_, htask', by simp [Task.isIn, Change.apply, hsec, (resolveSection_ok hname).2]⟩

namespace Memory

/-- `c` waits for `x`. -/
def direct : Memory where
  tasks := ⟨[sample "c" ["x"] false waitingSection, sample "x" [] false readySection], by decide⟩
  sections := sampleSections

/-- `c` waits for `b`, which is completed and waits for `x`. -/
def indirect : Memory where
  tasks := ⟨[sample "c" ["b"] false waitingSection, sample "b" ["x"] true doneSection,
    sample "x" [] false readySection], by decide⟩
  sections := sampleSections

theorem waitsForLast_of {m : Memory} (nodes : List String) (hknown : Memory.api.task m "c" = some task)
    (htask : task.authorization = .autonomous ∧ task.completed = false ∧ task.isIn waiting = true)
    (hwalk : (DepthFirst.walk (graph Memory.api m "p") 1000 "c" {}).toOption.any (fun _ => true) = true)
    (hreaches : Reaches Memory.api m "c" "x")
    (hblocks : (Memory.api.task m "x").any (fun blocker => !blocker.completed) = true)
    (hclosed : ∀ a ∈ nodes, ∀ b ∈ ((Memory.api.task m a).map Task.dependencies).getD [], b ∈ nodes)
    (hc : "c" ∈ nodes)
    (hothers : ∀ node ∈ nodes, node ≠ "c" → node ≠ "x" →
      (Memory.api.task m node).any Task.completed = true) :
    WaitsForLast Memory.api m "p" "c" "x" task where
  wellFormed := by
    obtain ⟨w, hwalk, -⟩ := Except.toOption_any.mp hwalk
    exact .of_walk hwalk
  known := hknown
  autonomous := htask.1
  incomplete := htask.2.1
  isIn := htask.2.2
  ne := by decide
  reaches := hreaches
  blocks := by simpa [Option.any_eq_true] using hblocks
  others node hnode hne hne' := by
    simpa [Option.any_eq_true] using hothers node (hnode.mem nodes hclosed hc) hne hne'

theorem waitsForLast_direct :
    WaitsForLast Memory.api direct "p" "c" "x" (sample "c" ["x"] false waitingSection) :=
  waitsForLast_of ["c", "x"] rfl (by decide) (by decide)
    (.single ⟨sample "c" ["x"] false waitingSection, rfl, by decide⟩) (by decide) (by decide)
    (by decide) (by decide)

theorem waitsForLast_indirect :
    WaitsForLast Memory.api indirect "p" "c" "x" (sample "c" ["b"] false waitingSection) :=
  waitsForLast_of ["c", "b", "x"] rfl (by decide) (by decide)
    (.tail (b := "b") (.single ⟨sample "c" ["b"] false waitingSection, rfl, by decide⟩)
      ⟨sample "b" ["x"] true doneSection, rfl, by decide⟩)
    (by decide) (by decide) (by decide) (by decide)

theorem merged_of {m : Memory} (h : (reconcilePullRequest Memory.api m "p" (pythonOf id) "x" .merged).toOption.any
      (fun result => (Memory.api.task result.2 "x").any Task.completed) = true) :
    ∃ report m', reconcilePullRequest Memory.api m "p" (pythonOf id) "x" .merged = .ok (report, m') ∧
      ∃ blocker, Memory.api.task m' "x" = some blocker ∧ blocker.completed = true := by
  obtain ⟨⟨report, m'⟩, hrun, hcompleted⟩ := Except.toOption_any.mp h
  exact ⟨report, m', hrun, by simpa [Option.any_eq_true] using hcompleted⟩

theorem reports_of {m : Memory} (h : (listSource Memory.api m "p" (pythonOf id) waiting [] 10).toOption.any
      (fun issues => issues.any (·.key = "c")) = true) :
    ∃ revision, Reports Memory.api m "p" (pythonOf id) [] 10 "c" revision := by
  obtain ⟨issues, hissues, hissue⟩ := Except.toOption_any.mp h
  obtain ⟨issue, hmem, hkey⟩ := List.any_eq_true.mp hissue
  exact ⟨issue.revision, issues, hissues, issue, hmem, by simpa using hkey, rfl⟩

end Memory

set_option maxRecDepth 20000 in
theorem last_dependency_wakes_direct : ∃ report m' revision,
    reconcilePullRequest Memory.api .direct "p" (pythonOf id) "x" .merged = .ok (report, m') ∧
    Reports Memory.api .direct "p" (pythonOf id) [] 10 "c" revision ∧
    ((∃ live, Memory.api.task m' "c" = some live ∧ live.isIn readyToImplement = true) ∨
      ∃ revision', Reports Memory.api m' "p" (pythonOf id) [] 10 "c" revision' ∧ revision' ≠ revision) := by
  obtain ⟨report, m', hrun, hcompleted⟩ := Memory.merged_of (m := .direct) (by decide)
  obtain ⟨revision, hreports⟩ := Memory.reports_of (m := .direct) (by decide)
  exact ⟨report, m', revision, hrun, hreports, (last_dependency_wakes_iff Memory.documented
    Memory.waitsForLast_direct hrun hcompleted id hreports).mpr (by decide)⟩

set_option maxRecDepth 20000 in
/-- The completion of an indirect dependency releases nothing, and the listing stays as it was. -/
theorem last_dependency_unnoticed : ¬ ∀ (σ : Type) (api : Api σ) (s s' : σ) (project gid last : String)
    (python : Python) (labels : List String) (maxResults : ℕ) (task : Task) (report : Report) (revision : String),
    api.Documented → WaitsForLast api s project gid last task →
    reconcilePullRequest api s project python last .merged = .ok (report, s') →
    (∃ blocker, api.task s' last = some blocker ∧ blocker.completed = true) →
    python.Distinguishes api s s' task → Reports api s project python labels maxResults gid revision →
    (∃ live, api.task s' gid = some live ∧ live.isIn readyToImplement = true) ∨
      ∃ revision', Reports api s' project python labels maxResults gid revision' ∧ revision' ≠ revision := by
  intro hclaim
  obtain ⟨report, m', hrun, hcompleted⟩ := Memory.merged_of (m := .indirect) (by decide)
  obtain ⟨revision, hreports⟩ := Memory.reports_of (m := .indirect) (by decide)
  obtain ⟨hsection, hrevision⟩ := Memory.waitsForLast_indirect.unnoticed Memory.documented (by decide) hrun
    hcompleted hreports
  rcases hclaim _ _ _ _ _ _ _ _ _ _ _ _ _ Memory.documented Memory.waitsForLast_indirect hrun hcompleted id
    hreports with ⟨live, hlive, hready⟩ | ⟨revision', hreports', hne⟩
  · cases hready.symm.trans (hsection live hlive)
  · exact hne (hrevision revision' hreports')

end Asana
end FlashyFactory
