import FlashyFactory.Asana.ApprovedGraph

/-! # What a rejected approval leaves behind

The checks before the writes of `apply_spec_approval` look for a way from each new blocker to the task. The
`dependency_state` that follows the writes asks for more of the tasks that the blockers reach. -/

namespace FlashyFactory
namespace Asana
open DepthFirst (walk)

variable {σ : Type} {api : Api σ} {s s' : σ} {project gid : String} {python : Python} {turns : ℕ}
  {approval : Json} {confirmed existing : List String}

/-! ## The run of an approval -/

def additionsOf (confirmed existing : List String) : List String := confirmed.filter fun blocker => blocker ∉ existing

def removalsOf (confirmed existing : List String) : List String :=
  (existing.filter fun blocker => blocker ∉ confirmed).insertionSort (· ≤ ·)

/-- The service after the writes. -/
def relink (api : Api σ) (s : σ) (gid : String) (additions removals : List String) : σ :=
  let added := if additions = [] then s else api.addDependencies s gid additions
  if removals = [] then added else api.removeDependencies added gid removals

/-- An approval that gets as far as its writes. -/
structure Writing (api : Api σ) (s : σ) (project : String) (python : Python) (turns : ℕ) (gid : String)
    (approval : Json) (confirmed existing : List String) : Prop where
  validGid : isGid gid = true
  validProject : isGid project = true
  read : readConfirmed api s project python gid approval = .ok (confirmed, existing)
  searched : ∀ blocker ∈ additionsOf confirmed existing,
    StackSearch.search (reachTask api project s) gid turns [blocker] [] = .ok (some false)

theorem Reads.answered {α : Type} {x : Client σ α} {answer : Answer α} {session : Session σ}
    (h : Reads session.service x answer) (hanswers : session.Answers) :
    (∀ a, answer = .ok a → ∃ t, x session = .ok a t ∧ t.service = session.service ∧ t.Answers) ∧
      ∀ e, answer = .error e → ∃ t, x session = .error e t ∧ t.service = session.service := by
  have hrun := h session rfl
  cases hx : x session with
  | ok a t =>
    rw [hx] at hrun
    obtain ⟨rfl, hservice, -, hstill⟩ := hrun
    exact ⟨fun b hb => ⟨t, by cases hb; rfl, hservice, hstill hanswers⟩, nofun⟩
  | error e t =>
    rw [hx] at hrun
    obtain ⟨hservice, -, hfailed⟩ := hrun
    cases hfailed hanswers
    exact ⟨nofun, fun e' he => ⟨t, by cases he; rfl, hservice⟩⟩

theorem Reads.error {α : Type} {x : Client σ α} {answer : Answer α} {session last : Session σ} {e : Failure}
    (h : Reads session.service x answer) (hrun : x session = .error e last) (hanswers : session.Answers) :
    last.service = session.service ∧ answer = .error e := by
  have hsession := h session rfl
  rw [hrun] at hsession
  exact ⟨hsession.1, hsession.2.2 hanswers⟩

theorem Reads.run {α : Type} {x : Client σ α} {answer : Answer α} {session last : Session σ} {a : α}
    (h : Reads session.service x answer) (hrun : x session = .ok a last) :
    answer = .ok a ∧ last.service = session.service ∧ last.log = session.log ∧
      (session.Answers → last.Answers) := by
  have hsession := h session rfl
  rwa [hrun] at hsession

theorem Client.bind_eq_error {α β : Type} {x : Client σ α} {f : α → Client σ β} {session last : Session σ}
    {e : Failure} : (x >>= f) session = .error e last ↔
      x session = .error e last ∨ ∃ a t, x session = .ok a t ∧ f a t = .error e last := by
  rw [Client.bind_eq]
  cases x session <;> simp

theorem Client.mutateUnless_answered (api : Api σ) (skip : Prop) [Decidable skip] (mutation : Mutation)
    {session : Session σ}
    (hanswers : session.Answers) : ∃ t, Client.mutateUnless api skip mutation session = .ok () t ∧
      t.service = (if skip then session.service else mutation.apply api session.service) ∧ t.Answers := by
  unfold Client.mutateUnless
  split
  · exact ⟨session, rfl, rfl, hanswers⟩
  · have hwrites : Writes api (fun _ => True) (Client.mutate api mutation) (mutation.apply api) := .mutate trivial
    obtain ⟨t, hrun, ht⟩ := hwrites.answers session hanswers
    exact ⟨t, hrun, (hwrites.ok session t hrun).1, ht⟩

/-- What `checkAdditions` computes. -/
def checkedAdditions (api : Api σ) (s : σ) (project : String) (turns : ℕ) (gid : String) :
    List String → Answer (Option Unit)
  | [] => .ok (some ())
  | blocker :: additions => do
    match ← StackSearch.search (reachTask api project s) gid turns [blocker] [] with
    | none => return none
    | some true => refuse ("confirmed dependency " ++ blocker ++ " would create a cycle involving task " ++ gid)
    | some false => checkedAdditions api s project turns gid additions

theorem Reads.checkAdditions {additions : List String} : Reads s (Client.checkAdditions api project turns gid additions)
    (checkedAdditions api s project turns gid additions) := by
  induction additions with
  | nil => exact Reads.pure _
  | cons blocker additions ih =>
    refine Reads.dependencyReaches.bind fun found => ?_
    cases found with
    | none => exact Reads.pure none
    | some met =>
      cases met with
      | true => exact Reads.validate _
      | false => exact ih

theorem checkedAdditions_eq_ok {additions : List String} :
    checkedAdditions api s project turns gid additions = .ok (some ()) ↔
      ∀ blocker ∈ additions,
        StackSearch.search (reachTask api project s) gid turns [blocker] [] = .ok (some false) := by
  induction additions with
  | nil => simp [checkedAdditions]
  | cons blocker additions ih =>
    rw [checkedAdditions, List.forall_mem_cons, ← ih]
    cases hsearch : StackSearch.search (reachTask api project s) gid turns [blocker] [] with
    | error e => exact ⟨nofun, nofun⟩
    | ok found =>
      rw [Except.ok_bind]
      cases found with
      | none => exact ⟨nofun, nofun⟩
      | some met =>
        cases met with
        | true => exact ⟨nofun, nofun⟩
        | false => simp

theorem moveTask_error {session last : Session σ} {e : Failure} (hanswers : session.Answers)
    (h : Client.moveTask api project gid name session = .error e last) : last.service = session.service := by
  rcases Client.bind_eq_error.mp h with h | ⟨gid, t, hgid, h⟩
  · exact ((Reads.validate _).error h hanswers).1
  obtain ⟨-, rfl⟩ := Client.validate_eq_ok.mp hgid
  rcases Client.bind_eq_error.mp h with h | ⟨project, t, hproject, h⟩
  · exact ((Reads.validate _).error h hanswers).1
  obtain ⟨-, rfl⟩ := Client.validate_eq_ok.mp hproject
  rcases Client.bind_eq_error.mp h with h | ⟨task, t, htask, h⟩
  · exact ((Reads.read _).error h hanswers).1
  obtain ⟨-, hservice, -, hstill⟩ := (Reads.read _).run htask
  replace hanswers := hstill hanswers
  rw [← hservice]
  rcases Client.bind_eq_error.mp h with h | ⟨name, u, hname, h⟩
  · exact ((Reads.validate _).error h hanswers).1
  obtain ⟨-, rfl⟩ := Client.validate_eq_ok.mp hname
  rcases Client.bind_eq_error.mp h with h | ⟨found, v, hfound, h⟩
  · exact ((Reads.read _).error h hanswers).1
  obtain ⟨-, -, -, hstill⟩ := (Reads.read _).run hfound
  have hwrites : Writes api (fun _ => True) (Client.mutate api (.addTask found gid)) _ := .mutate trivial
  obtain ⟨w, hrun, -⟩ := hwrites.answers v (hstill hanswers)
  cases hrun.symm.trans h

/-! ## The graph that an approval writes -/

/-- The graph of the project with these dependencies of the task. -/
def confirmedGraph (api : Api σ) (s : σ) (project gid : String) (confirmed : List String) :
    DepthFirst.Graph String Observed Failure :=
  { graph api s project with
    visit := fun node =>
      if node = gid then (observeTask api s project gid).map fun observed => (observed.1, confirmed)
      else observeTask api s project node }

/-- `dependency_state` accepts what the new blockers reach, and the confirmed graph is shallow enough. -/
structure Acceptable (api : Api σ) (s : σ) (project : String) (python : Python) (gid : String)
    (confirmed existing : List String) : Prop where
  formed : ∀ blocker ∈ additionsOf confirmed existing, WellFormed api s project blocker
  shallow : walk (confirmedGraph api s project gid confirmed) python.recursionLimit gid {} ≠ .error .recursionError

/-- No dependency has been added or removed, and the task is where it was. -/
structure Untouched (api : Api σ) (s s' : σ) (gid : String) : Prop where
  depends : ∀ a b, Depends api s' a b ↔ Depends api s a b
  placed : (api.task s' gid).map Task.memberships = (api.task s gid).map Task.memberships

theorem Untouched.refl : Untouched api s s gid := ⟨fun _ _ => .rfl, rfl⟩

/-- The failure is one that a read of the dependency graph raises. -/
inductive RefusesGraph (api : Api σ) (s : σ) (project : String) (python : Python) (turns : ℕ) (gid : String)
    (approval : Json) : Failure → Prop
  | state {e : Failure} : dependencyState api s project python gid [] = .error e →
    RefusesGraph api s project python turns gid approval e
  | read {confirmed : List String} {blocker : String} {e : Failure} :
    readApproval gid approval = .ok confirmed → blocker ∈ confirmed →
    StackSearch.search (reachTask api project s) gid turns [blocker] [] = .error e →
    RefusesGraph api s project python turns gid approval e
  | reaches {confirmed : List String} {blocker : String} :
    readApproval gid approval = .ok confirmed → blocker ∈ confirmed →
    StackSearch.search (reachTask api project s) gid turns [blocker] [] = .ok (some true) →
    RefusesGraph api s project python turns gid approval (.clientError
      ("confirmed dependency " ++ blocker ++ " would create a cycle involving task " ++ gid) false)

/-- What is known of the task and the confirmed blockers before the writes. -/
structure Linking (api : Api σ) (s : σ) (project gid : String) (task : Task) (confirmed existing : List String) :
    Prop where
  live : api.task s gid = some task
  formed : WellFormed api s project gid
  existing : ∀ blocker, blocker ∈ existing ↔ blocker ∈ task.dependencies
  nodup : confirmed.Nodup
  sorted : confirmed.Pairwise (· ≤ ·)
  isGid : ∀ blocker ∈ confirmed, isGid blocker = true
  unreached : ∀ blocker ∈ confirmed, ¬ Reaches api s blocker gid

theorem readApproval_gids (h : readApproval gid approval = .ok confirmed) :
    confirmed.Pairwise (· ≤ ·) ∧ ∀ blocker ∈ confirmed, isGid blocker = true := by
  unfold readApproval at h
  split at h
  · simp only [Except.bind_eq_ok, refuseIf_eq_ok] at h
    obtain ⟨_, -, h⟩ := h
    split at h
    · simp at h
    · simp only [Except.bind_eq_ok, refuseIf_eq_ok, Except.pure_eq_ok, Except.mapM_eq_ok] at h
      obtain ⟨gids, hgids, _, -, _, -, rfl⟩ := h
      refine ⟨List.pairwise_insertionSort _ _, fun blocker hblocker => ?_⟩
      rw [List.mem_insertionSort, List.mem_dedup] at hblocker
      obtain ⟨item, -, hitem⟩ := Except.mapM_backward hgids hblocker
      obtain ⟨hvalid, rfl⟩ := requireGid_eq_ok.mp hitem
      exact hvalid
  · simp at h

theorem Writing.linking (W : Writing api s project python turns gid approval confirmed existing) :
    readApproval gid approval = .ok confirmed ∧ ∃ task, Linking api s project gid task confirmed existing := by
  have hread := W.read
  simp only [readConfirmed, Except.bind_eq_ok, Except.pure_eq_ok, Prod.mk.injEq] at hread
  obtain ⟨_, -, _, hconfirmed, _, -, live, hlive, rfl, rfl⟩ := hread
  obtain ⟨walk, hwalk, -⟩ := dependencyState_eq_ok.mp hlive
  obtain ⟨task, htask, hdescribes⟩ := dependencyState_describes hlive
  obtain ⟨_, _, -, -, hnodup, -, -⟩ := readApproval_eq_ok hconfirmed
  obtain ⟨hsorted, hgids⟩ := readApproval_gids hconfirmed
  have hexisting : ∀ blocker, blocker ∈ live.dependencies ↔ blocker ∈ task.dependencies := fun blocker => by
    rw [hdescribes.dependencies, List.mem_insertionSort]
  have hformed := WellFormed.of_walk hwalk
  refine ⟨hconfirmed, task, htask, hformed, hexisting, hnodup, hsorted, hgids, fun blocker hblocker hreaches => ?_⟩
  by_cases hold : blocker ∈ live.dependencies
  · have hedge : Depends api s gid blocker := ⟨task, htask, (hexisting blocker).mp hold⟩
    exact hformed.acyclic gid .refl (.head' hedge hreaches)
  · have hnew : blocker ∈ additionsOf _ live.dependencies := List.mem_filter.mpr ⟨hblocker, by simpa using hold⟩
    exact not_reaches_of_search (W.searched blocker hnew) hreaches

namespace Linking
variable {task : Task} (L : Linking api s project gid task confirmed existing)
include L

theorem mem_additions : blocker ∈ additionsOf confirmed existing ↔ blocker ∈ confirmed ∧
    blocker ∉ task.dependencies := by
  rw [additionsOf, List.mem_filter, decide_eq_true_eq, L.existing]

theorem mem_removals : blocker ∈ removalsOf confirmed existing ↔ blocker ∈ task.dependencies ∧
    blocker ∉ confirmed := by
  rw [removalsOf, List.mem_insertionSort, List.mem_filter, decide_eq_true_eq, L.existing]

theorem relinked (hdoc : api.Documented) : Relinked api s
    (relink api s gid (additionsOf confirmed existing) (removalsOf confirmed existing)) gid task (· ∈ confirmed) :=
  .confirmed hdoc L.live (L.nodup.filter _) (fun _ => L.mem_additions) (fun _ => L.mem_removals) rfl rfl

theorem taskFormed : task.WellFormed project gid := by
  obtain ⟨other, hother, hformed⟩ := L.formed.task gid .refl
  cases L.live.symm.trans hother
  exact hformed

end Linking

theorem Rewrites.dependencies_nodup {f : List String → List String} {task : Task}
    (h : Rewrites api s s' (onTask gid fun task => { task with dependencies := f task.dependencies }))
    (htask : api.task s gid = some task) (hnodup : (f task.dependencies).Nodup) :
    ∃ task, api.task s' gid = some task ∧ task.dependencies.Nodup := by
  obtain ⟨modifiedAt, hrewrite⟩ := h.task
  exact ⟨_, by rw [hrewrite, htask]; rfl, by simpa [onTask] using hnodup⟩

theorem relink_nodup (hdoc : api.Documented) {task : Task} {additions : List String} (removals : List String)
    (htask : api.task s gid = some task) (hdependencies : task.dependencies.Nodup) (hadditions : additions.Nodup) :
    ∃ task, api.task (relink api s gid additions removals) gid = some task ∧ task.dependencies.Nodup := by
  have hadded : ∃ task, api.task (if additions = [] then s else api.addDependencies s gid additions) gid =
      some task ∧ task.dependencies.Nodup := by
    split
    · exact ⟨task, htask, hdependencies⟩
    · obtain ⟨order, horder, hrewrites⟩ : ∃ order : List String → List String, (∀ _, _) ∧
        Rewrites api s _ _ :=
        hdoc.addDependencies hadditions
      refine Rewrites.dependencies_nodup
        (f := fun dependencies => order (dependencies ++ additions.filter (· ∉ dependencies))) hrewrites htask ?_
      rw [(horder _).nodup_iff]
      refine hdependencies.append (hadditions.filter _) fun blocker hold hnew => ?_
      rw [List.mem_filter, decide_eq_true_eq] at hnew
      exact hnew.2 hold
  obtain ⟨task, htask, hnodup⟩ := hadded
  by_cases hnone : removals = []
  · rw [relink, if_pos hnone]
    exact ⟨task, htask, hnodup⟩
  · rw [relink, if_neg hnone]
    obtain ⟨order, horder, hrewrites⟩ : ∃ order : List String → List String, (∀ _, _) ∧
      Rewrites api _ _ _ :=
      hdoc.removeDependencies
    refine Rewrites.dependencies_nodup (f := fun dependencies => order (dependencies.filter (· ∉ removals)))
      hrewrites htask ?_
    rw [(horder _).nodup_iff]
    exact hnodup.filter _

/-! ## What `dependency_state` finds after the writes -/

theorem observeTask_restamped {node modifiedAt : String}
    (h : api.task s' node = (api.task s node).map fun task => { task with modifiedAt := modifiedAt }) :
    observeTask api s' project node = observeTask api s project node := by
  unfold observeTask request
  rw [h]
  cases api.task s node <;> rfl

theorem Task.WellFormed.restamped {task : Task} {modifiedAt : String} :
    ({ task with modifiedAt := modifiedAt } : Task).WellFormed project node ↔ task.WellFormed project node :=
  ⟨fun h => ⟨h.formed, h.gid, h.within, h.isGid, h.nodup⟩,
    fun h => ⟨h.formed, h.gid, h.within, h.isGid, h.nodup⟩⟩

/-- The task can be read and is on no cycle. -/
structure SafeToRead (api : Api σ) (s : σ) (project node : String) : Prop where
  task : ∃ task, api.task s node = some task ∧ task.WellFormed project node
  acyclic : ¬ Relation.TransGen (Depends api s) node node

theorem wellFormed_iff : WellFormed api s project gid ↔ ∀ node, Reaches api s gid node →
    SafeToRead api s project node :=
  ⟨fun h node hnode => ⟨h.task node hnode, h.acyclic node hnode⟩,
    fun h => ⟨fun node hnode => (h node hnode).task, fun node hnode => (h node hnode).acyclic⟩⟩

namespace Relinked
variable {task : Task} {mem : String → Prop} (R : Relinked api s s' gid task mem)
include R

theorem reaches_iff (h : ¬ Reaches api s a gid) : Reaches api s' a b ↔ Reaches api s a b := by
  constructor
  · intro hpath
    induction hpath with
    | refl => exact .refl
    | tail _ hstep ih => exact ih.tail ((R.depends_other fun hgid => h (hgid ▸ ih)).mp hstep)
  · intro hpath
    induction hpath with
    | refl => exact .refl
    | tail hpath hstep ih => exact ih.tail ((R.depends_other fun hgid => h (hgid ▸ hpath)).mpr hstep)

theorem transGen_iff (h : ¬ Reaches api s a gid) :
    Relation.TransGen (Depends api s') a b ↔ Relation.TransGen (Depends api s) a b := by
  have ha : a ≠ gid := fun hgid => h (hgid ▸ .refl)
  simp only [Relation.TransGen.head'_iff, R.depends_other ha]
  refine exists_congr fun next => and_congr_right fun hstep => R.reaches_iff fun hnext => h (.head hstep hnext)

/-- What cannot reach the task is as safe to read as before. -/
theorem safeToRead_iff (h : ¬ Reaches api s node gid) :
    SafeToRead api s' project node ↔ SafeToRead api s project node := by
  obtain ⟨modifiedAt, hother⟩ := R.others node fun hgid => h (hgid ▸ .refl)
  have htask : (∃ task, api.task s' node = some task ∧ task.WellFormed project node) ↔
      ∃ task, api.task s node = some task ∧ task.WellFormed project node := by
    rw [hother]
    constructor
    · rintro ⟨_, hmap, hformed⟩
      obtain ⟨task, htask, rfl⟩ := Option.map_eq_some_iff.mp hmap
      exact ⟨task, htask, Task.WellFormed.restamped.mp hformed⟩
    · rintro ⟨task, htask, hformed⟩
      exact ⟨_, by rw [htask]; rfl, Task.WellFormed.restamped.mpr hformed⟩
  have hcycle := R.transGen_iff (b := node) h
  exact ⟨fun H => ⟨htask.mp H.task, fun h => H.acyclic (hcycle.mpr h)⟩,
    fun H => ⟨htask.mpr H.task, fun h => H.acyclic (hcycle.mp h)⟩⟩

end Relinked

namespace Linking
variable {task : Task} (L : Linking api s project gid task confirmed existing)
include L

/-- The task after the writes. -/
theorem rewritten (hdoc : api.Documented) : ∃ dependencies modifiedAt,
    api.task (relink api s gid (additionsOf confirmed existing) (removalsOf confirmed existing)) gid =
        some { task with dependencies := dependencies, modifiedAt := modifiedAt } ∧
      dependencies.insertionSort (· ≤ ·) = confirmed ∧
      ({ task with dependencies := dependencies, modifiedAt := modifiedAt } : Task).WellFormed project gid := by
  obtain ⟨dependencies, modifiedAt, hafter, hmem⟩ := (L.relinked hdoc).task
  obtain ⟨other, hother, hnodup⟩ := relink_nodup hdoc (removalsOf confirmed existing) L.live
    L.taskFormed.nodup (L.nodup.filter (fun blocker => blocker ∉ existing))
  cases hafter.symm.trans hother
  refine ⟨dependencies, modifiedAt, hafter, ?_, L.taskFormed.formed, L.taskFormed.gid, L.taskFormed.within,
    fun blocker hblocker => L.isGid blocker ((hmem blocker).mp hblocker), hnodup⟩
  refine List.Perm.eq_of_pairwise' (r := (· ≤ ·)) (List.pairwise_insertionSort _ _) L.sorted ?_
  exact (List.perm_insertionSort _ _).trans ((List.perm_ext_iff_of_nodup hnodup L.nodup).mpr hmem)

theorem graph_relink (hdoc : api.Documented) :
    graph api (relink api s gid (additionsOf confirmed existing) (removalsOf confirmed existing)) project =
      confirmedGraph api s project gid confirmed := by
  obtain ⟨dependencies, modifiedAt, hafter, hsorted, hformed⟩ := L.rewritten hdoc
  unfold graph confirmedGraph
  congr 1
  funext node
  by_cases hnode : node = gid
  · subst hnode
    rw [if_pos rfl, observeTask_eq_ok.mpr ⟨_, hafter, hformed, rfl⟩,
      observeTask_eq_ok.mpr ⟨_, L.live, L.taskFormed, rfl⟩]
    simp [Except.map, hsorted]
  · obtain ⟨modifiedAt, hother⟩ := (L.relinked hdoc).others node hnode
    rw [if_neg hnode, observeTask_restamped hother]

theorem formed_relink (hdoc : api.Documented) :
    WellFormed api (relink api s gid (additionsOf confirmed existing) (removalsOf confirmed existing)) project gid ↔
      ∀ blocker ∈ additionsOf confirmed existing, WellFormed api s project blocker := by
  have R := L.relinked hdoc
  have hfar : ∀ {blocker node}, blocker ∈ confirmed → Reaches api s blocker node → ¬ Reaches api s node gid :=
    fun hblocker hpath hback => L.unreached _ hblocker (hpath.trans hback)
  simp only [wellFormed_iff]
  constructor
  · intro hformed blocker hblocker node hnode
    have hconfirmed := (L.mem_additions.mp hblocker).1
    have hpath := (R.reaches_iff (hfar hconfirmed .refl)).mpr hnode
    exact (R.safeToRead_iff (hfar hconfirmed hnode)).mp (hformed node (.head (R.depends_self.mpr hconfirmed) hpath))
  · intro hadditions node hnode
    rcases Relation.ReflTransGen.cases_head hnode with rfl | ⟨blocker, hedge, hpath⟩
    · obtain ⟨dependencies, modifiedAt, hafter, -, hself⟩ := L.rewritten hdoc
      refine ⟨⟨_, hafter, hself⟩, fun hcycle => ?_⟩
      obtain ⟨blocker, hedge, hpath⟩ := Relation.TransGen.head'_iff.mp hcycle
      have hblocker := R.depends_self.mp hedge
      exact L.unreached blocker hblocker ((R.reaches_iff (hfar hblocker .refl)).mp hpath)
    · have hblocker := R.depends_self.mp hedge
      have hold := (R.reaches_iff (hfar hblocker .refl)).mp hpath
      refine (R.safeToRead_iff (hfar hblocker hold)).mpr ?_
      by_cases hkept : blocker ∈ task.dependencies
      · exact wellFormed_iff.mp L.formed node (.head ⟨task, L.live, hkept⟩ hold)
      · exact hadditions blocker (L.mem_additions.mpr ⟨hblocker, hkept⟩) node hold

/-- **The confirmed graph is read again without a refusal exactly when it is acceptable.** -/
theorem dependencyState_relink (hdoc : api.Documented) :
    (∃ state, dependencyState api (relink api s gid (additionsOf confirmed existing) (removalsOf confirmed existing))
      project python gid [] = .ok state) ↔ Acceptable api s project python gid confirmed existing := by
  constructor
  · rintro ⟨state, hstate⟩
    obtain ⟨w, hwalk, -⟩ := dependencyState_eq_ok.mp hstate
    refine ⟨(L.formed_relink hdoc).mp (.of_walk hwalk), ?_⟩
    rw [← L.graph_relink hdoc, hwalk]
    exact nofun
  · intro hacceptable
    have hformed := (L.formed_relink hdoc).mpr hacceptable.formed
    have hshallow := hacceptable.shallow
    rw [← L.graph_relink hdoc] at hshallow
    cases hwalk : walk (graph api (relink api s gid (additionsOf confirmed existing) (removalsOf confirmed existing))
        project) python.recursionLimit gid {} with
    | ok w => exact ⟨_, dependencyState_eq_ok.mpr ⟨w, hwalk, rfl⟩⟩
    | error e =>
      cases e with
      | clientError message rateLimited => exact (hformed.walk_ne_clientError hwalk).elim
      | recursionError => exact (hshallow hwalk).elim

theorem unwritten (hdoc : api.Documented)
    (h : Untouched api s (relink api s gid (additionsOf confirmed existing) (removalsOf confirmed existing)) gid) :
    relink api s gid (additionsOf confirmed existing) (removalsOf confirmed existing) = s := by
  have R := L.relinked hdoc
  have hsame : ∀ blocker, blocker ∈ confirmed ↔ blocker ∈ task.dependencies := by
    intro blocker
    rw [← R.depends_self, h.depends]
    exact ⟨fun ⟨other, hother, hmem⟩ => by cases L.live.symm.trans hother; exact hmem,
      fun hmem => ⟨task, L.live, hmem⟩⟩
  have hadditions : additionsOf confirmed existing = [] :=
    List.eq_nil_iff_forall_not_mem.mpr fun blocker hblocker =>
      (L.mem_additions.mp hblocker).2 ((hsame blocker).mp (L.mem_additions.mp hblocker).1)
  have hremovals : removalsOf confirmed existing = [] :=
    List.eq_nil_iff_forall_not_mem.mpr fun blocker hblocker =>
      (L.mem_removals.mp hblocker).2 ((hsame blocker).mpr (L.mem_removals.mp hblocker).1)
  simp [relink, hadditions, hremovals]

end Linking

theorem reachTask_of_wellFormed {task : Task} (htask : api.task s node = some task) (h : task.WellFormed project node) :
    reachTask api project s node = .ok task.dependencies := by
  simp only [reachTask, Except.bind_eq_ok, request_eq_ok, refuseIf_eq_ok, requireMembership_eq_ok, Except.pure_eq_ok]
  have hformed : ∀ field : Field, field ∉ task.malformed := formed_iff.mp h.formed
  have hgids : ¬ task.dependencies.all isGid = false := by simpa using h.isGid
  exact ⟨task, htask, (), by simp [hformed, h.gid], (), ⟨hformed _, hformed _, h.within⟩, (),
    hformed _, (), hgids, (),
    hformed _, rfl⟩

/-- Where `dependency_state` succeeds, no read of the graph refuses. -/
theorem not_refusesGraph {state : DependencyState} {e : Failure}
    (hstate : dependencyState api s project python gid [] = .ok state)
    (hread : readApproval gid approval = .ok confirmed)
    (hdepends : ∀ blocker ∈ confirmed, Depends api s gid blocker) :
    ¬ RefusesGraph api s project python turns gid approval e := by
  obtain ⟨w, hwalk, -⟩ := dependencyState_eq_ok.mp hstate
  have hformed := WellFormed.of_walk hwalk
  have hedge : ∀ a next b, reachTask api project s a = .ok next → b ∈ next → Depends api s a b := by
    intro a next b hnext hb
    obtain ⟨task, htask, rfl⟩ := reachTask_eq_ok hnext
    exact ⟨task, htask, hb⟩
  intro hrefuses
  cases hrefuses with
  | state h => cases hstate.symm.trans h
  | read hconfirmed hblocker hsearch =>
    cases hread.symm.trans hconfirmed
    obtain ⟨start, hstart, a, hreaches, hfailed⟩ := StackSearch.reads_of_search_error hedge hsearch
    cases List.mem_singleton.mp hstart
    obtain ⟨task, htask, hsafe⟩ := hformed.task a (.head (hdepends _ hblocker) hreaches)
    cases (reachTask_of_wellFormed htask hsafe).symm.trans hfailed
  | reaches hconfirmed hblocker hsearch =>
    cases hread.symm.trans hconfirmed
    obtain ⟨start, hstart, hreaches⟩ := StackSearch.reaches_of_search_true hedge hsearch
    cases List.mem_singleton.mp hstart
    exact hformed.acyclic gid .refl (.head' (hdepends _ hblocker) hreaches)

/-! ## The runs over an answering service -/

def answering : ℕ → Fate := fun _ => .answered

theorem answers_start : (Session.start s answering).Answers := fun _ => rfl

/-- What a run computes that gets as far as its writes, if the state after them is refused. -/
theorem Writing.refused (W : Writing api s project python turns gid approval confirmed existing) {e : Failure}
    (hstate : dependencyState api (relink api s gid (additionsOf confirmed existing) (removalsOf confirmed existing))
      project python gid [] = .error e) :
    ∃ last, Client.applySpecApproval api project python turns gid approval (Session.start s answering) =
      .error e last ∧
      last.service = relink api s gid (additionsOf confirmed existing) (removalsOf confirmed existing) := by
  have hanswers := answers_start (s := s)
  obtain ⟨t, hread, hservice, hanswers⟩ := (Reads.readConfirmed.answered hanswers).1 _ W.read
  rw [Session.service_start] at hservice
  obtain ⟨u, hcheck, hservice', hanswers⟩ := (Reads.checkAdditions.answered hanswers).1 _
    (checkedAdditions_eq_ok.mpr (by rw [hservice]; exact W.searched))
  obtain ⟨v, hadd, hv, hanswers⟩ := Client.mutateUnless_answered api (additionsOf confirmed existing = [])
    (.addDependencies gid (additionsOf confirmed existing)) hanswers
  obtain ⟨w, hremove, hw, hanswers⟩ := Client.mutateUnless_answered api (removalsOf confirmed existing = [])
    (.removeDependencies gid (removalsOf confirmed existing)) hanswers
  have hrelink : w.service = relink api s gid (additionsOf confirmed existing) (removalsOf confirmed existing) := by
    rw [hw, hv, hservice', hservice]
    rfl
  rw [← hrelink] at hstate
  obtain ⟨last, hlast, hend⟩ := (Reads.dependencyState.answered hanswers).2 _ hstate
  refine ⟨last, ?_, hend.trans hrelink⟩
  refine Client.bind_eq_error.mpr
    (.inr ⟨gid, _, Client.validate_eq_ok.mpr ⟨requireGid_eq_ok.mpr ⟨W.validGid, rfl⟩, rfl⟩, ?_⟩)
  refine Client.bind_eq_error.mpr
    (.inr ⟨project, _, Client.validate_eq_ok.mpr ⟨requireGid_eq_ok.mpr ⟨W.validProject, rfl⟩, rfl⟩, ?_⟩)
  refine Client.bind_eq_error.mpr (.inr ⟨_, t, hread, ?_⟩)
  refine Client.bind_eq_error.mpr (.inr ⟨some (), u, hcheck, ?_⟩)
  refine Client.bind_eq_error.mpr (.inl ?_)
  refine Client.bind_eq_error.mpr (.inr ⟨(), v, hadd, ?_⟩)
  refine Client.bind_eq_error.mpr (.inr ⟨(), w, hremove, ?_⟩)
  exact Client.bind_eq_error.mpr (.inl hlast)

/-- How a run fails: before its writes, or after them. -/
theorem applySpecApproval_error {e : Failure} {last : Session σ}
    (h : Client.applySpecApproval api project python turns gid approval (Session.start s answering) = .error e last) :
    last.service = s ∨ ∃ confirmed existing, Writing api s project python turns gid approval confirmed existing ∧
      last.service = relink api s gid (additionsOf confirmed existing) (removalsOf confirmed existing) := by
  have hanswers := answers_start (s := s)
  rcases Client.bind_eq_error.mp h with h | ⟨_, _, hgid, h⟩
  · exact .inl ((Reads.validate _).error h hanswers).1
  obtain ⟨hrequired, rfl⟩ := Client.validate_eq_ok.mp hgid
  obtain ⟨hvalidGid, rfl⟩ := requireGid_eq_ok.mp hrequired
  rcases Client.bind_eq_error.mp h with h | ⟨_, _, hproject, h⟩
  · exact .inl ((Reads.validate _).error h hanswers).1
  obtain ⟨hrequired, rfl⟩ := Client.validate_eq_ok.mp hproject
  obtain ⟨hvalidProject, rfl⟩ := requireGid_eq_ok.mp hrequired
  rcases Client.bind_eq_error.mp h with h | ⟨⟨confirmed, existing⟩, t, hread, h⟩
  · exact .inl (Reads.readConfirmed.error h hanswers).1
  obtain ⟨hread, ht, -, hstill⟩ := Reads.readConfirmed.run hread
  replace hanswers := hstill hanswers
  rw [Session.service_start] at ht hread
  rcases Client.bind_eq_error.mp h with h | ⟨found, u, hcheck, h⟩
  · exact .inl ((Reads.checkAdditions.error h hanswers).1.trans ht)
  obtain ⟨hcheck, hu, -, hstill⟩ := Reads.checkAdditions.run hcheck
  replace hanswers := hstill hanswers
  rw [ht] at hu hcheck
  cases found with
  | none => cases h
  | some =>
    refine .inr ⟨confirmed, existing, ⟨hvalidGid, hvalidProject, hread, checkedAdditions_eq_ok.mp hcheck⟩, ?_⟩
    rcases Client.bind_eq_error.mp h with h | ⟨_, _, -, h⟩
    · obtain ⟨v, hadd, hv, hanswers⟩ := Client.mutateUnless_answered api (additionsOf confirmed existing = [])
        (.addDependencies gid (additionsOf confirmed existing)) hanswers
      obtain ⟨w, hremove, hw, hanswers⟩ := Client.mutateUnless_answered api (removalsOf confirmed existing = [])
        (.removeDependencies gid (removalsOf confirmed existing)) hanswers
      have hrelink : w.service = relink api s gid (additionsOf confirmed existing) (removalsOf confirmed existing) := by
        rw [hw, hv, hu]
        rfl
      rw [← hrelink]
      rcases Client.bind_eq_error.mp h with h | ⟨_, v', hadd', h⟩
      · cases hadd.symm.trans h
      cases hadd.symm.trans hadd'
      rcases Client.bind_eq_error.mp h with h | ⟨_, w', hremove', h⟩
      · cases hremove.symm.trans h
      cases hremove.symm.trans hremove'
      rcases Client.bind_eq_error.mp h with h | ⟨state, x, hstate, h⟩
      · exact (Reads.dependencyState.error h hanswers).1
      obtain ⟨-, hx, -, hstill⟩ := Reads.dependencyState.run hstate
      rcases Client.bind_eq_error.mp h with h | ⟨_, _, -, h⟩
      · exact (moveTask_error (hstill hanswers) h).trans hx
      · cases h
    · cases h

/-- **A rejected approval leaves the graph alone** exactly where what the new blockers reach is acceptable to the
`dependency_state` that follows the writes. -/
theorem rejection_leaves_graph_iff (hdoc : api.Documented) :
    (∀ e last, Client.applySpecApproval api project python turns gid approval
      (Session.start s answering) = .error e last →
        RefusesGraph api last.service project python turns gid approval e → Untouched api s last.service gid) ↔
      ∀ confirmed existing, Writing api s project python turns gid approval confirmed existing →
        Acceptable api s project python gid confirmed existing := by
  constructor
  · intro hleaves confirmed existing W
    obtain ⟨hread, task, L⟩ := W.linking
    rw [← L.dependencyState_relink hdoc]
    cases hstate : dependencyState api
      (relink api s gid (additionsOf confirmed existing) (removalsOf confirmed existing))
        project python gid [] with
    | ok state => exact ⟨state, rfl⟩
    | error e =>
      obtain ⟨last, hrun, hlast⟩ := W.refused hstate
      have huntouched := hleaves e last hrun (hlast ▸ .state hstate)
      rw [hlast] at huntouched
      -- nothing was written, so this is the read before the writes
      rw [L.unwritten hdoc huntouched] at hstate
      have hbefore := W.read
      simp only [readConfirmed, Except.bind_eq_ok] at hbefore
      obtain ⟨_, -, _, -, _, -, live, hlive, -⟩ := hbefore
      cases hlive.symm.trans hstate
  · intro hacceptable e last hrun hrefuses
    rcases applySpecApproval_error hrun with hlast | ⟨confirmed, existing, W, hlast⟩
    · rw [hlast]
      exact .refl
    · obtain ⟨hread, task, L⟩ := W.linking
      obtain ⟨state, hstate⟩ := (L.dependencyState_relink hdoc).mpr (hacceptable confirmed existing W)
      have R := L.relinked hdoc
      rw [hlast] at hrefuses
      exact (not_refusesGraph hstate hread (fun blocker hblocker => R.depends_self.mpr hblocker) hrefuses).elim

theorem rejection_leaves_graph_iff_approving :
    (∀ e last, Client.applySpecApproval Memory.api "p" (pythonOf id) 10 "a" Memory.confirmation
          (Session.start Memory.approving answering) = .error e last →
        RefusesGraph Memory.api last.service "p" (pythonOf id) 10 "a" Memory.confirmation e →
          Untouched Memory.api Memory.approving last.service "a") ↔
      ∀ confirmed existing, Writing Memory.api Memory.approving "p" (pythonOf id) 10 "a" Memory.confirmation confirmed
        existing → Acceptable Memory.api Memory.approving "p" (pythonOf id) "a" confirmed existing :=
  rejection_leaves_graph_iff Memory.documented

/-- `a` is to be approved; `c` and `d` depend on each other. -/
def Memory.tangled : Memory where
  tasks := ⟨[sample "a" [] false awaitingSection, sample "c" ["d"] false readySection,
    sample "d" ["c"] false readySection], by decide⟩
  sections := ⟨[("p", waitingSection), ("p", readySection), ("p", awaitingSection)], by decide⟩

/-- The cycle is found after `c` has been made a blocker of `a`. -/
theorem rejection_changes_graph : ∃ e last,
    Client.applySpecApproval Memory.api "p" (pythonOf id) 10 "a" Memory.confirmation
      (Session.start Memory.tangled answering) = .error e last ∧
    RefusesGraph Memory.api last.service "p" (pythonOf id) 10 "a" Memory.confirmation e ∧
    ¬ Untouched Memory.api Memory.tangled last.service "a" := by
  refine ⟨_, _, rfl, .state rfl, fun h => ?_⟩
  have hafter : Depends Memory.api Memory.tangled "a" "c" := (h.depends "a" "c").mp ⟨_, rfl, by decide⟩
  obtain ⟨task, htask, hmem⟩ := hafter
  cases htask
  cases hmem

end Asana
end FlashyFactory
