import FlashyFactory.Asana.Service

/-! # What `dependency_state` decides

The dependency graph of a project in its own terms, and the theorem that the recursive read succeeds
exactly on the graphs that are safe to read. -/

namespace FlashyFactory
namespace Asana
open DepthFirst (walk)

variable {σ : Type} {api : Api σ} {s : σ} {project gid : String}

/-! ## The graph of a project -/

/-- The first task waits for the second one. -/
def Depends (api : Api σ) (s : σ) (a b : String) : Prop := ∃ task, api.task s a = some task ∧
    b ∈ task.dependencies

abbrev Reaches (api : Api σ) (s : σ) : String → String → Prop := Relation.ReflTransGen (Depends api s)

structure Task.WellFormed (project gid : String) (task : Task) : Prop where
  formed : task.malformed = []
  gid : task.gid = gid
  within : task.Within project
  isGid : ∀ blocker ∈ task.dependencies, isGid blocker
  nodup : task.dependencies.Nodup

/-- All that is reached from the task is safe to read. -/
structure WellFormed (api : Api σ) (s : σ) (project gid : String) : Prop where
  task : ∀ node, Reaches api s gid node → ∃ task, api.task s node = some task ∧ task.WellFormed project node
  acyclic : ∀ node, Reaches api s gid node → ¬ Relation.TransGen (Depends api s) node node

/-- Each task with whether it is completed. -/
def completion (api : Api σ) (s : σ) (gids : List String) : List (String × Bool) :=
  gids.map fun gid => (gid, (api.task s gid).any Task.completed)

/-! ## Reading one task -/

theorem requireMembership_eq_ok {task : Task} : requireMembership project task subject exactly = .ok u ↔
    Field.memberships ∉ task.malformed ∧ Field.membership ∉ task.malformed ∧ task.Within project := by
  unfold requireMembership Task.Within
  split
  · next membership hmemberships =>
    obtain ⟨owner, found⟩ := membership
    by_cases hfield : Field.memberships ∈ task.malformed
    · simp [hfield]
    · simp only [hfield, if_false, refuseIf_eq_ok, hmemberships, List.cons.injEq, and_true, Membership.mk.injEq]
      simp [eq_comm]
  · next hmemberships =>
    simp only [refuse_eq_ok, false_iff, not_and, not_exists]
    exact fun _ _ found h => hmemberships _ h

theorem request_eq_ok {task : Task} : request api s gid = .ok task ↔ api.task s gid = some task := by
  unfold request
  cases api.task s gid <;> simp

theorem formed_iff {task : Task} : task.malformed = [] ↔ ∀ field : Field, field ∉ task.malformed :=
  List.eq_nil_iff_forall_not_mem

theorem observeTask_eq_ok {observed : Observed} : observeTask api s project gid = .ok observed ↔
    ∃ task, api.task s gid = some task ∧ task.WellFormed project gid ∧
      observed = (task.completed, task.dependencies.insertionSort (· ≤ ·)) := by
  simp only [observeTask, Except.bind_eq_ok, request_eq_ok, refuseIf_eq_ok, requireMembership_eq_ok,
    Except.pure_eq_ok, not_or, not_not, Bool.not_eq_false, List.all_eq_true]
  constructor
  · rintro ⟨task, htask, _, ⟨hdata, hgid⟩, _, ⟨hmemberships, hmembership, hwithin⟩, _, hdependencies, _,
      hcompleted, _, hdependency, _, hgids, _, hnodup, rfl⟩
    refine ⟨task, htask, ⟨formed_iff.mpr fun field => ?_, hgid, hwithin, hgids, hnodup⟩, rfl⟩
    cases field <;> assumption
  · rintro ⟨task, htask, ⟨hformed, hgid, hwithin, hgids, hnodup⟩, rfl⟩
    rw [formed_iff] at hformed
    exact ⟨task, htask, (), ⟨hformed _, hgid⟩, (), ⟨hformed _, hformed _, hwithin⟩, (), hformed _, (),
      hformed _, (), hformed _, (), hgids, (), hnodup, rfl⟩

theorem refuseIf_ne_recursionError {p : Prop} [Decidable p] : refuseIf p message ≠ .error .recursionError := by
  by_cases h : p <;> simp [refuseIf, refuse, h]

theorem requireMembership_ne_recursionError {task : Task} :
    requireMembership project task subject exactly ≠ .error .recursionError := by
  unfold requireMembership
  split
  · split
    · simp [refuse]
    · exact refuseIf_ne_recursionError
  · simp [refuse]

theorem request_ne_recursionError : request api s gid ≠ .error .recursionError := by
  unfold request
  cases api.task s gid <;> simp [refuse]

theorem observeTask_ne_recursionError : observeTask api s project gid ≠ .error .recursionError := by
  simp only [observeTask, ne_eq, Except.bind_eq_error, request_ne_recursionError, refuseIf_ne_recursionError,
    requireMembership_ne_recursionError, false_or, not_exists, not_and]
  intros
  exact nofun

/-! ## Edges -/

theorem Depends.of_edge (h : (graph api s project).Edge a b) : Depends api s a b := by
  obtain ⟨observed, hobserved, hb⟩ := h
  obtain ⟨task, htask, -, rfl⟩ := observeTask_eq_ok.mp hobserved
  exact ⟨task, htask, (List.mem_insertionSort _).mp hb⟩

theorem Depends.edge (h : Depends api s a b) (hobserve : ∃ observed, observeTask api s project a = .ok observed) :
    (graph api s project).Edge a b := by
  obtain ⟨task, htask, hb⟩ := h
  obtain ⟨observed, hobserved⟩ := hobserve
  obtain ⟨other, hother, -, rfl⟩ := observeTask_eq_ok.mp hobserved
  cases htask.symm.trans hother
  exact ⟨_, hobserved, (List.mem_insertionSort _).mpr hb⟩

theorem Reaches.of_graph (h : (graph api s project).Reaches gid node) : Reaches api s gid node :=
  Relation.ReflTransGen.mono (fun _ _ => Depends.of_edge) gid node h

/-- Where every task that the walk can reach is observed, it reaches what there is to reach. -/
theorem Reaches.graph (hobserve : ∀ node, (graph api s project).Reaches gid node →
      ∃ observed, observeTask api s project node = .ok observed) (h : Reaches api s gid node) :
    (graph api s project).Reaches gid node := by
  induction h with
  | refl => exact .refl
  | tail _ hedge ih => exact ih.tail (hedge.edge (hobserve _ ih))

theorem WellFormed.observed (H : WellFormed api s project gid) (h : Reaches api s gid node) :
    ∃ observed, observeTask api s project node = .ok observed := by
  obtain ⟨task, htask, hformed⟩ := H.task node h
  exact ⟨_, observeTask_eq_ok.mpr ⟨task, htask, hformed, rfl⟩⟩

theorem WellFormed.graph_reaches (H : WellFormed api s project gid) :
    (graph api s project).Reaches gid node ↔ Reaches api s gid node :=
  ⟨Reaches.of_graph, Reaches.graph fun _ h => H.observed (Reaches.of_graph h)⟩

/-! ## Success -/

variable {python : Python} {assumedCompleted : List String} {state : DependencyState}

theorem dependencyState_eq_ok : dependencyState api s project python gid assumedCompleted = .ok state ↔
    ∃ w, walk (graph api s project) python.recursionLimit gid {} = .ok w ∧
      .ofNotes python gid assumedCompleted w.notes = state := by
  simp [dependencyState]

theorem WellFormed.of_walk (h : walk (graph api s project) n gid {} = .ok w) :
    WellFormed api s project gid := by
  have hobserve : ∀ node, (graph api s project).Reaches gid node →
      ∃ observed, observeTask api s project node = .ok observed := by
    intro node hnode
    obtain ⟨observed, hnote⟩ := (DepthFirst.notes_of_walk h).mpr hnode
    exact ⟨observed, DepthFirst.visit_of_note h hnote⟩
  refine ⟨fun node hnode => ?_, fun node hnode hcycle => ?_⟩
  · obtain ⟨observed, hobserved⟩ := hobserve node (Reaches.graph hobserve hnode)
    obtain ⟨task, htask, hformed, -⟩ := observeTask_eq_ok.mp hobserved
    exact ⟨task, htask, hformed⟩
  · have hedges : ∀ {last}, Relation.TransGen (Depends api s) node last →
        Relation.TransGen (graph api s project).Edge node last := by
      intro last hpath
      induction hpath with
      | single hedge => exact .single (hedge.edge (hobserve _ (Reaches.graph hobserve hnode)))
      | tail hpath hedge ih =>
        exact ih.tail (hedge.edge (hobserve _ (Reaches.graph hobserve (hnode.trans hpath.to_reflTransGen))))
    exact DepthFirst.acyclic_of_walk h (Reaches.graph hobserve hnode) (hedges hcycle)

theorem walk_ne_recursionError {nodes : Finset String} (hnodes : ∀ node, Reaches api s gid node → node ∈ nodes)
    (hlimit : nodes.card < n) : walk (graph api s project) n gid {} ≠ .error .recursionError :=
  DepthFirst.walk_ne_deep (fun _ h => hnodes _ (Reaches.of_graph h)) (fun _ => observeTask_ne_recursionError)
    nofun .refl .initial ⟨.nil, nofun⟩ (by simpa using hlimit)

theorem WellFormed.walk_ne_clientError (H : WellFormed api s project gid) :
    walk (graph api s project) n gid {} ≠ .error (.clientError message rateLimited) := by
  refine DepthFirst.walk_ne_error (fun node h => H.observed (Reaches.of_graph h)) (fun node h hcycle => ?_)
    .refl .initial nofun nofun
  exact H.acyclic node (Reaches.of_graph h) (Relation.TransGen.mono (fun _ _ => Depends.of_edge) node node hcycle)

/-! ## What is reported -/

@[simp] theorem map_fst_completion {gids : List String} : (completion api s gids).map Prod.fst = gids := by
  simp [completion, Function.comp_def]

theorem pairwise_completion {gids : List String} (h : gids.Pairwise (· ≤ ·)) :
    (completion api s gids).Pairwise fun a b => a.1 ≤ b.1 :=
  List.pairwise_map.mpr h

/-- The report on a task that is safe to read. -/
structure DependencyState.Describes (state : DependencyState) (api : Api σ) (s : σ) (python : Python)
    (gid : String) (assumedCompleted : List String) (task : Task) : Prop where
  dependencies : state.dependencies = task.dependencies.insertionSort (· ≤ ·)
  dependencyRevision : state.dependencyRevision =
    "sha256:" ++ python.sha256 (canonical (completion api s (task.dependencies.insertionSort (· ≤ ·))))
  blocked : state.blocked = true ↔ ∃ node, Reaches api s gid node ∧ node ≠ gid ∧ node ∉ assumedCompleted ∧
    ∃ blocker, api.task s node = some blocker ∧ blocker.completed = false

theorem DependencyState.ofNotes_describes
    (h : walk (graph api s project) n gid {} = .ok w) (htask : api.task s gid = some task) :
    (DependencyState.ofNotes python gid assumedCompleted w.notes).Describes api s python gid
      assumedCompleted task := by
  have H := WellFormed.of_walk h
  have hlookup : ∀ {node blocker}, Reaches api s gid node → api.task s node = some blocker →
      w.notes.lookup node = some (blocker.completed, blocker.dependencies.insertionSort (· ≤ ·)) := by
    intro node blocker hnode hblocker
    obtain ⟨other, hother, hformed⟩ := H.task node hnode
    cases hblocker.symm.trans hother
    exact (DepthFirst.lookup_of_walk h).mpr
      ⟨H.graph_reaches.mpr hnode, observeTask_eq_ok.mpr ⟨blocker, hblocker, hformed, rfl⟩⟩
  set sorted := task.dependencies.insertionSort (· ≤ ·) with hsorted
  have hdirect : ((w.notes.lookup gid).map Prod.snd).getD [] = sorted := by
    rw [hlookup .refl htask]
    rfl
  have hobserved : (sorted.map fun blocker =>
      (blocker, ((w.notes.lookup blocker).map Prod.fst).getD false)) = completion api s sorted := by
    refine List.map_congr_left fun blocker hblocker => ?_
    have hdepends : Depends api s gid blocker := ⟨task, htask, (List.mem_insertionSort _).mp hblocker⟩
    obtain ⟨other, hother, -⟩ := H.task blocker (.single hdepends)
    rw [hlookup (.single hdepends) hother, hother]
    rfl
  have hpairwise : sorted.Pairwise (· ≤ ·) := List.pairwise_insertionSort _ _
  have hcompletion : (completion api s sorted).insertionSort (fun a b => a.1 ≤ b.1) = completion api s sorted :=
    (pairwise_completion hpairwise).insertionSort_eq
  simp only [DependencyState.ofNotes, hdirect, hobserved, hcompletion]
  refine ⟨map_fst_completion, rfl, ?_⟩
  simp only [List.any_eq_true, Prod.exists, Bool.and_eq_true, Bool.not_eq_true', decide_eq_true_eq,
    List.contains_eq_mem, decide_eq_false_iff_not]
  constructor
  · rintro ⟨node, completed, dependencies, hnote, ⟨rfl, hnode⟩, hassumed⟩
    obtain ⟨blocker, hblocker, -, heq⟩ := observeTask_eq_ok.mp (DepthFirst.visit_of_note h hnote)
    exact ⟨node, Reaches.of_graph ((DepthFirst.notes_of_walk h).mp ⟨_, hnote⟩), hnode, hassumed, blocker,
      hblocker, (Prod.mk.inj heq).1.symm⟩
  · rintro ⟨node, hreaches, hnode, hassumed, blocker, hblocker, hcompleted⟩
    obtain ⟨⟨completed, dependencies⟩, hnote⟩ :=
      (DepthFirst.notes_of_walk h).mpr (H.graph_reaches.mpr hreaches)
    obtain ⟨other, hother, -, heq⟩ := observeTask_eq_ok.mp (DepthFirst.visit_of_note h hnote)
    cases hblocker.symm.trans hother
    exact ⟨node, completed, dependencies, hnote, ⟨(Prod.mk.inj heq).1.trans hcompleted, hnode⟩, hassumed⟩

/-- A success describes the task. -/
theorem dependencyState_describes (h : dependencyState api s project python gid assumedCompleted = .ok state) :
    ∃ task, api.task s gid = some task ∧ state.Describes api s python gid assumedCompleted task := by
  obtain ⟨w, hwalk, rfl⟩ := dependencyState_eq_ok.mp h
  obtain ⟨task, htask, -⟩ := (WellFormed.of_walk hwalk).task gid .refl
  exact ⟨task, htask, DependencyState.ofNotes_describes hwalk htask⟩

theorem sorted_completion_eq {σ' : Type} {api' : Api σ'} {s' : σ'} {gids gids' : List String}
    (h : (completion api s gids).Perm (completion api' s' gids')) :
    completion api s (gids.insertionSort (· ≤ ·)) = completion api' s' (gids'.insertionSort (· ≤ ·)) := by
  have hsorted : ∀ {σ : Type} (api : Api σ) (s : σ) (gids : List String),
      (completion api s (gids.insertionSort (· ≤ ·))).Perm (completion api s gids) :=
    fun _ _ gids => (List.perm_insertionSort _ gids).map _
  have hperm := ((hsorted api s gids).trans h).trans (hsorted api' s' gids').symm
  have hgids : gids.insertionSort (· ≤ ·) = gids'.insertionSort (· ≤ ·) := by
    have hfst := hperm.map Prod.fst
    simp only [map_fst_completion] at hfst
    exact hfst.eq_of_pairwise' (List.pairwise_insertionSort _ _) (List.pairwise_insertionSort _ _)
  rw [hgids] at hperm ⊢
  refine List.map_congr_left fun gid hgid => ?_
  have hmem : (gid, (api.task s gid).any Task.completed) ∈ completion api s (gids'.insertionSort (· ≤ ·)) :=
    List.mem_map_of_mem hgid
  obtain ⟨other, -, heq⟩ := List.mem_map.mp (hperm.mem_iff.mp hmem)
  cases (Prod.mk.inj heq).1
  exact heq.symm

/-- The log holds no task twice and only tasks that are reached, and does not change the answer. -/
theorem dependencyStateLogged_requests : ∃ log, dependencyStateLogged api s project python gid assumedCompleted [] =
      (dependencyState api s project python gid assumedCompleted, log) ∧
    log.Nodup ∧ ∀ node ∈ log, Reaches api s gid node := by
  obtain ⟨log, hwalk, hnodup, hreaches⟩ := DepthFirst.reads_once (graph api s project) gid python.recursionLimit
  refine ⟨log, ?_, hnodup, fun node hnode => Reaches.of_graph (hreaches node hnode)⟩
  have hlogged : DepthFirst.walkM throw (DepthFirst.Logging.visit (observeTask api s project)) Prod.snd
      (graph api s project).cycle .recursionError python.recursionLimit gid {} [] = _ := hwalk
  unfold dependencyStateLogged dependencyStateM dependencyState
  change (DepthFirst.walkM throw (DepthFirst.Logging.visit (observeTask api s project)) Prod.snd
    (graph api s project).cycle .recursionError python.recursionLimit gid {} >>= _) [] = _
  rw [DepthFirst.Logging.bind_run, hlogged]
  cases walk (graph api s project) python.recursionLimit gid {} <;> rfl

/-- `dependency_state` decides which graphs are safe to read, and what it reports of them. -/
structure DecidesDependencies (api : Api σ) (s : σ) (project : String) (python : Python) (gid : String)
    (assumedCompleted : List String) : Prop where
  /-- Every request is for a task that is reached, and no task is requested twice. -/
  requests : ∃ log, dependencyStateLogged api s project python gid assumedCompleted [] =
      (dependencyState api s project python gid assumedCompleted, log) ∧
    log.Nodup ∧ ∀ node ∈ log, Reaches api s gid node
  terminates : dependencyState api s project python gid assumedCompleted ≠ .error .recursionError
  succeeds : (∃ state, dependencyState api s project python gid assumedCompleted = .ok state) ↔
    WellFormed api s project gid
  describes : ∀ state, dependencyState api s project python gid assumedCompleted = .ok state →
    ∃ task, api.task s gid = some task ∧ state.Describes api s python gid assumedCompleted task
  /-- The revision is determined by which direct blockers are completed, in whatever order and by whichever
  state of a service they are listed. -/
  order : ∀ {σ' : Type} (api' : Api σ') (s' : σ') (gid' : String) (assumedCompleted' : List String)
    (task task' : Task) (state state' : DependencyState),
    api.task s gid = some task → api'.task s' gid' = some task' →
    (completion api s task.dependencies).Perm (completion api' s' task'.dependencies) →
    dependencyState api s project python gid assumedCompleted = .ok state →
    dependencyState api' s' project python gid' assumedCompleted' = .ok state' →
    state.dependencyRevision = state'.dependencyRevision ∧ state.dependencies = state'.dependencies

/-- **`dependency_state` decides exactly the safe graphs**, where the recursion limit of the interpreter
is beyond the number of tasks. -/
theorem dependencyState_decides (nodes : Finset String) (hnodes : ∀ node, Reaches api s gid node → node ∈ nodes)
    (hlimit : nodes.card < python.recursionLimit) :
    DecidesDependencies api s project python gid assumedCompleted where
  requests := dependencyStateLogged_requests
  terminates := by
    simp only [dependencyState, ne_eq, Except.bind_eq_error, walk_ne_recursionError hnodes hlimit, false_or,
      not_exists, not_and]
    exact fun _ _ => nofun
  succeeds := by
    simp only [dependencyState_eq_ok]
    constructor
    · rintro ⟨state, w, hwalk, -⟩
      exact .of_walk hwalk
    · intro H
      cases hwalk : walk (graph api s project) python.recursionLimit gid {} with
      | error e =>
        cases e with
        | clientError message rateLimited => exact (H.walk_ne_clientError hwalk).elim
        | recursionError => exact (walk_ne_recursionError hnodes hlimit hwalk).elim
      | ok w => exact ⟨_, w, rfl, rfl⟩
  describes state h := dependencyState_describes h
  order api' s' gid' assumedCompleted' task task' state state' htask htask' hperm h h' := by
    obtain ⟨other, hother, hstate⟩ := dependencyState_describes h
    obtain ⟨other', hother', hstate'⟩ := dependencyState_describes h'
    cases htask.symm.trans hother
    cases htask'.symm.trans hother'
    have hsorted := sorted_completion_eq hperm
    have hgids := congrArg (List.map Prod.fst) hsorted
    simp only [map_fst_completion] at hgids
    refine ⟨?_, hstate.dependencies.trans (hgids.trans hstate'.dependencies.symm)⟩
    rw [hstate.dependencyRevision, hstate'.dependencyRevision, hsorted]

/-! ## A shared blocker -/

/-- What is reached stays among tasks whose dependencies are among them. -/
theorem Reaches.mem (nodes : List String)
    (hclosed : ∀ a ∈ nodes, ∀ b ∈ ((api.task s a).map Task.dependencies).getD [],
      b ∈ nodes) (ha : gid ∈ nodes) (h : Reaches api s gid node) : node ∈ nodes := by
  induction h with
  | refl => exact ha
  | tail _ hedge ih =>
    obtain ⟨task, htask, hb⟩ := hedge
    exact hclosed _ ih _ (by simpa [htask] using hb)

namespace Memory

def waitingSection : ProjectSection := ⟨"w", waiting⟩
def readySection : ProjectSection := ⟨"r", readyToImplement⟩
def doneSection : ProjectSection := ⟨"d", done⟩

/-- An autonomous task of the project `p`. -/
def sample (gid : String) (dependencies : List String) (completed : Bool) (found : ProjectSection) : Task where
  gid := gid
  name := gid
  completed := completed
  tags := [⟨"1", autonomousToPr⟩]
  dependencies := dependencies
  memberships := [⟨"p", found⟩]

def sampleSections : KeyedTable fun entry : String × ProjectSection => entry.2.gid :=
  ⟨[("p", waitingSection), ("p", readySection), ("p", doneSection)], by decide⟩

/-- `a` waits for `b` and `c`, and `b` for `c`. -/
def shared : Memory where
  tasks := ⟨[sample "a" ["c", "b"] false waitingSection, sample "b" ["c"] false waitingSection,
    sample "c" [] true doneSection], by decide⟩
  sections := sampleSections

end Memory

/-- An interpreter with this digest. -/
def pythonOf (sha256 : String → String) : Python := ⟨sha256, 1000⟩

theorem dependencyState_decides_shared :
    DecidesDependencies Memory.api Memory.shared "p" (pythonOf id) "a" [] :=
  dependencyState_decides {"a", "b", "c"}
    (fun _ h => by simpa using h.mem ["a", "b", "c"] (by decide) (by decide)) (by decide)

/-- The shared blocker is requested once. -/
example : (dependencyStateLogged Memory.api Memory.shared "p" (pythonOf id) "a" [] []).2 = ["a", "b", "c"] := by
  decide +kernel

end Asana
end FlashyFactory
