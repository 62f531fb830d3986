import Mathlib.Data.List.Basic
import Mathlib.Data.List.Perm.Lattice
import Mathlib.Data.Fintype.EquivFin
import Mathlib.Logic.Relation
import Mathlib.Order.WellFounded

/-! # Kahn's algorithm

An edge leads from a node to one that it waits for. A node is ready when it waits for none that is left, and
each turn takes a ready node away. All nodes are taken exactly when the edges form no cycle
(`length_visited_eq_iff`). -/

namespace FlashyFactory
namespace TopologicalOrder

variable {α : Type*} [DecidableEq α]

structure State (α : Type*) where
  inDegree : α → ℕ
  /-- A queue. -/
  ready : List α
  /-- The nodes that were taken, the last one first. -/
  visited : List α := []

/-- The nodes that wait for this one, once for each edge. -/
def dependents (edges : List (α × α)) (blocker : α) : List α := (edges.filter (·.2 = blocker)).map Prod.fst

def release (state : State α) (dependent : α) : State α :=
  let degree := state.inDegree dependent - 1
  { state with
    inDegree := Function.update state.inDegree dependent degree
    ready := if degree = 0 then state.ready ++ [dependent] else state.ready }

variable (order : List α → List α) (nodes : List α) (edges : List (α × α))

def turn (state : State α) : State α :=
  match state.ready with
  | [] => state
  | blocker :: ready =>
    (order (dependents edges blocker)).foldl release { state with ready := ready, visited := blocker :: state.visited }

def start : State α where
  inDegree node := edges.countP (·.1 = node)
  ready := order (nodes.filter fun node => edges.countP (·.1 = node) = 0)

/-- The loop; `nodes.length` turns suffice (`ready_run`). -/
def run : State α := (turn order edges)^[nodes.length] (start order nodes edges)

variable {order nodes edges}

/-- The edges of a node to nodes that are left. -/
def waits (edges : List (α × α)) (visited : List α) (node : α) : ℕ :=
  edges.countP fun e => e.1 = node ∧ e.2 ∉ visited

theorem waits_edge {e : α × α} : waits (e :: edges) visited node =
    waits edges visited node + if e.1 = node ∧ e.2 ∉ visited then 1 else 0 := by
  simp [waits, List.countP_cons]

theorem count_dependents_edge {e : α × α} : (dependents (e :: edges) blocker).count node =
    (dependents edges blocker).count node + if e.1 = node ∧ e.2 = blocker then 1 else 0 := by
  unfold dependents
  rw [List.filter_cons]
  by_cases hblocker : e.2 = blocker
  · simp [hblocker, List.count_cons]
  · simp [hblocker]

theorem waits_cons {visited : List α} {blocker node : α} (hfresh : blocker ∉ visited) :
    waits edges visited node = waits edges (blocker :: visited) node + (dependents edges blocker).count node := by
  induction edges with
  | nil => rfl
  | cons e edges ih =>
    rw [waits_edge, waits_edge, count_dependents_edge, ih]
    have hone : (if e.1 = node ∧ e.2 ∉ visited then 1 else 0) =
        (if e.1 = node ∧ e.2 ∉ blocker :: visited then 1 else 0) +
          if e.1 = node ∧ e.2 = blocker then 1 else 0 := by
      by_cases hblocker : e.2 = blocker
      · simp [hblocker, hfresh]
      · simp [hblocker]
    omega

/-- What the loop over the dependents of a node does. -/
theorem foldl_release (dependents : List α) (state : State α)
    (h : ∀ node, dependents.count node ≤ state.inDegree node) :
    ∃ freed : List α, freed.Nodup ∧ (∀ node, node ∈ freed ↔ node ∈ dependents ∧
      state.inDegree node = dependents.count node) ∧
      (dependents.foldl release state).ready = state.ready ++ freed ∧
      (dependents.foldl release state).visited = state.visited ∧
      ∀ node, (dependents.foldl release state).inDegree node = state.inDegree node - dependents.count node := by
  induction dependents generalizing state with
  | nil => exact ⟨[], .nil, by simp, by simp, rfl, by simp⟩
  | cons first dependents ih =>
    have hfirst : dependents.count first + 1 ≤ state.inDegree first := by simpa using h first
    have hdegree : ∀ node, (release state first).inDegree node =
        if node = first then state.inDegree first - 1 else state.inDegree node := by
      intro node
      simp [release, Function.update_apply]
    obtain ⟨freed, hnodup, hmem, hready, hvisited, hcount⟩ := ih (release state first) fun node => by
      rw [hdegree]
      split
      · next hnode => subst hnode; omega
      · next hnode =>
        have := h node
        rwa [List.count_cons_of_ne (Ne.symm hnode)] at this
    refine ⟨if state.inDegree first - 1 = 0 then first :: freed else freed, ?_, fun node => ?_, ?_, hvisited,
      fun node => ?_⟩
    · split
      · next hzero =>
        refine List.nodup_cons.mpr ⟨fun hfreed => ?_, hnodup⟩
        obtain ⟨hlisted, -⟩ := (hmem first).mp hfreed
        have := List.count_pos_iff.mpr hlisted
        omega
      · exact hnodup
    · rw [List.mem_cons]
      by_cases hnode : node = first
      · subst hnode
        rw [List.count_cons_self]
        have hfreed := hmem node
        rw [hdegree, if_pos rfl] at hfreed
        split
        · next hzero =>
          have : state.inDegree node = dependents.count node + 1 := by omega
          simp [this]
        · next hzero =>
          rw [hfreed]
          have hlisted : state.inDegree node - 1 = dependents.count node → node ∈ dependents := by
            intro heq
            exact List.count_pos_iff.mp (by omega)
          constructor
          · rintro ⟨-, heq⟩
            exact ⟨.inl rfl, by omega⟩
          · rintro ⟨-, heq⟩
            have heq' : state.inDegree node - 1 = dependents.count node := by omega
            exact ⟨hlisted heq', heq'⟩
      · rw [List.count_cons_of_ne (Ne.symm hnode)]
        have hfreed := hmem node
        rw [hdegree, if_neg hnode] at hfreed
        split <;> simp [hnode, hfreed]
    · rw [List.foldl_cons, hready]
      simp only [release]
      split <;> simp
    · rw [List.foldl_cons, hcount, hdegree]
      by_cases hnode : node = first
      · subst hnode
        rw [if_pos rfl, List.count_cons_self]
        omega
      · rw [if_neg hnode, List.count_cons_of_ne (Ne.symm hnode)]

/-! ## What a turn preserves -/

/-- Each node comes after those it waits for; the last one is first. -/
def Ordered (edges : List (α × α)) : List α → Prop
  | [] => True
  | node :: visited => (∀ blocker, (node, blocker) ∈ edges → blocker ∈ visited) ∧ Ordered edges visited

structure Invariant (nodes : List α) (edges : List (α × α)) (state : State α) : Prop where
  inDegree : ∀ node, state.inDegree node = waits edges state.visited node
  nodup : (state.ready ++ state.visited).Nodup
  mem : ∀ node, node ∈ state.ready ++ state.visited ↔ node ∈ nodes ∧ state.inDegree node = 0
  ordered : Ordered edges state.visited

theorem waits_eq_zero : waits edges visited node = 0 ↔ ∀ blocker, (node, blocker) ∈ edges →
    blocker ∈ visited := by
  rw [waits, List.countP_eq_zero]
  constructor
  · intro h blocker hedge
    simpa using h _ hedge
  · rintro h ⟨first, blocker⟩ hedge
    simp only [decide_eq_true_eq, not_and, not_not]
    rintro rfl
    exact h blocker hedge

theorem Invariant.start (horder : ∀ items, (order items).Perm items) (hnodup : nodes.Nodup) :
    Invariant nodes edges (start order nodes edges) where
  inDegree node := by simp [TopologicalOrder.start, waits]
  nodup := by
    simp only [TopologicalOrder.start, List.append_nil]
    exact (horder _).nodup_iff.mpr (hnodup.filter _)
  mem node := by
    simp only [TopologicalOrder.start, List.append_nil]
    rw [(horder _).mem_iff, List.mem_filter, decide_eq_true_eq]
  ordered := trivial

theorem Invariant.turn (horder : ∀ items, (order items).Perm items)
    (hnodes : ∀ e ∈ edges, e.1 ∈ nodes) {state : State α} (H : Invariant nodes edges state) :
    Invariant nodes edges (turn order edges state) := by
  unfold TopologicalOrder.turn
  split
  · exact H
  next blocker ready hready =>
  have hnodup := H.nodup
  rw [hready, List.cons_append, List.nodup_cons, List.mem_append, not_or] at hnodup
  obtain ⟨⟨-, hfresh⟩, hrest⟩ := hnodup
  have hcount : ∀ node, (order (dependents edges blocker)).count node = (dependents edges blocker).count node :=
    fun node => (horder _).count_eq node
  have hwaits : ∀ node, state.inDegree node = waits edges (blocker :: state.visited) node +
      (order (dependents edges blocker)).count node := by
    intro node
    rw [H.inDegree, waits_cons hfresh, hcount]
  obtain ⟨freed, hfreed, hmem, hready', hvisited', hdegree⟩ :=
    foldl_release (order (dependents edges blocker)) { state with ready := ready, visited := blocker :: state.visited }
      fun node => by
        change _ ≤ state.inDegree node
        rw [hwaits]
        omega
  dsimp only at hmem hready' hvisited' hdegree
  have hzero : state.inDegree blocker = 0 := ((H.mem blocker).mp (by simp [hready])).2
  -- a node that is freed was not ready before
  have hlisted : ∀ node, node ∈ freed → state.inDegree node ≠ 0 := by
    intro node hnode hnone
    obtain ⟨hdependent, heq⟩ := (hmem node).mp hnode
    have := List.count_pos_iff.mpr hdependent
    omega
  refine ⟨fun node => ?_, ?_, fun node => ?_, ?_⟩
  · rw [hdegree, hvisited', hwaits]
    omega
  · rw [hready', hvisited', List.append_assoc]
    have hperm : (ready ++ (freed ++ blocker :: state.visited)).Perm (freed ++
      (blocker :: (ready ++ state.visited))) := by
      calc (ready ++ (freed ++ blocker :: state.visited)).Perm ((freed ++ blocker :: state.visited) ++ ready) :=
            List.perm_append_comm
        _ = freed ++ (blocker :: (state.visited ++ ready)) := by simp
        _ |>.Perm (freed ++ (blocker :: (ready ++ state.visited))) :=
            (List.perm_append_comm.cons blocker).append_left freed
    rw [hperm.nodup_iff]
    have hold : (blocker :: (ready ++ state.visited)).Nodup := by
      have := H.nodup
      rwa [hready] at this
    refine hfreed.append hold fun node hnew hnode => hlisted node hnew ?_
    exact ((H.mem node).mp (by rw [hready]; exact hnode)).2
  · rw [hready', hvisited', hdegree, List.append_assoc]
    have hbefore := H.mem node
    rw [hready] at hbefore
    have hshuffle : node ∈ ready ++ (freed ++ blocker :: state.visited) ↔
        node ∈ freed ∨ node ∈ blocker :: ready ++ state.visited := by
      simp only [List.mem_append, List.mem_cons]
      tauto
    rw [hshuffle, hbefore, hmem]
    have := hwaits node
    constructor
    · rintro (⟨hdependent, heq⟩ | ⟨hnode, hnone⟩)
      · refine ⟨?_, by omega⟩
        obtain ⟨e, he, rfl⟩ := List.mem_map.mp ((horder _).mem_iff.mp hdependent)
        exact hnodes e (List.mem_filter.mp he).1
      · exact ⟨hnode, by omega⟩
    · rintro ⟨hnode, hnone⟩
      by_cases hbase : state.inDegree node = 0
      · exact .inr ⟨hnode, hbase⟩
      · refine .inl ⟨List.count_pos_iff.mp (by omega), by omega⟩
  · rw [hvisited']
    refine ⟨?_, H.ordered⟩
    rw [← waits_eq_zero, ← H.inDegree]
    exact hzero

/-! ## The loop -/

theorem visited_foldl_release {dependents : List α} {state : State α} :
    (dependents.foldl release state).visited = state.visited := by
  induction dependents generalizing state with
  | nil => rfl
  | cons first dependents ih =>
    rw [List.foldl_cons, ih]
    rfl

theorem length_visited_turn (order : List α → List α) (edges : List (α × α)) (state : State α) :
    state.ready = [] ∧ turn order edges state = state ∨
    (turn order edges state).visited.length = state.visited.length + 1 := by
  unfold turn
  split
  · next hready => exact .inl ⟨hready, rfl⟩
  · right
    rw [visited_foldl_release]
    rfl

theorem Invariant.iterate (horder : ∀ items, (order items).Perm items) (hnodup : nodes.Nodup)
    (hnodes : ∀ e ∈ edges, e.1 ∈ nodes) (n : ℕ) :
    Invariant nodes edges ((TopologicalOrder.turn order edges)^[n] (TopologicalOrder.start order nodes edges)) := by
  induction n with
  | zero => exact .start horder hnodup
  | succ n ih =>
    rw [Function.iterate_succ_apply']
    exact ih.turn horder hnodes

theorem ready_or_visited (order : List α → List α) (nodes : List α) (edges : List (α × α)) (n : ℕ) :
    ((turn order edges)^[n] (start order nodes edges)).ready = [] ∨
    n ≤ ((turn order edges)^[n] (start order nodes edges)).visited.length := by
  induction n with
  | zero => exact .inr (Nat.zero_le _)
  | succ n ih =>
    rw [Function.iterate_succ_apply']
    rcases length_visited_turn order edges ((turn order edges)^[n] (start order nodes edges)) with
      ⟨hready, hturn⟩ | hlength
    · left
      rw [hturn, hready]
    · rcases ih with hready | hmany
      · left
        rw [turn, hready]
        exact hready
      · right
        omega

theorem Invariant.run (horder : ∀ items, (order items).Perm items) (hnodup : nodes.Nodup)
    (hnodes : ∀ e ∈ edges, e.1 ∈ nodes) : Invariant nodes edges (run order nodes edges) :=
  .iterate horder hnodup hnodes _

/-- **The loop ends.** -/
theorem ready_run (horder : ∀ items, (order items).Perm items) (hnodup : nodes.Nodup)
    (hnodes : ∀ e ∈ edges, e.1 ∈ nodes) : (run order nodes edges).ready = [] := by
  have H : Invariant nodes edges (TopologicalOrder.run order nodes edges) := .run horder hnodup hnodes
  rcases ready_or_visited order nodes edges nodes.length with hready | hmany
  · exact hready
  · change nodes.length ≤ (run order nodes edges).visited.length at hmany
    have hsub : (run order nodes edges).ready ++ (run order nodes edges).visited ⊆ nodes :=
      fun node hnode => ((H.mem node).mp hnode).1
    have hlength := (List.subperm_of_subset H.nodup hsub).length_le
    rw [List.length_append] at hlength
    exact List.eq_nil_of_length_eq_zero (by omega)

/-! ## Cycles -/

omit [DecidableEq α] in
theorem Ordered.closed {visited : List α} (h : Ordered edges visited) (hnode : node ∈ visited)
    (hedge : (node, blocker) ∈ edges) : blocker ∈ visited := by
  induction visited with
  | nil => cases hnode
  | cons first visited ih =>
    rcases List.mem_cons.mp hnode with rfl | hnode
    · exact List.mem_cons_of_mem _ (h.1 blocker hedge)
    · exact List.mem_cons_of_mem _ (ih h.2 hnode)

omit [DecidableEq α] in
theorem Ordered.acyclic {visited : List α} (h : Ordered edges visited) (hnodup : visited.Nodup)
    (hnode : node ∈ visited) :
    ¬ Relation.TransGen (fun a b => (a, b) ∈ edges) node node := by
  induction visited with
  | nil => cases hnode
  | cons first visited ih =>
    rw [List.nodup_cons] at hnodup
    rcases List.mem_cons.mp hnode with rfl | hnode
    · intro hcycle
      have hlater : ∀ b, Relation.TransGen (fun a b => (a, b) ∈ edges) node b → b ∈ visited := by
        intro b hpath
        induction hpath with
        | single hedge => exact h.1 _ hedge
        | tail _ hedge ih => exact h.2.closed ih hedge
      exact hnodup.1 (hlater node hcycle)
    · exact ih h.2 hnodup.2 hnode

/-- Without a cycle, some node that is left waits for none that is left. -/
theorem mem_visited_of_acyclic {visited : List α} (hnodes : ∀ e ∈ edges, e.2 ∈ nodes)
    (hleft : ∀ node ∈ nodes, node ∉ visited → ∃ blocker, (node, blocker) ∈ edges ∧ blocker ∉ visited)
    (hacyclic : ∀ node, ¬ Relation.TransGen (fun a b => (a, b) ∈ edges) node node) (hnode : node ∈ nodes) :
    node ∈ visited := by
  let below (a b : { node // node ∈ nodes }) : Prop := Relation.TransGen (fun a b => (a, b) ∈ edges) b.1 a.1
  have : IsTrans { node // node ∈ nodes } below := ⟨fun _ _ _ hab hbc => hbc.trans hab⟩
  have : Std.Irrefl below := ⟨fun node => hacyclic node.1⟩
  have hfounded : WellFounded below := Finite.wellFounded_of_trans_of_irrefl below
  have hall : ∀ node : { node // node ∈ nodes }, node.1 ∈ visited := by
    intro node
    induction node using hfounded.induction with
    | _ node ih =>
      by_contra hfresh
      obtain ⟨blocker, hedge, hblocker⟩ := hleft node.1 node.2 hfresh
      exact hblocker (ih ⟨blocker, hnodes _ hedge⟩ (.single hedge))
  exact hall ⟨node, hnode⟩

/-- **All nodes are taken exactly when there is no cycle.** -/
theorem length_visited_eq_iff (horder : ∀ items, (order items).Perm items) (hnodup : nodes.Nodup)
    (hnodes : ∀ e ∈ edges, e.1 ∈ nodes ∧ e.2 ∈ nodes) :
      (run order nodes edges).visited.length = nodes.length ↔
      ∀ node, ¬ Relation.TransGen (fun a b => (a, b) ∈ edges) node node := by
  have H : Invariant nodes edges (TopologicalOrder.run order nodes edges) :=
    .run horder hnodup fun e he => (hnodes e he).1
  have hready := ready_run horder hnodup fun e he => (hnodes e he).1
  have hvisited : (run order nodes edges).visited.Nodup := (List.nodup_append.mp H.nodup).2.1
  have hmem := H.mem
  rw [hready] at hmem
  have hsub : (run order nodes edges).visited ⊆ nodes := fun node hnode => ((hmem node).mp hnode).1
  constructor
  · intro hlength node hcycle
    have hperm := (List.subperm_of_subset hvisited hsub).perm_of_length_le hlength.ge
    obtain ⟨next, hedge, -⟩ := Relation.TransGen.head'_iff.mp hcycle
    have hnode : node ∈ (run order nodes edges).visited := hperm.mem_iff.mpr (hnodes _ hedge).1
    exact H.ordered.acyclic hvisited hnode hcycle
  · intro hacyclic
    have hall : nodes ⊆ (run order nodes edges).visited := by
      intro node hnode
      refine mem_visited_of_acyclic (fun e he => (hnodes e he).2) (fun node hnode hfresh => ?_) hacyclic hnode
      have hwaits : waits edges (run order nodes edges).visited node ≠ 0 := by
        rw [← H.inDegree]
        exact fun hzero => hfresh ((hmem node).mpr ⟨hnode, hzero⟩)
      rw [ne_eq, waits_eq_zero] at hwaits
      push Not at hwaits
      exact hwaits
    exact Nat.le_antisymm (List.subperm_of_subset hvisited hsub).length_le
      (List.subperm_of_subset hnodup hall).length_le

end TopologicalOrder
end FlashyFactory
