import Mathlib.Data.List.Perm.Lattice
import Mathlib.Logic.Relation
import Mathlib.Tactic.Ring

/-! # The connected components of a graph

A node is taken out of the nodes that are unseen when it is put on the stack of its component. For edges that
go both ways, the components partition the nodes, and two nodes share one exactly when a path joins them
(`Partition.components`). -/

namespace FlashyFactory
namespace Components

variable {α : Type*} [DecidableEq α]

structure Search (α : Type*) where
  unseen : List α
  /-- A stack, its top first. -/
  pending : List α
  component : List α := []

def discover (search : Search α) (neighbor : α) : Search α :=
  if neighbor ∈ search.unseen then
    { search with unseen := search.unseen.erase neighbor, pending := neighbor :: search.pending }
  else search

variable (neighbors : α → List α)

def turn (search : Search α) : Search α :=
  match search.pending with
  | [] => search
  | current :: pending => (neighbors current).foldl discover
      { search with pending := pending, component := search.component ++ [current] }

/-- The inner loop; as many turns as there are unseen nodes suffice (`pending_explore`). -/
def explore (root : α) (unseen : List α) : Search α :=
  (turn neighbors)^[unseen.length] { unseen := unseen.erase root, pending := [root] }

/-- The outer loop. -/
def collect : List α → List α → List (List α)
  | [], _ => []
  | root :: roots, unseen =>
    if root ∈ unseen then
      let search := explore neighbors root unseen
      search.component :: collect roots search.unseen
    else collect roots unseen

def components (nodes : List α) : List (List α) := collect neighbors nodes nodes

variable {neighbors}

abbrev Connected (neighbors : α → List α) : α → α → Prop := Relation.ReflTransGen fun a b => b ∈ neighbors a

omit [DecidableEq α] in
theorem Connected.symm (hsymm : ∀ a b, b ∈ neighbors a → a ∈ neighbors b) (h : Connected neighbors a b) :
    Connected neighbors b a := by
  induction h with
  | refl => exact .refl
  | tail _ hstep ih => exact .head (hsymm _ _ hstep) ih

/-! ## One component -/

/-- What the inner loop preserves, from these unseen nodes. -/
structure Invariant (neighbors : α → List α) (root : α) (nodes : List α) (search : Search α) : Prop where
  perm : (search.component ++ search.pending ++ search.unseen).Perm nodes
  rooted : root ∈ search.component ++ search.pending
  connected : ∀ a ∈ search.component ++ search.pending, Connected neighbors root a
  closed : ∀ a ∈ search.component, ∀ b ∈ neighbors a, b ∉ search.unseen

/-- What the loop over the neighbors does. -/
theorem foldl_discover (found : List α) (search : Search α) (hnodup : search.unseen.Nodup) :
    ∃ new, (found.foldl discover search).component = search.component ∧
      (found.foldl discover search).pending = new ++ search.pending ∧
      (new ++ (found.foldl discover search).unseen).Perm search.unseen ∧
      (∀ a ∈ new, a ∈ found) ∧ ∀ a ∈ found, a ∉ (found.foldl discover search).unseen := by
  induction found generalizing search with
  | nil => exact ⟨[], rfl, rfl, .refl _, nofun, nofun⟩
  | cons first found ih =>
    by_cases hfirst : first ∈ search.unseen
    · have hdiscover : discover search first =
          { search with unseen := search.unseen.erase first, pending := first :: search.pending } := if_pos hfirst
      obtain ⟨new, hcomponent, hpending, hperm, hnew, hfound⟩ := ih (discover search first)
        (by rw [hdiscover]; exact hnodup.erase first)
      rw [hdiscover] at hcomponent hpending hperm
      rw [List.foldl_cons, hdiscover]
      rw [hdiscover] at hfound
      have hgone : (new ++ (found.foldl discover _).unseen).Perm (search.unseen.erase first) := hperm
      refine ⟨new ++ [first], hcomponent, by rw [hpending]; simp, ?_, ?_, ?_⟩
      · calc (new ++ [first] ++ (found.foldl discover _).unseen).Perm (first ::
          (new ++ (found.foldl discover _).unseen)) := by
              rw [List.append_assoc]
              exact List.perm_middle
          _ |>.Perm (first :: search.unseen.erase first) := hgone.cons first
          _ |>.Perm search.unseen := (List.perm_cons_erase hfirst).symm
      · intro a ha
        rcases List.mem_append.mp ha with ha | ha
        · exact List.mem_cons_of_mem _ (hnew a ha)
        · exact List.mem_cons.mpr (.inl (List.mem_singleton.mp ha))
      · refine List.forall_mem_cons.mpr ⟨fun hleft => ?_, hfound⟩
        have hstill : first ∈ search.unseen.erase first := hgone.subset (List.mem_append_right _ hleft)
        exact (hnodup.mem_erase_iff.mp hstill).1 rfl
    · have hdiscover : discover search first = search := if_neg hfirst
      obtain ⟨new, hcomponent, hpending, hperm, hnew, hfound⟩ := ih search hnodup
      rw [List.foldl_cons, hdiscover]
      refine ⟨new, hcomponent, hpending, hperm, fun a ha => List.mem_cons_of_mem _ (hnew a ha), ?_⟩
      exact List.forall_mem_cons.mpr ⟨fun hleft => hfirst (hperm.subset (List.mem_append_right _ hleft)), hfound⟩

theorem Invariant.turn {root : α} {nodes : List α} (hnodup : nodes.Nodup) {search : Search α}
    (H : Invariant neighbors root nodes search) : Invariant neighbors root nodes (turn neighbors search) := by
  unfold Components.turn
  split
  · exact H
  next current pending hpending =>
  have hunseen : search.unseen.Nodup := (List.nodup_append.mp (H.perm.nodup_iff.mpr hnodup)).2.1
  obtain ⟨new, hcomponent, hpending', hperm, hnew, hfound⟩ := foldl_discover (neighbors current)
    { search with pending := pending, component := search.component ++ [current] } hunseen
  dsimp only at hcomponent hpending' hperm
  have hmem : ∀ a, a ∈ search.component ++ search.pending ↔ a ∈ search.component ++ [current] ++ pending := by
    intro a
    rw [hpending]
    simp
  have hcurrent : Connected neighbors root current := H.connected current (by rw [hpending]; simp)
  refine ⟨?_, ?_, ?_, ?_⟩
  · rw [hcomponent, hpending']
    have hbefore := H.perm
    rw [hpending] at hbefore
    calc (search.component ++ [current] ++ (new ++ pending) ++ _).Perm
          (search.component ++ [current] ++ pending ++ (new ++ _)) := by
            rw [List.append_assoc, List.append_assoc new, List.append_assoc (search.component ++ [current]) pending]
            exact (List.perm_append_comm_assoc _ _ _).append_left _
      _ |>.Perm (search.component ++ [current] ++ pending ++ search.unseen) := hperm.append_left _
      _ |>.Perm nodes := by simpa using hbefore
  · rw [hcomponent, hpending']
    have hroot := (hmem root).mp H.rooted
    simp only [List.mem_append] at hroot ⊢
    tauto
  · intro a ha
    rw [hcomponent, hpending'] at ha
    by_cases hold : a ∈ search.component ++ [current] ++ pending
    · exact H.connected a ((hmem a).mpr hold)
    · have hone : a ∈ new := by
        simp only [List.mem_append] at ha hold
        tauto
      exact hcurrent.tail (hnew a hone)
  · intro a ha b hb hleft
    rw [hcomponent] at ha
    rcases List.mem_append.mp ha with ha | ha
    · exact H.closed a ha b hb (hperm.subset (List.mem_append_right _ hleft))
    · cases List.mem_singleton.mp ha
      exact hfound b hb hleft

theorem component_foldl_discover {found : List α} {search : Search α} :
    (found.foldl discover search).component = search.component := by
  induction found generalizing search with
  | nil => rfl
  | cons first found ih =>
    rw [List.foldl_cons, ih, discover]
    split <;> rfl

theorem pending_or_component (neighbors : α → List α) (search : Search α) (n : ℕ) :
    ((turn neighbors)^[n] search).pending = [] ∨
    search.component.length + n ≤ ((turn neighbors)^[n] search).component.length := by
  induction n with
  | zero => exact .inr (Nat.le_refl _)
  | succ n ih =>
    rw [Function.iterate_succ_apply', turn]
    split
    · next hpending => exact .inl hpending
    · next hpending =>
      right
      rw [component_foldl_discover, List.length_append, List.length_singleton]
      rcases ih with hnone | hmany
      · cases hnone.symm.trans hpending
      · omega

theorem Invariant.explore {root : α} {nodes : List α} (hnodup : nodes.Nodup) (hroot : root ∈ nodes) :
    Invariant neighbors root nodes (explore neighbors root nodes) := by
  have hstart : Invariant neighbors root nodes { unseen := nodes.erase root, pending := [root] } := by
    refine ⟨(List.perm_cons_erase hroot).symm, by simp, ?_, nofun⟩
    intro a ha
    cases List.mem_singleton.mp ha
    exact .refl
  unfold Components.explore
  induction nodes.length with
  | zero => exact hstart
  | succ n ih =>
    rw [Function.iterate_succ_apply']
    exact ih.turn hnodup

/-- **The inner loop ends.** -/
theorem pending_explore (neighbors : α → List α) {root : α} {nodes : List α} (hnodup : nodes.Nodup)
    (hroot : root ∈ nodes) :
    (explore neighbors root nodes).pending = [] := by
  have H : Invariant neighbors root nodes (Components.explore neighbors root nodes) := .explore hnodup hroot
  rcases pending_or_component neighbors { unseen := nodes.erase root, pending := [root] }
    nodes.length with hpending | hmany
  · exact hpending
  · change 0 + nodes.length ≤ (explore neighbors root nodes).component.length at hmany
    have hlength := H.perm.length_eq
    rw [List.length_append, List.length_append] at hlength
    exact List.eq_nil_of_length_eq_zero (by omega)

/-- A component holds what its root is connected to, and the rest stays unseen. -/
theorem explore_spec {root : α} {nodes : List α} (hnodup : nodes.Nodup) (hroot : root ∈ nodes)
    (hclosed : ∀ a ∈ nodes, ∀ b ∈ neighbors a, b ∈ nodes) :
    (∀ a, a ∈ (explore neighbors root nodes).component ↔ Connected neighbors root a) ∧
      ((explore neighbors root nodes).component ++ (explore neighbors root nodes).unseen).Perm nodes := by
  have H : Invariant neighbors root nodes (Components.explore neighbors root nodes) := .explore hnodup hroot
  have hpending := pending_explore neighbors hnodup hroot
  have hperm := H.perm
  rw [hpending, List.append_nil] at hperm
  refine ⟨fun a => ⟨fun ha => H.connected a (List.mem_append_left _ ha), fun ha => ?_⟩, hperm⟩
  induction ha with
  | refl => simpa [hpending] using H.rooted
  | @tail b c _ hstep ih =>
    have hc : c ∈ nodes := hclosed b (hperm.subset (List.mem_append_left _ ih)) c hstep
    rcases List.mem_append.mp (hperm.mem_iff.mpr hc) with hc | hc
    · exact hc
    · exact (H.closed b ih c hstep hc).elim

/-! ## All components -/

/-- Lists that hold each of these nodes once, one list for each component. -/
structure Partition (neighbors : α → List α) (nodes : List α) (parts : List (List α)) : Prop where
  perm : parts.flatten.Perm nodes
  component : ∀ part ∈ parts, ∃ root ∈ part, ∀ a, a ∈ part ↔ Connected neighbors root a

theorem Partition.collect (hsymm : ∀ a b, b ∈ neighbors a → a ∈ neighbors b) {roots unseen : List α}
    (hnodup : unseen.Nodup) (hclosed : ∀ a ∈ unseen, ∀ b ∈ neighbors a, b ∈ unseen)
    (hroots : ∀ a ∈ unseen, a ∈ roots) :
    Partition neighbors unseen (collect neighbors roots unseen) := by
  induction roots generalizing unseen with
  | nil =>
    cases List.eq_nil_iff_forall_not_mem.mpr fun a ha => List.not_mem_nil (hroots a ha)
    exact ⟨.refl _, nofun⟩
  | cons root roots ih =>
    rw [Components.collect]
    split
    · next hroot =>
      obtain ⟨hmem, hperm⟩ := explore_spec hnodup hroot hclosed
      have hsplit := List.nodup_append.mp (hperm.nodup_iff.mpr hnodup)
      have hself : root ∈ (explore neighbors root unseen).component := (hmem root).mpr .refl
      have hrest : Partition neighbors (explore neighbors root unseen).unseen
          (Components.collect neighbors roots (explore neighbors root unseen).unseen) := by
        refine ih hsplit.2.1 (fun a ha b hb => ?_) fun a ha => ?_
        · -- a neighbor in the component would have put the node there
          rcases List.mem_append.mp (hperm.mem_iff.mpr
            (hclosed a (hperm.subset (List.mem_append_right _ ha)) b hb)) with
            hin | hout
          · have ha' : a ∈ (explore neighbors root unseen).component :=
              (hmem a).mpr (((hmem b).mp hin).tail (hsymm a b hb))
            exact (hsplit.2.2 a ha' a ha rfl).elim
          · exact hout
        · rcases List.mem_cons.mp (hroots a (hperm.subset (List.mem_append_right _ ha))) with rfl | ha'
          · exact (hsplit.2.2 a hself a ha rfl).elim
          · exact ha'
      refine ⟨?_, List.forall_mem_cons.mpr ⟨⟨root, hself, hmem⟩, hrest.component⟩⟩
      rw [List.flatten_cons]
      exact (hrest.perm.append_left _).trans hperm
    · next hroot =>
      refine ih hnodup hclosed fun a ha => ?_
      rcases List.mem_cons.mp (hroots a ha) with rfl | ha'
      · exact (hroot ha).elim
      · exact ha'

/-- **The components partition the nodes.** -/
theorem Partition.components (hsymm : ∀ a b, b ∈ neighbors a → a ∈ neighbors b) {nodes : List α}
    (hnodup : nodes.Nodup) (hclosed : ∀ a ∈ nodes, ∀ b ∈ neighbors a, b ∈ nodes) :
    Partition neighbors nodes (components neighbors nodes) :=
  .collect hsymm hnodup hclosed fun _ h => h

namespace Partition
variable {nodes : List α} {parts : List (List α)} (P : Partition neighbors nodes parts)
include P

omit [DecidableEq α] in
theorem connected_iff (hsymm : ∀ a b, b ∈ neighbors a → a ∈ neighbors b) (hpart : part ∈ parts)
    (ha : a ∈ part) :
    b ∈ part ↔ Connected neighbors a b := by
  obtain ⟨root, -, hmem⟩ := P.component part hpart
  rw [hmem]
  have hroot := (hmem a).mp ha
  exact ⟨fun hb => (Connected.symm hsymm hroot).trans hb, fun hb => hroot.trans hb⟩

omit [DecidableEq α] in
theorem disjoint (hnodup : nodes.Nodup) : parts.Pairwise List.Disjoint :=
  (List.nodup_flatten.mp (P.perm.nodup_iff.mpr hnodup)).2

/-- A node is in one part only. -/
theorem countP_mem (hnodup : nodes.Nodup) (ha : a ∈ nodes) : parts.countP (fun part => a ∈ part) = 1 := by
  have hcount : parts.flatten.count a = 1 :=
    List.count_eq_one_of_mem (P.perm.nodup_iff.mpr hnodup) (P.perm.mem_iff.mpr ha)
  have hparts := (List.nodup_flatten.mp (P.perm.nodup_iff.mpr hnodup)).1
  rw [← hcount]
  clear hcount P
  induction parts with
  | nil => rfl
  | cons part parts ih =>
    obtain ⟨hpart, hparts⟩ := List.forall_mem_cons.mp hparts
    rw [List.countP_cons, List.flatten_cons, List.count_append, ih hparts]
    by_cases hmem : a ∈ part
    · simp [hmem, List.count_eq_one_of_mem hpart hmem, Nat.add_comm]
    · simp [hmem, List.count_eq_zero_of_not_mem hmem]

end Partition

/-- Items that each belong to one part are distributed over the parts. -/
theorem perm_flatMap_filter {β γ : Type*} [DecidableEq β] {parts : List γ} {items : List β}
    (belongs : γ → β → Bool)
    (h : ∀ item ∈ items, parts.countP (fun part => belongs part item) = 1) :
    (parts.flatMap fun part => items.filter (belongs part)).Perm items := by
  have hcount : ∀ item, (parts.flatMap fun part => items.filter (belongs part)).count item =
      parts.countP (fun part => belongs part item) * items.count item := by
    intro item
    clear h
    induction parts with
    | nil => simp
    | cons part parts ih =>
      rw [List.flatMap_cons, List.count_append, ih, List.countP_cons]
      cases hpart : belongs part item with
      | true =>
        rw [List.count_filter hpart, if_pos rfl]
        ring
      | false =>
        rw [List.count_eq_zero_of_not_mem fun hmem => by simp [hpart] at hmem]
        simp
  rw [List.perm_iff_count]
  intro item
  rw [hcount]
  by_cases hitem : item ∈ items
  · rw [h item hitem, Nat.one_mul]
  · rw [List.count_eq_zero_of_not_mem hitem, Nat.mul_zero]

end Components
end FlashyFactory
