import FlashyFactory.Lib.Exceptions
import Mathlib.Algebra.BigOperators.Group.Finset.Basic
import Mathlib.Logic.Relation

/-! # Searching a graph that is read node by node

A search for a node, with a stack of the nodes to come. What it fails to find cannot be reached, so an edge
back to where it started closes no cycle. -/

namespace FlashyFactory
namespace StackSearch

variable {α ε : Type} [DecidableEq α]

/-- Whether the target is met; `none` if `n` turns do not suffice. The head of the stack is taken first. -/
def search {m : Type → Type*} [Monad m] (successors : α → m (List α)) (target : α) :
    ℕ → List α → List α → m (Option Bool)
  | 0, _, _ => pure none
  | _ + 1, [], _ => pure (some false)
  | n + 1, current :: pending, visited =>
    if current = target then pure (some true)
    else if current ∈ visited then search successors target n pending visited
    else do
      let next ← successors current
      search successors target n (next.reverse ++ pending) (current :: visited)

variable {successors : α → Except ε (List α)} {target : α}

/-- The nodes can be read and lead nowhere else. -/
def Closed (successors : α → Except ε (List α)) (visited pending : List α) : Prop :=
  ∀ a ∈ visited, ∃ next, successors a = .ok next ∧ ∀ b ∈ next, b ∈ visited ∨ b ∈ pending

/-- What a search that fails leaves behind. -/
theorem search_eq_false (hclosed : Closed successors visited pending) (htarget : target ∉ visited)
    (h : search successors target n pending visited = .ok (some false)) :
    ∃ all : List α, target ∉ all ∧ (∀ a ∈ visited, a ∈ all) ∧ (∀ a ∈ pending, a ∈ all) ∧
      Closed successors all [] := by
  induction n generalizing pending visited with
  | zero => cases h
  | succ n ih =>
    cases pending with
    | nil => exact ⟨visited, htarget, fun _ h => h, nofun, hclosed⟩
    | cons current pending =>
      unfold search at h
      split at h
      · cases h
      next hne =>
      split at h
      · next hvisited =>
        have hclosed' : Closed successors visited pending := by
          intro a ha
          obtain ⟨next, hnext, hmem⟩ := hclosed a ha
          refine ⟨next, hnext, fun b hb => ?_⟩
          rcases hmem b hb with hb | hb
          · exact .inl hb
          · rcases List.mem_cons.mp hb with rfl | hb
            · exact .inl hvisited
            · exact .inr hb
        obtain ⟨all, hall, hkept, hpending, hdone⟩ := ih hclosed' htarget h
        exact ⟨all, hall, hkept, List.forall_mem_cons.mpr ⟨hkept _ hvisited, hpending⟩, hdone⟩
      · obtain ⟨next, hnext, h⟩ := Except.bind_eq_ok.mp h
        have hclosed' : Closed successors (current :: visited) (next.reverse ++ pending) := by
          refine List.forall_mem_cons.mpr ⟨⟨next, hnext, fun b hb => .inr (by simp [hb])⟩, fun a ha => ?_⟩
          obtain ⟨next', hnext', hmem⟩ := hclosed a ha
          refine ⟨next', hnext', fun b hb => ?_⟩
          rcases hmem b hb with hb | hb
          · exact .inl (List.mem_cons_of_mem _ hb)
          · rcases List.mem_cons.mp hb with rfl | hb
            · exact .inl List.mem_cons_self
            · exact .inr (List.mem_append_right _ hb)
        have htarget' : target ∉ current :: visited := by
          rw [List.mem_cons, not_or]
          exact ⟨Ne.symm hne, htarget⟩
        obtain ⟨all, hall, hkept, hpending, hdone⟩ := ih hclosed' htarget' h
        refine ⟨all, hall, fun a ha => hkept a (List.mem_cons_of_mem _ ha), ?_, hdone⟩
        exact List.forall_mem_cons.mpr ⟨hkept _ List.mem_cons_self,
          fun a ha => hpending a (List.mem_append_right _ ha)⟩

/-- **What a search fails to find cannot be reached**, along edges that its reads show. -/
theorem not_reaches_of_search {r : α → α → Prop}
    (hedge : ∀ a next b, successors a = .ok next → r a b → b ∈ next)
    (h : search successors target n [start] [] = .ok (some false)) : ¬ Relation.ReflTransGen r start target := by
  obtain ⟨all, htarget, -, hpending, hclosed⟩ := search_eq_false nofun (by simp) h
  intro hreaches
  have hall : ∀ {a}, Relation.ReflTransGen r start a → a ∈ all := by
    intro a ha
    induction ha with
    | refl => exact hpending start List.mem_cons_self
    | tail _ hstep ih =>
      obtain ⟨next, hnext, hmem⟩ := hclosed _ ih
      rcases hmem _ (hedge _ next _ hnext hstep) with hb | hb
      · exact hb
      · cases hb
  exact htarget (hall hreaches)

/-- A search meets only what its stack reaches. -/
theorem reaches_of_search_true {r : α → α → Prop}
    (hedge : ∀ a next b, successors a = .ok next → b ∈ next → r a b)
    (h : search successors target n pending visited = .ok (some true)) :
    ∃ start ∈ pending, Relation.ReflTransGen r start target := by
  induction n generalizing pending visited with
  | zero => cases h
  | succ n ih =>
    cases pending with
    | nil => cases h
    | cons current pending =>
      unfold search at h
      split at h
      · next hmet => exact ⟨current, List.mem_cons_self, hmet ▸ .refl⟩
      split at h
      · obtain ⟨start, hstart, hreaches⟩ := ih h
        exact ⟨start, List.mem_cons_of_mem _ hstart, hreaches⟩
      · obtain ⟨next, hnext, h⟩ := Except.bind_eq_ok.mp h
        obtain ⟨start, hstart, hreaches⟩ := ih h
        rcases List.mem_append.mp hstart with hstart | hstart
        · have hstep := hedge current next start hnext (List.mem_reverse.mp hstart)
          exact ⟨current, List.mem_cons_self, .head hstep hreaches⟩
        · exact ⟨start, List.mem_cons_of_mem _ hstart, hreaches⟩

theorem reads_of_search_error {r : α → α → Prop}
    (hedge : ∀ a next b, successors a = .ok next → b ∈ next → r a b)
    (h : search successors target n pending visited = .error e) :
    ∃ start ∈ pending, ∃ a, Relation.ReflTransGen r start a ∧ successors a = .error e := by
  induction n generalizing pending visited with
  | zero => cases h
  | succ n ih =>
    cases pending with
    | nil => cases h
    | cons current pending =>
      unfold search at h
      split at h
      · cases h
      split at h
      · obtain ⟨start, hstart, hreaches⟩ := ih h
        exact ⟨start, List.mem_cons_of_mem _ hstart, hreaches⟩
      · rcases Except.bind_eq_error.mp h with hfailed | ⟨next, hnext, h⟩
        · exact ⟨current, List.mem_cons_self, current, .refl, hfailed⟩
        · obtain ⟨start, hstart, a, hreaches, hfailed⟩ := ih h
          rcases List.mem_append.mp hstart with hstart | hstart
          · have hstep := hedge current next start hnext (List.mem_reverse.mp hstart)
            exact ⟨current, List.mem_cons_self, a, .head hstep hreaches, hfailed⟩
          · exact ⟨start, List.mem_cons_of_mem _ hstart, a, hreaches, hfailed⟩

/-! ## The number of turns -/

/-- What the successors of the nodes that are not visited add to the stack at most. -/
def toCome (nodes : Finset α) (degree : α → ℕ) (visited : List α) : ℕ :=
  ∑ a ∈ nodes with a ∉ visited, degree a

theorem toCome_cons {nodes : Finset α} {degree : α → ℕ} (ha : a ∈ nodes) (hfresh : a ∉ visited) :
    toCome nodes degree visited = degree a + toCome nodes degree (a :: visited) := by
  have herase : (nodes.filter fun b => b ∉ a :: visited) = (nodes.filter fun b => b ∉ visited).erase a := by
    ext b
    simp only [Finset.mem_filter, Finset.mem_erase, List.mem_cons, not_or]
    exact and_left_comm
  rw [toCome, toCome, herase]
  exact (Finset.add_sum_erase _ _ (Finset.mem_filter.mpr ⟨ha, hfresh⟩)).symm

/-- **A search of finitely many nodes ends.** -/
theorem search_ne_none (nodes : Finset α) (degree : α → ℕ)
    (hnodes : ∀ a ∈ nodes, ∀ next, successors a = .ok next → next.length ≤ degree a ∧
      ∀ b ∈ next, b ∈ nodes)
    (hpending : ∀ a ∈ pending, a ∈ nodes) (hn : pending.length + toCome nodes degree visited < n) :
    search successors target n pending visited ≠ .ok none := by
  induction n generalizing pending visited with
  | zero => omega
  | succ n ih =>
    cases pending with
    | nil => exact nofun
    | cons current pending =>
      obtain ⟨hcurrent, hpending⟩ := List.forall_mem_cons.mp hpending
      rw [List.length_cons] at hn
      unfold search
      split
      · exact nofun
      split
      · exact ih hpending (by omega)
      next hfresh =>
      cases hnext : successors current with
      | error e => exact nofun
      | ok next =>
        obtain ⟨hdegree, hmem⟩ := hnodes current hcurrent next hnext
        rw [toCome_cons hcurrent hfresh] at hn
        refine ih (fun b hb => ?_) ?_
        · rcases List.mem_append.mp hb with hb | hb
          · exact hmem b (List.mem_reverse.mp hb)
          · exact hpending b hb
        · rw [List.length_append, List.length_reverse]
          omega

/-- A search whose reads are simulated is simulated. -/
theorem search_simulates {m : Type → Type*} [Monad m] {R : ∀ {β : Type}, m β → Except ε β → Prop}
    (H : Except.Simulates (m := m) R) {read : α → m (List α)} (hread : ∀ a, R (read a) (successors a)) :
    R (search read target n pending visited) (search successors target n pending visited) := by
  induction n generalizing pending visited with
  | zero => exact H.pure _
  | succ n ih =>
    cases pending with
    | nil => exact H.pure _
    | cons current pending =>
      unfold search
      split
      · exact H.pure _
      split
      · exact ih
      · exact H.bind (hread current) fun _ => ih

/-! ## Cycles -/

section
variable {β : Type} {r r' : β → β → Prop} {a : β}

theorem reaches_old (hold : ∀ x y, x ≠ a → r' x y → r x y) (h : Relation.ReflTransGen r' x a) :
    Relation.ReflTransGen r x a := by
  induction h using Relation.ReflTransGen.head_induction_on with
  | refl => exact .refl
  | @head x y hstep _ ih =>
    by_cases hx : x = a
    · exact hx ▸ .refl
    · exact .head (hold x y hx hstep) ih

/-- **New edges of one node close no cycle** if none of them leads to a node that reaches it. -/
theorem cycle_old (hold : ∀ x y, x ≠ a → r' x y → r x y)
    (hnew : ∀ b, r' a b → ¬ Relation.ReflTransGen r b a)
    (h : Relation.TransGen r' x x) : Relation.TransGen r x x := by
  have hcycle : ¬ Relation.TransGen r' a a := by
    intro hcycle
    obtain ⟨b, hfirst, hrest⟩ := Relation.TransGen.head'_iff.mp hcycle
    exact hnew b hfirst (reaches_old hold hrest)
  -- a path that never leaves the node by a new edge is an old path
  have hpath : ∀ {x y}, Relation.TransGen r' x y →
      ¬ (Relation.ReflTransGen r' x a ∧ Relation.TransGen r' a y) → Relation.TransGen r x y := by
    intro x y hxy
    induction hxy with
    | @single y hstep =>
      intro hnone
      by_cases hx : x = a
      · subst hx
        exact (hnone ⟨.refl, .single hstep⟩).elim
      · exact .single (hold x y hx hstep)
    | @tail b c hxb hstep ih =>
      intro hnone
      by_cases hb : b = a
      · subst hb
        exact (hnone ⟨hxb.to_reflTransGen, .single hstep⟩).elim
      · exact (ih fun ⟨hxa, hab⟩ => hnone ⟨hxa, hab.tail hstep⟩).tail (hold b c hb hstep)
  exact hpath h fun ⟨hxa, hax⟩ => hcycle (hax.trans_left hxa)

end

end StackSearch
end FlashyFactory
