import FlashyFactory.Lib.Components
import Mathlib.Data.List.Dedup
import Mathlib.Data.List.Sort

/-! # The graph of a batch

`connected_components`, and the edges that `create_batch` selects for each component. -/

namespace FlashyFactory
namespace Asana

/-- `neighbors`, in the order in which the loop takes them. -/
def batchNeighbors (edges : List (String × String)) (reference : String) : List String :=
  let blockers := (edges.filter (·.1 = reference)).map Prod.snd
  let dependents := (edges.filter (·.2 = reference)).map Prod.fst
  (blockers ++ dependents).dedup.insertionSort (· ≥ ·)

def connectedComponents (references : List String) (edges : List (String × String)) : List (List String) :=
  Components.components (batchNeighbors edges) references

def componentEdges (edges : List (String × String)) (component : List String) : List (String × String) :=
  edges.filter fun (dependent, blocker) => component.contains dependent || component.contains blocker

/-- An undirected path of edges leads from the first reference to the second. -/
abbrev Joined (edges : List (String × String)) : String → String → Prop :=
  Relation.ReflTransGen fun a b => (a, b) ∈ edges ∨ (b, a) ∈ edges

variable {references : List String} {edges : List (String × String)}

theorem mem_batchNeighbors : b ∈ batchNeighbors edges a ↔ (a, b) ∈ edges ∨ (b, a) ∈ edges := by
  simp only [batchNeighbors, List.mem_insertionSort, List.mem_dedup, List.mem_append, List.mem_map, List.mem_filter,
    decide_eq_true_eq, Prod.exists]
  constructor
  · rintro (⟨_, _, ⟨hedge, rfl⟩, rfl⟩ | ⟨_, _, ⟨hedge, rfl⟩, rfl⟩)
    · exact .inl hedge
    · exact .inr hedge
  · rintro (hedge | hedge)
    · exact .inl ⟨a, b, ⟨hedge, rfl⟩, rfl⟩
    · exact .inr ⟨b, a, ⟨hedge, rfl⟩, rfl⟩

theorem batchNeighbors_symm (a b : String) (h : b ∈ batchNeighbors edges a) : a ∈ batchNeighbors edges b :=
  mem_batchNeighbors.mpr (mem_batchNeighbors.mp h).symm

theorem connected_iff_joined : Components.Connected (batchNeighbors edges) a b ↔ Joined edges a b := by
  have hstep : (fun a b => b ∈ batchNeighbors edges a) = fun a b => (a, b) ∈ edges ∨ (b, a) ∈ edges :=
    funext₂ fun a b => propext mem_batchNeighbors
  rw [Components.Connected, hstep]

theorem connectedComponents_partition (hnodup : references.Nodup)
    (hedges : ∀ e ∈ edges, e.1 ∈ references ∧ e.2 ∈ references) :
    Components.Partition (batchNeighbors edges) references (connectedComponents references edges) := by
  refine .components batchNeighbors_symm hnodup fun a _ b hb => ?_
  rcases mem_batchNeighbors.mp hb with hedge | hedge
  · exact (hedges _ hedge).2
  · exact (hedges _ hedge).1

/-- The lists hold every reference once, one list for each component of the graph, and the edges are
distributed over them. -/
structure ComponentsOf (references : List String) (edges : List (String × String)) (parts : List (List String)) :
    Prop where
  disjoint : parts.Pairwise List.Disjoint
  perm : parts.flatten.Perm references
  joined : ∀ a ∈ references, ∀ b ∈ references, (∃ part ∈ parts, a ∈ part ∧ b ∈ part) ↔
    Joined edges a b
  inside : ∀ e ∈ edges, parts.countP (fun part => e.1 ∈ part ∧ e.2 ∈ part) = 1
  edges : (parts.flatMap (componentEdges edges)).Perm edges

/-- **The components of a batch partition its references and its edges.** -/
theorem connectedComponents_of (hnodup : references.Nodup)
    (hedges : ∀ e ∈ edges, e.1 ∈ references ∧ e.2 ∈ references) :
    ComponentsOf references edges (connectedComponents references edges) := by
  have P := connectedComponents_partition hnodup hedges
  -- the ends of an edge are in the same components
  have hends : ∀ e ∈ edges, ∀ part ∈ connectedComponents references edges, e.1 ∈ part ↔ e.2 ∈ part := by
    intro e he part hpart
    have hstep : Components.Connected (batchNeighbors edges) e.1 e.2 := .single (mem_batchNeighbors.mpr (.inl he))
    constructor
    · intro hfirst
      exact (P.connected_iff batchNeighbors_symm hpart hfirst).mpr hstep
    · intro hsecond
      exact (P.connected_iff batchNeighbors_symm hpart hsecond).mpr (hstep.symm batchNeighbors_symm)
  refine ⟨P.disjoint hnodup, P.perm, fun a ha b _ => ?_, fun e he => ?_, ?_⟩
  · rw [← connected_iff_joined]
    constructor
    · rintro ⟨part, hpart, hfirst, hsecond⟩
      exact (P.connected_iff batchNeighbors_symm hpart hfirst).mp hsecond
    · intro hconnected
      obtain ⟨part, hpart, hfirst⟩ := List.mem_flatten.mp (P.perm.mem_iff.mpr ha)
      exact ⟨part, hpart, hfirst, (P.connected_iff batchNeighbors_symm hpart hfirst).mpr hconnected⟩
  · rw [← P.countP_mem hnodup (hedges e he).1]
    refine List.countP_congr fun part hpart => ?_
    simp only [decide_eq_true_eq, ← hends e he part hpart, and_self]
  · refine Components.perm_flatMap_filter (fun (part : List String) (e : String × String) =>
      part.contains e.1 || part.contains e.2) fun e he => ?_
    rw [← P.countP_mem hnodup (hedges e he).1]
    refine List.countP_congr fun part hpart => ?_
    simp only [Bool.or_eq_true, List.contains_iff_mem, decide_eq_true_eq, ← hends e he part hpart, or_self]

theorem connectedComponents_of_three :
    ComponentsOf ["a", "b", "c"] [("c", "a")] (connectedComponents ["a", "b", "c"] [("c", "a")]) ∧
      connectedComponents ["a", "b", "c"] [("c", "a")] = [["a", "c"], ["b"]] :=
  ⟨connectedComponents_of (by decide) (by decide), by decide⟩

end Asana
end FlashyFactory
