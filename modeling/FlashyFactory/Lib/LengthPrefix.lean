import Mathlib

/-! # Length-prefixed text

A `Framing` writes a text as its length, a separator and the text itself, so that the end of
the text is known before it is read and any text at all may follow. `frame_append_inj` is the
property that makes such a format a key: a concatenation of framed texts determines each of
them. Lengths are weights of letters, so a byte length of characters is one. -/

/-- How lengths are written, and what separates them from the text. -/
structure Framing (α : Type u) where
  digits : ℕ → List α
  sep : α
  /-- The weight of a letter. -/
  size : α → ℕ
  digits_injective : Function.Injective digits
  sep_not_mem : ∀ n, sep ∉ digits n
  size_pos : ∀ a, 0 < size a

namespace Framing
variable {α : Type u} (F : Framing α)

def weight (s : List α) : ℕ := (s.map F.size).sum

def frame (s : List α) : List α := F.digits (F.weight s) ++ F.sep :: s

variable {F} {a b c x y : List α}

@[simp] theorem weight_append : F.weight (a ++ b) = F.weight a + F.weight b := by
  simp [weight]

theorem weight_eq_zero : F.weight c = 0 ↔ c = [] := by
  cases c with
  | nil => simp [weight]
  | cons d c =>
    have hpos := F.size_pos d
    simp only [weight, List.map_cons, List.sum_cons, reduceCtorEq, iff_false]
    omega

/-- The letters before the first separator. -/
theorem prefix_inj {sep : α} (ha : sep ∉ a) (hb : sep ∉ b) (h : a ++ sep :: x = b ++ sep :: y) :
    a = b ∧ x = y := by
  induction a generalizing b with
  | nil =>
    cases b with
    | nil => exact ⟨rfl, (List.cons.inj h).2⟩
    | cons e b => exact (hb ((List.cons.inj h).1 ▸ List.mem_cons_self)).elim
  | cons d a ih =>
    cases b with
    | nil => exact (ha ((List.cons.inj h).1 ▸ List.mem_cons_self)).elim
    | cons e b =>
      obtain ⟨rfl, htail⟩ := List.cons.inj h
      obtain ⟨rfl, rfl⟩ :=
        ih (fun hm => ha (List.mem_cons_of_mem _ hm)) (fun hm => hb (List.mem_cons_of_mem _ hm)) htail
      exact ⟨rfl, rfl⟩

/-- Two beginnings of one text that have the same weight. -/
theorem weight_inj (h : a ++ x = b ++ y) (hw : F.weight a = F.weight b) : a = b ∧ x = y := by
  rcases List.append_eq_append_iff.mp h with ⟨c, rfl, rfl⟩ | ⟨c, rfl, rfl⟩
  · have hc : c = [] := weight_eq_zero (F := F).mp (by rw [weight_append] at hw; omega)
    simp [hc]
  · have hc : c = [] := weight_eq_zero (F := F).mp (by rw [weight_append] at hw; omega)
    simp [hc]

/-- **A framed text can be read back**, whatever follows it. -/
theorem frame_append_inj : F.frame a ++ x = F.frame b ++ y ↔ a = b ∧ x = y := by
  constructor
  · intro h
    simp only [frame, List.append_assoc, List.cons_append] at h
    obtain ⟨hdigits, hrest⟩ := prefix_inj (F.sep_not_mem _) (F.sep_not_mem _) h
    exact weight_inj hrest (F.digits_injective hdigits)
  · rintro ⟨rfl, rfl⟩
    rfl

end Framing
