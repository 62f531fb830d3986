import Mathlib.Data.List.Infix

/-! # Searching a separated text

A word that does not contain the separator is found in a text only between two separators. -/

namespace FlashyFactory.TextSearch

variable {α : Type*} {word xs ys : List α} {a : α}

theorem suffix_append_cons (ha : a ∉ word) (h : word <:+ xs ++ a :: ys) : word <:+ ys := by
  obtain ⟨before, h⟩ := h
  obtain ⟨mid, -, hword⟩ | ⟨mid, -, hword⟩ := List.append_eq_append_iff.1 h
  · exact absurd (hword ▸ by simp) ha
  · cases mid with
    | nil => exact absurd (by simp [← show a :: ys = word from hword]) ha
    | cons b mid =>
      have hys : ys = mid ++ word := by simpa using (List.cons.inj hword).2
      exact ⟨mid, hys.symm⟩

theorem infix_append_cons (ha : a ∉ word) :
    word <:+: xs ++ a :: ys ↔ word <:+: xs ∨ word <:+: ys := by
  constructor
  · rintro ⟨before, after, h⟩
    obtain ⟨mid, hxs, -⟩ | ⟨mid, hword, htail⟩ := List.append_eq_append_iff.1 h
    · exact .inl ⟨before, mid, hxs.symm⟩
    · cases mid with
      | nil => exact .inl ⟨before, [], by simpa using hword⟩
      | cons b mid =>
        obtain ⟨rfl, rfl⟩ := List.cons.inj htail
        have hmid : word <:+ mid := suffix_append_cons ha ⟨before, hword⟩
        exact .inr (hmid.isInfix.trans (List.prefix_append mid after).isInfix)
  · rintro (h | h)
    · exact h.trans (List.prefix_append xs (a :: ys)).isInfix
    · have hys : ys <:+: xs ++ a :: ys := ⟨xs ++ [a], [], by simp⟩
      exact h.trans hys

end FlashyFactory.TextSearch
