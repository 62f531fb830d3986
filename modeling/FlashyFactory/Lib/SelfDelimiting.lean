import Mathlib.Data.List.Basic

/-! # Self-delimiting texts

A code is self-delimiting if what follows a code word can be told from it. Lists of code words that are separated
and closed are self-delimiting again. -/

namespace FlashyFactory

variable {α β γ : Type*}

def SelfDelimiting (f : α → List β) : Prop := ∀ ⦃a b x y⦄, f a ++ x = f b ++ y → a = b ∧ x = y

namespace SelfDelimiting
variable {f : α → List β}

/-- A code that can be read is self-delimiting. -/
theorem of_read (read : List β → Option (α × List β)) (h : ∀ a x, read (f a ++ x) = some (a, x)) :
    SelfDelimiting f := by
  intro a b x y hsame
  have hread := h a x
  rw [hsame, h b y] at hread
  simp only [Option.some.injEq, Prod.mk.injEq] at hread
  exact ⟨hread.1.symm, hread.2.symm⟩

theorem prod {g : γ → List β} (hf : SelfDelimiting f) (hg : SelfDelimiting g) :
    SelfDelimiting fun p : α × γ => f p.1 ++ g p.2 := by
  intro p q x y h
  simp only [List.append_assoc] at h
  obtain ⟨hfirst, h⟩ := hf h
  obtain ⟨hsecond, h⟩ := hg h
  exact ⟨Prod.ext hfirst hsecond, h⟩

theorem comp {g : γ → α} (hf : SelfDelimiting f) (hg : Function.Injective g) : SelfDelimiting fun c => f (g c) := by
  intro c d x y h
  obtain ⟨hsame, hrest⟩ := hf h
  exact ⟨hg hsame, hrest⟩

theorem cons (hf : SelfDelimiting f) (first : β) : SelfDelimiting fun a => first :: f a := by
  intro a b x y h
  rw [List.cons_append, List.cons_append, List.cons.injEq] at h
  exact hf h.2

/-- Code words one after the other, up to a sign with which none of them begins. -/
theorem closed (hf : SelfDelimiting f) {close : β} (hclose : ∀ a, ∃ first rest, f a = first :: rest ∧
    first ≠ close) :
    SelfDelimiting fun items : List α => items.flatMap f ++ [close] := by
  intro items others x y h
  induction items generalizing others with
  | nil =>
    cases others with
    | nil => exact ⟨rfl, by simpa using h⟩
    | cons b others =>
      obtain ⟨first, rest, hb, hne⟩ := hclose b
      simp only [List.flatMap_nil, List.flatMap_cons, hb, List.cons_append, List.nil_append, List.cons.injEq] at h
      exact (hne h.1.symm).elim
  | cons a items ih =>
    cases others with
    | nil =>
      obtain ⟨first, rest, ha, hne⟩ := hclose a
      simp only [List.flatMap_nil, List.flatMap_cons, ha, List.cons_append, List.nil_append, List.cons.injEq] at h
      exact (hne h.1).elim
    | cons b others =>
      simp only [List.flatMap_cons, List.append_assoc] at h
      obtain ⟨rfl, h⟩ := hf h
      obtain ⟨hitems, hafter⟩ := @ih others (by simpa using h)
      exact ⟨by rw [hitems], hafter⟩

/-- Code words with a separator between them, up to a sign with which neither of them begins. -/
theorem separated (hf : SelfDelimiting f) {separator close : β} (hseparator : separator ≠ close)
    (hclose : ∀ a, ∃ first rest, f a = first :: rest ∧ first ≠ close) :
    SelfDelimiting fun items : List α => List.intercalate [separator] (items.map f) ++ [close] := by
  have hrest : SelfDelimiting fun items : List α => items.flatMap (fun a => separator :: f a) ++ [close] :=
    (hf.cons separator).closed fun a => ⟨separator, f a, rfl, hseparator⟩
  have hcons : ∀ (a : α) (items : List α), List.intercalate [separator] ((a :: items).map f) =
      f a ++ items.flatMap fun a => separator :: f a := by
    intro a items
    induction items generalizing a with
    | nil => simp [List.intercalate]
    | cons b items ih =>
      have hnext := ih b
      simp only [List.map_cons, List.intercalate, List.intersperse] at hnext ⊢
      simp [← hnext]
  intro items others x y h
  cases items with
  | nil =>
    cases others with
    | nil => exact ⟨rfl, by simpa using h⟩
    | cons b others =>
      obtain ⟨first, rest, hb, hne⟩ := hclose b
      simp only [hcons, hb] at h
      simp only [List.map_nil, List.intercalate, List.intersperse, List.flatten_nil, List.nil_append, List.cons_append,
        List.cons.injEq] at h
      exact (hne h.1.symm).elim
  | cons a items =>
    cases others with
    | nil =>
      obtain ⟨first, rest, ha, hne⟩ := hclose a
      simp only [hcons, ha] at h
      simp only [List.map_nil, List.intercalate, List.intersperse, List.flatten_nil, List.nil_append, List.cons_append,
        List.cons.injEq] at h
      exact (hne h.1).elim
    | cons b others =>
      simp only [hcons, List.append_assoc] at h
      obtain ⟨rfl, h⟩ := hf h
      obtain ⟨hitems, hafter⟩ := @hrest items others x y (by simpa using h)
      exact ⟨by rw [hitems], hafter⟩

end SelfDelimiting

/-- What comes before and after the last separator. -/
theorem append_separator_inj {a : α} {xs ys others rest : List α} (hys : a ∉ ys) (hrest : a ∉ rest) :
    xs ++ a :: ys = others ++ a :: rest ↔ xs = others ∧ ys = rest := by
  constructor
  · intro h
    rcases List.append_eq_append_iff.mp h with ⟨between, rfl, hafter⟩ | ⟨between, rfl, hafter⟩
    · cases between with
      | nil => exact ⟨by simp, (List.cons.inj hafter).2⟩
      | cons b between =>
        rw [List.cons_append, List.cons.injEq] at hafter
        exact (hys (hafter.2 ▸ List.mem_append_right _ List.mem_cons_self)).elim
    · cases between with
      | nil => exact ⟨by simp, (List.cons.inj hafter).2.symm⟩
      | cons b between =>
        rw [List.cons_append, List.cons.injEq] at hafter
        exact (hrest (hafter.2 ▸ List.mem_append_right _ List.mem_cons_self)).elim
  · rintro ⟨rfl, rfl⟩
    rfl

end FlashyFactory
