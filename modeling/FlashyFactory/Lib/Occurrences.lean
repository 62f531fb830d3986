import Mathlib.Data.Nat.ModEq
import Mathlib.Order.Basic

/-! # The next occurrence

The first instant after another one at which something occurs. -/

namespace FlashyFactory

/-- `next` is the first instant after `now` that is among the `occurrences`. -/
structure IsNext {α : Type*} [LinearOrder α] (occurrences : α → Prop) (now next : α) : Prop where
  later : now < next
  occurs : occurrences next
  first : ∀ t, now < t → occurrences t → next ≤ t

namespace IsNext
variable {α : Type*} [LinearOrder α] {occurrences : α → Prop} {now later next other : α}

theorem unique (h : IsNext occurrences now next) (h' : IsNext occurrences now other) : next = other :=
  le_antisymm (h.first other h'.later h'.occurs) (h'.first next h.later h.occurs)

/-- It stays the next one until it has occurred. -/
theorem of_le (h : IsNext occurrences now next) (hle : now ≤ later)
    (hnone : ∀ t, now < t → t ≤ later → ¬ occurrences t) : IsNext occurrences later next where
  later := by
    apply lt_of_not_ge
    intro hpassed
    exact hnone next h.later hpassed h.occurs
  occurs := h.occurs
  first t ht := h.first t (hle.trans_lt ht)

end IsNext

/-! ## Evenly spaced -/

/-- The first number after `now` that leaves the rest `offset`. -/
theorem isNext_modEq {now offset interval : ℕ} (hoffset : offset < interval) :
    IsNext (· ≡ offset [MOD interval]) now
      (if now - now % interval + offset ≤ now then now - now % interval + offset + interval
        else now - now % interval + offset) := by
  have hpos : 0 < interval := by omega
  have hmod := Nat.mod_lt now hpos
  have hdiv : now - now % interval = interval * (now / interval) := by
    have := Nat.div_add_mod now interval
    omega
  rw [hdiv]
  have hstart : interval * (now / interval) + now % interval = now := Nat.div_add_mod now interval
  constructor
  · split
    · omega
    · omega
  · split
    · simp [Nat.ModEq, Nat.add_mod]
    · simp [Nat.ModEq, Nat.add_mod]
  · intro t ht hrest
    have hrest' : t % interval = offset := Eq.trans hrest (Nat.mod_eq_of_lt hoffset)
    have hsplit := Nat.div_add_mod t interval
    have hquotient : now / interval ≤ t / interval := Nat.div_le_div_right ht.le
    rcases hquotient.eq_or_lt with hsame | hless
    · rw [← hsame] at hsplit
      split
      · omega
      · omega
    · have hmul : interval * (now / interval) + interval ≤ interval * (t / interval) := by
        rw [← Nat.mul_succ]
        exact Nat.mul_le_mul_left _ hless
      split
      · omega
      · omega

end FlashyFactory
