import Mathlib.Data.Fin.Tuple.Basic
import Mathlib.Data.List.FinRange

/-! # Round robin

`n` parties sit in a circle, some of them wait, and a cursor stands before one of them. The next to
be served is the first who waits, from the cursor on; the cursor then stands behind it. A party that
waits comes nearer to the cursor with everyone who is served before it, and nobody is served twice
before it. -/

namespace RoundRobin
variable {n : ℕ} {cursor i j k : Fin n} {waiting : Fin n → Bool}

/-- How many parties stand between the cursor and `i`. -/
def distance (cursor i : Fin n) : ℕ := ((i - cursor : Fin n) : ℕ)

/-- The first party that waits, from the cursor on. -/
def next (cursor : Fin n) (waiting : Fin n → Bool) : Option (Fin n) :=
  ((List.finRange n).map (cursor + ·)).find? waiting

/-- Where the cursor stands after `i` was served. -/
def behind (i : Fin n) : Fin n := ⟨(i + 1) % n, Nat.mod_lt _ i.pos⟩

theorem distance_eq : distance cursor i =
    if cursor.val ≤ i.val then i.val - cursor.val else n - cursor.val + i.val := by
  have hi := i.isLt
  have hcursor := cursor.isLt
  change (n - cursor.val + i.val) % n = _
  split
  · next h =>
    rw [show n - cursor.val + i.val = n + (i.val - cursor.val) by omega, Nat.add_mod_left]
    exact Nat.mod_eq_of_lt (by omega)
  · next h => exact Nat.mod_eq_of_lt (by omega)

theorem behind_val : (behind i).val = if i.val + 1 = n then 0 else i.val + 1 := by
  have hi := i.isLt
  rw [behind]
  split
  · next h => simp [h]
  · next h => exact Nat.mod_eq_of_lt (by omega)

theorem distance_lt : distance cursor i < n := (i - cursor).isLt

theorem distance_injective (h : distance cursor i = distance cursor j) : i = j := by
  have hi := i.isLt
  have hj := j.isLt
  rw [distance_eq, distance_eq] at h
  apply Fin.ext
  split at h <;> split at h <;> omega

/-- A party behind the one that is served comes nearer. -/
theorem distance_behind (h : distance cursor k < distance cursor i) :
    distance (behind k) i + distance cursor k + 1 = distance cursor i := by
  have hi := i.isLt
  have hk := k.isLt
  have hcursor := cursor.isLt
  rw [distance_eq, behind_val]
  rw [distance_eq, distance_eq] at h ⊢
  split at h <;> split at h <;> split <;> split <;> omega

/-- The party that is served is the last in turn. -/
theorem distance_behind_self : distance (behind i) i + 1 = n := by
  have hi := i.isLt
  rw [distance_eq, behind_val]
  split <;> split <;> omega

@[simp] theorem distance_add : distance cursor (cursor + i) = i := by
  have hi := i.isLt
  have hcursor := cursor.isLt
  have hadd : (cursor + i).val = if cursor.val + i.val < n then cursor.val + i.val
      else cursor.val + i.val - n := by
    change (cursor.val + i.val) % n = _
    split
    · next h => exact Nat.mod_eq_of_lt h
    · next h =>
      rw [Nat.mod_eq_sub_mod (by omega)]
      exact Nat.mod_eq_of_lt (by omega)
  rw [distance_eq, hadd]
  split <;> split <;> omega

theorem cursor_add : cursor + (i - cursor) = i := distance_injective distance_add

/-- **The next party is the nearest one that waits.** -/
theorem next_eq_some_iff : next cursor waiting = some i ↔
    waiting i = true ∧ ∀ j, waiting j = true → distance cursor i ≤ distance cursor j := by
  rw [next, List.find?_map, ← Fin.find?_eq_find?_finRange, Option.map_eq_some_iff]
  constructor
  · rintro ⟨offset, hoffset, rfl⟩
    obtain ⟨hwaits, hfirst⟩ := Fin.find?_eq_some_iff.mp hoffset
    refine ⟨hwaits, fun j hj => ?_⟩
    by_contra hnearer
    rw [not_le, distance_add] at hnearer
    have hfree := hfirst (j - cursor) hnearer
    rw [Function.comp_apply, cursor_add, hj] at hfree
    cases hfree
  · rintro ⟨hwaits, hnearest⟩
    refine ⟨i - cursor, Fin.find?_eq_some_iff.mpr ⟨?_, fun j hj => ?_⟩, cursor_add⟩
    · rwa [Function.comp_apply, cursor_add]
    · rw [Function.comp_apply]
      by_contra hwaits'
      have hnear := hnearest (cursor + j) (by simpa using hwaits')
      rw [distance_add] at hnear
      exact absurd hj (Nat.not_lt.mpr hnear)

/-- Who is served after `m` others, if everyone waits. -/
def turn (cursor : Fin n) : ℕ → Fin n
  | 0 => cursor
  | m + 1 => behind (turn cursor m)

theorem turn_val : (turn cursor m).val = (cursor.val + m) % n := by
  induction m with
  | zero => exact (Nat.mod_eq_of_lt cursor.isLt).symm
  | succ m ih =>
    change ((turn cursor m).val + 1) % n = _
    rw [ih, Nat.mod_add_mod, Nat.add_assoc]

/-- Everyone is served again and again. -/
theorem exists_turn (cursor i : Fin n) (m : ℕ) : ∃ m' ≥ m, turn cursor m' = i := by
  have hi := i.isLt
  have hcursor := cursor.isLt
  refine ⟨n * m + (n - cursor.val + i.val), ?_, Fin.ext ?_⟩
  · have hle : 1 * m ≤ n * m := Nat.mul_le_mul_right m i.pos
    omega
  · have hround : cursor.val + (n * m + (n - cursor.val + i.val)) = i.val + n * (m + 1) := by
      rw [Nat.mul_succ]
      omega
    rw [turn_val, hround, Nat.add_mul_mod_self_left, Nat.mod_eq_of_lt hi]

theorem behind_ne (h : 2 ≤ n) : behind i ≠ i := by
  intro heq
  have hval := congrArg Fin.val heq
  rw [behind_val] at hval
  split at hval <;> omega

@[simp] theorem distance_self : distance i i = 0 := by
  simp [distance_eq]

theorem next_isSome (h : waiting i = true) : ∃ j, next cursor waiting = some j := by
  cases hnext : next cursor waiting with
  | some j => exact ⟨j, rfl⟩
  | none =>
    rw [next, List.find?_eq_none] at hnext
    have hi : i ∈ (List.finRange n).map (cursor + ·) :=
      List.mem_map.mpr ⟨i - cursor, List.mem_finRange _, cursor_add⟩
    exact absurd h (hnext i hi)

end RoundRobin
