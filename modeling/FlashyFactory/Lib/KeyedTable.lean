import Mathlib.Data.List.Nodup
import Mathlib.Data.List.Count
import Mathlib.Order.Lattice
import Mathlib.Data.Nat.Basic
import Mathlib.Logic.Function.Basic

/-! # Tables with a primary key

A `KeyedTable key` is a list of rows no two of which share a key, so a `PRIMARY KEY` is part of
the type and no statement can build a table that violates it. The operations are the statements
a relational program issues: point reads (`get?`), `UPDATE .. WHERE` (`modifyWhere`, `modify`),
`INSERT` (`insert`, `insertNext`), upserts and `DELETE .. WHERE` (`eraseWhere`). Each comes with
its `get?` lemma; `get?` determines everything the point reads of a program can see. -/

/-- Rows of type `ρ`, pairwise distinct under `key`. -/
@[ext]
structure KeyedTable {ρ : Type u} {κ : Type v} (key : ρ → κ) where
  rows : List ρ
  nodup : (rows.map key).Nodup

namespace KeyedTable
variable {ρ : Type u} {κ : Type v} {key : ρ → κ}

instance : Membership ρ (KeyedTable key) := ⟨fun t r => r ∈ t.rows⟩

instance : EmptyCollection (KeyedTable key) := ⟨⟨[], .nil⟩⟩

instance : Inhabited (KeyedTable key) := ⟨∅⟩

@[simp] theorem mem_rows {t : KeyedTable key} : r ∈ t.rows ↔ r ∈ t := .rfl

@[simp] theorem not_mem_empty : ¬ r ∈ (∅ : KeyedTable key) := List.not_mem_nil

/-- Two rows of a table with one key are one row. -/
theorem eq_of_key_eq {t : KeyedTable key} (hr : r ∈ t) (hs : s ∈ t) (h : key r = key s) : r = s :=
  List.inj_on_of_nodup_map t.nodup hr hs h

section
variable [DecidableEq κ]

/-- The row with key `k`. -/
def get? (t : KeyedTable key) (k : κ) : Option ρ :=
  t.rows.find? fun r => decide (key r = k)

theorem get?_eq_some {t : KeyedTable key} : t.get? k = some r ↔ r ∈ t ∧ key r = k := by
  constructor
  · intro h
    exact ⟨List.mem_of_find?_eq_some h, by simpa using List.find?_some h⟩
  · rintro ⟨hr, rfl⟩
    obtain ⟨s, hs⟩ : ∃ s, t.get? (key r) = some s :=
      Option.isSome_iff_exists.mp (List.find?_isSome.mpr ⟨r, hr, by simp⟩)
    have hkey : key s = key r := by simpa using List.find?_some hs
    rw [hs, eq_of_key_eq (List.mem_of_find?_eq_some hs) hr hkey]

theorem get?_of_mem {t : KeyedTable key} (h : r ∈ t) : t.get? (key r) = some r :=
  get?_eq_some.mpr ⟨h, rfl⟩

theorem mem_of_get? {t : KeyedTable key} (h : t.get? k = some r) : r ∈ t := (get?_eq_some.mp h).1

theorem key_of_get? {t : KeyedTable key} (h : t.get? k = some r) : key r = k :=
  (get?_eq_some.mp h).2

theorem get?_eq_none {t : KeyedTable key} : t.get? k = none ↔ ∀ r ∈ t, key r ≠ k := by
  simp only [get?, List.find?_eq_none, decide_eq_true_eq]
  exact .rfl

@[simp] theorem get?_empty : (∅ : KeyedTable key).get? k = none := rfl

end

/-! ## Updates -/

/-- `UPDATE .. SET f WHERE p`; an update never touches a primary key. -/
def modifyWhere (t : KeyedTable key) (p : ρ → Bool) (f : ρ → ρ)
    (hf : ∀ r, key (f r) = key r := by intro; rfl) : KeyedTable key where
  rows := t.rows.map fun r => if p r then f r else r
  nodup := by
    have : t.rows.map (key ∘ fun r => if p r then f r else r) = t.rows.map key :=
      List.map_congr_left fun r _ => by simp only [Function.comp]; split <;> simp [hf]
    rw [List.map_map, this]
    exact t.nodup

theorem mem_modifyWhere {t : KeyedTable key} {hf : ∀ r, key (f r) = key r} :
    r ∈ t.modifyWhere p f hf ↔ ∃ s ∈ t, r = if p s then f s else s := by
  change r ∈ t.rows.map _ ↔ _
  simp only [List.mem_map, mem_rows, eq_comm (b := r)]

theorem get?_modifyWhere [DecidableEq κ] {t : KeyedTable key} {hf : ∀ r, key (f r) = key r} :
    (t.modifyWhere p f hf).get? k = (t.get? k).map fun r => if p r then f r else r := by
  simp only [get?, modifyWhere, List.find?_map]
  congr 2
  funext r
  simp only [Function.comp]
  split <;> simp [hf]

/-- A count that the update cannot change. -/
theorem countP_modifyWhere {t : KeyedTable key} {hf : ∀ r, key (f r) = key r} {q : ρ → Bool}
    (hq : ∀ r, q (f r) = q r) : (t.modifyWhere p f hf).rows.countP q = t.rows.countP q := by
  simp only [modifyWhere, List.countP_map]
  congr 1
  funext r
  simp only [Function.comp]
  split <;> simp [hq]

section
variable [DecidableEq κ]

/-- `UPDATE .. SET f WHERE key = k AND p`. -/
def modify (t : KeyedTable key) (k : κ) (p : ρ → Bool) (f : ρ → ρ)
    (hf : ∀ r, key (f r) = key r := by intro; rfl) : KeyedTable key :=
  t.modifyWhere (fun r => decide (key r = k) && p r) f hf

/-- Whether `UPDATE .. WHERE key = k AND p` changes a row: the statement's row count is one. -/
def hits (t : KeyedTable key) (k : κ) (p : ρ → Bool) : Bool :=
  (t.get? k).any p

theorem hits_iff {t : KeyedTable key} : t.hits k p = true ↔ ∃ r, t.get? k = some r ∧ p r = true := by
  simp [hits, Option.any_eq_true]

theorem get?_modify {t : KeyedTable key} {hf : ∀ r, key (f r) = key r} :
    (t.modify k p f hf).get? i =
      if i = k then (t.get? k).map fun r => if p r then f r else r else t.get? i := by
  rw [modify, get?_modifyWhere]
  split
  · next h =>
    subst h
    cases hr : t.get? i with
    | none => rfl
    | some r => simp [key_of_get? hr]
  · next h =>
    cases hr : t.get? i with
    | none => rfl
    | some r =>
      have : ¬ key r = k := fun hk => h (by rw [← hk, key_of_get? hr])
      simp [this]

theorem get?_modify_self {t : KeyedTable key} {hf : ∀ r, key (f r) = key r}
    (h : t.get? k = some r) (hp : p r = true) : (t.modify k p f hf).get? k = some (f r) := by
  simp [get?_modify, h, hp]

theorem get?_modify_ne {t : KeyedTable key} {hf : ∀ r, key (f r) = key r} (h : i ≠ k) :
    (t.modify k p f hf).get? i = t.get? i := by
  simp [get?_modify, h]

/-- An update that changes the row with key `k`, seen through `g`. -/
theorem map_get?_modify {t : KeyedTable key} {hf : ∀ r, key (f r) = key r} (g : ρ → α)
    (h : t.get? k = some r) (hp : p r = true) :
    (fun i => ((t.modify k p f hf).get? i).map g) =
      Function.update (fun i => (t.get? i).map g) k (some (g (f r))) := by
  funext i
  by_cases hi : i = k
  · subst hi
    simp [get?_modify_self h hp]
  · simp [get?_modify_ne hi, hi]

/-- An update that `g` does not see. -/
theorem map_get?_modify_of_eq {t : KeyedTable key} {hf : ∀ r, key (f r) = key r} (g : ρ → α)
    (hg : ∀ r, g (f r) = g r) :
    (fun i => ((t.modify k p f hf).get? i).map g) = fun i => (t.get? i).map g := by
  funext i
  rw [modify, get?_modifyWhere]
  cases t.get? i with
  | none => rfl
  | some r =>
    simp only [Option.map_some]
    split <;> simp [hg]

theorem mem_modify {t : KeyedTable key} {hf : ∀ r, key (f r) = key r}
    (h : r ∈ t.modify k p f hf) : (r ∈ t ∧ ¬ (key r = k ∧ p r)) ∨
      ∃ s ∈ t, key s = k ∧ p s = true ∧ r = f s := by
  obtain ⟨s, hs, rfl⟩ := mem_modifyWhere.mp h
  by_cases hp : key s = k ∧ p s = true
  · refine .inr ⟨s, hs, hp.1, hp.2, by simp [hp]⟩
  · have : (decide (key s = k) && p s) = false := by simpa using hp
    simp only [this, Bool.false_eq_true, if_false]
    exact .inl ⟨hs, hp⟩

theorem countP_modify {t : KeyedTable key} {hf : ∀ r, key (f r) = key r} {q : ρ → Bool}
    (hq : ∀ r, q (f r) = q r) : (t.modify k p f hf).rows.countP q = t.rows.countP q :=
  countP_modifyWhere hq

/-- A count, after an update that changes the row `r`. -/
theorem countP_modify_add {t : KeyedTable key} {hf : ∀ r, key (f r) = key r} (q : ρ → Bool)
    (h : t.get? k = some r) (hp : p r = true) :
    (t.modify k p f hf).rows.countP q + (if q r then 1 else 0) =
      t.rows.countP q + if q (f r) then 1 else 0 := by
  obtain ⟨hr, rfl⟩ := get?_eq_some.mp h
  obtain ⟨before, after, hrows⟩ := List.append_of_mem (show r ∈ t.rows from hr)
  have hnodup := t.nodup
  rw [hrows, List.map_append, List.map_cons] at hnodup
  have hother : ∀ s ∈ before ++ after, key s ≠ key r := by
    have hnot := (List.nodup_cons.mp (List.nodup_middle.mp hnodup)).1
    intro s hs heq
    exact hnot (by rw [← List.map_append, ← heq]; exact List.mem_map_of_mem hs)
  have hsame : ∀ l : List ρ, (∀ s ∈ l, key s ≠ key r) →
      l.map (fun s => if decide (key s = key r) && p s then f s else s) = l := by
    intro l hl
    have hid : l.map (fun s => if decide (key s = key r) && p s then f s else s) = l.map id :=
      List.map_congr_left fun s hs => by simp [hl s hs]
    rw [hid, List.map_id]
  simp only [modify, modifyWhere, hrows, List.map_append, List.map_cons, List.countP_append,
    List.countP_cons, hsame before fun s hs => hother s (List.mem_append_left _ hs),
    hsame after fun s hs => hother s (List.mem_append_right _ hs), decide_true, hp, Bool.and_self, if_true]
  omega

end

/-! ## Insertions and deletions -/

/-- `INSERT` of a row whose key is free. -/
def insert (t : KeyedTable key) (r : ρ) (h : ∀ s ∈ t, key s ≠ key r) : KeyedTable key where
  rows := t.rows ++ [r]
  nodup := by
    rw [List.map_append, List.map_singleton]
    refine List.Nodup.append t.nodup (List.nodup_singleton _) ?_
    intro k hk hk'
    obtain ⟨s, hs, rfl⟩ := List.mem_map.mp hk
    exact h s hs (List.mem_singleton.mp hk')

@[simp] theorem mem_insert {t : KeyedTable key} {h : ∀ s ∈ t, key s ≠ key r} :
    x ∈ t.insert r h ↔ x ∈ t ∨ x = r := by
  change x ∈ t.rows ++ [r] ↔ _
  simp

theorem countP_insert {t : KeyedTable key} {h : ∀ s ∈ t, key s ≠ key r} {q : ρ → Bool} :
    (t.insert r h).rows.countP q = t.rows.countP q + if q r then 1 else 0 := by
  simp [insert, List.countP_append, List.countP_cons]

/-- The number of rows in each class, after an insertion. -/
theorem countP_insert_class [DecidableEq ι] {t : KeyedTable key} {h : ∀ s ∈ t, key s ≠ key r}
    (g : ρ → ι) :
    (fun i => (t.insert r h).rows.countP fun s => g s = i) =
      Function.update (fun i => t.rows.countP fun s => g s = i) (g r)
        ((t.rows.countP fun s => g s = g r) + 1) := by
  funext i
  rw [countP_insert]
  by_cases hi : i = g r
  · simp [hi]
  · simp [hi, Ne.symm hi]

theorem get?_insert [DecidableEq κ] {t : KeyedTable key} {h : ∀ s ∈ t, key s ≠ key r} :
    (t.insert r h).get? k = if k = key r then some r else t.get? k := by
  split
  · next hk => exact get?_eq_some.mpr ⟨mem_insert.mpr (.inr rfl), hk.symm⟩
  · next hk =>
    simp only [get?, insert, List.find?_append]
    have : [r].find? (fun s => decide (key s = k)) = none := by simp [Ne.symm hk]
    rw [this, Option.or_none]

/-- `INSERT .. ON CONFLICT(key) DO UPDATE`: the row with `r`'s key becomes `r`. -/
def upsert [DecidableEq κ] (t : KeyedTable key) (r : ρ) : KeyedTable key where
  rows := if t.rows.any (fun s => decide (key s = key r)) then
      t.rows.map fun s => if key s = key r then r else s
    else t.rows ++ [r]
  nodup := by
    split
    · have : t.rows.map (key ∘ fun s => if key s = key r then r else s) = t.rows.map key :=
        List.map_congr_left fun s _ => by
          simp only [Function.comp]
          split
          · next h => exact h.symm
          · rfl
      rw [List.map_map, this]
      exact t.nodup
    · next h =>
      refine (t.insert r fun s hs hk => h ?_).nodup
      exact List.any_eq_true.mpr ⟨s, hs, by simpa using hk⟩

theorem get?_upsert [DecidableEq κ] {t : KeyedTable key} :
    (t.upsert r).get? k = if k = key r then some r else t.get? k := by
  by_cases h : t.rows.any (fun s => decide (key s = key r)) = true
  · obtain ⟨s, hs, hsr⟩ := List.any_eq_true.mp h
    have hsr : key s = key r := by simpa using hsr
    split
    · next hk =>
      refine get?_eq_some.mpr ⟨?_, hk.symm⟩
      have hrows : (t.upsert r).rows = t.rows.map fun s => if key s = key r then r else s :=
        if_pos h
      rw [← mem_rows, hrows]
      exact List.mem_map.mpr ⟨s, hs, by simp [hsr]⟩
    · next hk =>
      simp only [get?, upsert, if_pos h]
      rw [List.find?_map]
      have hcomp : ((fun s => decide (key s = k)) ∘ fun s => if key s = key r then r else s) =
          fun s => decide (key s = k) := by
        funext x
        by_cases hx : key x = key r
        · simp [Function.comp, hx]
        · simp [Function.comp, hx]
      rw [hcomp]
      cases hf : t.rows.find? (fun s => decide (key s = k)) with
      | none => rfl
      | some x =>
        have hx : key x = k := by simpa using List.find?_some hf
        have : ¬ key x = key r := fun e => hk (hx.symm.trans e)
        simp [this]
  · have hfree : ∀ s ∈ t, key s ≠ key r := fun s hs hk =>
      h (List.any_eq_true.mpr ⟨s, hs, by simpa using hk⟩)
    have : t.upsert r = t.insert r hfree := by
      ext1
      simp [upsert, insert, h]
    rw [this, get?_insert]

theorem mem_of_mem_upsert [DecidableEq κ] {t : KeyedTable key} (h : s ∈ t.upsert r) :
    s = r ∨ s ∈ t := by
  have hs := get?_of_mem h
  rw [get?_upsert] at hs
  split at hs
  · exact .inl (Option.some.inj hs).symm
  · exact .inr (mem_of_get? hs)

/-- `DELETE .. WHERE p`. -/
def eraseWhere (t : KeyedTable key) (p : ρ → Bool) : KeyedTable key where
  rows := t.rows.filter fun r => !p r
  nodup := (List.filter_sublist.map key).nodup t.nodup

@[simp] theorem mem_eraseWhere {t : KeyedTable key} : r ∈ t.eraseWhere p ↔ r ∈ t ∧ p r = false := by
  change r ∈ t.rows.filter _ ↔ _
  simp

/-- A row that stays. -/
theorem get?_eraseWhere [DecidableEq κ] {t : KeyedTable key} (h : ∀ r ∈ t, key r = k → p r = false) :
    (t.eraseWhere p).get? k = t.get? k := by
  cases hk : t.get? k with
  | none => exact get?_eq_none.mpr fun r hr => get?_eq_none.mp hk r (mem_eraseWhere.mp hr).1
  | some r =>
    obtain ⟨hr, hkey⟩ := get?_eq_some.mp hk
    exact get?_eq_some.mpr ⟨mem_eraseWhere.mpr ⟨hr, h r hr hkey⟩, hkey⟩

/-- Deleting exactly the row just inserted undoes the insertion. -/
theorem eraseWhere_insert {t : KeyedTable key} {h : ∀ s ∈ t, key s ≠ key r}
    (hr : p r = true) (ht : ∀ s ∈ t, p s = false) : (t.insert r h).eraseWhere p = t := by
  ext1
  have : t.rows.filter (fun s => !p s) = t.rows :=
    List.filter_eq_self.mpr fun s hs => by simp [ht s hs]
  simp [eraseWhere, insert, List.filter_append, hr, this]

/-! ## Numbered rows -/

section
variable {num : ρ → ℕ}

/-- `COALESCE(MAX(id), 0) + 1`, which is also the id an `INTEGER PRIMARY KEY` gives the next
row. -/
def nextId (t : KeyedTable num) : ℕ := t.rows.foldr (fun r m => max (num r) m) 0 + 1

theorem lt_nextId {t : KeyedTable num} (h : r ∈ t) : num r < t.nextId := by
  have key : ∀ l : List ρ, r ∈ l → num r ≤ l.foldr (fun r m => max (num r) m) 0 := by
    intro l hr
    induction l with
    | nil => cases hr
    | cons x l ih =>
      rcases List.mem_cons.mp hr with rfl | hr
      · exact le_max_left _ _
      · exact (ih hr).trans (le_max_right _ _)
  exact Nat.lt_succ_of_le (key _ h)

@[simp] theorem get?_nextId {t : KeyedTable num} : t.get? t.nextId = none :=
  get?_eq_none.mpr fun _ hr => (lt_nextId hr).ne

/-- `INSERT` of a row whose id the table chooses. -/
def insertNext (t : KeyedTable num) (new : ℕ → ρ) (h : ∀ n, num (new n) = n := by intro; rfl) :
    KeyedTable num :=
  t.insert (new t.nextId) fun _ hs hk => (lt_nextId hs).ne (hk.trans (h _))

@[simp] theorem mem_insertNext {t : KeyedTable num} {h : ∀ n, num (new n) = n} :
    x ∈ t.insertNext new h ↔ x ∈ t ∨ x = new t.nextId := mem_insert

theorem get?_insertNext {t : KeyedTable num} {h : ∀ n, num (new n) = n} :
    (t.insertNext new h).get? i = if i = t.nextId then some (new t.nextId) else t.get? i := by
  rw [insertNext, get?_insert, h]

theorem nextId_insertNext {t : KeyedTable num} {h : ∀ n, num (new n) = n} :
    (t.insertNext new h).nextId = t.nextId + 1 := by
  have key : ∀ (l : List ρ) (r : ρ), (∀ s ∈ l, num s ≤ num r) →
      (l ++ [r]).foldr (fun r m => max (num r) m) 0 = num r := by
    intro l r hl
    induction l with
    | nil => simp
    | cons x l ih =>
      have hx := hl x List.mem_cons_self
      rw [List.cons_append, List.foldr_cons, ih fun s hs => hl s (List.mem_cons_of_mem _ hs)]
      exact max_eq_right hx
  have hnew : ∀ s ∈ t.rows, num s ≤ num (new t.nextId) := fun s hs => by
    rw [h]
    exact (lt_nextId hs).le
  change (t.rows ++ [new t.nextId]).foldr _ 0 + 1 = _
  rw [key _ _ hnew, h]

/-- An insertion, seen through `g`. -/
theorem map_get?_insertNext {t : KeyedTable num} {h : ∀ n, num (new n) = n} (g : ρ → α) :
    (fun i => ((t.insertNext new h).get? i).map g) =
      Function.update (fun i => (t.get? i).map g) t.nextId (some (g (new t.nextId))) := by
  funext i
  by_cases hi : i = t.nextId <;> simp [get?_insertNext, hi]

end

/-! ## Rows that stay -/

section
variable [DecidableEq κ] {α : Type w} {t t' t'' : KeyedTable key} {g : ρ → α}

/-- No row disappears, and what `g` reads of a row stays. -/
def Keeps (g : ρ → α) (t t' : KeyedTable key) : Prop :=
  ∀ k r, t.get? k = some r → ∃ r', t'.get? k = some r' ∧ g r' = g r

theorem Keeps.refl : Keeps g t t := fun _ r h => ⟨r, h, rfl⟩

theorem Keeps.trans (h : Keeps g t t') (h' : Keeps g t' t'') : Keeps g t t'' := by
  intro k r hr
  obtain ⟨r', hr', hg⟩ := h k r hr
  obtain ⟨r'', hr'', hg'⟩ := h' k r' hr'
  exact ⟨r'', hr'', hg'.trans hg⟩

theorem Keeps.modify (hf : ∀ r, key (f r) = key r) (hg : ∀ r, g (f r) = g r) :
    Keeps g t (t.modify k p f hf) := by
  intro i r hr
  have hmap : ((t.modify k p f hf).get? i).map g = (t.get? i).map g :=
    congrFun (map_get?_modify_of_eq g hg) i
  rw [hr] at hmap
  exact Option.map_eq_some_iff.mp hmap

theorem Keeps.of_subset (h : ∀ r, r ∈ t → r ∈ t') : Keeps g t t' := by
  intro k r hr
  obtain ⟨hmem, rfl⟩ := get?_eq_some.mp hr
  exact ⟨r, get?_of_mem (h r hmem), rfl⟩

end

instance {p : ρ → Prop} [DecidablePred p] {t : KeyedTable key} : Decidable (∀ r ∈ t, p r) :=
  inferInstanceAs (Decidable (∀ r ∈ t.rows, p r))

instance [DecidableEq ρ] {t : KeyedTable key} : Decidable (r ∈ t) :=
  inferInstanceAs (Decidable (r ∈ t.rows))

instance {p : ρ → Prop} [DecidablePred p] {t : KeyedTable key} : Decidable (∃ r ∈ t, p r) :=
  inferInstanceAs (Decidable (∃ r ∈ t.rows, p r))

/-! ## Tables that grow -/

/-- No row disappears, every row becomes a row that `R` allows, and new rows satisfy `F`. -/
structure Grows [DecidableEq κ] (R : ρ → ρ → Prop) (F : ρ → Prop) (t t' : KeyedTable key) : Prop where
  kept : t.get? k = some r → ∃ r', t'.get? k = some r' ∧ R r r'
  fresh : t.get? k = none → t'.get? k = some r' → F r'

namespace Grows
variable [DecidableEq κ] {R : ρ → ρ → Prop} {F : ρ → Prop} {t t' t'' : KeyedTable key}

theorem refl (hR : ∀ r, R r r) : Grows R F t t := by
  refine ⟨fun h => ⟨_, h, hR _⟩, fun h h' => ?_⟩
  rw [h] at h'
  cases h'

theorem of_eq (hR : ∀ r, R r r) (h : t' = t) : Grows R F t t' := h ▸ refl hR

theorem trans (hR : ∀ r r' r'', R r r' → R r' r'' → R r r'') (hF : ∀ r r', F r → R r r' → F r')
    (h : Grows R F t t') (h' : Grows R F t' t'') : Grows R F t t'' := by
  refine ⟨fun hr => ?_, fun {k r''} hn hr => ?_⟩
  · obtain ⟨r', hr', hone⟩ := h.kept hr
    obtain ⟨r'', hr'', htwo⟩ := h'.kept hr'
    exact ⟨r'', hr'', hR _ _ _ hone htwo⟩
  · cases hmid : t'.get? k with
    | none => exact h'.fresh hmid hr
    | some r' =>
      obtain ⟨r, hr', hone⟩ := h'.kept hmid
      cases hr'.symm.trans hr
      exact hF _ _ (h.fresh hn hmid) hone

theorem modify (hf : ∀ r, key (f r) = key r) (hR : ∀ r, R r r)
    (h : ∀ r, t.get? k = some r → p r = true → R r (f r)) : Grows R F t (t.modify k p f hf) := by
  refine ⟨fun {i r} hr => ?_, fun {i r'} hn hr => ?_⟩
  · by_cases hi : i = k
    · subst hi
      by_cases hp : p r = true
      · exact ⟨f r, get?_modify_self hr hp, h r hr hp⟩
      · exact ⟨r, by simp [get?_modify, hr, hp], hR r⟩
    · exact ⟨r, by rw [get?_modify_ne hi, hr], hR r⟩
  · rw [get?_modify] at hr
    split at hr
    · simp_all
    · rw [hn] at hr
      cases hr

end Grows

end KeyedTable
