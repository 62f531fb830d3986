import FlashyFactory.Lib.SelfDelimiting
import Mathlib.Data.List.Sort
import Mathlib.Data.String.Basic
import Mathlib.Tactic.IntervalCases

/-! # Canonical JSON texts

The texts of `json.dumps(.., sort_keys=True, separators=(",", ":"))`. The parts of a value are dumped first; what
follows a text can be told from it. -/

namespace FlashyFactory
namespace CanonicalJson

/-! ## Characters -/

/-- `"\\u{0:04x}".format(unit)` -/
def escapedUnit (unit : ℕ) : List Char :=
  ['\\', 'u', Nat.digitChar (unit / 4096 % 16), Nat.digitChar (unit / 256 % 16), Nat.digitChar (unit / 16 % 16),
    Nat.digitChar (unit % 16)]

def escaped (c : Char) : List Char :=
  if c = '"' then ['\\', '"']
  else if c = '\\' then ['\\', '\\']
  else if c = '\n' then ['\\', 'n']
  else if c = '\r' then ['\\', 'r']
  else if c = '\t' then ['\\', 't']
  else if c = Char.ofNat 0x0C then ['\\', 'f']
  else if c = Char.ofNat 0x08 then ['\\', 'b']
  else if 0x20 ≤ c.toNat ∧ c.toNat ≤ 0x7E then [c]
  else if c.toNat < 0x10000 then escapedUnit c.toNat
  else escapedUnit (0xD800 + (c.toNat - 0x10000) / 0x400) ++ escapedUnit (0xDC00 + (c.toNat - 0x10000) % 0x400)

def hexValue (c : Char) : ℕ := ("0123456789abcdef".toList).idxOf c

/-- What the four digits after `\u` are. -/
def readUnit : List Char → Option (ℕ × List Char)
  | a :: b :: c :: d :: rest => some (((hexValue a * 16 + hexValue b) * 16 + hexValue c) * 16 + hexValue d, rest)
  | _ => none

/-- The character after a high surrogate. -/
def readLow (high : ℕ) : List Char → Option (Char × List Char)
  | '\\' :: 'u' :: rest => (readUnit rest).map fun (low, rest) =>
    (Char.ofNat (0x10000 + (high - 0xD800) * 0x400 + (low - 0xDC00)), rest)
  | _ => none

def readEscaped : List Char → Option (Char × List Char)
  | '\\' :: '"' :: rest => some ('"', rest)
  | '\\' :: '\\' :: rest => some ('\\', rest)
  | '\\' :: 'n' :: rest => some ('\n', rest)
  | '\\' :: 'r' :: rest => some ('\r', rest)
  | '\\' :: 't' :: rest => some ('\t', rest)
  | '\\' :: 'f' :: rest => some (Char.ofNat 0x0C, rest)
  | '\\' :: 'b' :: rest => some (Char.ofNat 0x08, rest)
  | '\\' :: 'u' :: rest => (readUnit rest).bind fun (unit, rest) =>
    if 0xD800 ≤ unit ∧ unit < 0xDC00 then readLow unit rest else some (Char.ofNat unit, rest)
  | c :: rest => some (c, rest)
  | [] => none

theorem hexValue_digitChar {digit : ℕ} (h : digit < 16) : hexValue (Nat.digitChar digit) = digit := by
  interval_cases digit <;> decide

theorem readUnit_escapedUnit {unit : ℕ} (h : unit < 0x10000) (rest : List Char) :
    readUnit ((escapedUnit unit).drop 2 ++ rest) = some (unit, rest) := by
  have hmod : ∀ n : ℕ, n % 16 < 16 := fun n => Nat.mod_lt _ (by decide)
  simp only [escapedUnit, List.drop_succ_cons, List.drop_zero, List.cons_append, List.nil_append, readUnit,
    hexValue_digitChar (hmod _), Option.some.injEq, Prod.mk.injEq, and_true]
  omega

theorem readEscaped_escapedUnit {unit : ℕ} (h : unit < 0x10000) (rest : List Char) :
    readEscaped (escapedUnit unit ++ rest) =
      if 0xD800 ≤ unit ∧ unit < 0xDC00 then readLow unit rest else some (Char.ofNat unit, rest) := by
  have hread := readUnit_escapedUnit h rest
  simp only [escapedUnit, List.drop_succ_cons, List.drop_zero, List.cons_append, List.nil_append] at hread ⊢
  rw [readEscaped, hread, Option.bind_some]

theorem readLow_escapedUnit {high low : ℕ} (h : low < 0x10000) (rest : List Char) :
    readLow high (escapedUnit low ++ rest) =
      some (Char.ofNat (0x10000 + (high - 0xD800) * 0x400 + (low - 0xDC00)), rest) := by
  have hread := readUnit_escapedUnit h rest
  simp only [escapedUnit, List.drop_succ_cons, List.drop_zero, List.cons_append, List.nil_append] at hread ⊢
  rw [readLow, hread, Option.map_some]

theorem readEscaped_printable {c : Char} (h : c ≠ '\\') (rest : List Char) :
    readEscaped (c :: rest) = some (c, rest) := by
  rw [readEscaped]
  all_goals simp [h]

/-- A character is no surrogate. -/
theorem toNat_range (c : Char) : c.toNat < 0xD800 ∨ (0xDFFF < c.toNat ∧ c.toNat < 0x110000) := c.valid

theorem readEscaped_escaped (c : Char) (rest : List Char) : readEscaped (escaped c ++ rest) = some (c, rest) := by
  unfold escaped
  split
  · next h => rw [h]; rfl
  split
  · next h => rw [h]; rfl
  split
  · next h => rw [h]; rfl
  split
  · next h => rw [h]; rfl
  split
  · next h => rw [h]; rfl
  split
  · next h => rw [h]; rfl
  split
  · next h => rw [h]; rfl
  split
  · next hbackslash _ _ _ _ _ _ => exact readEscaped_printable hbackslash rest
  have hrange := toNat_range c
  split
  · next hsmall =>
    rw [readEscaped_escapedUnit hsmall, if_neg (by omega), Char.ofNat_toNat]
  · next hlarge =>
    rw [List.append_assoc, readEscaped_escapedUnit (by omega), if_pos (by omega), readLow_escapedUnit (by omega)]
    have hvalue : 0x10000 + (0xD800 + (c.toNat - 0x10000) / 0x400 - 0xD800) * 0x400 +
        (0xDC00 + (c.toNat - 0x10000) % 0x400 - 0xDC00) = c.toNat := by omega
    rw [hvalue, Char.ofNat_toNat]

theorem selfDelimiting_escaped : SelfDelimiting escaped := .of_read readEscaped readEscaped_escaped

theorem escaped_head (c : Char) : ∃ first rest, escaped c = first :: rest ∧ first ≠ '"' := by
  unfold escaped
  by_cases hquote : c = '"'
  · rw [if_pos hquote]
    exact ⟨'\\', _, rfl, by decide⟩
  rw [if_neg hquote]
  iterate 6
    split
    · exact ⟨'\\', _, rfl, by decide⟩
  split
  · exact ⟨c, [], rfl, hquote⟩
  split
  · exact ⟨'\\', _, rfl, by decide⟩
  · exact ⟨'\\', _, rfl, by decide⟩

theorem digitChar_lt {digit : ℕ} (h : digit < 16) : (Nat.digitChar digit).toNat < 0x7F := by
  interval_cases digit <;> decide

theorem escapedUnit_ascii (unit : ℕ) : ∀ c ∈ escapedUnit unit, c.toNat < 0x7F := by
  have hmod : ∀ n : ℕ, (Nat.digitChar (n % 16)).toNat < 0x7F := fun n => digitChar_lt (Nat.mod_lt _ (by decide))
  simp only [escapedUnit, List.forall_mem_cons]
  exact ⟨by decide, by decide, hmod _, hmod _, hmod _, hmod _, nofun⟩

/-- `ensure_ascii` -/
theorem escaped_ascii (c : Char) : ∀ d ∈ escaped c, d.toNat < 0x7F := by
  unfold escaped
  iterate 7
    split
    · exact List.forall_mem_cons.mpr ⟨by decide, List.forall_mem_singleton.mpr (by decide)⟩
  split
  · next h => simp only [List.forall_mem_cons]; exact ⟨by omega, nofun⟩
  split
  · exact escapedUnit_ascii _
  · exact List.forall_mem_append.mpr ⟨escapedUnit_ascii _, escapedUnit_ascii _⟩

/-- A character that stands for itself. -/
def Plain (c : Char) : Prop := 0x20 ≤ c.toNat ∧ c.toNat ≤ 0x7E ∧ c ≠ '"' ∧ c ≠ '\\'

theorem escaped_plain {c : Char} (h : Plain c) : escaped c = [c] := by
  obtain ⟨hfrom, hto, hquote, hbackslash⟩ := h
  have hcontrol : ∀ d : Char, d.toNat < 0x20 → c ≠ d := by
    rintro d hd rfl
    omega
  simp only [escaped, hquote, hbackslash, hcontrol '\n' (by decide), hcontrol '\r' (by decide),
    hcontrol '\t' (by decide), hcontrol (Char.ofNat 0x0C) (by decide), hcontrol (Char.ofNat 0x08) (by decide), hfrom,
    hto, if_false, if_true, and_self]

/-! ## Values -/

/-- The text as a JSON string. -/
def quote (text : String) : List Char := '"' :: (text.toList.flatMap escaped ++ ['"'])

def dumpsArray (values : List (List Char)) : List Char := '[' :: ([','].intercalate values ++ [']'])

def dumpsEntry (entry : String × List Char) : List Char := quote entry.1 ++ ':' :: entry.2

/-- The entries as they are. -/
def writeObject (entries : List (String × List Char)) : List Char :=
  '\x7b' :: ([','].intercalate (entries.map dumpsEntry) ++ ['\x7d'])

def sortKeys (entries : List (String × α)) : List (String × α) := entries.insertionSort fun a b => a.1 ≤ b.1

def dumpsObject (entries : List (String × List Char)) : List Char := writeObject (sortKeys entries)

theorem quote_ascii (text : String) : ∀ c ∈ quote text, c.toNat < 0x7F := by
  simp only [quote, List.forall_mem_cons, List.forall_mem_append, List.forall_mem_flatMap]
  exact ⟨by decide, fun c _ => escaped_ascii c, by decide, nofun⟩

theorem length_quote {text : String} (h : ∀ c ∈ text.toList, Plain c) : (quote text).length = text.length + 2 := by
  have hplain : text.toList.flatMap escaped = text.toList := by
    rw [List.flatMap_congr fun c hc => escaped_plain (h c hc)]
    simp
  simp [quote, hplain, String.length_toList]

theorem mem_intercalate {c separator : Char} {texts : List (List Char)} (h : c ∈ [separator].intercalate texts) :
    c = separator ∨ ∃ text ∈ texts, c ∈ text := by
  induction texts with
  | nil => cases h
  | cons first texts ih =>
    cases texts with
    | nil => exact .inr ⟨first, List.mem_cons_self, by simpa using h⟩
    | cons next texts =>
      rw [List.intercalate_cons_cons, List.mem_append, List.mem_append, List.mem_singleton] at h
      rcases h with (hfirst | rfl) | hrest
      · exact .inr ⟨first, List.mem_cons_self, hfirst⟩
      · exact .inl rfl
      · rcases ih hrest with hc | ⟨text, htext, hc⟩
        · exact .inl hc
        · exact .inr ⟨text, List.mem_cons_of_mem _ htext, hc⟩

theorem length_intercalate_le {separator : Char} {texts : List (List Char)} {most : ℕ}
    (h : ∀ text ∈ texts, text.length ≤ most) : ([separator].intercalate texts).length ≤
      texts.length * (most + 1) := by
  induction texts with
  | nil => exact Nat.zero_le _
  | cons first texts ih =>
    have hfirst := h first List.mem_cons_self
    have hrest := ih fun text htext => h text (List.mem_cons_of_mem _ htext)
    cases texts with
    | nil =>
      simp only [List.intercalate_singleton, List.length_singleton]
      omega
    | cons next texts =>
      rw [List.intercalate_cons_cons, List.length_append, List.length_append, List.length_singleton, List.length_cons,
        Nat.add_mul]
      omega

theorem writeObject_ascii {entries : List (String × List Char)}
    (h : ∀ e ∈ entries, ∀ c ∈ e.2, c.toNat < 0x7F) :
    ∀ c ∈ writeObject entries, c.toNat < 0x7F := by
  have hbody : ∀ c ∈ [','].intercalate (entries.map dumpsEntry), c.toNat < 0x7F := by
    intro c hc
    rcases mem_intercalate hc with rfl | ⟨text, htext, hc⟩
    · decide
    · obtain ⟨entry, hentry, rfl⟩ := List.mem_map.mp htext
      rcases List.mem_append.mp hc with hkey | hvalue
      · exact quote_ascii _ c hkey
      · rcases List.mem_cons.mp hvalue with rfl | hvalue
        · decide
        · exact h entry hentry c hvalue
  simp only [writeObject, List.forall_mem_cons, List.forall_mem_append]
  exact ⟨by decide, hbody, by decide, nofun⟩

theorem length_writeObject_le {entries : List (String × List Char)} {most : ℕ}
    (h : ∀ e ∈ entries, (quote e.1).length + e.2.length ≤ most) :
    (writeObject entries).length ≤ entries.length * (most + 2) + 2 := by
  have htexts : ∀ text ∈ entries.map dumpsEntry, text.length ≤ most + 1 := by
    intro text htext
    obtain ⟨entry, hentry, rfl⟩ := List.mem_map.mp htext
    have := h entry hentry
    simp only [dumpsEntry, List.length_append, List.length_cons]
    omega
  have hbody := @length_intercalate_le ',' _ _ htexts
  rw [List.length_map] at hbody
  change _ ≤ entries.length * (most + 2) at hbody
  simp only [writeObject, List.length_cons, List.length_append, List.length_nil]
  omega

theorem selfDelimiting_quote : SelfDelimiting quote := by
  intro text other x y h
  have hclosed := (selfDelimiting_escaped.closed escaped_head).cons '"'
  obtain ⟨hsame, hrest⟩ := hclosed h
  exact ⟨String.toList_injective hsame, hrest⟩

theorem selfDelimiting_array {f : α → List Char} (hf : SelfDelimiting f)
    (hclose : ∀ a, ∃ first rest, f a = first :: rest ∧ first ≠ ']') :
    SelfDelimiting fun items : List α => dumpsArray (items.map f) :=
  (hf.separated (by decide) hclose).cons '['

theorem selfDelimiting_object {f : α → List Char} (hf : SelfDelimiting f) :
    SelfDelimiting fun entries : List (String × α) => writeObject (entries.map fun e => (e.1, f e.2)) := by
  have hentry : SelfDelimiting fun e : String × α => quote e.1 ++ ':' :: f e.2 :=
    selfDelimiting_quote.prod (hf.cons ':')
  have hne : ',' ≠ '\x7d' := by decide
  have hclosed := (hentry.separated hne fun e => ⟨'"', _, rfl, by decide⟩).cons '\x7b'
  intro entries others x y h
  refine hclosed ?_
  simpa [writeObject, Function.comp_def, dumpsEntry] using h

/-- The first entries of two objects with the same first key. -/
theorem writeObject_cons_inj {f : α → List Char} (hf : SelfDelimiting f) {key : String} {a b : α}
    {rest others : List (String × List Char)}
    (h : writeObject ((key, f a) :: rest) = writeObject ((key, f b) :: others)) :
    a = b ∧ writeObject rest = writeObject others := by
  have hwrite : ∀ (value : List Char) (entries : List (String × List Char)), writeObject ((key, value) :: entries) =
      '\x7b' :: (quote key ++ ':' :: (value ++ ((if entries = [] then [] else [',']) ++
        ([','].intercalate (entries.map dumpsEntry) ++ ['\x7d'])))) := by
    intro value entries
    cases entries with
    | nil => simp [writeObject, dumpsEntry, List.intercalate]
    | cons entry entries =>
      rw [writeObject, List.map_cons, List.map_cons, List.intercalate_cons_cons]
      simp [dumpsEntry]
  rw [hwrite, hwrite, List.cons_inj_right, List.append_cancel_left_eq, List.cons_inj_right] at h
  obtain ⟨hfirst, hafter⟩ := hf h
  refine ⟨hfirst, ?_⟩
  cases rest with
  | nil =>
    cases others with
    | nil => rfl
    | cons entry others => simp at hafter
  | cons entry rest =>
    cases others with
    | nil => simp at hafter
    | cons other others =>
      rw [if_neg (by simp), if_neg (by simp), List.append_right_inj] at hafter
      rw [writeObject, writeObject, hafter]

theorem perm_sortKeys (entries : List (String × α)) : (sortKeys entries).Perm entries :=
  List.perm_insertionSort _ _

/-- The order of distinct keys does not matter. -/
theorem sortKeys_eq_of_perm {entries others : List (String × α)} (h : entries.Perm others)
    (hnodup : (entries.map Prod.fst).Nodup) : sortKeys entries = sortKeys others := by
  have : Std.Total fun a b : String × α => a.1 ≤ b.1 := ⟨fun a b => le_total a.1 b.1⟩
  have : IsTrans (String × α) fun a b => a.1 ≤ b.1 := ⟨fun _ _ _ => le_trans⟩
  have hperm : (sortKeys entries).Perm (sortKeys others) :=
    (perm_sortKeys entries).trans (h.trans (perm_sortKeys others).symm)
  refine hperm.eq_of_pairwise ?_ (List.pairwise_insertionSort _ _) (List.pairwise_insertionSort _ _)
  intro a b ha hb hab hba
  have hamem : a ∈ entries := (perm_sortKeys entries).mem_iff.mp ha
  have hbmem : b ∈ entries := h.mem_iff.mpr ((perm_sortKeys others).mem_iff.mp hb)
  exact List.inj_on_of_nodup_map hnodup hamem hbmem (le_antisymm hab hba)

theorem sortKeys_map (f : α → β) (entries : List (String × α)) :
    sortKeys (entries.map fun e => (e.1, f e.2)) = (sortKeys entries).map fun e => (e.1, f e.2) := by
  refine (List.map_insertionSort (fun a b : String × α => a.1 ≤ b.1) (fun a b : String × β =>
    a.1 ≤ b.1) _ _ ?_).symm
  exact fun a _ b _ => Iff.rfl

theorem dumpsObject_of_sorted {entries : List (String × List Char)} (h : (entries.map Prod.fst).Pairwise (· ≤ ·)) :
    dumpsObject entries = writeObject entries := by
  have hsorted : entries.Pairwise fun a b => a.1 ≤ b.1 := h.of_map Prod.fst fun _ _ hle => hle
  rw [dumpsObject, sortKeys, hsorted.insertionSort_eq]

end CanonicalJson
end FlashyFactory
