import FlashyFactory.Daemon.Continuation

/-! # Paths

The absolute paths that name workspaces. `fs::canonicalize` returns a `CanonicalPath`, whose
components are plain names; a path that is read back from the ledger is an `AbsPath`. -/

namespace FlashyFactory

structure AbsPath where
  components : List String
deriving DecidableEq, Repr

namespace AbsPath

/-- `PathBuf::from` of an absolute path: repeated separators and `.` are no components. -/
def ofStr? (text : String) : Option AbsPath :=
  if text.toList.head? = some '/' then
    some ⟨((text.toList.splitOn '/').map String.ofList).filter fun c => c ≠ "" && c ≠ "."⟩
  else none

def display (p : AbsPath) : String := "/" ++ String.intercalate "/" p.components

def join (p : AbsPath) (name : String) : AbsPath := ⟨p.components ++ [name]⟩

def parent (p : AbsPath) : Option AbsPath :=
  if p.components = [] then none else some ⟨p.components.dropLast⟩

/-- `Path::starts_with`. -/
def startsWith (p q : AbsPath) : Bool := q.components.isPrefixOf p.components

/-- The path itself and what it lies in, the nearest first. -/
def ancestors (p : AbsPath) : List AbsPath := p.components.inits.reverse.map AbsPath.mk

/-- The name of a directory entry. -/
structure Plain (name : String) : Prop where
  nonempty : name ≠ ""
  not_dot : name ≠ "."
  not_parent : name ≠ ".."
  no_separator : '/' ∉ name.toList

@[simp] theorem parent_join (p : AbsPath) (name : String) : (p.join name).parent = some p := by
  simp [join, parent]

theorem join_ne (p : AbsPath) (name : String) : p.join name ≠ p := by
  intro h
  have hlen := congrArg (fun q => q.components.length) h
  simp [join] at hlen

theorem display_toList (p : AbsPath) :
    p.display.toList = ['/'].intercalate ([] :: p.components.map String.toList) ∨
      p.components = [] ∧ p.display.toList = ['/'] := by
  cases hp : p.components with
  | nil => exact .inr ⟨rfl, by simp [display, hp]⟩
  | cons c cs =>
    refine .inl ?_
    rw [List.intercalate_cons_of_ne_nil (by simp)]
    simp [display, hp, String.toList_intercalate]

theorem ofStr?_display {p : AbsPath} (h : ∀ c ∈ p.components, Plain c) :
    ofStr? p.display = some p := by
  have habsolute : p.display.toList.head? = some '/' := by simp [display]
  rw [ofStr?, if_pos habsolute]
  rcases display_toList p with hlist | ⟨hnil, hlist⟩
  · have hsep : ∀ l ∈ [] :: p.components.map String.toList, '/' ∉ l := by
      intro l hl
      rcases List.mem_cons.mp hl with rfl | hl
      · exact List.not_mem_nil
      · obtain ⟨c, hc, rfl⟩ := List.mem_map.mp hl
        exact (h c hc).no_separator
    rw [hlist, List.splitOn_intercalate '/' hsep (by simp)]
    have hkeep : p.components.filter (fun c => c ≠ "" && c ≠ ".") = p.components :=
      List.filter_eq_self.mpr fun c hc => by simp [(h c hc).nonempty, (h c hc).not_dot]
    obtain ⟨components⟩ := p
    refine congrArg (fun cs => some (AbsPath.mk cs)) (Eq.trans ?_ hkeep)
    simp [Function.comp_def]
  · rw [hlist]
    obtain ⟨components⟩ := p
    cases hnil
    rfl

theorem display_join (p : AbsPath) (name : String) :
    (p.join name).display =
      if p.components = [] then p.display ++ name else p.display ++ "/" ++ name := by
  split
  · next hnil => simp [display, join, hnil, String.intercalate_singleton]
  · next hne =>
    simp only [display, join]
    rw [String.intercalate_append_of_ne_nil hne (by simp), String.intercalate_singleton]
    simp only [String.append_assoc]

/-- The root directory aside, a path does not end in a separator. -/
theorem display_getLast? {p : AbsPath} (h : ∀ c ∈ p.components, Plain c) :
    p.display.toList.getLast? = some '/' ↔ p.components = [] := by
  refine ⟨fun hlast => ?_, fun hnil => by simp [display, hnil]⟩
  rcases List.eq_nil_or_concat p.components with hnil | ⟨cs, c, hcs⟩
  · exact hnil
  · have hplain := h c (by simp [hcs])
    have hparent : p = join ⟨cs⟩ c := by
      obtain ⟨components⟩ := p
      exact congrArg AbsPath.mk (by simpa using hcs)
    have hc : c.toList.getLast? = some '/' := by
      rw [hparent, display_join] at hlast
      have hne : c.toList ≠ [] := by simpa using hplain.nonempty
      obtain ⟨last, hl⟩ := Option.isSome_iff_exists.mp (List.getLast?_isSome.mpr hne)
      rw [hl, ← hlast]
      split <;> simp [String.toList_append, List.getLast?_append, List.getLast?_cons, hl]
    exact (hplain.no_separator (List.mem_of_getLast? hc)).elim

/-- A directory under a root, as the ledger records it. -/
theorem joinPath_display {p : AbsPath} (h : ∀ c ∈ p.components, Plain c) (name : String) :
    joinPath p.display name = (p.join name).display := by
  have hnonempty : p.display ≠ "" := fun hempty => by
    simpa [display] using congrArg String.toList hempty
  simp [joinPath, display_join, hnonempty, display_getLast? h]

/-- A name that begins with a dot is no numbered name. -/
theorem numbered_ne {stem name : String} {n : ℕ} (hstem : stem ≠ "") (hdot : stem.toList.head? ≠ some '.')
    (h : stem ++ toString n = name) : name.toList.head? ≠ some '.' := by
  have hne : stem.toList ≠ [] := by simpa using hstem
  rw [← h, String.toList_append, List.head?_append_of_ne_nil _ hne]
  exact hdot

theorem plain_numbered {stem : String} (hstem : stem ≠ "") (hdot : stem.toList.head? ≠ some '.')
    (hsep : '/' ∉ stem.toList) (n : ℕ) : Plain (stem ++ toString n) where
  nonempty h := by
    have hboth := congrArg String.toList h
    rw [String.toList_append, String.toList_empty, List.append_eq_nil_iff] at hboth
    exact hstem (by simpa using hboth.1)
  not_dot h := numbered_ne hstem hdot h rfl
  not_parent h := numbered_ne hstem hdot h rfl
  no_separator h := by
    rw [String.toList_append, List.mem_append, Nat.toString_eq_repr, Nat.toList_repr] at h
    rcases h with h | h
    · exact hsep h
    · exact absurd (Nat.isDigit_of_mem_toDigits (by decide) (by decide) h) (by decide)

end AbsPath

/-- What `fs::canonicalize` returns. -/
structure CanonicalPath extends AbsPath where
  plain : ∀ c ∈ components, AbsPath.Plain c
deriving DecidableEq

end FlashyFactory
