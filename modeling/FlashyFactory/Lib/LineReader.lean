import Mathlib.Data.List.Basic

/-! # Reading lines

A reader of a stream that arrives in chunks. It keeps the line that is being read, up to a bound, and
hands each line on. -/

namespace FlashyFactory

structure LineReader (α σ : Type) where
  newline : α
  maximum : ℕ
  /-- A line that was kept whole. -/
  line : σ → List α → σ
  /-- The first element beyond the maximum. -/
  exceed : σ → σ
  /-- The end of a line that was not kept whole. -/
  oversized : σ → List α → σ

namespace LineReader
variable {α σ : Type} [DecidableEq α] (R : LineReader α σ)

structure State (α σ : Type) where
  result : σ
  pending : List α := []
  discarding : Bool := false

def endLine (st : State α σ) : State α σ where
  result := if st.discarding then R.oversized st.result st.pending else R.line st.result st.pending

def element (st : State α σ) (a : α) : State α σ :=
  if a = R.newline then R.endLine st
  else if st.pending.length < R.maximum then { st with pending := st.pending ++ [a] }
  else if st.discarding then st
  else { st with result := R.exceed st.result, discarding := true }

/-- A chunk without elements is the end of the stream. -/
def readChunks (st : State α σ) : List (List α) → State α σ
  | [] => st
  | chunk :: chunks => if chunk = [] then st else readChunks (chunk.foldl R.element st) chunks

/-- The line that the stream ends with counts unless there is nothing of it. -/
def finish (st : State α σ) : σ :=
  if st.pending ≠ [] ∨ st.discarding then (R.endLine st).result else st.result

def read (s : σ) (chunks : List (List α)) : σ := R.finish (R.readChunks { result := s } chunks)

/-! ## What is read -/

/-- The lines of a stream of which `pending` was seen. -/
def linesFrom (newline : α) (pending : List α) : List α → List (List α)
  | [] => if pending = [] then [] else [pending]
  | a :: as => if a = newline then pending :: linesFrom newline [] as else linesFrom newline (pending ++ [a]) as

def lines (newline : α) (as : List α) : List (List α) := linesFrom newline [] as

theorem exists_line_of_pending {newline : α} {pending as : List α} (h : pending ≠ []) :
    ∃ line ∈ linesFrom newline pending as, pending.length ≤ line.length := by
  induction as generalizing pending with
  | nil => exact ⟨pending, by simp [linesFrom, h], Nat.le_refl _⟩
  | cons a as ih =>
    unfold linesFrom
    split
    · exact ⟨pending, List.mem_cons_self, Nat.le_refl _⟩
    · have hgrown : pending ++ [a] ≠ [] := by simp
      obtain ⟨line, hline, hlength⟩ := ih hgrown
      refine ⟨line, hline, ?_⟩
      rw [List.length_append] at hlength
      omega

variable {R}

theorem element_newline {st : State α σ} : R.element st R.newline = R.endLine st := if_pos rfl

theorem element_kept {st : State α σ} {a : α} (ha : a ≠ R.newline) (hroom : st.pending.length < R.maximum) :
    R.element st a = { st with pending := st.pending ++ [a] } := by
  rw [element, if_neg ha, if_pos hroom]

omit [DecidableEq α] in
theorem endLine_kept {st : State α σ} (h : st.discarding = false) :
    R.endLine st = { result := R.line st.result st.pending } := by
  simp [endLine, h]

theorem readChunks_eq {st : State α σ} {chunks : List (List α)} (h : ∀ chunk ∈ chunks, chunk ≠ []) :
    R.readChunks st chunks = chunks.flatten.foldl R.element st := by
  induction chunks generalizing st with
  | nil => rfl
  | cons chunk chunks ih =>
    obtain ⟨hchunk, h⟩ := List.forall_mem_cons.mp h
    rw [readChunks, if_neg hchunk, ih h, List.flatten_cons, List.foldl_append]

theorem finish_foldl {st : State α σ} {as : List α} (hkept : st.discarding = false)
    (h : ∀ line ∈ linesFrom R.newline st.pending as, line.length ≤ R.maximum) :
    R.finish (as.foldl R.element st) = (linesFrom R.newline st.pending as).foldl R.line st.result := by
  induction as generalizing st with
  | nil =>
    by_cases hpending : st.pending = [] <;> simp [finish, linesFrom, endLine, hkept, hpending]
  | cons a as ih =>
    rw [List.foldl_cons]
    by_cases ha : a = R.newline
    · subst ha
      rw [linesFrom, if_pos rfl] at h ⊢
      rw [element_newline, endLine_kept hkept, List.foldl_cons]
      exact ih rfl (List.forall_mem_cons.mp h).2
    · rw [linesFrom, if_neg ha] at h ⊢
      -- the line that this element belongs to has room for it
      have hgrown : st.pending ++ [a] ≠ [] := by simp
      obtain ⟨line, hline, hlength⟩ := exists_line_of_pending hgrown
      have hroom : st.pending.length < R.maximum := by
        have hbound := h line hline
        rw [List.length_append, List.length_singleton] at hlength
        omega
      rw [element_kept ha hroom]
      exact ih hkept h

/-- **The chunks do not matter**: where each line is kept whole, each is handed on. -/
theorem read_eq_foldl_lines {s : σ} {chunks : List (List α)} (hchunks : ∀ chunk ∈ chunks, chunk ≠ [])
    (h : ∀ line ∈ lines R.newline chunks.flatten, line.length ≤ R.maximum) :
    R.read s chunks = (lines R.newline chunks.flatten).foldl R.line s := by
  rw [read, readChunks_eq hchunks]
  exact finish_foldl rfl h

end LineReader
end FlashyFactory
