import FlashyFactory.Asana.Client
import Mathlib.Order.Nat

/-! # Reading a collection page by page

The loop of `AsanaClient.paginate`, over any pages that the service may answer with. -/

namespace FlashyFactory
namespace Asana

/-- An object of a collection. -/
abbrev Item := List (String × Json)

/-- The payload of a well-formed answer. -/
structure Page where
  data : List Item
  nextPage : Option Json := none

/-- The offset with which the loop goes on. -/
def Page.offset? (page : Page) : Option String :=
  match page.nextPage with
  | some (.object fields) => ((fields.lookup "offset").bind Json.asStr?).filter (· ≠ "")
  | _ => none

structure PageQuery where
  limit : ℕ
  offset : Option String
deriving DecidableEq, Repr

structure Pagination where
  queries : List PageQuery := []
  items : List Item := []
  offset : Option String := none
  /-- What the call has returned or raised. -/
  answer : Option (Answer (List Item)) := none

def exceeded (maximum : ℕ) : Answer (List Item) :=
  refuse ("Asana result exceeded " ++ toString maximum ++ " records; narrow the project or state")

namespace Pagination

/-- One turn of the loop, with the page that answers its request. -/
def read (maximum : ℕ) (s : Pagination) (page : Page) : Pagination :=
  { queries := s.queries ++ [{ limit := min 100 (maximum + 1), offset := s.offset }]
    items := s.items ++ page.data
    offset := page.offset?
    answer :=
      if maximum < (s.items ++ page.data).length then some (exceeded maximum)
      else if page.offset? = none then some (.ok (s.items ++ page.data))
      else none }

/-- The service answers the `n`-th request with the `n`-th page. -/
def turn (pages : ℕ → Page) (maximum : ℕ) (s : Pagination) : Pagination :=
  if s.answer.isSome then s else s.read maximum (pages s.queries.length)

def run (pages : ℕ → Page) (maximum n : ℕ) : Pagination := (turn pages maximum)^[n] {}

end Pagination

/-- The first `n` pages, concatenated. -/
def gathered (pages : ℕ → Page) (n : ℕ) : List Item := (List.range n).flatMap fun k => (pages k).data

variable {pages : ℕ → Page} {maximum n : ℕ}

theorem gathered_succ : gathered pages (n + 1) = gathered pages n ++ (pages n).data := by
  simp [gathered, List.range_succ]

/-- The loop stops after this page: it has no next offset, or there are too many items. -/
def Stops (pages : ℕ → Page) (maximum n : ℕ) : Prop :=
  (pages n).offset? = none ∨ maximum < (gathered pages (n + 1)).length

instance : DecidablePred (Stops pages maximum) := fun _ => inferInstanceAs (Decidable (_ ∨ _))

namespace Pagination

theorem run_succ : run pages maximum (n + 1) = (run pages maximum n).turn pages maximum :=
  Function.iterate_succ_apply' ..

/-- Until it stops the loop has issued a request for each page, and has all of its items. -/
theorem run_of_not_stops (h : ∀ k < n, ¬ Stops pages maximum k) :
    (run pages maximum n).queries.length = n ∧ (run pages maximum n).items = gathered pages n ∧
      (run pages maximum n).answer = none := by
  induction n with
  | zero => exact ⟨rfl, rfl, rfl⟩
  | succ n ih =>
    obtain ⟨hqueries, hitems, hanswer⟩ := ih fun k hk => h k (Nat.lt_succ_of_lt hk)
    have hstop := h n (Nat.lt_succ_self n)
    rw [Stops, not_or, gathered_succ] at hstop
    rw [run_succ, turn, hanswer, if_neg (by decide), hqueries]
    refine ⟨by simp [read, hqueries], by simp [read, hitems, gathered_succ], ?_⟩
    simp only [read, hitems, if_neg hstop.1, if_neg hstop.2]

/-- After the page with which it stops the loop has been left. -/
theorem run_of_stops (h : ∀ k < n, ¬ Stops pages maximum k) (hstop : Stops pages maximum n) :
    (run pages maximum (n + 1)).queries.length = n + 1 ∧
      (run pages maximum (n + 1)).answer = some (paginate maximum (gathered pages (n + 1))) := by
  obtain ⟨hqueries, hitems, hanswer⟩ := run_of_not_stops h
  rw [run_succ, turn, hanswer, if_neg (by decide), hqueries, gathered_succ]
  refine ⟨by simp [read, hqueries], ?_⟩
  rw [Stops, gathered_succ] at hstop
  simp only [read, hitems, paginate, exceeded]
  by_cases hmany : maximum < (gathered pages n ++ (pages n).data).length
  · rw [if_pos hmany, if_pos hmany]
  · rw [if_neg hmany, if_neg hmany, if_pos (hstop.resolve_right hmany)]

theorem run_of_answer {m : ℕ} (h : (run pages maximum n).answer.isSome) (hle : n ≤ m) :
    run pages maximum m = run pages maximum n := by
  induction m, hle using Nat.le_induction with
  | base => rfl
  | succ m _ ih => rw [run_succ, ih, turn, if_pos h]

theorem stops_of_answer (h : (run pages maximum n).answer.isSome) : ∃ k < n, Stops pages maximum k := by
  apply by_contra
  intro hnone
  have hnone' : ∀ k < n, ¬ Stops pages maximum k := fun k hk hstop => hnone ⟨k, hk, hstop⟩
  rw [(run_of_not_stops hnone').2.2] at h
  cases h

end Pagination

/-- The promises of `paginate`. -/
structure PaginatesExactly (pages : ℕ → Page) (maximum : ℕ) : Prop where
  /-- The number of requests is bounded. -/
  finite : ∃ bound, ∀ n, (Pagination.run pages maximum n).queries.length ≤ bound
  returned : ∀ n items, (Pagination.run pages maximum n).answer = some (.ok items) →
    ∃ last, (pages last).offset? = none ∧ (∀ k < last, (pages k).offset? ≠ none) ∧
      items = gathered pages (last + 1) ∧ items.length ≤ maximum
  /-- More items up to the last page than the maximum are an error. -/
  exceeds : ∀ last, (pages last).offset? = none → (∀ k < last, (pages k).offset? ≠ none) →
    maximum < (gathered pages (last + 1)).length → ∃ n, (Pagination.run pages maximum n).answer =
      some (exceeded maximum)

theorem paginatesExactly_of_stops (h : ∃ n, Stops pages maximum n) : PaginatesExactly pages maximum := by
  obtain ⟨n, hstop, hfirst⟩ : ∃ n, Stops pages maximum n ∧ ∀ k < n, ¬ Stops pages maximum k :=
    ⟨Nat.find h, Nat.find_spec h, fun k hk => Nat.find_min h hk⟩
  obtain ⟨hqueries, hanswer⟩ := Pagination.run_of_stops hfirst hstop
  have hsome : (Pagination.run pages maximum (n + 1)).answer.isSome := by rw [hanswer]; rfl
  refine ⟨⟨n + 1, fun m => ?_⟩, fun m items hitems => ?_, fun last hlast hbefore hmany => ⟨n + 1, ?_⟩⟩
  · by_cases hm : m ≤ n
    · have hcount := (Pagination.run_of_not_stops fun k (hk : k < m) => hfirst k (hk.trans_le hm)).1
      omega
    · rw [Pagination.run_of_answer hsome (by omega), hqueries]
  · have hle : n + 1 ≤ m := by
      have hanswered : (Pagination.run pages maximum m).answer.isSome := by rw [hitems]; rfl
      obtain ⟨k, hk, hstops⟩ := Pagination.stops_of_answer hanswered
      have hnk : ¬ k < n := fun hkn => hfirst k hkn hstops
      omega
    rw [Pagination.run_of_answer hsome hle, hanswer, Option.some.injEq, paginate_eq_ok] at hitems
    obtain ⟨hlength, rfl⟩ := hitems
    refine ⟨n, hstop.resolve_right (by omega), fun k hk hnone => hfirst k hk (.inl hnone), rfl, hlength⟩
  · have hle : n ≤ last := by
      apply le_of_not_gt
      exact fun hlt => hfirst last hlt (.inl hlast)
    rcases hle.eq_or_lt with rfl | hlt
    · rw [hanswer, paginate, if_pos hmany]
      rfl
    · have hexceeds : maximum < (gathered pages (n + 1)).length := hstop.resolve_left (hbefore n hlt)
      rw [hanswer, paginate, if_pos hexceeds]
      rfl

/-- **Pagination is exact, and ends unless there are empty pages without end.** -/
theorem paginatesExactly_iff : PaginatesExactly pages maximum ↔ ∃ n, Stops pages maximum n := by
  constructor
  · intro h
    apply by_contra
    intro hnone
    obtain ⟨bound, hbound⟩ := h.finite
    have hcount := (Pagination.run_of_not_stops (n := bound + 1) fun k _ hstop => hnone ⟨k, hstop⟩).1
    have := hbound (bound + 1)
    omega
  · exact paginatesExactly_of_stops

/-- An empty page with a next offset. -/
def emptyPage : Page := { data := [], nextPage := some (.object [("offset", .string "next")]) }

/-- Empty pages without end are read without end. -/
theorem pagination_endless : ¬ ∀ (pages : ℕ → Page) (maximum : ℕ), 1 ≤ maximum →
    ∃ bound, ∀ n, (Pagination.run pages maximum n).queries.length ≤ bound := by
  intro h
  have hgathered : ∀ n, gathered (fun _ => emptyPage) n = [] := by
    intro n
    simp [gathered, emptyPage]
  have hnone : ∀ k, ¬ Stops (fun _ => emptyPage) 1 k := by
    rintro k (hoffset | hmany)
    · exact absurd hoffset (by decide : emptyPage.offset? ≠ none)
    · rw [hgathered] at hmany
      cases hmany
  obtain ⟨bound, hbound⟩ := h (fun _ => emptyPage) 1 le_rfl
  have hcount := (Pagination.run_of_not_stops (n := bound + 1) fun k _ => hnone k).1
  have := hbound (bound + 1)
  omega

end Asana
end FlashyFactory
