import FlashyFactory.Repository.Remote
import FlashyFactory.Lib.Transition
import Mathlib

/-! # Which pull request belongs to which task

`recognize_change_request_url` of `repository.rs` and `record_pull_request_association` of
`storage.rs`. The recogniser compares host and project without regard to case and reads any run of
digits as a number, but it answers with the text that it was given: one change request has many
spellings, and both uniqueness and contradiction are judged by the spelling. -/

namespace FlashyFactory

/-! ## Recognising a URL -/

/-- The host, the project and the marker that a URL of the repository must have. -/
def expectedRequest (provider : RepositoryProvider) (identity : List Char) :
    Option (List Char × List Char × List Char) :=
  match provider with
  | .gitHub => some ("github.com".toList, identity, "pull".toList)
  | .gitLab => (stripPrefix "gitlab.com/".toList identity).map fun project =>
    ("gitlab.com".toList, project, "merge_requests".toList)

/-- The number of segments after the project. -/
def requestSuffix : RepositoryProvider → ℕ
  | .gitHub => 2
  | .gitLab => 3

/-- The position of the number among the segments; on GitLab a dash precedes the marker. -/
def numberOffset (provider : RepositoryProvider) (segments : List (List Char)) (markerOffset : ℕ) :
    Option ℕ :=
  match provider with
  | .gitHub => some (markerOffset + 1)
  | .gitLab => if segments.getD markerOffset [] ≠ "-".toList then none else some (markerOffset + 2)

def recognizeChangeRequestUrl (provider : RepositoryProvider) (identity candidate : String) :
    Option String := do
  let remainder ← stripPrefix "https://".toList candidate.toList
  let (host, path) ← splitOnce '/' remainder
  let (expectedHost, expectedProject, marker) ← expectedRequest provider identity.toList
  guard (eqIgnoreAsciiCase host expectedHost)
  let segments := path.splitOn '/'
  let projectSegments := expectedProject.splitOn '/'
  guard (segments.length = projectSegments.length + requestSuffix provider)
  guard (((segments.take projectSegments.length).zip projectSegments).all
    fun (actual, expected) => eqIgnoreAsciiCase actual expected)
  let numberOffset ← numberOffset provider segments projectSegments.length
  let number := segments.getD numberOffset []
  guard (segments.getD (numberOffset - 1) [] = marker)
  guard (number ≠ [] ∧ number.all isAsciiDigit)
  return candidate

/-! ## Associations -/

/-- A row of `autonomous_pull_requests`. -/
structure PullRequestAssociation where
  repository : String
  taskGid : String
  pullRequest : String
  associatedAt : ℤ
deriving DecidableEq, Repr

def PullRequestAssociation.key (a : PullRequestAssociation) : String × String :=
  (a.repository, a.taskGid)

abbrev Associations := KeyedTable PullRequestAssociation.key

namespace Associations

def recordPullRequestAssociation (t : Associations) (now : ℤ) (provider : RepositoryProvider)
    (repository taskGid pullRequest : String) : Except LedgerError Associations :=
  if isBlank repository || isBlank taskGid || isBlank pullRequest then .error .emptyAssociationField
  else match recognizeChangeRequestUrl provider repository pullRequest with
    | none => .error .notCanonicalUrl
    | some canonical =>
      match h : t.get? (repository, taskGid) with
      | some existing =>
        if existing.pullRequest ≠ canonical then .error (.contradictoryAssociation taskGid) else .ok t
      | none =>
        -- `UNIQUE(repository, pull_request)`
        if t.rows.any fun row => row.repository = repository && row.pullRequest = canonical then
          .error .associationNotPersisted
        else .ok (t.insert ⟨repository, taskGid, canonical, now⟩ (KeyedTable.get?_eq_none.mp h))

end Associations

/-! ## What a URL denotes -/

structure ChangeRequest where
  host : List Char
  project : List (List Char)
  number : ℕ
deriving DecidableEq

def decimal (digits : List Char) : ℕ := digits.foldl (fun n c => 10 * n + (c.toNat - '0'.toNat)) 0

/-- The change request that the text of a URL names: its host and its project in lower case, and its
number as an integer. -/
def ChangeRequest.ofUrl (provider : RepositoryProvider) (url : String) : Option ChangeRequest := do
  let remainder ← stripPrefix "https://".toList url.toList
  let (host, path) ← splitOnce '/' remainder
  let segments := path.splitOn '/'
  return {
    host := toAsciiLowercase host
    project := (segments.take (segments.length - requestSuffix provider)).map toAsciiLowercase
    number := decimal (segments.getLast?.getD []) }

theorem map_lower_eq {actual expected : List (List Char)} (hlength : actual.length = expected.length)
    (h : (actual.zip expected).all (fun (a, e) => eqIgnoreAsciiCase a e) = true) :
    actual.map toAsciiLowercase = expected.map toAsciiLowercase := by
  induction actual generalizing expected with
  | nil =>
    cases expected with
    | nil => rfl
    | cons e expected => cases hlength
  | cons a actual ih =>
    cases expected with
    | nil => cases hlength
    | cons e expected =>
      simp only [List.zip_cons_cons, List.all_cons, Bool.and_eq_true] at h
      have hhead : toAsciiLowercase a = toAsciiLowercase e := by simpa [eqIgnoreAsciiCase] using h.1
      rw [List.map_cons, List.map_cons, hhead, ih (Nat.succ.inj hlength) h.2]

theorem of_guard {p : Prop} [Decidable p] {u : Unit} (h : guard p = some u) : p := by
  by_contra hp
  simp [guard, hp] at h

/-- A recognised URL is answered as it was given, and names a change request of the repository. -/
theorem of_recognize {provider : RepositoryProvider} {identity candidate canonical : String}
    (h : recognizeChangeRequestUrl provider identity candidate = some canonical) :
    canonical = candidate ∧ ∃ host project marker number,
      expectedRequest provider identity.toList = some (host, project, marker) ∧
      ChangeRequest.ofUrl provider candidate = some
        ⟨toAsciiLowercase host, (project.splitOn '/').map toAsciiLowercase, number⟩ := by
  simp only [recognizeChangeRequestUrl, Option.bind_eq_bind, Option.bind_eq_some_iff] at h
  obtain ⟨remainder, hremainder, ⟨host, path⟩, hpath, ⟨expected, project, marker⟩, hexpected, _, hhost,
    _, hlength, _, hproject, offset, hoffset, _, hmarker, _, hnumber, hcandidate⟩ := h
  have hhost : toAsciiLowercase host = toAsciiLowercase expected := by
    simpa [eqIgnoreAsciiCase] using of_guard hhost
  have hlength := of_guard hlength
  have hproject := map_lower_eq (by simp [hlength]) (of_guard hproject)
  dsimp only at hlength hproject
  have htake : (path.splitOn '/').length - requestSuffix provider = (project.splitOn '/').length := by
    omega
  refine ⟨(Option.some.inj hcandidate).symm, expected, project, marker,
    decimal ((path.splitOn '/').getLast?.getD []), hexpected, ?_⟩
  simp only [ChangeRequest.ofUrl, hremainder, hpath, Option.bind_eq_bind, Option.bind_some, htake, hhost,
    hproject]
  rfl

/-! ## One request, one task -/

/-- A call of `record_pull_request_association` for one provider and repository. -/
structure AssociationCall where
  taskGid : String
  pullRequest : String
  nowMillis : ℤ

section
variable (provider : RepositoryProvider) (repository : String)

namespace AssociationCall

def record (t : Associations) (c : AssociationCall) : Except LedgerError Associations :=
  t.recordPullRequestAssociation c.nowMillis provider repository c.taskGid c.pullRequest

def step (t : Associations) (c : AssociationCall) : Associations :=
  match c.record provider repository t with
  | .ok t' => t'
  | .error _ => t

/-- The call passes the checks that come before the table is read. -/
def Accepted (c : AssociationCall) : Prop :=
  (isBlank repository || isBlank c.taskGid || isBlank c.pullRequest) = false ∧
    recognizeChangeRequestUrl provider repository c.pullRequest = some c.pullRequest

instance : DecidablePred (Accepted provider repository) := fun _ => inferInstanceAs (Decidable (_ ∧ _))

/-- The call names a change request that is on record, for its own task or while its task has none, and
spells it as it is recorded. -/
def SpelledAsRecorded (t : Associations) (c : AssociationCall) : Prop :=
  c.Accepted provider repository → ∀ row ∈ t,
    ChangeRequest.ofUrl provider row.pullRequest = ChangeRequest.ofUrl provider c.pullRequest →
      (row.taskGid = c.taskGid ∨ t.get? (repository, c.taskGid) = none) →
        row.pullRequest = c.pullRequest

end AssociationCall

open AssociationCall

/-- The table after the calls, in order, on an empty one. -/
def associated (calls : List AssociationCall) : Associations :=
  Transition.run (step provider repository) ∅ calls

/-- One pull request belongs to one task, in every spelling. -/
structure OneTaskPerRequest (calls : List AssociationCall) : Prop where
  unique : ∀ before late, calls = before ++ late →
    ∀ a ∈ associated provider repository before, ∀ b ∈ associated provider repository before,
      ChangeRequest.ofUrl provider a.pullRequest = ChangeRequest.ofUrl provider b.pullRequest →
        a.taskGid = b.taskGid
  respelled : ∀ before c late, calls = before ++ c :: late → c.Accepted provider repository →
    ∀ row, (associated provider repository before).get? (repository, c.taskGid) = some row →
      ChangeRequest.ofUrl provider row.pullRequest = ChangeRequest.ofUrl provider c.pullRequest →
        c.record provider repository (associated provider repository before) =
          .ok (associated provider repository before)

end

namespace AssociationCall
variable {provider : RepositoryProvider} {repository : String} {t : Associations} {c : AssociationCall}

/-- A call on a task that has a pull request. -/
theorem record_of_some (haccepted : c.Accepted provider repository)
    (h : t.get? (repository, c.taskGid) = some row) : c.record provider repository t =
      if row.pullRequest = c.pullRequest then .ok t
      else .error (.contradictoryAssociation c.taskGid) := by
  simp only [record, Associations.recordPullRequestAssociation, haccepted.1, haccepted.2]
  simp only [Bool.false_eq_true, if_false]
  split
  · next existing hexisting =>
    cases h.symm.trans hexisting
    by_cases hsame : row.pullRequest = c.pullRequest <;> simp [hsame]
  · next hnone => cases h.symm.trans hnone

/-- The row that a call on a task without a pull request inserts. -/
def association (repository : String) (c : AssociationCall) : PullRequestAssociation :=
  ⟨repository, c.taskGid, c.pullRequest, c.nowMillis⟩

/-- What a call does to the table. -/
theorem step_cases : c.step provider repository t = t ∨ c.Accepted provider repository ∧
    ∃ hfree : ∀ row ∈ t, row.key ≠ (c.association repository).key,
      (∀ row ∈ t, row.repository = repository → row.pullRequest ≠ c.pullRequest) ∧
      c.step provider repository t = t.insert (c.association repository) hfree := by
  simp only [step, record, Associations.recordPullRequestAssociation]
  by_cases hblank : (isBlank repository || isBlank c.taskGid || isBlank c.pullRequest) = true
  · simp [hblank]
  · simp only [hblank, if_false, Bool.false_eq_true]
    cases hcanonical : recognizeChangeRequestUrl provider repository c.pullRequest with
    | none => simp
    | some canonical =>
      obtain ⟨rfl, -⟩ := of_recognize hcanonical
      simp only []
      split
      · next t' hresult =>
        split at hresult
        · split at hresult
          · cases hresult
          · cases hresult
            exact .inl rfl
        · next hnone =>
          split at hresult
          · cases hresult
          · next hunique =>
            cases hresult
            refine .inr ⟨⟨by simpa using hblank, hcanonical⟩, KeyedTable.get?_eq_none.mp hnone, ?_, rfl⟩
            intro row hrow hrepository hsame
            exact hunique (List.any_eq_true.mpr ⟨row, hrow, by simp [hrepository, hsame]⟩)
      · exact .inl rfl

/-- A call on a task without a pull request, in a spelling that is not on record. -/
theorem step_of_none (haccepted : c.Accepted provider repository)
    (h : t.get? (repository, c.taskGid) = none) (hfresh : ∀ row ∈ t, row.pullRequest ≠ c.pullRequest) :
    ∃ hfree : ∀ row ∈ t, row.key ≠ (c.association repository).key,
      c.step provider repository t = t.insert (c.association repository) hfree := by
  refine ⟨KeyedTable.get?_eq_none.mp h, ?_⟩
  have hunique : (t.rows.any fun row => row.repository = repository && row.pullRequest = c.pullRequest) =
      false := by
    refine List.any_eq_false.mpr fun row hrow hsame => hfresh row hrow ?_
    simp only [Bool.and_eq_true, decide_eq_true_eq] at hsame
    exact hsame.2
  simp only [step, record, Associations.recordPullRequestAssociation, haccepted.1, haccepted.2]
  simp only [Bool.false_eq_true, if_false]
  split
  · next t' hresult =>
    split at hresult
    · next existing hsome => cases h.symm.trans hsome
    · rw [if_neg (by simp [hunique])] at hresult
      cases hresult
      rfl
  · next e hresult =>
    split at hresult
    · next existing hsome => cases h.symm.trans hsome
    · rw [if_neg (by simp [hunique])] at hresult
      cases hresult

/-- Two rows of the repository with one change request are of one task. -/
def Unique (provider : RepositoryProvider) (t : Associations) : Prop :=
  ∀ a ∈ t, ∀ b ∈ t,
    ChangeRequest.ofUrl provider a.pullRequest = ChangeRequest.ofUrl provider b.pullRequest →
      a.taskGid = b.taskGid

def OfRepository (repository : String) (t : Associations) : Prop := ∀ a ∈ t, a.repository = repository

theorem ofRepository_step (h : OfRepository repository t) :
    OfRepository repository (c.step provider repository t) := by
  rcases step_cases (c := c) (t := t) with hsame | ⟨-, hfree, -, hinsert⟩
  · rwa [hsame]
  · rw [hinsert]
    intro a ha
    rcases KeyedTable.mem_insert.mp ha with ha | rfl
    · exact h a ha
    · rfl

theorem unique_step (h : Unique provider t) (hrepository : OfRepository repository t)
    (hspelled : c.SpelledAsRecorded provider repository t) :
    Unique provider (c.step provider repository t) := by
  rcases step_cases (c := c) (t := t) with hsame | ⟨haccepted, hfree, hunique, hinsert⟩
  · rwa [hsame]
  · have hnone : t.get? (repository, c.taskGid) = none := KeyedTable.get?_eq_none.mpr hfree
    have hnew : ∀ row ∈ t, ChangeRequest.ofUrl provider row.pullRequest ≠
        ChangeRequest.ofUrl provider c.pullRequest := by
      intro row hrow hdenotes
      exact hunique row hrow (hrepository row hrow) (hspelled haccepted row hrow hdenotes (.inr hnone))
    rw [hinsert]
    intro a ha b hb hdenotes
    rcases KeyedTable.mem_insert.mp ha with ha | rfl
    · rcases KeyedTable.mem_insert.mp hb with hb | rfl
      · exact h a ha b hb hdenotes
      · exact absurd hdenotes (hnew a ha)
    · rcases KeyedTable.mem_insert.mp hb with hb | rfl
      · exact absurd hdenotes.symm (hnew b hb)
      · rfl

end AssociationCall

section
variable {provider : RepositoryProvider} {repository : String}
open AssociationCall

theorem ofRepository_associated : OfRepository repository (associated provider repository calls) := by
  refine Transition.run_invariant (P := OfRepository repository) (fun t c h => ofRepository_step h) ?_ calls
  intro a ha
  cases ha

theorem associated_append : associated provider repository (calls ++ [c]) =
    c.step provider repository (associated provider repository calls) := by
  simp [associated, Transition.run_append]

end

open AssociationCall in
/-- **One request belongs to one task exactly if it is always spelled as it is recorded.** -/
theorem one_task_per_request_iff (provider : RepositoryProvider) (repository : String)
    (calls : List AssociationCall) : OneTaskPerRequest provider repository calls ↔
      Transition.Meets (AssociationCall.step provider repository)
        (fun t c => c.SpelledAsRecorded provider repository t) ∅ calls := by
  constructor
  · intro h
    refine Transition.meets_iff.mpr fun before c late hcalls haccepted row hrow hdenotes htask => ?_
    change row ∈ associated provider repository before at hrow
    change row.taskGid = c.taskGid ∨
      (associated provider repository before).get? (repository, c.taskGid) = none at htask
    by_contra hspelling
    have hrepository : row.repository = repository := ofRepository_associated row hrow
    rcases htask with htask | hnone
    · have hget : (associated provider repository before).get? (repository, c.taskGid) = some row :=
        KeyedTable.get?_eq_some.mpr ⟨hrow, by rw [← hrepository, ← htask]; rfl⟩
      have hok := h.respelled before c late hcalls haccepted row hget hdenotes
      rw [AssociationCall.record_of_some haccepted hget, if_neg hspelling] at hok
      cases hok
    · -- no row has this spelling, so the call inserts a second task
      have hfresh : ∀ other ∈ associated provider repository before,
          other.pullRequest ≠ c.pullRequest := by
        intro other hother hsame
        have htask := h.unique before (c :: late) hcalls other hother row hrow (by rw [hsame, hdenotes])
        have hkey : other.key = row.key := by
          simp only [PullRequestAssociation.key, htask, hrepository, ofRepository_associated other hother]
        exact hspelling (KeyedTable.eq_of_key_eq hother hrow hkey ▸ hsame)
      obtain ⟨hfree, hinsert⟩ := AssociationCall.step_of_none haccepted hnone hfresh
      have hunique := h.unique (before ++ [c]) late (by rw [hcalls, List.append_assoc]; rfl)
      rw [associated_append, hinsert] at hunique
      have htask : row.taskGid = c.taskGid := hunique row (KeyedTable.mem_insert.mpr (.inl hrow))
        (c.association repository) (KeyedTable.mem_insert.mpr (.inr rfl)) hdenotes
      refine KeyedTable.get?_eq_none.mp hnone row hrow ?_
      rw [← hrepository, ← htask]
      rfl
  · intro h
    have hboth : ∀ before late, calls = before ++ late →
        AssociationCall.Unique provider (associated provider repository before) ∧
          OfRepository repository (associated provider repository before) := by
      rintro before late rfl
      refine (Transition.Meets.append.mp h).1.invariant
        (P := fun t => AssociationCall.Unique provider t ∧ OfRepository repository t) ?_ ⟨?_, ?_⟩
      · intro t c ht hspelled
        exact ⟨unique_step ht.1 ht.2 hspelled, ofRepository_step ht.2⟩
      · intro a ha
        cases ha
      · intro a ha
        cases ha
    constructor
    · intro before late hcalls
      exact (hboth before late hcalls).1
    · intro before c late hcalls haccepted row hget hdenotes
      have hspelled := Transition.meets_iff.mp h before c late hcalls haccepted row
        (KeyedTable.mem_of_get? hget) hdenotes (.inl (congrArg Prod.snd (KeyedTable.key_of_get? hget)))
      rw [AssociationCall.record_of_some haccepted hget, if_pos hspelled]

def exampleUrl (number : String) : String := "https://github.com/acme/site/pull/" ++ number

/-- Two tasks record one pull request. -/
def twoSpellings : List AssociationCall :=
  [⟨"101", exampleUrl "42", 0⟩, ⟨"202", exampleUrl "042", 1⟩]

theorem one_request_two_tasks : ¬ ∀ (provider : RepositoryProvider) (repository : String)
    (calls : List AssociationCall), OneTaskPerRequest provider repository calls := by
  intro h
  have hunique := (h .gitHub "acme/site" twoSpellings).unique twoSpellings [] (List.append_nil _).symm
    ⟨"acme/site", "101", exampleUrl "42", 0⟩ (by decide) ⟨"acme/site", "202", exampleUrl "042", 1⟩
    (by decide) (by decide)
  revert hunique
  decide

end FlashyFactory
