import FlashyFactory.Lib.RoundRobin
import FlashyFactory.Lib.Transition
import Mathlib.Data.Fintype.Pi

/-! # Admission to a fleet

`FleetAdmission` of `daemon.rs` hands out the permits of a fleet to its repositories, in turn. A
repository that is refused waits, and stays in the circle until it is granted a permit or cancels. -/

namespace FlashyFactory
open RoundRobin (distance next behind)

inductive FleetError
  | noRepository
  | zeroLimit
  | repeatedRepository
  | notRegistered (repository : String)
deriving DecidableEq, Repr

def FleetError.message : FleetError → String
  | noRepository => "fleet admission requires at least one repository"
  | zeroLimit => "fleet admission limit must be greater than zero"
  | repeatedRepository => "fleet admission repository identities must be unique"
  | notRegistered repository => "repository " ++ repository ++ " is not registered for admission"

/-- The state under the lock, for `n` repositories. -/
@[ext] structure FleetAdmissionState (n : ℕ) where
  available : ℕ
  cursor : Fin n
  waiting : Fin n → Bool

instance : DecidableEq (FleetAdmissionState n) := fun _ _ =>
  decidable_of_iff _ FleetAdmissionState.ext_iff.symm

namespace FleetAdmissionState
variable {n : ℕ}

def nextWaitingRepository (s : FleetAdmissionState n) : Option (Fin n) := next s.cursor s.waiting

def markWaiting (s : FleetAdmissionState n) (i : Fin n) : FleetAdmissionState n :=
  { s with waiting := Function.update s.waiting i true }

/-- `true` if a permit was granted. -/
def tryAcquire (s : FleetAdmissionState n) (i : Fin n) : Bool × FleetAdmissionState n :=
  let s := s.markWaiting i
  if 0 < s.available ∧ s.nextWaitingRepository = some i then
    (true, ⟨s.available - 1, behind i, Function.update s.waiting i false⟩)
  else (false, s)

def cancelWait (s : FleetAdmissionState n) (i : Fin n) : FleetAdmissionState n :=
  { s with waiting := Function.update s.waiting i false }

/-- What `drop` of a permit does. -/
def giveBack (s : FleetAdmissionState n) : FleetAdmissionState n :=
  { s with available := s.available + 1 }

variable {s : FleetAdmissionState n} {i j : Fin n}

/-- A permit is free for `i`, and nobody who waits is nearer to the cursor. -/
def Grants (s : FleetAdmissionState n) (i : Fin n) : Prop :=
  0 < s.available ∧ ∀ j, s.waiting j = true → distance s.cursor i ≤ distance s.cursor j

theorem grants_iff : Grants s i ↔
    0 < (s.markWaiting i).available ∧ (s.markWaiting i).nextWaitingRepository = some i := by
  refine and_congr_right fun _ => ?_
  rw [nextWaitingRepository, RoundRobin.next_eq_some_iff]
  simp only [markWaiting, Function.update_self, true_and]
  refine forall_congr' fun j => ?_
  by_cases hj : j = i
  · simp [hj]
  · rw [Function.update_of_ne hj]

instance : Decidable (Grants s i) := decidable_of_iff _ grants_iff.symm

theorem tryAcquire_granted (h : Grants s i) : s.tryAcquire i =
    (true, ⟨s.available - 1, behind i, Function.update s.waiting i false⟩) := by
  rw [tryAcquire, if_pos (grants_iff.mp h)]
  simp [markWaiting]

theorem tryAcquire_refused (h : ¬ Grants s i) : s.tryAcquire i = (false, s.markWaiting i) := by
  rw [tryAcquire, if_neg (mt grants_iff.mpr h)]

/-- Nobody comes to wait but the repository that tries. -/
theorem waiting_tryAcquire (h : (s.tryAcquire i).2.waiting j = true) :
    j = i ∨ s.waiting j = true := by
  by_cases hji : j = i
  · exact .inl hji
  · right
    by_cases hgrants : Grants s i
    · simpa [tryAcquire_granted hgrants, hji] using h
    · simpa [tryAcquire_refused hgrants, markWaiting, hji] using h

end FleetAdmissionState

/-! ## Repositories by name -/

namespace FleetAdmission

def new (repositories : List String) (limit : ℕ) :
    Except FleetError (FleetAdmissionState repositories.length) :=
  if h : repositories = [] then .error .noRepository
  else if limit = 0 then .error .zeroLimit
  else if !repositories.Nodup then .error .repeatedRepository
  else .ok ⟨limit, ⟨0, List.length_pos_iff.mpr h⟩, fun _ => false⟩

variable {repositories : List String}

def position (repositories : List String) (repository : String) : Option (Fin repositories.length) :=
  repositories.finIdxOf? repository

def tryAcquire (s : FleetAdmissionState repositories.length) (repository : String) :
    Except FleetError (Option (Fin repositories.length) × FleetAdmissionState repositories.length) :=
  match position repositories repository with
  | none => .error (.notRegistered repository)
  | some i => match s.tryAcquire i with
    | (granted, s') => .ok (if granted then some i else none, s')

def cancelWait (s : FleetAdmissionState repositories.length) (repository : String) :
    FleetAdmissionState repositories.length :=
  match position repositories repository with
  | none => s
  | some i => s.cancelWait i

variable {s : FleetAdmissionState repositories.length} {i : Fin repositories.length}

theorem tryAcquire_unknown (h : position repositories repository = none) :
    tryAcquire s repository = .error (.notRegistered repository) := by
  simp only [tryAcquire, h]

theorem tryAcquire_granted (h : position repositories repository = some i) (hgrants : s.Grants i) :
    tryAcquire s repository =
      .ok (some i, ⟨s.available - 1, behind i, Function.update s.waiting i false⟩) := by
  simp only [tryAcquire, h, FleetAdmissionState.tryAcquire_granted hgrants, if_true]

theorem tryAcquire_refused (h : position repositories repository = some i) (hgrants : ¬ s.Grants i) :
    tryAcquire s repository = .ok (none, s.markWaiting i) := by
  simp only [tryAcquire, h, FleetAdmissionState.tryAcquire_refused hgrants, Bool.false_eq_true, if_false]

end FleetAdmission

end FlashyFactory
