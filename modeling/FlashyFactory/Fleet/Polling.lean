import FlashyFactory.Lib.Exceptions
import FlashyFactory.Lib.Occurrences
import Mathlib.Tactic.IntervalCases

/-! # When a repository is polled

`polling_stagger` and `delay_to_next_poll` of `fleet.rs`. -/

namespace FlashyFactory

/-! ## Durations -/

/-- `std::time::Duration` -/
structure Duration where
  nanos : ℕ
  bound : nanos < 2 ^ 64 * 1000000000
deriving DecidableEq

namespace Duration

def asMillis (d : Duration) : ℕ := d.nanos / 1000000

def fromMillis (millis : UInt64) : Duration where
  nanos := millis.toNat * 1000000
  bound := by
    have := millis.toNat_lt
    omega

@[simp] theorem asMillis_fromMillis (millis : UInt64) : (fromMillis millis).asMillis = millis.toNat := by
  simp [asMillis, fromMillis]

end Duration

/-- `std::time::SystemTime`, from the epoch. -/
structure SystemTime where
  nanos : ℤ
  bound : nanos < 2 ^ 63 * 1000000000

inductive PollFailure
  | error (message : String)
  /-- An arithmetic overflow, or an `expect` that fails. -/
  | panicked
deriving DecidableEq, Repr

/-- `duration_since(UNIX_EPOCH)` -/
def SystemTime.sinceEpoch (now : SystemTime) : Except PollFailure Duration :=
  if 0 ≤ now.nanos then .ok
    { nanos := now.nanos.toNat
      bound := by
        have := now.bound
        omega }
  else .error (.error "system clock is before the Unix epoch")

/-- Addition of `u128`. -/
def addU128 (a b : ℕ) : Except PollFailure ℕ := if a + b < 2 ^ 128 then .ok (a + b) else .error .panicked

/-- Subtraction of `u128`. -/
def subU128 (a b : ℕ) : Except PollFailure ℕ := if b ≤ a then .ok (a - b) else .error .panicked

/-! ## Digests -/

def encodeLower (bytes : List UInt8) : List Char :=
  bytes.flatMap fun byte : UInt8 => [Nat.digitChar (byte >>> 4).toNat, Nat.digitChar (byte &&& 0x0f).toNat]

/-- `char::to_digit(16)` -/
def toDigit (c : Char) : Option ℕ :=
  if '0' ≤ c ∧ c ≤ '9' then some (c.toNat - '0'.toNat)
  else if 'a' ≤ c ∧ c ≤ 'f' then some (c.toNat - 'a'.toNat + 10)
  else if 'A' ≤ c ∧ c ≤ 'F' then some (c.toNat - 'A'.toNat + 10)
  else none

def pushDigit (value : ℕ) (c : Char) : Option ℕ := do
  let digit ← toDigit c
  if value * 16 + digit < 2 ^ 64 then some (value * 16 + digit) else none

/-- `u64::from_str_radix(.., 16)` of a text without a sign. -/
def fromStrRadix16 (digits : List Char) : Option ℕ := if digits = [] then none else digits.foldlM pushDigit 0

section
variable (sha256 : String → Vector UInt8 32)

def sha256Hex (data : String) : List Char := encodeLower (sha256 data).toList

/-- The first 16 digits, as a number. -/
def pollingHash (repository workflow : String) : Except PollFailure ℕ :=
  match fromStrRadix16 ((sha256Hex sha256 (repository ++ String.singleton (Char.ofNat 0) ++ workflow)).take 16) with
  | some hash => .ok hash
  | none => .error .panicked

def pollingStagger (repository workflow : String) (interval : Duration) : Except PollFailure Duration :=
  if interval.asMillis = 0 then .ok (.fromMillis 0)
  else do
    let hash ← pollingHash sha256 repository workflow
    return .fromMillis (.ofNat (hash % interval.asMillis))

/-- `due`, in milliseconds since the epoch. -/
def dueMillis (nowMillis offset intervalMillis : ℕ) : Except PollFailure ℕ := do
  let periodStart ← subU128 nowMillis (nowMillis % intervalMillis)
  let due ← addU128 periodStart offset
  if due ≤ nowMillis then addU128 due intervalMillis else return due

def delayToNextPoll (repository workflow : String) (interval : Duration) (now : SystemTime) :
    Except PollFailure Duration :=
  if interval.asMillis = 0 then .error (.error "polling interval must be greater than zero")
  else do
    let elapsed ← now.sinceEpoch
    let offset ← pollingStagger sha256 repository workflow interval
    let due ← dueMillis elapsed.asMillis offset.asMillis interval.asMillis
    let delay ← subU128 due elapsed.asMillis
    return .fromMillis (.ofNat delay)

/-! ## No panic -/

theorem toDigit_digitChar {digit : ℕ} (h : digit < 16) : toDigit (Nat.digitChar digit) = some digit := by
  interval_cases digit <;> decide

theorem mem_encodeLower {bytes : List UInt8} {c : Char} (h : c ∈ encodeLower bytes) :
    ∃ digit < 16, toDigit c = some digit := by
  obtain ⟨byte, -, hc⟩ := List.mem_flatMap.mp h
  have hhigh : (byte >>> 4).toNat < 16 := by
    have := byte.toNat_lt
    simp only [UInt8.toNat_shiftRight, Nat.shiftRight_eq_div_pow]
    simp
    omega
  have hlow : (byte &&& 0x0f).toNat < 16 := by
    rw [UInt8.toNat_and]
    exact Nat.lt_succ_of_le Nat.and_le_right
  simp only [List.mem_cons, List.not_mem_nil, or_false] at hc
  rcases hc with rfl | rfl
  · exact ⟨_, hhigh, toDigit_digitChar hhigh⟩
  · exact ⟨_, hlow, toDigit_digitChar hlow⟩

theorem foldlM_pushDigit {digits : List Char} {value k : ℕ}
    (hdigits : ∀ c ∈ digits, ∃ digit < 16, toDigit c = some digit) (hvalue : value < 16 ^ k)
    (hk : k + digits.length ≤ 16) : ∃ hash, digits.foldlM pushDigit value = some hash ∧ hash < 2 ^ 64 := by
  induction digits generalizing value k with
  | nil =>
    have hpow : 16 ^ k ≤ 16 ^ 16 := Nat.pow_le_pow_right (by decide) (by simpa using hk)
    exact ⟨value, rfl, by omega⟩
  | cons c digits ih =>
    rw [List.length_cons] at hk
    obtain ⟨digit, hdigit, hc⟩ := hdigits c List.mem_cons_self
    have hnext : value * 16 + digit < 16 ^ (k + 1) := by
      rw [Nat.pow_succ]
      omega
    have hpow : 16 ^ (k + 1) ≤ 16 ^ 16 := Nat.pow_le_pow_right (by decide) (by omega)
    have hfits : value * 16 + digit < 2 ^ 64 := by omega
    have hpush : pushDigit value c = some (value * 16 + digit) := by
      rw [pushDigit, hc]
      exact if_pos hfits
    rw [List.foldlM_cons, hpush]
    exact ih (fun d hd => hdigits d (List.mem_cons_of_mem _ hd)) hnext (by omega)

theorem pollingHash_ok (repository workflow : String) :
    ∃ hash, pollingHash sha256 repository workflow = .ok hash ∧ hash < 2 ^ 64 := by
  generalize hdata : sha256Hex sha256 (repository ++ String.singleton (Char.ofNat 0) ++ workflow) = text
  have hlength : text.length = 64 := by
    have hall : ∀ bytes : List UInt8, (encodeLower bytes).length = bytes.length * 2 := by
      intro bytes
      simp [encodeLower, List.length_flatMap, List.map_const']
    rw [← hdata, sha256Hex, hall]
    simp
  have hne : text.take 16 ≠ [] := by
    intro h
    have := congrArg List.length h
    simp [hlength] at this
  have hdigits : ∀ c ∈ text.take 16, ∃ digit < 16, toDigit c = some digit := by
    intro c hc
    exact mem_encodeLower (hdata ▸ List.mem_of_mem_take hc)
  obtain ⟨hash, hfold, hlt⟩ := @foldlM_pushDigit (text.take 16) 0 0 hdigits (by decide) (by simp)
  refine ⟨hash, ?_, hlt⟩
  rw [pollingHash, hdata, fromStrRadix16, if_neg hne, hfold]

theorem pollingStagger_ok (repository workflow : String) {interval : Duration} (h : 1 ≤ interval.asMillis) :
    ∃ hash offset,
    pollingHash sha256 repository workflow = .ok hash ∧
      pollingStagger sha256 repository workflow interval = .ok offset ∧
      offset.asMillis = hash % interval.asMillis := by
  obtain ⟨hash, hhash, hlt⟩ := pollingHash_ok sha256 repository workflow
  have hmod : hash % interval.asMillis < UInt64.size := (Nat.mod_le _ _).trans_lt hlt
  refine ⟨hash, .fromMillis (.ofNat (hash % interval.asMillis)), hhash, ?_, ?_⟩
  · rw [pollingStagger, if_neg (by omega), hhash]
    rfl
  · rw [Duration.asMillis_fromMillis, UInt64.toNat_ofNat_of_lt' hmod]

variable {sha256} {repository workflow : String} {interval : Duration}

theorem dueMillis_ok {now offset interval : ℕ} (hoffset : offset < interval) (hnow : now < 2 ^ 64 * 1000)
    (hinterval : interval < 2 ^ 64 * 1000) : ∃ due, dueMillis now offset interval = .ok due ∧
      IsNext (· ≡ offset [MOD interval]) now due ∧ due ≤ now + interval := by
  have hnext := @isNext_modEq now _ _ hoffset
  have hstart : now % interval ≤ now := Nat.mod_le _ _
  have hfits : now - now % interval + offset < 2 ^ 128 := by omega
  have hlast : now - now % interval + offset + interval < 2 ^ 128 := by omega
  refine ⟨_, ?_, hnext, ?_⟩
  · simp only [dueMillis, subU128, if_pos hstart, Except.ok_bind, addU128, if_pos hfits, if_pos hlast]
    split
    · rfl
    · rfl
  · split
    · omega
    · have := Nat.mod_lt now (Nat.zero_lt_of_lt hoffset)
      omega

theorem SystemTime.sinceEpoch_ok {now : SystemTime} (h : 0 ≤ now.nanos) : ∃ elapsed, now.sinceEpoch = .ok elapsed :=
  ⟨_, if_pos h⟩

theorem SystemTime.nanos_eq_of_sinceEpoch {now : SystemTime} {elapsed : Duration} (h : now.sinceEpoch = .ok elapsed) :
    now.nanos = elapsed.nanos := by
  unfold sinceEpoch at h
  split at h
  · next hnow =>
    cases h
    exact (Int.toNat_of_nonneg hnow).symm
  · cases h

/-- What the polls of a workflow are. -/
structure PollsEvenly (sha256 : String → Vector UInt8 32) (repository workflow : String) (interval : Duration) :
    Prop where
  delay : ∀ now : SystemTime, 0 ≤ now.nanos → ∃ offset elapsed delay,
    pollingStagger sha256 repository workflow interval = .ok offset ∧ now.sinceEpoch = .ok elapsed ∧
      delayToNextPoll sha256 repository workflow interval now = .ok delay ∧ 0 < delay.asMillis ∧
      delay.asMillis ≤ interval.asMillis ∧
        elapsed.asMillis + delay.asMillis ≡ offset.asMillis [MOD interval.asMillis]
  /-- A restart changes nothing. -/
  stable : ∀ {t₁ t₂ : SystemTime} {offset elapsed₁ elapsed₂ delay₁ delay₂ : Duration},
    pollingStagger sha256 repository workflow interval = .ok offset →
    t₁.sinceEpoch = .ok elapsed₁ → t₂.sinceEpoch = .ok elapsed₂ → t₁.nanos ≤ t₂.nanos →
    (∀ t : ℕ, t₁.nanos < t * 1000000 → (t * 1000000 : ℤ) ≤ t₂.nanos →
      ¬ t ≡ offset.asMillis [MOD interval.asMillis]) →
    delayToNextPoll sha256 repository workflow interval t₁ = .ok delay₁ →
    delayToNextPoll sha256 repository workflow interval t₂ = .ok delay₂ →
    elapsed₁.asMillis + delay₁.asMillis = elapsed₂.asMillis + delay₂.asMillis
  /-- Both conversions to `u64` keep the value. -/
  lossless : ∀ {hash : ℕ} {offset elapsed : Duration} {due : ℕ},
    pollingHash sha256 repository workflow = .ok hash →
    pollingStagger sha256 repository workflow interval = .ok offset →
    dueMillis elapsed.asMillis offset.asMillis interval.asMillis = .ok due →
    (UInt64.ofNat (hash % interval.asMillis)).toNat = hash % interval.asMillis ∧
      (UInt64.ofNat (due - elapsed.asMillis)).toNat = due - elapsed.asMillis

theorem Duration.asMillis_lt (d : Duration) : d.asMillis < 2 ^ 64 * 1000 := by
  have := d.bound
  unfold asMillis
  omega

/-- The delay ends at the next instant of the workflow. -/
theorem delayToNextPoll_isNext {offset elapsed : Duration} {now : SystemTime} (h : 1 ≤ interval.asMillis)
    (hfits : interval.asMillis < 2 ^ 64) (hoffset : pollingStagger sha256 repository workflow interval = .ok offset)
    (hnow : now.sinceEpoch = .ok elapsed) :
    ∃ due delay, dueMillis elapsed.asMillis offset.asMillis interval.asMillis = .ok due ∧
      delayToNextPoll sha256 repository workflow interval now = .ok delay ∧
      due = elapsed.asMillis + delay.asMillis ∧ delay.asMillis ≤ interval.asMillis ∧
      IsNext (· ≡ offset.asMillis [MOD interval.asMillis]) elapsed.asMillis due := by
  obtain ⟨hash, offset', -, hstagger, hmod⟩ := pollingStagger_ok sha256 repository workflow h
  obtain rfl : offset' = offset := by
    rw [hoffset] at hstagger
    exact (Except.ok.inj hstagger).symm
  have hlt : offset'.asMillis < interval.asMillis := hmod ▸ Nat.mod_lt _ h
  obtain ⟨due, hdue, hnext, hle⟩ := dueMillis_ok hlt elapsed.asMillis_lt interval.asMillis_lt
  have hlater := hnext.later
  have hsmall : due - elapsed.asMillis < UInt64.size := (by omega : due - elapsed.asMillis < 2 ^ 64)
  refine ⟨due, .fromMillis (.ofNat (due - elapsed.asMillis)), hdue, ?_, ?_, ?_, hnext⟩
  · rw [delayToNextPoll, if_neg (by omega), hnow, Except.ok_bind, hstagger, Except.ok_bind, hdue,
      Except.ok_bind, subU128,
      if_pos hlater.le]
    rfl
  · rw [Duration.asMillis_fromMillis, UInt64.toNat_ofNat_of_lt' hsmall]
    omega
  · rw [Duration.asMillis_fromMillis, UInt64.toNat_ofNat_of_lt' hsmall]
    omega

/-- **Polls are stable and evenly spaced**, for every interval that fits in `u64` milliseconds. -/
theorem delayToNextPoll_even (h : 1 ≤ interval.asMillis) (hfits : interval.asMillis < 2 ^ 64) :
    PollsEvenly sha256 repository workflow interval where
  delay now hnow := by
    obtain ⟨hash, offset, -, hoffset, -⟩ := pollingStagger_ok sha256 repository workflow h
    obtain ⟨elapsed, helapsed⟩ := now.sinceEpoch_ok hnow
    obtain ⟨due, delay, -, hdelay, rfl, hle, hnext⟩ := delayToNextPoll_isNext h hfits hoffset helapsed
    have hlater := hnext.later
    exact ⟨offset, elapsed, delay, hoffset, helapsed, hdelay, by omega, hle, hnext.occurs⟩
  stable := by
    intro t₁ t₂ offset elapsed₁ elapsed₂ delay₁ delay₂ hoffset h₁ h₂ hle hnone hdelay₁ hdelay₂
    obtain ⟨_, _, -, hcall₁, rfl, -, hnext₁⟩ := delayToNextPoll_isNext h hfits hoffset h₁
    obtain ⟨_, _, -, hcall₂, rfl, -, hnext₂⟩ := delayToNextPoll_isNext h hfits hoffset h₂
    rw [hcall₁] at hdelay₁
    rw [hcall₂] at hdelay₂
    cases hdelay₁
    cases hdelay₂
    have hnanos₁ := SystemTime.nanos_eq_of_sinceEpoch h₁
    have hnanos₂ := SystemTime.nanos_eq_of_sinceEpoch h₂
    refine (hnext₁.of_le ?_ fun t hafter hbefore => hnone t ?_ ?_).unique hnext₂
    all_goals
      unfold Duration.asMillis at *
      omega
  lossless := by
    intro hash offset elapsed due hhash hoffset hdue
    obtain ⟨hash', offset', -, hstagger, hmod⟩ := pollingStagger_ok sha256 repository workflow h
    rw [hoffset] at hstagger
    cases hstagger
    have hlt : offset.asMillis < interval.asMillis := hmod ▸ Nat.mod_lt _ h
    obtain ⟨due', hdue', -, hle⟩ := dueMillis_ok hlt elapsed.asMillis_lt interval.asMillis_lt
    rw [hdue] at hdue'
    cases hdue'
    have hsmall : due - elapsed.asMillis < 2 ^ 64 := by omega
    exact ⟨UInt64.toNat_ofNat_of_lt' ((Nat.mod_lt _ h).trans hfits), UInt64.toNat_ofNat_of_lt' hsmall⟩

end

/-- `Sha256::digest` of `acme/first` and `implement`. -/
def digestOfFirst : Vector UInt8 32 :=
  #v[0x91, 0x54, 0x5c, 0x13, 0x2d, 0x66, 0x84, 0x9c, 0xba, 0x06, 0x98, 0xc6, 0xf7, 0x59, 0x19, 0xc8, 0xc0, 0xfe, 0xc1,
    0xc8, 0x44, 0x99, 0x7c, 0xfd, 0xf2, 0x8d, 0xa7, 0xc4, 0x15, 0x58, 0xa0, 0x98]

def everyMinute : Duration := ⟨60000000000, by decide⟩

theorem delayToNextPoll_even_everyMinute :
    PollsEvenly (fun _ => digestOfFirst) "acme/first" "implement" everyMinute :=
  delayToNextPoll_even (by decide) (by decide)

/-- `2 ^ 65` milliseconds -/
def longInterval : Duration := ⟨36893488147419103232000000, by decide⟩

def lateNow : SystemTime := ⟨28918840344688624796000000, by decide⟩

/-- The next poll of the long interval is `2 ^ 64` milliseconds away, which is 0 as a `u64`. -/
theorem delayToNextPoll_zero :
    ¬ ∀ (interval : Duration) (now : SystemTime), 1 ≤ interval.asMillis → 0 ≤ now.nanos →
      ∃ delay, delayToNextPoll (fun _ => digestOfFirst) "acme/first" "implement" interval now = .ok delay ∧
        0 < delay.asMillis := by
  intro h
  have hzero : delayToNextPoll (fun _ => digestOfFirst) "acme/first" "implement" longInterval lateNow =
      .ok (.fromMillis 0) := by decide +kernel
  obtain ⟨delay, hdelay, hpos⟩ := h longInterval lateNow (by decide) (by decide)
  obtain rfl : .fromMillis 0 = delay := Except.ok.inj (hzero.symm.trans hdelay)
  exact absurd hpos (by decide)

end FlashyFactory
