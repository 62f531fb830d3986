import FlashyFactory.PullRequests.Events

/-! # Who may act on a pull-request event

Events only move forward, and two daemons that are both told to act on one event are separated by
a release, by a recovery or by the lease. A release does not ask whose claim it ends: the row has
no owner, and a daemon whose claim has expired can end the claim of its successor. -/

namespace FlashyFactory
namespace PullRequestEvent
variable {e e' : PullRequestEvent} {k : EventKey}

/-- A state that comes before `asana_applied`. -/
def Pending (e : PullRequestEvent) : Prop := e.state = .observed ∨ e.state = .claimed

theorem unapplied_iff : e.unapplied = true ↔ e.Pending := by simp [unapplied, Pending]

theorem not_pending : ¬ e.Pending ↔ e.state = .asanaApplied ∨ e.state = .consumed := by
  cases h : e.state <;> simp [Pending, h]

theorem pending_of_expired (h : e.expired now = true) : e.Pending := by
  simp only [expired, Bool.and_eq_true, decide_eq_true_eq] at h
  exact .inr h.1

theorem pending_of_isClaimed (h : e.isClaimed = true) : e.Pending := .inr (by simpa [isClaimed] using h)

/-- `e'` is a later version of the event `e`. -/
structure Later (e e' : PullRequestEvent) : Prop where
  applied : ¬ e.Pending → ¬ e'.Pending
  consumed : e.state = .consumed → e'.state = .consumed

theorem Later.refl : Later e e := ⟨id, id⟩

theorem Later.trans (h : Later e e') (h' : Later e' e'') : Later e e'' :=
  ⟨fun he => h'.applied (h.applied he), fun he => h'.consumed (h.consumed he)⟩

theorem Later.of_pending (h : e.Pending) : Later e e' :=
  ⟨fun hnot => absurd h hnot, fun hconsumed => by rcases h with h | h <;> cases h.symm.trans hconsumed⟩

theorem change_later : Later e (e.change k c) := by
  unfold change
  cases c.op with
  | observePullRequestEvent k' => exact .refl
  | claimPullRequestEvent k' =>
    dsimp only
    split
    · next h =>
      rcases h.2 with hobserved | hexpired
      · exact .of_pending (.inl hobserved)
      · exact .of_pending (pending_of_expired hexpired)
    · exact .refl
  | recoverExpiredPullRequestEventClaims now =>
    dsimp only
    split
    · next h => exact .of_pending (pending_of_expired h)
    · exact .refl
  | releasePullRequestEventClaim k' =>
    dsimp only
    split
    · next h => exact .of_pending (pending_of_isClaimed h.2.2)
    · exact .refl
  | markPullRequestEventAsanaApplied k' =>
    dsimp only
    split
    · next h => exact .of_pending (unapplied_iff.mp h.2)
    · exact .refl
  | consumePullRequestEvent k' =>
    dsimp only
    split
    · exact ⟨fun _ => not_pending.mpr (.inr rfl), fun _ => rfl⟩
    · exact .refl

/-- A claimed event knows since when. -/
def Dated (e : PullRequestEvent) : Prop := e.state = .claimed → e.claimedAt.isSome

theorem change_dated (h : e.Dated) : (e.change k c).Dated := by
  unfold change
  cases c.op with
  | observePullRequestEvent k' => exact h
  | claimPullRequestEvent k' =>
    dsimp only
    split
    · exact fun _ => rfl
    · exact h
  | _ =>
    dsimp only
    split
    · intro hclaimed
      cases hclaimed
    · exact h

end PullRequestEvent

namespace PullRequestEvents
open PullRequestEvent
variable {t : PullRequestEvents} {k : EventKey} {c : EventCall} {calls : List EventCall}

theorem get?_later (h : (after before).get? k = some e) :
    ∃ e', (after (before ++ between)).get? k = some e' ∧ Later e e' := by
  rw [after, Transition.run_append]
  refine Transition.run_invariant (P := fun t : PullRequestEvents =>
    ∃ e', t.get? k = some e' ∧ Later e e') ?_
    ⟨e, h, .refl⟩ between
  rintro t c ⟨e', he', hlater⟩
  exact ⟨e'.change k c, by rw [get?_step, he', next], hlater.trans change_later⟩

/-- The events of a table have valid keys, and know when they were claimed. -/
def WellFormed (k : EventKey) (t : PullRequestEvents) : Prop :=
  ∀ e, t.get? k = some e → k.valid = true ∧ e.Dated

theorem wellFormed_step (h : WellFormed k t) : WellFormed k (t.step c) := by
  intro e he
  rw [get?_step] at he
  cases hrow : t.get? k with
  | some e₀ =>
    rw [hrow] at he
    cases he
    exact ⟨(h e₀ hrow).1, change_dated (h e₀ hrow).2⟩
  | none =>
    rw [hrow] at he
    simp only [next] at he
    split at he
    · next hnew =>
      cases he
      exact ⟨hnew.2, by intro hclaimed; cases hclaimed⟩
    · cases he

theorem wellFormed_empty : WellFormed k ∅ := by
  intro e he
  cases he

theorem wellFormed_after : WellFormed k (after calls) :=
  Transition.run_invariant (P := WellFormed k) (fun _ _ => wellFormed_step) wellFormed_empty calls

/-! ## Claims -/

/-- The call is answered `Some(Observed)`: its daemon is to act on the event. -/
def Grants (t : PullRequestEvents) (c : EventCall) (k : EventKey) : Prop :=
  c.op = .claimPullRequestEvent k ∧ (t.claimPullRequestEvent c.nowMillis k).1 = some .observed

instance : Decidable (Grants t c k) := inferInstanceAs (Decidable (_ ∧ _))

/-- The call gives the event back: a release of it, or a recovery that finds its claim expired. -/
def Frees (t : PullRequestEvents) (c : EventCall) (k : EventKey) : Prop :=
  c.op = .releasePullRequestEventClaim k ∨ ∃ now, c.op = .recoverExpiredPullRequestEventClaims now ∧
    ∃ e, t.get? k = some e ∧ e.expired now = true

theorem grants_iff : Grants t c k ↔ c.op = .claimPullRequestEvent k ∧
    ∃ e, t.get? k = some e ∧ (e.state = .observed ∨ e.expired c.nowMillis = true) := by
  unfold Grants
  refine and_congr_right fun _ => ?_
  rw [claim_answer, Option.bind_eq_some_iff]
  refine exists_congr fun e => and_congr_right fun _ => ?_
  by_cases hfree : e.state = .observed ∨ e.expired c.nowMillis = true
  · simp [hfree]
  · simp only [hfree, if_false, iff_false]
    split
    · intro hobserved
      exact hfree (.inl (Option.some.inj hobserved))
    · exact nofun

theorem get?_step_of_grants (h : Grants t c k) :
    ∃ e, (t.step c).get? k = some e ∧ e.state = .claimed ∧ e.claimedAt = some (c.nowMillis : ℤ) := by
  obtain ⟨hop, e, he, hfree⟩ := grants_iff.mp h
  exact ⟨e.taken c.nowMillis, by simp [get?_step, next, change, hop, he, hfree], rfl, rfl⟩

theorem staleBefore_natCast (now : ℕ) : staleBefore now = now - pullRequestClaimLeaseMillis := by
  simp only [staleBefore, pullRequestClaimLeaseMillis, minI64]
  omega

/-- The event is claimed no earlier than at `since`, or no longer claimable at all. -/
def Taken (since : ℕ) (e : PullRequestEvent) : Prop :=
  ¬ e.Pending ∨ e.state = .claimed ∧ ∃ at', e.claimedAt = some at' ∧ (since : ℤ) ≤ at'

theorem taken_step (ht : ∃ e, t.get? k = some e ∧ Taken since e) (hfrees : ¬ Frees t c k)
    (hclock : since ≤ c.nowMillis) : ∃ e, (t.step c).get? k = some e ∧ Taken since e := by
  obtain ⟨e, he, htaken⟩ := ht
  refine ⟨e.change k c, by rw [get?_step, he, next], ?_⟩
  rcases htaken with hover | hheld
  · exact .inl (change_later.applied hover)
  · unfold change
    cases hop : c.op with
    | observePullRequestEvent k' => exact .inr hheld
    | claimPullRequestEvent k' =>
      dsimp only
      split
      · exact .inr ⟨rfl, _, rfl, by exact_mod_cast hclock⟩
      · exact .inr hheld
    | recoverExpiredPullRequestEventClaims now =>
      have hnot : ¬ e.expired now = true := fun h => hfrees (.inr ⟨now, hop, e, he, h⟩)
      simp only [hnot]
      exact .inr hheld
    | releasePullRequestEventClaim k' =>
      have hnot : ¬ k' = k := fun h => hfrees (.inl (h ▸ hop))
      simp only [hnot, false_and]
      exact .inr hheld
    | markPullRequestEventAsanaApplied k' =>
      dsimp only
      split
      · exact .inl (not_pending.mpr (.inl rfl))
      · exact .inr hheld
    | consumePullRequestEvent k' =>
      dsimp only
      split
      · exact .inl (not_pending.mpr (.inr rfl))
      · exact .inr hheld

/-- Two daemons are told to act on the event only if it is given back in between, or the lease of
the first has ended. -/
theorem frees_or_lease (hclock : ∀ c ∈ between, first.nowMillis ≤ c.nowMillis)
    (hfirst : Grants (after before) first k)
    (hsecond : Grants (after (before ++ first :: between)) second k) :
    (∃ early c rest, between = early ++ c :: rest ∧ Frees (after (before ++ first :: early)) c k) ∨
      (first.nowMillis : ℤ) + pullRequestClaimLeaseMillis ≤ second.nowMillis := by
  have hafter : ∀ calls, after (before ++ first :: calls) =
      Transition.run step ((after before).step first) calls := by
    intro calls
    rw [after, Transition.run_append, Transition.run_cons]
    rfl
  by_cases hmeets : Transition.Meets step (fun t c => ¬ Frees t c k) ((after before).step first) between
  · right
    have hboth : Transition.Meets step (fun t c => ¬ Frees t c k ∧ first.nowMillis ≤ c.nowMillis)
        ((after before).step first) between := by
      refine Transition.meets_iff.mpr fun early c rest hsplit => ⟨?_, ?_⟩
      · exact Transition.meets_iff.mp hmeets early c rest hsplit
      · exact hclock c (by simp [hsplit])
    obtain ⟨e₁, he₁, hclaimed, hat⟩ := get?_step_of_grants hfirst
    have htaken : ∃ e, (after (before ++ first :: between)).get? k = some e ∧
        Taken first.nowMillis e := by
      rw [hafter]
      exact hboth.invariant (P := fun t => ∃ e, t.get? k = some e ∧ Taken first.nowMillis e)
        (fun t c ht h => taken_step ht h.1 h.2) ⟨e₁, he₁, .inr ⟨hclaimed, _, hat, le_refl _⟩⟩
    obtain ⟨e, he, htaken⟩ := htaken
    obtain ⟨-, e', he', hfree⟩ := grants_iff.mp hsecond
    cases he.symm.trans he'
    rcases htaken with hover | ⟨hclaimed, at', hat, hsince⟩
    · rcases hfree with hobserved | hexpired
      · exact absurd (.inl hobserved) hover
      · exact absurd (pending_of_expired hexpired) hover
    · have hexpired : e.expired second.nowMillis = true := by
        rcases hfree with hobserved | hexpired
        · cases hclaimed.symm.trans hobserved
        · exact hexpired
      simp only [expired, hat, Option.any_some, staleBefore_natCast, Bool.and_eq_true,
        decide_eq_true_eq] at hexpired
      omega
  · left
    obtain ⟨early, c, rest, hsplit, hfrees⟩ := Transition.exists_of_not_meets hmeets
    exact ⟨early, c, rest, hsplit, by rw [hafter]; exact not_not.mp hfrees⟩

/-- What the calls may do to the event `k`. -/
structure Lawful (k : EventKey) (calls : List EventCall) : Prop where
  /-- An applied event is never again observed or claimed. -/
  applied : ∀ before between late, calls = before ++ between ++ late →
    ∀ e, (after before).get? k = some e → e.state = .asanaApplied →
      ∃ e', (after (before ++ between)).get? k = some e' ∧
        (e'.state = .asanaApplied ∨ e'.state = .consumed)
  /-- A consumed event stays consumed. -/
  consumed : ∀ before between late, calls = before ++ between ++ late →
    ∀ e, (after before).get? k = some e → e.state = .consumed →
      ∃ e', (after (before ++ between)).get? k = some e' ∧ e'.state = .consumed
  /-- Observing an event again changes nothing. -/
  reobserved : ∀ before c late, calls = before ++ c :: late → c.op = .observePullRequestEvent k →
    ((after before).get? k).isSome → after (before ++ [c]) = after before
  /-- A claimed event knows since when. -/
  dated : ∀ before late, calls = before ++ late →
    ∀ e, (after before).get? k = some e → e.state = .claimed → e.claimedAt.isSome
  /-- Between two claims that are both granted, the event is given back or the lease ends. -/
  exclusive : ∀ before first between second late,
    calls = before ++ first :: between ++ second :: late → Grants (after before) first k →
      Grants (after (before ++ first :: between)) second k →
        (∃ early c rest, between = early ++ c :: rest ∧ Frees (after (before ++ first :: early)) c k) ∨
          (first.nowMillis : ℤ) + pullRequestClaimLeaseMillis ≤ second.nowMillis

/-- The clock never goes back. -/
def Clocked (calls : List EventCall) : Prop := calls.Pairwise fun c c' => c.nowMillis ≤ c'.nowMillis

instance : Decidable (Clocked calls) := inferInstanceAs (Decidable (List.Pairwise _ _))

/-- **Events advance, and are claimed exclusively.** -/
theorem events_lawful (k : EventKey) (calls : List EventCall) (hclock : Clocked calls) :
    Lawful k calls where
  applied := by
    intro before between late _ e he happlied
    obtain ⟨e', he', hlater⟩ := get?_later he
    exact ⟨e', he', not_pending.mp (hlater.applied (not_pending.mpr (.inl happlied)))⟩
  consumed := by
    intro before between late _ e he hconsumed
    obtain ⟨e', he', hlater⟩ := get?_later he
    exact ⟨e', he', hlater.consumed hconsumed⟩
  reobserved := by
    intro before c late _ hop hsome
    obtain ⟨e, he⟩ := Option.isSome_iff_exists.mp hsome
    rw [after_append, step, hop]
    simp only [observePullRequestEvent]
    split
    · rfl
    · split
      · rfl
      · next hnone => cases he.symm.trans hnone
  dated := by
    intro before late _ e he
    exact (wellFormed_after e he).2
  exclusive := by
    rintro before first between second late rfl hfirst hsecond
    refine frees_or_lease ?_ hfirst hsecond
    have hpair := (List.pairwise_append.mp (List.pairwise_append.mp hclock).1).2.1
    exact (List.pairwise_cons.mp hpair).1

/-- Two daemons, one event, one lease. -/
def exampleKey : EventKey := ⟨"acme/site", "101", String.ofList (List.replicate 64 'a')⟩

/-- The first daemon claims the event, and the second one takes it over when the lease ends. -/
def takeover : List EventCall :=
  [⟨1, 0, .observePullRequestEvent exampleKey⟩, ⟨1, 0, .claimPullRequestEvent exampleKey⟩,
    ⟨2, 60000, .claimPullRequestEvent exampleKey⟩]

theorem events_lawful_takeover : Lawful exampleKey takeover :=
  events_lawful exampleKey takeover (by decide)

/-! ## Releases -/

/-- The most recent claim of an event that was granted. -/
structure EventClaim where
  daemon : ℕ
  since : ℕ
  /-- Its daemon has released it, a recovery has found it expired, or the event has been applied
  or consumed. -/
  finished : Bool
deriving DecidableEq

/-- The call ends a claim of `k` that began at `since`. -/
def Ends (k : EventKey) (since : ℤ) (c : EventCall) : Prop :=
  match c.op with
  | .observePullRequestEvent _ | .claimPullRequestEvent _ => False
  | .recoverExpiredPullRequestEventClaims now => since ≤ staleBefore now
  | .releasePullRequestEventClaim k' | .markPullRequestEventAsanaApplied k' |
    .consumePullRequestEvent k' => k' = k

instance : Decidable (Ends k since c) := by
  unfold Ends
  split <;> infer_instance

/-- What a call on `t` makes of the most recent claim of `k`; a release finishes only the claim of
its own daemon. -/
def EventClaim.next (k : EventKey) (t : PullRequestEvents) (last : Option EventClaim)
    (c : EventCall) : Option EventClaim :=
  if Grants t c k then some ⟨c.daemon, c.nowMillis, false⟩
  else last.map fun claim => { claim with
    finished := claim.finished || decide (Ends k claim.since c ∧
      (c.op = .releasePullRequestEventClaim k → c.daemon = claim.daemon)) }

/-- The table and the most recent claim of `k`, after a call. -/
def watch (k : EventKey) (s : PullRequestEvents × Option EventClaim) (c : EventCall) :
    PullRequestEvents × Option EventClaim :=
  (s.1.step c, EventClaim.next k s.1 s.2 c)

def watched (k : EventKey) (calls : List EventCall) : PullRequestEvents × Option EventClaim :=
  Transition.run (watch k) (∅, none) calls

def lastClaim (k : EventKey) (calls : List EventCall) : Option EventClaim := (watched k calls).2

/-- The call releases the event, and the most recent claim is not its daemon's. -/
def ForeignRelease (k : EventKey) (last : Option EventClaim) (c : EventCall) : Prop :=
  c.op = .releasePullRequestEventClaim k ∧ last.map EventClaim.daemon ≠ some c.daemon

/-- Nobody loses a claim to a release by another daemon. -/
structure ClaimsKept (k : EventKey) (calls : List EventCall) : Prop where
  /-- A release by a daemon without the most recent claim leaves the event as it is. -/
  unchanged : ∀ before c late, calls = before ++ c :: late →
    ForeignRelease k (lastClaim k before) c →
      (after (before ++ [c])).get? k = (after before).get? k
  /-- The claimant keeps the claim until it is finished. -/
  held : ∀ before late, calls = before ++ late → ∀ claim, lastClaim k before = some claim →
    claim.finished = false → ∃ e, (after before).get? k = some e ∧ e.state = .claimed ∧
      e.claimedAt = some (claim.since : ℤ)

/-- Whoever releases the event without having its most recent claim does so after that claim was
finished. -/
def ReleasesLate (k : EventKey) (calls : List EventCall) : Prop :=
  ∀ before c late, calls = before ++ c :: late → ForeignRelease k (lastClaim k before) c →
    ∀ claim, lastClaim k before = some claim → claim.finished = true

theorem watched_fst : (watched k calls).1 = after calls := by
  have hrun : ∀ s, (Transition.run (watch k) s calls).1 = Transition.run step s.1 calls := by
    induction calls with
    | nil => exact fun _ => rfl
    | cons c calls ih => exact fun s => ih (watch k s c)
  exact hrun _

/-- The event is claimed only by the most recent claim, which is not finished. -/
def Claimed (k : EventKey) (s : PullRequestEvents × Option EventClaim) : Prop :=
  ∀ e, s.1.get? k = some e → e.state = .claimed →
    ∃ claim, s.2 = some claim ∧ claim.finished = false ∧ e.claimedAt = some (claim.since : ℤ)

/-- The most recent claim, if it is not finished, is on record. -/
def Recorded (k : EventKey) (s : PullRequestEvents × Option EventClaim) : Prop :=
  ∀ claim, s.2 = some claim → claim.finished = false →
    ∃ e, s.1.get? k = some e ∧ e.state = .claimed ∧ e.claimedAt = some (claim.since : ℤ)

/-- A claimed event stays as it is until its claim ends or is taken over. -/
theorem change_of_not_ends {e : PullRequestEvent} (hclaimed : e.state = .claimed)
    (hat : e.claimedAt = some since) (hclaim : c.op = .claimPullRequestEvent k →
      ¬ e.expired c.nowMillis = true) (hends : ¬ Ends k since c) : e.change k c = e := by
  unfold Ends at hends
  unfold change
  cases hop : c.op with
  | observePullRequestEvent k' => rfl
  | claimPullRequestEvent k' =>
    refine if_neg ?_
    rintro ⟨rfl, hobserved | hexpired⟩
    · cases hclaimed.symm.trans hobserved
    · exact hclaim hop hexpired
  | recoverExpiredPullRequestEventClaims now =>
    rw [hop] at hends
    exact if_neg (by simpa [expired, hclaimed, hat] using hends)
  | _ =>
    rw [hop] at hends
    exact if_neg fun h => hends h.1

theorem change_of_ends {e : PullRequestEvent} (hvalid : k.valid = true)
    (hclaimed : e.state = .claimed) (hat : e.claimedAt = some since) (hends : Ends k since c) :
    (e.change k c).state ≠ .claimed := by
  unfold Ends at hends
  unfold change
  cases hop : c.op with
  | observePullRequestEvent k' => exact absurd hends (by simp [hop])
  | claimPullRequestEvent k' => exact absurd hends (by simp [hop])
  | recoverExpiredPullRequestEventClaims now =>
    rw [hop] at hends
    have hexpired : e.expired now = true := by simpa [expired, hclaimed, hat] using hends
    simp [hexpired, freed]
  | _ =>
    rw [hop] at hends
    simp [hends, hvalid, hclaimed, isClaimed, unapplied, unconsumed, freed, applied, finished]

theorem change_of_state_claimed {e : PullRequestEvent} (h : (e.change k c).state = .claimed)
    (hclaim : c.op = .claimPullRequestEvent k →
      ¬ (e.state = .observed ∨ e.expired c.nowMillis = true)) : e.change k c = e := by
  unfold change at h ⊢
  cases hop : c.op with
  | observePullRequestEvent k' => rfl
  | claimPullRequestEvent k' => exact if_neg fun ⟨hk, hfree⟩ => hclaim (hk ▸ hop) hfree
  | _ =>
    rw [hop] at h
    dsimp only at h ⊢
    split at h
    · cases h
    · next hnot => exact if_neg hnot

theorem claimed_watch {s : PullRequestEvents × Option EventClaim} (h : Claimed k s)
    (hwell : WellFormed k s.1) : Claimed k (watch k s c) := by
  intro e he hclaimed
  by_cases hgrants : Grants s.1 c k
  · obtain ⟨e', he', -, hat⟩ := get?_step_of_grants hgrants
    cases he.symm.trans he'
    exact ⟨⟨c.daemon, c.nowMillis, false⟩, by simp [watch, EventClaim.next, hgrants], rfl, hat⟩
  · simp only [watch, get?_step] at he
    cases hrow : s.1.get? k with
    | none =>
      rw [hrow] at he
      simp only [next] at he
      split at he
      · cases he
        cases hclaimed
      · cases he
    | some e₀ =>
      rw [hrow] at he
      cases he
      have hclaim : c.op = .claimPullRequestEvent k →
          ¬ (e₀.state = .observed ∨ e₀.expired c.nowMillis = true) :=
        fun hop hfree => hgrants (grants_iff.mpr ⟨hop, e₀, hrow, hfree⟩)
      have hsame := change_of_state_claimed hclaimed hclaim
      have hstate : e₀.state = .claimed := by rw [← hsame, hclaimed]
      obtain ⟨claim, hlast, hopen, hat⟩ := h e₀ hrow hstate
      have hends : ¬ Ends k claim.since c := fun hends =>
        change_of_ends (hwell e₀ hrow).1 hstate hat hends hclaimed
      refine ⟨claim, ?_, hopen, by rw [hsame, hat]⟩
      simp [watch, EventClaim.next, hgrants, hlast, hends]

theorem recorded_watch {s : PullRequestEvents × Option EventClaim} (h : Recorded k s)
    (hlate : ForeignRelease k s.2 c → ∀ claim, s.2 = some claim → claim.finished = true) :
    Recorded k (watch k s c) := by
  intro claim hclaim hopen
  simp only [watch] at hclaim ⊢
  by_cases hgrants : Grants s.1 c k
  · simp only [EventClaim.next, hgrants, if_true, Option.some.injEq] at hclaim
    subst hclaim
    exact get?_step_of_grants hgrants
  · simp only [EventClaim.next, hgrants, if_false, Option.map_eq_some_iff] at hclaim
    obtain ⟨claim₀, hlast, rfl⟩ := hclaim
    simp only [Bool.or_eq_false_iff, decide_eq_false_iff_not, not_and] at hopen
    obtain ⟨e, he, hclaimed, hat⟩ := h claim₀ hlast hopen.1
    have hends : ¬ Ends k claim₀.since c := by
      intro hends
      by_cases hrelease : c.op = .releasePullRequestEventClaim k
      · have hforeign : ForeignRelease k s.2 c := by
          refine ⟨hrelease, fun hsame => hopen.2 hends fun _ => ?_⟩
          simpa [hlast, eq_comm] using hsame
        simpa [hopen.1] using hlate hforeign claim₀ hlast
      · exact hopen.2 hends fun hop => absurd hop hrelease
    have hclaim : c.op = .claimPullRequestEvent k → ¬ e.expired c.nowMillis = true :=
      fun hop hexpired => hgrants (grants_iff.mpr ⟨hop, e, he, .inr hexpired⟩)
    refine ⟨e, ?_, hclaimed, hat⟩
    rw [get?_step, he, next, change_of_not_ends hclaimed hat hclaim hends]

theorem claimed_watched : Claimed k (watched k calls) := by
  refine (Transition.run_invariant (P := fun s => Claimed k s ∧ WellFormed k s.1) ?_
    ⟨?_, wellFormed_empty⟩ calls).1
  · rintro s c ⟨hclaimed, hwell⟩
    exact ⟨claimed_watch hclaimed hwell, wellFormed_step hwell⟩
  · intro e he
    cases he

theorem releasesLate_iff : ReleasesLate k calls ↔ Transition.Meets (watch k) (fun s c =>
    ForeignRelease k s.2 c → ∀ claim, s.2 = some claim → claim.finished = true) (∅, none) calls := by
  rw [Transition.meets_iff]
  rfl

theorem recorded_watched (h : ReleasesLate k calls) : Recorded k (watched k calls) := by
  refine (releasesLate_iff.mp h).invariant (fun s c hs hlate => recorded_watch hs hlate) ?_
  intro claim hclaim
  cases hclaim

theorem ReleasesLate.left (h : ReleasesLate k (before ++ late)) : ReleasesLate k before :=
  releasesLate_iff.mpr (Transition.Meets.append.mp (releasesLate_iff.mp h)).1

theorem change_of_release {e : PullRequestEvent} (hop : c.op = .releasePullRequestEventClaim k)
    (h : e.state ≠ .claimed) : e.change k c = e := by
  simp [change, hop, isClaimed, h]

/-- **A claim is kept exactly if no one else releases the event before the claim is finished.** -/
theorem claims_kept_iff (k : EventKey) (calls : List EventCall) :
    ClaimsKept k calls ↔ ReleasesLate k calls := by
  constructor
  · rintro ⟨hunchanged, hheld⟩ before c late hcalls hforeign claim hlast
    by_contra hopen
    obtain ⟨e, he, hclaimed, hat⟩ :=
      hheld before (c :: late) hcalls claim hlast (by simpa using hopen)
    have hsame := hunchanged before c late hcalls hforeign
    have hends : Ends k claim.since c := by simp [Ends, hforeign.1]
    rw [after_append, get?_step, he, next, Option.some.injEq] at hsame
    refine change_of_ends (wellFormed_after e he).1 hclaimed hat hends ?_
    rw [hsame, hclaimed]
  · intro hlate
    constructor
    · intro before c late hcalls hforeign
      rw [after_append, get?_step]
      cases he : (after before).get? k with
      | none => simp [next, hforeign.1]
      | some e =>
        have hfree : e.state ≠ .claimed := by
          intro hclaimed
          obtain ⟨claim, hlast, hopen, -⟩ := claimed_watched e (by rw [watched_fst, he]) hclaimed
          simpa [hopen] using hlate before c late hcalls hforeign claim hlast
        rw [next, change_of_release hforeign.1 hfree]
    · rintro before late rfl claim hlast hopen
      have hrecorded := recorded_watched hlate.left claim hlast hopen
      rwa [watched_fst] at hrecorded

/-- The first daemon, which was slow, releases the claim of the second. -/
def lateRelease : List EventCall :=
  takeover ++ [⟨1, 60001, .releasePullRequestEventClaim exampleKey⟩]

theorem claim_not_kept : ¬ ∀ (k : EventKey) (calls : List EventCall), Clocked calls →
    ClaimsKept k calls := by
  intro h
  have hsame := (h exampleKey lateRelease (by decide)).unchanged takeover _ [] rfl
    ⟨rfl, by decide⟩
  revert hsame
  decide

end PullRequestEvents
end FlashyFactory
