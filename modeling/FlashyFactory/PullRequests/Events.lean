import FlashyFactory.Storage.Workspaces
import FlashyFactory.Lib.Transition

/-! # Pull-request events

The table `autonomous_pull_request_events` and its six operations in `storage.rs`. An event is
what one observation of a pull request asks for. The table is shared by any number of daemons,
and each call is one transaction; what the calls do to one event is a state machine of its own
(`PullRequestEvent.next`), which no other event takes part in. -/

namespace FlashyFactory

inductive PullRequestEventState
  | observed
  | claimed
  | asanaApplied
  | consumed
deriving DecidableEq, Repr

/-- The primary key of the table. -/
structure EventKey where
  repository : String
  taskGid : String
  fingerprint : String
deriving DecidableEq, Repr

structure PullRequestEvent where
  key : EventKey
  state : PullRequestEventState
  observedAt : ℤ
  claimedAt : Option ℤ
  appliedAt : Option ℤ
  consumedAt : Option ℤ
deriving DecidableEq, Repr

abbrev PullRequestEvents := KeyedTable PullRequestEvent.key

def pullRequestClaimLeaseMillis : ℤ := 60000

def minI64 : ℤ := -9223372036854775808

/-- `now.saturating_sub(PULL_REQUEST_CLAIM_LEASE_MILLIS)` -/
def staleBefore (now : ℤ) : ℤ := max (now - pullRequestClaimLeaseMillis) minI64

/-- `validate_pull_request_event_key` -/
def EventKey.valid (k : EventKey) : Bool :=
  Ledger.validPullRequestEventKey k.repository k.taskGid k.fingerprint

namespace PullRequestEvent

/-- `state = 'claimed' AND claimed_at <= ?`; a comparison with `NULL` is not true. -/
def expired (now : ℤ) (e : PullRequestEvent) : Bool :=
  e.state = .claimed && e.claimedAt.any (· ≤ staleBefore now)

def isClaimed (e : PullRequestEvent) : Bool := e.state = .claimed

/-- `state IN ('observed', 'claimed')` -/
def unapplied (e : PullRequestEvent) : Bool := e.state = .observed || e.state = .claimed

def unconsumed (e : PullRequestEvent) : Bool := e.unapplied || e.state = .asanaApplied

/-- `SET state = 'observed', claimed_at = NULL` -/
def freed (e : PullRequestEvent) : PullRequestEvent :=
  { e with state := .observed, claimedAt := none }

def taken (now : ℤ) (e : PullRequestEvent) : PullRequestEvent :=
  { e with state := .claimed, claimedAt := some now }

def applied (now : ℤ) (e : PullRequestEvent) : PullRequestEvent :=
  { e with state := .asanaApplied, appliedAt := some now }

def finished (now : ℤ) (e : PullRequestEvent) : PullRequestEvent :=
  { e with state := .consumed, consumedAt := some now }

theorem freed_key {e : PullRequestEvent} : e.freed.key = e.key := rfl
theorem taken_key {e : PullRequestEvent} : (e.taken now).key = e.key := rfl
theorem applied_key {e : PullRequestEvent} : (e.applied now).key = e.key := rfl
theorem finished_key {e : PullRequestEvent} : (e.finished now).key = e.key := rfl

end PullRequestEvent

/-- The row of a first observation. -/
def PullRequestEvent.observation (k : EventKey) (now : ℤ) : PullRequestEvent :=
  ⟨k, .observed, now, none, none, none⟩

namespace PullRequestEvents
open PullRequestEvent

/-- `INSERT OR IGNORE`; answers whether the event is new. -/
def observePullRequestEvent (t : PullRequestEvents) (now : ℤ) (k : EventKey) :
    Except LedgerError (Bool × PullRequestEvents) :=
  if !k.valid then .error .invalidPullRequestEventKey
  else match h : t.get? k with
    | some _ => .ok (false, t)
    | none => .ok (true, t.insert (observation k now) (KeyedTable.get?_eq_none.mp h))

def claimPullRequestEvent (t : PullRequestEvents) (now : ℤ) (k : EventKey) :
    Option PullRequestEventState × PullRequestEvents :=
  match t.get? k with
  | none => (none, t)
  | some e =>
    if e.state = .observed then
      (some .observed, t.modify k (fun e => e.state = .observed) (taken now) fun _ => taken_key)
    else if e.expired now then (some .observed, t.modify k (expired now) (taken now) fun _ => taken_key)
    else if e.state = .asanaApplied || e.state = .consumed then (some e.state, t)
    else (none, t)

/-- Answers the number of recovered claims. -/
def recoverExpiredPullRequestEventClaims (t : PullRequestEvents) (now : ℤ) :
    ℕ × PullRequestEvents :=
  (t.rows.countP (expired now), t.modifyWhere (expired now) freed fun _ => freed_key)

def releasePullRequestEventClaim (t : PullRequestEvents) (k : EventKey) :
    Except LedgerError PullRequestEvents :=
  if !k.valid then .error .invalidPullRequestEventKey
  else .ok (t.modify k isClaimed freed fun _ => freed_key)

def markPullRequestEventAsanaApplied (t : PullRequestEvents) (now : ℤ) (k : EventKey) :
    PullRequestEvents :=
  t.modify k unapplied (applied now) fun _ => applied_key

def consumePullRequestEvent (t : PullRequestEvents) (now : ℤ) (k : EventKey) :
    Except LedgerError PullRequestEvents :=
  if !k.valid then .error .invalidPullRequestEventKey
  else .ok (t.modify k unconsumed (finished now) fun _ => finished_key)

end PullRequestEvents

/-! ## Calls by any number of daemons -/

inductive EventOp
  | observePullRequestEvent (k : EventKey)
  | claimPullRequestEvent (k : EventKey)
  | recoverExpiredPullRequestEventClaims (now : ℤ)
  | releasePullRequestEventClaim (k : EventKey)
  | markPullRequestEventAsanaApplied (k : EventKey)
  | consumePullRequestEvent (k : EventKey)
deriving DecidableEq

/-- A call, the daemon that makes it and the time that `now_millis` answers there, which is never
negative. -/
structure EventCall where
  daemon : ℕ
  nowMillis : ℕ
  op : EventOp
deriving DecidableEq

namespace PullRequestEvents

/-- A call that fails leaves the table as it was. -/
def orElse (t : PullRequestEvents) : Except LedgerError PullRequestEvents → PullRequestEvents
  | .ok t' => t'
  | .error _ => t

def step (t : PullRequestEvents) (c : EventCall) : PullRequestEvents :=
  match c.op with
  | .observePullRequestEvent k => orElse t ((t.observePullRequestEvent c.nowMillis k).map Prod.snd)
  | .claimPullRequestEvent k => (t.claimPullRequestEvent c.nowMillis k).2
  | .recoverExpiredPullRequestEventClaims now => (t.recoverExpiredPullRequestEventClaims now).2
  | .releasePullRequestEventClaim k => orElse t (t.releasePullRequestEventClaim k)
  | .markPullRequestEventAsanaApplied k => t.markPullRequestEventAsanaApplied c.nowMillis k
  | .consumePullRequestEvent k => orElse t (t.consumePullRequestEvent c.nowMillis k)

/-- The table after the calls, in order, on an empty one. -/
def after (calls : List EventCall) : PullRequestEvents := Transition.run step ∅ calls

theorem after_append : after (calls ++ [c]) = (after calls).step c := by
  simp [after, Transition.run_append]

end PullRequestEvents

/-! ## One event -/

namespace PullRequestEvent

/-- What a call makes of the event `e` with the key `k`. -/
def change (k : EventKey) (e : PullRequestEvent) (c : EventCall) : PullRequestEvent :=
  match c.op with
  | .observePullRequestEvent _ => e
  | .claimPullRequestEvent k' =>
    if k' = k ∧ (e.state = .observed ∨ e.expired c.nowMillis) then e.taken c.nowMillis else e
  | .recoverExpiredPullRequestEventClaims now => if e.expired now then e.freed else e
  | .releasePullRequestEventClaim k' => if k' = k ∧ k.valid ∧ e.isClaimed then e.freed else e
  | .markPullRequestEventAsanaApplied k' =>
    if k' = k ∧ e.unapplied then e.applied c.nowMillis else e
  | .consumePullRequestEvent k' =>
    if k' = k ∧ k.valid ∧ e.unconsumed then e.finished c.nowMillis else e

/-- What a call makes of the event with the key `k`, if there is one. -/
def next (k : EventKey) (c : EventCall) : Option PullRequestEvent → Option PullRequestEvent
  | some e => some (e.change k c)
  | none => if c.op = .observePullRequestEvent k ∧ k.valid then some (observation k c.nowMillis)
    else none

end PullRequestEvent

namespace PullRequestEvents
open PullRequestEvent

theorem get?_modify_of {t : PullRequestEvents} {p : PullRequestEvent → Bool}
    {f : PullRequestEvent → PullRequestEvent} {hf : ∀ e, (f e).key = e.key} {k k' : EventKey} :
    (t.modify k' p f hf).get? k = (t.get? k).map fun e => if k' = k ∧ p e then f e else e := by
  rw [KeyedTable.get?_modify]
  by_cases h : k = k'
  · subst h
    simp
  · simp [h, Ne.symm h]

theorem get?_guarded {t : PullRequestEvents} {p : PullRequestEvent → Bool}
    {f : PullRequestEvent → PullRequestEvent} {hf : ∀ e, (f e).key = e.key} {k k' : EventKey} :
    (orElse t (if !k'.valid then .error .invalidPullRequestEventKey
      else .ok (t.modify k' p f hf))).get? k =
        (t.get? k).map fun e => if k' = k ∧ k.valid ∧ p e then f e else e := by
  by_cases hvalid : k'.valid = true
  · rw [if_neg (by simp [hvalid])]
    refine get?_modify_of.trans ?_
    congr 1
    funext e
    by_cases hk : k' = k
    · subst hk
      simp [hvalid]
    · simp [hk]
  · have hnot : ∀ e, ¬ (k' = k ∧ k.valid = true ∧ p e = true) := by
      rintro e ⟨rfl, hk, -⟩
      exact hvalid hk
    simp [hvalid, hnot, orElse]

theorem get?_observe {t : PullRequestEvents} :
    (orElse t ((t.observePullRequestEvent now k').map Prod.snd)).get? k =
      if k' = k ∧ k.valid ∧ t.get? k = none then some (observation k now) else t.get? k := by
  unfold observePullRequestEvent
  split
  · next hinvalid =>
    rw [if_neg]
    · rfl
    · rintro ⟨rfl, hvalid, -⟩
      simp [hvalid] at hinvalid
  · next hvalid =>
    simp only [Bool.not_eq_true, Bool.not_eq_false'] at hvalid
    split
    · next e he =>
      rw [if_neg]
      · rfl
      · rintro ⟨rfl, -, hnone⟩
        cases he.symm.trans hnone
    · next he =>
      refine (KeyedTable.get?_insert (h := KeyedTable.get?_eq_none.mp he)).trans ?_
      by_cases hk : k' = k
      · subst hk
        simp [observation, he, hvalid]
      · simp [observation, hk, Ne.symm hk]

theorem get?_claim {t : PullRequestEvents} :
    (t.claimPullRequestEvent now k').2.get? k = (t.get? k).map fun e =>
      if k' = k ∧ (e.state = .observed ∨ e.expired now) then e.taken now else e := by
  unfold claimPullRequestEvent
  by_cases hk : k' = k
  · subst hk
    cases he : t.get? k' with
    | none => simp [he]
    | some e =>
      by_cases hobserved : e.state = .observed
      · simp [hobserved, get?_modify_of, he]
      · by_cases hexpired : e.expired now = true
        · simp [hobserved, hexpired, get?_modify_of, he]
        · simp only [hobserved, hexpired, if_false, Bool.false_eq_true]
          split <;> simp [he, hobserved, hexpired]
  · simp only [hk, false_and, if_false, Option.map_id']
    split
    · rfl
    · next e he =>
      split
      · simp [get?_modify_of, hk]
      · split
        · simp [get?_modify_of, hk]
        · split <;> rfl

/-- What a claim is answered. -/
theorem claim_answer {t : PullRequestEvents} :
    (t.claimPullRequestEvent now k).1 = (t.get? k).bind fun e =>
      if e.state = .observed ∨ e.expired now then some .observed
      else if e.state = .asanaApplied ∨ e.state = .consumed then some e.state else none := by
  unfold claimPullRequestEvent
  cases he : t.get? k with
  | none => rfl
  | some e =>
    by_cases hobserved : e.state = .observed
    · simp [hobserved]
    · by_cases hexpired : e.expired now = true
      · simp [hobserved, hexpired]
      · simp only [hobserved, hexpired, if_false, Bool.false_eq_true, Option.bind_some, or_self]
        by_cases hover : e.state = .asanaApplied ∨ e.state = .consumed <;> simp [hover]

/-- **Events do not interact.** -/
theorem get?_step {t : PullRequestEvents} : (t.step c).get? k = next k c (t.get? k) := by
  unfold step
  cases hop : c.op with
  | observePullRequestEvent k' =>
    refine get?_observe.trans ?_
    cases t.get? k with
    | none => simp [next, hop]
    | some e => simp [next, change, hop]
  | claimPullRequestEvent k' =>
    refine get?_claim.trans ?_
    cases t.get? k <;> simp [next, change, hop]
  | recoverExpiredPullRequestEventClaims now =>
    have h : (t.modifyWhere (expired now) freed fun _ => freed_key).get? k = _ :=
      KeyedTable.get?_modifyWhere
    refine h.trans ?_
    cases t.get? k <;> simp [next, change, hop]
  | releasePullRequestEventClaim k' =>
    refine get?_guarded.trans ?_
    cases t.get? k <;> simp [next, change, hop]
  | markPullRequestEventAsanaApplied k' =>
    refine get?_modify_of.trans ?_
    cases t.get? k <;> simp [next, change, hop]
  | consumePullRequestEvent k' =>
    refine get?_guarded.trans ?_
    cases t.get? k <;> simp [next, change, hop]

end PullRequestEvents
end FlashyFactory
