import FlashyFactory.PullRequests.Associations
import FlashyFactory.PullRequests.Events
import FlashyFactory.Storage.Calls

/-! # Reconciling pull requests

`reconcile_pull_request_observations`, `reconcile_pull_request_event` and
`reconcile_pull_request_event_with_asana` of `daemon.rs`. A file lock keeps other reconciliations
out of the pass, but not the workers: the ledger may change while the Asana client runs. -/

namespace FlashyFactory

/-! ## Observations -/

/-- What the reconciliation takes from other crates. -/
structure ReviewCrates where
  /-- `sha256_hex`, which answers 64 hexadecimal digits. -/
  sha256Hex : String → String
  sha256Hex_valid : ∀ text,
    ((sha256Hex text).utf8ByteSize = 64 && (sha256Hex text).toList.all Ledger.isHexDigit) = true
  /-- `DateTime::parse_from_rfc3339(..).is_ok()` -/
  isRfc3339 : String → Bool

/-- What the provider says of a change request; `reviews` holds the serialised values. -/
structure ChangeRequestObservation where
  state : String
  mergedAt : Option String
  headSha : String
  reviews : List String
  continuationRequired : Bool

inductive ProviderAnswer
  /-- The command failed. -/
  | inaccessible
  /-- The command could not be run. -/
  | notRun
  | malformed
  | observation (o : ChangeRequestObservation)

/-- `PullRequestObservation::fingerprint` -/
def observationFingerprint (crates : ReviewCrates) (state headSha reviewFingerprint : String) : String :=
  crates.sha256Hex ("state=" ++ state ++ ";head=" ++ headSha ++ ";reviews=" ++ reviewFingerprint)

/-- The outcome that `state` and `merged_at` stand for; `none` if they contradict each other. -/
def normalizedState (crates : ReviewCrates) (o : ChangeRequestObservation) : Option String :=
  let mergedAtIsValid := o.mergedAt.all crates.isRfc3339
  if mergedAtIsValid && o.mergedAt.isSome && ["CLOSED", "MERGED", "merged"].contains o.state then
    some "merged"
  else if mergedAtIsValid && o.mergedAt.isNone && ["CLOSED", "closed"].contains o.state then
    some "closed"
  else if mergedAtIsValid && o.mergedAt.isNone && ["OPEN", "opened"].contains o.state then some "open"
  else none

/-- The event that is reconciled for an answer. -/
structure Observed where
  outcome : String
  fingerprint : String
  continuationRequired : Bool
deriving DecidableEq

def observedRefusal (crates : ReviewCrates) (reason pullRequest : String) : Observed :=
  ⟨"unsafe", crates.sha256Hex (reason ++ ":" ++ pullRequest), false⟩

/-- The loop body of `reconcile_pull_request_observations_with_commands` for one association, up to
the event. -/
def observed (crates : ReviewCrates) (provider : RepositoryProvider) (repository pullRequest : String)
    (answer : ProviderAnswer) : Observed :=
  if recognizeChangeRequestUrl provider repository pullRequest = none then
    observedRefusal crates "cross-repository" pullRequest
  else match answer with
    | .inaccessible => observedRefusal crates "inaccessible" pullRequest
    | .notRun => observedRefusal crates "gh-error" pullRequest
    | .malformed => observedRefusal crates "malformed" pullRequest
    | .observation o => match normalizedState crates o with
      | none => observedRefusal crates "contradictory" pullRequest
      | some state =>
        if o.headSha.utf8ByteSize ≠ 40 || !o.headSha.toList.all Ledger.isHexDigit then
          observedRefusal crates "invalid-head" pullRequest
        else
          let reviews := "\n".intercalate (o.reviews.insertionSort (· ≤ ·))
          ⟨state, observationFingerprint crates state o.headSha (crates.sha256Hex reviews),
            o.continuationRequired⟩

/-! ## Events -/

/-- `reconcile-pr <task> --outcome <outcome>` -/
structure AsanaHandoff where
  repository : String
  taskGid : String
  outcome : String
deriving DecidableEq

/-- The ledger, its events and, as history, the handoffs to the Asana client, the last one first. -/
structure Review where
  ledger : Ledger := .empty
  events : PullRequestEvents := ∅
  handoffs : List AsanaHandoff := []

inductive ContinuationAuthorization
  | autonomous
  | manual
  | isUnsafe
deriving DecidableEq

/-- What one reconciliation meets outside. -/
structure Surroundings where
  authorization : ContinuationAuthorization
  /-- The Asana client can be started and ends successfully. -/
  asanaSucceeds : Bool
  /-- The answers of `now_millis`, in the order in which the event is written. -/
  nowMillis : ℕ → ℕ
  host : Host
  /-- What others do on the ledger before the continuation is requested. -/
  meanwhile : List Call

abbrev Reconcile := EStateM LedgerError Review

namespace Reconcile
open PullRequestEvents PullRequestEvent

def observePullRequestEvent (now : ℕ) (k : EventKey) : Reconcile Bool := fun s =>
  match s.events.observePullRequestEvent now k with
  | .ok (new, events) => .ok new { s with events := events }
  | .error e => .error e s

def claimPullRequestEvent (now : ℕ) (k : EventKey) : Reconcile (Option PullRequestEventState) := fun s =>
  let (state, events) := s.events.claimPullRequestEvent now k
  .ok state { s with events := events }

def releasePullRequestEventClaim (k : EventKey) : Reconcile Unit := fun s =>
  match s.events.releasePullRequestEventClaim k with
  | .ok events => .ok () { s with events := events }
  | .error e => .error e s

def markPullRequestEventAsanaApplied (now : ℕ) (k : EventKey) : Reconcile Unit :=
  modify fun s => { s with events := s.events.markPullRequestEventAsanaApplied now k }

def consumePullRequestEvent (now : ℕ) (k : EventKey) : Reconcile Unit := fun s =>
  match s.events.consumePullRequestEvent now k with
  | .ok events => .ok () { s with events := events }
  | .error e => .error e s

def requestContinuation (crates : Crates) (host : Host) (k : EventKey) : Reconcile ContinuationRequest :=
  fun s => match s.ledger.requestContinuation crates host k.repository k.taskGid k.fingerprint with
  | .ok (answer, l) => .ok answer { s with ledger := l }
  | .error e => .error e s

/-- What others do on the ledger. -/
def others (crates : Crates) (calls : List Call) : Reconcile Unit :=
  modify fun s => { s with ledger := s.ledger.runCalls crates calls }

/-- The Asana client is told the outcome. -/
def handOff (k : EventKey) (outcome : String) : Reconcile Unit :=
  modify fun s => { s with handoffs := ⟨k.repository, k.taskGid, outcome⟩ :: s.handoffs }

/-- The event is applied, and then consumed. -/
def finish (env : Surroundings) (k : EventKey) : Reconcile Unit := do
  markPullRequestEventAsanaApplied (env.nowMillis 2) k
  consumePullRequestEvent (env.nowMillis 3) k

def reconcilePullRequestEventWithAsana (env : Surroundings) (k : EventKey) (outcome : String) :
    Reconcile Unit := do
  handOff k outcome
  if env.asanaSucceeds then finish env k
  releasePullRequestEventClaim k

def reconcilePullRequestEvent (crates : Crates) (env : Surroundings) (k : EventKey) (outcome : String)
    (continuationRequired : Bool) : Reconcile Unit := do
  let _ ← observePullRequestEvent (env.nowMillis 0) k
  match ← claimPullRequestEvent (env.nowMillis 1) k with
  | some .consumed | none => return ()
  | some .asanaApplied => consumePullRequestEvent (env.nowMillis 3) k
  | some .observed | some .claimed =>
    if outcome = "open" && !continuationRequired then finish env k
    else if outcome = "open" then
      match env.authorization with
      | .manual => finish env k
      | .isUnsafe => reconcilePullRequestEventWithAsana env k "unsafe"
      | .autonomous =>
        others crates env.meanwhile
        match ← requestContinuation crates env.host k with
        | .queued | .duplicate => finish env k
        | .isUnsafe | .limitReached => reconcilePullRequestEventWithAsana env k "unsafe"
    else reconcilePullRequestEventWithAsana env k outcome

/-! ### What a reconciliation does -/

/-- The two states differ at most in the event `k`. -/
structure Frame (k : EventKey) (s s' : Review) : Prop where
  ledger : s'.ledger = s.ledger
  handoffs : s'.handoffs = s.handoffs
  others : ∀ k' ≠ k, s'.events.get? k' = s.events.get? k'

theorem Frame.trans (h : Frame k s s') (h' : Frame k s' s'') : Frame k s s'' where
  ledger := h'.ledger.trans h.ledger
  handoffs := h'.handoffs.trans h.handoffs
  others k' hk := (h'.others k' hk).trans (h.others k' hk)

variable {s : Review} {k : EventKey}

theorem observe_ok (now : ℕ) (hvalid : k.valid = true) : ∃ new s',
    observePullRequestEvent now k s = .ok new s' ∧ Frame k s s' ∧
      s'.events.get? k = some ((s.events.get? k).getD (.observation k now)) := by
  have hget : ∀ k', (orElse s.events ((s.events.observePullRequestEvent now k).map Prod.snd)).get? k' =
      _ := fun k' => get?_observe
  cases h : s.events.observePullRequestEvent now k with
  | error e =>
    simp only [PullRequestEvents.observePullRequestEvent, hvalid] at h
    simp only [Bool.not_true, Bool.false_eq_true, if_false] at h
    split at h <;> cases h
  | ok p =>
    rw [h] at hget
    refine ⟨p.1, { s with events := p.2 }, by simp [observePullRequestEvent, h], ⟨rfl, rfl, ?_⟩, ?_⟩
    · intro k' hk
      exact (hget k').trans (by simp [Ne.symm hk])
    · refine (hget k).trans ?_
      cases s.events.get? k <;> simp [hvalid]

theorem claim_ok (now : ℕ) (he : s.events.get? k = some e) : ∃ s',
    claimPullRequestEvent now k s = .ok (if e.state = .observed ∨ e.expired now then some .observed
      else if e.state = .asanaApplied ∨ e.state = .consumed then some e.state else none) s' ∧
      Frame k s s' ∧ s'.events.get? k =
        some (if e.state = .observed ∨ e.expired now then e.taken now else e) := by
  refine ⟨{ s with events := (s.events.claimPullRequestEvent now k).2 }, ?_, ⟨rfl, rfl, ?_⟩, ?_⟩
  · simp only [claimPullRequestEvent, claim_answer, he, Option.bind_some]
  · intro k' hk
    exact get?_claim.trans (by simp [Ne.symm hk])
  · exact get?_claim.trans (by simp [he])

/-- An update of the event `k`. -/
theorem frame_modify {p : PullRequestEvent → Bool} {f : PullRequestEvent → PullRequestEvent}
    (hf : ∀ e, (f e).key = e.key) (he : s.events.get? k = some e) :
    Frame k s { s with events := s.events.modify k p f hf } ∧
      (s.events.modify k p f hf).get? k = some (if p e then f e else e) := by
  have hget : ∀ k', (s.events.modify k p f hf).get? k' = _ := fun k' => get?_modify_of
  refine ⟨⟨rfl, rfl, fun k' hk => ?_⟩, ?_⟩
  · exact (hget k').trans (by simp [Ne.symm hk])
  · exact (hget k).trans (by simp [he])

theorem release_ok (hvalid : k.valid = true) (he : s.events.get? k = some e) : ∃ s',
    releasePullRequestEventClaim k s = .ok () s' ∧ Frame k s s' ∧
      s'.events.get? k = some (if e.isClaimed then e.freed else e) := by
  obtain ⟨hframe, hget⟩ := frame_modify (p := isClaimed) (f := freed) (fun _ => freed_key) he
  refine ⟨_, ?_, hframe, hget⟩
  simp [releasePullRequestEventClaim, PullRequestEvents.releasePullRequestEventClaim, hvalid]

theorem mark_ok (now : ℕ) (he : s.events.get? k = some e) : ∃ s',
    markPullRequestEventAsanaApplied now k s = .ok () s' ∧ Frame k s s' ∧
      s'.events.get? k = some (if e.unapplied then e.applied now else e) := by
  obtain ⟨hframe, hget⟩ := frame_modify (p := unapplied) (f := applied now) (fun _ => applied_key) he
  exact ⟨_, rfl, hframe, hget⟩

theorem consume_ok (now : ℕ) (hvalid : k.valid = true) (he : s.events.get? k = some e) : ∃ s',
    consumePullRequestEvent now k s = .ok () s' ∧ Frame k s s' ∧
      s'.events.get? k = some (if e.unconsumed then e.finished now else e) := by
  obtain ⟨hframe, hget⟩ := frame_modify (p := unconsumed) (f := finished now) (fun _ => finished_key) he
  refine ⟨_, ?_, hframe, hget⟩
  simp [consumePullRequestEvent, PullRequestEvents.consumePullRequestEvent, hvalid]

theorem bind_ok {x : Reconcile α} {f : α → Reconcile β} (h : x s = .ok a s') : (x >>= f) s = f a s' := by
  change EStateM.bind x f s = _
  simp [EStateM.bind, h]

/-- A claimed event is consumed. -/
theorem finish_ok (env : Surroundings) (hvalid : k.valid = true) (he : s.events.get? k = some e) :
    ∃ s' e', finish env k s = .ok () s' ∧ Frame k s s' ∧ s'.events.get? k = some e' ∧
      e'.state = .consumed := by
  obtain ⟨s₁, hmark, hframe₁, he₁⟩ := mark_ok (env.nowMillis 2) he
  obtain ⟨s₂, hconsume, hframe₂, he₂⟩ := consume_ok (env.nowMillis 3) hvalid he₁
  refine ⟨s₂, _, (bind_ok hmark).trans hconsume, hframe₁.trans hframe₂, he₂, ?_⟩
  cases hstate : e.state <;>
    simp [unapplied, unconsumed, PullRequestEvent.applied, PullRequestEvent.finished, hstate]

/-- The Asana client is told; the event is consumed or free again. -/
theorem withAsana_ok (env : Surroundings) (outcome : String) (hvalid : k.valid = true)
    (he : s.events.get? k = some e) (hclaimed : e.state = .claimed) :
    ∃ s' e', reconcilePullRequestEventWithAsana env k outcome s = .ok () s' ∧
      s'.ledger = s.ledger ∧ s'.handoffs = ⟨k.repository, k.taskGid, outcome⟩ :: s.handoffs ∧
      (∀ k' ≠ k, s'.events.get? k' = s.events.get? k') ∧ s'.events.get? k = some e' ∧
      e'.state = if env.asanaSucceeds then .consumed else .observed := by
  let told : Review := { s with handoffs := ⟨k.repository, k.taskGid, outcome⟩ :: s.handoffs }
  have htold : handOff k outcome s = .ok () told := rfl
  by_cases hasana : env.asanaSucceeds = true
  · obtain ⟨s₁, e₁, hfinish, hframe₁, he₁, hstate₁⟩ := finish_ok (s := told) env hvalid he
    obtain ⟨s₂, hrelease, hframe₂, he₂⟩ := release_ok hvalid he₁
    have hframe := hframe₁.trans hframe₂
    refine ⟨s₂, e₁, ?_, hframe.ledger, hframe.handoffs, hframe.others, ?_, by simp [hasana, hstate₁]⟩
    · refine (bind_ok htold).trans ?_
      simp only [hasana, if_true]
      exact (bind_ok hfinish).trans hrelease
    · rw [he₂, if_neg (by simp [isClaimed, hstate₁])]
  · obtain ⟨s₁, hrelease, hframe, he₁⟩ := release_ok (s := told) hvalid he
    refine ⟨s₁, e.freed, ?_, hframe.ledger, hframe.handoffs, hframe.others, ?_, by simp [hasana, freed]⟩
    · refine (bind_ok htold).trans ?_
      simp only [hasana, Bool.false_eq_true, if_false]
      exact (bind_ok rfl).trans hrelease
    · rw [he₁, if_pos (by simp [isClaimed, hclaimed])]

/-- What the Asana client is told of an event that is claimed. -/
def told? (crates : Crates) (env : Surroundings) (l : Ledger) (k : EventKey) (outcome : String)
    (continuationRequired : Bool) : Option String :=
  if outcome = "open" then
    if continuationRequired then
      match env.authorization with
      | .manual => none
      | .isUnsafe => some "unsafe"
      | .autonomous =>
        match (l.runCalls crates env.meanwhile).requestContinuation crates env.host k.repository
            k.taskGid k.fingerprint with
        | .ok (.isUnsafe, _) | .ok (.limitReached, _) => some "unsafe"
        | _ => none
    else none
  else some outcome

/-- The event is not on record, or free, or its claim has expired. -/
def Claimable (t : PullRequestEvents) (now : ℕ) (k : EventKey) : Prop :=
  ∀ e, t.get? k = some e → e.state = .observed ∨ e.expired now = true

theorem requestContinuation_ok (crates : Crates) (host : Host) (l : Ledger) (hvalid : k.valid = true) :
    ∃ answer l', l.requestContinuation crates host k.repository k.taskGid k.fingerprint =
      .ok (answer, l') := by
  have hvalid : Ledger.validPullRequestEventKey k.repository k.taskGid k.fingerprint = true := hvalid
  unfold Ledger.requestContinuation
  rw [if_neg (by simp [hvalid])]
  split
  · exact ⟨_, _, rfl⟩
  · split
    · exact ⟨_, _, rfl⟩
    · split
      · exact ⟨_, _, rfl⟩
      · dsimp only
        split
        · exact ⟨_, _, rfl⟩
        · exact ⟨_, _, rfl⟩

/-- The outcome of a reconciliation: what the Asana client was told, and the event. -/
structure Reconciled (k : EventKey) (told : Option String) (state : PullRequestEventState)
    (s s' : Review) : Prop where
  handoffs : s'.handoffs =
    (told.map fun outcome => ⟨k.repository, k.taskGid, outcome⟩).toList ++ s.handoffs
  others : ∀ k' ≠ k, s'.events.get? k' = s.events.get? k'
  event : ∃ e, s'.events.get? k = some e ∧ e.state = state

/-- **An event that can be claimed is handled**, and consumed unless the Asana client fails. -/
theorem reconcile_claimable (crates : Crates) (env : Surroundings) (outcome : String) (required : Bool)
    (hvalid : k.valid = true) (hclaimable : Claimable s.events (env.nowMillis 1) k) :
    ∃ s', reconcilePullRequestEvent crates env k outcome required s = .ok () s' ∧
      Reconciled k (told? crates env s.ledger k outcome required)
        (if (told? crates env s.ledger k outcome required).isNone || env.asanaSucceeds then .consumed
          else .observed) s s' := by
  obtain ⟨new, s₁, hobserve, hframe₁, he₁⟩ := observe_ok (s := s) (env.nowMillis 0) hvalid
  obtain ⟨s₂, hclaim, hframe₂, he₂⟩ := claim_ok (env.nowMillis 1) he₁
  have hfree : ((s.events.get? k).getD (.observation k (env.nowMillis 0))).state = .observed ∨
      ((s.events.get? k).getD (.observation k (env.nowMillis 0))).expired (env.nowMillis 1) = true := by
    cases he : s.events.get? k with
    | none => exact .inl rfl
    | some e => exact hclaimable e he
  rw [if_pos hfree] at hclaim he₂
  have hframe := hframe₁.trans hframe₂
  have hrun : reconcilePullRequestEvent crates env k outcome required s = _ :=
    (bind_ok hobserve).trans (bind_ok hclaim)
  rw [hrun]
  -- the event is finished, or the client is told
  have hfinish : ∀ l : Ledger, ∃ s', finish env k { s₂ with ledger := l } = .ok () s' ∧
      Reconciled k none .consumed s s' := by
    intro l
    obtain ⟨s₃, e₃, hok, hframe₃, he₃, hstate⟩ :=
      finish_ok (s := { s₂ with ledger := l }) env hvalid he₂
    exact ⟨s₃, hok, hframe₃.handoffs.trans hframe.handoffs,
      fun k' hk => (hframe₃.others k' hk).trans (hframe.others k' hk), e₃, he₃, hstate⟩
  have htell : ∀ (l : Ledger) (told : String), ∃ s',
      reconcilePullRequestEventWithAsana env k told { s₂ with ledger := l } = .ok () s' ∧
        Reconciled k (some told) (if env.asanaSucceeds then .consumed else .observed) s s' := by
    intro l told
    obtain ⟨s₃, e₃, hok, -, hhandoffs, hothers, he₃, hstate⟩ :=
      withAsana_ok (s := { s₂ with ledger := l }) env told hvalid he₂ rfl
    refine ⟨s₃, hok, ?_, fun k' hk => (hothers k' hk).trans (hframe.others k' hk), e₃, he₃, hstate⟩
    rw [hhandoffs, hframe.handoffs]
    rfl
  by_cases hopen : outcome = "open"
  · cases required with
    | false => simpa [told?, hopen] using hfinish s₂.ledger
    | true =>
      cases hauthorization : env.authorization with
      | manual => simpa [told?, hopen, hauthorization] using hfinish s₂.ledger
      | isUnsafe => simpa [told?, hopen, hauthorization] using htell s₂.ledger "unsafe"
      | autonomous =>
        obtain ⟨answer, l', hrequest⟩ := requestContinuation_ok crates env.host
          (s.ledger.runCalls crates env.meanwhile) hvalid
        have hothers : others crates env.meanwhile s₂ =
            .ok () { s₂ with ledger := s.ledger.runCalls crates env.meanwhile } := by
          rw [← hframe.ledger]
          rfl
        have hanswer : requestContinuation crates env.host k
            { s₂ with ledger := s.ledger.runCalls crates env.meanwhile } =
              .ok answer { s₂ with ledger := l' } := by
          simp [requestContinuation, hrequest]
        simp only [hopen, hauthorization, told?, hrequest, Bool.not_true, Bool.and_false, decide_true,
          Bool.false_eq_true, if_false, if_true]
        rw [(bind_ok hothers).trans (bind_ok hanswer)]
        cases answer with
        | queued => simpa using hfinish l'
        | duplicate => simpa using hfinish l'
        | isUnsafe => simpa using htell l' "unsafe"
        | limitReached => simpa using htell l' "unsafe"
  · simpa [told?, hopen] using htell s₂.ledger outcome

/-- **An event that cannot be claimed is left alone**; if it was applied, it is consumed. -/
theorem reconcile_not_claimable (crates : Crates) (env : Surroundings) (outcome : String)
    (required : Bool) (hvalid : k.valid = true) (he : s.events.get? k = some e)
    (hnot : ¬ (e.state = .observed ∨ e.expired (env.nowMillis 1) = true)) :
    ∃ s', reconcilePullRequestEvent crates env k outcome required s = .ok () s' ∧
      s'.ledger = s.ledger ∧ Reconciled k none
        (if e.state = .asanaApplied then .consumed else e.state) s s' := by
  obtain ⟨new, s₁, hobserve, hframe₁, he₁⟩ := observe_ok (s := s) (env.nowMillis 0) hvalid
  rw [he, Option.getD_some] at he₁
  obtain ⟨s₂, hclaim, hframe₂, he₂⟩ := claim_ok (env.nowMillis 1) he₁
  rw [if_neg hnot] at hclaim he₂
  have hframe := hframe₁.trans hframe₂
  have hrun : reconcilePullRequestEvent crates env k outcome required s = _ :=
    (bind_ok hobserve).trans (bind_ok hclaim)
  rw [hrun]
  cases hstate : e.state with
  | observed => exact absurd (.inl hstate) hnot
  | claimed =>
    exact ⟨s₂, by simp [pure, EStateM.pure], hframe.ledger, hframe.handoffs, hframe.others, e, he₂, hstate⟩
  | asanaApplied =>
    obtain ⟨s₃, hconsume, hframe₃, he₃⟩ := consume_ok (env.nowMillis 3) hvalid he₂
    have hall := hframe.trans hframe₃
    refine ⟨s₃, by simpa using hconsume, hall.ledger, hall.handoffs, hall.others, _, he₃, ?_⟩
    simp [unconsumed, hstate, finished]
  | consumed =>
    exact ⟨s₂, by simp [pure, EStateM.pure], hframe.ledger, hframe.handoffs, hframe.others, e, he₂, hstate⟩

end Reconcile

/-! ## Examples

The pull request of the ticket of `exampleCalls`, open or closed, without reviews or with failed
checks. -/

def exampleChecks : String := "[\x7b\"conclusion\":\"FAILURE\"\x7d]"

def exampleHeadSha (digit : Char) : String := String.ofList (List.replicate 40 digit)

def exampleSeen (state : String) (digit : Char) (reviewFingerprint : String) : String :=
  "state=" ++ state ++ ";head=" ++ exampleHeadSha digit ++ ";reviews=" ++ reviewFingerprint

def digestOfEmpty : String := "e3b0c44298fc1c149afbf4c8996fb92427ae41e4649b934ca495991b7852b855"

def digestOfChecks : String := "b212177fcb59fc2e77df45b63ed96bf98f0f1d769948575f3b8f3a58dd932a0f"

/-- The digests of the texts that the examples need; every other text gets that of the empty one. -/
def exampleDigest (text : String) : String :=
  if text = exampleChecks then digestOfChecks
  else if text = exampleSeen "open" 'a' digestOfEmpty then
    "bbaf5277384d2b0d174020c44664b8720f2f3239612ff00a5a0177b1cac47369"
  else if text = exampleSeen "closed" 'a' digestOfEmpty then
    "e7f7ed97a259ea2968c6d9978620ec5f1446a218102e7ea96f2d1f46b6a17331"
  else if text = exampleSeen "open" 'a' digestOfChecks then
    "eb66634ca71ea26dcee2b6943802148b4c637901fa338aa893d6715821c2b3a5"
  else if text = exampleSeen "open" 'b' digestOfChecks then
    "9bed6e440bf764863f2d09397683963b0f356bafb9af1450d3b80b93fd1f69ee"
  else digestOfEmpty

def exampleReviewCrates : ReviewCrates where
  sha256Hex := exampleDigest
  sha256Hex_valid text := by
    unfold exampleDigest
    repeat' split
    all_goals decide
  isRfc3339 _ := true

def exampleSurroundings : Surroundings where
  authorization := .autonomous
  asanaSucceeds := true
  nowMillis _ := 1000000
  host := exampleHost
  meanwhile := []

end FlashyFactory
