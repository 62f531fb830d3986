import FlashyFactory.PullRequests.Reconcile
import Mathlib.Data.List.Induction

/-! # Telling Asana that a pull request was closed

An event is the value that a poll saw, and an event is handled once, for ever. A closing reaches
the Asana client the first time its value is seen; a pull request that is closed, opened and
closed again as before is not reported again. -/

namespace FlashyFactory

/-- One poll of the pull request of a task. -/
structure ReviewPoll where
  provider : RepositoryProvider
  repository : String
  taskGid : String
  pullRequest : String
  /-- `record_pull_request_association` records no blank names. -/
  named : (isBlank repository || isBlank taskGid) = false
  answer : ProviderAnswer
  env : Surroundings

inductive ReviewEvent
  | poll (p : ReviewPoll)
  /-- Anybody's operation on the ledger. -/
  | call (c : Call)

namespace ReviewPoll
variable (crates : ReviewCrates)

def observed (p : ReviewPoll) : Observed :=
  FlashyFactory.observed crates p.provider p.repository p.pullRequest p.answer

def key (p : ReviewPoll) : EventKey := ⟨p.repository, p.taskGid, (p.observed crates).fingerprint⟩

def sameRequest (p q : ReviewPoll) : Bool := p.repository = q.repository && p.taskGid = q.taskGid

def reconcile (ledgerCrates : Crates) (p : ReviewPoll) : Reconcile Unit :=
  .reconcilePullRequestEvent ledgerCrates p.env (p.key crates) (p.observed crates).outcome
    (p.observed crates).continuationRequired

end ReviewPoll

namespace Review

def step (crates : ReviewCrates) (ledgerCrates : Crates) (s : Review) : ReviewEvent → Review
  | .poll p => match p.reconcile crates ledgerCrates s with
    | .ok _ s' | .error _ s' => s'
  | .call c => { s with ledger := s.ledger.step ledgerCrates c }

variable (crates : ReviewCrates) (ledgerCrates : Crates) (l : Ledger)

/-- The state after the events, on a ledger without pull-request events. -/
def after (events : List ReviewEvent) : Review :=
  Transition.run (step crates ledgerCrates) { ledger := l } events

/-- The last poll of the same pull request. -/
def lastPoll (before : List ReviewEvent) (p : ReviewPoll) : Option ReviewPoll :=
  before.reverse.findSome? fun
    | .poll q => if p.sameRequest q then some q else none
    | .call _ => none

/-- The poll sees the pull request closed, and the last one saw it open. -/
def SeesClosing (before : List ReviewEvent) (p : ReviewPoll) : Prop :=
  ((p.observed crates).outcome = "closed" ∨ (p.observed crates).outcome = "merged") ∧
    (lastPoll before p).map (fun q => (q.observed crates).outcome) = some "open"

/-- The Asana client is told. -/
def Reports (before : List ReviewEvent) (p : ReviewPoll) : Prop :=
  (after crates ledgerCrates l (before ++ [.poll p])).handoffs =
    ⟨p.repository, p.taskGid, (p.observed crates).outcome⟩ :: (after crates ledgerCrates l before).handoffs

/-- No earlier poll of the pull request had this fingerprint. -/
def SeesNewValue (before : List ReviewEvent) (p : ReviewPoll) : Prop :=
  ∀ q, .poll q ∈ before → q.key crates ≠ p.key crates

variable {crates ledgerCrates l} {s : Review} {before : List ReviewEvent} {p : ReviewPoll}

theorem valid_key : (p.key crates).valid = true := by
  have hsha : ∃ text, (p.observed crates).fingerprint = crates.sha256Hex text := by
    unfold ReviewPoll.observed observed
    split
    · exact ⟨_, rfl⟩
    · split
      · exact ⟨_, rfl⟩
      · exact ⟨_, rfl⟩
      · exact ⟨_, rfl⟩
      · split
        · exact ⟨_, rfl⟩
        · split
          · exact ⟨_, rfl⟩
          · exact ⟨_, rfl⟩
  obtain ⟨text, htext⟩ := hsha
  have hhex := crates.sha256Hex_valid text
  have hnamed := p.named
  simp only [Bool.or_eq_false_iff] at hnamed
  simp only [EventKey.valid, Ledger.validPullRequestEventKey, ReviewPoll.key, htext, hnamed,
    Bool.not_false, Bool.true_and]
  exact hhex

/-- The events are those of the polls, and they are all consumed. -/
structure AllConsumed (crates : ReviewCrates) (before : List ReviewEvent) (t : PullRequestEvents) :
    Prop where
  consumed : ∀ k e, t.get? k = some e → e.state = .consumed
  seen : ∀ k, (t.get? k).isSome ↔ ∃ q, .poll q ∈ before ∧ q.key crates = k

theorem AllConsumed.poll (h : AllConsumed crates before s.events)
    (hresult : Reconcile.Reconciled (p.key crates) told .consumed s s') :
    AllConsumed crates (before ++ [.poll p]) s'.events := by
  obtain ⟨e', he', hstate⟩ := hresult.event
  constructor
  · intro k e he
    by_cases hk : k = p.key crates
    · subst hk
      cases he.symm.trans he'
      exact hstate
    · rw [hresult.others k hk] at he
      exact h.consumed k e he
  · intro k
    by_cases hk : k = p.key crates
    · subst hk
      simp only [he', Option.isSome_some, true_iff]
      exact ⟨p, by simp, rfl⟩
    · rw [hresult.others k hk, h.seen k]
      simp only [List.mem_append, List.mem_singleton, ReviewEvent.poll.injEq]
      constructor
      · rintro ⟨q, hq, hkey⟩
        exact ⟨q, .inl hq, hkey⟩
      · rintro ⟨q, hq | rfl, hkey⟩
        · exact ⟨q, hq, hkey⟩
        · exact absurd hkey.symm hk

theorem step_poll (hok : p.reconcile crates ledgerCrates s = .ok () s') :
    step crates ledgerCrates s (.poll p) = s' := by
  simp only [step, hok]

/-- A value that was not seen before is handled. -/
theorem poll_new (h : AllConsumed crates before s.events) (hasana : p.env.asanaSucceeds = true)
    (hnew : SeesNewValue crates before p) :
    Reconcile.Reconciled (p.key crates) (Reconcile.told? ledgerCrates p.env s.ledger (p.key crates)
      (p.observed crates).outcome (p.observed crates).continuationRequired) .consumed s
        (step crates ledgerCrates s (.poll p)) := by
  have hnone : s.events.get? (p.key crates) = none := by
    by_contra hsome
    obtain ⟨q, hq, hkey⟩ := (h.seen _).mp (Option.isSome_iff_ne_none.mpr hsome)
    exact hnew q hq hkey
  obtain ⟨s', hok, hresult⟩ := Reconcile.reconcile_claimable ledgerCrates p.env
    (p.observed crates).outcome (p.observed crates).continuationRequired valid_key
    (s := s) (k := p.key crates) (fun e he => by cases hnone.symm.trans he)
  rw [step_poll hok]
  simpa [hasana] using hresult

/-- A value that was seen before is not. -/
theorem poll_seen (h : AllConsumed crates before s.events) (hseen : ¬ SeesNewValue crates before p) :
    Reconcile.Reconciled (p.key crates) none .consumed s (step crates ledgerCrates s (.poll p)) := by
  obtain ⟨q, hq, hkey⟩ : ∃ q, .poll q ∈ before ∧ q.key crates = p.key crates := by
    simpa [SeesNewValue] using hseen
  obtain ⟨e, he⟩ := Option.isSome_iff_exists.mp ((h.seen _).mpr ⟨q, hq, hkey⟩)
  have hconsumed := h.consumed _ e he
  obtain ⟨s', hok, -, hresult⟩ := Reconcile.reconcile_not_claimable ledgerCrates p.env
    (p.observed crates).outcome (p.observed crates).continuationRequired valid_key he (by
      simp [hconsumed, PullRequestEvent.expired])
  rw [step_poll hok]
  simpa [hconsumed] using hresult

/-- In every poll of the events the Asana client succeeds. -/
def AsanaSucceeds (events : List ReviewEvent) : Prop :=
  ∀ p, .poll p ∈ events → p.env.asanaSucceeds = true

theorem after_append : after crates ledgerCrates l (before ++ [e]) =
    step crates ledgerCrates (after crates ledgerCrates l before) e := by
  simp [after, Transition.run_append]

theorem allConsumed_after (hasana : AsanaSucceeds before) :
    AllConsumed crates before (after crates ledgerCrates l before).events := by
  induction before using List.reverseRecOn with
  | nil =>
    constructor
    · intro k e he
      cases he
    · intro k
      simp only [List.not_mem_nil, false_and, exists_false, iff_false]
      rintro ⟨⟩
  | append_singleton before e ih =>
    have ih := ih fun p hp => hasana p (List.mem_append_left _ hp)
    rw [after_append]
    cases e with
    | call c =>
      refine ⟨ih.consumed, fun k => (ih.seen k).trans ?_⟩
      simp
    | poll p =>
      by_cases hnew : SeesNewValue crates before p
      · exact ih.poll (poll_new ih (hasana p (by simp)) hnew)
      · exact ih.poll (poll_seen ih hnew)

/-- **A closing is reported exactly if its value is new.** -/
theorem closings_reported_iff (crates : ReviewCrates) (ledgerCrates : Crates) (l : Ledger)
    (events : List ReviewEvent) (hasana : AsanaSucceeds events) :
    (∀ before p late, events = before ++ .poll p :: late → SeesClosing crates before p →
        Reports crates ledgerCrates l before p) ↔
      ∀ before p late, events = before ++ .poll p :: late → SeesClosing crates before p →
        SeesNewValue crates before p := by
  have hone : ∀ before p late, events = before ++ .poll p :: late → SeesClosing crates before p →
      (Reports crates ledgerCrates l before p ↔ SeesNewValue crates before p) := by
    rintro before p late rfl hclosing
    have hconsumed : AllConsumed crates before (after crates ledgerCrates l before).events :=
      allConsumed_after fun q hq => hasana q (List.mem_append_left _ hq)
    have hsucceeds : p.env.asanaSucceeds = true := hasana p (by simp)
    have hshut : (p.observed crates).outcome ≠ "open" := by
      rcases hclosing.1 with h | h <;> simp [h]
    have htold : ∀ s : Review, Reconcile.told? ledgerCrates p.env s.ledger (p.key crates)
        (p.observed crates).outcome (p.observed crates).continuationRequired =
          some (p.observed crates).outcome := fun _ => if_neg hshut
    rw [Reports, after_append]
    constructor
    · intro hreports
      by_contra hseen
      rw [(poll_seen hconsumed hseen).handoffs] at hreports
      simpa using congrArg List.length hreports
    · intro hnew
      rw [(poll_new hconsumed hsucceeds hnew).handoffs, htold]
      rfl
  constructor
  · intro h before p late hevents hclosing
    exact (hone before p late hevents hclosing).mp (h before p late hevents hclosing)
  · intro h before p late hevents hclosing
    exact (hone before p late hevents hclosing).mpr (h before p late hevents hclosing)

theorem example_named : (isBlank "acme/site" || isBlank "101") = false := by decide

/-- A poll of the pull request of the examples, without reviews. -/
def exampleReviewPoll (state : String) : ReviewEvent := .poll {
  provider := .gitHub
  repository := "acme/site"
  taskGid := "101"
  pullRequest := "https://github.com/acme/site/pull/42"
  named := example_named
  answer := .observation ⟨state, none, exampleHeadSha 'a', [], false⟩
  env := exampleSurroundings
}

theorem asanaSucceeds_examplePolls (states : List String) : AsanaSucceeds (states.map exampleReviewPoll) := by
  intro p hp
  obtain ⟨state, -, hpoll⟩ := List.mem_map.mp hp
  cases hpoll
  rfl

/-- The merge request is closed once. -/
theorem closings_reported_once :
    (∀ before p late, [exampleReviewPoll "OPEN", exampleReviewPoll "CLOSED"] = before ++ .poll p :: late →
        SeesClosing exampleReviewCrates before p →
        Reports exampleReviewCrates exampleCrates .empty before p) ↔
      ∀ before p late, [exampleReviewPoll "OPEN", exampleReviewPoll "CLOSED"] = before ++ .poll p :: late →
        SeesClosing exampleReviewCrates before p → SeesNewValue exampleReviewCrates before p :=
  closings_reported_iff exampleReviewCrates exampleCrates .empty _
    (asanaSucceeds_examplePolls ["OPEN", "CLOSED"])

set_option maxRecDepth 20000 in
/-- The pull request is closed, opened and closed again: Asana is told once. -/
theorem closing_not_reported :
    ¬ ∀ (crates : ReviewCrates) (ledgerCrates : Crates) (l : Ledger) (events : List ReviewEvent),
      AsanaSucceeds events → ∀ before p late, events = before ++ .poll p :: late →
        SeesClosing crates before p → Reports crates ledgerCrates l before p := by
  intro h
  have hreports := h exampleReviewCrates exampleCrates .empty
    (["OPEN", "CLOSED", "OPEN", "CLOSED"].map exampleReviewPoll)
    (asanaSucceeds_examplePolls ["OPEN", "CLOSED", "OPEN", "CLOSED"])
    (["OPEN", "CLOSED", "OPEN"].map exampleReviewPoll) _ [] rfl
    ⟨.inl (by decide), by decide⟩
  have htold := congrArg List.length hreports
  revert htold
  decide

end Review

end FlashyFactory
