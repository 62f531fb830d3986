import FlashyFactory.PullRequests.Closings
import FlashyFactory.Storage.Bounds
import Mathlib

/-! # Events while the continuation is at work

A ticket that was accepted for a continuation is queued or running, and `request_continuation`
grants only a succeeded one. An event with a new value that comes meanwhile is answered `Unsafe`,
and Asana is told so. -/

namespace FlashyFactory

namespace Ledger

/-- The task of the ticket is queued or running because of a continuation. -/
def Continuing (l : Ledger) (repository taskGid : String) : Prop :=
  ∃ task workspace, l.continuationTarget repository taskGid = some (task, workspace) ∧
    (task.state = .queued ∨ task.state = .running) ∧ ∃ c ∈ l.continuations, c.taskId = task.id

/-- The ticket was delivered, and a continuation would be granted. -/
structure Deliverable (crates : Crates) (l : Ledger) (repository taskGid : String) : Prop where
  target : ∃ task workspace, l.continuationTarget repository taskGid = some (task, workspace) ∧
    continuable crates task workspace = true
  below : l.reserved repository taskGid < 3

/-- A task that is not succeeded is not continued. -/
theorem Continuing.request {l : Ledger} (h : l.Continuing repository taskGid)
    (hvalid : validPullRequestEventKey repository taskGid fingerprint = true) :
    l.requestContinuation crates host repository taskGid fingerprint =
      .ok (if (l.continuations.get? (repository, taskGid, fingerprint)).isSome then .duplicate
        else .isUnsafe, l) := by
  obtain ⟨task, workspace, htarget, hstate, -⟩ := h
  have hguard : continuable crates task workspace = false := by
    rcases hstate with hstate | hstate <;> simp [continuable, hstate]
  unfold requestContinuation
  rw [if_neg (by simp [hvalid])]
  split
  · next c hc => simp [hc]
  · next hc => simp [hc, htarget, hguard]

end Ledger

/-- The operation claims a task, or ends a run and with it its task. -/
def Op.claimsOrCompletes : Op → Bool
  | .claimAndStartRunWithWorkdirsFiltered .. | .finishRunAndTask .. | .finishRunAndTaskTerminal .. => true
  | _ => false

/-- The poll finds work to do: it is open, and the ticket may be continued autonomously. -/
structure ReviewPoll.AsksToContinue (crates : ReviewCrates) (p : ReviewPoll) : Prop where
  outcome : (p.observed crates).outcome = "open"
  required : (p.observed crates).continuationRequired = true
  authorization : p.env.authorization = .autonomous

namespace Review
variable (crates : ReviewCrates) (ledgerCrates : Crates) (s : Review) (p : ReviewPoll)

/-- The ledger on which the poll requests a continuation. -/
def asked : Ledger := s.ledger.runCalls ledgerCrates p.env.meanwhile

/-- The poll asks for a continuation while one is at work. -/
def AsksMeanwhile : Prop :=
  p.AsksToContinue crates ∧ (asked ledgerCrates s p).Continuing p.repository p.taskGid

/-- Asana is told that the ticket is unsafe. -/
def TellsUnsafe : Prop :=
  (step crates ledgerCrates s (.poll p)).handoffs = ⟨p.repository, p.taskGid, "unsafe"⟩ :: s.handoffs

/-- The poll can claim its event, and no continuation was reserved for it. -/
def IsNew : Prop :=
  Reconcile.Claimable s.events (p.env.nowMillis 1) (p.key crates) ∧
    (asked ledgerCrates s p).continuations.get?
      (p.repository, p.taskGid, (p.observed crates).fingerprint) = none

variable {crates ledgerCrates s p}

/-- **A continuation that is at work is punished exactly for a new event.** -/
theorem tellsUnsafe_iff (h : AsksMeanwhile crates ledgerCrates s p) :
    TellsUnsafe crates ledgerCrates s p ↔ IsNew crates ledgerCrates s p := by
  obtain ⟨⟨houtcome, hrequired, hauthorization⟩, hcontinuing⟩ := h
  by_cases hclaim : Reconcile.Claimable s.events (p.env.nowMillis 1) (p.key crates)
  · obtain ⟨s', hok, hresult⟩ := Reconcile.reconcile_claimable ledgerCrates p.env
      (p.observed crates).outcome (p.observed crates).continuationRequired valid_key hclaim
    have hhandoffs := hresult.handoffs
    have hrequest : (s.ledger.runCalls ledgerCrates p.env.meanwhile).requestContinuation ledgerCrates
        p.env.host p.repository p.taskGid (p.observed crates).fingerprint = _ :=
      hcontinuing.request valid_key
    simp only [Reconcile.told?, houtcome, hrequired, hauthorization, if_true, ReviewPoll.key,
      hrequest] at hhandoffs
    rw [TellsUnsafe, step_poll hok, hhandoffs, IsNew, asked]
    cases hreserved : ((s.ledger.runCalls ledgerCrates p.env.meanwhile).continuations.get?
        (p.repository, p.taskGid, (p.observed crates).fingerprint)) with
    | none => simp [hclaim]
    | some c => simp
  · have hother : ∃ e, s.events.get? (p.key crates) = some e ∧
        ¬ (e.state = .observed ∨ e.expired (p.env.nowMillis 1) = true) := by
      simpa only [Reconcile.Claimable, not_forall, exists_prop] using hclaim
    obtain ⟨e, he, hnot⟩ := hother
    obtain ⟨s', hok, -, hresult⟩ := Reconcile.reconcile_not_claimable ledgerCrates p.env
      (p.observed crates).outcome (p.observed crates).continuationRequired valid_key he hnot
    rw [TellsUnsafe, step_poll hok, hresult.handoffs, IsNew]
    simp [hclaim]

variable (crates ledgerCrates s)

/-- No continuation that is at work is punished for the event. -/
def LeavesContinuation (e : ReviewEvent) : Prop :=
  ∀ p, e = .poll p → AsksMeanwhile crates ledgerCrates s p → ¬ TellsUnsafe crates ledgerCrates s p

/-- No new event meets a continuation that is at work. -/
def BringsNothingNew (e : ReviewEvent) : Prop :=
  ∀ p, e = .poll p → AsksMeanwhile crates ledgerCrates s p → ¬ IsNew crates ledgerCrates s p

/-- **A continuation is left at work exactly if no new event meets it.** -/
theorem continuations_left_iff (events : List ReviewEvent) :
    Transition.Meets (step crates ledgerCrates) (LeavesContinuation crates ledgerCrates) s events ↔
      Transition.Meets (step crates ledgerCrates) (BringsNothingNew crates ledgerCrates) s events := by
  constructor
  · apply Transition.Meets.mono
    intro s e hleaves p hp hasks hnew
    exact hleaves p hp hasks ((tellsUnsafe_iff hasks).mpr hnew)
  · apply Transition.Meets.mono
    intro s e hnothing p hp hasks htells
    exact hnothing p hp hasks ((tellsUnsafe_iff hasks).mp htells)

/-- A poll of the pull request of the examples, with failed checks. -/
def exampleFailedChecks (digit : Char) : ReviewPoll where
  provider := .gitHub
  repository := "acme/site"
  taskGid := "101"
  pullRequest := "https://github.com/acme/site/pull/42"
  named := example_named
  answer := .observation ⟨"OPEN", none, exampleHeadSha digit, [exampleChecks], true⟩
  env := exampleSurroundings

theorem asksToContinue_example (digit : Char)
    (hdigit : ((exampleFailedChecks digit).observed exampleReviewCrates).outcome = "open" ∧
      ((exampleFailedChecks digit).observed exampleReviewCrates).continuationRequired = true) :
    (exampleFailedChecks digit).AsksToContinue exampleReviewCrates := ⟨hdigit.1, hdigit.2, rfl⟩

def deliveredOnce : Ledger := Ledger.empty.runCalls exampleCrates (exampleCalls
  [exampleDaemon, examplePoll "r1" true, exampleClaim, .reserveTaskWorkspace (exampleWorkspace 1),
    exampleSuccess 1])

def failedTwice : List ReviewEvent :=
  [.poll (exampleFailedChecks 'a'), .call ⟨exampleHost, exampleClaim⟩, .poll (exampleFailedChecks 'b')]

set_option maxRecDepth 20000 in
/-- The checks fail, the agent that continues the ticket pushes a commit, and they fail again. -/
theorem continuation_not_left :
    ¬ ∀ (crates : ReviewCrates) (ledgerCrates : Crates) (s : Review) (repository taskGid : String)
        (events : List ReviewEvent),
      s.ledger.Deliverable ledgerCrates repository taskGid →
      (∀ p, .poll p ∈ events →
        p.AsksToContinue crates ∧ p.repository = repository ∧ p.taskGid = taskGid) →
      (∀ c, .call c ∈ events → c.op.claimsOrCompletes = true) →
      (events.filterMap fun | .poll p => some (p.key crates) | .call _ => none).Nodup →
      Transition.Meets (step crates ledgerCrates) (LeavesContinuation crates ledgerCrates) s events := by
  intro h
  have hasks : ∀ p, .poll p ∈ failedTwice → p.AsksToContinue exampleReviewCrates ∧
      p.repository = "acme/site" ∧ p.taskGid = "101" := by
    intro p hp
    simp only [failedTwice, List.mem_cons, ReviewEvent.poll.injEq, List.not_mem_nil, or_false, reduceCtorEq,
      false_or] at hp
    rcases hp with rfl | rfl
    · exact ⟨asksToContinue_example 'a' (by decide), rfl, rfl⟩
    · exact ⟨asksToContinue_example 'b' (by decide), rfl, rfl⟩
  have hcalls : ∀ c, .call c ∈ failedTwice → c.op.claimsOrCompletes = true := by
    intro c hc
    simp only [failedTwice, List.mem_cons, ReviewEvent.call.injEq, List.not_mem_nil, or_false,
      reduceCtorEq, false_or] at hc
    rw [hc]
    rfl
  have hmeets := h exampleReviewCrates exampleCrates { ledger := deliveredOnce } "acme/site" "101"
    failedTwice
    ⟨⟨_, _, rfl, by decide⟩, by decide⟩ hasks hcalls (by decide)
  exact hmeets.2.2.1 (exampleFailedChecks 'b') rfl
    ⟨asksToContinue_example 'b' (by decide), _, _, rfl, .inr (by decide), _, .head _, by decide⟩
    (by unfold TellsUnsafe; decide)

end Review

end FlashyFactory
