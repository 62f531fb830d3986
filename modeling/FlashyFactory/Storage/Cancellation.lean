import FlashyFactory.Storage.Invariants

/-! # What becomes of a requested cancellation

`finish_run_and_task` and orphan recovery look at the cancellation flag when they close a run.
`fail_prelaunch_and_requeue` does not: it fails the run and puts its task back on the queue. -/

namespace FlashyFactory
open RetryQueue (CancelKept Lockstep Runs)

namespace Ledger
variable {l l' : Ledger} {id : ℕ}

/-- The call is not a prelaunch failure of the run `id` that takes effect. -/
def HonoursCancellation (id : ℕ) (l : Ledger) (c : Call) : Prop :=
  ∀ error, c.op = .failPrelaunchAndRequeue id error →
    ∀ run, l.runs.get? id = some run → run.outcome = .running → run.processId ≠ none

/-- The request to cancel the run `id` is not lost: the run still goes on with the request on
record, or both it and its task are cancelled. -/
def CancellationKept (l : Ledger) (id : ℕ) : Prop :=
  ∃ run task, l.runs.get? id = some run ∧ l.tasks.get? run.taskId = some task ∧
    (run.outcome = .running ∧ run.cancellationRequestedAt.isSome ∧ task.state = .running ∨
      run.outcome = .cancelled ∧ task.state = .cancelled)

theorem cancellationKept_iff : CancellationKept l id ↔ CancelKept id l.view := by
  constructor
  · rintro ⟨run, task, hr, ht, h⟩
    refine ⟨run.attempt, task.job, view_attempt hr, view_job ht, ?_⟩
    simpa [Run.attempt, Task.job] using h
  · rintro ⟨y, x, hy, hx, h⟩
    obtain ⟨run, hr, rfl⟩ := of_view_attempt hy
    obtain ⟨task, ht, rfl⟩ := of_view_job hx
    exact ⟨run, task, hr, ht, by simpa [Run.attempt, Task.job] using h⟩

/-- The request itself. -/
theorem cancellationKept_request (H : Lockstep l.view)
    (h : l.requestRunCancellation host id = .ok (.requested run, l')) : CancellationKept l' id := by
  simp only [requestRunCancellation] at h
  split at h
  · cases h
  · next r hr =>
    split at h
    · cases h
    · next ho =>
      split at h
      · cases h
      · next hnone =>
        split at h
        · cases h
        · split at h
          · cases h
          · cases h
            have ho : r.outcome = .running := not_not.mp ho
            have hp : isCancellable r = true := by simpa [isCancellable, isRunning, ho] using hnone
            obtain ⟨task, ht, hs⟩ := running_task H hr ho
            refine ⟨{ r with cancellationRequestedAt := some (host.nowMillis 1) }, task, ?_, ht,
              .inl ⟨ho, rfl, hs⟩⟩
            simp only [KeyedTable.get?_modify_self hr hp]

/-- The events of a call that meets the condition honour the cancellation. -/
theorem honours_of_emits (hC : HonoursCancellation id l c) (he : l.Emits crates c s e) :
    e.Honours id s := by
  obtain ⟨host, op⟩ := c
  cases op with
  | enqueueWithPayload => obtain ⟨j, rfl⟩ := he; trivial
  | enqueueScheduledOccurrence => obtain ⟨j, rfl⟩ := he; trivial
  | reconcileTicketPoll => obtain ⟨j, item, rfl, _⟩ := he; trivial
  | claimAndStartRunWithWorkdirsFiltered => obtain ⟨j, a, rfl⟩ := he; trivial
  | requestRunCancellation => cases he; trivial
  | finishRunAndTask => exact he.2 id
  | finishRunAndTaskTerminal => exact he.2 id
  | failPrelaunchAndRequeue b error =>
    obtain ⟨rfl, hclose, run, hr, ho, hp⟩ := he
    have hne : b ≠ id := by
      rintro rfl
      exact hC error rfl run hr ho hp
    rcases hclose with ⟨v, rfl⟩ | rfl
    · exact fun h => (hne h).elim
    · exact fun h => (hne h).elim
  | recoverOrphanedRuns => exact he.2 id
  | recoverOrphanedRunsForRepository => exact he.2 id
  | requestContinuation => obtain ⟨_, task, workspace, _, rfl⟩ := he; trivial
  | _ => exact he.elim

/-- **A cancellation is lost only by a prelaunch failure.** Once `request_run_cancellation` has
answered `Requested` for a run, every later ledger keeps the cancellation, as long as the run
is not closed by `fail_prelaunch_and_requeue`. -/
theorem cancellation_kept (crates : Crates) (before after : List Call) (host : Host) (id : ℕ)
    (run : Run) (l : Ledger)
    (hrequest : (Ledger.empty.runCalls crates before).requestRunCancellation host id =
      .ok (.requested run, l)) (hafter : l.Meets crates (HonoursCancellation id) after) :
    CancellationKept (l.runCalls crates after) id := by
  have H := (sound_reachable crates before).lockstep
  have hkept := cancellationKept_request H hrequest
  have hruns : Runs maxRecoveryAttempts (fun _ _ => True) _ l.view :=
    requestRunCancellation_runs hrequest trivial
  have hl : Lockstep l.view := H.run hruns
  rw [cancellationKept_iff] at hkept ⊢
  exact hkept.run hl (runCalls_runs (fun _ _ _ _ hC he => honours_of_emits hC he) hl hafter)

/-- The first run is claimed and has no process yet. -/
def beforeLaunch : List Call := exampleCalls [exampleDaemon, examplePoll "r1" true, exampleClaim]

/-- Its cancellation has been requested. -/
def afterRequest : Ledger :=
  Ledger.empty.runCalls exampleCrates (beforeLaunch ++ exampleCalls [.requestRunCancellation 1])

theorem cancellation_kept_finish : CancellationKept
    (afterRequest.runCalls exampleCrates
      (exampleCalls [.finishRunAndTask 1 .failed none none none])) 1 :=
  cancellation_kept exampleCrates beforeLaunch _ exampleHost 1 _ afterRequest rfl ⟨nofun, trivial⟩

/-- A prelaunch failure forgets the cancellation: the run fails and its task is queued again. -/
theorem cancellation_lost : ¬ ∀ (crates : Crates) (before after : List Call) (host : Host) (id : ℕ)
    (run : Run) (l : Ledger),
    (Ledger.empty.runCalls crates before).requestRunCancellation host id = .ok (.requested run, l) →
      CancellationKept (l.runCalls crates after) id := by
  intro h
  obtain ⟨run, task, hr, -, hkept⟩ := h exampleCrates beforeLaunch
    (exampleCalls [.failPrelaunchAndRequeue 1 "no sandbox"]) exampleHost 1 _ afterRequest rfl
  have hfailed : ((afterRequest.runCalls exampleCrates
      (exampleCalls [.failPrelaunchAndRequeue 1 "no sandbox"])).runs.get? 1).map Run.outcome =
        some .failed := by decide
  rw [hr] at hfailed
  have ho : run.outcome = .failed := Option.some.inj hfailed
  simp [ho] at hkept

end Ledger
end FlashyFactory
