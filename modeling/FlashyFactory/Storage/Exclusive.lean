import FlashyFactory.Storage.Invariants

/-! # One active task per trigger and ticket

A poll creates a task only when no task of its trigger is queued or running. The other way into
the queue is a continuation, which looks at the newest delivery task with a workspace only. -/

namespace FlashyFactory
open RetryQueue (Exclusive Phase)

/-- A ticket task of the trigger and ticket that is queued or running. -/
def Task.ActiveFor (repository workflow item : String) (task : Task) : Prop :=
  task.kind = .ticket ∧ task.repository = repository ∧ task.workflow = workflow ∧
    task.sourceItem = some item ∧ (task.state = .queued ∨ task.state = .running)

instance : DecidablePred (Task.ActiveFor repository workflow item) := fun _ =>
  inferInstanceAs (Decidable (_ ∧ _))

/-- The operation adds a task without a poll or a schedule. -/
def Op.enqueues : Op → Bool
  | enqueueWithPayload .. => true
  | _ => false

namespace Ledger
variable {l : Ledger}

def OneActivePerTrigger (l : Ledger) : Prop :=
  ∀ repository workflow item, ∀ a ∈ l.tasks, ∀ b ∈ l.tasks,
    a.ActiveFor repository workflow item → b.ActiveFor repository workflow item → a = b

/-- A continuation that is granted finds no active delivery task of its ticket. -/
def RespectsActive (crates : Crates) (l : Ledger) (c : Call) : Prop :=
  ∀ repository taskGid fingerprint, c.op = .requestContinuation repository taskGid fingerprint →
    ∀ task workspace, l.Grants crates repository taskGid fingerprint task workspace →
      l.activeExists repository deliveryWorkflow taskGid = false

theorem oneActive_of_view (H : Exclusive l.view) : OneActivePerTrigger l := by
  have hjob : ∀ {repository workflow item}, ∀ task ∈ l.tasks,
      task.ActiveFor repository workflow item → l.view.job task.id = some task.job ∧
        task.job.trigger = some (repository, workflow, item) ∧ task.job.phase.IsOpen := by
    rintro _ _ _ task ht ⟨hkind, rfl, rfl, hitem, hactive⟩
    refine ⟨view_job (KeyedTable.get?_of_mem ht), by simp [Task.job, Task.trigger, hkind, hitem], ?_⟩
    simpa [Task.job, Phase.IsOpen] using hactive
  intro repository workflow item a ha b hb hactive hactive'
  obtain ⟨hja, hta, hpa⟩ := hjob a ha hactive
  obtain ⟨hjb, htb, hpb⟩ := hjob b hb hactive'
  exact KeyedTable.eq_of_key_eq ha hb (H _ _ _ _ _ hja hjb hta htb hpa hpb)

/-- The events of a call that respects the active tasks are guarded. -/
theorem guarded_of_emits (hop : c.op.enqueues = false) (hC : l.RespectsActive crates c)
    (he : l.Emits crates c s e) : e.Guarded s := by
  obtain ⟨host, op⟩ := c
  cases op with
  | enqueueWithPayload => cases hop
  | enqueueScheduledOccurrence => obtain ⟨j, rfl⟩ := he; exact nofun
  | reconcileTicketPoll =>
    obtain ⟨j, item, rfl, hfree⟩ := he
    rintro _ ⟨⟩
    exact hfree
  | claimAndStartRunWithWorkdirsFiltered => obtain ⟨j, a, rfl⟩ := he; trivial
  | requestRunCancellation => cases he; trivial
  | finishRunAndTask => obtain ⟨⟨v, rfl⟩ | rfl, _⟩ := he <;> trivial
  | finishRunAndTaskTerminal => obtain ⟨⟨v, rfl⟩ | rfl, _⟩ := he <;> trivial
  | failPrelaunchAndRequeue => obtain ⟨_, ⟨v, rfl⟩ | rfl, _⟩ := he <;> trivial
  | recoverOrphanedRuns => obtain ⟨⟨id, ⟨v, rfl⟩ | rfl⟩, _⟩ := he <;> trivial
  | recoverOrphanedRunsForRepository => obtain ⟨⟨id, ⟨v, rfl⟩ | rfl⟩, _⟩ := he <;> trivial
  | requestContinuation repository taskGid fingerprint =>
    obtain ⟨rfl, task, workspace, hgrants, rfl⟩ := he
    intro x k hx htrigger
    obtain ⟨ht, _, hrepo, hworkflow, hitem⟩ := of_continuationTarget hgrants.target
    rw [view_job ht] at hx
    cases hx
    have hk : k = (repository, deliveryWorkflow, taskGid) := by
      simp only [Task.job, Task.trigger, hitem, hrepo, hworkflow] at htrigger
      split at htrigger
      · exact (Option.some.inj htrigger).symm
      · cases htrigger
    rw [hk]
    exact not_opened_of_activeExists
      (hC repository taskGid fingerprint rfl task workspace hgrants)
  | _ => exact he.elim

/-- **At most one active task per trigger and ticket**, as long as no continuation is granted
while a delivery task of its ticket is active. -/
theorem one_active_per_trigger (crates : Crates) (calls : List Call)
    (hcalls : Ledger.empty.Meets crates
      (fun l c => c.op.enqueues = false ∧ l.RespectsActive crates c) calls) :
    (Ledger.empty.runCalls crates calls).OneActivePerTrigger := by
  have H : Exclusive Ledger.empty.view := Exclusive.initial
  have L := (sound_reachable crates []).lockstep
  exact oneActive_of_view (H.run (runCalls_runs
    (fun _ _ _ _ hC he => guarded_of_emits hC.1 hC.2 he) L hcalls))

/-- The ticket is delivered, and comes back at another revision. -/
def deliveredTwice : List Call := exampleCalls
  [exampleDaemon, examplePoll "r1" true, exampleClaim, .reserveTaskWorkspace (exampleWorkspace 1),
    exampleSuccess 1, examplePoll "r2" true]

theorem one_active_deliveredTwice :
    (Ledger.empty.runCalls exampleCrates deliveredTwice).OneActivePerTrigger := by
  refine one_active_per_trigger exampleCrates deliveredTwice ?_
  simp only [Meets, Transition.Meets, deliveredTwice, exampleCalls, List.map_cons, List.map_nil]
  refine ⟨⟨rfl, ?_⟩, ⟨rfl, ?_⟩, ⟨rfl, ?_⟩, ⟨rfl, ?_⟩, ⟨rfl, ?_⟩, ⟨rfl, ?_⟩, trivial⟩
  all_goals
    intro repository taskGid fingerprint hop
    cases hop

/-- A continuation of the first delivery is granted although the second one is queued. -/
theorem two_active_after_continuation : ¬ ∀ (crates : Crates) (calls : List Call),
    (∀ c ∈ calls, c.op.enqueues = false) →
      (Ledger.empty.runCalls crates calls).OneActivePerTrigger := by
  intro h
  have hactive := h exampleCrates (deliveredTwice ++ exampleCalls [exampleContinuation 'a']) (by decide)
    "acme/site" "implement" "101"
  revert hactive
  decide

end Ledger
end FlashyFactory
