import FlashyFactory.Storage.TriggerEdges

/-! # Polls that observe nothing new

A poll writes down what it observes, and clears the eligibility of what it does not. A later poll
with the same observations finds them all on record: none is an edge, and the rows it writes
differ from those it finds in their time only. -/

namespace FlashyFactory

/-- The row without its time. -/
def TriggerObservation.untimed (row : TriggerObservation) : TriggerObservation :=
  { row with observedAt := 0 }

/-- The row that a poll of the trigger writes for `o`, without its time. -/
def ObservedTicket.row (repository workflow : String) (o : ObservedTicket) : TriggerObservation :=
  ⟨repository, workflow, o.sourceItem, o.revision, o.eligible, o.payload, 0⟩

namespace Ledger
variable {l l' : Ledger} {repository workflow item : String}
variable {prior : String → Option (Bool × String)} {os : List ObservedTicket}

/-- The row of the ticket, up to `observed_at`. -/
def sighting (l : Ledger) (repository workflow item : String) : Option TriggerObservation :=
  (l.triggerObservations.get? (repository, workflow, item)).map TriggerObservation.untimed

/-- The rows of the trigger say what `os` says: those of `os` are on record, and whatever else is
on record is not eligible. -/
structure Reflects (l : Ledger) (repository workflow : String) (os : List ObservedTicket) : Prop where
  seen : ∀ o ∈ os, l.sighting repository workflow o.sourceItem = some (o.row repository workflow)
  unseen : ∀ item, (∀ o ∈ os, o.sourceItem ≠ item) →
    ∀ row, l.sighting repository workflow item = some row → row.eligible = false

/-- Every poll of the trigger makes the observations `os`. -/
def Repeats (repository workflow : String) (os : List ObservedTicket) (c : Call) : Prop :=
  ∀ os', c.op = .reconcileTicketPoll repository workflow os' → os' = os

/-! ## What a poll leaves on record -/

theorem pollObservation_sighting
    (h : l.pollObservation host repository workflow prior i o = .ok (a, l')) :
    l'.sighting repository workflow item =
      if item = o.sourceItem then some (o.row repository workflow)
      else l.sighting repository workflow item := by
  rw [sighting, pollObservation_get? h]
  by_cases hitem : item = o.sourceItem
  · rw [if_pos (by rw [hitem]), if_pos hitem]
    rfl
  · rw [if_neg (by simpa using hitem), if_neg hitem]
    rfl

theorem pollObservations_sighting (hdistinct : (os.map ObservedTicket.sourceItem).Nodup)
    (h : pollObservations host repository workflow prior i os l = .ok (answers, l')) :
    (∀ o ∈ os, l'.sighting repository workflow o.sourceItem = some (o.row repository workflow)) ∧
      ∀ item, (∀ o ∈ os, o.sourceItem ≠ item) →
        l'.sighting repository workflow item = l.sighting repository workflow item := by
  induction os generalizing i l answers with
  | nil =>
    cases h
    exact ⟨nofun, fun _ _ => rfl⟩
  | cons o os ih =>
    simp only [pollObservations] at h
    split at h
    · cases h
    · next hone =>
      split at h
      · cases h
      · next hmany =>
        cases h
        obtain ⟨hfresh, hdistinct⟩ := List.nodup_cons.mp hdistinct
        obtain ⟨hseen, hunseen⟩ := ih hdistinct hmany
        have hother : ∀ p ∈ os, p.sourceItem ≠ o.sourceItem := fun p hp heq =>
          hfresh (heq ▸ List.mem_map_of_mem hp)
        refine ⟨List.forall_mem_cons.mpr ⟨?_, hseen⟩, fun item hitem => ?_⟩
        · rw [hunseen _ hother, pollObservation_sighting hone, if_pos rfl]
        · obtain ⟨hne, hitem⟩ := List.forall_mem_cons.mp hitem
          rw [hunseen item hitem, pollObservation_sighting hone, if_neg (Ne.symm hne)]

theorem resetEligibility_sighting : (l.resetEligibility repository workflow).sighting repository workflow
    item = (l.sighting repository workflow item).map fun row => { row with eligible := false } := by
  rw [sighting, resetEligibility_get?, sighting, Option.map_map, Option.map_map]
  cases hrow : l.triggerObservations.get? (repository, workflow, item) with
  | none => rfl
  | some row =>
    have hkey := KeyedTable.key_of_get? hrow
    simp only [TriggerObservation.key, Prod.mk.injEq] at hkey
    simp [hkey.1, hkey.2.1, TriggerObservation.untimed]

/-- A poll leaves on record what it observed. -/
theorem reflects_of_poll (hdistinct : (os.map ObservedTicket.sourceItem).Nodup)
    (h : l.reconcileTicketPoll host repository workflow os = .ok (answers, l')) :
    l'.Reflects repository workflow os := by
  simp only [reconcileTicketPoll] at h
  split at h
  · cases h
  · obtain ⟨hseen, hunseen⟩ := pollObservations_sighting hdistinct h
    refine ⟨hseen, fun item hitem row hrow => ?_⟩
    rw [hunseen item hitem, resetEligibility_sighting] at hrow
    obtain ⟨_, _, rfl⟩ := Option.map_eq_some_iff.mp hrow
    rfl

/-! ## A poll that repeats the observations -/

/-- Nothing on record is an edge. -/
theorem Reflects.not_edge (H : l.Reflects repository workflow os) (ho : o ∈ os) :
    isEdge (l.priorObservation repository workflow o.sourceItem) o = false := by
  obtain ⟨row, hrow, huntimed⟩ := Option.map_eq_some_iff.mp (H.seen o ho)
  simp only [TriggerObservation.untimed, ObservedTicket.row, TriggerObservation.mk.injEq] at huntimed
  obtain ⟨-, -, -, hrevision, heligible, -⟩ := huntimed
  cases ho : o.eligible with
  | false => simp [isEdge, ho]
  | true => simp [isEdge, priorObservation, hrow, hrevision, heligible, ho]

/-- An observation that is no edge writes its row and nothing else. -/
theorem pollObservation_noEdge (hedge : isEdge (prior o.sourceItem) o = false)
    (h : l.pollObservation host repository workflow prior i o = .ok (first, l')) :
    first = none ∧ l'.tasks = l.tasks := by
  simp only [pollObservation, hedge] at h
  split at h
  · cases h
  · cases h
    exact ⟨rfl, rfl⟩

theorem pollObservations_noEdge (hedge : ∀ o ∈ os, isEdge (prior o.sourceItem) o = false)
    (h : pollObservations host repository workflow prior i os l = .ok (answers, l')) :
    answers = [] ∧ l'.tasks = l.tasks := by
  induction os generalizing i l answers with
  | nil =>
    cases h
    exact ⟨rfl, rfl⟩
  | cons o os ih =>
    obtain ⟨hnone, hedge⟩ := List.forall_mem_cons.mp hedge
    simp only [pollObservations] at h
    split at h
    · cases h
    · next hone =>
      split at h
      · cases h
      · next hmany =>
        cases h
        obtain ⟨rfl, hfirst⟩ := pollObservation_noEdge hnone hone
        obtain ⟨rfl, htasks⟩ := ih hedge hmany
        exact ⟨rfl, htasks.trans hfirst⟩

theorem Reflects.sighting_eq (H : l.Reflects repository workflow os)
    (H' : l'.Reflects repository workflow os)
    (hunseen : ∀ item, (∀ o ∈ os, o.sourceItem ≠ item) → l'.sighting repository workflow item =
      (l.sighting repository workflow item).map fun row => { row with eligible := false })
    (item : String) : l'.sighting repository workflow item = l.sighting repository workflow item := by
  by_cases hitem : ∀ o ∈ os, o.sourceItem ≠ item
  · rw [hunseen item hitem]
    cases hrow : l.sighting repository workflow item with
    | none => rfl
    | some row =>
      have heligible : row.eligible = false := H.unseen item hitem row hrow
      rw [Option.map_some, ← heligible]
  · push Not at hitem
    obtain ⟨o, ho, rfl⟩ := hitem
    rw [H.seen o ho, H'.seen o ho]

/-- What a poll does when everything it observes is on record: nothing. -/
theorem Reflects.poll (H : l.Reflects repository workflow os)
    (hdistinct : (os.map ObservedTicket.sourceItem).Nodup)
    (h : l.reconcileTicketPoll host repository workflow os = .ok (answers, l')) :
    answers = [] ∧ l'.tasks = l.tasks ∧
      ∀ item, l'.sighting repository workflow item = l.sighting repository workflow item := by
  have H' := reflects_of_poll hdistinct h
  simp only [reconcileTicketPoll] at h
  split at h
  · cases h
  · obtain ⟨rfl, htasks⟩ := pollObservations_noEdge (fun o ho => H.not_edge ho) h
    refine ⟨rfl, htasks, H.sighting_eq H' fun item hitem => ?_⟩
    rw [(pollObservations_sighting hdistinct h).2 item hitem, resetEligibility_sighting]

/-! ## Runs -/

/-- The rows of the trigger say what `os` says, and what they said in `l₀`. -/
def StillReflects (l₀ : Ledger) (repository workflow : String) (os : List ObservedTicket)
    (l : Ledger) : Prop :=
  l.Reflects repository workflow os ∧
    ∀ item, l.sighting repository workflow item = l₀.sighting repository workflow item

theorem StillReflects.congr {l₀ : Ledger} (H : StillReflects l₀ repository workflow os l)
    (h : ∀ item, l'.sighting repository workflow item = l.sighting repository workflow item) :
    StillReflects l₀ repository workflow os l' :=
  ⟨⟨fun o ho => (h _).trans (H.1.seen o ho), fun item hitem row hrow =>
    H.1.unseen item hitem row ((h item).symm.trans hrow)⟩, fun item => (h item).trans (H.2 item)⟩

theorem StillReflects.step {l₀ : Ledger} (H : StillReflects l₀ repository workflow os l)
    (hdistinct : (os.map ObservedTicket.sourceItem).Nodup) (crates : Crates)
    (hc : Repeats repository workflow os c) :
    StillReflects l₀ repository workflow os (l.step crates c) := by
  by_cases hop : .triggerObservations ∉ c.op.writes
  · refine H.congr fun item => ?_
    rw [sighting, (step_changes crates l c).triggerObservations hop, sighting]
  · obtain ⟨host, op⟩ := c
    cases op with
    | reconcileTicketPoll r w os' =>
      refine LedgerResult.ledger_of (P := StillReflects l₀ repository workflow os) H
        fun answers l' h => ?_
      by_cases hne : r = repository ∧ w = workflow
      · obtain ⟨rfl, rfl⟩ := hne
        cases hc os' rfl
        exact H.congr (H.1.poll hdistinct h).2.2
      · refine H.congr fun item => ?_
        rw [sighting, reconcileTicketPoll_get?_other hne h, sighting]
    | _ => simp [Op.writes] at hop

/-- **An unchanged match creates no second task.** After a poll of a trigger, and whatever other
calls are made, another poll with the same observations answers no task, leaves the tasks as they
are, and leaves the rows of the trigger as the first poll left them, up to their time. -/
theorem unchanged_match_creates_no_task (crates : Crates) (before : List Call) (host : Host)
    (repository workflow : String) (os : List ObservedTicket) (answers : List EnqueuedTask) (l : Ledger)
    (hdistinct : (os.map ObservedTicket.sourceItem).Nodup)
    (hpoll : (Ledger.empty.runCalls crates before).reconcileTicketPoll host repository workflow os =
      .ok (answers, l))
    (calls : List Call) (hcalls : ∀ c ∈ calls, Repeats repository workflow os c) :
    (∀ item, (l.runCalls crates calls).sighting repository workflow item =
      l.sighting repository workflow item) ∧
    ∀ host' answers' l',
      (l.runCalls crates calls).reconcileTicketPoll host' repository workflow os = .ok (answers', l') →
      answers' = [] ∧ l'.tasks = (l.runCalls crates calls).tasks ∧
        ∀ item, l'.sighting repository workflow item = l.sighting repository workflow item := by
  have hstart : StillReflects l repository workflow os l :=
    ⟨reflects_of_poll hdistinct hpoll, fun _ => rfl⟩
  have hrun : StillReflects l repository workflow os (l.runCalls crates calls) :=
    Transition.Meets.invariant (P := StillReflects l repository workflow os)
      (fun _ _ H hc => H.step hdistinct crates hc) (Transition.Meets.of_mem hcalls) hstart
  refine ⟨hrun.2, fun host' answers' l' h => ?_⟩
  obtain ⟨hanswers, htasks, hrows⟩ := hrun.1.poll hdistinct h
  exact ⟨hanswers, htasks, fun item => (hrows item).trans (hrun.2 item)⟩

/-- The ticket is delivered in between, and the next poll still sees it at `r1`. -/
theorem unchanged_match_deliveredAtR1 :
    ∃ answers l', reconcileTicketPoll exampleHost
      ((Ledger.empty.runCalls exampleCrates (exampleCalls [examplePoll "r1" true])).runCalls
        exampleCrates (exampleCalls [exampleDaemon, exampleClaim, exampleSuccess 1]))
      "acme/site" "implement" [⟨"101", "r1", true, examplePayload⟩] = .ok (answers, l') ∧
      answers = [] := by
  refine ⟨_, _, rfl, ?_⟩
  exact ((unchanged_match_creates_no_task exampleCrates [] exampleHost "acme/site" "implement"
    [⟨"101", "r1", true, examplePayload⟩] _ _ (by decide) rfl
    (exampleCalls [exampleDaemon, exampleClaim, exampleSuccess 1])
    (by simp [exampleCalls, Repeats, exampleDaemon, exampleClaim, exampleSuccess])).2 exampleHost
    _ _ rfl).1

end Ledger
end FlashyFactory
