import FlashyFactory.Storage.TriggerPoll
import FlashyFactory.Storage.Rows

/-! # An edge that meets an active task

A poll creates no task while one of the trigger is active, but it records what it observed all
the same. The next poll then finds the ticket eligible at its revision, which is no edge. -/

namespace FlashyFactory
namespace Ledger
variable {l l' : Ledger} {repository workflow item revision : String}
variable {prior : String → Option (Bool × String)}

/-- The observations see the ticket, and always eligible and at the revision. -/
structure Watches (item revision : String) (os : List ObservedTicket) : Prop where
  seen : ∃ o ∈ os, o.sourceItem = item
  same : ∀ o ∈ os, o.sourceItem = item → o.eligible = true ∧ o.revision = revision

/-- A poll of the trigger sees the ticket eligible and at the revision. -/
def KeepsWatching (repository workflow item revision : String) (c : Call) : Prop :=
  ∀ os, c.op = .reconcileTicketPoll repository workflow os → Watches item revision os

/-- The last observation on record is eligible and at the revision. -/
def OnRecord (l : Ledger) (repository workflow item revision : String) : Prop :=
  ∃ row, l.triggerObservations.get? (repository, workflow, item) = some row ∧
    row.eligible = true ∧ row.revision = revision

/-! ## What a poll records -/

theorem pollObservation_get? (h : l.pollObservation host repository workflow prior i o = .ok (a, l')) :
    l'.triggerObservations.get? k =
      if k = (repository, workflow, o.sourceItem) then
        some ⟨repository, workflow, o.sourceItem, o.revision, o.eligible, o.payload,
          host.nowMillis (2 * i + 1)⟩
      else l.triggerObservations.get? k := by
  have hstore : ∀ l : Ledger, (l.storeObservation repository workflow o
      (host.nowMillis (2 * i + 1))).triggerObservations.get? k =
        if k = (repository, workflow, o.sourceItem) then _ else l.triggerObservations.get? k :=
    fun l => KeyedTable.get?_upsert
  simp only [pollObservation] at h
  repeat' split at h
  all_goals cases h
  all_goals rw [hstore]
  rw [insertOrIgnoreTask_changes.triggerObservations (by decide)]

theorem pollObservations_onRecord (hsame : ∀ o ∈ os, o.sourceItem = item →
      o.eligible = true ∧ o.revision = revision)
    (h : pollObservations host repository workflow prior i os l = .ok (answers, l'))
    (hrecord : l.OnRecord repository workflow item revision ∨ ∃ o ∈ os, o.sourceItem = item) :
    l'.OnRecord repository workflow item revision := by
  induction os generalizing i l answers with
  | nil =>
    cases h
    simpa using hrecord
  | cons o os ih =>
    simp only [pollObservations] at h
    split at h
    · cases h
    · next hone =>
      split at h
      · cases h
      · next hmany =>
        cases h
        refine ih (fun p hp => hsame p (List.mem_cons_of_mem _ hp)) hmany ?_
        by_cases hitem : o.sourceItem = item
        · obtain ⟨heligible, hrevision⟩ := hsame o List.mem_cons_self hitem
          exact .inl ⟨_, by rw [pollObservation_get? hone, hitem, if_pos rfl], heligible, hrevision⟩
        · rcases hrecord with ⟨row, hrow, hfacts⟩ | ⟨p, hp, hpitem⟩
          · refine .inl ⟨row, ?_, hfacts⟩
            rw [pollObservation_get? hone, if_neg, hrow]
            simpa using Ne.symm hitem
          · rcases List.mem_cons.mp hp with rfl | hp
            · exact (hitem hpitem).elim
            · exact .inr ⟨p, hp, hpitem⟩

/-- A poll of the trigger that sees the ticket records it. -/
theorem onRecord_of_poll (hwatch : Watches item revision os)
    (h : l.reconcileTicketPoll host repository workflow os = .ok (answers, l')) :
    l'.OnRecord repository workflow item revision := by
  simp only [reconcileTicketPoll] at h
  split at h
  · cases h
  · exact pollObservations_onRecord hwatch.same h (.inr hwatch.seen)

theorem pollObservations_get?_other (hne : ¬ (r = repository ∧ w = workflow))
    (h : pollObservations host r w prior i os l = .ok (answers, l')) :
    l'.triggerObservations.get? (repository, workflow, item) =
      l.triggerObservations.get? (repository, workflow, item) := by
  induction os generalizing i l answers with
  | nil =>
    cases h
    rfl
  | cons o os ih =>
    simp only [pollObservations] at h
    split at h
    · cases h
    · next hone =>
      split at h
      · cases h
      · next hmany =>
        cases h
        rw [ih hmany, pollObservation_get? hone, if_neg]
        simp only [Prod.mk.injEq, not_and]
        exact fun hr hw => (hne ⟨hr.symm, hw.symm⟩).elim

theorem resetEligibility_get? : (l.resetEligibility r w).triggerObservations.get? k =
    (l.triggerObservations.get? k).map fun o =>
      if o.repository = r && o.workflow = w then { o with eligible := false } else o := by
  apply KeyedTable.get?_modifyWhere
  exact fun _ => rfl

/-- The polls of other triggers leave the rows alone. -/
theorem reconcileTicketPoll_get?_other (hne : ¬ (r = repository ∧ w = workflow))
    (h : l.reconcileTicketPoll host r w os = .ok (answers, l')) :
    l'.triggerObservations.get? (repository, workflow, item) =
      l.triggerObservations.get? (repository, workflow, item) := by
  simp only [reconcileTicketPoll] at h
  split at h
  · cases h
  · rw [pollObservations_get?_other hne h, resetEligibility_get?]
    cases hrow : l.triggerObservations.get? (repository, workflow, item) with
    | none => rfl
    | some row =>
      have hkey := KeyedTable.key_of_get? hrow
      simp only [TriggerObservation.key, Prod.mk.injEq] at hkey
      rw [Option.map_some, if_neg]
      rw [hkey.1, hkey.2.1]
      simp only [Bool.and_eq_true, decide_eq_true_eq]
      exact fun heq => hne ⟨heq.1.symm, heq.2.symm⟩

theorem OnRecord.other_poll (H : l.OnRecord repository workflow item revision)
    (hne : ¬ (r = repository ∧ w = workflow))
    (h : l.reconcileTicketPoll host r w os = .ok (answers, l')) :
    l'.OnRecord repository workflow item revision := by
  obtain ⟨row, hrow, hfacts⟩ := H
  exact ⟨row, by rw [reconcileTicketPoll_get?_other hne h, hrow], hfacts⟩

/-! ## Runs -/

theorem OnRecord.step (H : l.OnRecord repository workflow item revision) (crates : Crates)
    (hc : KeepsWatching repository workflow item revision c) :
    (l.step crates c).OnRecord repository workflow item revision := by
  by_cases hop : .triggerObservations ∉ c.op.writes
  · obtain ⟨row, hrow, hfacts⟩ := H
    exact ⟨row, by rw [(step_changes crates l c).triggerObservations hop, hrow], hfacts⟩
  · obtain ⟨host, op⟩ := c
    cases op with
    | reconcileTicketPoll r w os =>
      refine LedgerResult.ledger_of (P := (OnRecord · repository workflow item revision)) H
        fun answers l' h => ?_
      by_cases hne : r = repository ∧ w = workflow
      · obtain ⟨rfl, rfl⟩ := hne
        exact onRecord_of_poll (hc os rfl) h
      · exact H.other_poll hne h
    | _ => simp [Op.writes] at hop

theorem OnRecord.run (H : l.OnRecord repository workflow item revision) (crates : Crates)
    (hcalls : l.Meets crates (fun _ c => KeepsWatching repository workflow item revision c) calls) :
    (l.runCalls crates calls).OnRecord repository workflow item revision :=
  Transition.Meets.invariant (P := (OnRecord · repository workflow item revision))
    (fun _ _ H hc => H.step crates hc) hcalls H

/-- What is on record is no edge. -/
theorem OnRecord.not_edge (H : l.OnRecord repository workflow item revision)
    (hwatch : Watches item revision os) (ho : o ∈ os) (hitem : o.sourceItem = item) :
    isEdge (l.priorObservation repository workflow o.sourceItem) o = false := by
  obtain ⟨row, hrow, heligible, hrevision⟩ := H
  simp [isEdge, priorObservation, hitem, hrow, heligible, hrevision, (hwatch.same o ho hitem).2]

theorem pollObservations_nonblank
    (h : pollObservations host repository workflow prior i os l = .ok (answers, l')) :
    ∀ o ∈ os, isBlank o.sourceItem = false ∧ isBlank o.revision = false := by
  induction os generalizing i l answers with
  | nil => exact nofun
  | cons o os ih =>
    simp only [pollObservations] at h
    split at h
    · cases h
    · next hone =>
      split at h
      · cases h
      · next hmany =>
        cases h
        refine List.forall_mem_cons.mpr ⟨?_, ih hmany⟩
        simp only [pollObservation] at hone
        split at hone
        · cases hone
        · next hblank => simpa using hblank

/-- A poll creates no task for a ticket that is on record. -/
theorem OnRecord.not_queuesOne (H : l.OnRecord repository workflow item revision)
    (hwatch : Watches item revision os) :
    ¬ l.QueuesOne repository workflow item (l.reconcileTicketPoll host repository workflow os) := by
  rintro ⟨answers, l', task, h, -, hrows, -⟩
  simp only [reconcileTicketPoll] at h
  split at h
  · cases h
  · next hkey =>
    obtain ⟨hrepository, hworkflow⟩ : isBlank repository = false ∧ isBlank workflow = false := by
      simpa using hkey
    obtain ⟨_, _, new, hrun, hpolled, -⟩ := pollObservations_polled host
      (l.priorObservation repository workflow) 0 (l.resetEligibility repository workflow) hrepository
      hworkflow (pollObservations_nonblank h)
    cases h.symm.trans hrun
    have hnew := hpolled.rows_for item
    change l'.tasks.rows.filter (fun t => (l.tasks.get? t.id).isNone && _) = _ at hnew
    rw [hrows] at hnew
    have htask : task ∈ new.filter fun task => task.sourceItem = some item :=
      hnew ▸ List.mem_singleton_self task
    obtain ⟨hmem, hitem⟩ := List.mem_filter.mp htask
    obtain ⟨o, ho, hedge, rev, now, id, rfl⟩ := hpolled.queued task hmem
    have hitem : o.sourceItem = item := by
      simpa [queuedTask, TaskIdentity.sourceItem] using hitem
    rw [H.not_edge hwatch ho hitem] at hedge
    cases hedge

/-! ## The lost edge -/

/-- The poll observes an edge of the ticket while a task of its trigger is active. -/
structure EdgeWhileActive (l : Ledger) (host : Host) (repository workflow : String)
    (os : List ObservedTicket) (o : ObservedTicket) (l' : Ledger) : Prop where
  observed : o ∈ os
  watches : Watches o.sourceItem o.revision os
  rearmed : l.Rearmed repository workflow o
  active : l.activeExists repository workflow o.sourceItem = true
  polled : ∃ answers, l.reconcileTicketPoll host repository workflow os = .ok (answers, l')

/-- **An edge that meets an active task is lost.** As long as the ticket stays eligible at the
revision of that edge, no later poll creates a task for it, whatever becomes of the active one. -/
theorem edge_lost (crates : Crates) (before after : List Call) (host host' : Host)
    (repository workflow : String) (os os' : List ObservedTicket) (o : ObservedTicket) (l : Ledger)
    (hedge : (Ledger.empty.runCalls crates before).EdgeWhileActive host repository workflow os o l)
    (hafter : l.Meets crates
      (fun _ c => KeepsWatching repository workflow o.sourceItem o.revision c) after)
    (hwatch : Watches o.sourceItem o.revision os') :
    ¬ (l.runCalls crates after).QueuesOne repository workflow o.sourceItem
      ((l.runCalls crates after).reconcileTicketPoll host' repository workflow os') := by
  obtain ⟨answers, hpoll⟩ := hedge.polled
  exact ((onRecord_of_poll hedge.watches hpoll).run crates hafter).not_queuesOne hwatch

/-- The ticket was claimed at `r1`. -/
def claimedAtR1 : List Call := exampleCalls [exampleDaemon, examplePoll "r1" true, exampleClaim]

/-- A poll then saw it at `r2`. -/
def polledAtR2 : Ledger :=
  Ledger.empty.runCalls exampleCrates (claimedAtR1 ++ exampleCalls [examplePoll "r2" true])

theorem edgeWhileActive_polledAtR2 :
    (Ledger.empty.runCalls exampleCrates claimedAtR1).EdgeWhileActive exampleHost "acme/site"
      "implement" [⟨"101", "r2", true, examplePayload⟩] ⟨"101", "r2", true, examplePayload⟩
      polledAtR2 where
  observed := List.mem_singleton_self _
  watches := ⟨⟨_, List.mem_singleton_self _, rfl⟩, by decide⟩
  rearmed row hrow := by
    right
    revert row
    decide
  active := by decide
  polled := ⟨[], rfl⟩

theorem edge_lost_r2 : ¬ (polledAtR2.runCalls exampleCrates
    (exampleCalls [exampleSuccess 1])).QueuesOne "acme/site" "implement" "101"
      ((polledAtR2.runCalls exampleCrates (exampleCalls [exampleSuccess 1])).reconcileTicketPoll
        exampleHost "acme/site" "implement" [⟨"101", "r2", true, examplePayload⟩]) :=
  edge_lost exampleCrates claimedAtR1 (exampleCalls [exampleSuccess 1]) exampleHost exampleHost
    "acme/site" "implement" _ [⟨"101", "r2", true, examplePayload⟩] ⟨"101", "r2", true, examplePayload⟩
    polledAtR2 edgeWhileActive_polledAtR2 ⟨nofun, trivial⟩
    ⟨⟨_, List.mem_singleton_self _, rfl⟩, by decide⟩

/-- The first delivery ends, and the change to `r2` is never acted on. -/
theorem edge_not_acted_on : ¬ ∀ (crates : Crates) (before after : List Call) (host host' : Host)
    (repository workflow : String) (os os' : List ObservedTicket) (o : ObservedTicket) (l : Ledger),
    (Ledger.empty.runCalls crates before).EdgeWhileActive host repository workflow os o l →
    l.Meets crates (fun _ c => KeepsWatching repository workflow o.sourceItem o.revision c) after →
    (l.runCalls crates after).activeExists repository workflow o.sourceItem = false →
    Watches o.sourceItem o.revision os' →
    (l.runCalls crates after).QueuesOne repository workflow o.sourceItem
      ((l.runCalls crates after).reconcileTicketPoll host' repository workflow os') := by
  intro h
  have hwatch : Watches "101" "r2" [⟨"101", "r2", true, examplePayload⟩] :=
    ⟨⟨_, List.mem_singleton_self _, rfl⟩, by decide⟩
  have hafter : polledAtR2.Meets exampleCrates (fun _ c => KeepsWatching "acme/site" "implement"
    "101" "r2" c) (exampleCalls [exampleSuccess 1]) := ⟨nofun, trivial⟩
  obtain ⟨answers, hpoll⟩ := edgeWhileActive_polledAtR2.polled
  have hrecord := (onRecord_of_poll hwatch hpoll).run exampleCrates hafter
  exact hrecord.not_queuesOne hwatch (h exampleCrates claimedAtR1 _ exampleHost exampleHost _ _ _ _ _
    polledAtR2 edgeWhileActive_polledAtR2 hafter (by decide) hwatch)

end Ledger
end FlashyFactory
