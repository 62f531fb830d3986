import FlashyFactory.Storage.Invariants

/-! # Task identities and schedule cursors

Every insertion into `tasks` is an `INSERT OR IGNORE` on the identity, so an identity names one
task for good. The cursor of a schedule is written by two statements only: an initialization,
which may replace it, and the enqueueing of an occurrence, which compares and advances it. -/

namespace FlashyFactory
open RetryQueue (Lockstep Runs)

/-- The operation may add tasks. -/
def Op.submits : Op → Bool
  | enqueueWithPayload .. | reconcileTicketPoll .. | enqueueScheduledOccurrence .. => true
  | _ => false

namespace Ledger
variable {l l' : Ledger} {repository workflow fingerprint ownerId : String}

/-! ## One task for an identity -/

def UniqueKeys (l : Ledger) : Prop :=
  ∀ a ∈ l.tasks, ∀ b ∈ l.tasks, a.identityKey = b.identityKey → a = b

theorem UniqueKeys.congr (H : l.UniqueKeys) (h : ∀ task' ∈ l'.tasks,
      ∃ task ∈ l.tasks, task.id = task'.id ∧ task.identityKey = task'.identityKey) :
    l'.UniqueKeys := by
  intro a' ha' b' hb' hkey
  obtain ⟨a, ha, hida, hkeya⟩ := h a' ha'
  obtain ⟨b, hb, hidb, hkeyb⟩ := h b' hb'
  have hab : a = b := H a ha b hb (hkeya.trans (hkey.trans hkeyb.symm))
  exact KeyedTable.eq_of_key_eq ha' hb' (hida.symm.trans ((congrArg Task.id hab).trans hidb))

theorem UniqueKeys.insertOrIgnore {identity : TaskIdentity} (H : l.UniqueKeys) :
    (l.insertOrIgnoreTask identity payload now).2.UniqueKeys := by
  unfold insertOrIgnoreTask
  split
  · exact H
  · next hnone =>
    have hfree : ∀ task ∈ l.tasks, task.identityKey ≠ identity.key := by
      simpa [queryTaskByKey] using hnone
    intro a ha b hb hkey
    simp only [KeyedTable.mem_insertNext] at ha hb
    rcases ha with ha | rfl <;> rcases hb with hb | rfl
    · exact H a ha b hb hkey
    · exact (hfree a ha hkey).elim
    · exact (hfree b hb hkey.symm).elim
    · rfl

theorem UniqueKeys.pollObservation (H : l.UniqueKeys)
    (h : l.pollObservation host repository workflow prior i o = .ok (a, l')) : l'.UniqueKeys := by
  simp only [Ledger.pollObservation] at h
  repeat' split at h
  all_goals cases h
  all_goals first
    | exact H
    | exact H.insertOrIgnore

theorem UniqueKeys.pollObservations (H : l.UniqueKeys)
    (h : pollObservations host repository workflow prior i os l = .ok (answers, l')) :
    l'.UniqueKeys := by
  induction os generalizing i l answers with
  | nil =>
    cases h
    exact H
  | cons o os ih =>
    simp only [Ledger.pollObservations] at h
    split at h
    · cases h
    · next hone =>
      split at h
      · cases h
      · next hmany =>
        cases h
        exact ih (H.pollObservation hone) hmany

/-- An operation that adds no task leaves the known ones. -/
theorem known_step (crates : Crates) (L : Lockstep l.view) (c : Call) (hc : c.op.submits = false)
    {task' : Task} (ht : task' ∈ (l.step crates c).tasks) :
    ∃ task ∈ l.tasks, task.id = task'.id ∧ taskFacts task' = taskFacts task := by
  have hsubmits : ∀ s e, l.Emits crates c s e → ∀ j trigger, e ≠ .submit j trigger := by
    rintro s e he j trigger rfl
    obtain ⟨host, op⟩ := c
    cases op <;> simp_all [Emits, CloseEvent, RecoverEvent, Op.submits]
  have hknown : (l.view.job task'.id).isSome :=
    Runs.known ((step_runs L c).mono hsubmits) (by rw [view_job (KeyedTable.get?_of_mem ht)]; rfl)
  obtain ⟨x, hx⟩ := Option.isSome_iff_exists.mp hknown
  obtain ⟨task, htask, -⟩ := of_view_job hx
  obtain ⟨_, hkept, hfacts⟩ := (step_changes crates l c).tasks _ _ htask
  cases (KeyedTable.get?_of_mem ht).symm.trans hkept
  exact ⟨task, KeyedTable.mem_of_get? htask, KeyedTable.key_of_get? htask, hfacts⟩

theorem UniqueKeys.step (H : l.UniqueKeys) (L : Lockstep l.view) (crates : Crates) (c : Call) :
    (l.step crates c).UniqueKeys := by
  cases hc : c.op.submits with
  | false =>
    refine H.congr fun task' ht => ?_
    obtain ⟨task, ht, hid, hfacts⟩ := known_step crates L c hc ht
    exact ⟨task, ht, hid, (congrArg Prod.fst hfacts).symm⟩
  | true =>
    obtain ⟨host, op⟩ := c
    cases op with
    | enqueueWithPayload identity payload =>
      refine LedgerResult.ledger_of H fun _ _ h => ?_
      simp only [Ledger.enqueueWithPayload] at h
      repeat' split at h
      all_goals cases h
      exact H.insertOrIgnore
    | reconcileTicketPoll repository workflow os =>
      refine LedgerResult.ledger_of H fun _ _ h => ?_
      simp only [Ledger.reconcileTicketPoll] at h
      split at h
      · cases h
      · exact UniqueKeys.pollObservations (l := l.resetEligibility repository workflow) H h
    | enqueueScheduledOccurrence identity payload fingerprint due next =>
      refine LedgerResult.ledger_of H fun _ _ h => ?_
      simp only [Ledger.enqueueScheduledOccurrence] at h
      repeat' split at h
      all_goals cases h
      all_goals first
        | exact H
        | exact H.insertOrIgnore
    | _ => cases hc

theorem uniqueKeys_reachable (crates : Crates) (calls : List Call) :
    (Ledger.empty.runCalls crates calls).UniqueKeys :=
  reachable_invariant crates (fun _ ha => (KeyedTable.not_mem_empty ha).elim)
    (fun _ c L H => H.step L crates c) calls

/-! ## The cursor of a schedule -/

/-- Another daemon, with a live process and a lease, holds the schedule under the fingerprint. -/
def HeldByOther (host : Host) (l : Ledger) (repository workflow ownerId fingerprint : String) : Prop :=
  ∃ schedule ∈ l.scheduleOwners, ∃ owner ∈ l.daemonOwners,
    schedule.repository = repository ∧ schedule.workflow = workflow ∧
    schedule.fingerprint = fingerprint ∧ owner.ownerId = schedule.ownerId ∧ owner.ownerId ≠ ownerId ∧
    host.nowMillis 0 - daemonOwnerLeaseMillis ≤ owner.heartbeatAt ∧ host.processIsAlive owner.pid = true

/-- The daemon itself, with a lease, holds the schedule under the fingerprint. -/
def HeldBySelf (host : Host) (l : Ledger) (repository workflow ownerId fingerprint : String) : Prop :=
  ∃ schedule ∈ l.scheduleOwners, ∃ owner ∈ l.daemonOwners,
    schedule.repository = repository ∧ schedule.workflow = workflow ∧
    schedule.fingerprint = fingerprint ∧ schedule.ownerId = ownerId ∧ owner.ownerId = ownerId ∧
    host.nowMillis 0 - daemonOwnerLeaseMillis ≤ owner.heartbeatAt

theorem mem_liveOwnerFingerprints :
    fingerprint ∈ l.liveOwnerFingerprints host repository workflow ownerId
        (host.nowMillis 0 - daemonOwnerLeaseMillis) ↔
      l.HeldByOther host repository workflow ownerId fingerprint := by
  simp only [liveOwnerFingerprints, List.mem_filterMap, HeldByOther]
  constructor
  · rintro ⟨schedule, hschedule, h⟩
    split at h
    · cases h
    · next owner howner =>
      obtain ⟨howner, hid⟩ := KeyedTable.get?_eq_some.mp howner
      split at h
      · next hlive =>
        cases h
        simp only [Bool.and_eq_true, decide_eq_true_eq] at hlive
        obtain ⟨⟨⟨⟨hrepository, hworkflow⟩, hother⟩, hlease⟩, halive⟩ := hlive
        exact ⟨schedule, hschedule, owner, howner, hrepository, hworkflow, rfl, hid, hother, hlease,
          halive⟩
      · cases h
  · rintro ⟨schedule, hschedule, owner, howner, hrepository, hworkflow, hfingerprint, hid, hother,
      hlease, halive⟩
    refine ⟨schedule, hschedule, ?_⟩
    have hget : l.daemonOwners.get? schedule.ownerId = some owner :=
      KeyedTable.get?_eq_some.mpr ⟨howner, hid⟩
    rw [hget]
    simp [hrepository, hworkflow, hother, hlease, halive, hfingerprint]

theorem currentOwnerMatches_iff :
    l.currentOwnerMatches repository workflow ownerId fingerprint
        (host.nowMillis 0 - daemonOwnerLeaseMillis) = true ↔
      l.HeldBySelf host repository workflow ownerId fingerprint := by
  simp only [currentOwnerMatches, HeldBySelf, Bool.and_eq_true, Option.any_eq_true,
    KeyedTable.get?_eq_some, decide_eq_true_eq, ScheduleOwner.key, Prod.mk.injEq]
  constructor
  · rintro ⟨⟨schedule, ⟨hschedule, hrepository, hworkflow, hid⟩, hfingerprint⟩, owner,
      ⟨howner, hid'⟩, hlease⟩
    exact ⟨schedule, hschedule, owner, howner, hrepository, hworkflow, hfingerprint, hid, hid', hlease⟩
  · rintro ⟨schedule, hschedule, owner, howner, hrepository, hworkflow, hfingerprint, hid, hid', hlease⟩
    exact ⟨⟨schedule, ⟨hschedule, hrepository, hworkflow, hid⟩, hfingerprint⟩, owner, ⟨howner, hid'⟩,
      hlease⟩

/-- An initialization keeps the cursor, or replaces it by a later one when nobody holds it. -/
theorem initializeScheduleCursor_cases
    (h : l.initializeScheduleCursor host repository workflow fingerprint nextDueAt startupAt ownerId =
      .ok (due, l')) :
    (∃ cursor, l.scheduleCursors.get? (repository, workflow) = some cursor ∧
        cursor.fingerprint = fingerprint ∧ due = cursor.nextDueAt ∧
        l'.scheduleCursors = l.scheduleCursors) ∨
      (∀ cursor, l.scheduleCursors.get? (repository, workflow) = some cursor →
        ¬ l.HeldByOther host repository workflow ownerId cursor.fingerprint ∧
        (cursor.fingerprint = fingerprint → cursor.nextDueAt < nextDueAt ∧
          ¬ l.HeldBySelf host repository workflow ownerId fingerprint)) ∧
        due = nextDueAt ∧ l'.scheduleCursors = l.scheduleCursors.upsert
          ⟨repository, workflow, fingerprint, nextDueAt, host.nowMillis 1⟩ := by
  simp only [initializeScheduleCursor] at h
  split at h
  · cases h
  · split at h
    · cases h
    · next hafter =>
      split at h
      · cases h
      · next hother =>
        split at h
        · cases h
        · cases h
          cases hprior : l.scheduleCursors.get? (repository, workflow) with
          | none => exact .inr ⟨by simp, by simp, by simp⟩
          | some cursor =>
            rw [hprior] at hother
            simp only [Option.any_some, Bool.and_eq_true, decide_eq_true_eq, List.contains_iff_mem,
              mem_liveOwnerFingerprints] at hother
            rw [Option.filter_some]
            split
            · next hkept =>
              split at hkept
              · next hmatch =>
                cases hkept
                exact .inl ⟨cursor, rfl, of_decide_eq_true (Bool.and_eq_true_iff.mp hmatch).1, rfl, rfl⟩
              · cases hkept
            · next hnone =>
              refine .inr ⟨?_, rfl, rfl⟩
              rintro _ ⟨⟩
              split at hnone
              · cases hnone
              · next hreplaced =>
                simp only [Bool.and_eq_true, Bool.or_eq_true, decide_eq_true_eq, List.contains_iff_mem,
                  mem_liveOwnerFingerprints, currentOwnerMatches_iff, not_and, not_or] at hreplaced
                refine ⟨fun hheld => ?_, fun hsame => ?_⟩
                · by_cases hsame : cursor.fingerprint = fingerprint
                  · exact (hreplaced hsame).1.2 (hsame ▸ hheld)
                  · exact hother ⟨hsame, hheld⟩
                · exact ⟨(not_lt.mp (hreplaced hsame).1.1).trans_lt (not_le.mp hafter),
                    (hreplaced hsame).2⟩

theorem get?_advance (cursors : KeyedTable ScheduleCursor.key) (k i : String × String)
    (p : ScheduleCursor → Bool) (next now : ℤ) :
    (cursors.modify k p (fun cursor => { cursor with nextDueAt := next, updatedAt := now })
        fun _ => rfl).get? i =
      if i = k then (cursors.get? k).map fun cursor =>
        if p cursor then { cursor with nextDueAt := next, updatedAt := now } else cursor
      else cursors.get? i := KeyedTable.get?_modify

/-- An occurrence is enqueued only from a cursor that stands at it, which then moves on. -/
theorem enqueueScheduledOccurrence_cases {scheduledAt : String}
    (h : l.enqueueScheduledOccurrence crates host (.scheduled repository workflow scheduledAt) payload
      fingerprint due next = .ok (a, l')) :
    (l' = l ∧ ∀ cursor, l.scheduleCursors.get? (repository, workflow) = some cursor →
        ¬ (cursor.fingerprint = fingerprint ∧ cursor.nextDueAt = due)) ∨
      ∃ cursor, l.scheduleCursors.get? (repository, workflow) = some cursor ∧
      cursor.fingerprint = fingerprint ∧ cursor.nextDueAt = due ∧ due < next ∧
      l'.scheduleCursors.get? (repository, workflow) =
        some { cursor with nextDueAt := next, updatedAt := host.nowMillis 0 } ∧
      (∀ k, k ≠ (repository, workflow) →
        l'.scheduleCursors.get? k = l.scheduleCursors.get? k) ∧
      ∃ task ∈ l'.tasks, task.identityKey = (TaskIdentity.scheduled repository workflow scheduledAt).key := by
  simp only [enqueueScheduledOccurrence] at h
  split at h
  · cases h
  · split at h
    · cases h
    · next hafter =>
      split at h
      · cases h
      · split at h
        · next hdue =>
          cases h
          refine .inl ⟨rfl, fun cursor hcursor hat => ?_⟩
          rw [Bool.not_eq_true', ← Bool.not_eq_true, KeyedTable.hits_iff] at hdue
          exact hdue ⟨cursor, hcursor, by simpa using hat⟩
        · next hdue =>
          split at h
          · cases h
          · next task htask =>
            split at h
            · cases h
              right
              obtain ⟨cursor, hcursor, hat⟩ := KeyedTable.hits_iff.mp (by simpa using hdue)
              have hat' := hat
              simp only [Bool.and_eq_true, decide_eq_true_eq] at hat'
              have hcursors : ∀ {identity payload now},
                  (l.insertOrIgnoreTask identity payload now).2.scheduleCursors = l.scheduleCursors :=
                insertOrIgnoreTask_changes.frame .scheduleCursors (by decide)
              refine ⟨cursor, hcursor, hat'.1, hat'.2, not_le.mp hafter, ?_, fun k hk => ?_, task, ?_, ?_⟩
              · refine (get?_advance ..).trans ?_
                rw [if_pos rfl, hcursors, hcursor, Option.map_some, if_pos hat]
              · refine (get?_advance ..).trans ?_
                rw [if_neg hk, hcursors]
              · exact List.mem_of_find?_eq_some htask
              · simpa using List.find?_some htask
            · cases h

end Ledger
end FlashyFactory
