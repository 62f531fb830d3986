import FlashyFactory.Storage.Schedules
import FlashyFactory.Storage.TriggerPoll

/-! # The identities of tasks

Each row of `tasks` belongs to one identity, which its key determines, so the constraint on
`identity_key` ignores an insertion exactly when the identical trigger has its row. -/

namespace FlashyFactory
open RetryQueue (Lockstep)

/-- The row is the one of this identity. -/
structure Task.IsOf (task : Task) (identity : TaskIdentity) : Prop where
  identityKey : task.identityKey = identity.key
  kind : task.kind = identity.kind
  repository : task.repository = identity.repository
  workflow : task.workflow = identity.workflow
  sourceItem : task.sourceItem = identity.sourceItem

theorem Task.IsOf.congr {task task' : Task} (h : task.IsOf identity)
    (hfacts : Ledger.taskFacts task' = Ledger.taskFacts task) : task'.IsOf identity := by
  simp only [Ledger.taskFacts, Prod.mk.injEq] at hfacts
  obtain ⟨hkey, hkind, hrepository, hworkflow, hitem, -, -⟩ := hfacts
  exact ⟨hkey.trans h.identityKey, hkind.trans h.kind, hrepository.trans h.repository,
    hworkflow.trans h.workflow, hitem.trans h.sourceItem⟩

theorem Task.IsOf.unique {task : Task} (h : task.IsOf a) (h' : task.IsOf b) : a = b :=
  TaskIdentity.key_injective (h.identityKey.symm.trans h'.identityKey)

namespace Ledger
variable {l l' : Ledger} {identity : TaskIdentity}

theorem queuedTask_isOf : (queuedTask identity payload now n).IsOf identity := ⟨rfl, rfl, rfl, rfl, rfl⟩

def Identified (l : Ledger) : Prop := ∀ task ∈ l.tasks, ∃ identity, task.IsOf identity

theorem Identified.insertOrIgnore (H : l.Identified) :
    (l.insertOrIgnoreTask identity payload now).2.Identified := by
  unfold insertOrIgnoreTask
  split
  · exact H
  · intro task ht
    simp only [KeyedTable.mem_insertNext] at ht
    rcases ht with ht | rfl
    · exact H task ht
    · exact ⟨identity, queuedTask_isOf⟩

theorem Identified.pollObservation (H : l.Identified)
    (h : l.pollObservation host repository workflow prior i o = .ok (a, l')) : l'.Identified := by
  simp only [Ledger.pollObservation] at h
  repeat' split at h
  all_goals cases h
  all_goals first
    | exact H
    | exact H.insertOrIgnore

theorem Identified.pollObservations (H : l.Identified)
    (h : pollObservations host repository workflow prior i os l = .ok (answers, l')) :
    l'.Identified := by
  induction os generalizing i l answers with
  | nil =>
    cases h
    exact H
  | cons o os ih =>
    simp only [Ledger.pollObservations] at h
    split at h
    · cases h
    next hone =>
    split at h
    · cases h
    next hmany =>
    cases h
    exact ih (H.pollObservation hone) hmany

theorem Identified.step (H : l.Identified) (L : Lockstep l.view) (crates : Crates) (c : Call) :
    (l.step crates c).Identified := by
  cases hc : c.op.submits with
  | false =>
    intro task' ht
    obtain ⟨task, htask, -, hfacts⟩ := known_step crates L c hc ht
    obtain ⟨identity, hof⟩ := H task htask
    exact ⟨identity, hof.congr hfacts⟩
  | true =>
    obtain ⟨host, op⟩ := c
    cases op with
    | enqueueWithPayload identity payload =>
      refine LedgerResult.ledger_of H fun _ _ h => ?_
      simp only [Ledger.enqueueWithPayload] at h
      repeat' split at h
      all_goals cases h
      exact H.insertOrIgnore
    | reconcileTicketPoll repository workflow os =>
      refine LedgerResult.ledger_of H fun _ _ h => ?_
      simp only [Ledger.reconcileTicketPoll] at h
      split at h
      · cases h
      · exact Identified.pollObservations (l := l.resetEligibility repository workflow) H h
    | enqueueScheduledOccurrence identity payload fingerprint due next =>
      refine LedgerResult.ledger_of H fun _ _ h => ?_
      simp only [Ledger.enqueueScheduledOccurrence] at h
      repeat' split at h
      all_goals cases h
      all_goals first
        | exact H
        | exact H.insertOrIgnore
    | _ => cases hc

theorem identified_reachable (crates : Crates) (calls : List Call) :
    (Ledger.empty.runCalls crates calls).Identified :=
  reachable_invariant crates (fun _ ha => (KeyedTable.not_mem_empty ha).elim)
    (fun _ c L H => H.step L crates c) calls

theorem insertOrIgnoreTask_eq_true_iff (H : l.Identified) :
    (l.insertOrIgnoreTask identity payload now).1 = true ↔ ∀ task ∈ l.tasks, ¬ task.IsOf identity := by
  have hkey : (l.queryTaskByKey identity.key).isSome = false ↔
      ∀ task ∈ l.tasks, task.identityKey ≠ identity.key := by
    simp [queryTaskByKey]
  have hiff : (l.insertOrIgnoreTask identity payload now).1 = true ↔
      (l.queryTaskByKey identity.key).isSome = false := by
    unfold insertOrIgnoreTask
    split <;> simp_all
  rw [hiff, hkey]
  refine forall₂_congr fun task ht => not_congr ⟨fun h => ?_, Task.IsOf.identityKey⟩
  obtain ⟨other, hother⟩ := H task ht
  cases TaskIdentity.key_injective (h.symm.trans hother.identityKey)
  exact hother

/-- The constraint on `identity_key` ignores the identical triggers, and no others. -/
structure Deduplicates (l : Ledger) : Prop where
  identity : ∀ task ∈ l.tasks, ∃! identity, task.IsOf identity
  row : ∀ identity, {task | task ∈ l.tasks ∧ task.IsOf identity}.Subsingleton
  ignores : ∀ identity payload now, (l.insertOrIgnoreTask identity payload now).1 = false ↔
    ∃ task ∈ l.tasks, task.IsOf identity

/-- **Keys never collide**: equal keys are keys of one identity, so every ledger that calls produce
deduplicates exactly the identical triggers. -/
theorem identity_keys_deduplicate :
    (∀ a b : TaskIdentity, a.key = b.key ↔ a = b) ∧
    ∀ (crates : Crates) (calls : List Call), (Ledger.empty.runCalls crates calls).Deduplicates := by
  refine ⟨fun a b => TaskIdentity.key_injective.eq_iff, fun crates calls => ⟨fun task ht => ?_,
    fun identity a ⟨ha, hofa⟩ b ⟨hb, hofb⟩ => ?_, fun identity payload now => ?_⟩⟩
  · obtain ⟨identity, hof⟩ := identified_reachable crates calls task ht
    exact ⟨identity, hof, fun _ hother => hother.unique hof⟩
  · exact uniqueKeys_reachable crates calls a ha b hb (hofa.identityKey.trans hofb.identityKey.symm)
  · rw [← not_iff_not, Bool.not_eq_false,
      insertOrIgnoreTask_eq_true_iff (identified_reachable crates calls)]
    simp only [not_exists, not_and]

end Ledger
end FlashyFactory
