import FlashyFactory.Storage.Queue

/-! # Every call is a run of the queue

One lemma for each operation that writes tasks, runs or continuations, and `Ledger.step_runs` over
all of them. The lemmas say which events of the queue an operation can cause; those with a guard
in the source (the active check of a poll, the cancellation flag where a run is closed) say that
the guard held when the event happened. -/

namespace FlashyFactory
open RetryQueue (Phase Verdict Job Attempt State Event Runs Lockstep Step)

/-- The trigger of the task that an identity creates. -/
def TaskIdentity.trigger : TaskIdentity → Option Trigger
  | ticket repository workflow item _ => some (repository, workflow, item)
  | scheduled _ _ _ => none

namespace Ledger
variable {l l' : Ledger} {id limit : ℕ} {C : State Trigger → Event Trigger → Prop}

theorem queuedTask_job {identity : TaskIdentity} :
    (queuedTask identity payload now n).job = ⟨identity.trigger, .waiting, none⟩ := by
  cases identity <;> rfl

theorem insertOrIgnoreTask_runs {identity : TaskIdentity}
    (hC : C l.view (.submit l.tasks.nextId identity.trigger)) :
    Runs limit C l.view (l.insertOrIgnoreTask identity payload now).2.view := by
  unfold insertOrIgnoreTask
  split
  · exact .refl
  · have hfree : l.view.job l.tasks.nextId = none := by simp [view]
    rw [view_insertTask, queuedTask_job]
    exact .single hC (.submit hfree)

theorem enqueueWithPayload_runs {identity : TaskIdentity}
    (h : l.enqueueWithPayload host identity payload = .ok (a, l'))
    (hC : C l.view (.submit l.tasks.nextId identity.trigger)) : Runs limit C l.view l'.view := by
  simp only [enqueueWithPayload] at h
  split at h
  · cases h
  · split at h
    · cases h
    · cases h
      exact insertOrIgnoreTask_runs hC

theorem enqueueScheduledOccurrence_runs
    (h : l.enqueueScheduledOccurrence crates host identity payload fingerprint due next = .ok (a, l'))
    (hC : C l.view (.submit l.tasks.nextId none)) : Runs limit C l.view l'.view := by
  simp only [enqueueScheduledOccurrence] at h
  repeat' split at h
  all_goals first
    | cases h; done
    | (cases h; exact .refl)
    | (cases h; exact insertOrIgnoreTask_runs (by exact hC))

/-! ## Polls -/

/-- The active check of a poll sees every open job of the trigger. -/
theorem not_opened_of_activeExists (h : l.activeExists repository workflow item = false) :
    ¬ l.view.Opened (repository, workflow, item) := by
  rintro ⟨j, x, hx, htrigger, hopen⟩
  obtain ⟨task, ht, rfl⟩ := of_view_job hx
  have hmem := KeyedTable.mem_of_get? ht
  have hstate : task.state = .queued ∨ task.state = .running := by
    simpa [Task.job, Phase.IsOpen] using hopen
  simp only [Task.job, Task.trigger] at htrigger
  split at htrigger
  · obtain ⟨i, hi, heq⟩ := Option.map_eq_some_iff.mp htrigger
    cases heq
    have := List.any_eq_false.mp h task hmem
    simp [hi] at this
    rcases hstate with hs | hs <;> simp [hs] at this
  · cases htrigger

theorem storeObservation_view : (l.storeObservation repository workflow o now).view = l.view := rfl

theorem resetEligibility_view : (l.resetEligibility repository workflow).view = l.view := rfl

/-- What a poll of the trigger `(repository, workflow)` can do to the queue. -/
def PollEvent (repository workflow : String) (s : State Trigger) (e : Event Trigger) : Prop :=
  ∃ j item, e = .submit j (some (repository, workflow, item)) ∧
    ¬ s.Opened (repository, workflow, item)

theorem pollObservation_runs
    (h : l.pollObservation host repository workflow prior i o = .ok (a, l')) :
    Runs limit (PollEvent repository workflow) l.view l'.view := by
  simp only [pollObservation] at h
  split at h
  · cases h
  · split at h
    · split at h
      · cases h
      · split at h
        · cases h
          exact .refl
        · next hactive =>
          split at h
          · cases h
          · cases h
            rw [storeObservation_view]
            exact insertOrIgnoreTask_runs
              ⟨_, _, rfl, not_opened_of_activeExists (by simpa using hactive)⟩
    · cases h
      exact .refl

theorem pollObservations_runs
    (h : pollObservations host repository workflow prior i os l = .ok (a, l')) :
    Runs limit (PollEvent repository workflow) l.view l'.view := by
  induction os generalizing i l a with
  | nil =>
    cases h
    exact .refl
  | cons o os ih =>
    simp only [pollObservations] at h
    split at h
    · cases h
    · next hfirst =>
      split at h
      · cases h
      · next hrest =>
        cases h
        exact (pollObservation_runs hfirst).trans (ih hrest)

theorem reconcileTicketPoll_runs
    (h : l.reconcileTicketPoll host repository workflow os = .ok (a, l')) :
    Runs limit (PollEvent repository workflow) l.view l'.view := by
  simp only [reconcileTicketPoll] at h
  split at h
  · cases h
  · rw [← resetEligibility_view]
    exact pollObservations_runs h

/-! ## Running runs -/

theorem updateRunning_view {set : Run → Run} {hset : ∀ run, (set run).id = run.id}
    (h : l.updateRunning id set e hset = .ok (a, l')) (hs : ∀ run, (set run).attempt = run.attempt) :
    l'.view = l.view := by
  simp only [updateRunning] at h
  split at h
  · cases h
    exact view_modifyRuns hs
  · cases h

theorem requestRunCancellation_runs (h : l.requestRunCancellation host id = .ok (a, l'))
    (hC : C l.view (.cancel id)) : Runs limit C l.view l'.view := by
  simp only [requestRunCancellation] at h
  split at h
  · cases h
    exact .refl
  · next run hrun =>
    split at h
    · cases h
      exact .refl
    · next ho =>
      split at h
      · cases h
        exact .refl
      · next hnone =>
        split at h
        · cases h
          exact .refl
        · split at h
          · cases h
          · cases h
            have ho : run.outcome = .running := not_not.mp ho
            have hp : isCancellable run = true := by
              simpa [isCancellable, isRunning, ho] using hnone
            rw [view_cancel hrun hp]
            exact .single hC (.cancel (view_attempt hrun) (by simpa [Run.attempt] using ho))

/-! ## Closing a run -/

/-- A run that ends together with its task. -/
theorem close_finish {hf : ∀ run, (f run).id = run.id} {hg : ∀ task, (g task).id = task.id}
    (H : Lockstep l.view) (hr : l.runs.get? id = some run) (ho : run.outcome = .running)
    (hattempt : ∀ run, (f run).attempt = { run.attempt with verdict := some v })
    (hjob : ∀ task, (g task).job = { task.job with phase := .done v }) :
    Step limit l.view (.finish id v)
      (({ l with runs := l.runs.modify id isRunning f hf } : Ledger).updateRunningTask run.taskId g
        hg).view := by
  obtain ⟨task, ht, hs⟩ := running_task H hr ho
  rw [view_close hr ho ht hs fun run => congrArg Attempt.job (hattempt run), hattempt, hjob]
  exact .finish (view_attempt hr) (by simpa [Run.attempt] using ho) (view_job ht)
    (by simpa [Task.job] using hs)

/-- A run that fails and puts its task back on the queue. -/
theorem close_requeue {hf : ∀ run, (f run).id = run.id} (H : Lockstep l.view)
    (hr : l.runs.get? id = some run) (ho : run.outcome = .running)
    (hlevel : run.recoveryAttempt < limit)
    (hattempt : ∀ run, (f run).attempt = { run.attempt with verdict := some .failed }) :
    Step limit l.view (.requeue id)
      (({ l with runs := l.runs.modify id isRunning f hf } : Ledger).updateRunningTask run.taskId
        (requeued id now) requeued_id).view := by
  obtain ⟨task, ht, hs⟩ := running_task H hr ho
  rw [view_close hr ho ht hs fun run => congrArg Attempt.job (hattempt run), hattempt]
  exact .requeue (view_attempt hr) (by simpa [Run.attempt] using ho) (view_job ht)
    (by simpa [Task.job] using hs) hlevel

/-- An outcome other than `running` and its task state say the same. -/
theorem taskStateFor_phase (h : o ≠ .running) :
    ∃ v, RunOutcome.verdict o = some v ∧ (taskStateFor o).phase = .done v := by
  cases o with
  | running => exact (h rfl).elim
  | succeeded => exact ⟨_, rfl, rfl⟩
  | failed => exact ⟨_, rfl, rfl⟩
  | cancelled => exact ⟨_, rfl, rfl⟩

theorem closeOutcome_ne_running (run : Run) (h : ¬ o = .running) : closeOutcome run o ≠ .running := by
  unfold closeOutcome
  split
  · exact nofun
  · exact h

/-- What closing the run `id` can do to the queue. -/
def CloseEvent (id : ℕ) (e : Event Trigger) : Prop := (∃ v, e = .finish id v) ∨ e = .requeue id

theorem failPrelaunchAndRequeue_runs (H : Lockstep l.view)
    (h : l.failPrelaunchAndRequeue crates host id error = .ok (a, l'))
    (hC : ∀ run, l.runs.get? id = some run → run.outcome = .running → run.processId = none →
      ∀ e, CloseEvent id e → C l.view e) : Runs maxRecoveryAttempts C l.view l'.view := by
  simp only [failPrelaunchAndRequeue] at h
  split at h
  · cases h
  · next run hrun =>
    obtain ⟨hr, hp⟩ := Option.filter_eq_some_iff.mp hrun
    have ho : run.outcome = .running := by simpa [isRunning] using (Bool.and_eq_true_iff.mp hp).1
    have hC := hC run hr ho (by simpa using (Bool.and_eq_true_iff.mp hp).2)
    split at h
    · cases h
    · split at h
      · cases h
      · split at h
        · cases h
        · cases h
          split
          · next hlevel =>
            exact .single (hC _ (.inr rfl)) (close_requeue H hr ho hlevel fun _ => rfl)
          · exact .single (hC _ (.inl ⟨_, rfl⟩))
              (close_finish H hr ho (fun _ => rfl) fun _ => rfl)

theorem finishRunAndTaskWithRecovery_runs (H : Lockstep l.view)
    (h : l.finishRunAndTaskWithRecovery crates host id outcome result error sessionId allow =
      .ok (a, l')) (hC : ∀ e, CloseEvent id e → (∀ b, e.Honours b l.view) → C l.view e) :
    Runs maxRecoveryAttempts C l.view l'.view := by
  simp only [finishRunAndTaskWithRecovery] at h
  split at h
  · cases h
  · next houtcome =>
    split at h
    · cases h
    · next run hrun =>
      obtain ⟨hr, hp⟩ := Option.filter_eq_some_iff.mp hrun
      have ho : run.outcome = .running := by simpa [isRunning] using hp
      have hy : ∀ y, l.view.attempt id = some y → y = run.attempt := fun y hy =>
        Option.some.inj (hy.symm.trans (view_attempt hr))
      split at h
      · cases h
      · split at h
        · cases h
        · split at h
          · cases h
          · cases h
            split
            · next hretry =>
              simp only [retryRecovery, Bool.and_eq_true, decide_eq_true_eq] at hretry
              obtain ⟨⟨⟨⟨_, hfailed⟩, _⟩, hlevel⟩, hnone⟩ := hretry
              refine .single (hC _ (.inr rfl) ?_) (close_requeue H hr ho hlevel ?_)
              · rintro b rfl y hattempt
                cases hy y hattempt
                simpa [Run.attempt] using hnone
              · intro r
                simp only [completed, Run.attempt, hfailed, RunOutcome.verdict]
            · obtain ⟨v, hv, hphase⟩ := taskStateFor_phase (closeOutcome_ne_running run houtcome)
              refine .single (hC _ (.inl ⟨v, rfl⟩) ?_) (close_finish H hr ho ?_ ?_)
              · rintro b rfl y hattempt hcancelling
                cases hy y hattempt
                have hcancelling : run.cancellationRequestedAt.isSome = true := hcancelling
                rw [closeOutcome, if_pos hcancelling] at hv
                exact (Option.some.inj hv).symm
              · intro r
                simp only [completed, Run.attempt, hv]
              · intro task
                simp only [Task.job, ended, hphase]
                rfl

/-! ## Orphan recovery -/

/-- What the recovery of orphans can do to the queue. -/
def RecoverEvent (s : State Trigger) (e : Event Trigger) : Prop :=
  (∃ id, CloseEvent id e) ∧ ∀ b, e.Honours b s

theorem closeOrphan_runs (H : Lockstep l.view) (hr : l.runs.get? run.id = some run)
    (ho : run.outcome = .running) :
    Runs maxRecoveryAttempts RecoverEvent l.view (l.closeOrphan run now report).2.view := by
  have hy : ∀ y, l.view.attempt run.id = some y → y = run.attempt := fun y hy =>
    Option.some.inj (hy.symm.trans (view_attempt hr))
  unfold closeOrphan
  split
  · next hcancelled =>
    refine .single (e := .finish run.id .cancelled) ⟨⟨_, .inl ⟨_, rfl⟩⟩, ?_⟩
      (close_finish H hr ho ?_ fun _ => rfl)
    · rintro b rfl y _ _
      rfl
    · intro r
      simp only [orphanClosed, closeOutcome, if_pos hcancelled]
      rfl
  · next hnone =>
    have hfailed : ∀ r, (orphanClosed run now r).attempt = { r.attempt with verdict := some .failed } := by
      intro r
      simp only [orphanClosed, closeOutcome, if_neg hnone]
      rfl
    have hhonours : ∀ y, l.view.attempt run.id = some y → y.cancelling = false := by
      intro y hattempt
      cases hy y hattempt
      simpa [Run.attempt] using hnone
    split
    · next hlevel =>
      refine .single ⟨⟨run.id, .inr rfl⟩, ?_⟩ (close_requeue H hr ho hlevel hfailed)
      rintro b rfl y hattempt
      exact hhonours y hattempt
    · refine .single ⟨⟨run.id, .inl ⟨_, rfl⟩⟩, ?_⟩ (close_finish H hr ho hfailed fun _ => rfl)
      rintro b rfl y hattempt hcancelling
      cases (hhonours y hattempt).symm.trans hcancelling

theorem recoverRun_runs (H : Lockstep l.view) (hr : l.runs.get? run.id = some run)
    (ho : run.outcome = .running)
    (h : l.recoverRun host repository cutoff now run report = .ok (a, l')) :
    Runs maxRecoveryAttempts RecoverEvent l.view l'.view := by
  simp only [recoverRun] at h
  split at h
  · cases h
    exact .refl
  · split at h
    · cases h
      exact .of_eq (view_modifyRuns fun _ => rfl)
    · split at h
      · cases h
      · obtain rfl : (l.closeOrphan run now report).2 = l' := congrArg Prod.snd (Except.ok.inj h)
        exact closeOrphan_runs H hr ho

theorem closeOrphan_get? (hi : i ≠ run.id) :
    (l.closeOrphan run now report).2.runs.get? i = l.runs.get? i := by
  have hmodify : (l.runs.modify run.id isRunning (orphanClosed run now) orphanClosed_id).get? i =
      l.runs.get? i := KeyedTable.get?_modify_ne hi
  unfold closeOrphan
  split
  · exact hmodify
  · split <;> exact hmodify

/-- Recovering a run touches the row of no other run. -/
theorem recoverRun_get? (h : l.recoverRun host repository cutoff now run report = .ok (a, l'))
    (hi : i ≠ run.id) : l'.runs.get? i = l.runs.get? i := by
  simp only [recoverRun] at h
  split at h
  · cases h
    rfl
  · split at h
    · cases h
      simp only [KeyedTable.get?_modify_ne hi]
    · split at h
      · cases h
      · obtain rfl : (l.closeOrphan run now report).2 = l' := congrArg Prod.snd (Except.ok.inj h)
        exact closeOrphan_get? hi

/-- The loop over the snapshot `active`: a row changes only when its own turn comes. -/
theorem recoverRuns_runs (H : Lockstep l.view)
    (hsnap : ∀ run ∈ active, l.runs.get? run.id = some run ∧ run.outcome = .running)
    (hnodup : (active.map Run.id).Nodup)
    (h : recoverRuns host repository cutoff i active report l = .ok (a, l')) :
    Runs maxRecoveryAttempts RecoverEvent l.view l'.view := by
  induction active generalizing i report l with
  | nil =>
    cases h
    exact .refl
  | cons run active ih =>
    obtain ⟨hr, ho⟩ := hsnap run List.mem_cons_self
    obtain ⟨hfresh, hnodup⟩ := List.nodup_cons.mp hnodup
    simp only [recoverRuns] at h
    split at h
    · cases h
    · next hone =>
      have hfirst := recoverRun_runs H hr ho hone
      refine hfirst.trans (ih (H.run hfirst) (fun r hmem => ?_) hnodup h)
      have hne : r.id ≠ run.id := fun heq => hfresh (heq ▸ List.mem_map_of_mem hmem)
      rw [recoverRun_get? hone hne]
      exact hsnap r (List.mem_cons_of_mem _ hmem)

theorem mem_activeRuns : run ∈ l.activeRuns ↔ run ∈ l.runs ∧ run.outcome = .running := by
  simp [activeRuns, (List.perm_insertionSort _ _).mem_iff, isRunning]

theorem nodup_activeRuns : (l.activeRuns.map Run.id).Nodup := by
  refine ((List.perm_insertionSort _ _).map Run.id).nodup_iff.mpr ?_
  exact (List.filter_sublist.map Run.id).nodup l.runs.nodup

theorem recoverOrphanedRunsMatching_runs (H : Lockstep l.view)
    (h : l.recoverOrphanedRunsMatching host repository = .ok (a, l')) :
    Runs maxRecoveryAttempts RecoverEvent l.view l'.view :=
  recoverRuns_runs H (fun _ hr => have hr := mem_activeRuns.mp hr
    ⟨KeyedTable.get?_of_mem hr.1, hr.2⟩) nodup_activeRuns h

/-! ## Claims -/

theorem mem_claimCandidates {task : Task} :
    task ∈ l.claimCandidates ↔ task ∈ l.tasks ∧ task.state = .queued := by
  simp [claimCandidates, (List.perm_insertionSort _ _).mem_iff]

/-- The attempt counter that a claim writes is the level of the run in its retry chain. -/
theorem levelAfter_of_nextRecoveryAttempt (h : l.nextRecoveryAttempt source = some n) :
    l.view.levelAfter source = n := by
  cases source with
  | none =>
    cases h
    rfl
  | some p =>
    obtain ⟨run, hr, rfl⟩ := Option.map_eq_some_iff.mp h
    simp [State.levelAfter, view_attempt hr, Run.attempt]

theorem startClaimedRun_runs {task : Task} (ht : l.tasks.get? task.id = some task)
    (h : l.startClaimedRun task runtime now ownerId ownerPid dirs = .ok (a, l'))
    (hC : ∀ j b, C l.view (.start j b)) : Runs limit C l.view l'.view := by
  simp only [startClaimedRun] at h
  split at h
  · cases h
  · next hhits =>
    have hqueued : task.state = .queued := by
      obtain ⟨t, ht', hs⟩ := KeyedTable.hits_iff.mp (by simpa using hhits)
      cases ht.symm.trans ht'
      simpa using hs
    split at h
    · cases h
    · next n hn =>
      split at h
      · cases h
      · split at h
        · cases h
        · split at h
          · cases h
            have hfresh : ∀ b y, l.view.attempt b = some y → b < l.runs.nextId := by
              intro b y hb
              obtain ⟨run, hr, _⟩ := of_view_attempt hb
              exact KeyedTable.key_of_get? hr ▸ KeyedTable.lt_nextId (KeyedTable.mem_of_get? hr)
            have hstart : Step limit l.view _ _ := Step.start (view_job ht)
              (by simpa [Task.job] using hqueued) hfresh
            have hlevel : l.view.levelAfter task.job.retryOf = n :=
              levelAfter_of_nextRecoveryAttempt hn
            rw [hlevel] at hstart
            rw [view_claim ht (by simpa using hqueued) rfl]
            exact .single (hC _ _) hstart
          · cases h
          · cases h

theorem claimAndStartRun_runs
    (h : l.claimAndStartRunWithWorkdirsFiltered crates host available runtimes ownerId ownerPid dirs
      allowNew = .ok (a, l')) (hC : ∀ j b, C l.view (.start j b)) : Runs limit C l.view l'.view := by
  simp only [claimAndStartRunWithWorkdirsFiltered] at h
  split at h
  · cases h
    exact .refl
  · split at h
    · cases h
    · split at h
      · cases h
        exact .refl
      · next task hfind =>
        split at h
        · cases h
        · have hmem := mem_claimCandidates.mp (List.mem_of_find?_eq_some hfind)
          exact startClaimedRun_runs (KeyedTable.get?_of_mem hmem.1) h hC

/-! ## Continuations -/

/-- The target of a continuation is a delivery task of the ticket, with its workspace. -/
theorem of_continuationTarget (h : l.continuationTarget repository taskGid = some (task, workspace)) :
    l.tasks.get? task.id = some task ∧ l.taskWorkspaces.get? task.id = some workspace ∧
      task.repository = repository ∧ task.workflow = deliveryWorkflow ∧
      task.sourceItem = some taskGid := by
  have hmem := List.mem_of_mem_head? (Option.mem_def.mpr h)
  rw [(List.perm_insertionSort _ _).mem_iff, List.mem_filterMap] at hmem
  obtain ⟨t, ht, hbind⟩ := hmem
  obtain ⟨w, hw, hif⟩ := Option.bind_eq_some_iff.mp hbind
  split at hif
  · next hcond =>
    cases hif
    simp only [Bool.and_eq_true, decide_eq_true_eq] at hcond
    exact ⟨KeyedTable.get?_of_mem ht, hw, hcond.1.1, hcond.1.2, hcond.2⟩
  · cases hif

/-- The request gets past every check of `request_continuation`. -/
structure Grants (crates : Crates) (l : Ledger) (repository taskGid fingerprint : String) (task : Task)
    (workspace : TaskWorkspace) : Prop where
  valid : validPullRequestEventKey repository taskGid fingerprint = true
  unreserved : l.continuations.get? (repository, taskGid, fingerprint) = none
  target : l.continuationTarget repository taskGid = some (task, workspace)
  guard : continuable crates task workspace = true
  below : l.continuations.rows.countP (isContinuationOf repository taskGid) < 3

/-- A request is answered `Queued` exactly when it is granted; every other answer leaves the
ledger as it was, the reservation over the limit included. -/
theorem requestContinuation_cases
    (h : l.requestContinuation crates host repository taskGid fingerprint = .ok (a, l')) :
    (a ≠ .queued ∧ l' = l) ∨ a = .queued ∧ ∃ task workspace hfree,
      l.Grants crates repository taskGid fingerprint task workspace ∧
        l' = { l with
          continuations := l.continuations.insert
            ⟨repository, taskGid, fingerprint, task.id, host.nowMillis 0⟩ hfree
          tasks := l.tasks.modify task.id (fun t => t.state = .succeeded) fun t =>
            { t with state := .queued, updatedAt := host.nowMillis 1 } } := by
  simp only [requestContinuation] at h
  split at h
  · cases h
  · next hvalid =>
    split at h
    · cases h
      exact .inl ⟨by simp, rfl⟩
    · next hfree =>
      split at h
      · cases h
        exact .inl ⟨by simp, rfl⟩
      · next task workspace htarget =>
        split at h
        · cases h
          exact .inl ⟨by simp, rfl⟩
        · next hguard =>
          split at h
          · cases h
            refine .inl ⟨by simp, ?_⟩
            rw [KeyedTable.eraseWhere_insert]
            · simp [isContinuationOf]
            · intro c hc
              have hkey := KeyedTable.get?_eq_none.mp hfree c hc
              simpa [isContinuationOf, Continuation.key, and_assoc] using hkey
          · next hlimit =>
            cases h
            refine .inr ⟨rfl, task, workspace, _, ⟨?_, hfree, htarget, ?_, ?_⟩, rfl⟩
            · simpa using hvalid
            · simpa using hguard
            · rw [KeyedTable.countP_insert] at hlimit
              simp only [isContinuationOf, decide_true, Bool.and_self, if_true] at hlimit ⊢
              omega

theorem Grants.succeeded {task : Task} (h : l.Grants crates repository taskGid fingerprint task ws) :
    task.state = .succeeded := by
  have hguard := h.guard
  simp only [continuable, Bool.and_eq_true, decide_eq_true_eq] at hguard
  exact hguard.1.1.1.2

theorem requestContinuation_runs
    (h : l.requestContinuation crates host repository taskGid fingerprint = .ok (a, l'))
    (hC : ∀ task workspace, l.Grants crates repository taskGid fingerprint task workspace →
      C l.view (.resume task.id)) : Runs limit C l.view l'.view := by
  obtain ⟨_, rfl⟩ | ⟨_, task, workspace, hfree, hgrants, rfl⟩ := requestContinuation_cases h
  · exact .refl
  · have ht := (of_continuationTarget hgrants.target).1
    rw [view_resume ht (by simpa using hgrants.succeeded) rfl]
    exact .single (hC _ _ hgrants) (.resume (view_job ht) (by simpa [Task.job] using hgrants.succeeded))

/-! ## All calls -/

/-- The events of the queue that a call on the ledger `l` can cause, in the states where it can
cause them. -/
def Emits (crates : Crates) (l : Ledger) (c : Call) (s : State Trigger) (e : Event Trigger) : Prop :=
  match c.op with
  | .enqueueWithPayload identity _ => ∃ j, e = .submit j identity.trigger
  | .enqueueScheduledOccurrence .. => ∃ j, e = .submit j none
  | .reconcileTicketPoll repository workflow _ => PollEvent repository workflow s e
  | .claimAndStartRunWithWorkdirsFiltered .. => ∃ j a, e = .start j a
  | .requestRunCancellation id => e = .cancel id
  | .finishRunAndTask id .. | .finishRunAndTaskTerminal id .. =>
    CloseEvent id e ∧ ∀ b, e.Honours b s
  | .failPrelaunchAndRequeue id _ => s = l.view ∧ CloseEvent id e ∧
    ∃ run, l.runs.get? id = some run ∧ run.outcome = .running ∧ run.processId = none
  | .recoverOrphanedRuns | .recoverOrphanedRunsForRepository _ => RecoverEvent s e
  | .requestContinuation repository taskGid fingerprint => s = l.view ∧ ∃ task workspace,
    l.Grants crates repository taskGid fingerprint task workspace ∧ e = .resume task.id
  | _ => False

theorem runs_ledger {r : LedgerResult α}
    (hok : ∀ a l', r = .ok (a, l') → Runs limit C l.view l'.view) :
    Runs limit C l.view (r.ledger l).view :=
  LedgerResult.ledger_of (P := fun l' => Runs limit C l.view l'.view) .refl hok

/-- **Every call is a run of the queue.** -/
theorem step_runs (H : Lockstep l.view) (c : Call) :
    Runs maxRecoveryAttempts (l.Emits crates c) l.view (l.step crates c).view := by
  obtain ⟨host, op⟩ := c
  cases op with
  | enqueueWithPayload identity payload =>
    exact runs_ledger fun _ _ h => enqueueWithPayload_runs h ⟨_, rfl⟩
  | reconcileTicketPoll repository workflow observations =>
    exact runs_ledger fun _ _ h => reconcileTicketPoll_runs h
  | registerDaemonOwner ownerId pid =>
    refine runs_ledger fun _ _ h => ?_
    simp only [registerDaemonOwner] at h
    split at h <;> cases h
    exact .refl
  | heartbeatDaemonOwner ownerId =>
    refine runs_ledger fun _ _ h => ?_
    simp only [heartbeatDaemonOwner] at h
    split at h <;> cases h
    exact .refl
  | removeDaemonOwner ownerId => exact .refl
  | initializeScheduleCursor repository workflow fingerprint nextDueAt startupAt ownerId =>
    refine runs_ledger fun _ _ h => ?_
    simp only [initializeScheduleCursor] at h
    repeat' split at h
    all_goals cases h
    all_goals exact .refl
  | enqueueScheduledOccurrence identity payload fingerprint expectedDueAt nextDueAt =>
    exact runs_ledger fun _ _ h => enqueueScheduledOccurrence_runs h ⟨_, rfl⟩
  | claimAndStartRunWithWorkdirsFiltered available runtimes ownerId ownerPid dirs allowNew =>
    exact runs_ledger fun _ _ h => claimAndStartRun_runs h fun _ _ => ⟨_, _, rfl⟩
  | setRunAgentProfile runId profile model reasoningEffort serviceTier =>
    refine runs_ledger fun _ _ h => ?_
    simp only [setRunAgentProfile] at h
    split at h
    · cases h
    · exact .of_eq (updateRunning_view h fun _ => rfl)
  | recordRunWorkspace runId dir baseBranch baseSha factoryBranch kind =>
    exact runs_ledger fun _ _ h => .of_eq (updateRunning_view h fun _ => rfl)
  | observeRun id processId processIdentity sessionId pullRequest activity =>
    refine runs_ledger fun _ _ h => ?_
    simp only [observeRun] at h
    split at h
    · cases h
    · exact .of_eq (updateRunning_view h fun _ => rfl)
  | resetRunRuntimeObservation id =>
    exact runs_ledger fun _ _ h => .of_eq (updateRunning_view h fun _ => rfl)
  | requestRunCancellation id =>
    exact runs_ledger fun _ _ h => requestRunCancellation_runs h rfl
  | finishRunAndTask id outcome result error sessionId =>
    exact runs_ledger fun _ _ h =>
      finishRunAndTaskWithRecovery_runs H h fun _ hclose hhonours => ⟨hclose, hhonours⟩
  | finishRunAndTaskTerminal id outcome result error sessionId =>
    exact runs_ledger fun _ _ h =>
      finishRunAndTaskWithRecovery_runs H h fun _ hclose hhonours => ⟨hclose, hhonours⟩
  | failPrelaunchAndRequeue id error =>
    exact runs_ledger fun _ _ h => failPrelaunchAndRequeue_runs H h
      fun run hr ho hp _ hclose => ⟨rfl, hclose, run, hr, ho, hp⟩
  | recoverOrphanedRuns =>
    exact runs_ledger fun _ _ h => recoverOrphanedRunsMatching_runs H h
  | recoverOrphanedRunsForRepository repository =>
    refine runs_ledger fun _ _ h => ?_
    simp only [recoverOrphanedRunsForRepository] at h
    split at h
    · cases h
    · exact recoverOrphanedRunsMatching_runs H h
  | reserveTaskWorkspace workspace =>
    refine runs_ledger fun _ _ h => ?_
    simp only [reserveTaskWorkspace] at h
    repeat' split at h
    all_goals cases h
    all_goals exact .refl
  | updateTaskWorkspaceState taskId state statusSummary =>
    refine runs_ledger fun _ _ h => ?_
    simp only [updateTaskWorkspaceState] at h
    repeat' split at h
    all_goals cases h
    all_goals exact .refl
  | recordRunSandbox sandbox =>
    refine runs_ledger fun _ _ h => ?_
    simp only [recordRunSandbox] at h
    repeat' split at h
    all_goals cases h
    exact .refl
  | finishRunSandbox runId state exitCode logs removed =>
    refine runs_ledger fun _ _ h => ?_
    simp only [finishRunSandbox] at h
    split at h <;> cases h
    exact .refl
  | requestContinuation repository taskGid fingerprint =>
    exact runs_ledger fun _ _ h => requestContinuation_runs h
      fun task workspace hgrants => ⟨rfl, task, workspace, hgrants, rfl⟩

end Ledger
end FlashyFactory
