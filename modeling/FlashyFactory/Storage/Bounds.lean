import FlashyFactory.Storage.Invariants

/-! # Bounded execution

How often an agent can be started for one task: `MAX_RECOVERY_ATTEMPTS` retries for the task
itself and for each of at most three continuations. -/

namespace FlashyFactory
open RetryQueue (Chain Sound)

namespace Ledger
variable {l l' : Ledger}

def answersQueued : LedgerResult ContinuationRequest → Bool
  | .ok (.queued, _) => true
  | _ => false

/-- The call is a request for a continuation of the ticket, and its answer is `Queued`. -/
def queuesContinuation (crates : Crates) (repository taskGid : String) (l : Ledger) (c : Call) :
    Bool :=
  match c.op with
  | .requestContinuation r g fingerprint => r = repository && g = taskGid &&
    answersQueued (l.requestContinuation crates c.host r g fingerprint)
  | _ => false

/-- How many of the calls queue a continuation of the ticket. -/
def continuationsQueued (crates : Crates) (repository taskGid : String) : Ledger → List Call → ℕ
  | _, [] => 0
  | l, c :: calls => (if l.queuesContinuation crates repository taskGid c then 1 else 0) +
    continuationsQueued crates repository taskGid (l.step crates c) calls

/-- The reservations of a ticket, one for each continuation queued. -/
def reserved (l : Ledger) (repository taskGid : String) : ℕ :=
  l.continuations.rows.countP (isContinuationOf repository taskGid)

/-- Every reservation belongs to a task of its ticket, and no ticket has more than three. -/
structure ContinuationsBounded (l : Ledger) : Prop where
  owner : ∀ c ∈ l.continuations, ∃ task, l.tasks.get? c.taskId = some task ∧
    task.repository = c.repository ∧ task.sourceItem = some c.taskGid
  limit : ∀ repository taskGid, l.reserved repository taskGid ≤ 3

theorem ContinuationsBounded.of_keeps (H : ContinuationsBounded l)
    (htasks : KeyedTable.Keeps taskFacts l.tasks l'.tasks)
    (hc : l'.continuations = l.continuations) : ContinuationsBounded l' := by
  refine ⟨fun c hmem => ?_, fun repository taskGid => ?_⟩
  · obtain ⟨task, ht, hr, hs⟩ := H.owner c (hc ▸ hmem)
    obtain ⟨task', ht', hfacts⟩ := htasks _ _ ht
    simp only [taskFacts, Prod.mk.injEq] at hfacts
    exact ⟨task', ht', hfacts.2.2.1.trans hr, hfacts.2.2.2.2.1.trans hs⟩
  · rw [reserved, hc]
    exact H.limit repository taskGid

theorem reserved_insert {c : Continuation} {h : ∀ d ∈ l.continuations, d.key ≠ c.key}
    (hc : l'.continuations = l.continuations.insert c h) :
    l'.reserved repository taskGid = l.reserved repository taskGid +
      if c.repository = repository ∧ c.taskGid = taskGid then 1 else 0 := by
  rw [reserved, hc, KeyedTable.countP_insert]
  simp [reserved, isContinuationOf]

/-- One request: the reservations stay bounded, and grow by one exactly when the answer is
`Queued`. -/
theorem ContinuationsBounded.request (H : ContinuationsBounded l) {res}
    (hres : l.requestContinuation crates host r g fingerprint = res) :
    ContinuationsBounded (res.ledger l) ∧ ∀ repository taskGid,
      (res.ledger l).reserved repository taskGid = l.reserved repository taskGid +
        if r = repository ∧ g = taskGid ∧ answersQueued res = true then 1 else 0 := by
  cases res with
  | error e => exact ⟨H, fun _ _ => by simp [LedgerResult.ledger_error, answersQueued]⟩
  | ok p =>
    obtain ⟨a, l'⟩ := p
    rw [LedgerResult.ledger_ok]
    have hkept := (requestContinuation_changes hres).tasks
    obtain ⟨ha, rfl⟩ | ⟨rfl, task, workspace, hfree, hgrants, hl'⟩ := requestContinuation_cases hres
    · refine ⟨H, fun _ _ => ?_⟩
      cases a <;> simp_all [answersQueued]
    · obtain ⟨ht, _, hrepo, _, hitem⟩ := of_continuationTarget hgrants.target
      have hins : l'.continuations = l.continuations.insert _ hfree := by rw [hl']
      have hcount : ∀ repository taskGid, l'.reserved repository taskGid =
          l.reserved repository taskGid + if r = repository ∧ g = taskGid then 1 else 0 :=
        fun _ _ => reserved_insert hins
      have howner : ∀ id task, l.tasks.get? id = some task → ∃ task', l'.tasks.get? id = some task' ∧
          task'.repository = task.repository ∧ task'.sourceItem = task.sourceItem := by
        intro id task ht
        obtain ⟨task', ht', hfacts⟩ := hkept _ _ ht
        simp only [taskFacts, Prod.mk.injEq] at hfacts
        exact ⟨task', ht', hfacts.2.2.1, hfacts.2.2.2.2.1⟩
      refine ⟨⟨fun c hmem => ?_, fun repository taskGid => ?_⟩, fun repository taskGid => ?_⟩
      · rw [hins] at hmem
        rcases KeyedTable.mem_insert.mp hmem with hmem | rfl
        · obtain ⟨t, ht, hr, hs⟩ := H.owner c hmem
          obtain ⟨t', ht', hr', hs'⟩ := howner _ _ ht
          exact ⟨t', ht', hr'.trans hr, hs'.trans hs⟩
        · obtain ⟨t', ht', hr', hs'⟩ := howner _ _ ht
          exact ⟨t', ht', hr'.trans hrepo, hs'.trans hitem⟩
      · rw [hcount]
        split
        · next hkey =>
          obtain ⟨rfl, rfl⟩ := hkey
          have hbelow : l.reserved r g < 3 := hgrants.below
          omega
        · exact H.limit repository taskGid
      · simp [hcount, answersQueued]

/-- One call. -/
theorem ContinuationsBounded.step (H : ContinuationsBounded l) (crates : Crates) (c : Call) :
    ContinuationsBounded (l.step crates c) ∧ ∀ repository taskGid,
      (l.step crates c).reserved repository taskGid = l.reserved repository taskGid +
        if l.queuesContinuation crates repository taskGid c then 1 else 0 := by
  by_cases hop : .continuations ∉ c.op.writes
  · have hchanges := step_changes crates l c
    have hsame := hchanges.continuations hop
    refine ⟨H.of_keeps hchanges.tasks hsame, fun repository taskGid => ?_⟩
    have hnone : l.queuesContinuation crates repository taskGid c = false := by
      unfold queuesContinuation
      split
      · next heq => simp [heq, Op.writes] at hop
      · rfl
    simp [reserved, hsame, hnone]
  · obtain ⟨host, op⟩ := c
    cases op with
    | requestContinuation r g fingerprint =>
      obtain ⟨hbounded, hcount⟩ :=
        H.request (show l.requestContinuation crates host r g fingerprint = _ from rfl)
      refine ⟨hbounded, fun repository taskGid => (hcount repository taskGid).trans ?_⟩
      simp [queuesContinuation, and_assoc]
    | _ => simp [Op.writes] at hop

theorem ContinuationsBounded.run (crates : Crates) (calls : List Call) (H : ContinuationsBounded l) :
    ContinuationsBounded (l.runCalls crates calls) ∧ ∀ repository taskGid,
      (l.runCalls crates calls).reserved repository taskGid = l.reserved repository taskGid +
        continuationsQueued crates repository taskGid l calls := by
  induction calls generalizing l with
  | nil => exact ⟨H, fun _ _ => rfl⟩
  | cons c calls ih =>
    obtain ⟨hstep, hcount⟩ := H.step crates c
    obtain ⟨hrun, hcounts⟩ := ih hstep
    refine ⟨hrun, fun repository taskGid => ?_⟩
    have hrest := hcounts repository taskGid
    rw [hcount repository taskGid] at hrest
    simp only [continuationsQueued]
    exact hrest.trans (by omega)

theorem ContinuationsBounded.empty : ContinuationsBounded Ledger.empty :=
  ⟨fun _ h => (KeyedTable.not_mem_empty h).elim, fun _ _ => Nat.zero_le 3⟩

/-- A task has no more reservations than its ticket. -/
theorem ContinuationsBounded.resumed_le (H : ContinuationsBounded l) (j : ℕ) :
    l.view.resumed j ≤ 3 := by
  change l.continuations.rows.countP _ ≤ 3
  by_cases hsome : ∃ c ∈ l.continuations, c.taskId = j
  · obtain ⟨c, hc, rfl⟩ := hsome
    obtain ⟨task, ht, hrepo, hitem⟩ := H.owner c hc
    refine le_trans (List.countP_mono_left fun d hd hid => ?_) (H.limit c.repository c.taskGid)
    obtain ⟨task', ht', hrepo', hitem'⟩ := H.owner d hd
    rw [show d.taskId = c.taskId by simpa using hid] at ht'
    cases ht.symm.trans ht'
    have hgid : d.taskGid = c.taskGid := Option.some.inj (hitem'.symm.trans hitem)
    simp [isContinuationOf, hgid, ← hrepo', hrepo]
  · rw [List.countP_eq_zero.mpr fun d hd hid => hsome ⟨d, hd, by simpa using hid⟩]
    exact Nat.zero_le 3

/-- `source` is the run of the same task right before `run`. -/
def Precedes (l : Ledger) (source run : Run) : Prop :=
  source.taskId = run.taskId ∧ source.id < run.id ∧
    ∀ other ∈ l.runs, other.taskId = run.taskId → other.id < run.id → other.id ≤ source.id

theorem recoveryOf_iff (H : Chain maxRecoveryAttempts l.view) {run : Run} (hr : run ∈ l.runs) :
    run.recoveryOf = some p ↔ ∃ source ∈ l.runs, source.id = p ∧ l.Precedes source run ∧
      run.recoveryAttempt = source.recoveryAttempt + 1 := by
  have hattempt : ∀ run ∈ l.runs, l.view.attempt run.id = some run.attempt := fun run hr =>
    view_attempt (KeyedTable.get?_of_mem hr)
  constructor
  · intro hp
    obtain ⟨hlt, ⟨z, hz, hjob, hlevel⟩, hlast⟩ := H.link (hattempt run hr) hp
    obtain ⟨source, hs, rfl⟩ := of_view_attempt hz
    have hid := KeyedTable.key_of_get? hs
    refine ⟨source, KeyedTable.mem_of_get? hs, hid, ⟨hjob, hid ▸ hlt, fun other ho htask hbefore => ?_⟩,
      hlevel⟩
    exact hid ▸ hlast other.id other.attempt (hattempt other ho) htask hbefore
  · rintro ⟨source, hs, rfl, ⟨htask, hlt, hlast⟩, hlevel⟩
    cases hq : run.recoveryOf with
    | none =>
      have hzero : run.recoveryAttempt = 0 := H.fresh (hattempt run hr) hq
      omega
    | some q =>
      obtain ⟨hqlt, ⟨z, hz, hjob, _⟩, hqlast⟩ := H.link (hattempt run hr) hq
      obtain ⟨other, ho, rfl⟩ := of_view_attempt hz
      have hid := KeyedTable.key_of_get? ho
      have hle := hqlast source.id source.attempt (hattempt source hs) htask hlt
      have hge := hlast other (KeyedTable.mem_of_get? ho) hjob (hid ▸ hqlt)
      rw [show q = source.id by omega]

/-- **Bounded execution.** Retries form chains of at most `maxRecoveryAttempts` links through
consecutive runs of one task, without branches, and each chain starts at attempt zero; a ticket gets
at most three continuations, and so a task at most twelve runs. -/
theorem bounded_execution (crates : Crates) (calls : List Call) :
    let l := Ledger.empty.runCalls crates calls
    (∀ run ∈ l.runs, run.recoveryAttempt ≤ maxRecoveryAttempts) ∧
    (∀ run ∈ l.runs, run.recoveryOf = none → run.recoveryAttempt = 0) ∧
    (∀ run ∈ l.runs, ∀ p, run.recoveryOf = some p ↔ ∃ source ∈ l.runs, source.id = p ∧
      l.Precedes source run ∧ run.recoveryAttempt = source.recoveryAttempt + 1) ∧
    (∀ a ∈ l.runs, ∀ b ∈ l.runs, ∀ p, a.recoveryOf = some p → b.recoveryOf = some p → a = b) ∧
    (∀ taskId, l.runs.rows.countP (fun run => run.taskId = taskId) ≤
      (maxRecoveryAttempts + 1) * (1 + 3)) ∧
    ∀ repository taskGid, continuationsQueued crates repository taskGid Ledger.empty calls ≤ 3 := by
  intro l
  have H : Sound maxRecoveryAttempts l.view := sound_reachable crates calls
  obtain ⟨hbounded, hqueued⟩ := ContinuationsBounded.empty.run crates calls
  have hattempt : ∀ run ∈ l.runs, l.view.attempt run.id = some run.attempt := fun run hr =>
    view_attempt (KeyedTable.get?_of_mem hr)
  refine ⟨fun run hr => H.chain.level_le (hattempt run hr), fun run hr => H.chain.fresh (hattempt run hr),
    fun run hr p => recoveryOf_iff H.chain hr, fun a ha b hb p hp hp' => ?_, fun taskId => ?_,
      fun repository taskGid => ?_⟩
  · exact KeyedTable.eq_of_key_eq ha hb
      (H.chain.retry_unique (hattempt a ha) (hattempt b hb) hp hp')
  · have hstarted := H.budget.started_le H.lockstep H.chain taskId
    have hresumed : l.view.resumed taskId ≤ 3 := hbounded.resumed_le taskId
    calc l.runs.rows.countP (fun run => run.taskId = taskId)
        ≤ (maxRecoveryAttempts + 1) * (l.view.resumed taskId + 1) := hstarted
      _ ≤ (maxRecoveryAttempts + 1) * (1 + 3) := Nat.mul_le_mul_left _ (by omega)
  · have hlimit := hbounded.limit repository taskGid
    rw [hqueued repository taskGid] at hlimit
    exact le_trans (Nat.le_add_left _ _) hlimit

/-- A run that continues none, then one that succeeds a continuation, then its retry. -/
def continuedTwice : List Call := exampleCalls
  [exampleDaemon, examplePoll "r1" true, exampleClaim, .reserveTaskWorkspace (exampleWorkspace 1),
    exampleSuccess 1, exampleContinuation 'a', exampleClaim, exampleLaunch 2,
    .finishRunAndTask 2 .failed none none none, exampleClaim]

/-- A run of the task with one attempt less need not be the one that was retried: the attempts
start again at zero with each continuation. -/
theorem recoveryOf_not_iff_attempt : ¬ ∀ (crates : Crates) (calls : List Call),
    ∀ run ∈ (Ledger.empty.runCalls crates calls).runs, ∀ p, run.recoveryOf = some p ↔
      ∃ source ∈ (Ledger.empty.runCalls crates calls).runs, source.id = p ∧
        source.taskId = run.taskId ∧ source.id < run.id ∧
        run.recoveryAttempt = source.recoveryAttempt + 1 := by
  intro h
  have hrun : ∃ run ∈ (Ledger.empty.runCalls exampleCrates continuedTwice).runs,
      run.recoveryOf ≠ some 1 ∧ ∃ source ∈ (Ledger.empty.runCalls exampleCrates continuedTwice).runs,
        source.id = 1 ∧ source.taskId = run.taskId ∧ source.id < run.id ∧
        run.recoveryAttempt = source.recoveryAttempt + 1 := by decide
  obtain ⟨run, hr, hne, hsource⟩ := hrun
  exact hne ((h _ _ run hr 1).mpr hsource)

end Ledger
end FlashyFactory
