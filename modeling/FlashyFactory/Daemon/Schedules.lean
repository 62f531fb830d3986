import FlashyFactory.Storage.Schedules

/-! # The schedules of a daemon

`initialize_schedules_with_policy` and `evaluate_schedule` of `daemon.rs`. Every daemon runs both
every second, on a ledger that it shares with the others. Instants are milliseconds. -/

namespace FlashyFactory

/-- The crate `cron`: an expression in its timezone. -/
structure CronSchedule where
  /-- The first occurrence after an instant. -/
  after : ℤ → Option ℤ
  includes : ℤ → Bool

/-- The crate `chrono`. -/
structure Chrono where
  /-- `to_rfc3339_opts(SecondsFormat::Secs, true)`. -/
  toRfc3339 : ℤ → String
  /-- `DateTime::from_timestamp` is `Some`. -/
  inRange : ℤ → Bool

/-- A workflow with a schedule, of a repository. -/
structure ScheduleTrigger where
  repository : String
  workflow : String
  /-- `Schedule::from_str` of its expression. -/
  schedule : Option CronSchedule
  /-- `scheduled_workflow_fingerprint`. -/
  fingerprint : Except String String

structure ScheduledTarget where
  repository : String
  workflow : String
  schedule : CronSchedule
  fingerprint : String
  nextDue : ℤ

/-- The first of `n` minutes from `probe` on, up to `scanUntil`, that the schedule includes. -/
def CronSchedule.firstIncluded (schedule : CronSchedule) (scanUntil : ℤ) : ℕ → ℤ → Option ℤ
  | 0, _ => none
  | n + 1, probe =>
    if probe ≤ scanUntil then
      if schedule.includes probe then some probe
      else schedule.firstIncluded scanUntil n (probe + 60000)
    else none

def nextOccurrence (chrono : Chrono) (schedule : CronSchedule) (after : ℤ) : Except String ℤ :=
  match schedule.after after with
  | none => .error "schedule has no future occurrence"
  | some candidate =>
    let scanUntil := min candidate (after + 3 * 60 * 60000)
    let nextMinute := (after / 1000 / 60 + 1) * 60 * 1000
    if chrono.inRange nextMinute then
      .ok ((schedule.firstIncluded scanUntil ((scanUntil - nextMinute) / 60000 + 1).toNat
        nextMinute).getD candidate)
    else .error "schedule cursor exceeds the supported time range"

/-- `i64::MIN`. -/
def i64Min : ℤ := -9223372036854775808

/-- One turn of the loop of `initialize_schedules_with_policy`, with the ledger it leaves. -/
def ScheduleTrigger.initializeSchedule (chrono : Chrono) (host : Host) (trigger : ScheduleTrigger)
    (startupAt : ℤ) (ownerId : String) (preserveExistingDue : Bool) (l : Ledger) :
    Except String ScheduledTarget × Ledger :=
  match trigger.schedule with
  | none => (.error "validated cron schedule could not be parsed", l)
  | some schedule =>
    match nextOccurrence chrono schedule startupAt with
    | .error e => (.error e, l)
    | .ok calculated =>
      match trigger.fingerprint with
      | .error e => (.error e, l)
      | .ok fingerprint =>
        match l.initializeScheduleCursor host trigger.repository trigger.workflow fingerprint calculated
            (if preserveExistingDue then i64Min else startupAt) ownerId with
        | .error e => (.error e.message, l)
        | .ok (nextDueAt, l') =>
          if chrono.inRange nextDueAt then
            (.ok ⟨trigger.repository, trigger.workflow, schedule, fingerprint, nextDueAt⟩, l')
          else (.error "stored schedule cursor is outside the supported time range", l')

/-- `serde_json::json!({ "scheduled_at": scheduled_at }).to_string()`. -/
def scheduledAtPayload (crates : Crates) (scheduledAt : String) : String :=
  crates.jsonToString (.object [("scheduled_at", .string scheduledAt)])

/-- `evaluate_schedule`, with the ledger it leaves. -/
def ScheduledTarget.evaluateSchedule (crates : Crates) (chrono : Chrono) (host : Host)
    (target : ScheduledTarget) (l : Ledger) : Except String ℤ × Ledger :=
  match nextOccurrence chrono target.schedule target.nextDue with
  | .error e => (.error e, l)
  | .ok next =>
    let scheduledAt := chrono.toRfc3339 target.nextDue
    let identity := TaskIdentity.scheduled target.repository target.workflow scheduledAt
    match identity.validate with
    | .error e => (.error e.message, l)
    | .ok () =>
      match l.enqueueScheduledOccurrence crates host identity (scheduledAtPayload crates scheduledAt)
          target.fingerprint target.nextDue next with
      | .error e => (.error e.message, l)
      | .ok (_, l') => (.ok next, l')

/-! ## What daemons do to a shared ledger -/

/-- The operation writes cursors. -/
def Op.schedules : Op → Bool
  | initializeScheduleCursor .. | enqueueScheduledOccurrence .. => true
  | _ => false

/-- A step of some daemon: it initializes or evaluates a schedule, or it makes another call, such
as registering itself or its heartbeat. -/
inductive ScheduleEvent
  | initializeSchedule (host : Host) (trigger : ScheduleTrigger) (startupAt : ℤ) (ownerId : String)
    (preserveExistingDue : Bool)
  | evaluateSchedule (host : Host) (target : ScheduledTarget)
  | other (c : Call) (h : c.op.schedules = false)

namespace Ledger
variable {l l' : Ledger} {repository workflow fingerprint ownerId : String}

def afterEvent (crates : Crates) (chrono : Chrono) (l : Ledger) : ScheduleEvent → Ledger
  | .initializeSchedule host trigger startupAt ownerId preserveExistingDue =>
    (trigger.initializeSchedule chrono host startupAt ownerId preserveExistingDue l).2
  | .evaluateSchedule host target => (target.evaluateSchedule crates chrono host l).2
  | .other c _ => l.step crates c

/-- The ledger after the events, in order. -/
def runSchedules (crates : Crates) (chrono : Chrono) (l : Ledger) (events : List ScheduleEvent) :
    Ledger :=
  Transition.run (afterEvent crates chrono) l events

/-- What an initialization does is what one call of the ledger does, if it gets that far. -/
theorem initializeSchedule_cases (chrono : Chrono) (host : Host) (trigger : ScheduleTrigger)
    (startupAt : ℤ) (ownerId : String) (preserveExistingDue : Bool) (l : Ledger) :
    (trigger.initializeSchedule chrono host startupAt ownerId preserveExistingDue l).2 = l ∨
      ∃ fingerprint nextDueAt startupAt' due, trigger.fingerprint = .ok fingerprint ∧
        l.initializeScheduleCursor host trigger.repository trigger.workflow fingerprint nextDueAt
          startupAt' ownerId = .ok (due,
            (trigger.initializeSchedule chrono host startupAt ownerId preserveExistingDue l).2) := by
  unfold ScheduleTrigger.initializeSchedule
  split
  · exact .inl rfl
  · split
    · exact .inl rfl
    · split
      · exact .inl rfl
      · next hfingerprint =>
        split
        · exact .inl rfl
        · next hcall =>
          split
          · exact .inr ⟨_, _, _, _, hfingerprint, hcall⟩
          · exact .inr ⟨_, _, _, _, hfingerprint, hcall⟩

/-- What an evaluation does is what one call of the ledger does, if it gets that far. -/
theorem evaluateSchedule_cases (crates : Crates) (chrono : Chrono) (host : Host)
    (target : ScheduledTarget) (l : Ledger) :
    (target.evaluateSchedule crates chrono host l).2 = l ∨
      ∃ next a, nextOccurrence chrono target.schedule target.nextDue = .ok next ∧
        l.enqueueScheduledOccurrence crates host
          (.scheduled target.repository target.workflow (chrono.toRfc3339 target.nextDue))
          (scheduledAtPayload crates (chrono.toRfc3339 target.nextDue)) target.fingerprint
          target.nextDue next = .ok (a, (target.evaluateSchedule crates chrono host l).2) := by
  simp only [ScheduledTarget.evaluateSchedule]
  split
  · exact .inl rfl
  · next hnext =>
    split
    · exact .inl rfl
    · split
      · exact .inl rfl
      · next hcall => exact .inr ⟨_, _, hnext, hcall⟩

theorem afterEvent_eq (crates : Crates) (chrono : Chrono) (l : Ledger) (e : ScheduleEvent) :
    ∃ calls, l.afterEvent crates chrono e = l.runCalls crates calls := by
  cases e with
  | initializeSchedule host trigger startupAt ownerId preserveExistingDue =>
    rcases initializeSchedule_cases chrono host trigger startupAt ownerId preserveExistingDue l with
      h | ⟨fingerprint, nextDueAt, startupAt', due, -, h⟩
    · exact ⟨[], h⟩
    · refine ⟨[⟨host, .initializeScheduleCursor trigger.repository trigger.workflow fingerprint nextDueAt
        startupAt' ownerId⟩], ?_⟩
      change _ = (l.initializeScheduleCursor ..).ledger l
      rw [h]
      rfl
  | evaluateSchedule host target =>
    rcases evaluateSchedule_cases crates chrono host target l with h | ⟨next, a, -, h⟩
    · exact ⟨[], h⟩
    · refine ⟨[⟨host, .enqueueScheduledOccurrence (.scheduled target.repository target.workflow
        (chrono.toRfc3339 target.nextDue)) (scheduledAtPayload crates (chrono.toRfc3339 target.nextDue))
        target.fingerprint target.nextDue next⟩], ?_⟩
      change _ = (l.enqueueScheduledOccurrence ..).ledger l
      rw [h]
      rfl
  | other c h => exact ⟨[c], rfl⟩

/-- What daemons do is a run of the ledger. -/
theorem runSchedules_eq (crates : Crates) (chrono : Chrono) (l : Ledger) (events : List ScheduleEvent) :
    ∃ calls, l.runSchedules crates chrono events = l.runCalls crates calls := by
  induction events generalizing l with
  | nil => exact ⟨[], rfl⟩
  | cons e events ih =>
    obtain ⟨calls, h⟩ := afterEvent_eq crates chrono l e
    obtain ⟨calls', h'⟩ := ih (l.afterEvent crates chrono e)
    refine ⟨calls ++ calls', ?_⟩
    change (l.afterEvent crates chrono e).runSchedules crates chrono events = _
    rw [h', h, runCalls, runCalls, runCalls, Transition.run_append]

/-! ## The cursor -/

/-- The instant's task: what `evaluate_schedule` enqueues for it. -/
def IsForInstant (chrono : Chrono) (repository workflow : String) (due : ℤ) (task : Task) : Prop :=
  task.identityKey = (TaskIdentity.scheduled repository workflow (chrono.toRfc3339 due)).key

/-- The three things that an event can do to the cursor of a schedule. -/
inductive CursorMove (chrono : Chrono) (l l' : Ledger) (repository workflow : String)
    (cursor : ScheduleCursor) : ScheduleEvent → ScheduleCursor → Prop
  | stays : CursorMove chrono l l' repository workflow cursor e cursor
  /-- An initialization replaces a cursor that no other daemon holds: by another fingerprint, or,
  when the daemon does not hold it either, by a later occurrence. -/
  | replaced (htrigger : trigger.repository = repository ∧ trigger.workflow = workflow ∧
        trigger.fingerprint = .ok cursor'.fingerprint)
      (hother : ¬ l.HeldByOther host repository workflow owner cursor.fingerprint)
      (hsame : cursor.fingerprint = cursor'.fingerprint → cursor.nextDueAt < cursor'.nextDueAt ∧
        ¬ l.HeldBySelf host repository workflow owner cursor.fingerprint) :
    CursorMove chrono l l' repository workflow cursor
      (.initializeSchedule host trigger startupAt owner preserveExistingDue) cursor'
  /-- An evaluation of the occurrence at which the cursor stands enqueues it and moves on. -/
  | advanced {target : ScheduledTarget} (htarget : target.repository = repository ∧
        target.workflow = workflow ∧ target.fingerprint = cursor.fingerprint ∧
        target.nextDue = cursor.nextDueAt)
      (hfingerprint : cursor'.fingerprint = cursor.fingerprint)
      (hlater : cursor.nextDueAt < cursor'.nextDueAt)
      (hnext : nextOccurrence chrono target.schedule cursor.nextDueAt = .ok cursor'.nextDueAt)
      (htask : ∃ task ∈ l'.tasks, IsForInstant chrono repository workflow cursor.nextDueAt task) :
    CursorMove chrono l l' repository workflow cursor (.evaluateSchedule host target) cursor'

theorem cursorMove_afterEvent (crates : Crates) (chrono : Chrono) (e : ScheduleEvent)
    (hcursor : l.scheduleCursors.get? (repository, workflow) = some cursor) :
    ∃ cursor', (l.afterEvent crates chrono e).scheduleCursors.get? (repository, workflow) = some cursor' ∧
      CursorMove chrono l (l.afterEvent crates chrono e) repository workflow cursor e cursor' := by
  cases e with
  | initializeSchedule host trigger startupAt ownerId preserveExistingDue =>
    rcases initializeSchedule_cases chrono host trigger startupAt ownerId preserveExistingDue l with
      h | ⟨fingerprint, nextDueAt, startupAt', due, hfingerprint, h⟩
    · refine ⟨cursor, ?_, .stays⟩
      rw [afterEvent, h, hcursor]
    · rcases initializeScheduleCursor_cases h with ⟨_, -, -, -, hsame⟩ | ⟨hfree, -, hupsert⟩
      · refine ⟨cursor, ?_, .stays⟩
        rw [← hcursor, ← hsame]
        rfl
      · have hget : (l.afterEvent crates chrono (.initializeSchedule host trigger startupAt ownerId
            preserveExistingDue)).scheduleCursors.get? (repository, workflow) =
              if (repository, workflow) = (trigger.repository, trigger.workflow) then
                some ⟨trigger.repository, trigger.workflow, fingerprint, nextDueAt, host.nowMillis 1⟩
              else l.scheduleCursors.get? (repository, workflow) :=
          (congrArg (KeyedTable.get? · _) hupsert).trans KeyedTable.get?_upsert
        by_cases hkey : (repository, workflow) = (trigger.repository, trigger.workflow)
        · obtain ⟨rfl, rfl⟩ := Prod.mk.inj hkey
          obtain ⟨hother, hlater⟩ := hfree cursor hcursor
          refine ⟨_, hget.trans (if_pos hkey), .replaced ⟨rfl, rfl, hfingerprint⟩ hother ?_⟩
          rintro (rfl : cursor.fingerprint = fingerprint)
          exact hlater rfl
        · exact ⟨cursor, hget.trans ((if_neg hkey).trans hcursor), .stays⟩
  | evaluateSchedule host target =>
    rcases evaluateSchedule_cases crates chrono host target l with h | ⟨next, a, hnext, h⟩
    · refine ⟨cursor, ?_, .stays⟩
      rw [afterEvent, h, hcursor]
    · rcases enqueueScheduledOccurrence_cases h with
        ⟨h, -⟩ | ⟨cursor₀, hcursor₀, hfingerprint, hdue, hlater, hget, hother, htask⟩
      · refine ⟨cursor, ?_, .stays⟩
        rw [afterEvent, h, hcursor]
      · by_cases hkey : (repository, workflow) = (target.repository, target.workflow)
        · obtain ⟨rfl, rfl⟩ := Prod.mk.inj hkey
          cases hcursor.symm.trans hcursor₀
          refine ⟨_, hget, .advanced ⟨rfl, rfl, hfingerprint.symm, hdue.symm⟩ rfl ?_ ?_ ?_⟩
          · exact hdue ▸ hlater
          · exact hdue ▸ hnext
          · exact hdue ▸ htask
        · exact ⟨cursor, (hother _ hkey).trans hcursor, .stays⟩
  | other c h =>
    refine ⟨cursor, ?_, .stays⟩
    have hframe : .scheduleCursors ∉ c.op.writes := by
      obtain ⟨host, op⟩ := c
      cases op <;> simp_all [Op.writes, Op.schedules]
    have hsame : (l.step crates c).scheduleCursors = l.scheduleCursors :=
      (step_changes crates l c).frame _ hframe
    exact (congrArg (KeyedTable.get? · _) hsame).trans hcursor

theorem CursorMove.le (h : CursorMove chrono l l' repository workflow cursor e cursor')
    (hsame : cursor'.fingerprint = cursor.fingerprint) : cursor.nextDueAt ≤ cursor'.nextDueAt := by
  cases h with
  | stays => exact le_rfl
  | replaced _ _ hlater => exact (hlater hsame.symm).1.le
  | advanced _ _ hlater _ _ => exact hlater.le

/-- A run along which the fingerprint stays does not move the cursor back. -/
theorem runSchedules_le (crates : Crates) (chrono : Chrono) (events : List ScheduleEvent)
    (hcursor : l.scheduleCursors.get? (repository, workflow) = some cursor)
    (hcursor' : (l.runSchedules crates chrono events).scheduleCursors.get? (repository, workflow) =
      some cursor')
    (hsame : ∀ some_events, some_events <+: events →
      ((l.runSchedules crates chrono some_events).scheduleCursors.get? (repository, workflow)).map
        ScheduleCursor.fingerprint = some cursor.fingerprint) :
    cursor.nextDueAt ≤ cursor'.nextDueAt := by
  induction events generalizing l cursor with
  | nil =>
    cases hcursor.symm.trans hcursor'
    exact le_rfl
  | cons e events ih =>
    obtain ⟨next, hnext, hmove⟩ := cursorMove_afterEvent crates chrono e hcursor
    have hone : next.fingerprint = cursor.fingerprint := by
      have h := hsame [e] (List.cons_prefix_cons.mpr ⟨rfl, List.nil_prefix⟩)
      change ((l.afterEvent crates chrono e).scheduleCursors.get? (repository, workflow)).map _ = _ at h
      rw [hnext] at h
      exact Option.some.inj h
    refine (hmove.le hone).trans (ih hnext hcursor' fun some_events hprefix => ?_)
    rw [hone]
    exact hsame (e :: some_events) (List.cons_prefix_cons.mpr ⟨rfl, hprefix⟩)

/-! ## What holds of a schedule -/

/-- Schedules neither repeat nor rewind, and skip nothing while they are held. -/
structure ScheduleKept (crates : Crates) (chrono : Chrono) (repository workflow : String)
    (l : Ledger) : Prop where
  /-- At most one task is ever created for an instant. -/
  once : ∀ more due, ∀ a ∈ l.tasks, ∀ b ∈ (l.runSchedules crates chrono more).tasks,
    IsForInstant chrono repository workflow due a → IsForInstant chrono repository workflow due b →
      a.id = b.id
  /-- While the fingerprint stays, the next occurrence never decreases. -/
  forward : ∀ more cursor cursor',
    l.scheduleCursors.get? (repository, workflow) = some cursor →
    (l.runSchedules crates chrono more).scheduleCursors.get? (repository, workflow) = some cursor' →
    (∀ some_events, some_events <+: more →
      ((l.runSchedules crates chrono some_events).scheduleCursors.get? (repository, workflow)).map
        ScheduleCursor.fingerprint = some cursor.fingerprint) →
    cursor.nextDueAt ≤ cursor'.nextDueAt
  /-- An initialization leaves a cursor alone that another daemon holds, or that the daemon itself
  holds under the same fingerprint. -/
  held : ∀ cursor host (trigger : ScheduleTrigger) startupAt ownerId preserveExistingDue,
    l.scheduleCursors.get? (repository, workflow) = some cursor →
    trigger.repository = repository → trigger.workflow = workflow →
    (l.HeldByOther host repository workflow ownerId cursor.fingerprint ∨
      l.HeldBySelf host repository workflow ownerId cursor.fingerprint ∧
        trigger.fingerprint = .ok cursor.fingerprint) →
    (l.afterEvent crates chrono (.initializeSchedule host trigger startupAt ownerId
      preserveExistingDue)).scheduleCursors.get? (repository, workflow) = some cursor
  /-- While the schedule is held, an occurrence is passed by the evaluation that enqueues its task
  only. -/
  passed : ∀ cursor cursor' e,
    l.scheduleCursors.get? (repository, workflow) = some cursor →
    (l.afterEvent crates chrono e).scheduleCursors.get? (repository, workflow) = some cursor' →
    (∀ host trigger startupAt ownerId preserveExistingDue,
      e = .initializeSchedule host trigger startupAt ownerId preserveExistingDue →
      l.HeldByOther host repository workflow ownerId cursor.fingerprint ∨
        l.HeldBySelf host repository workflow ownerId cursor.fingerprint) →
    cursor'.fingerprint = cursor.fingerprint → cursor'.nextDueAt ≠ cursor.nextDueAt →
    ∃ host target, e = .evaluateSchedule host target ∧ target.repository = repository ∧
      target.workflow = workflow ∧ target.nextDue = cursor.nextDueAt ∧
      nextOccurrence chrono target.schedule cursor.nextDueAt = .ok cursor'.nextDueAt ∧
      ∃ task ∈ (l.afterEvent crates chrono e).tasks,
        IsForInstant chrono repository workflow cursor.nextDueAt task

/-- **Schedules neither repeat nor rewind.** -/
theorem schedules_neither_repeat_nor_rewind (crates : Crates) (chrono : Chrono)
    (repository workflow : String) (events : List ScheduleEvent) :
    ScheduleKept crates chrono repository workflow
      (Ledger.empty.runSchedules crates chrono events) where
  once more due a ha b hb hdue hdue' := by
    obtain ⟨before, hbefore⟩ := runSchedules_eq crates chrono Ledger.empty events
    obtain ⟨after, hafter⟩ := runSchedules_eq crates chrono
      (Ledger.empty.runSchedules crates chrono events) more
    rw [hafter, hbefore] at hb
    rw [hbefore] at ha
    obtain ⟨a', hget, hfacts⟩ := (runCalls_changes crates _ after).tasks _ _ (KeyedTable.get?_of_mem ha)
    have hunique : ((Ledger.empty.runCalls crates before).runCalls crates after).UniqueKeys := by
      have h := uniqueKeys_reachable crates (before ++ after)
      rwa [runCalls, Transition.run_append] at h
    have hkey : a'.identityKey = b.identityKey :=
      (congrArg Prod.fst hfacts).trans (hdue.trans hdue'.symm)
    have hsame : a' = b := hunique a' (KeyedTable.mem_of_get? hget) b hb hkey
    exact (KeyedTable.key_of_get? hget).symm.trans (congrArg Task.id hsame)
  forward more _ _ hcursor hcursor' hsame := runSchedules_le crates chrono more hcursor hcursor' hsame
  held cursor host trigger startupAt ownerId preserveExistingDue hcursor _ _ hheld := by
    obtain ⟨cursor', hcursor', hmove⟩ := cursorMove_afterEvent crates chrono
      (.initializeSchedule host trigger startupAt ownerId preserveExistingDue) hcursor
    cases hmove with
    | stays => exact hcursor'
    | replaced htrigger hother hsame =>
      rcases hheld with hheld | ⟨hheld, hfingerprint⟩
      · exact (hother hheld).elim
      · have heq : cursor'.fingerprint = cursor.fingerprint :=
          Except.ok.inj (htrigger.2.2.symm.trans hfingerprint)
        exact ((hsame heq.symm).2 hheld).elim
  passed cursor cursor' e hcursor hcursor' hheld hsame hmoved := by
    obtain ⟨_, hget, hmove⟩ := cursorMove_afterEvent crates chrono e hcursor
    cases hcursor'.symm.trans hget
    cases hmove with
    | stays => exact (hmoved rfl).elim
    | replaced _ hother hlater =>
      rcases hheld _ _ _ _ _ rfl with hheld | hheld
      · exact (hother hheld).elim
      · exact ((hlater hsame.symm).2 hheld).elim
    | advanced htarget _ _ hnext htask =>
      exact ⟨_, _, rfl, htarget.1, htarget.2.1, htarget.2.2.2, hnext, htask⟩

end Ledger
end FlashyFactory
