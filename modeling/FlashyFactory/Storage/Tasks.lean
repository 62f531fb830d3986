import FlashyFactory.Storage.Errors
import Mathlib.Data.List.Sort

/-! # Queueing and claiming tasks

`enqueue_with_payload`, `reconcile_ticket_poll`, the schedule operations and
`claim_and_start_run_with_workdirs_filtered` of `storage.rs`. Every operation is one transaction:
it returns its answer with the new ledger, or an error. -/

namespace FlashyFactory

abbrev LedgerResult (α : Type) := Except LedgerError (α × Ledger)

/-- `TaskIdentity::validate`: the first blank field is reported. -/
def TaskIdentity.validate (identity : TaskIdentity) : Except LedgerError Unit :=
  match identity.fields.find? fun field => isBlank field.2 with
  | some (name, _) => .error (.emptyIdentityField name)
  | none => .ok ()

namespace Ledger

def queryTaskByKey (l : Ledger) (key : String) : Option Task :=
  l.tasks.rows.find? fun task => task.identityKey = key

/-- The row that `INSERT INTO tasks (..) VALUES (..)` writes. -/
def queuedTask (identity : TaskIdentity) (payload : Option String) (now : ℤ) (id : ℕ) : Task where
  id := id
  identityKey := identity.key
  kind := identity.kind
  repository := identity.repository
  workflow := identity.workflow
  sourceItem := identity.sourceItem
  payload := payload
  state := .queued
  createdAt := now
  updatedAt := now
  recoverySourceRunId := none

theorem queuedTask_id (n : ℕ) : (queuedTask identity payload now n).id = n := rfl

/-- `INSERT OR IGNORE INTO tasks`, and whether a row was inserted: `identity_key` is unique. -/
def insertOrIgnoreTask (l : Ledger) (identity : TaskIdentity) (payload : Option String) (now : ℤ) :
    Bool × Ledger :=
  if (l.queryTaskByKey identity.key).isSome then (false, l)
  else (true, { l with tasks := l.tasks.insertNext (queuedTask identity payload now) queuedTask_id })

def enqueueWithPayload (host : Host) (l : Ledger) (identity : TaskIdentity)
    (payload : Option String) : LedgerResult EnqueuedTask :=
  match identity.validate with
  | .error e => .error e
  | .ok () =>
    let (inserted, l') := l.insertOrIgnoreTask identity payload (host.nowMillis 0)
    match l'.queryTaskByKey identity.key with
    | none => .error .taskDisappeared
    | some task => .ok (⟨task, inserted⟩, l')

def enqueue (host : Host) (l : Ledger) (identity : TaskIdentity) : LedgerResult EnqueuedTask :=
  l.enqueueWithPayload host identity none

/-! ## Ticket polls -/

/-- The stored eligibility and revision of a source item. -/
def priorObservation (l : Ledger) (repository workflow item : String) : Option (Bool × String) :=
  (l.triggerObservations.get? (repository, workflow, item)).map fun o => (o.eligible, o.revision)

/-- The revision of the task that an edge creates: a ticket that left the trigger condition and
came back at its last revision gets a visit suffix. -/
def taskRevision (l : Ledger) (prior : Option (Bool × String)) (o : ObservedTicket) : String :=
  if !(prior.map Prod.fst).getD false && prior.map Prod.snd == some o.revision then
    o.revision ++ ":visit:" ++ toString l.tasks.nextId
  else o.revision

/-- The observation is a trigger edge: eligible after an absence, or at another revision. -/
def isEdge (prior : Option (Bool × String)) (o : ObservedTicket) : Bool :=
  o.eligible && (!(prior.map Prod.fst).getD false || prior.map Prod.snd != some o.revision)

/-- `EXISTS (SELECT 1 FROM tasks .. AND state IN ('queued', 'running'))`. -/
def activeExists (l : Ledger) (repository workflow item : String) : Bool :=
  l.tasks.rows.any fun task =>
    task.repository = repository && task.workflow = workflow && task.sourceItem = some item &&
      (task.state = .queued || task.state = .running)

/-- `INSERT INTO trigger_observations .. ON CONFLICT DO UPDATE`. -/
def storeObservation (l : Ledger) (repository workflow : String) (o : ObservedTicket) (now : ℤ) :
    Ledger :=
  { l with
    triggerObservations := l.triggerObservations.upsert
      ⟨repository, workflow, o.sourceItem, o.revision, o.eligible, o.payload, now⟩ }

/-- One turn of the loop of `reconcile_ticket_poll`; `prior` was read before the loop. -/
def pollObservation (host : Host) (repository workflow : String)
    (prior : String → Option (Bool × String)) (i : ℕ) (o : ObservedTicket) (l : Ledger) :
    LedgerResult (Option EnqueuedTask) :=
  if isBlank o.sourceItem || isBlank o.revision then .error .emptyObservation
  else if isEdge (prior o.sourceItem) o then
    let identity := TaskIdentity.ticket repository workflow o.sourceItem
      (l.taskRevision (prior o.sourceItem) o)
    match identity.validate with
    | .error e => .error e
    | .ok () =>
      if l.activeExists repository workflow o.sourceItem then
        .ok (none, l.storeObservation repository workflow o (host.nowMillis (2 * i + 1)))
      else
        let (created, l') := l.insertOrIgnoreTask identity (some o.payload) (host.nowMillis (2 * i))
        match l'.queryTaskByKey identity.key with
        | none => .error .observedTaskDisappeared
        | some task =>
          .ok (some ⟨task, created⟩,
            l'.storeObservation repository workflow o (host.nowMillis (2 * i + 1)))
  else .ok (none, l.storeObservation repository workflow o (host.nowMillis (2 * i + 1)))

def pollObservations (host : Host) (repository workflow : String)
    (prior : String → Option (Bool × String)) :
    ℕ → List ObservedTicket → Ledger → LedgerResult (List EnqueuedTask)
  | _, [], l => .ok ([], l)
  | i, o :: os, l =>
    match l.pollObservation host repository workflow prior i o with
    | .error e => .error e
    | .ok (first, l') =>
      match pollObservations host repository workflow prior (i + 1) os l' with
      | .error e => .error e
      | .ok (rest, l'') => .ok (first.toList ++ rest, l'')

/-- `UPDATE trigger_observations SET eligible = 0 WHERE repository = .. AND workflow = ..`. -/
def resetEligibility (l : Ledger) (repository workflow : String) : Ledger :=
  { l with
    triggerObservations := l.triggerObservations.modifyWhere
      (fun o => o.repository = repository && o.workflow = workflow)
      fun o => { o with eligible := false } }

def reconcileTicketPoll (host : Host) (l : Ledger) (repository workflow : String)
    (observations : List ObservedTicket) : LedgerResult (List EnqueuedTask) :=
  if isBlank repository || isBlank workflow then .error .emptyPollKey
  else
    pollObservations host repository workflow (l.priorObservation repository workflow) 0 observations
      (l.resetEligibility repository workflow)

/-! ## Daemon owners -/

/-- The owner holds a lease: its row has this process id and a recent heartbeat. -/
def ownerHasLease (l : Ledger) (ownerId : String) (pid : ℕ) (leaseCutoff : ℤ) : Bool :=
  (l.daemonOwners.get? ownerId).any fun owner => owner.pid = pid && leaseCutoff ≤ owner.heartbeatAt

def registerDaemonOwner (host : Host) (l : Ledger) (ownerId : String) (pid : ℕ) :
    LedgerResult Unit :=
  if isBlank ownerId then .error .emptyOwnerId
  else .ok ((), { l with daemonOwners := l.daemonOwners.upsert ⟨ownerId, pid, host.nowMillis 0⟩ })

def heartbeatDaemonOwner (host : Host) (l : Ledger) (ownerId : String) : LedgerResult Unit :=
  let now := host.nowMillis 0
  let leased : DaemonOwner → Bool := fun owner => now - daemonOwnerLeaseMillis ≤ owner.heartbeatAt
  if l.daemonOwners.hits ownerId leased then
    .ok ((), { l with
      daemonOwners := l.daemonOwners.modify ownerId leased fun o => { o with heartbeatAt := now } })
  else .error (.ownerLeaseExpired ownerId)

/-- The rows of `schedule_owners` go with their owner (`ON DELETE CASCADE`). -/
def removeDaemonOwner (l : Ledger) (ownerId : String) : LedgerResult Unit :=
  .ok ((), { l with
    daemonOwners := l.daemonOwners.eraseWhere fun owner => owner.ownerId = ownerId
    scheduleOwners := l.scheduleOwners.eraseWhere fun owner => owner.ownerId = ownerId })

/-! ## Schedules -/

/-- The fingerprints that other daemons with a live lease use for the schedule. -/
def liveOwnerFingerprints (host : Host) (l : Ledger) (repository workflow ownerId : String)
    (leaseCutoff : ℤ) : List String :=
  l.scheduleOwners.rows.filterMap fun schedule =>
    match l.daemonOwners.get? schedule.ownerId with
    | none => none
    | some owner =>
      if schedule.repository = repository && schedule.workflow = workflow &&
          owner.ownerId ≠ ownerId && leaseCutoff ≤ owner.heartbeatAt &&
          host.processIsAlive owner.pid then some schedule.fingerprint
      else none

def currentOwnerMatches (l : Ledger) (repository workflow ownerId fingerprint : String)
    (leaseCutoff : ℤ) : Bool :=
  (l.scheduleOwners.get? (repository, workflow, ownerId)).any (fun s => s.fingerprint = fingerprint)
    && (l.daemonOwners.get? ownerId).any (fun owner => leaseCutoff ≤ owner.heartbeatAt)

/-- Returns `next_due_at` of the cursor. -/
def initializeScheduleCursor (host : Host) (l : Ledger) (repository workflow fingerprint : String)
    (nextDueAt startupAt : ℤ) (ownerId : String) : LedgerResult ℤ :=
  if isBlank repository || isBlank workflow || isBlank fingerprint || isBlank ownerId then
    .error .emptyScheduleKey
  else if nextDueAt ≤ startupAt then .error .occurrenceNotAfterStartup
  else
    let leaseCutoff := host.nowMillis 0 - daemonOwnerLeaseMillis
    let prior := l.scheduleCursors.get? (repository, workflow)
    let live := l.liveOwnerFingerprints host repository workflow ownerId leaseCutoff
    if prior.any fun cursor => cursor.fingerprint ≠ fingerprint && live.contains cursor.fingerprint then
      .error (.liveOwnerOtherFingerprint repository workflow
        ((prior.map ScheduleCursor.fingerprint).getD ""))
    else
      let kept := prior.filter fun cursor => cursor.fingerprint = fingerprint &&
        (startupAt < cursor.nextDueAt || live.contains fingerprint ||
          l.currentOwnerMatches repository workflow ownerId fingerprint leaseCutoff)
      let (resolved, cursors) := match kept with
        | some cursor => (cursor.nextDueAt, l.scheduleCursors)
        | none => (nextDueAt, l.scheduleCursors.upsert
            ⟨repository, workflow, fingerprint, nextDueAt, host.nowMillis 1⟩)
      -- `schedule_owners.owner_id` references `daemon_owners`
      if (l.daemonOwners.get? ownerId).isNone then .error .scheduleOwnerNotRegistered
      else .ok (resolved, { l with
        scheduleCursors := cursors
        scheduleOwners := l.scheduleOwners.upsert ⟨repository, workflow, ownerId, fingerprint⟩ })

/-- The payload of a scheduled task: the given object with its schedule's fingerprint. -/
def scheduledPayload (crates : Crates) (payload expectedFingerprint : String) :
    Except LedgerError String :=
  match crates.jsonFromStr payload with
  | none => .error .payloadNotJson
  | some (.object fields) => .ok (crates.jsonToString
      (.object (Json.insertField fields "schedule_fingerprint" (.string expectedFingerprint))))
  | some _ => .error .payloadNotObject

def enqueueScheduledOccurrence (crates : Crates) (host : Host) (l : Ledger)
    (identity : TaskIdentity) (payload expectedFingerprint : String) (expectedDueAt nextDueAt : ℤ) :
    LedgerResult (Option EnqueuedTask) :=
  match identity with
  | .ticket .. => .error .notScheduledIdentity
  | .scheduled repository workflow scheduledAt =>
    match (TaskIdentity.scheduled repository workflow scheduledAt).validate with
    | .error e => .error e
    | .ok () =>
      if nextDueAt ≤ expectedDueAt then .error .occurrenceNotAfterDue
      else match scheduledPayload crates payload expectedFingerprint with
        | .error e => .error e
        | .ok payload =>
          let due : ScheduleCursor → Bool := fun cursor =>
            cursor.fingerprint = expectedFingerprint && cursor.nextDueAt = expectedDueAt
          if !l.scheduleCursors.hits (repository, workflow) due then .ok (none, l)
          else
            let identity := TaskIdentity.scheduled repository workflow scheduledAt
            let now := host.nowMillis 0
            let (inserted, l') := l.insertOrIgnoreTask identity (some payload) now
            match l'.queryTaskByKey identity.key with
            | none => .error .scheduledTaskDisappeared
            | some task =>
              if l'.scheduleCursors.hits (repository, workflow) due then
                .ok (some ⟨task, inserted⟩, { l' with
                  scheduleCursors := l'.scheduleCursors.modify (repository, workflow) due
                    fun cursor => { cursor with nextDueAt := nextDueAt, updatedAt := now } })
              else .error .cursorChanged

/-! ## Claims -/

/-- `ORDER BY created_at, id`. -/
def claimsBefore (a b : Task) : Prop :=
  a.createdAt < b.createdAt ∨ a.createdAt = b.createdAt ∧ a.id ≤ b.id

instance : DecidableRel claimsBefore := fun _ _ => inferInstanceAs (Decidable (_ ∨ _))

def claimCandidates (l : Ledger) : List Task :=
  (l.tasks.rows.filter fun task => task.state = .queued).insertionSort claimsBefore

/-- `(repository, source_item)` of a running ticket task. -/
def ticketSourceIsRunning (l : Ledger) (repository item : String) : Bool :=
  l.tasks.rows.any fun task => task.kind = .ticket && task.state = .running &&
    task.repository = repository && task.sourceItem = some item

/-- The fingerprint under which the owner holds the schedule, while the cursor still has it. -/
def scheduleOwnership (l : Ledger) (ownerId repository workflow : String) : Option String :=
  match l.scheduleOwners.get? (repository, workflow, ownerId), l.scheduleCursors.get? (repository, workflow) with
  | some owner, some cursor =>
    if cursor.fingerprint = owner.fingerprint then some owner.fingerprint else none
  | _, _ => none

def scheduleFingerprint (crates : Crates) (task : Task) : Option String :=
  task.payload.bind fun payload => (crates.jsonFromStr payload).bind fun json =>
    (json.get? "schedule_fingerprint").bind Json.asStr?

/-- The filter of the claim loop. -/
def claimable (crates : Crates) (l : Ledger) (availableRepositories : List String)
    (workflowRuntimes : String → String → TaskKind → Option String) (ownerId : String)
    (allowNewTicketTasks : Bool) (task : Task) : Bool :=
  if task.kind = .ticket && task.sourceItem.any (l.ticketSourceIsRunning task.repository) then false
  else if task.kind = .ticket && !allowNewTicketTasks &&
      !l.taskWorkspaces.hits task.id (fun workspace => workspace.state ≠ .cleaned) then false
  else if !availableRepositories.contains task.repository ||
      (workflowRuntimes task.repository task.workflow task.kind).isNone then false
  else if task.kind ≠ .scheduled then true
  else match scheduleFingerprint crates task,
      l.scheduleOwnership ownerId task.repository task.workflow with
    | some taskFingerprint, some ownerFingerprint => taskFingerprint = ownerFingerprint
    | _, _ => false

/-- `recovery_attempt + 1` of the run to continue; `none` when that run is missing. -/
def nextRecoveryAttempt (l : Ledger) : Option ℕ → Option ℕ
  | none => some 0
  | some runId => (l.runs.get? runId).map fun run => run.recoveryAttempt + 1

/-- The row that the claim inserts into `runs`. -/
def claimedRun (task : Task) (runtime : String) (now : ℤ) (ownerId : String) (ownerPid : ℕ)
    (workingDirectory : String) (recoveryAttempt id : ℕ) : Run where
  id := id
  taskId := task.id
  workflow := task.workflow
  repository := task.repository
  sourceItem := task.sourceItem
  runtime := runtime
  startedAt := now
  outcome := .running
  ownerPid := some ownerPid
  ownerId := some ownerId
  lastActivityAt := now
  workingDirectory := some workingDirectory
  recoveryOf := task.recoverySourceRunId
  recoveryAttempt := recoveryAttempt

theorem claimedRun_id (n : ℕ) :
    (claimedRun task runtime now ownerId ownerPid dir recoveryAttempt n).id = n := rfl

def hasRunningRun (l : Ledger) (taskId : ℕ) : Bool :=
  l.runs.rows.any fun run => run.taskId = taskId && run.outcome = .running

/-- The statements that follow the choice of `task`. -/
def startClaimedRun (l : Ledger) (task : Task) (runtime : String) (now : ℤ) (ownerId : String)
    (ownerPid : ℕ) (workingDirectories : String → Option String) :
    LedgerResult (Option ClaimedRun) :=
  if !l.tasks.hits task.id (fun t => t.state = .queued) then .error (.notClaimedAtomically task.id)
  else
    let tasks := l.tasks.modify task.id (fun t => t.state = .queued)
      fun t => { t with state := .running, updatedAt := now }
    match l.nextRecoveryAttempt task.recoverySourceRunId with
    | none => .error .recoveryAttemptUnresolved
    | some recoveryAttempt =>
      match workingDirectories task.repository with
      | none => .error .workingDirectoryDisappeared
      | some workingDirectory =>
        -- `runs_one_active_per_task_idx`
        if l.hasRunningRun task.id then .error .runNotCreated
        else
          let runs := l.runs.insertNext
            (claimedRun task runtime now ownerId ownerPid workingDirectory recoveryAttempt) claimedRun_id
          match tasks.get? task.id, runs.get? l.runs.nextId with
          | some claimed, some run => .ok (some ⟨claimed, run⟩, { l with
              tasks := tasks.modify task.id (fun _ => true) fun t =>
                { t with recoverySourceRunId := none }
              runs := runs })
          | none, _ => .error .claimedTaskDisappeared
          | _, none => .error .claimedRunDisappeared

def claimAndStartRunWithWorkdirsFiltered (crates : Crates) (host : Host) (l : Ledger)
    (availableRepositories : List String)
    (workflowRuntimes : String → String → TaskKind → Option String) (ownerId : String)
    (ownerPid : ℕ) (workingDirectories : String → Option String) (allowNewTicketTasks : Bool) :
    LedgerResult (Option ClaimedRun) :=
  if availableRepositories.isEmpty then .ok (none, l)
  else
    let now := host.nowMillis 0
    if !l.ownerHasLease ownerId ownerPid (now - daemonOwnerLeaseMillis) then
      .error (.noLiveLease ownerId)
    else match l.claimCandidates.find? (l.claimable crates availableRepositories workflowRuntimes
        ownerId allowNewTicketTasks) with
      | none => .ok (none, l)
      | some task =>
        match workflowRuntimes task.repository task.workflow task.kind with
        | none => .error .runtimeDisappeared
        | some runtime => l.startClaimedRun task runtime now ownerId ownerPid workingDirectories

end Ledger
end FlashyFactory
