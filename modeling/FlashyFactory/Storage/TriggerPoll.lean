import FlashyFactory.Storage.Calls
import FlashyFactory.Lib.LengthPrefix

/-! # When a poll creates a task

A poll queues a task for every observation that is a trigger edge, unless a task of the trigger
is active or the identity of the new task is taken. An identity is a ticket at a revision, so it
is taken by every earlier visit at that revision; only a ticket that comes back at the revision
it left with gets an identity of its own for the visit. -/

namespace FlashyFactory

/-! ## Identities -/

namespace TaskIdentity

/-- Decimal byte lengths and a colon. -/
def framing : Framing Char where
  digits n := (toString n).toList
  sep := ':'
  size := Char.utf8Size
  digits_injective m n h := by
    simpa [Nat.toString_eq_repr, Nat.toList_repr] using congrArg (Nat.ofDigitChars 10 · 0) h
  sep_not_mem n h := by
    rw [Nat.toString_eq_repr, Nat.toList_repr] at h
    exact absurd (Nat.isDigit_of_mem_toDigits (by decide) (by decide) h) (by decide)
  size_pos := Char.utf8Size_pos

theorem component_toList (value : String) :
    (component value).toList = framing.frame value.toList := by
  simp only [component, String.toList_append, utf8ByteSize_eq]
  simp [Framing.frame, framing, Framing.weight]

theorem component_append_inj {a b x y : String} :
    component a ++ x = component b ++ y ↔ a = b ∧ x = y := by
  simp only [← String.toList_inj, String.toList_append, component_toList]
  exact Framing.frame_append_inj

theorem component_injective : Function.Injective component := by
  intro a b h
  have happ : component a ++ "" = component b ++ "" := by rw [h]
  exact (component_append_inj.mp happ).1

theorem ticket_key_ne_scheduled_key {a b c d e f g : String} :
    (ticket a b c d).key ≠ (scheduled e f g).key := by
  intro h
  have hhead := congrArg (fun s => s.toList.head?) h
  simp [key, String.toList_append] at hhead

/-- Two identities with one key are one identity. -/
theorem key_injective : Function.Injective key := by
  intro a b h
  cases a with
  | ticket r w t v =>
    cases b with
    | ticket r' w' t' v' =>
      simp only [key, String.append_assoc, String.append_right_inj, component_append_inj] at h
      obtain ⟨rfl, rfl, rfl, h⟩ := h
      rw [component_injective h]
    | scheduled r' w' d' => exact (ticket_key_ne_scheduled_key h).elim
  | scheduled r w d =>
    cases b with
    | ticket r' w' t' v' => exact (ticket_key_ne_scheduled_key h.symm).elim
    | scheduled r' w' d' =>
      simp only [key, String.append_assoc, String.append_right_inj, component_append_inj] at h
      obtain ⟨rfl, rfl, h⟩ := h
      rw [component_injective h]

end TaskIdentity

namespace Ledger
variable {l l' : Ledger} {repository workflow item : String} {prior : String → Option (Bool × String)}

/-! ## One observation -/

/-- The identity under which the observation is queued when the next task gets the id `n`. -/
def visitIdentity (repository workflow : String) (prior : String → Option (Bool × String)) (n : ℕ)
    (o : ObservedTicket) : TaskIdentity :=
  .ticket repository workflow o.sourceItem
    (if !((prior o.sourceItem).map Prod.fst).getD false &&
        (prior o.sourceItem).map Prod.snd == some o.revision then
      o.revision ++ ":visit:" ++ toString n
    else o.revision)

theorem visitIdentity_nextId : visitIdentity repository workflow prior l.tasks.nextId o =
    .ticket repository workflow o.sourceItem (l.taskRevision (prior o.sourceItem) o) := rfl

/-- No task has the identity. -/
def Unused (l : Ledger) (identity : TaskIdentity) : Prop :=
  ∀ task ∈ l.tasks, task.identityKey ≠ identity.key

instance : Decidable (l.Unused identity) := inferInstanceAs (Decidable (∀ task ∈ l.tasks, _))

theorem queryTaskByKey_eq_none : l.queryTaskByKey identity.key = none ↔ l.Unused identity := by
  simp [queryTaskByKey, Unused]

theorem insertOrIgnoreTask_unused (payload : Option String) (now : ℤ) (h : l.Unused identity) :
    ∃ l', l.insertOrIgnoreTask identity payload now = (true, l') ∧
      l'.queryTaskByKey identity.key = some (queuedTask identity payload now l.tasks.nextId) ∧
      l'.tasks.rows = l.tasks.rows ++ [queuedTask identity payload now l.tasks.nextId] ∧
      l'.tasks.nextId = l.tasks.nextId + 1 := by
  have hnone := queryTaskByKey_eq_none.mpr h
  refine ⟨_, by simp only [insertOrIgnoreTask, hnone]; rfl, ?_, rfl,
    KeyedTable.nextId_insertNext (h := queuedTask_id)⟩
  simp only [queryTaskByKey] at hnone ⊢
  change (l.tasks.rows ++ [_]).find? _ = _
  rw [List.find?_append, hnone]
  simp [queuedTask]

theorem insertOrIgnoreTask_used (payload : Option String) (now : ℤ) (h : ¬ l.Unused identity) :
    ∃ task, l.insertOrIgnoreTask identity payload now = (false, l) ∧
      l.queryTaskByKey identity.key = some task := by
  rw [← queryTaskByKey_eq_none] at h
  obtain ⟨task, htask⟩ := Option.ne_none_iff_exists'.mp h
  exact ⟨task, by simp [insertOrIgnoreTask, htask], htask⟩

/-- The observation leads to a new task when the next task gets the id `n`. -/
def Creates (l : Ledger) (repository workflow : String) (prior : String → Option (Bool × String))
    (n : ℕ) (o : ObservedTicket) : Prop :=
  isEdge (prior o.sourceItem) o = true ∧ l.activeExists repository workflow o.sourceItem = false ∧
    l.Unused (visitIdentity repository workflow prior n o)

instance : Decidable (l.Creates repository workflow prior n o) :=
  inferInstanceAs (Decidable (_ ∧ _))

/-- The id of the next task after the observations. -/
def nextIdAfter (l : Ledger) (repository workflow : String)
    (prior : String → Option (Bool × String)) : ℕ → List ObservedTicket → ℕ
  | n, [] => n
  | n, o :: os => nextIdAfter l repository workflow prior
    (if l.Creates repository workflow prior n o then n + 1 else n) os

/-- A task that a poll of the trigger queued for `o`. -/
def QueuedFor (repository workflow : String) (o : ObservedTicket) (task : Task) : Prop :=
  ∃ revision now id, task =
    queuedTask (.ticket repository workflow o.sourceItem revision) (some o.payload) now id

/-- What the queries of one observation see of the tasks that others led to: nothing. -/
theorem creates_append {new : List Task} (hrows : l'.tasks.rows = l.tasks.rows ++ new)
    (hnew : ∀ task ∈ new, ∃ p, QueuedFor repository workflow p task ∧ p.sourceItem ≠ o.sourceItem) :
    l'.Creates repository workflow prior n o ↔ l.Creates repository workflow prior n o := by
  have hactive : l'.activeExists repository workflow o.sourceItem =
      l.activeExists repository workflow o.sourceItem := by
    simp only [activeExists, hrows, List.any_append]
    refine (congrArg _ (List.any_eq_false.mpr ?_)).trans (Bool.or_false _)
    intro task htask hmatch
    obtain ⟨p, ⟨revision, now, id, rfl⟩, hne⟩ := hnew task htask
    simp [queuedTask, TaskIdentity.sourceItem, hne] at hmatch
  have hunused : l'.Unused (visitIdentity repository workflow prior n o) ↔
      l.Unused (visitIdentity repository workflow prior n o) := by
    simp only [Unused, ← KeyedTable.mem_rows, hrows, List.mem_append]
    refine ⟨fun h task htask => h task (.inl htask), fun h task htask => ?_⟩
    rcases htask with htask | htask
    · exact h task htask
    · obtain ⟨p, ⟨revision, now, id, rfl⟩, hne⟩ := hnew task htask
      intro hkey
      have hsame : TaskIdentity.ticket repository workflow p.sourceItem revision =
        visitIdentity repository workflow prior n o := TaskIdentity.key_injective hkey
      simp only [visitIdentity, TaskIdentity.ticket.injEq] at hsame
      exact hne hsame.2.2.1
  simp only [Creates, hactive, hunused]

/-- What observations of a trigger did: the tasks `new` were added, one for an edge each, and
they are what the answers call created. -/
structure Polled (repository workflow : String) (prior : String → Option (Bool × String))
    (l l' : Ledger) (os : List ObservedTicket) (answers : List EnqueuedTask) (new : List Task) :
    Prop where
  rows : l'.tasks.rows = l.tasks.rows ++ new
  nextId : l'.tasks.nextId = l.tasks.nextId + new.length
  created : answers.filter (fun e => e.created) = new.map fun task => ⟨task, true⟩
  queued : ∀ task ∈ new, ∃ o ∈ os, isEdge (prior o.sourceItem) o = true ∧
    QueuedFor repository workflow o task

theorem Polled.append (h : Polled repository workflow prior l l' os as new)
    (h' : Polled repository workflow prior l' l'' os' as' new') :
    Polled repository workflow prior l l'' (os ++ os') (as ++ as') (new ++ new') := by
  refine ⟨by rw [h'.rows, h.rows, List.append_assoc], ?_, ?_, fun task htask => ?_⟩
  · rw [h'.nextId, h.nextId, List.length_append, Nat.add_assoc]
  · rw [List.filter_append, h.created, h'.created, List.map_append]
  · rcases List.mem_append.mp htask with htask | htask
    · obtain ⟨o, ho, hq⟩ := h.queued task htask
      exact ⟨o, List.mem_append_left _ ho, hq⟩
    · obtain ⟨o, ho, hq⟩ := h'.queued task htask
      exact ⟨o, List.mem_append_right _ ho, hq⟩

/-- Nothing was added. -/
theorem Polled.none (ht : l'.tasks = l.tasks) (h : ∀ e ∈ as, e.created = false) :
    Polled repository workflow prior l l' os as [] :=
  ⟨by simp [ht], by simp [ht], by simpa using h, nofun⟩

theorem isBlank_append : isBlank (a ++ b) = (isBlank a && isBlank b) := by
  simp [isBlank]

/-- A poll of non-blank values asks for valid identities. -/
theorem validate_visitIdentity (prior : String → Option (Bool × String)) (n : ℕ)
    (hrepository : isBlank repository = false)
    (hworkflow : isBlank workflow = false) (hitem : isBlank o.sourceItem = false)
    (hrevision : isBlank o.revision = false) :
    (visitIdentity repository workflow prior n o).validate = .ok () := by
  have hvisit : ∀ suffix, isBlank (o.revision ++ suffix) = false := fun suffix => by
    simp [isBlank_append, hrevision]
  unfold visitIdentity
  split
  · simp [TaskIdentity.validate, TaskIdentity.fields, hrepository, hworkflow, hitem, hvisit,
      String.append_assoc]
  · simp [TaskIdentity.validate, TaskIdentity.fields, hrepository, hworkflow, hitem, hrevision]

/-- One observation. -/
theorem pollObservation_polled (host : Host) (prior : String → Option (Bool × String)) (i : ℕ)
    (l : Ledger) (hrepository : isBlank repository = false)
    (hworkflow : isBlank workflow = false) (hitem : isBlank o.sourceItem = false)
    (hrevision : isBlank o.revision = false) :
    ∃ answer l' new, l.pollObservation host repository workflow prior i o = .ok (answer, l') ∧
      Polled repository workflow prior l l' [o] answer.toList new ∧
      new.length = if l.Creates repository workflow prior l.tasks.nextId o then 1 else 0 := by
  have hvalid := validate_visitIdentity prior l.tasks.nextId hrepository hworkflow hitem hrevision
  rw [visitIdentity_nextId] at hvalid
  simp only [pollObservation, hitem, hrevision, Bool.or_self, Bool.false_eq_true, if_false, hvalid]
  by_cases hedge : isEdge (prior o.sourceItem) o = true
  · simp only [hedge, if_true]
    by_cases hactive : l.activeExists repository workflow o.sourceItem = true
    · simp only [hactive, if_true]
      exact ⟨none, _, [], rfl, .none rfl nofun, by simp [Creates, hactive]⟩
    · simp only [hactive]
      rw [← visitIdentity_nextId]
      by_cases hunused : l.Unused (visitIdentity repository workflow prior l.tasks.nextId o)
      · obtain ⟨l', hl', hquery, hrows, hnext⟩ :=
          insertOrIgnoreTask_unused (some o.payload) (host.nowMillis (2 * i)) hunused
        simp only [hl', hquery]
        refine ⟨_, _, [_], rfl, ⟨hrows, hnext, rfl, ?_⟩, ?_⟩
        · intro task htask
          obtain rfl := List.mem_singleton.mp htask
          exact ⟨o, List.mem_singleton_self o, hedge, _, _, _, rfl⟩
        · simp [Creates, hedge, hactive, hunused]
      · obtain ⟨task, hl', hquery⟩ :=
          insertOrIgnoreTask_used (some o.payload) (host.nowMillis (2 * i)) hunused
        simp only [hl', hquery]
        refine ⟨_, _, [], rfl, .none rfl ?_, by simp [Creates, hunused]⟩
        simp
  · simp only [hedge]
    exact ⟨none, _, [], rfl, .none rfl nofun, by simp [Creates, hedge]⟩

/-! ## All observations of a poll -/

theorem pollObservations_append {as bs : List EnqueuedTask}
    (h : pollObservations host repository workflow prior i os l = .ok (as, l'))
    (h' : pollObservations host repository workflow prior (i + os.length) os' l' = .ok (bs, l'')) :
    pollObservations host repository workflow prior i (os ++ os') l = .ok (as ++ bs, l'') := by
  induction os generalizing i l as with
  | nil =>
    cases h
    simpa using h'
  | cons o os ih =>
    simp only [pollObservations] at h
    split at h
    · cases h
    · next hfirst =>
      split at h
      · cases h
      · next hrest =>
        cases h
        have hlen : i + (o :: os).length = i + 1 + os.length := by simp; omega
        rw [hlen] at h'
        simp only [List.cons_append, pollObservations, hfirst, ih hrest h', List.append_assoc]

theorem nextIdAfter_congr
    (h : ∀ o ∈ os, ∀ n, l'.Creates repository workflow prior n o ↔
      l.Creates repository workflow prior n o) :
    l'.nextIdAfter repository workflow prior n os = l.nextIdAfter repository workflow prior n os := by
  induction os generalizing n with
  | nil => rfl
  | cons o os ih =>
    simp only [nextIdAfter, h o List.mem_cons_self]
    exact ih fun p hp => h p (List.mem_cons_of_mem _ hp)

/-- Two observations of distinct tickets do not see each other's tasks. -/
theorem Polled.creates_iff (h : Polled repository workflow prior l l' os as new)
    (ho : ∀ p ∈ os, p.sourceItem ≠ o.sourceItem) :
    l'.Creates repository workflow prior n o ↔ l.Creates repository workflow prior n o := by
  refine creates_append h.rows fun task htask => ?_
  obtain ⟨p, hp, -, hq⟩ := h.queued task htask
  exact ⟨p, hq, ho p hp⟩

theorem pollObservations_polled (host : Host) (prior : String → Option (Bool × String)) (i : ℕ)
    (l : Ledger) (hrepository : isBlank repository = false) (hworkflow : isBlank workflow = false)
    (hnonblank : ∀ o ∈ os, isBlank o.sourceItem = false ∧ isBlank o.revision = false) :
    ∃ answers l' new, pollObservations host repository workflow prior i os l = .ok (answers, l') ∧
      Polled repository workflow prior l l' os answers new ∧
      ((os.map ObservedTicket.sourceItem).Nodup →
        l'.tasks.nextId = l.nextIdAfter repository workflow prior l.tasks.nextId os) := by
  induction os generalizing i l with
  | nil => exact ⟨[], l, [], rfl, .none rfl nofun, fun _ => rfl⟩
  | cons o os ih =>
    obtain ⟨hitem, hrevision⟩ := hnonblank o List.mem_cons_self
    obtain ⟨first, l₁, new, hone, hpolled, hcount⟩ :=
      pollObservation_polled host prior i l hrepository hworkflow
        hitem hrevision
    obtain ⟨rest, l₂, new', hmany, hpolled', hnext⟩ :=
      ih (i + 1) l₁ (fun p hp => hnonblank p (List.mem_cons_of_mem _ hp))
    refine ⟨first.toList ++ rest, l₂, new ++ new', ?_, hpolled.append hpolled', ?_⟩
    · simp only [pollObservations, hone, hmany]
    · intro hitems
      obtain ⟨hfresh, hitems⟩ := List.nodup_cons.mp hitems
      have hsame : l₁.nextIdAfter repository workflow prior l₁.tasks.nextId os =
          l.nextIdAfter repository workflow prior l₁.tasks.nextId os := by
        refine nextIdAfter_congr fun p hp n => hpolled.creates_iff fun q hq => ?_
        obtain rfl := List.mem_singleton.mp hq
        exact fun heq => hfresh (heq ▸ List.mem_map_of_mem hp)
      rw [hnext hitems, hsame, hpolled.nextId, hcount, nextIdAfter]
      congr 1
      split <;> rfl

/-- The answers and the rows agree on what is new. -/
theorem Polled.created_for (h : Polled repository workflow prior l l' os as new) (item : String) :
    as.filter (fun e => e.created && e.task.sourceItem = some item) =
      (new.filter fun task => task.sourceItem = some item).map fun task => ⟨task, true⟩ := by
  have hsplit : as.filter (fun e => e.created && e.task.sourceItem = some item) =
      (as.filter fun e => e.created).filter fun e => e.task.sourceItem = some item := by
    rw [List.filter_filter]
    exact List.filter_congr fun e _ => Bool.and_comm _ _
  rw [hsplit, h.created, List.filter_map]
  rfl

theorem Polled.rows_for (h : Polled repository workflow prior l l' os as new) (item : String) :
    l'.tasks.rows.filter (fun t => (l.tasks.get? t.id).isNone && t.sourceItem = some item) =
      new.filter fun task => task.sourceItem = some item := by
  have hold : l.tasks.rows.filter (fun t => (l.tasks.get? t.id).isNone && t.sourceItem = some item) =
      [] := by
    refine List.filter_eq_nil_iff.mpr fun t ht => ?_
    simp [KeyedTable.get?_of_mem (t := l.tasks) ht]
  have hnew : ∀ t ∈ new, l.tasks.get? t.id = Option.none := by
    intro t ht
    have hnodup := l'.tasks.nodup
    rw [h.rows, List.map_append] at hnodup
    refine KeyedTable.get?_eq_none.mpr fun r hr hid => ?_
    exact List.disjoint_of_nodup_append hnodup (List.mem_map_of_mem hr)
      (hid ▸ List.mem_map_of_mem ht)
  rw [h.rows, List.filter_append, hold, List.nil_append]
  exact List.filter_congr fun t ht => by simp [hnew t ht]

/-- The tasks of other tickets. -/
theorem Polled.filter_eq_nil (h : Polled repository workflow prior l l' os as new)
    (ho : ∀ p ∈ os, p.sourceItem ≠ item) :
    new.filter (fun task => task.sourceItem = some item) = [] := by
  refine List.filter_eq_nil_iff.mpr fun task htask => ?_
  obtain ⟨p, hp, -, revision, now, id, rfl⟩ := h.queued task htask
  simpa [queuedTask, TaskIdentity.sourceItem] using ho p hp

/-- The tasks of one observation. -/
theorem Polled.filter_eq_self (h : Polled repository workflow prior l l' [o] as new) :
    new.filter (fun task => task.sourceItem = some o.sourceItem) = new := by
  refine List.filter_eq_self.mpr fun task htask => ?_
  obtain ⟨p, hp, -, revision, now, id, rfl⟩ := h.queued task htask
  obtain rfl := List.mem_singleton.mp hp
  simp [queuedTask, TaskIdentity.sourceItem]

/-- What a poll does for one of its observations does not depend on the others, except for the
number of tasks that the observations before it lead to. -/
theorem pollObservations_one (host : Host) (prior : String → Option (Bool × String)) (l : Ledger)
    (hrepository : isBlank repository = false)
    (hworkflow : isBlank workflow = false)
    (hitems : ((before ++ o :: after).map ObservedTicket.sourceItem).Nodup)
    (hnonblank : ∀ p ∈ before ++ o :: after,
      isBlank p.sourceItem = false ∧ isBlank p.revision = false) :
    ∃ answers l' new one, pollObservations host repository workflow prior 0 (before ++ o :: after) l =
        .ok (answers, l') ∧ Polled repository workflow prior l l' (before ++ o :: after) answers new ∧
      new.filter (fun task => task.sourceItem = some o.sourceItem) = one ∧
      (∀ task ∈ one, QueuedFor repository workflow o task) ∧
      one.length = if l.Creates repository workflow prior
        (l.nextIdAfter repository workflow prior l.tasks.nextId before) o then 1 else 0 := by
  rw [List.map_append, List.map_cons] at hitems
  have hbefore : ∀ p ∈ before, p.sourceItem ≠ o.sourceItem := fun p hp heq =>
    List.disjoint_of_nodup_append hitems (List.mem_map_of_mem hp) (heq ▸ List.mem_cons_self)
  have hfresh := (List.nodup_cons.mp hitems.of_append_right).1
  have hafter : ∀ p ∈ after, p.sourceItem ≠ o.sourceItem := fun p hp heq =>
    hfresh (heq ▸ List.mem_map_of_mem hp)
  obtain ⟨hitem, hrevision⟩ := hnonblank o (by simp)
  -- the poll in three parts
  obtain ⟨as, l₁, new₁, hrun₁, hpolled₁, hnext⟩ := pollObservations_polled host prior 0 l hrepository
    hworkflow
    (fun p hp => hnonblank p (List.mem_append_left _ hp))
  obtain ⟨first, l₂, new₂, hrun₂, hpolled₂, hcount⟩ := pollObservation_polled host prior
    (0 + before.length) l₁ hrepository hworkflow hitem hrevision
  have hrest : ∀ p ∈ after, isBlank p.sourceItem = false ∧ isBlank p.revision = false :=
    fun p hp => hnonblank p (by simp [hp])
  obtain ⟨rest, l₃, new₃, hrun₃, hpolled₃, -⟩ := pollObservations_polled host prior
    (0 + before.length + 1) l₂ hrepository hworkflow hrest
  refine ⟨as ++ (first.toList ++ rest), l₃, new₁ ++ (new₂ ++ new₃), new₂, ?_, ?_, ?_, ?_, ?_⟩
  · exact pollObservations_append hrun₁ (by simp only [pollObservations, hrun₂, hrun₃])
  · exact hpolled₁.append (hpolled₂.append hpolled₃)
  · rw [List.filter_append, List.filter_append, hpolled₁.filter_eq_nil hbefore,
      hpolled₂.filter_eq_self, hpolled₃.filter_eq_nil hafter, List.nil_append, List.append_nil]
  · intro task htask
    obtain ⟨p, hp, -, hq⟩ := hpolled₂.queued task htask
    exact List.mem_singleton.mp hp ▸ hq
  · rw [hcount, hnext hitems.of_append_left]
    simp only [hpolled₁.creates_iff hbefore]

/-! ## The poll -/

/-- The poll answers with exactly one new task for the ticket, and queues it. -/
def QueuesOne (l : Ledger) (repository workflow item : String)
    (result : LedgerResult (List EnqueuedTask)) : Prop :=
  ∃ answers l' task, result = .ok (answers, l') ∧
    answers.filter (fun e => e.created && e.task.sourceItem = some item) = [⟨task, true⟩] ∧
    l'.tasks.rows.filter (fun t => (l.tasks.get? t.id).isNone && t.sourceItem = some item) = [task] ∧
    task.kind = .ticket ∧ task.repository = repository ∧ task.workflow = workflow ∧
    task.state = .queued

/-- No task has the identity that the poll derives for `o` after the observations `before`. -/
def RevisionUnused (l : Ledger) (repository workflow : String) (before : List ObservedTicket)
    (o : ObservedTicket) : Prop :=
  let prior := l.priorObservation repository workflow
  l.Unused (visitIdentity repository workflow prior
    (l.nextIdAfter repository workflow prior l.tasks.nextId before) o)

instance : Decidable (l.RevisionUnused repository workflow before o) :=
  inferInstanceAs (Decidable (l.Unused _))

theorem queuesOne_iff
    (hitems : ((before ++ o :: after).map ObservedTicket.sourceItem).Nodup)
    (hnonblank : ∀ p ∈ before ++ o :: after,
      isBlank p.sourceItem = false ∧ isBlank p.revision = false)
    (hedge : isEdge (l.priorObservation repository workflow o.sourceItem) o = true)
    (hinactive : l.activeExists repository workflow o.sourceItem = false) :
    l.QueuesOne repository workflow o.sourceItem
        (l.reconcileTicketPoll host repository workflow (before ++ o :: after)) ↔
      isBlank repository = false ∧ isBlank workflow = false ∧
        l.RevisionUnused repository workflow before o := by
  by_cases hkey : (isBlank repository || isBlank workflow) = true
  · simp only [reconcileTicketPoll, hkey, if_true]
    constructor
    · rintro ⟨_, _, _, h, _⟩
      cases h
    · rintro ⟨hrepository, hworkflow, -⟩
      simp [hrepository, hworkflow] at hkey
  · simp only [reconcileTicketPoll, hkey, Bool.false_eq_true, if_false]
    obtain ⟨hrepository, hworkflow⟩ : isBlank repository = false ∧ isBlank workflow = false := by
      simpa using hkey
    obtain ⟨answers, l', new, one, hrun, hpolled, hfilter, hqueued, hcount⟩ := pollObservations_one
      host (l.priorObservation repository workflow) (l.resetEligibility repository workflow)
      hrepository hworkflow hitems hnonblank
    -- resetting the eligibility touches no task
    replace hpolled : Polled repository workflow (l.priorObservation repository workflow) l l'
        (before ++ o :: after) answers new :=
      ⟨hpolled.rows, hpolled.nextId, hpolled.created, hpolled.queued⟩
    have hnext : (l.resetEligibility repository workflow).nextIdAfter repository workflow
        (l.priorObservation repository workflow) l.tasks.nextId before =
          l.nextIdAfter repository workflow (l.priorObservation repository workflow) l.tasks.nextId
            before := nextIdAfter_congr fun _ _ _ => .rfl
    change one.length = if Creates _ _ _ _ (nextIdAfter _ _ _ _ l.tasks.nextId _) _ then 1 else 0
      at hcount
    rw [hnext] at hcount
    have hcreates : (l.resetEligibility repository workflow).Creates repository workflow
        (l.priorObservation repository workflow) (l.nextIdAfter repository workflow
          (l.priorObservation repository workflow) l.tasks.nextId before) o ↔
        l.RevisionUnused repository workflow before o :=
      ⟨fun h => h.2.2, fun h => ⟨hedge, hinactive, h⟩⟩
    rw [hrun]
    constructor
    · rintro ⟨_, _, task, h, hanswers, -⟩
      cases h
      rw [hpolled.created_for, hfilter] at hanswers
      refine ⟨hrepository, hworkflow, hcreates.mp ?_⟩
      by_contra hnot
      rw [if_neg hnot, List.length_eq_zero_iff] at hcount
      simp [hcount] at hanswers
    · rintro ⟨-, -, hunused⟩
      rw [if_pos (hcreates.mpr hunused)] at hcount
      obtain ⟨task, rfl⟩ := List.length_eq_one_iff.mp hcount
      obtain ⟨revision, now, id, htask⟩ := hqueued task (List.mem_singleton_self task)
      refine ⟨answers, l', task, rfl, ?_, ?_, ?_⟩
      · rw [hpolled.created_for, hfilter, List.map_singleton]
      · rw [hpolled.rows_for, hfilter]
      · subst htask
        exact ⟨rfl, rfl, rfl, rfl⟩

/-- The stored observation of the ticket is missing, ineligible or of another revision. -/
def Rearmed (l : Ledger) (repository workflow : String) (o : ObservedTicket) : Prop :=
  ∀ row, l.triggerObservations.get? (repository, workflow, o.sourceItem) = some row →
    row.eligible = false ∨ row.revision ≠ o.revision

theorem isEdge_of_rearmed (heligible : o.eligible = true) (h : l.Rearmed repository workflow o) :
    isEdge (l.priorObservation repository workflow o.sourceItem) o = true := by
  cases hrow : l.triggerObservations.get? (repository, workflow, o.sourceItem) with
  | none => simp [isEdge, priorObservation, hrow, heligible]
  | some row => simpa [isEdge, priorObservation, hrow, heligible] using h row hrow

/-- **A rearmed trigger creates a task exactly when the identity of the visit is not taken.** An
eligible observation of a ticket without an active task, in a poll of distinct tickets, leads to
one new task if and only if no earlier task has its revision (or, for a ticket that comes back at
the revision it left with, the visit suffix). -/
theorem rearmed_creates_iff (crates : Crates) (calls : List Call) (host : Host)
    (repository workflow : String) (before after : List ObservedTicket) (o : ObservedTicket)
    (hitems : ((before ++ o :: after).map ObservedTicket.sourceItem).Nodup)
    (hnonblank : ∀ p ∈ before ++ o :: after,
      isBlank p.sourceItem = false ∧ isBlank p.revision = false)
    (heligible : o.eligible = true)
    (hinactive : (Ledger.empty.runCalls crates calls).activeExists repository workflow o.sourceItem =
      false)
    (hrearmed : (Ledger.empty.runCalls crates calls).Rearmed repository workflow o) :
    let l := Ledger.empty.runCalls crates calls
    l.QueuesOne repository workflow o.sourceItem
        (l.reconcileTicketPoll host repository workflow (before ++ o :: after)) ↔
      isBlank repository = false ∧ isBlank workflow = false ∧
        l.RevisionUnused repository workflow before o :=
  queuesOne_iff hitems hnonblank (isEdge_of_rearmed heligible hrearmed) hinactive

/-- The ticket was delivered at `r1` and at `r2`, and left the trigger condition after each. -/
def visitedTwice : List Call := exampleCalls
  [exampleDaemon, examplePoll "r1" true, exampleClaim, exampleSuccess 1, examplePoll "r1" false,
    examplePoll "r2" true, exampleClaim, exampleSuccess 2, examplePoll "r2" false]

/-- It comes back at the revision it left with. -/
theorem rearmed_creates_r2 : (Ledger.empty.runCalls exampleCrates visitedTwice).QueuesOne
    "acme/site" "implement" "101" ((Ledger.empty.runCalls exampleCrates visitedTwice).reconcileTicketPoll
      exampleHost "acme/site" "implement" [⟨"101", "r2", true, examplePayload⟩]) :=
  (rearmed_creates_iff exampleCrates visitedTwice exampleHost "acme/site" "implement" [] []
    ⟨"101", "r2", true, examplePayload⟩ (by decide) (by decide) rfl (by decide)
    (fun row hrow => by
      left
      revert row
      decide)).mpr (by decide)

/-- It comes back at the revision of its first visit: no task is created. -/
theorem rearmed_not_creates : ¬ ∀ (crates : Crates) (calls : List Call) (host : Host)
    (repository workflow : String) (before after : List ObservedTicket) (o : ObservedTicket),
    isBlank repository = false → isBlank workflow = false →
    ((before ++ o :: after).map ObservedTicket.sourceItem).Nodup →
    (∀ p ∈ before ++ o :: after, isBlank p.sourceItem = false ∧ isBlank p.revision = false) →
    o.eligible = true →
    (Ledger.empty.runCalls crates calls).activeExists repository workflow o.sourceItem = false →
    (Ledger.empty.runCalls crates calls).Rearmed repository workflow o →
    (Ledger.empty.runCalls crates calls).QueuesOne repository workflow o.sourceItem
      ((Ledger.empty.runCalls crates calls).reconcileTicketPoll host repository workflow
        (before ++ o :: after)) := by
  intro h
  have hinactive : (Ledger.empty.runCalls exampleCrates visitedTwice).activeExists "acme/site"
    "implement" "101" = false := by decide
  have hrearmed : (Ledger.empty.runCalls exampleCrates visitedTwice).Rearmed "acme/site" "implement"
      ⟨"101", "r1", true, examplePayload⟩ := by
    intro row hrow
    left
    revert row
    decide
  have hone := h exampleCrates visitedTwice exampleHost "acme/site" "implement" [] []
    ⟨"101", "r1", true, examplePayload⟩ (by decide) (by decide) (by decide) (by decide) rfl hinactive
    hrearmed
  have hunused := ((queuesOne_iff (by decide) (by decide) (isEdge_of_rearmed rfl hrearmed)
    hinactive).mp hone).2.2
  revert hunused
  decide

end Ledger
end FlashyFactory
