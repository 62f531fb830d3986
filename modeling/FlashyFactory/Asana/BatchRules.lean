import FlashyFactory.Asana.CreateBatch

/-! # What the requests of a batch do

One lemma for each request and each procedure of `create_batch`: how it ends, and which changes it
requests. -/

namespace FlashyFactory
namespace Asana
namespace Batch

variable {service : Service} {env : Environment} {python : Python} {plan : Plan} {s t : Session}

/-! ## Steps -/

def Event.change? : Event → Option Change
  | applied change _ | refused change => some change
  | read _ => none

/-- One request of a program that changes something in the ways `A` only. -/
inductive Step (service : Service) (A : Change → Prop) (s : Session) : Session → Prop
  | pass {fates : ℕ → Fate} : Step service A s { s with fates := fates }
  | read (task : StoredTask) : Step service A s (s.note (.read task))
  | refused {change : Change} (h : A change) : Step service A s (s.note (.refused change))
  | applied {change : Change} (h : A change) (hfinds : change.finds s.tasks = true) :
    Step service A s (s.apply service change)

abbrev Reaches (service : Service) (A : Change → Prop) : Session → Session → Prop :=
  Relation.ReflTransGen (Step service A)

/-- No change is requested. -/
abbrev Reading (service : Service) : Session → Session → Prop := Reaches service fun _ => False

theorem Step.mono {A B : Change → Prop} (h : Step service A s t) (hAB : ∀ change, A change → B change) :
    Step service B s t := by
  cases h with
  | pass => exact .pass
  | read task => exact .read task
  | refused h => exact .refused (hAB _ h)
  | applied h hfinds => exact .applied (hAB _ h) hfinds

theorem Reaches.mono {A B : Change → Prop} (h : Reaches service A s t) (hAB : ∀ change, A change → B change) :
    Reaches service B s t := Relation.ReflTransGen.mono (fun _ _ hstep => hstep.mono hAB) _ _ h

/-- What every step keeps is kept. -/
theorem Reaches.keeps {A : Change → Prop} {P : Session → Prop} (h : Reaches service A s t) (hs : P s)
    (hstep : ∀ s t, Step service A s t → P s → P t) : P t := by
  induction h with
  | refl => exact hs
  | tail _ hlast ih => exact hstep _ _ hlast ih

/-- What every change keeps of the tasks is kept. -/
theorem Reaches.keeps_tasks {A : Change → Prop} {P : Tasks → Prop} (h : Reaches service A s t) (hs : P s.tasks)
    (hchange : ∀ tasks change, A change → change.finds tasks = true → P tasks →
      P (change.apply service tasks)) :
    P t.tasks := by
  refine h.keeps (P := fun s => P s.tasks) hs fun s t hstep hP => ?_
  cases hstep with
  | pass => exact hP
  | read task => exact hP
  | refused h => exact hP
  | applied h hfinds => exact hchange _ _ h hfinds hP

theorem Reading.tasks_eq (h : Reading service s t) : t.tasks = s.tasks :=
  Reaches.keeps_tasks (P := fun tasks => tasks = s.tasks) h rfl fun _ _ hfalse => hfalse.elim

/-- The log grows, by what is allowed. -/
theorem Reaches.log {A : Change → Prop} (h : Reaches service A s t) :
    ∃ events, t.log = s.log ++ events ∧ ∀ event ∈ events, ∀ change,
      event.change? = some change → A change := by
  induction h with
  | refl => exact ⟨[], by simp, nofun⟩
  | @tail u v _ hlast ih =>
    obtain ⟨events, hlog, hevents⟩ := ih
    have hmore : ∃ more, v.log = u.log ++ more ∧ ∀ event ∈ more, ∀ change,
      event.change? = some change → A change := by
      cases hlast with
      | pass => exact ⟨[], by simp, nofun⟩
      | read task => exact ⟨[.read task], rfl, by simp [Event.change?]⟩
      | refused h => exact ⟨[_], rfl, by simpa [Event.change?] using h⟩
      | applied h _ => exact ⟨[_], rfl, by simpa [Event.change?] using h⟩
    obtain ⟨more, hv, hallowed⟩ := hmore
    refine ⟨events ++ more, by rw [hv, hlog, List.append_assoc], fun event hmem => ?_⟩
    exact (List.mem_append.mp hmem).elim (hevents event) (hallowed event)

theorem Reaches.log_subset {A : Change → Prop} (h : Reaches service A s t) : s.log ⊆ t.log := by
  obtain ⟨events, hlog, -⟩ := h.log
  rw [hlog]
  exact List.subset_append_left _ _

/-! ## Requests -/

def IsClientError (e : Raised) : Prop := ∃ message, e = .clientError message

theorem ends_catch_iff {x : Client α} {Q : Except String α → Session → Prop} {E : Raised → Session → Prop} :
    Ends (catchClientError x) s Q E ↔ Ends x s (fun a => Q (.ok a)) (fun e t => match e with
      | .clientError message => Q (.error message) t
      | e => E e t) := by
  cases hx : x s with
  | ok a t =>
    have hcatch : catchClientError x s = .ok (.ok a) t := by simp [catchClientError, hx]
    rw [Ends.ok_iff hx, Ends.ok_iff hcatch]
  | error e t =>
    rw [Ends.error_iff hx]
    cases e with
    | clientError message =>
      have hcatch : catchClientError x s = .ok (.error message) t := by simp [catchClientError, hx]
      rw [Ends.ok_iff hcatch]
    | recursionError =>
      have hcatch : catchClientError x s = .error .recursionError t := by simp [catchClientError, hx]
      rw [Ends.error_iff hcatch]
    | keyError key =>
      have hcatch : catchClientError x s = .error (.keyError key) t := by simp [catchClientError, hx]
      rw [Ends.error_iff hcatch]

/-- A program that raises client errors only does not raise once they are caught. -/
theorem ends_catch {x : Client α} {Q : α → Session → Prop} {E : Session → Prop}
    (h : Ends x s Q fun e t => IsClientError e ∧ E t) :
    Ends (catchClientError x) s (fun result t => match result with
      | .ok a => Q a t
      | .error _ => E t) fun _ _ => False := by
  refine ends_catch_iff.mpr (h.mono (fun _ _ h => h) ?_)
  rintro e t ⟨⟨message, rfl⟩, hE⟩
  exact hE

/-- The answer is no `RecursionError`. -/
def Refuses (answer : Answer α) : Prop := answer ≠ .error .recursionError

theorem refuses_ok (a : α) : Refuses (.ok a : Answer α) := nofun

theorem refuses_refuse (message : String) : Refuses (refuse message : Answer α) := by simp [Refuses, refuse]

theorem refuses_refuseIf {p : Prop} [Decidable p] (message : String) : Refuses (refuseIf p message) := by
  unfold refuseIf
  split
  · exact refuses_refuse message
  · exact refuses_ok ()

theorem refuses_requireGid (name value : String) : Refuses (requireGid name value) := by
  unfold requireGid
  split
  · exact refuses_ok value
  · exact refuses_refuse _

theorem Refuses.bind {answer : Answer α} {f : α → Answer β} (h : Refuses answer) (hf : ∀ a, Refuses (f a)) :
    Refuses (answer >>= f) := by
  cases answer with
  | error e => exact fun heq => h (congrArg _ (Except.error.inj heq))
  | ok a => exact hf a

theorem refuses_mapM {f : α → Answer β} (hf : ∀ a, Refuses (f a)) (items : List α) : Refuses (items.mapM f) := by
  induction items with
  | nil => exact refuses_ok []
  | cons item items ih =>
    rw [List.mapM_cons]
    exact (hf item).bind fun _ => ih.bind fun _ => refuses_ok _

theorem ends_validate {answer : Answer α} (h : Refuses answer) :
    Ends (validate answer) s (fun a t => answer = .ok a ∧ t = s) (fun e t => IsClientError e ∧ t = s) := by
  unfold validate
  split
  · exact Ends.pure_iff.mpr ⟨rfl, rfl⟩
  · exact Ends.throw_iff.mpr ⟨⟨_, rfl⟩, rfl⟩
  · exact (h rfl).elim

theorem ends_send {change : Change} : Ends (send service change) s
    (fun gid t => change.finds s.tasks = true ∧ gid = change.gid service s.tasks ∧ t = s.next.apply service change)
    (fun e t => IsClientError e ∧ (t = s.next.note (.refused change) ∨
      change.finds s.tasks = true ∧ t = s.next.apply service change)) := by
  unfold Ends send
  cases s.fates 0 with
  | answered =>
    by_cases hfinds : change.finds s.tasks = true
    · simp [hfinds]
    · simp [hfinds, IsClientError]
  | failed applied message rateLimited =>
    by_cases hfinds : applied = true ∧ change.finds s.tasks = true
    · simp [hfinds, IsClientError]
    · have hnot : (applied && change.finds s.tasks) = false := by simpa using hfinds
      simp [hnot, IsClientError]

theorem ends_fetch {answer : Tasks → α} : Ends (fetch answer) s (fun a t => a = answer s.tasks ∧ t = s.next)
    (fun e t => IsClientError e ∧ t = s.next) := by
  unfold Ends fetch
  cases s.fates 0 <;> simp [IsClientError]

/-! ## Reads -/

theorem ends_noteRead_iff {task : StoredTask} {Q : Unit → Session → Prop} {E : Raised → Session → Prop} :
    Ends (noteRead task) s Q E ↔ Q () (s.note (.read task)) := Ends.ok_iff rfl

theorem ends_readTask {gid : String} : Ends (readTask gid) s
    (fun task t => s.tasks.get? gid = some task ∧ Reading service s t ∧ .read task ∈ t.log)
    (fun e t => IsClientError e ∧ Reading service s t) := by
  have hnext : Reading service s s.next := .single .pass
  refine Ends.bind_iff.mpr (ends_fetch.mono ?_ ?_)
  · rintro found t ⟨hfound, rfl⟩
    cases hget : s.tasks.get? gid with
    | none =>
      rw [hfound, hget]
      exact Ends.throw_iff.mpr ⟨⟨_, rfl⟩, hnext⟩
    | some task =>
      rw [hfound, hget]
      exact Ends.bind_iff.mpr (ends_noteRead_iff.mpr (Ends.pure_iff.mpr
        ⟨rfl, hnext.tail (.read task), by simp [Session.note]⟩))
  · rintro e t ⟨he, rfl⟩
    exact ⟨he, hnext⟩

theorem ends_getExternalTask {externalGid : String} : Ends (getExternalTask externalGid) s
    (fun found t => findExternal externalGid s.tasks = found ∧ Reading service s t)
    (fun e t => IsClientError e ∧ Reading service s t) := by
  have hnext : Reading service s s.next := .single .pass
  refine Ends.bind_iff.mpr (ends_fetch.mono ?_ ?_)
  · rintro found t ⟨rfl, rfl⟩
    cases hfind : findExternal externalGid s.tasks with
    | none => exact Ends.pure_iff.mpr ⟨rfl, hnext⟩
    | some task =>
      have hread : Reading service s (s.next.note (.read task)) := hnext.tail (.read task)
      refine Ends.bind_iff.mpr (ends_noteRead_iff.mpr (Ends.bind_iff.mpr ((ends_validate ?_).mono ?_ ?_)))
      · exact refuses_requireGid _ _
      · rintro gid t ⟨-, rfl⟩
        exact Ends.pure_iff.mpr ⟨rfl, hread⟩
      · rintro e t ⟨he, rfl⟩
        exact ⟨he, hread⟩
  · rintro e t ⟨he, rfl⟩
    exact ⟨he, hnext⟩

theorem ends_recoverExternalTask {externalGid lastError : String} {attempts : ℕ} :
    Ends (recoverExternalTask env externalGid attempts lastError) s
      (fun task t => findExternal externalGid s.tasks = some task ∧ Reading service s t)
      (fun e t => IsClientError e ∧ Reading service s t) := by
  induction attempts generalizing s lastError with
  | zero => exact Ends.throw_iff.mpr ⟨⟨_, rfl⟩, .refl⟩
  | succ attempts ih =>
    have hretry : ∀ t lastError, Reading service s t →
        Ends (recoverExternalTask env externalGid attempts lastError) t
          (fun task u => findExternal externalGid s.tasks = some task ∧ Reading service s u)
          (fun e u => IsClientError e ∧ Reading service s u) := by
      intro t lastError hread
      refine ih.mono ?_ ?_
      · rintro task u ⟨hfind, hread'⟩
        rw [hread.tasks_eq] at hfind
        exact ⟨hfind, hread.trans hread'⟩
      · rintro e u ⟨he, hread'⟩
        exact ⟨he, hread.trans hread'⟩
    refine Ends.bind_iff.mpr ((ends_catch (@ends_getExternalTask service s externalGid)).mono ?_ fun _ _ h => h.elim)
    rintro (message | found) t hfound
    · exact hretry t _ hfound
    · obtain ⟨hfound, hread⟩ := hfound
      cases found with
      | none => exact hretry t _ hread
      | some task => exact Ends.pure_iff.mpr ⟨hfound, hread⟩

/-- What `verify_external_task` establishes. -/
structure Matches (service : Service) (expected : BatchTask) (externalGid externalData project : String)
    (allowedSections : List String) (task : StoredTask) : Prop where
  gid : isGid task.gid = true
  external : task.external = some (externalGid, externalData)
  unfinished : task.completed = false
  name : task.name = expected.name
  notes : task.notes = expected.notes.getD ""
  fields : task.hasFields (expected.customFields.getD []) = true
  placed : ∃ inSection ∈ allowedSections, task.sections = [inSection] ∧ service.projectOf inSection = project

theorem verifyExternalTask_eq_ok {task : StoredTask} {expected : BatchTask}
    {externalGid externalData project gid : String} {allowed : List String} :
    verifyExternalTask service task expected externalGid externalData project allowed = .ok gid ↔
      gid = task.gid ∧ Matches service expected externalGid externalData project allowed task := by
  unfold verifyExternalTask
  constructor
  · intro h
    simp only [Except.bind_eq_ok, requireGid_eq_ok] at h
    obtain ⟨_, ⟨hgid, rfl⟩, h⟩ := h
    split at h
    · simp at h
    · next external hexternal =>
      simp only [Except.bind_eq_ok, refuseIf_eq_ok, exists_const] at h
      obtain ⟨hidentity, hopen, hlive, hfields, h⟩ := h
      split at h
      · next inSection hsections =>
        simp only [Except.bind_eq_ok, refuseIf_eq_ok, exists_const, Except.pure_eq_ok] at h
        obtain ⟨hsection, rfl⟩ := h
        simp only [ne_eq, not_or, not_not] at hidentity hopen hlive hfields hsection
        exact ⟨rfl, hgid, hidentity ▸ hexternal, by simpa using hopen, hlive.1, hlive.2, by simpa using hfields,
          inSection, hsection.2, hsections, hsection.1⟩
      · simp at h
  · rintro ⟨rfl, hgid, hexternal, hopen, hname, hnotes, hfields, inSection, hallowed, hsections, hproject⟩
    simp [hgid, hexternal, hopen, hname, hnotes, hfields, hsections, hallowed, hproject, requireGid, refuseIf]

theorem refuses_verifyExternalTask {task : StoredTask} {expected : BatchTask}
    {externalGid externalData project : String} {allowed : List String} :
    Refuses (verifyExternalTask service task expected externalGid externalData project allowed) := by
  refine (refuses_requireGid _ _).bind fun gid => ?_
  split
  · exact refuses_refuse _
  · refine (refuses_refuseIf _).bind fun _ => (refuses_refuseIf _).bind fun _ => (refuses_refuseIf _).bind fun _ =>
      (refuses_refuseIf _).bind fun _ => ?_
    split
    · exact (refuses_refuseIf _).bind fun _ => refuses_ok _
    · exact refuses_refuse _

theorem ends_recoverCreation {task : BatchTask} : Ends (recoverCreation service env python plan task) s
    (fun gid t => Reading service s t ∧ ∃ stored, findExternal (plan.externalGid task) s.tasks = some stored ∧
      gid = stored.gid ∧ Matches service task (plan.externalGid task) (plan.externalData python task)
        plan.setup.project [plan.setup.backlog] stored)
    (fun e t => IsClientError e ∧ Reading service s t) := by
  refine Ends.bind_iff.mpr (ends_recoverExternalTask.mono ?_ fun _ _ h => h)
  rintro stored t ⟨hfind, hread⟩
  refine (ends_validate refuses_verifyExternalTask).mono ?_ ?_
  · rintro gid u ⟨hverify, rfl⟩
    exact ⟨hread, stored, hfind, verifyExternalTask_eq_ok.mp hverify⟩
  · rintro e u ⟨he, rfl⟩
    exact ⟨he, hread⟩

end Batch
end Asana
end FlashyFactory
