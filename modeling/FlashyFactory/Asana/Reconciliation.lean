import FlashyFactory.Asana.Replay

/-! # Reconciliation under failures

The command over failing requests computes what the command over an answering service computes: first it
reads, then it changes. -/

namespace FlashyFactory
namespace Asana

variable {σ : Type} {api : Api σ} {s : σ} {project gid : String} {python : Python}

@[simp] theorem Session.service_start {fates : ℕ → Fate} : (Session.start s fates).service = s := rfl

@[simp] theorem Session.log_start {fates : ℕ → Fate} : (Session.start s fates).log = [] := rfl

theorem Session.Answers.next {session : Session σ} (h : session.Answers) : session.next.Answers :=
  fun n => h (n + 1)

/-! ## Reading -/

/-- The program reads in the state `s` and computes this answer, unless a request fails. -/
def Reads (s : σ) {α : Type} (x : Client σ α) (answer : Answer α) : Prop :=
  ∀ session, session.service = s → match x session with
    | .ok a t => answer = .ok a ∧ t.service = s ∧ t.log = session.log ∧ (session.Answers → t.Answers)
    | .error e t => t.service = s ∧ t.log = session.log ∧ (session.Answers → answer = .error e)

theorem Client.bind_eq {α β : Type} {x : Client σ α} {f : α → Client σ β} {session : Session σ} :
    (x >>= f) session = match x session with
      | .ok a t => f a t
      | .error e t => .error e t := by
  change EStateM.bind x f session = _
  cases h : x session <;> simp [EStateM.bind, h]

theorem Reads.simulates : Except.Simulates (m := Client σ) (ε := Failure) (Reads s) where
  pure a := fun session hservice => ⟨rfl, hservice, rfl, id⟩
  bind {_ _ x r f g} hx hf := by
    intro session hservice
    rw [Client.bind_eq]
    have hfirst := hx session hservice
    cases hresult : x session with
    | error e t =>
      rw [hresult] at hfirst
      obtain ⟨hservice', hlog, hanswers⟩ := hfirst
      exact ⟨hservice', hlog, fun h => by rw [hanswers h]; rfl⟩
    | ok a t =>
      rw [hresult] at hfirst
      obtain ⟨rfl, hservice', hlog, hanswers⟩ := hfirst
      have hrest := hf a t hservice'
      rw [Except.ok_bind]
      dsimp only
      cases hresult' : f a t with
      | error e u =>
        rw [hresult'] at hrest
        obtain ⟨hservice'', hlog', hanswers'⟩ := hrest
        exact ⟨hservice'', hlog'.trans hlog, fun h => hanswers' (hanswers h)⟩
      | ok b u =>
        rw [hresult'] at hrest
        obtain ⟨hb, hservice'', hlog', hanswers'⟩ := hrest
        exact ⟨hb, hservice'', hlog'.trans hlog, fun h => hanswers' (hanswers h)⟩

theorem Reads.bind {α β : Type} {x : Client σ α} {r : Answer α} {f : α → Client σ β} {g : α → Answer β}
    (hx : Reads s x r) (hf : ∀ a, Reads s (f a) (g a)) : Reads s (x >>= f) (r >>= g) :=
  Reads.simulates.bind hx hf

theorem Reads.pure {α : Type} (a : α) : Reads s (Pure.pure a : Client σ α) (.ok a) := Reads.simulates.pure a

theorem Reads.read {α : Type} (answer : σ → Answer α) : Reads s (Client.read answer) (answer s) := by
  rintro session rfl
  unfold Client.read
  cases hfate : session.fates 0 with
  | failed applied message rateLimited =>
    exact ⟨rfl, rfl, fun h => by cases hfate.symm.trans (h 0)⟩
  | answered =>
    cases hanswer : answer session.service with
    | ok a => exact ⟨rfl, rfl, rfl, Session.Answers.next⟩
    | error e => exact ⟨rfl, rfl, fun _ => rfl⟩

theorem Reads.validate {α : Type} (answer : Answer α) : Reads s (Client.validate answer) answer := by
  intro session hservice
  cases answer with
  | ok a => exact ⟨rfl, hservice, rfl, id⟩
  | error e => exact ⟨hservice, rfl, fun _ => rfl⟩

theorem Reads.dependencyState : Reads s (Client.dependencyState api project python gid assumedCompleted)
    (Asana.dependencyState api s project python gid assumedCompleted) := by
  refine Reads.bind ?_ fun w => Reads.pure _
  exact DepthFirst.walkM_simulates (G := graph api s project) Reads.simulates (fun e => Reads.validate _)
    fun node => Reads.read _

theorem Reads.routeOf {live : Task} : Reads s (Client.routeOf api project python gid dependent live)
    (Asana.routeOf api s project python gid dependent live) := by
  unfold Client.routeOf Asana.routeOf
  split
  · exact Reads.pure _
  split
  · exact Reads.pure _
  have hstate : Reads s (Client.dependencyState api project python dependent [gid]) _ := Reads.dependencyState
  exact hstate.bind fun state => Reads.pure (if state.blocked then [] else [(dependent, readyToImplement)])

theorem Reads.routes {seen dependents : List String} : Reads s (Client.routes api project python gid seen dependents)
    (Asana.routes api s project python gid seen dependents) := by
  induction dependents generalizing seen with
  | nil => exact Reads.pure _
  | cons dependent dependents ih =>
    refine (Reads.validate _).bind fun dependent => (Reads.validate _).bind fun _ => (Reads.read _).bind fun live =>
      Reads.routeOf.bind fun route => ih.bind fun rest => Reads.pure _

theorem Reads.readMerged {task : Task} : Reads s (Client.readMerged api project python task gid)
    (Asana.readMerged api s project python task gid) := by
  refine (Reads.read _).bind fun dependents => Reads.routes.bind fun routes => Reads.bind ?_ fun _ => Reads.pure _
  refine Reads.simulates.mapM fun name => ?_
  rw [Except.map_eq_bind]
  exact (Reads.read (resolveSection api · project name)).bind fun found => Reads.pure (name, found)

/-! ## Changing -/

/-- The program requests mutations of this kind only, and computes this function of the service unless one
fails. Whatever the mutations keep holds of the service at each failure. -/
structure Writes (api : Api σ) (planned : Mutation → Prop) (x : Client σ Unit) (f : σ → σ) : Prop where
  ok : ∀ session t, x session = .ok () t → t.service = f session.service ∧
    ∃ entries, t.log = session.log ++ entries ∧ ∀ entry ∈ entries, planned entry.1 ∧ entry.2 = .answered
  error : ∀ session e t, x session = .error e t → ∃ entries, t.log = session.log ++ entries ∧
    (∀ entry ∈ entries, planned entry.1) ∧ ∃ entry ∈ entries, entry.2 ≠ .answered
  answers : ∀ session : Session σ, session.Answers → ∃ t, x session = .ok () t ∧ t.Answers
  keeps : ∀ P : σ → Prop, (∀ mutation s, planned mutation → P s → P (mutation.apply api s)) →
    (∀ s, P s → P (f s)) ∧ ∀ session e t, P session.service → x session = .error e t → P t.service

namespace Writes
variable {planned : Mutation → Prop}

theorem pure : Writes api planned (Pure.pure ()) id where
  ok session t h := by
    cases h
    exact ⟨rfl, [], (List.append_nil _).symm, nofun⟩
  error _ _ _ h := nomatch h
  answers session h := ⟨session, rfl, h⟩
  keeps _ _ := ⟨fun _ h => h, fun _ _ _ _ h => nomatch h⟩

theorem mutate {mutation : Mutation} (hplanned : planned mutation) :
    Writes api planned (Client.mutate api mutation) (mutation.apply api) where
  ok session t h := by
    simp only [Client.mutate] at h
    split at h
    · next hfate =>
      cases h
      exact ⟨rfl, [(mutation, session.fates 0)], rfl, by simpa [hfate] using hplanned⟩
    · cases h
  error session e t h := by
    simp only [Client.mutate] at h
    split at h
    · cases h
    · next applied message rateLimited hfate =>
      cases h
      exact ⟨[(mutation, session.fates 0)], by split <;> rfl, by simpa using hplanned, by simp [hfate]⟩
  answers session h := by
    refine ⟨{ session.next with
      service := mutation.apply api session.service
      log := session.log ++ [(mutation, .answered)] }, ?_, fun n => h (n + 1)⟩
    simp only [Client.mutate, h 0]
  keeps P hkeep := by
    refine ⟨fun s h => hkeep mutation s hplanned h, fun session e t hP h => ?_⟩
    simp only [Client.mutate] at h
    split at h
    · cases h
    · cases h
      split
      · exact hkeep mutation _ hplanned hP
      · exact hP

theorem andThen {x y : Client σ Unit} (hx : Writes api planned x f) (hy : Writes api planned y g) :
    Writes api planned (x >>= fun _ => y) (fun s => g (f s)) where
  ok session t h := by
    rw [Client.bind_eq] at h
    cases hfirst : x session with
    | error => simp [hfirst] at h
    | ok a u =>
      obtain ⟨hservice, entries, hlog, hentries⟩ := hx.ok session u hfirst
      simp only [hfirst] at h
      obtain ⟨hservice', entries', hlog', hentries'⟩ := hy.ok u t h
      refine ⟨hservice'.trans (congrArg g hservice), entries ++ entries', ?_,
        List.forall_mem_append.mpr ⟨hentries, hentries'⟩⟩
      rw [hlog', hlog, List.append_assoc]
  error session e t h := by
    rw [Client.bind_eq] at h
    cases hfirst : x session with
    | error e' u =>
      simp only [hfirst] at h
      cases h
      exact hx.error session _ _ hfirst
    | ok a u =>
      obtain ⟨-, entries, hlog, hentries⟩ := hx.ok session u hfirst
      simp only [hfirst] at h
      obtain ⟨entries', hlog', hentries', entry, hmem, hfailed⟩ := hy.error u e t h
      refine ⟨entries ++ entries', by rw [hlog', hlog, List.append_assoc],
        List.forall_mem_append.mpr ⟨fun entry h => (hentries entry h).1, hentries'⟩, entry,
        List.mem_append_right _ hmem, hfailed⟩
  answers session h := by
    obtain ⟨u, hfirst, hu⟩ := hx.answers session h
    obtain ⟨t, hsecond, ht⟩ := hy.answers u hu
    exact ⟨t, by rw [Client.bind_eq, hfirst]; exact hsecond, ht⟩
  keeps P hkeep := by
    obtain ⟨hf, herror⟩ := hx.keeps P hkeep
    obtain ⟨hg, herror'⟩ := hy.keeps P hkeep
    refine ⟨fun s h => hg _ (hf s h), fun session e t hP h => ?_⟩
    rw [Client.bind_eq] at h
    cases hfirst : x session with
    | error e' u =>
      simp only [hfirst] at h
      cases h
      exact herror session _ _ hP hfirst
    | ok a u =>
      simp only [hfirst] at h
      obtain ⟨hservice, -⟩ := hx.ok session u hfirst
      exact herror' u e t (hservice ▸ hf _ hP) h

theorem moveTo {destinations : List (String × ProjectSection)}
    (hplanned : ∀ found, destinations.lookup name = some found → planned (.addTask found gid)) :
    Writes api planned (Client.moveTo api destinations gid name) fun s => match destinations.lookup name with
      | some found => api.addTask s found.gid gid
      | none => s := by
  unfold Client.moveTo
  cases hlookup : destinations.lookup name with
  | none => exact .pure
  | some found => exact .mutate (hplanned found hlookup)

theorem release {destinations : List (String × ProjectSection)} {routes : List (String × String)}
    (hplanned : ∀ dependent name found, (dependent, name) ∈ routes → destinations.lookup name = some found →
      planned (.addTask found dependent)) :
    Writes api planned (Client.release api destinations routes) (Asana.release api destinations routes) := by
  induction routes with
  | nil => exact .pure
  | cons route routes ih =>
    obtain ⟨dependent, name⟩ := route
    have hone : Writes api planned (Client.moveTo api destinations dependent name) _ :=
      moveTo fun found => hplanned dependent name found List.mem_cons_self
    have hmany := ih fun other name' found hmem => hplanned other name' found (List.mem_cons_of_mem _ hmem)
    have hboth := hone.andThen hmany
    exact hboth

end Writes

/-! ## The reconciliation of a merged pull request -/

/-- A mutation that the merged pull request calls for. -/
inductive Planned (api : Api σ) (s : σ) (project gid : String) (task : Task) (routes : List (String × String)) :
    Mutation → Prop
  | settle {found : ProjectSection} : task.isIn done = false → resolveSection api s project done = .ok found →
      Planned api s project gid task routes (.addTask found gid)
  | complete : task.completed = false → Planned api s project gid task routes (.complete gid)
  | release {dependent name : String} {found : ProjectSection} : (dependent, name) ∈ routes →
      resolveSection api s project name = .ok found →
      Planned api s project gid task routes (.addTask found dependent)

/-- The mutations after the reads. -/
def Client.writeMerged (api : Api σ) (task : Task) (gid : String)
    (plan : List (String × String) × List (String × ProjectSection)) : Client σ Unit := do
  moveToDone api plan.2 task gid
  completeUnless api task gid
  release api plan.2 plan.1

theorem Client.reconcileMerged_eq {task : Task} : Client.reconcileMerged api project python task gid = do
    let plan ← Client.readMerged api project python task gid
    Client.writeMerged api task gid plan
    return { status := "merged"
             released := (plan.1.filter fun route => route.2 = readyToImplement).map Prod.fst } := by
  unfold Client.reconcileMerged Client.writeMerged
  simp only [bind_assoc]

theorem lookup_resolved {names : List String} {destinations : List (String × ProjectSection)}
    (h : List.Forall₂ (fun name destination =>
      (resolveSection api s project name).map (fun found => (name, found)) = .ok destination) names destinations)
    (hlookup : destinations.lookup name = some found) : resolveSection api s project name = .ok found := by
  obtain ⟨_, _, heq, -⟩ := List.lookup_eq_some_iff.mp hlookup
  have hmem : (name, found) ∈ destinations := heq ▸ List.mem_append_right _ List.mem_cons_self
  obtain ⟨_, -, hresolve⟩ := Except.mapM_backward h hmem
  obtain ⟨_, hfound, heq⟩ := Except.map_eq_ok.mp hresolve
  cases heq
  exact hfound

theorem Writes.writeMerged {task : Task} {plan : List (String × String) × List (String × ProjectSection)}
    (hplan : Asana.readMerged api s project python task gid = .ok plan) :
    Writes api (Planned api s project gid task plan.1) (Client.writeMerged api task gid plan) fun s =>
      Asana.release api plan.2 plan.1 (completeUnless api task gid (settleDone api plan.2 task gid s)) := by
  obtain ⟨-, -, hdestinations⟩ := readMerged_eq_ok.mp hplan
  have hresolve : ∀ name found, plan.2.lookup name = some found → resolveSection api s project name = .ok found :=
    fun _ _ => lookup_resolved hdestinations
  have hsettle : Writes api (Planned api s project gid task plan.1) (Client.moveToDone api plan.2 task gid)
      (settleDone api plan.2 task gid) := by
    unfold Client.moveToDone settleDone
    cases hdone : task.isIn done with
    | true => exact .pure
    | false => exact .moveTo fun found hlookup => .settle hdone (hresolve done found hlookup)
  have hcomplete : Writes api (Planned api s project gid task plan.1) (Client.completeUnless api task gid)
      (completeUnless api task gid) := by
    unfold Client.completeUnless completeUnless
    cases hcompleted : task.completed with
    | true => exact .pure
    | false => exact .mutate (.complete hcompleted)
  have hrelease : Writes api (Planned api s project gid task plan.1) (Client.release api plan.2 plan.1)
      (Asana.release api plan.2 plan.1) :=
    .release fun dependent name found hmem hlookup => .release hmem (hresolve name found hlookup)
  exact hsettle.andThen (hcomplete.andThen hrelease)

def Report.ofRoutes (routes : List (String × String)) : Report where
  status := "merged"
  released := (routes.filter fun route => route.2 = readyToImplement).map Prod.fst

/-- The command reads the whole plan of an autonomous task, or fails before its first change. -/
theorem Client.reconcilePullRequest_course (project : String) (python : Python) (session : Session σ) {task : Task}
    (htask : api.task session.service gid = some task) (hlane : task.authorization = .autonomous) :
    (∃ e t, Client.reconcilePullRequest api project python gid .merged session = .error e t ∧
        t.service = session.service ∧ t.log = session.log ∧ (session.Answers → ∀ result,
          Asana.reconcilePullRequest api session.service project python gid .merged ≠ .ok result)) ∨
      isGid gid = true ∧ isGid project = true ∧ reconciliationTask api session.service project gid = .ok task ∧
      ∃ plan, Asana.readMerged api session.service project python task gid = .ok plan ∧
      ∃ t : Session σ, t.service = session.service ∧ t.log = session.log ∧ (session.Answers → t.Answers) ∧
        Client.reconcilePullRequest api project python gid .merged session =
          (Client.writeMerged api task gid plan >>= fun _ => Pure.pure (.ofRoutes plan.1)) t := by
  cases hgid : requireGid "task_gid" gid with
  | error e =>
    exact .inl ⟨e, session, by simp [Client.reconcilePullRequest, Client.bind_eq, Client.validate, hgid], rfl, rfl,
      fun _ _ h => by simp [Asana.reconcilePullRequest, hgid] at h⟩
  | ok =>
  obtain ⟨hgid', rfl⟩ := requireGid_eq_ok.mp hgid
  cases hproject : requireGid "ASANA_PROJECT_GID" project with
  | error e =>
    exact .inl ⟨e, session, by simp [Client.reconcilePullRequest, Client.bind_eq, Client.validate, hgid, hproject],
      rfl, rfl, fun _ _ h => by simp [Asana.reconcilePullRequest, hgid, hproject] at h⟩
  | ok =>
  obtain ⟨hproject', rfl⟩ := requireGid_eq_ok.mp hproject
  have hread := Reads.read (reconciliationTask api · project gid) session rfl
  cases hresult : Client.read (reconciliationTask api · project gid) session with
  | error e t =>
    rw [hresult] at hread
    obtain ⟨hservice, hlog, hanswers⟩ := hread
    refine .inl ⟨e, t, ?_, hservice, hlog, fun h result hrun => ?_⟩
    · simp [Client.reconcilePullRequest, Client.bind_eq, Client.validate, hgid, hproject, hresult]
    · simp [Asana.reconcilePullRequest, hgid, hproject, hanswers h] at hrun
  | ok found t =>
  rw [hresult] at hread
  obtain ⟨hlive, hservice, hlog, hanswers⟩ := hread
  cases htask.symm.trans (reconciliationTask_ok hlive).1
  have hmerged : Client.reconcilePullRequest api project python gid .merged session =
      Client.reconcileMerged api project python task gid t := by
    simp [Client.reconcilePullRequest, Client.bind_eq, Client.validate, hgid, hproject, hresult, hlane]
  rw [hmerged, Client.reconcileMerged_eq, Client.bind_eq]
  have hplan : Reads session.service (Client.readMerged api project python task gid) _ := Reads.readMerged
  replace hplan := hplan t hservice
  cases hresult' : Client.readMerged api project python task gid t with
  | error e u =>
    rw [hresult'] at hplan
    obtain ⟨hservice', hlog', hanswers'⟩ := hplan
    refine .inl ⟨e, u, rfl, hservice', hlog'.trans hlog, fun h result hrun => ?_⟩
    rw [Asana.reconcilePullRequest_autonomous hgid' hproject' hlive hlane, Asana.reconcileMerged_eq,
      hanswers' (hanswers h)] at hrun
    cases hrun
  | ok plan u =>
    rw [hresult'] at hplan
    obtain ⟨hplan, hservice', hlog', hanswers'⟩ := hplan
    exact .inr ⟨hgid', hproject', hlive, plan, hplan, u, hservice', hlog'.trans hlog, fun h => hanswers' (hanswers h),
      rfl⟩

/-- Everything that comes before the first change succeeds. -/
structure Prepared (api : Api σ) (s : σ) (project : String) (python : Python) (gid : String) (task : Task)
    (plan : List (String × String) × List (String × ProjectSection)) : Prop where
  validGid : isGid gid = true
  validProject : isGid project = true
  live : reconciliationTask api s project gid = .ok task
  reads : readMerged api s project python task gid = .ok plan

/-- How the command ends that starts in the state `s`. -/
inductive Course (api : Api σ) (s : σ) (project : String) (python : Python) (gid : String) (task : Task)
    (answers : Prop) : EStateM.Result Failure (Session σ) Report → Prop
  | unread {e t} : t.service = s → t.log = [] →
      (answers → ∀ result, reconcilePullRequest api s project python gid .merged ≠ .ok result) →
      Course api s project python gid task answers (.error e t)
  | finished {report t plan} : Prepared api s project python gid task plan →
      reconcilePullRequest api s project python gid .merged = .ok (report, t.service) →
      (∀ entry ∈ t.log, Planned api s project gid task plan.1 entry.1 ∧ entry.2 = .answered) →
      Course api s project python gid task answers (.ok report t)
  | interrupted {e t plan} : Prepared api s project python gid task plan → ¬ answers →
      (∀ entry ∈ t.log, Planned api s project gid task plan.1 entry.1) →
        (∃ entry ∈ t.log, entry.2 ≠ .answered) →
      (∀ P : σ → Prop, (∀ mutation u, Planned api s project gid task plan.1 mutation → P u →
        P (mutation.apply api u)) → P s → P t.service) →
      Course api s project python gid task answers (.error e t)

theorem reconcilePullRequest_courses (project : String) (python : Python) (fates : ℕ → Fate) {task : Task}
    (htask : api.task s gid = some task)
    (hlane : task.authorization = .autonomous) :
    Course api s project python gid task (∀ n, fates n = .answered)
      (Client.reconcilePullRequest api project python gid .merged (Session.start s fates)) := by
  rcases Client.reconcilePullRequest_course project python (Session.start s fates) htask hlane with
    ⟨e, t, hrun, hservice, hlog, hfails⟩ | ⟨hgid, hproject, hlive, plan, hplan, u, hservice, hlog,
      hanswers, hrun⟩
  · rw [hrun]
    exact .unread hservice hlog hfails
  rw [Session.service_start] at hlive hplan hservice
  rw [Session.log_start] at hlog
  have hwrites := Writes.writeMerged hplan
  rw [hrun, Client.bind_eq]
  cases hresult : Client.writeMerged api task gid plan u with
  | ok a t =>
    obtain ⟨hservice', entries, hlog', hentries⟩ := hwrites.ok u t hresult
    refine .finished ⟨hgid, hproject, hlive, hplan⟩ ?_ ?_
    · rw [Asana.reconcilePullRequest_autonomous hgid hproject hlive hlane, reconcileMerged_eq, hplan,
        hservice', hservice]
      rfl
    · rw [hlog', hlog]
      simpa using hentries
  | error e t =>
    obtain ⟨entries, hlog', hentries, hfailed⟩ := hwrites.error u e t hresult
    rw [hlog] at hlog'
    refine .interrupted ⟨hgid, hproject, hlive, hplan⟩ (fun h => ?_) (hlog' ▸ hentries) (hlog' ▸ hfailed)
      fun P hkeep hP => (hwrites.keeps P hkeep).2 u e t (hservice ▸ hP) hresult
    obtain ⟨_, hok, -⟩ := hwrites.answers u (hanswers h)
    cases hresult.symm.trans hok

/-! ## Interrupted runs -/

/-- The states that runs leave behind which did not end, each taken up where the one before it stopped. -/
inductive Interrupted (api : Api σ) (project : String) (python : Python) (gid : String) (s : σ) : σ → Prop
  | start : Interrupted api project python gid s s
  | again {t fates e session} : Interrupted api project python gid s t →
      Client.reconcilePullRequest api project python gid .merged (Session.start t fates) = .error e session →
      Interrupted api project python gid s session.service

/-- A part of the changes was made. -/
def Partway (api : Api σ) (s : σ) (project gid : String) (task : Task) (routes : List (String × String)) (t : σ) :
    Prop :=
  ∃ change, Changes api project change s t ∧ PartOf api s project gid task routes change

namespace Prepared
variable {task : Task} {plan plan' : List (String × String) × List (String × ProjectSection)}
  (H : Prepared api s project python gid task plan)
include H

theorem routesOf : RoutesOf api s project python gid (api.dependents s gid) plan.1 :=
  (routes_ok (readMerged_eq_ok.mp H.reads).2.1).1

/-- What a later run goes on to change was to be changed. -/
theorem planned_of_planned (hdoc : api.Documented) (hlane : task.authorization = .autonomous)
    (C : Changes api project change s t) (P : PartOf api s project gid task plan.1 change)
    (H' : Prepared api t project python gid { change.apply project gid task with modifiedAt := modifiedAt } plan')
    (h : Planned api t project gid { change.apply project gid task with modifiedAt := modifiedAt } plan'.1 mutation) :
    Planned api s project gid task plan.1 mutation := by
  have hresolve : ∀ {name}, resolveSection api t project name = resolveSection api s project name :=
    C.resolveSection_eq
  cases h with
  | settle hdone hfound =>
    refine .settle ?_ (hresolve ▸ hfound)
    rw [← Bool.not_eq_true]
    intro hsettled
    cases hdone.symm.trans (P.isIn_done H.routesOf hdoc (reconciliationTask_ok H.live).1 hlane hsettled)
  | complete hcompleted => exact .complete (Bool.or_eq_false_iff.mp hcompleted).1
  | @release dependent name found hmem hfound =>
    obtain ⟨hdependent, hrouted⟩ := (H'.routesOf.mem dependent name).mp hmem
    have hbefore := (C.mem_dependents hdoc).mp hdependent
    exact .release ((H.routesOf.mem dependent name).mpr
      ⟨hbefore, ((P.routed_iff H.routesOf C hbefore).mp hrouted).1⟩) (hresolve ▸ hfound)

theorem partway_apply (hdoc : api.Documented) (h : Partway api s project gid task plan.1 t)
    (hplanned : Planned api s project gid task plan.1 mutation) :
    Partway api s project gid task plan.1 (mutation.apply api t) := by
  obtain ⟨change, C, P⟩ := h
  have hplace : ∀ {other found before}, api.task s other = some before → before.Within project →
      found ∈ api.sections s project → ((other = gid ∧ task.isIn done = false ∧
        resolveSection api s project done = .ok found) ∨
        ∃ name, (other, name) ∈ plan.1 ∧ resolveSection api s project name = .ok found) →
      Partway api s project gid task plan.1 (api.addTask t found.gid other) := by
    intro other found before hbefore hwithin hfound hdestination
    obtain ⟨modifiedAt, hother⟩ := C.task hbefore
    refine ⟨_, C.trans (.addTask hdoc (by rwa [C.rewrites.sections]) hother (Change.apply_within hwithin)), ?_, ?_⟩
    · simpa [Change.andThen] using P.completes
    · intro moved sec hplaces
      simp only [Change.andThen, Option.or_eq_some_iff] at hplaces
      rcases hplaces with hplaces | ⟨-, hplaces⟩
      · split at hplaces
        · next h =>
          cases hplaces
          exact h ▸ hdestination
        · cases hplaces
      · exact P.places moved sec hplaces
  cases hplanned with
  | settle hdone hfound =>
    obtain ⟨htask, hwithin⟩ := reconciliationTask_ok H.live
    exact hplace htask hwithin (resolveSection_ok hfound).1 (.inl ⟨rfl, hdone, hfound⟩)
  | complete =>
    refine ⟨_, C.trans (.complete hdoc), fun other hcompletes => ?_, fun other found hplaces => ?_⟩
    · simp only [Change.andThen, Bool.or_eq_true, decide_eq_true_eq] at hcompletes
      exact hcompletes.elim (P.completes other) id
    · exact P.places other found (by simpa [Change.andThen] using hplaces)
  | @release dependent name found hmem hfound =>
    obtain ⟨live, hlive, -⟩ := H.routesOf.read dependent ((H.routesOf.mem dependent name).mp hmem).1
    obtain ⟨htask, hwithin⟩ := reconciliationTask_ok hlive
    exact hplace htask hwithin (resolveSection_ok hfound).1 (.inr ⟨name, hmem, hfound⟩)

theorem partway (hdoc : api.Documented) (hlane : task.authorization = .autonomous)
    (h : Interrupted api project python gid s t) : Partway api s project gid task plan.1 t := by
  induction h with
  | start => exact ⟨{}, .refl, nofun, nofun⟩
  | @again t fates e session _ hrun ih =>
    obtain ⟨change, C, P⟩ := ih
    obtain ⟨modifiedAt, htask⟩ := C.task (reconciliationTask_ok H.live).1
    have hcourse := reconcilePullRequest_courses project python fates htask
      (authorization_apply.trans hlane)
    rw [hrun] at hcourse
    cases hcourse with
    | unread hservice => exact hservice ▸ ⟨change, C, P⟩
    | interrupted H' _ _ _ hkeeps =>
      -- what this run changed was planned in the first state already
      refine hkeeps _ (fun mutation u hplanned hu => ?_) ⟨change, C, P⟩
      exact H.partway_apply hdoc hu (H.planned_of_planned hdoc hlane C P H' hplanned)

end Prepared

theorem Interrupted.eq_of_unprepared {task : Task} (htask : api.task s gid = some task)
    (hlane : task.authorization = .autonomous) (hnone : ∀ plan, ¬ Prepared api s project python gid task plan)
    (h : Interrupted api project python gid s t) : t = s := by
  induction h with
  | start => rfl
  | @again t fates e session _ hrun ih =>
    subst ih
    have hcourse := reconcilePullRequest_courses project python fates htask hlane
    rw [hrun] at hcourse
    cases hcourse with
    | unread hservice => exact hservice
    | interrupted H => exact (hnone _ H).elim

/-! ## The law -/

/-- A dependent of the task `gid` that waits for nothing else. -/
structure WaitsOnlyFor (api : Api σ) (s : σ) (project gid dependent : String) (live : Task) : Prop where
  task : api.task s dependent = some live
  direct : gid ∈ live.dependencies
  incomplete : live.completed = false
  approved : autonomousToPr ∈ live.tagNames
  automatic : backlogOnly ∉ live.tagNames
  waits : ∃ found, live.memberships = [⟨project, found⟩] ∧ found.name = waiting
  finished : ∀ node, Reaches api s dependent node → node ≠ dependent → node ≠ gid →
    ∃ blocker, api.task s node = some blocker ∧ blocker.completed = true

theorem Task.authorization_eq_autonomous {task : Task} (h : task.authorization = .autonomous) :
    autonomousToPr ∈ task.tagNames ∧ backlogOnly ∉ task.tagNames := by
  simp only [Task.authorization, List.contains_eq_mem] at h
  split at h
  · cases h
  · split at h
    · cases h
    · next hlane => simpa using hlane

theorem membership_of_isIn {task : Task} (hwithin : task.Within project) (h : task.isIn name = true) :
    ∃ found, task.memberships = [⟨project, found⟩] ∧ found.name = name := by
  obtain ⟨found, hfound⟩ := hwithin
  exact ⟨found, hfound, by simpa [Task.isIn, hfound] using h⟩

theorem Routed.waitsOnlyFor (hdoc : api.Documented) (hdependent : dependent ∈ api.dependents s gid)
    (h : Routed api s project python gid dependent name) (hname : name = readyToImplement) :
    ∃ live, WaitsOnlyFor api s project gid dependent live := by
  cases h with
  | contradictory => simp [needsDecision, readyToImplement] at hname
  | @autonomous live state hlive hcompleted hwaiting hlane hstate hblocked =>
    obtain ⟨htask, hwithin⟩ := reconciliationTask_ok hlive
    obtain ⟨_, hother, hdirect⟩ := hdoc.mem_dependents.mp hdependent
    cases htask.symm.trans hother
    obtain ⟨happroved, hautomatic⟩ := Task.authorization_eq_autonomous hlane
    obtain ⟨w, hwalk, -⟩ := dependencyState_eq_ok.mp hstate
    obtain ⟨_, -, hdescribes⟩ := dependencyState_describes hstate
    refine ⟨live, htask, hdirect, hcompleted, happroved, hautomatic, membership_of_isIn hwithin hwaiting,
      fun node hnode hself hgid => ?_⟩
    obtain ⟨blocker, hblocker, -⟩ := (WellFormed.of_walk hwalk).task node hnode
    refine ⟨blocker, hblocker, ?_⟩
    rw [← Bool.not_eq_false]
    intro hincomplete
    have hblocks := hdescribes.blocked.mpr ⟨node, hnode, hself, by simpa using hgid, blocker, hblocker, hincomplete⟩
    cases hblocked.symm.trans hblocks

theorem Task.authorization_ne_manual {task : Task} (h : task.authorization ≠ .manual) :
    backlogOnly ∈ task.tagNames → autonomousToPr ∈ task.tagNames := by
  intro hmanual
  by_contra hautonomous
  exact h (by simp [Task.authorization, hmanual, hautonomous])

/-- The mutations that a run requested, answered or not. -/
def requested : EStateM.Result Failure (Session σ) Report → List (Mutation × Fate)
  | .ok _ session => session.log
  | .error _ session => session.log

theorem Course.planned {task : Task} {result : EStateM.Result Failure (Session σ) Report}
    (h : Course api s project python gid task answers result) {entry : Mutation × Fate}
    (hentry : entry ∈ requested result) :
    ∃ plan, Prepared api s project python gid task plan ∧ Planned api s project gid task plan.1 entry.1 := by
  cases h with
  | unread _ hlog => simp [requested, hlog] at hentry
  | finished H _ hplanned => exact ⟨_, H, (hplanned entry hentry).1⟩
  | interrupted H _ hplanned => exact ⟨_, H, hplanned entry hentry⟩

/-- `reconcile_pull_request(gid, merged)` from the state `s`, whichever of its requests fail. -/
structure ReconcilesMerged (api : Api σ) (s : σ) (project : String) (python : Python) (gid : String) : Prop where
  releases : ∀ fates found dependent fate,
    (.addTask found dependent, fate) ∈
      requested (Client.reconcilePullRequest api project python gid .merged (Session.start s fates)) →
    found.name = readyToImplement → ∃ live, WaitsOnlyFor api s project gid dependent live
  /-- Another task that is moved is a dependent that is neither manual nor completed. -/
  spares : ∀ fates found dependent fate,
    (.addTask found dependent, fate) ∈
      requested (Client.reconcilePullRequest api project python gid .merged (Session.start s fates)) →
    dependent ≠ gid → ∃ live, api.task s dependent = some live ∧ gid ∈ live.dependencies ∧
      live.completed = false ∧ (backlogOnly ∈ live.tagNames → autonomousToPr ∈ live.tagNames)
  /-- A failure that is none of a mutation comes before all of them. -/
  unread : ∀ fates e session,
    Client.reconcilePullRequest api project python gid .merged (Session.start s fates) = .error e session →
    (∀ entry ∈ session.log, entry.2 = .answered) → session.log = [] ∧ session.service = s
  /-- After a failed mutation, a run whose requests are answered succeeds. -/
  resumes : ∀ t, Interrupted api project python gid s t → ∀ fates e session,
    Client.reconcilePullRequest api project python gid .merged (Session.start t fates) = .error e session →
    (∃ entry ∈ session.log, entry.2 ≠ .answered) → ∀ fates', (∀ n, fates' n = .answered) →
    ∃ report last,
      Client.reconcilePullRequest api project python gid .merged (Session.start session.service fates') =
        .ok report last
  /-- A run that succeeds at last leaves each task where the uninterrupted run leaves it. -/
  replays : ∀ t, Interrupted api project python gid s t → ∀ fates report session,
    Client.reconcilePullRequest api project python gid .merged (Session.start t fates) = .ok report session →
    ∀ fates', (∀ n, fates' n = .answered) → ∃ report' whole,
      Client.reconcilePullRequest api project python gid .merged (Session.start s fates') = .ok report' whole ∧
      ∀ other, (api.task session.service other).map Task.place = (api.task whole.service other).map Task.place

/-- The answered run computes what the command computes. -/
theorem Course.of_answers {task : Task} {result : EStateM.Result Failure (Session σ) Report} {answers : Prop}
    (h : Course api s project python gid task answers result) (hanswers : answers)
    (hrun : reconcilePullRequest api s project python gid .merged = .ok (report, s')) :
    ∃ session, result = .ok report session ∧ session.service = s' := by
  cases h with
  | unread _ _ hfails => exact (hfails hanswers _ hrun).elim
  | interrupted _ hnot => exact (hnot hanswers).elim
  | finished _ hpure =>
    cases hpure.symm.trans hrun
    exact ⟨_, rfl, rfl⟩

/-- **Merged pull requests are reconciled safely**: only what is safe is released, nothing changes when a
read fails, and a run can be taken up again. -/
theorem reconcilePullRequest_merges (hdoc : api.Documented) {task : Task} (htask : api.task s gid = some task)
    (hlane : task.authorization = .autonomous) : ReconcilesMerged api s project python gid where
  releases fates found dependent fate hentry hname := by
    obtain ⟨plan, H, hplanned⟩ := (reconcilePullRequest_courses project python fates htask hlane).planned hentry
    cases hplanned with
    | settle _ hfound => simp [(resolveSection_ok hfound).2, done, readyToImplement] at hname
    | release hmem hfound =>
      obtain ⟨hdependent, hrouted⟩ := (H.routesOf.mem _ _).mp hmem
      exact hrouted.waitsOnlyFor hdoc hdependent ((resolveSection_ok hfound).2.symm.trans hname)
  spares fates found dependent fate hentry hother := by
    obtain ⟨plan, H, hplanned⟩ := (reconcilePullRequest_courses project python fates htask hlane).planned hentry
    cases hplanned with
    | settle => exact (hother rfl).elim
    | release hmem _ =>
      obtain ⟨hdependent, hrouted⟩ := (H.routesOf.mem _ _).mp hmem
      obtain ⟨live, hlive, hdirect⟩ := hdoc.mem_dependents.mp hdependent
      refine ⟨live, hlive, hdirect, ?_⟩
      cases hrouted with
      | contradictory hread hcompleted _ hlane' | autonomous hread hcompleted _ hlane' =>
        cases hlive.symm.trans (reconciliationTask_ok hread).1
        exact ⟨hcompleted, Task.authorization_ne_manual (by simp [hlane'])⟩
  unread fates e session hrun hanswered := by
    have hcourse := reconcilePullRequest_courses project python fates htask hlane
    rw [hrun] at hcourse
    cases hcourse with
    | unread hservice hlog => exact ⟨hlog, hservice⟩
    | interrupted _ _ _ hfailed =>
      obtain ⟨entry, hentry, hfate⟩ := hfailed
      exact (hfate (hanswered entry hentry)).elim
  resumes t hinterrupted fates e session hrun hfailed fates' hanswers := by
    by_cases hprepared : ∃ plan, Prepared api s project python gid task plan
    · obtain ⟨plan, H⟩ := hprepared
      obtain ⟨change, C, P⟩ := H.partway hdoc hlane (hinterrupted.again hrun)
      obtain ⟨modifiedAt, htask'⟩ := C.task htask
      obtain ⟨_, _, report, t', -, hrest, -⟩ :=
        reconcile_replay hdoc H.validGid H.validProject H.live hlane H.reads P C
      have hcourse := reconcilePullRequest_courses project python fates' htask' (authorization_apply.trans hlane)
      obtain ⟨last, hlast, -⟩ := hcourse.of_answers hanswers hrest
      exact ⟨report, last, hlast⟩
    · obtain rfl := hinterrupted.eq_of_unprepared htask hlane (not_exists.mp hprepared)
      have hcourse := reconcilePullRequest_courses project python fates htask hlane
      rw [hrun] at hcourse
      cases hcourse with
      | unread _ hlog => simp [hlog] at hfailed
      | interrupted H => exact (hprepared ⟨_, H⟩).elim
  replays t hinterrupted fates report session hrun fates' hanswers := by
    by_cases hprepared : ∃ plan, Prepared api s project python gid task plan
    · obtain ⟨plan, H⟩ := hprepared
      obtain ⟨change, C, P⟩ := H.partway hdoc hlane hinterrupted
      obtain ⟨modifiedAt, htask'⟩ := C.task htask
      obtain ⟨report', s', _, t', hwhole, hrest, hplaces⟩ :=
        reconcile_replay hdoc H.validGid H.validProject H.live hlane H.reads P C
      have hcourse := reconcilePullRequest_courses project python fates htask'
        (authorization_apply.trans hlane)
      rw [hrun] at hcourse
      cases hcourse with
      | finished _ hpure =>
        cases hpure.symm.trans hrest
        have hcourse := reconcilePullRequest_courses project python fates' htask hlane
        obtain ⟨whole, hrun', rfl⟩ := hcourse.of_answers hanswers hwhole
        exact ⟨report', whole, hrun', hplaces⟩
    · obtain rfl := hinterrupted.eq_of_unprepared htask hlane (not_exists.mp hprepared)
      have hcourse := reconcilePullRequest_courses project python fates htask hlane
      rw [hrun] at hcourse
      cases hcourse with
      | finished H => exact (hprepared ⟨_, H⟩).elim

namespace Memory

/-- `b` waits for `a`. -/
def merging : Memory where
  tasks := ⟨[sample "a" [] false readySection, sample "b" ["a"] false waitingSection], by decide⟩
  sections := sampleSections

/-- The answer to the request after `n` others is lost. -/
def losing (n : ℕ) : ℕ → Fate :=
  fun k => if k = n then .failed true "Asana API connection failed" false else .answered

end Memory

theorem reconcilePullRequest_merges_merging :
    ReconcilesMerged Memory.api Memory.merging "p" (pythonOf id) "a" := by
  have htask : Memory.api.task Memory.merging "a" = some (Memory.sample "a" [] false Memory.readySection) := by
    decide
  exact reconcilePullRequest_merges Memory.documented htask (by decide)

-- The parent is moved, and its completion is not confirmed.
example : (requested (Client.reconcilePullRequest Memory.api "p" (pythonOf id) "a" .merged
    (Session.start Memory.merging (Memory.losing 8)))).map Prod.fst =
      [.addTask Memory.doneSection "a", .complete "a"] := by decide

end Asana
end FlashyFactory
