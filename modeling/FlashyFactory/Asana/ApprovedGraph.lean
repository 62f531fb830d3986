import FlashyFactory.Asana.Approval

/-! # What an approval writes

An approval that succeeds gives the task the confirmed dependencies and sends it where these let it go. The
dependencies of the other tasks stay, and no cycle is closed. -/

namespace FlashyFactory
namespace Asana

variable {σ : Type} {api : Api σ} {s s' s'' : σ} {project gid : String} {python : Python}

/-! ## Programs that end -/

theorem Client.bind_eq_ok {α β : Type} {x : Client σ α} {f : α → Client σ β}
    {session last : Session σ} {b : β} :
    (x >>= f) session = .ok b last ↔ ∃ a t, x session = .ok a t ∧ f a t = .ok b last := by
  rw [Client.bind_eq]
  cases x session <;> simp

theorem Client.pure_eq_ok {α : Type} {a b : α} {session last : Session σ} :
    (Pure.pure a : Client σ α) session = .ok b last ↔ a = b ∧ session = last := by
  change EStateM.Result.ok a session = .ok b last ↔ _
  simp

theorem Client.validate_eq_ok {α : Type} {answer : Answer α} {a : α} {session last : Session σ} :
    Client.validate answer session = .ok a last ↔ answer = .ok a ∧ session = last := by
  cases answer <;> simp [Client.validate]

theorem Reads.ok {α : Type} {x : Client σ α} {answer : Answer α} {session last : Session σ} {a : α}
    (h : Reads session.service x answer) (hrun : x session = .ok a last) :
    answer = .ok a ∧ last.service = session.service := by
  have hsession := h session rfl
  rw [hrun] at hsession
  exact ⟨hsession.1, hsession.2.1⟩

theorem Client.mutate_ok {mutation : Mutation} {session last : Session σ}
    (h : Client.mutate api mutation session = .ok () last) : last.service = mutation.apply api session.service := by
  have hwrites : Writes api (fun _ => True) (Client.mutate api mutation) (mutation.apply api) := .mutate trivial
  exact (hwrites.ok session last h).1

theorem Client.mutateUnless_ok {skip : Prop} [Decidable skip] {mutation : Mutation} {session last : Session σ}
    (h : Client.mutateUnless api skip mutation session = .ok () last) :
    last.service = if skip then session.service else mutation.apply api session.service := by
  unfold Client.mutateUnless at h
  split at h
  · next hskip =>
    rw [if_pos hskip, (Client.pure_eq_ok.mp h).2]
  · next hskip =>
    rw [if_neg hskip, Client.mutate_ok h]

/-! ## Dependencies that are written -/

/-- The task has these dependencies, and otherwise nothing has changed. -/
structure Relinked (api : Api σ) (s s' : σ) (gid : String) (task : Task) (mem : String → Prop) : Prop where
  sections : api.sections s' = api.sections s
  others : ∀ other, other ≠ gid → ∃ modifiedAt,
    api.task s' other = (api.task s other).map fun task => { task with modifiedAt := modifiedAt }
  task : ∃ dependencies modifiedAt,
    api.task s' gid = some { task with dependencies := dependencies, modifiedAt := modifiedAt } ∧
      ∀ blocker, blocker ∈ dependencies ↔ mem blocker

theorem Relinked.refl {task : Task} (htask : api.task s gid = some task) :
    Relinked api s s gid task (· ∈ task.dependencies) where
  sections := rfl
  others other _ := by
    cases h : api.task s other with
    | none => exact ⟨"", rfl⟩
    | some task => exact ⟨task.modifiedAt, rfl⟩
  task := ⟨task.dependencies, task.modifiedAt, htask, fun _ => Iff.rfl⟩

/-- One more request that rewrites the dependencies. -/
theorem Relinked.trans {task : Task} {mem mem' : String → Prop} (H : Relinked api s s' gid task mem)
    {f : List String → List String} (hrewrites : Rewrites api s' s'' (onTask gid fun task => { task with
      dependencies := f task.dependencies }))
    (hmem : ∀ dependencies, (∀ blocker, blocker ∈ dependencies ↔ mem blocker) →
      ∀ blocker, blocker ∈ f dependencies ↔ mem' blocker) :
    Relinked api s s'' gid task mem' where
  sections := hrewrites.sections.trans H.sections
  others other hother := by
    obtain ⟨modifiedAt, hrewrite⟩ := hrewrites.task
    obtain ⟨_, hbefore⟩ := H.others other hother
    refine ⟨modifiedAt other, ?_⟩
    rw [hrewrite, hbefore, Option.map_map]
    congr 1
    funext task
    simp [onTask, hother]
  task := by
    obtain ⟨modifiedAt, hrewrite⟩ := hrewrites.task
    obtain ⟨dependencies, _, htask, hdependencies⟩ := H.task
    refine ⟨f dependencies, modifiedAt gid, ?_, hmem dependencies hdependencies⟩
    rw [hrewrite, htask]
    simp [onTask]

/-- What `writeApproval` has written before it reads again. -/
theorem Relinked.confirmed (hdoc : api.Documented) {task : Task} (htask : api.task s gid = some task)
    {confirmed additions removals : List String} (hnodup : additions.Nodup)
    (hadditions : ∀ blocker, blocker ∈ additions ↔ blocker ∈ confirmed ∧ blocker ∉ task.dependencies)
    (hremovals : ∀ blocker, blocker ∈ removals ↔ blocker ∈ task.dependencies ∧ blocker ∉ confirmed)
    (hs' : s' = if additions = [] then s else api.addDependencies s gid additions)
    (hs'' : s'' = if removals = [] then s' else api.removeDependencies s' gid removals) :
    Relinked api s s'' gid task (· ∈ confirmed) := by
  have hadded : Relinked api s s' gid task fun blocker => blocker ∈ task.dependencies ∨ blocker ∈ additions := by
    rw [hs']
    split
    · next hnone =>
      have hsame : (fun blocker => blocker ∈ task.dependencies ∨ blocker ∈ additions) =
        (· ∈ task.dependencies) := by
        simp [hnone]
      rw [hsame]
      exact .refl htask
    · obtain ⟨order, horder, hrewrites⟩ : ∃ order : List String → List String, (∀ _, _) ∧
        Rewrites api s _ _ :=
        hdoc.addDependencies hnodup
      refine (Relinked.refl htask).trans
        (f := fun dependencies => order (dependencies ++ additions.filter (· ∉ dependencies))) hrewrites ?_
      intro dependencies hdependencies blocker
      rw [(horder _).mem_iff, List.mem_append, List.mem_filter, decide_eq_true_eq, hdependencies]
      tauto
  have hremoved : ∀ blocker, (blocker ∈ task.dependencies ∨ blocker ∈ additions) ∧ blocker ∉ removals ↔
      blocker ∈ confirmed := by
    intro blocker
    rw [hadditions, hremovals]
    tauto
  rw [hs'']
  split
  · next hnone =>
    have hsame : (fun blocker => blocker ∈ task.dependencies ∨ blocker ∈ additions) = (· ∈ confirmed) := by
      funext blocker
      rw [← hremoved, hnone]
      simp
    exact hsame ▸ hadded
  · obtain ⟨order, horder, hrewrites⟩ : ∃ order : List String → List String, (∀ _, _) ∧
      Rewrites api s' _ _ :=
      hdoc.removeDependencies
    refine hadded.trans (f := fun dependencies => order (dependencies.filter (· ∉ removals))) hrewrites ?_
    intro dependencies hdependencies blocker
    rw [(horder _).mem_iff, List.mem_filter, decide_eq_true_eq, hdependencies, hremoved]

namespace Relinked
variable {task : Task} {mem : String → Prop} (H : Relinked api s s' gid task mem)
include H

theorem depends_self : Depends api s' gid blocker ↔ mem blocker := by
  obtain ⟨dependencies, modifiedAt, htask, hmem⟩ := H.task
  constructor
  · rintro ⟨task', htask', hblocker⟩
    cases htask.symm.trans htask'
    exact (hmem blocker).mp hblocker
  · intro hblocker
    exact ⟨_, htask, (hmem blocker).mpr hblocker⟩

theorem dependencies_other (hother : other ≠ gid) :
    (api.task s' other).map Task.dependencies = (api.task s other).map Task.dependencies := by
  obtain ⟨modifiedAt, h⟩ := H.others other hother
  rw [h, Option.map_map]
  rfl

theorem depends_other (hother : other ≠ gid) : Depends api s' other blocker ↔ Depends api s other blocker := by
  have hmap : ∀ u, Depends api u other blocker ↔ ∃ dependencies,
      (api.task u other).map Task.dependencies = some dependencies ∧ blocker ∈ dependencies := by
    intro u
    simp [Depends]
  rw [hmap, hmap, H.dependencies_other hother]

end Relinked

/-! ## What was read -/

theorem readApproval_eq_ok {approval : Json} {confirmed : List String}
    (h : readApproval gid approval = .ok confirmed) : ∃ fields items, approval = .object fields ∧
      confirmedOf fields = some items ∧ confirmed.Nodup ∧
        (∀ blocker, blocker ∈ confirmed ↔ blocker ∈ items) ∧
      gid ∉ confirmed := by
  unfold readApproval at h
  split at h
  · next fields =>
    simp only [Except.bind_eq_ok, refuseIf_eq_ok] at h
    obtain ⟨_, -, h⟩ := h
    split at h
    · simp at h
    · next items hitems =>
      simp only [Except.bind_eq_ok, refuseIf_eq_ok, Except.pure_eq_ok, Except.mapM_eq_ok, requireGid_eq_ok] at h
      obtain ⟨gids, hgids, _, hlength, _, hself, rfl⟩ := h
      have hsame : items = gids := by
        rw [List.forall₂_and_left, List.forall₂_eq_eq_eq] at hgids
        exact hgids.2
      subst hsame
      refine ⟨fields, items, rfl, hitems, ?_, fun blocker => ?_, hself⟩
      · exact (List.perm_insertionSort _ _).nodup_iff.mpr (List.nodup_dedup _)
      · rw [List.mem_insertionSort, List.mem_dedup]
  · simp at h

theorem reachTask_eq_ok {dependencies : List String} (h : reachTask api project s current = .ok dependencies) :
    ∃ task, api.task s current = some task ∧ dependencies = task.dependencies := by
  simp only [reachTask, Except.bind_eq_ok, request_eq_ok, refuseIf_eq_ok, Except.pure_eq_ok] at h
  obtain ⟨task, htask, _, -, _, -, _, -, _, -, _, -, rfl⟩ := h
  exact ⟨task, htask, rfl⟩

/-- A search along the requests misses no dependency. -/
theorem not_reaches_of_search
    (h : StackSearch.search (reachTask api project s) gid turns [blocker] [] = .ok (some false)) :
    ¬ Reaches api s blocker gid := by
  refine StackSearch.not_reaches_of_search (fun a dependencies b hread hedge => ?_) h
  obtain ⟨task, htask, rfl⟩ := reachTask_eq_ok hread
  obtain ⟨other, hother, hb⟩ := hedge
  cases htask.symm.trans hother
  exact hb

theorem Reads.dependencyReaches : Reads s (Client.dependencyReaches api project turns blocker gid)
    (StackSearch.search (reachTask api project s) gid turns [blocker] []) :=
  StackSearch.search_simulates Reads.simulates fun _ => Reads.read _

theorem checkAdditions_ok {additions : List String} {session last : Session σ}
    (h : Client.checkAdditions api project turns gid additions session = .ok (some ()) last) :
    last.service = session.service ∧ ∀ blocker ∈ additions, ¬ Reaches api session.service blocker gid := by
  induction additions generalizing session with
  | nil =>
    obtain ⟨-, rfl⟩ := Client.pure_eq_ok.mp h
    exact ⟨rfl, nofun⟩
  | cons blocker additions ih =>
    obtain ⟨found, t, hsearch, h⟩ := Client.bind_eq_ok.mp h
    obtain ⟨hfound, hservice⟩ := Reads.dependencyReaches.ok hsearch
    cases found with
    | none => cases (Client.pure_eq_ok.mp h).1
    | some met =>
      cases met with
      | true =>
        obtain ⟨hnone, -⟩ := Client.validate_eq_ok.mp h
        cases hnone
      | false =>
        obtain ⟨hlast, hrest⟩ := ih h
        rw [hservice] at hlast hrest
        exact ⟨hlast, List.forall_mem_cons.mpr ⟨not_reaches_of_search hfound, hrest⟩⟩

def readConfirmed (api : Api σ) (s : σ) (project : String) (python : Python) (gid : String) (approval : Json) :
    Answer (List String × List String) := do
  let _ ← approvalTask api project s gid
  let confirmed ← readApproval gid approval
  let _ ← confirmed.mapM fun blocker => taskInProject api s project blocker
  let live ← dependencyState api s project python gid []
  return (confirmed, live.dependencies)

theorem Reads.readConfirmed {approval : Json} : Reads s (Client.readConfirmed api project python gid approval)
    (Asana.readConfirmed api s project python gid approval) := by
  refine (Reads.read _).bind fun _ => (Reads.validate _).bind fun confirmed => Reads.bind ?_ fun _ =>
    Reads.dependencyState.bind fun live => Reads.pure _
  exact Reads.simulates.mapM fun blocker => Reads.read _

/-! ## What is written -/

theorem moveTask_ok {session last : Session σ} (h : Client.moveTask api project gid name session = .ok () last) :
    ∃ found, resolveSection api session.service project name = .ok found ∧
      last.service = api.addTask session.service found.gid gid := by
  simp only [Client.moveTask, Client.bind_eq_ok, Client.validate_eq_ok, requireGid_eq_ok, requireName_eq_ok] at h
  obtain ⟨_, _, ⟨⟨-, rfl⟩, rfl⟩, _, _, ⟨⟨-, rfl⟩, rfl⟩, _, t, htask, _, _,
    ⟨⟨-, rfl⟩, rfl⟩, found, u, hfound, h⟩ := h
  obtain ⟨-, ht⟩ := (Reads.read _).ok htask
  obtain ⟨hfound, hu⟩ := (Reads.read _).ok hfound
  rw [ht] at hfound hu
  exact ⟨found, hfound, hu ▸ Client.mutate_ok h⟩

/-- Where a task goes whose dependencies are approved. -/
def Unblocked (api : Api σ) (s : σ) (gid : String) : Prop :=
  ∀ node, Reaches api s gid node → node ≠ gid → (api.task s node).any Task.completed = true

/-- The dependencies of the task are these, and it is where they let it be. -/
structure Approved (api : Api σ) (s s' : σ) (project gid : String) (confirmed : List String) : Prop where
  dependencies : ∃ task, api.task s' gid = some task ∧ ∀ blocker, blocker ∈ task.dependencies ↔
    blocker ∈ confirmed
  others : ∀ other, other ≠ gid →
    (api.task s' other).map Task.dependencies = (api.task s other).map Task.dependencies
  acyclic : ∀ node, ¬ Relation.TransGen (Depends api s) node node → ¬ Relation.TransGen (Depends api s') node node
  placed : ∃ task found, api.task s' gid = some task ∧ task.memberships = [⟨project, found⟩] ∧
    (Unblocked api s' gid ∧ found.name = readyToImplement ∨ ¬ Unblocked api s' gid ∧ found.name = waiting)

theorem Approved.congr {confirmed items : List String} (H : Approved api s s' project gid confirmed)
    (h : ∀ blocker, blocker ∈ confirmed ↔ blocker ∈ items) : Approved api s s' project gid items := by
  obtain ⟨task, htask, hmem⟩ := H.dependencies
  exact ⟨⟨task, htask, fun blocker => (hmem blocker).trans (h blocker)⟩, H.others, H.acyclic, H.placed⟩

/-- No blocker of the task reaches it. -/
theorem Relinked.acyclic {task : Task} {confirmed : List String}
    (H : Relinked api s s' gid task (· ∈ confirmed))
    (hconfirmed : ∀ blocker ∈ confirmed, ¬ Reaches api s blocker gid)
    (node : String) (h : ¬ Relation.TransGen (Depends api s) node node) :
    ¬ Relation.TransGen (Depends api s') node node := by
  refine fun hcycle => h (StackSearch.cycle_old (a := gid) (fun x y hx hedge => ?_) (fun b hedge => ?_) hcycle)
  · exact (H.depends_other hx).mp hedge
  · exact hconfirmed b (H.depends_self.mp hedge)

theorem unblocked_iff (h : dependencyState api s project python gid [] = .ok state) :
    Unblocked api s gid ↔ state.blocked = false := by
  obtain ⟨w, hwalk, -⟩ := dependencyState_eq_ok.mp h
  obtain ⟨_, -, hdescribes⟩ := dependencyState_describes h
  rw [← Bool.not_eq_true, hdescribes.blocked]
  constructor
  · rintro hunblocked ⟨node, hnode, hne, -, blocker, hblocker, hincomplete⟩
    have hcompleted := hunblocked node hnode hne
    rw [hblocker, Option.any_some, hincomplete] at hcompleted
    cases hcompleted
  · intro hnone node hnode hne
    obtain ⟨blocker, hblocker, -⟩ := (WellFormed.of_walk hwalk).task node hnode
    rw [hblocker, Option.any_some, ← Bool.not_eq_false]
    exact fun hincomplete => hnone ⟨node, hnode, hne, by simp, blocker, hblocker, hincomplete⟩

theorem Changes.unblocked_iff {change : Change} (C : Changes api project change s s')
    (hcompletes : ∀ other, change.completes other = false) : Unblocked api s' gid ↔ Unblocked api s gid := by
  refine forall_congr' fun node => ?_
  rw [C.reaches_iff]
  have hsame : (api.task s' node).any Task.completed = (api.task s node).any Task.completed := by
    obtain ⟨modifiedAt, hrewrite⟩ := C.rewrites.task
    rw [hrewrite]
    cases api.task s node <;> simp [Change.apply, hcompletes]
  rw [hsame]

theorem writeApproval_ok (hdoc : api.Documented) {confirmed additions removals : List String}
    {session last : Session σ}
    {task : Task} (htask : api.task session.service gid = some task) (hnodup : additions.Nodup)
    (hadditions : ∀ blocker, blocker ∈ additions ↔ blocker ∈ confirmed ∧ blocker ∉ task.dependencies)
    (hremovals : ∀ blocker, blocker ∈ removals ↔ blocker ∈ task.dependencies ∧ blocker ∉ confirmed)
    (hconfirmed : ∀ blocker ∈ confirmed, ¬ Reaches api session.service blocker gid)
    (h : Client.writeApproval api project python gid confirmed additions removals session = .ok report last) :
    Approved api session.service last.service project gid confirmed := by
  simp only [Client.writeApproval, Client.bind_eq_ok, Client.pure_eq_ok] at h
  obtain ⟨_, t, hadd, _, u, hremove, state, v, hstate, _, w, hmove, -, rfl⟩ := h
  have H := Relinked.confirmed hdoc htask hnodup hadditions hremovals (Client.mutateUnless_ok hadd)
    (Client.mutateUnless_ok hremove)
  obtain ⟨hstate, hv⟩ := Reads.dependencyState.ok hstate
  obtain ⟨found, hfound, hlast⟩ := moveTask_ok hmove
  rw [hv] at hfound hlast
  obtain ⟨walk, hwalk, -⟩ := dependencyState_eq_ok.mp hstate
  obtain ⟨before, hbefore, hformed⟩ := (WellFormed.of_walk hwalk).task gid .refl
  -- the move changes neither the graph nor what is completed
  have C : Changes api project { places := fun other => if other = gid then some found else none }
    u.service w.service :=
    hlast ▸ Changes.addTask hdoc (resolveSection_ok hfound).1 hbefore hformed.within
  obtain ⟨modifiedAt, hafter⟩ := C.task hbefore
  have hdepends : Depends api w.service = Depends api u.service := funext₂ fun _ _ => propext C.depends_iff
  have hunblocked : Unblocked api w.service gid ↔ state.blocked = false :=
    (C.unblocked_iff fun _ => rfl).trans (unblocked_iff hstate)
  refine ⟨⟨_, hafter, fun blocker => ?_⟩, fun other hother => ?_, fun node h => ?_, ?_⟩
  · obtain ⟨dependencies, _, hlinked, hmem⟩ := H.task
    cases hbefore.symm.trans hlinked
    exact hmem blocker
  · obtain ⟨_, hrewrite⟩ := C.rewrites.task
    rw [← H.dependencies_other hother, hrewrite, Option.map_map]
    rfl
  · rw [hdepends]
    exact H.acyclic hconfirmed node h
  · refine ⟨_, found, hafter, by simp [Change.apply], ?_⟩
    rw [hunblocked, (resolveSection_ok hfound).2]
    cases state.blocked <;> simp

/-- What an approval that does not fail has read, and what its searches found. -/
theorem applySpecApproval_eq_ok {approval : Json} {fates : ℕ → Fate} {result : Option ApprovalReport}
    {last : Session σ}
    (h : Client.applySpecApproval api project python turns gid approval (Session.start s fates) =
      .ok result last) :
    ∃ confirmed existing t found u, readConfirmed api s project python gid approval = .ok (confirmed, existing) ∧
      t.service = s ∧
      Client.checkAdditions api project turns gid (confirmed.filter fun blocker => blocker ∉ existing) t =
        .ok found u ∧
      match found with
      | none => result = none
      | some () => ∃ report, result = some report ∧
        Client.writeApproval api project python gid confirmed (confirmed.filter fun blocker => blocker ∉ existing)
          ((existing.filter fun blocker => blocker ∉ confirmed).insertionSort (· ≤ ·)) u = .ok report last := by
  simp only [Client.applySpecApproval, Client.bind_eq_ok, Client.validate_eq_ok, requireGid_eq_ok] at h
  obtain ⟨_, _, ⟨⟨-, rfl⟩, rfl⟩, _, _, ⟨⟨-, rfl⟩, rfl⟩, ⟨confirmed, existing⟩, t, hread, found, u,
    hcheck, h⟩ := h
  obtain ⟨hread, ht⟩ := Reads.readConfirmed.ok hread
  rw [Session.service_start] at hread ht
  refine ⟨confirmed, existing, t, found, u, hread, ht, hcheck, ?_⟩
  cases found with
  | none => exact (Client.pure_eq_ok.mp h).1.symm
  | some =>
    obtain ⟨report, w, hwrite, hend⟩ := Client.bind_eq_ok.mp h
    obtain ⟨rfl, rfl⟩ := Client.pure_eq_ok.mp hend
    exact ⟨report, rfl, hwrite⟩

theorem applySpecApproval_ok (hdoc : api.Documented) {approval : Json} {fates : ℕ → Fate} {last : Session σ}
    (h : Client.applySpecApproval api project python turns gid approval (Session.start s fates) =
      .ok (some report) last) :
    ∃ fields items, approval = .object fields ∧ confirmedOf fields = some items ∧
      Approved api s last.service project gid items := by
  obtain ⟨_, _, t, found, u, hread, ht, hcheck, hfound⟩ := applySpecApproval_eq_ok h
  simp only [readConfirmed, Except.bind_eq_ok, Except.pure_eq_ok, Prod.mk.injEq] at hread
  obtain ⟨_, -, confirmed, hconfirmed, _, -, live, hlive, rfl, rfl⟩ := hread
  obtain ⟨fields, items, rfl, hitems, hnodup, hsame, -⟩ := readApproval_eq_ok hconfirmed
  refine ⟨fields, items, rfl, hitems, ?_⟩
  cases found with
  | none => cases hfound
  | some =>
    obtain ⟨_, -, hwrite⟩ := hfound
    obtain ⟨hu, hsearched⟩ := checkAdditions_ok hcheck
    rw [ht] at hu hsearched
    obtain ⟨walk, hwalk, -⟩ := dependencyState_eq_ok.mp hlive
    obtain ⟨task, htask, hdescribes⟩ := dependencyState_describes hlive
    have hexisting : ∀ blocker, blocker ∈ live.dependencies ↔ blocker ∈ task.dependencies := fun blocker => by
      rw [hdescribes.dependencies, List.mem_insertionSort]
    have hacyclic : ∀ blocker ∈ confirmed, ¬ Reaches api s blocker gid := by
      intro blocker hblocker hreaches
      by_cases hold : blocker ∈ live.dependencies
      · have hedge : Depends api s gid blocker := ⟨task, htask, (hexisting blocker).mp hold⟩
        exact (WellFormed.of_walk hwalk).acyclic gid .refl (.head' hedge hreaches)
      · exact hsearched blocker (List.mem_filter.mpr ⟨hblocker, by simpa using hold⟩) hreaches
    have happroved := writeApproval_ok hdoc (hu ▸ htask) (hnodup.filter _) (fun blocker => ?_) (fun blocker => ?_)
      (hu ▸ hacyclic) hwrite
    · rw [hu] at happroved
      exact happroved.congr hsame
    · rw [List.mem_filter, decide_eq_true_eq, hexisting]
    · rw [List.mem_insertionSort, List.mem_filter, decide_eq_true_eq, hexisting]

/-! ## The number of turns -/

/-- How many dependencies a task has. -/
def degree (api : Api σ) (s : σ) (gid : String) : ℕ :=
  ((api.task s gid).map fun task => task.dependencies.length).getD 0

theorem search_ends {nodes : Finset String} (hblocker : blocker ∈ nodes)
    (hnodes : ∀ a task, api.task s a = some task → ∀ b ∈ task.dependencies, b ∈ nodes)
    (hturns : 1 + ∑ a ∈ nodes, degree api s a < turns) :
    StackSearch.search (reachTask api project s) gid turns [blocker] [] ≠ .ok none := by
  refine StackSearch.search_ne_none nodes (degree api s) (fun a _ dependencies hread => ?_) ?_ ?_
  · obtain ⟨task, htask, rfl⟩ := reachTask_eq_ok hread
    exact ⟨by simp [degree, htask], hnodes a task htask⟩
  · simpa using hblocker
  · simpa [StackSearch.toCome] using hturns

theorem checkAdditions_ends (nodes : Finset String) {additions : List String} {session last : Session σ}
    (hadditions : ∀ blocker ∈ additions, blocker ∈ nodes)
    (hnodes : ∀ a task, api.task session.service a = some task → ∀ b ∈ task.dependencies, b ∈ nodes)
    (hturns : 1 + ∑ a ∈ nodes, degree api session.service a < turns) :
    Client.checkAdditions api project turns gid additions session ≠ .ok none last := by
  induction additions generalizing session with
  | nil => exact nofun
  | cons blocker additions ih =>
    obtain ⟨hblocker, hadditions⟩ := List.forall_mem_cons.mp hadditions
    intro h
    obtain ⟨found, t, hsearch, h⟩ := Client.bind_eq_ok.mp h
    obtain ⟨hfound, hservice⟩ := Reads.dependencyReaches.ok hsearch
    cases found with
    | none => exact search_ends hblocker hnodes hturns hfound
    | some met =>
      cases met with
      | true => cases (Client.validate_eq_ok.mp h).1
      | false => exact ih hadditions (hservice ▸ hnodes) (hservice ▸ hturns) h

/-- More turns than there are tasks and dependencies suffice for every search of an approval. -/
theorem applySpecApproval_ends {approval : Json} {fates : ℕ → Fate} {last : Session σ} {nodes : Finset String}
    (hnodes : ∀ a task, api.task s a = some task → a ∈ nodes ∧ ∀ b ∈ task.dependencies, b ∈ nodes)
    (hturns : 1 + ∑ a ∈ nodes, degree api s a < turns) :
    Client.applySpecApproval api project python turns gid approval (Session.start s fates) ≠ .ok none last := by
  intro h
  obtain ⟨_, _, t, found, u, hread, ht, hcheck, hfound⟩ := applySpecApproval_eq_ok h
  simp only [readConfirmed, Except.bind_eq_ok, Except.pure_eq_ok, Prod.mk.injEq, Except.mapM_eq_ok] at hread
  obtain ⟨_, -, confirmed, hconfirmed, tasks, htasks, live, -, rfl, rfl⟩ := hread
  cases found with
  | some =>
    obtain ⟨_, hreport, -⟩ := hfound
    cases hreport
  | none =>
    refine checkAdditions_ends nodes (fun blocker hblocker => ?_) ?_ ?_ hcheck
    · obtain ⟨task, -, htask⟩ := Except.mapM_forward htasks (List.mem_filter.mp hblocker).1
      simp only [taskInProject, Except.bind_eq_ok, request_eq_ok] at htask
      obtain ⟨found, hfound, -⟩ := htask
      exact (hnodes blocker found hfound).1
    · exact ht ▸ fun a task htask => (hnodes a task htask).2
    · rwa [ht]

/-- **An approval writes exactly the confirmed graph**, and no search of it goes on for ever. -/
theorem applySpecApproval_writes (hdoc : api.Documented) (approval : Json) (fates : ℕ → Fate) :
    (∀ report last,
      Client.applySpecApproval api project python turns gid approval (Session.start s fates) =
        .ok (some report) last →
      ∃ fields items, approval = .object fields ∧ confirmedOf fields = some items ∧
        Approved api s last.service project gid items) ∧
    ∀ nodes : Finset String,
      (∀ a task, api.task s a = some task → a ∈ nodes ∧ ∀ b ∈ task.dependencies, b ∈ nodes) →
      1 + ∑ a ∈ nodes, degree api s a < turns →
      ∀ last, Client.applySpecApproval api project python turns gid approval (Session.start s fates) ≠
        .ok none last :=
  ⟨fun _ _ h => applySpecApproval_ok hdoc h, fun _ hnodes hturns _ => applySpecApproval_ends hnodes hturns⟩

namespace Memory

def awaitingSection : ProjectSection := ⟨"aw", awaitingApproval⟩

/-- `a` is to be approved and depends on `b`; `c` is completed. -/
def approving : Memory where
  tasks := ⟨[sample "a" ["b"] false awaitingSection, sample "b" [] false readySection,
    sample "c" [] true doneSection],
    by decide⟩
  sections := ⟨[("p", waitingSection), ("p", readySection), ("p", doneSection), ("p", awaitingSection)], by decide⟩

/-- `c` is confirmed in place of `b`. -/
def confirmation : Json := .object [("confirmed_dependencies", .array [.string "c"])]

def approvingRun : EStateM.Result Failure (Session Memory) (Option ApprovalReport) :=
  Client.applySpecApproval Memory.api "p" (pythonOf id) 10 "a" confirmation
    (Session.start approving fun _ => .answered)

end Memory

theorem applySpecApproval_writes_approving :
    (∃ report last, Memory.approvingRun = .ok (some report) last ∧
      Approved Memory.api Memory.approving last.service "p" "a" ["c"]) ∧
    ∀ last, Memory.approvingRun ≠ .ok none last := by
  constructor
  · obtain ⟨report, last, hrun⟩ : ∃ report last, Memory.approvingRun = .ok (some report) last := ⟨_, _, rfl⟩
    obtain ⟨fields, items, happroval, hitems, happroved⟩ :=
      (applySpecApproval_writes Memory.documented Memory.confirmation fun _ => .answered).1 report last hrun
    cases happroval
    cases hitems
    exact ⟨report, last, hrun, happroved⟩
  · refine (applySpecApproval_writes Memory.documented Memory.confirmation fun _ => .answered).2
      {"a", "b", "c"} (fun gid task htask => ?_) (by decide)
    obtain ⟨hmem, rfl⟩ := KeyedTable.get?_eq_some.mp htask
    revert task
    decide

end Asana
end FlashyFactory
