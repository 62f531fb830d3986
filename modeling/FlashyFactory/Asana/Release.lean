import FlashyFactory.Asana.Changes

/-! # What a reconciled pull request changes

The reads of `reconcile_pull_request`, where it sends the dependents of a merged task, and the change
that it leaves behind. -/

namespace FlashyFactory
namespace Asana

variable {σ : Type} {api : Api σ} {s s' : σ} {project gid : String} {python : Python}

/-! ## Reads -/

theorem resolveSection_ok {found : ProjectSection} (h : resolveSection api s project name = .ok found) :
    found ∈ api.sections s project ∧ found.name = name := by
  simp only [resolveSection, Except.bind_eq_ok, paginate_eq_ok] at h
  obtain ⟨_, ⟨-, rfl⟩, h⟩ := h
  split at h
  · next only hfilter =>
    simp only [Except.bind_eq_ok, Except.pure_eq_ok, exists_and_right] at h
    obtain ⟨-, rfl⟩ := h
    have hmem : only ∈ (api.sections s project).filter (·.name = name) := hfilter ▸ List.mem_singleton_self _
    simpa using hmem
  · simp at h

theorem reconciliationTask_ok {task : Task} (h : reconciliationTask api s project gid = .ok task) :
    api.task s gid = some task ∧ task.Within project := by
  simp only [reconciliationTask, taskInProject, Except.bind_eq_ok, request_eq_ok, Except.pure_eq_ok,
    requireMembership_eq_ok] at h
  obtain ⟨_, ⟨_, htask, -, -, -, -, rfl⟩, _, ⟨-, -, hwithin⟩, -, -, rfl⟩ := h
  exact ⟨htask, hwithin⟩

/-! ## Dependents -/

/-- The dependent of a merged task is sent to the section of this name. -/
inductive Routed (api : Api σ) (s : σ) (project : String) (python : Python) (gid dependent : String) :
    String → Prop
  | contradictory {live : Task} : reconciliationTask api s project dependent = .ok live →
      live.completed = false → live.isIn waiting = true → live.authorization = .contradictory →
      Routed api s project python gid dependent needsDecision
  | autonomous {live : Task} {state : DependencyState} : reconciliationTask api s project dependent = .ok live →
      live.completed = false → live.isIn waiting = true → live.authorization = .autonomous →
      dependencyState api s project python dependent [gid] = .ok state → state.blocked = false →
      Routed api s project python gid dependent readyToImplement

theorem Routed.unique (h : Routed api s project python gid dependent name)
    (h' : Routed api s project python gid dependent name') : name = name' := by
  cases h with
  | contradictory hlive _ _ hlane =>
    cases h' with
    | contradictory => rfl
    | autonomous hlive' _ _ hlane' =>
      cases hlive.symm.trans hlive'
      cases hlane.symm.trans hlane'
  | autonomous hlive _ _ hlane =>
    cases h' with
    | contradictory hlive' _ _ hlane' =>
      cases hlive.symm.trans hlive'
      cases hlane.symm.trans hlane'
    | autonomous => rfl

theorem routeOf_ok {live : Task} (hlive : reconciliationTask api s project dependent = .ok live)
    (h : routeOf api s project python gid dependent live = .ok route) :
    (∃ name, route = [(dependent, name)] ∧ Routed api s project python gid dependent name) ∨
      route = [] ∧ ∀ name, ¬ Routed api s project python gid dependent name := by
  unfold routeOf at h
  split at h
  · next hskip =>
    cases h
    refine .inr ⟨rfl, fun name hrouted => ?_⟩
    cases hrouted with
    | contradictory hlive' hcompleted hsection hlane =>
      cases hlive.symm.trans hlive'
      simp [hcompleted, hsection, hlane] at hskip
    | autonomous hlive' hcompleted hsection hlane =>
      cases hlive.symm.trans hlive'
      simp [hcompleted, hsection, hlane] at hskip
  next hskip =>
  simp only [Bool.or_eq_true, decide_eq_true_eq, Bool.not_eq_true', not_or, Bool.not_eq_true,
    Bool.not_eq_false] at hskip
  obtain ⟨⟨hmanual, hcompleted⟩, hsection⟩ := hskip
  split at h
  · next hlane =>
    cases h
    have hcontradictory : live.authorization = .contradictory := by
      cases hlane' : live.authorization <;> simp_all
    exact .inl ⟨_, rfl, .contradictory hlive hcompleted hsection hcontradictory⟩
  · next hlane =>
    rw [not_not] at hlane
    obtain ⟨state, hstate, rfl⟩ := Except.map_eq_ok.mp h
    cases hblocked : state.blocked with
    | false => exact .inl ⟨_, rfl, .autonomous hlive hcompleted hsection hlane hstate hblocked⟩
    | true =>
      refine .inr ⟨rfl, fun name hrouted => ?_⟩
      cases hrouted with
      | contradictory hlive' _ _ hlane' =>
        cases hlive.symm.trans hlive'
        cases hlane.symm.trans hlane'
      | autonomous hlive' _ _ _ hstate' hunblocked =>
        cases hstate.symm.trans hstate'
        cases hblocked.symm.trans hunblocked

/-- The routes of the dependents, each of which was read. -/
structure RoutesOf (api : Api σ) (s : σ) (project : String) (python : Python) (gid : String)
    (dependents : List String) (routes : List (String × String)) : Prop where
  gids : ∀ dependent ∈ dependents, isGid dependent = true
  read : ∀ dependent ∈ dependents, ∃ live, reconciliationTask api s project dependent = .ok live ∧
    ∃ route, routeOf api s project python gid dependent live = .ok route
  nodup : (routes.map Prod.fst).Nodup
  mem : ∀ dependent name, (dependent, name) ∈ routes ↔
    dependent ∈ dependents ∧ Routed api s project python gid dependent name

theorem routes_ok (h : routes api s project python gid seen dependents = .ok found) :
    RoutesOf api s project python gid dependents found ∧ ∀ dependent ∈ dependents, dependent ∉ seen := by
  induction dependents generalizing seen found with
  | nil =>
    cases h
    exact ⟨⟨nofun, nofun, .nil, by simp⟩, nofun⟩
  | cons dependent dependents ih =>
    simp only [routes, Except.bind_eq_ok, requireGid_eq_ok, refuseIf_eq_ok, Except.pure_eq_ok] at h
    obtain ⟨_, ⟨hgid, rfl⟩, _, hfresh, live, hlive, route, hroute, rest, hrest, rfl⟩ := h
    obtain ⟨hroutes, hunseen⟩ := ih hrest
    have hread : ∀ other ∈ dependent :: dependents, ∃ live,
        reconciliationTask api s project other = .ok live ∧
          ∃ route, routeOf api s project python gid other live = .ok route :=
      List.forall_mem_cons.mpr ⟨⟨live, hlive, route, hroute⟩, hroutes.read⟩
    have hfirst : dependent ∉ dependents := fun hmem => hunseen _ hmem List.mem_cons_self
    have hkeys : ∀ other name, (other, name) ∈ rest → other ≠ dependent := by
      rintro other name hmem rfl
      exact hfirst ((hroutes.mem _ name).mp hmem).1
    refine ⟨⟨List.forall_mem_cons.mpr ⟨hgid, hroutes.gids⟩, hread, ?_, fun other name => ?_⟩,
      List.forall_mem_cons.mpr ⟨hfresh, fun other hother h => hunseen other hother (List.mem_cons_of_mem _ h)⟩⟩
    · rcases routeOf_ok hlive hroute with ⟨name, rfl, -⟩ | ⟨rfl, -⟩
      · refine List.nodup_cons.mpr ⟨fun hmem => ?_, hroutes.nodup⟩
        obtain ⟨⟨other, name'⟩, hrest', heq⟩ := List.mem_map.mp hmem
        exact hkeys other name' hrest' heq
      · exact hroutes.nodup
    · rw [List.mem_append, hroutes.mem, List.mem_cons, or_and_right]
      refine or_congr_left ?_
      rcases routeOf_ok hlive hroute with ⟨name', rfl, hrouted⟩ | ⟨rfl, hnone⟩
      · simp only [List.mem_singleton, Prod.mk.injEq]
        constructor
        · rintro ⟨rfl, rfl⟩
          exact ⟨rfl, hrouted⟩
        · rintro ⟨rfl, hrouted'⟩
          exact ⟨rfl, hrouted'.unique hrouted⟩
      · simp only [List.not_mem_nil, false_iff, not_and]
        rintro rfl
        exact hnone name

/-! ## The change -/

/-- The dependents are in the sections that their routes mean, and nothing else is changed. -/
structure Released (api : Api σ) (project : String) (meant : String → ProjectSection → Prop)
    (routes : List (String × String)) (change : Change) (s s' : σ) : Prop where
  changes : Changes api project change s s'
  completes : ∀ gid, change.completes gid = false
  routed : ∀ dependent name, (dependent, name) ∈ routes →
    ∃ found, change.places dependent = some found ∧ meant name found
  unrouted : ∀ gid, gid ∉ routes.map Prod.fst → change.places gid = none

theorem release_ok (hdoc : api.Documented) (routes : List (String × String))
    (destinations : List (String × ProjectSection)) (meant : String → ProjectSection → Prop)
    (hdestinations : ∀ route ∈ routes, ∃ found, destinations.lookup route.2 = some found ∧
      found ∈ api.sections s project ∧ meant route.2 found)
    (hwithin : ∀ route ∈ routes, ∃ task, api.task s route.1 = some task ∧ task.Within project)
    (hnodup : (routes.map Prod.fst).Nodup) :
    ∃ change, Released api project meant routes change s (release api destinations routes s) := by
  induction routes generalizing s with
  | nil => exact ⟨{}, .refl, fun _ => rfl, nofun, fun _ _ => rfl⟩
  | cons route routes ih =>
    obtain ⟨dependent, name⟩ := route
    obtain ⟨⟨found, hlookup, hfound, hname⟩, hdestinations⟩ := List.forall_mem_cons.mp hdestinations
    obtain ⟨⟨task, htask, htaskWithin⟩, hwithin⟩ := List.forall_mem_cons.mp hwithin
    obtain ⟨hfresh, hnodup⟩ := List.nodup_cons.mp hnodup
    have hone := Changes.addTask hdoc hfound htask htaskWithin
    obtain ⟨change, hmany⟩ := ih (s := api.addTask s found.gid dependent)
      (by rwa [hone.rewrites.sections])
      (fun route hroute => by
        obtain ⟨other, hother, hotherWithin⟩ := hwithin route hroute
        obtain ⟨modifiedAt, h⟩ := hone.task hother
        exact ⟨_, h, Change.apply_within hotherWithin⟩) hnodup
    have hrelease : release api destinations ((dependent, name) :: routes) s =
        release api destinations routes (api.addTask s found.gid dependent) := by
      simp [release, hlookup]
    rw [hrelease]
    refine ⟨_, hone.trans hmany.changes, fun gid => ?_, fun other name' hmem => ?_, fun gid hgid => ?_⟩
    · simp [Change.andThen, hmany.completes]
    · rcases List.mem_cons.mp hmem with heq | hmem
      · cases heq
        exact ⟨found, by simp [Change.andThen, hmany.unrouted dependent hfresh], hname⟩
      · obtain ⟨found', hplaces, hname'⟩ := hmany.routed other name' hmem
        exact ⟨found', by simp [Change.andThen, hplaces], hname'⟩
    · rw [List.map_cons, List.mem_cons, not_or] at hgid
      simp [Change.andThen, hmany.unrouted gid hgid.2, hgid.1]

theorem destinations_lookup {names : List String} {destinations : List (String × ProjectSection)}
    (h : List.Forall₂ (fun name destination =>
      (resolveSection api s project name).map (fun found => (name, found)) = .ok destination) names destinations)
    (hname : name ∈ names) :
    ∃ found, destinations.lookup name = some found ∧ resolveSection api s project name = .ok found := by
  induction h with
  | nil => cases hname
  | @cons first destination names destinations hfirst _ ih =>
    obtain ⟨found, hfound, rfl⟩ := Except.map_eq_ok.mp hfirst
    by_cases hsame : name = first
    · subst hsame
      exact ⟨found, by simp, hfound⟩
    · obtain ⟨other, hother, hresolve⟩ := ih ((List.mem_cons.mp hname).resolve_left hsame)
      exact ⟨other, by rw [List.lookup_cons, beq_false_of_ne hsame]; exact hother, hresolve⟩

theorem completeUnless_changes (hdoc : api.Documented) {task : Task} (before : Task)
    (htask : api.task s gid = some task) (hbefore : task.completed = before.completed) :
    Changes api project { completes := fun other => other = gid } s (completeUnless api before gid s) := by
  unfold completeUnless
  split
  · next hcompleted => exact .completed htask (hbefore.trans hcompleted)
  · exact .complete hdoc

/-- A task that depends on itself is not safe to read. -/
theorem not_routed_self (hdoc : api.Documented) {task : Task} (htask : api.task s gid = some task)
    (hlane : task.authorization = .autonomous) (hself : gid ∈ api.dependents s gid) :
    ¬ Routed api s project python gid gid name := by
  intro hrouted
  obtain ⟨other, hother, hdepends⟩ := hdoc.mem_dependents.mp hself
  cases hrouted with
  | contradictory hlive _ _ hlane' =>
    cases htask.symm.trans (reconciliationTask_ok hlive).1
    cases hlane.symm.trans hlane'
  | autonomous _ _ _ _ hstate =>
    obtain ⟨w, hwalk, -⟩ := dependencyState_eq_ok.mp hstate
    exact (WellFormed.of_walk hwalk).acyclic gid .refl (.single ⟨other, hother, hdepends⟩)

/-- What a merged pull request of an autonomous task leaves behind. -/
structure Reconciled (api : Api σ) (project gid : String) (task : Task) (routes : List (String × String))
    (change : Change) (s s' : σ) : Prop where
  changes : Changes api project change s s'
  completes : ∀ other, change.completes other = decide (other = gid)
  settled : (change.places gid = none ∧ task.isIn done = true) ∨
    task.isIn done = false ∧ ∃ found, change.places gid = some found ∧
      resolveSection api s project done = .ok found
  routed : ∀ dependent name, (dependent, name) ∈ routes →
    ∃ found, change.places dependent = some found ∧ resolveSection api s project name = .ok found
  unrouted : ∀ other, other ≠ gid → other ∉ routes.map Prod.fst → change.places other = none

theorem reconcileMerged_ok (hdoc : api.Documented) {task : Task}
    (htask : reconciliationTask api s project gid = .ok task) (hlane : task.authorization = .autonomous)
    (h : reconcileMerged api s project python task gid = .ok (report, s')) :
    ∃ found change, RoutesOf api s project python gid (api.dependents s gid) found ∧
      Reconciled api project gid task found change s s' := by
  simp only [reconcileMerged, Except.bind_eq_ok, paginate_eq_ok, Except.pure_eq_ok, Prod.mk.injEq] at h
  obtain ⟨_, ⟨-, rfl⟩, found, hroutes, destinations, hdestinations, rfl, hs⟩ := h
  obtain ⟨hroutes, -⟩ := routes_ok hroutes
  rw [Except.mapM_eq_ok] at hdestinations
  obtain ⟨hgid, hwithin⟩ := reconciliationTask_ok htask
  have hlookup : ∀ name, name ∈ found.map Prod.snd ∨ task.isIn done = false ∧ name = done →
      ∃ sec, destinations.lookup name = some sec ∧ sec ∈ api.sections s project ∧
        resolveSection api s project name = .ok sec := by
    intro name hname
    have hmem : name ∈ (found.map Prod.snd ++ if task.isIn done then [] else [done]).dedup := by
      rw [List.mem_dedup, List.mem_append]
      rcases hname with hname | ⟨hdone, rfl⟩
      · exact .inl hname
      · exact .inr (by simp [hdone])
    obtain ⟨sec, hlookup, hresolve⟩ := destinations_lookup hdestinations hmem
    exact ⟨sec, hlookup, (resolveSection_ok hresolve).1, hresolve⟩
  have hself : gid ∉ found.map Prod.fst := by
    intro hmem
    obtain ⟨⟨_, name⟩, hname, rfl⟩ := List.mem_map.mp hmem
    obtain ⟨hdependent, hrouted⟩ := (hroutes.mem _ name).mp hname
    exact not_routed_self hdoc hgid hlane hdependent hrouted
  -- the task itself is settled first
  obtain ⟨moved, first, rfl, hfirst, hfirstCompletes, hfirstPlaces, hsettled⟩ : ∃ moved change,
      s' = release api destinations found (completeUnless api task gid moved) ∧
      Changes api project change s moved ∧ (∀ other, change.completes other = false) ∧
      (∀ other, other ≠ gid → change.places other = none) ∧
      ((change.places gid = none ∧ task.isIn done = true) ∨
        task.isIn done = false ∧ ∃ sec, change.places gid = some sec ∧
          resolveSection api s project done = .ok sec) := by
    cases hdone : task.isIn done with
    | true => exact ⟨s, {}, by simpa only [hdone, if_true] using hs.symm, .refl, fun _ => rfl, fun _ _ => rfl,
        .inl ⟨rfl, rfl⟩⟩
    | false =>
      obtain ⟨sec, hsec, hmem, hresolve⟩ := hlookup done (.inr ⟨hdone, rfl⟩)
      simp only [hdone, hsec, Bool.false_eq_true, if_false] at hs
      exact ⟨_, _, hs.symm, .addTask hdoc hmem hgid hwithin, fun _ => rfl, fun other h => if_neg h,
        .inr ⟨rfl, sec, if_pos rfl, hresolve⟩⟩
  obtain ⟨modifiedAt, hgid₁⟩ := hfirst.task hgid
  have hsecond : Changes api project { completes := fun other => other = gid } _ _ :=
    completeUnless_changes hdoc task hgid₁ (by simp [Change.apply, hfirstCompletes])
  have hboth := hfirst.trans hsecond
  obtain ⟨last, hlast⟩ := release_ok hdoc found destinations (fun name found =>
    resolveSection api s project name = .ok found)
    (fun route hroute => by
      rw [hboth.rewrites.sections]
      exact hlookup route.2 (.inl (List.mem_map_of_mem hroute)))
    (fun route hroute => by
      obtain ⟨live, hlive, -⟩ := hroutes.read route.1 ((hroutes.mem route.1 route.2).mp hroute).1
      obtain ⟨htask, hwithin⟩ := reconciliationTask_ok hlive
      obtain ⟨modifiedAt, h⟩ := hboth.task htask
      exact ⟨_, h, Change.apply_within hwithin⟩) hroutes.nodup
  refine ⟨found, _, hroutes, hboth.trans hlast.changes, fun other => ?_, ?_, fun dependent name hmem => ?_,
    fun other hother hmem => ?_⟩
  · simp [Change.andThen, hfirstCompletes, hlast.completes]
  · rcases hsettled with ⟨hplaces, hdone⟩ | ⟨hdone, sec, hplaces, hresolve⟩
    · exact .inl ⟨by simp [Change.andThen, hlast.unrouted gid hself, hplaces], hdone⟩
    · exact .inr ⟨hdone, sec, by simp [Change.andThen, hlast.unrouted gid hself, hplaces], hresolve⟩
  · obtain ⟨sec, hplaces, hname⟩ := hlast.routed dependent name hmem
    exact ⟨sec, by simp [Change.andThen, hplaces], hname⟩
  · simp [Change.andThen, hlast.unrouted other hmem, hfirstPlaces other hother]

theorem settleIn_ok (hdoc : api.Documented) {task : Task}
    (htask : reconciliationTask api s project gid = .ok task)
    (h : settleIn api s project task gid name = .ok s') :
    ∃ change, Changes api project change s s' ∧ (∀ other, change.completes other = false) ∧
      ∀ other, other ≠ gid → change.places other = none := by
  unfold settleIn at h
  split at h
  · cases h
    exact ⟨{}, .refl, fun _ => rfl, fun _ _ => rfl⟩
  · obtain ⟨found, hfound, rfl⟩ := Except.map_eq_ok.mp h
    obtain ⟨hgid, hwithin⟩ := reconciliationTask_ok htask
    exact ⟨_, .addTask hdoc (resolveSection_ok hfound).1 hgid hwithin, fun _ => rfl, fun other h => if_neg h⟩

/-- The three lanes of a merged pull request. -/
theorem reconcilePullRequest_merged (h : reconcilePullRequest api s project python gid .merged = .ok (report, s')) :
    ∃ task, reconciliationTask api s project gid = .ok task ∧
      ((task.authorization = .manual ∧ ∃ moved, settleIn api s project task gid done = .ok moved ∧
          s' = completeUnless api task gid moved) ∨
        (task.authorization = .contradictory ∧ settleIn api s project task gid needsDecision = .ok s') ∨
        (task.authorization = .autonomous ∧ reconcileMerged api s project python task gid = .ok (report, s'))) := by
  simp only [reconcilePullRequest, Except.bind_eq_ok, requireGid_eq_ok] at h
  obtain ⟨_, ⟨-, rfl⟩, _, ⟨-, rfl⟩, task, htask, h⟩ := h
  refine ⟨task, htask, ?_⟩
  simp only [ne_eq, not_true_eq_false, if_false, decide_false, Bool.and_false, Bool.false_eq_true] at h
  cases hlane : task.authorization with
  | manual =>
    simp only [hlane, if_true, Except.bind_eq_ok, Except.pure_eq_ok, Prod.mk.injEq] at h
    obtain ⟨moved, hmoved, -, rfl⟩ := h
    exact .inl ⟨rfl, moved, hmoved, rfl⟩
  | contradictory =>
    simp only [hlane, reduceCtorEq, if_false, not_false_eq_true, if_true, Except.bind_eq_ok, Except.pure_eq_ok,
      Prod.mk.injEq] at h
    obtain ⟨moved, hmoved, -, rfl⟩ := h
    exact .inr (.inl ⟨rfl, hmoved⟩)
  | autonomous =>
    simp only [hlane, reduceCtorEq, if_false, not_true_eq_false] at h
    exact .inr (.inr ⟨rfl, h⟩)

end Asana
end FlashyFactory
