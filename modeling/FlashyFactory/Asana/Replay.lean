import FlashyFactory.Asana.Requests

/-! # A reconciliation that is taken up again

Some of the changes of a merged pull request were made. The command then reads the project afresh, and
what it goes on to change is the rest. -/

namespace FlashyFactory
namespace Asana

variable {σ : Type} {api : Api σ} {s s' t : σ} {project gid : String} {python : Python} {change : Change}

/-! ## Reads after a change -/

theorem reconciliationTask_eq_ok {task : Task} : reconciliationTask api s project gid = .ok task ↔
    api.task s gid = some task ∧ task.Within project ∧ Field.data ∉ task.malformed ∧
      Field.memberships ∉ task.malformed ∧ Field.membership ∉ task.malformed ∧
        Field.completed ∉ task.malformed := by
  simp only [reconciliationTask, taskInProject, Except.bind_eq_ok, request_eq_ok, Except.pure_eq_ok,
    requireMembership_eq_ok, refuseIf_eq_ok]
  constructor
  · rintro ⟨_, ⟨_, htask, _, hdata, _, -, rfl⟩, _, ⟨hmemberships, hmembership, hwithin⟩, _,
      hcompleted, rfl⟩
    exact ⟨htask, hwithin, hdata, hmemberships, hmembership, hcompleted⟩
  · rintro ⟨htask, hwithin, hdata, hmemberships, hmembership, hcompleted⟩
    have hany : ¬ task.memberships.any (·.project = project) = false := by
      obtain ⟨found, hfound⟩ := hwithin
      simp [hfound]
    exact ⟨task, ⟨task, htask, (), hdata, (), hany, rfl⟩, (), ⟨hmemberships, hmembership, hwithin⟩, (),
      hcompleted, rfl⟩

namespace Changes
variable (H : Changes api project change s t)
include H

theorem reconciliationTask_ok {task : Task} (h : reconciliationTask api s project gid = .ok task) :
    ∃ modifiedAt, reconciliationTask api t project gid =
      .ok { change.apply project gid task with modifiedAt := modifiedAt } := by
  obtain ⟨htask, hwithin, hformed⟩ := reconciliationTask_eq_ok.mp h
  obtain ⟨modifiedAt, htask'⟩ := H.task htask
  exact ⟨modifiedAt, reconciliationTask_eq_ok.mpr ⟨htask', Change.apply_within hwithin, hformed⟩⟩

theorem depends_iff : Depends api t a b ↔ Depends api s a b := by
  constructor
  · rintro ⟨task', htask', hb⟩
    obtain ⟨task, modifiedAt, htask, rfl⟩ := H.of_task htask'
    exact ⟨task, htask, hb⟩
  · rintro ⟨task, htask, hb⟩
    obtain ⟨modifiedAt, htask'⟩ := H.task htask
    exact ⟨_, htask', hb⟩

theorem reaches_iff : Reaches api t a b ↔ Reaches api s a b := by
  have hdepends : Depends api t = Depends api s := funext₂ fun _ _ => propext H.depends_iff
  rw [Reaches, hdepends]

theorem mem_dependents (hdoc : api.Documented) : dependent ∈ api.dependents t gid ↔
    dependent ∈ api.dependents s gid := by
  rw [hdoc.mem_dependents, hdoc.mem_dependents]
  exact H.depends_iff

/-- The completion of what is assumed to be completed changes nothing. -/
theorem blocked_eq (hcompletes : ∀ other, change.completes other = true → other ∈ assumedCompleted)
    (h : dependencyState api s project python gid assumedCompleted = .ok state)
    (h' : dependencyState api t project python gid assumedCompleted = .ok state') :
    state'.blocked = state.blocked := by
  obtain ⟨_, -, hstate⟩ := dependencyState_describes h
  obtain ⟨_, -, hstate'⟩ := dependencyState_describes h'
  rw [Bool.eq_iff_iff, hstate.blocked, hstate'.blocked]
  refine exists_congr fun node => ?_
  rw [H.reaches_iff]
  refine and_congr_right fun _ => and_congr_right fun _ => and_congr_right fun hassumed => ?_
  have hkept : change.completes node = false := by
    rw [← Bool.not_eq_true]
    exact fun h => hassumed (hcompletes node h)
  constructor
  · rintro ⟨blocker', hblocker', hincomplete⟩
    obtain ⟨blocker, modifiedAt, hblocker, rfl⟩ := H.of_task hblocker'
    exact ⟨blocker, hblocker, by simpa [Change.apply, hkept] using hincomplete⟩
  · rintro ⟨blocker, hblocker, hincomplete⟩
    obtain ⟨modifiedAt, hblocker'⟩ := H.task hblocker
    exact ⟨_, hblocker', by simpa [Change.apply, hkept] using hincomplete⟩

end Changes

/-! ## What is read before the first change -/

def readMerged (api : Api σ) (s : σ) (project : String) (python : Python) (task : Task) (gid : String) :
    Answer (List (String × String) × List (String × ProjectSection)) := do
  let dependents ← paginate 1000 (api.dependents s gid)
  let routes ← routes api s project python gid [] dependents
  let names := (routes.map Prod.snd ++ if task.isIn done then [] else [done]).dedup
  let destinations ← names.mapM fun name =>
    (resolveSection api s project name).map fun found => (name, found)
  return (routes, destinations)

def settleDone (api : Api σ) (destinations : List (String × ProjectSection)) (task : Task)
    (gid : String) (s : σ) : σ :=
  if task.isIn done then s else match destinations.lookup done with
    | some found => api.addTask s found.gid gid
    | none => s

theorem reconcileMerged_eq {task : Task} : reconcileMerged api s project python task gid =
    (readMerged api s project python task gid).map fun (found, destinations) =>
      ({ status := "merged"
         released := (found.filter fun route => route.2 = readyToImplement).map Prod.fst },
        release api destinations found (completeUnless api task gid (settleDone api destinations task gid s))) := by
  simp only [reconcileMerged, readMerged, Except.map_bind]
  rfl

theorem readMerged_eq_ok {task : Task} {plan : List (String × String) × List (String × ProjectSection)} :
    readMerged api s project python task gid = .ok plan ↔
    (api.dependents s gid).length ≤ 1000 ∧ routes api s project python gid []
    (api.dependents s gid) = .ok plan.1 ∧
      List.Forall₂ (fun name destination =>
        (resolveSection api s project name).map (fun found => (name, found)) = .ok destination)
        (plan.1.map Prod.snd ++ if task.isIn done then [] else [done]).dedup plan.2 := by
  obtain ⟨found, destinations⟩ := plan
  simp only [readMerged, Except.bind_eq_ok, paginate_eq_ok, Except.mapM_eq_ok, Except.pure_eq_ok, Prod.mk.injEq]
  constructor
  · rintro ⟨_, ⟨hlength, rfl⟩, _, hroutes, _, hdestinations, rfl, rfl⟩
    exact ⟨hlength, hroutes, hdestinations⟩
  · rintro ⟨hlength, hroutes, hdestinations⟩
    exact ⟨_, ⟨hlength, rfl⟩, _, hroutes, _, hdestinations, rfl, rfl⟩

theorem routes_exists {dependents : List String} (hnodup : dependents.Nodup)
    (h : ∀ dependent ∈ dependents, isGid dependent = true ∧ dependent ∉ seen ∧
      ∃ live, reconciliationTask api s project dependent = .ok live ∧
        ∃ route, routeOf api s project python gid dependent live = .ok route) :
    ∃ found, routes api s project python gid seen dependents = .ok found := by
  induction dependents generalizing seen with
  | nil => exact ⟨[], rfl⟩
  | cons dependent dependents ih =>
    obtain ⟨⟨hgid, hfresh, live, hlive, route, hroute⟩, h⟩ := List.forall_mem_cons.mp h
    obtain ⟨hfirst, hnodup⟩ := List.nodup_cons.mp hnodup
    obtain ⟨rest, hrest⟩ : ∃ rest, routes api s project python gid (dependent :: seen) dependents = .ok rest := by
      refine ih hnodup fun other hother => ?_
      obtain ⟨hgid, hunseen, hread⟩ := h other hother
      refine ⟨hgid, ?_, hread⟩
      rw [List.mem_cons, not_or]
      exact ⟨fun heq => hfirst (heq ▸ hother), hunseen⟩
    refine ⟨route ++ rest, ?_⟩
    simp only [routes, Except.bind_eq_ok, requireGid_eq_ok, refuseIf_eq_ok, Except.pure_eq_ok]
    exact ⟨dependent, ⟨hgid, rfl⟩, (), hfresh, live, hlive, route, hroute, rest, hrest, rfl⟩

/-! ## What is left to do -/

/-- A part of the changes of a merged pull request. -/
structure PartOf (api : Api σ) (s : σ) (project gid : String) (task : Task) (routes : List (String × String))
    (change : Change) : Prop where
  completes : ∀ other, change.completes other = true → other = gid
  places : ∀ other found, change.places other = some found →
    (other = gid ∧ task.isIn done = false ∧ resolveSection api s project done = .ok found) ∨
      ∃ name, (other, name) ∈ routes ∧ resolveSection api s project name = .ok found

theorem Routed.destination (h : Routed api s project python gid dependent name) :
    name = needsDecision ∨ name = readyToImplement := by
  cases h with
  | contradictory => exact .inl rfl
  | autonomous => exact .inr rfl

theorem isIn_placed {task : Task} (h : change.places gid = some found) :
    ({ change.apply project gid task with modifiedAt := modifiedAt } : Task).isIn name =
      decide (found.name = name) := by
  simp [Task.isIn, Change.apply, h]

theorem isIn_unplaced {task : Task} (h : change.places gid = none) :
    ({ change.apply project gid task with modifiedAt := modifiedAt } : Task).isIn name = task.isIn name := by
  simp [Task.isIn, Change.apply, h]

theorem authorization_apply {task : Task} :
    ({ change.apply project gid task with modifiedAt := modifiedAt } : Task).authorization = task.authorization := rfl

theorem Routed.of_live {live : Task} (hlive : reconciliationTask api s project dependent = .ok live)
    (h : Routed api s project python gid dependent name) : live.completed = false ∧ live.isIn waiting = true := by
  cases h with
  | contradictory hlive' hcompleted hwaiting _ | autonomous hlive' hcompleted hwaiting _ =>
    cases hlive.symm.trans hlive'
    exact ⟨hcompleted, hwaiting⟩

namespace PartOf
variable {task : Task} {found : List (String × String)} (P : PartOf api s project gid task found change)
    (R : RoutesOf api s project python gid (api.dependents s gid) found) (H : Changes api project change s t)
include P R

/-- What was moved waits no longer. -/
theorem not_waiting (hplaces : change.places other = some sec) : sec.name ≠ waiting := by
  rcases P.places other sec hplaces with ⟨-, -, hresolve⟩ | ⟨name, hmem, hresolve⟩
  · rw [(resolveSection_ok hresolve).2]
    decide
  · rw [(resolveSection_ok hresolve).2]
    rcases ((R.mem other name).mp hmem).2.destination with rfl | rfl <;> decide

/-- A dependent that is still waiting was not moved. -/
theorem unplaced {live : Task} (h : ({ change.apply project dependent live with modifiedAt := modifiedAt } : Task).isIn
    waiting = true) : change.places dependent = none := by
  cases hplaces : change.places dependent with
  | none => rfl
  | some sec =>
    rw [isIn_placed hplaces, decide_eq_true_eq] at h
    exact (P.not_waiting R hplaces h).elim

/-- The task stays where it is to be. -/
theorem isIn_done (hdoc : api.Documented) (htask : api.task s gid = some task)
    (hlane : task.authorization = .autonomous) (hdone : task.isIn done = true) :
    ({ change.apply project gid task with modifiedAt := modifiedAt } : Task).isIn done = true := by
  cases hplaces : change.places gid with
  | none => rw [isIn_unplaced hplaces, hdone]
  | some sec =>
    rcases P.places gid sec hplaces with ⟨-, h, -⟩ | ⟨name, hmem, -⟩
    · cases hdone.symm.trans h
    · obtain ⟨hdependent, hrouted⟩ := (R.mem gid name).mp hmem
      exact (not_routed_self hdoc htask hlane hdependent hrouted).elim

include H

/-- The routes that are left. -/
theorem routed_iff (hdependent : dependent ∈ api.dependents s gid) :
    Routed api t project python gid dependent name ↔
      Routed api s project python gid dependent name ∧ change.places dependent = none ∧
        change.completes dependent = false := by
  obtain ⟨live, hlive, -⟩ := R.read dependent hdependent
  obtain ⟨modifiedAt, hlive'⟩ := H.reconciliationTask_ok hlive
  have hassumed : ∀ other, change.completes other = true → other ∈ [gid] := fun other h =>
    List.mem_singleton.mpr (P.completes other h)
  constructor
  · intro hrouted
    obtain ⟨hcompleted, hwaiting⟩ := hrouted.of_live hlive'
    have hplaces := P.unplaced R hwaiting
    rw [isIn_unplaced hplaces] at hwaiting
    simp only [Change.apply, Bool.or_eq_false_iff] at hcompleted
    refine ⟨?_, hplaces, hcompleted.2⟩
    cases hrouted with
    | contradictory hother _ _ hlane =>
      cases hlive'.symm.trans hother
      exact .contradictory hlive hcompleted.1 hwaiting hlane
    | autonomous hother _ _ hlane hstate' hblocked =>
      cases hlive'.symm.trans hother
      cases hstate : dependencyState api s project python dependent [gid] with
      | error e => cases hstate'.symm.trans (H.dependencyState_eq_error.mpr hstate)
      | ok state =>
        exact .autonomous hlive hcompleted.1 hwaiting hlane hstate
          ((H.blocked_eq hassumed hstate hstate').symm.trans hblocked)
  · rintro ⟨hrouted, hplaces, hcompletes⟩
    obtain ⟨hcompleted, hwaiting⟩ := hrouted.of_live hlive
    have hwaiting' : ({ change.apply project dependent live with modifiedAt := modifiedAt } : Task).isIn waiting =
      true := by
      rw [isIn_unplaced hplaces, hwaiting]
    have hcompleted' : ({ change.apply project dependent live with modifiedAt := modifiedAt } : Task).completed =
      false := by
      simp [Change.apply, hcompleted, hcompletes]
    cases hrouted with
    | contradictory hother _ _ hlane =>
      cases hlive.symm.trans hother
      exact .contradictory hlive' hcompleted' hwaiting' hlane
    | autonomous hother _ _ hlane hstate hblocked =>
      cases hlive.symm.trans hother
      obtain ⟨state', hstate'⟩ := H.dependencyState_ok hstate
      exact .autonomous hlive' hcompleted' hwaiting' hlane hstate'
        ((H.blocked_eq hassumed hstate hstate').trans hblocked)

/-- Each dependent can be read and routed again. -/
theorem routeOf_exists (hdependent : dependent ∈ api.dependents s gid) :
    ∃ live, reconciliationTask api t project dependent = .ok live ∧
      ∃ route, routeOf api t project python gid dependent live = .ok route := by
  obtain ⟨live, hlive, route, hroute⟩ := R.read dependent hdependent
  obtain ⟨modifiedAt, hlive'⟩ := H.reconciliationTask_ok hlive
  refine ⟨_, hlive', ?_⟩
  unfold routeOf at hroute ⊢
  rw [authorization_apply]
  split
  · exact ⟨_, rfl⟩
  next hgo =>
  split
  · exact ⟨_, rfl⟩
  next hlane =>
  simp only [Bool.or_eq_true, decide_eq_true_eq, Bool.not_eq_true', not_or, Bool.not_eq_true,
    Bool.not_eq_false] at hgo
  obtain ⟨⟨hmanual, hcompleted⟩, hwaiting⟩ := hgo
  have hwaiting' := hwaiting
  rw [isIn_unplaced (P.unplaced R hwaiting)] at hwaiting'
  simp only [Change.apply, Bool.or_eq_false_iff] at hcompleted
  rw [not_not] at hlane
  simp only [hlane, hcompleted.1, hwaiting', reduceCtorEq, decide_false, Bool.or_self, Bool.not_true,
    Bool.false_eq_true, if_false, ne_eq, not_true_eq_false] at hroute
  obtain ⟨state, hstate, -⟩ := Except.map_eq_ok.mp hroute
  obtain ⟨state', hstate'⟩ := H.dependencyState_ok hstate
  exact ⟨_, by rw [hstate']; rfl⟩

end PartOf

/-- Where a task is, and whether it is completed. -/
def Task.place (task : Task) : Bool × List Membership := (task.completed, task.memberships)

theorem Changes.place_eq (H : Changes api project change s s') : (api.task s' other).map Task.place =
    (api.task s other).map fun task => (change.apply project other task).place := by
  obtain ⟨modifiedAt, hrewrite⟩ := H.rewrites.task
  rw [hrewrite, Option.map_map]
  rfl

theorem place_apply_congr {change' : Change} {task : Task}
    (hcompletes : (task.completed || change.completes gid) = (task.completed || change'.completes gid))
    (hplaces : change.places gid = change'.places gid) :
    (change.apply project gid task).place = (change'.apply project gid task).place := by
  simp only [Change.apply, Task.place, hcompletes, hplaces]

theorem readMerged_replay (hdoc : api.Documented) {task : Task}
    {plan : List (String × String) × List (String × ProjectSection)}
    (hplan : readMerged api s project python task gid = .ok plan)
    (P : PartOf api s project gid task plan.1 change) (H : Changes api project change s t)
    (hdone : task.isIn done = true → task'.isIn done = true) :
    ∃ plan', readMerged api t project python task' gid = .ok plan' := by
  obtain ⟨hlength, hroutes, hdestinations⟩ := readMerged_eq_ok.mp hplan
  obtain ⟨R, -⟩ := routes_ok hroutes
  have hperm : (api.dependents t gid).Perm (api.dependents s gid) :=
    (List.perm_ext_iff_of_nodup hdoc.nodup_dependents hdoc.nodup_dependents).mpr fun _ => H.mem_dependents hdoc
  obtain ⟨found', hroutes'⟩ : ∃ found', routes api t project python gid []
    (api.dependents t gid) = .ok found' := by
    refine routes_exists hdoc.nodup_dependents fun dependent hdependent => ?_
    have hbefore := (H.mem_dependents hdoc).mp hdependent
    exact ⟨R.gids dependent hbefore, by simp, P.routeOf_exists R H hbefore⟩
  obtain ⟨R', -⟩ := routes_ok hroutes'
  obtain ⟨destinations', hdestinations'⟩ : ∃ destinations', List.Forall₂ (fun name destination =>
      (resolveSection api t project name).map (fun found => (name, found)) = .ok destination)
      (found'.map Prod.snd ++ if task'.isIn done then [] else [done]).dedup destinations' := by
    refine Except.mapM_total fun name hname => ?_
    have hbefore : name ∈ (plan.1.map Prod.snd ++ if task.isIn done then [] else [done]).dedup := by
      rw [List.mem_dedup, List.mem_append] at hname ⊢
      rcases hname with hname | hname
      · obtain ⟨⟨dependent, _⟩, hmem, rfl⟩ := List.mem_map.mp hname
        obtain ⟨hdependent, hrouted⟩ := (R'.mem dependent _).mp hmem
        have hbefore := (H.mem_dependents hdoc).mp hdependent
        exact .inl (List.mem_map.mpr ⟨(dependent, _),
          (R.mem dependent _).mpr ⟨hbefore, ((P.routed_iff R H hbefore).mp hrouted).1⟩, rfl⟩)
      · refine .inr ?_
        cases hsettled : task.isIn done with
        | true => simp [hdone hsettled] at hname
        | false => cases hsettled' : task'.isIn done <;> simp_all
    obtain ⟨found, -, hresolve⟩ := destinations_lookup hdestinations hbefore
    exact ⟨_, by rw [H.resolveSection_eq, hresolve]; rfl⟩
  exact ⟨(found', destinations'), readMerged_eq_ok.mpr ⟨hperm.length_eq ▸ hlength, hroutes', hdestinations'⟩⟩

theorem reconcilePullRequest_autonomous {task : Task} (hgid : isGid gid = true) (hproject : isGid project = true)
    (htask : reconciliationTask api s project gid = .ok task) (hlane : task.authorization = .autonomous) :
    reconcilePullRequest api s project python gid .merged = reconcileMerged api s project python task gid := by
  unfold reconcilePullRequest
  rw [requireGid_eq_ok.mpr ⟨hgid, rfl⟩, Except.ok_bind, requireGid_eq_ok.mpr ⟨hproject, rfl⟩, Except.ok_bind,
    htask, Except.ok_bind]
  simp [hlane]

/-- The changes of a reconciliation, and those of one that is taken up after some of them, end alike. -/
theorem reconciled_replay (hdoc : api.Documented) {task : Task}
    {found found' : List (String × String)} {full rest : Change}
    (htask : reconciliationTask api s project gid = .ok task) (hlane : task.authorization = .autonomous)
    (R : RoutesOf api s project python gid (api.dependents s gid) found)
    (full : Reconciled api project gid task found full s s')
    (P : PartOf api s project gid task found change) (H : Changes api project change s t)
    (R' : RoutesOf api t project python gid (api.dependents t gid) found')
    (rest : Reconciled api project gid { change.apply project gid task with modifiedAt := modifiedAt } found' rest t t')
    (other : String) : (api.task t' other).map Task.place = (api.task s' other).map Task.place := by
  rw [(H.trans rest.changes).place_eq, full.changes.place_eq]
  congr 1
  funext live
  have hself : gid ∉ found.map Prod.fst := by
    intro hmem
    obtain ⟨⟨_, name⟩, hname, rfl⟩ := List.mem_map.mp hmem
    obtain ⟨hdependent, hrouted⟩ := (R.mem _ name).mp hname
    exact not_routed_self hdoc (reconciliationTask_ok htask).1 hlane hdependent hrouted
  have hcompletes : ∀ other, other ≠ gid → change.completes other = false := by
    intro other hother
    rw [← Bool.not_eq_true]
    exact fun h => hother (P.completes other h)
  refine place_apply_congr ?_ ?_
  · by_cases hother : other = gid
    · simp [Change.andThen, rest.completes, full.completes, hother]
    · simp [Change.andThen, rest.completes, full.completes, hother, hcompletes other hother]
  simp only [Change.andThen]
  by_cases hother : other = gid
  · subst hother
    cases hplaces : change.places other with
    | none =>
      rw [Option.or_none]
      rcases full.settled with ⟨hfull, hdone⟩ | ⟨hdone, sec, hfull, hresolve⟩
      · rcases rest.settled with ⟨hrest, -⟩ | ⟨hdone', -⟩
        · rw [hrest, hfull]
        · rw [isIn_unplaced hplaces, hdone] at hdone'
          cases hdone'
      · rcases rest.settled with ⟨-, hdone'⟩ | ⟨-, sec', hrest, hresolve'⟩
        · rw [isIn_unplaced hplaces, hdone] at hdone'
          cases hdone'
        · rw [H.resolveSection_eq] at hresolve'
          cases hresolve.symm.trans hresolve'
          rw [hrest, hfull]
    | some sec =>
      have hsec : task.isIn done = false ∧ resolveSection api s project done = .ok sec := by
        rcases P.places other sec hplaces with ⟨-, h⟩ | ⟨name, hmem, -⟩
        · exact h
        · exact (hself (List.mem_map_of_mem hmem)).elim
      rcases rest.settled with ⟨hrest, -⟩ | ⟨hdone', -⟩
      · rcases full.settled with ⟨-, hdone⟩ | ⟨-, sec', hfull, hresolve⟩
        · cases hdone.symm.trans hsec.1
        · cases hsec.2.symm.trans hresolve
          rw [hrest, hfull]
          rfl
      · rw [isIn_placed hplaces, (resolveSection_ok hsec.2).2] at hdone'
        simp at hdone'
  · have hagain_iff : ∀ name, (other, name) ∈ found' ↔
        (other, name) ∈ found ∧ change.places other = none := by
      intro name
      rw [R.mem, R'.mem, H.mem_dependents hdoc]
      constructor
      · rintro ⟨hdependent, hagain⟩
        obtain ⟨hroute, hplaces, -⟩ := (P.routed_iff R H hdependent).mp hagain
        exact ⟨⟨hdependent, hroute⟩, hplaces⟩
      · rintro ⟨⟨hdependent, hroute⟩, hplaces⟩
        exact ⟨hdependent, (P.routed_iff R H hdependent).mpr ⟨hroute, hplaces, hcompletes _ hother⟩⟩
    by_cases hrouted : ∃ name, (other, name) ∈ found
    · obtain ⟨name, hname⟩ := hrouted
      obtain ⟨sec, hfull, hresolve⟩ := full.routed _ name hname
      cases hplaces : change.places other with
      | none =>
        obtain ⟨sec', hrest, hresolve'⟩ := rest.routed _ name ((hagain_iff name).mpr ⟨hname, hplaces⟩)
        rw [H.resolveSection_eq] at hresolve'
        cases hresolve.symm.trans hresolve'
        rw [hrest, hfull]
        rfl
      | some sec' =>
        have hgone : other ∉ found'.map Prod.fst := by
          intro hmem
          obtain ⟨name', hname'⟩ : ∃ name, (other, name) ∈ found' := by simpa using hmem
          cases hplaces.symm.trans ((hagain_iff name').mp hname').2
        rcases P.places _ sec' hplaces with ⟨h, -⟩ | ⟨name', hmem, hresolve'⟩
        · exact (hother h).elim
        · cases ((R.mem _ name').mp hmem).2.unique ((R.mem _ name).mp hname).2
          cases hresolve.symm.trans hresolve'
          rw [rest.unrouted _ hother hgone, hfull]
          rfl
    · have hplaces : change.places other = none := by
        cases hplaces : change.places other with
        | none => rfl
        | some sec =>
          rcases P.places other sec hplaces with ⟨h, -⟩ | ⟨name, hmem, -⟩
          · exact (hother h).elim
          · exact (hrouted ⟨name, hmem⟩).elim
      have hgone : other ∉ found'.map Prod.fst := by
        intro hmem
        obtain ⟨name', hname'⟩ : ∃ name, (other, name) ∈ found' := by simpa using hmem
        exact hrouted ⟨name', ((hagain_iff name').mp hname').1⟩
      rw [rest.unrouted other hother hgone, hplaces, full.unrouted other hother (by simpa using hrouted)]
      rfl

/-- **The replay law**: after any part of the changes, the command succeeds and ends where the whole run
ends. -/
theorem reconcile_replay (hdoc : api.Documented) {task : Task}
    {plan : List (String × String) × List (String × ProjectSection)}
    (hgid : isGid gid = true) (hproject : isGid project = true)
    (htask : reconciliationTask api s project gid = .ok task) (hlane : task.authorization = .autonomous)
    (hplan : readMerged api s project python task gid = .ok plan)
    (P : PartOf api s project gid task plan.1 change) (H : Changes api project change s t) :
    ∃ report s' report' t', reconcilePullRequest api s project python gid .merged = .ok (report, s') ∧
      reconcilePullRequest api t project python gid .merged = .ok (report', t') ∧
      ∀ other, (api.task t' other).map Task.place = (api.task s' other).map Task.place := by
  obtain ⟨modifiedAt, htask'⟩ := H.reconciliationTask_ok htask
  obtain ⟨-, hroutes, -⟩ := readMerged_eq_ok.mp hplan
  obtain ⟨Rplan, -⟩ := routes_ok hroutes
  obtain ⟨plan', hplan'⟩ := readMerged_replay hdoc hplan P H
    (P.isIn_done Rplan hdoc (reconciliationTask_ok htask).1 hlane)
  have hrun : ∃ result, reconcileMerged api s project python task gid = .ok result := by
    rw [reconcileMerged_eq, hplan]
    exact ⟨_, rfl⟩
  have hrun' : ∃ result, reconcileMerged api t project python
      { change.apply project gid task with modifiedAt := modifiedAt } gid = .ok result := by
    rw [reconcileMerged_eq, hplan']
    exact ⟨_, rfl⟩
  obtain ⟨⟨report, s'⟩, hrun⟩ := hrun
  obtain ⟨⟨report', t'⟩, hrun'⟩ := hrun'
  obtain ⟨found, full, R, hfull⟩ := reconcileMerged_ok hdoc htask hlane hrun
  obtain ⟨found', rest, R', hrest⟩ := reconcileMerged_ok hdoc htask' hlane hrun'
  refine ⟨report, s', report', t', ?_, ?_, fun other => ?_⟩
  · rw [reconcilePullRequest_autonomous hgid hproject htask hlane, hrun]
  · rw [reconcilePullRequest_autonomous hgid hproject htask' hlane, hrun']
  · have hpart : PartOf api s project gid task found change :=
      ⟨P.completes, fun other sec hplaces => (P.places other sec hplaces).imp_right fun ⟨name, hmem, hresolve⟩ =>
        ⟨name, (R.mem other name).mpr ((Rplan.mem other name).mp hmem), hresolve⟩⟩
    exact reconciled_replay hdoc htask hlane R hfull hpart H R' hrest other

end Asana
end FlashyFactory
