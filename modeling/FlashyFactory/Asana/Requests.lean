import FlashyFactory.Asana.LastDependency

/-! # Requests that fail

`reconcile_pull_request` over a service that may fail to answer each request, before or after it takes
effect. What was changed before a failure stays. -/

namespace FlashyFactory
namespace Asana

/-- What becomes of a request. -/
inductive Fate
  | answered
  /-- The client has no answer; `applied` tells whether the request took effect. -/
  | failed (applied : Bool) (message : String) (rateLimited : Bool)
deriving DecidableEq, Repr

/-- The requests that change something. -/
inductive Mutation
  | addTask (found : ProjectSection) (gid : String)
  | complete (gid : String)
  | addDependencies (gid : String) (blockers : List String)
  | removeDependencies (gid : String) (blockers : List String)
deriving DecidableEq, Repr

structure Session (σ : Type) where
  service : σ
  /-- Of the requests to come. -/
  fates : ℕ → Fate
  /-- The mutations that were requested. -/
  log : List (Mutation × Fate) := []

/-- The requests of one command. -/
abbrev Client (σ : Type) := EStateM Failure (Session σ)

variable {σ : Type} (api : Api σ) (project : String)

def Mutation.apply (s : σ) : Mutation → σ
  | addTask found gid => api.addTask s found.gid gid
  | complete gid => api.complete s gid
  | addDependencies gid blockers => api.addDependencies s gid blockers
  | removeDependencies gid blockers => api.removeDependencies s gid blockers

namespace Session

def start (s : σ) (fates : ℕ → Fate) : Session σ := { service := s, fates := fates }

/-- Every request to come is answered. -/
def Answers (session : Session σ) : Prop := ∀ n, session.fates n = .answered

def next (session : Session σ) : Session σ := { session with fates := fun n => session.fates (n + 1) }

end Session

namespace Client

/-- A request that changes nothing, and the validation of its answer; the pages of a collection are one
request. -/
def read (answer : σ → Answer α) : Client σ α := fun session =>
  match session.fates 0, answer session.service with
  | .failed _ message rateLimited, _ => .error (.clientError message rateLimited) session.next
  | .answered, .ok a => .ok a session.next
  | .answered, .error e => .error e session.next

def validate (answer : Answer α) : Client σ α := fun session =>
  match answer with
  | .ok a => .ok a session
  | .error e => .error e session

def mutate (mutation : Mutation) : Client σ Unit := fun session =>
  let logged := { session.next with log := session.log ++ [(mutation, session.fates 0)] }
  let changed := { logged with service := mutation.apply api session.service }
  match session.fates 0 with
  | .answered => .ok () changed
  | .failed applied message rateLimited =>
    .error (.clientError message rateLimited) (if applied then changed else logged)

def dependencyState (python : Python) (gid : String) (assumedCompleted : List String) :
    Client σ DependencyState :=
  dependencyStateM (fun e => validate (.error e)) (fun gid => read (observeTask api · project gid)) python gid
    assumedCompleted

def routeOf (python : Python) (gid dependent : String) (live : Task) : Client σ (List (String × String)) :=
  if live.authorization = .manual || live.completed || !live.isIn waiting then return []
  else if live.authorization ≠ .autonomous then return [(dependent, needsDecision)]
  else do
    let state ← dependencyState api project python dependent [gid]
    return if state.blocked then [] else [(dependent, readyToImplement)]

def routes (python : Python) (gid : String) (seen : List String) :
    List String → Client σ (List (String × String))
  | [] => return []
  | dependent :: dependents => do
    let dependent ← validate (requireGid "dependent.gid" dependent)
    validate (refuseIf (dependent ∈ seen) ("task " ++ gid ++ " returned duplicate dependent " ++ dependent))
    let live ← read (reconciliationTask api · project dependent)
    let route ← routeOf api project python gid dependent live
    let rest ← routes python gid (dependent :: seen) dependents
    return route ++ rest

/-- `move_task_to_resolved_section` unless the task is there. -/
def settleIn (task : Task) (gid name : String) : Client σ Unit :=
  if task.isIn name then return
  else do
    let found ← read (resolveSection api · project name)
    mutate api (.addTask found gid)

def completeUnless (task : Task) (gid : String) : Client σ Unit :=
  if task.completed then return else mutate api (.complete gid)

def moveTo (destinations : List (String × ProjectSection)) (gid name : String) : Client σ Unit :=
  match destinations.lookup name with
  | some found => mutate api (.addTask found gid)
  | none => return

def release (destinations : List (String × ProjectSection)) (routes : List (String × String)) : Client σ Unit :=
  routes.forM fun (dependent, name) => moveTo api destinations dependent name

def moveToDone (destinations : List (String × ProjectSection)) (task : Task) (gid : String) : Client σ Unit :=
  if task.isIn done then return else moveTo api destinations gid done

/-- What is read before the first change. -/
def readMerged (python : Python) (task : Task) (gid : String) :
    Client σ (List (String × String) × List (String × ProjectSection)) := do
  let dependents ← read fun s => paginate 1000 (api.dependents s gid)
  let routes ← routes api project python gid [] dependents
  let names := (routes.map Prod.snd ++ if task.isIn done then [] else [done]).dedup
  let destinations ← names.mapM fun name => do
    let found ← read (resolveSection api · project name)
    return (name, found)
  return (routes, destinations)

def reconcileMerged (python : Python) (task : Task) (gid : String) : Client σ Report := do
  let (routes, destinations) ← readMerged api project python task gid
  moveToDone api destinations task gid
  completeUnless api task gid
  release api destinations routes
  return { status := "merged"
           released := (routes.filter fun route => route.2 = readyToImplement).map Prod.fst }

def reconcilePullRequest (python : Python) (gid : String) (outcome : Outcome) : Client σ Report := do
  let gid ← validate (requireGid "task_gid" gid)
  let project ← validate (requireGid "ASANA_PROJECT_GID" project)
  let task ← read (reconciliationTask api · project gid)
  if task.authorization = .manual then
    if outcome ≠ .merged then return { status := "manual_untouched" }
    else do
      settleIn api project task gid done
      completeUnless api task gid
      return { status := "merged" }
  else if task.completed && outcome ≠ .merged then return { status := "completed_untouched" }
  else if task.authorization ≠ .autonomous then do
    settleIn api project task gid needsDecision
    return { status := "unsafe" }
  else if outcome ≠ .merged then do
    settleIn api project task gid needsDecision
    return { status := if outcome = .closed then "closed_unmerged" else "unsafe" }
  else reconcileMerged api project python task gid

end Client
end Asana
end FlashyFactory
