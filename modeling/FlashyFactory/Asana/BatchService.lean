import FlashyFactory.Asana.BatchIdentity
import FlashyFactory.Asana.Requests
import FlashyFactory.Lib.Ends
import FlashyFactory.Lib.KeyedTable

/-! # The service that a batch is created on

The tasks of the service, the requests that read and change them, and their failures. A request that fails
may have taken effect. -/

namespace FlashyFactory
namespace Asana
namespace Batch

/-- A task as the service keeps it; it is in one section of each of its projects. -/
structure StoredTask where
  gid : String
  name : String
  notes : String := ""
  completed : Bool := false
  /-- `external.gid` and `external.data` -/
  external : Option (String × String) := none
  sections : List String := []
  /-- the gids of the tags -/
  tags : List String := []
  dependencies : List String := []
  /-- the enumeration fields that have a value -/
  customFields : List (String × String) := []
deriving DecidableEq, Repr

abbrev Tasks := KeyedTable StoredTask.gid

/-- What the service knows besides the tasks. -/
structure Service where
  /-- `GET /workspaces/{gid}/tags` -/
  tags : String → List Tag
  projectOf : String → String
  /-- where a new task of a project is put -/
  defaultSection : String → String
  projectOf_defaultSection : ∀ project, projectOf (defaultSection project) = project
  /-- the gid of a new task, given those in use -/
  newGid : List String → String
  newGid_fresh : ∀ gids, newGid gids ∉ gids

/-- The body of `POST /tasks`. -/
structure NewTask where
  name : String
  project : String
  externalGid : String
  externalData : String
  notes : Option String
  customFields : Option (List (String × String))
deriving DecidableEq, Repr

/-- The requests that change something. -/
inductive Change
  /-- `POST /tasks` -/
  | create (new : NewTask)
  /-- `POST /sections/{gid}/addTask` -/
  | addTask (inSection gid : String)
  /-- `POST /tasks/{gid}/addTag` -/
  | addTag (tag gid : String)
  /-- `POST /tasks/{gid}/removeTag` -/
  | removeTag (tag gid : String)
  /-- `POST /tasks/{gid}/addDependencies` -/
  | addDependencies (gid : String) (blockers : List String)
deriving DecidableEq, Repr

section
variable (service : Service)

def StoredTask.ofNew (new : NewTask) (gid : String) : StoredTask where
  gid := gid
  name := new.name
  notes := new.notes.getD ""
  external := some (new.externalGid, new.externalData)
  sections := [service.defaultSection new.project]
  customFields := new.customFields.getD []

/-- The task is in one section of a project. -/
def StoredTask.moved (inSection : String) (task : StoredTask) : StoredTask :=
  { task with sections :=
      task.sections.filter (fun other => service.projectOf other ≠ service.projectOf inSection) ++ [inSection] }

def Tasks.gids (tasks : Tasks) : List String := tasks.rows.map StoredTask.gid

def Tasks.nextGid (tasks : Tasks) : String := service.newGid tasks.gids

theorem Tasks.nextGid_fresh (tasks : Tasks) : ∀ task ∈ tasks, task.gid ≠ tasks.nextGid service := by
  intro task htask hgid
  refine service.newGid_fresh tasks.gids ?_
  change tasks.nextGid service ∈ tasks.gids
  rw [← hgid]
  exact List.mem_map_of_mem htask

namespace Change

/-- The task that is changed. -/
def gid (tasks : Tasks) : Change → String
  | create _ => tasks.nextGid service
  | addTask _ gid | addTag _ gid | removeTag _ gid | addDependencies gid _ => gid

/-- The change of an existing task. -/
def update : Change → StoredTask → StoredTask
  | create _, task => task
  | addTask inSection _, task => task.moved service inSection
  | addTag tag _, task => { task with tags := if tag ∈ task.tags then task.tags else task.tags ++ [tag] }
  | removeTag tag _, task => { task with tags := task.tags.filter (· ≠ tag) }
  | addDependencies _ blockers, task =>
    { task with dependencies := task.dependencies ++ blockers.filter fun blocker => blocker ∉ task.dependencies }

theorem update_gid (c : Change) (task : StoredTask) : (c.update service task).gid = task.gid := by
  cases c <;> rfl

def apply (tasks : Tasks) : Change → Tasks
  | create new => tasks.insert (.ofNew service new (tasks.nextGid service)) (tasks.nextGid_fresh service)
  | addTask inSection gid =>
    tasks.modify gid (fun _ => true) ((addTask inSection gid).update service) (update_gid service _)
  | addTag tag gid => tasks.modify gid (fun _ => true) ((addTag tag gid).update service) (update_gid service _)
  | removeTag tag gid => tasks.modify gid (fun _ => true) ((removeTag tag gid).update service) (update_gid service _)
  | addDependencies gid blockers =>
    tasks.modify gid (fun _ => true) ((addDependencies gid blockers).update service) (update_gid service _)

/-- The service finds what is to be changed. -/
def finds (tasks : Tasks) : Change → Bool
  | create _ => true
  | addTask _ gid | addTag _ gid | removeTag _ gid | addDependencies gid _ => (tasks.get? gid).isSome

end Change
end

/-! ## Sessions -/

/-- What became of a request. -/
inductive Event
  | applied (change : Change) (gid : String)
  | refused (change : Change)
  /-- A task was read. -/
  | read (task : StoredTask)
deriving DecidableEq, Repr

structure Session where
  tasks : Tasks
  /-- what becomes of the requests to come -/
  fates : ℕ → Fate
  log : List Event := []

namespace Session

def next (session : Session) : Session := { session with fates := fun n => session.fates (n + 1) }

def note (event : Event) (session : Session) : Session := { session with log := session.log ++ [event] }

def apply (service : Service) (change : Change) (session : Session) : Session :=
  { session with
    tasks := change.apply service session.tasks
    log := session.log ++ [.applied change (change.gid service session.tasks)] }

end Session

inductive Raised
  | clientError (message : String)
  | recursionError
  /-- of a dictionary that lacks the key -/
  | keyError (key : String)
deriving DecidableEq, Repr

abbrev Client (α : Type) := EStateM Raised Session α

def validate (answer : Answer α) : Client α :=
  match answer with
  | .ok a => pure a
  | .error (.clientError message _) => throw (.clientError message)
  | .error .recursionError => throw .recursionError

/-- `except ClientError`, which yields the message -/
def catchClientError (x : Client α) : Client (Except String α) := fun session =>
  match x session with
  | .ok a t => .ok (.ok a) t
  | .error (.clientError message) t => .ok (.error message) t
  | .error e t => .error e t

section
variable (service : Service)

/-- The gid of the changed task. -/
def send (change : Change) : Client String := fun session =>
  let gid := change.gid service session.tasks
  let found := change.finds session.tasks
  match session.fates 0 with
  | .answered =>
    if found then .ok gid (session.next.apply service change)
    else .error (.clientError "Asana API returned HTTP 404") (session.next.note (.refused change))
  | .failed applied message _ =>
    .error (.clientError message)
      (if applied && found then session.next.apply service change else session.next.note (.refused change))

end

/-- A request that reads. -/
def fetch (answer : Tasks → α) : Client α := fun session =>
  match session.fates 0 with
  | .answered => .ok (answer session.tasks) session.next
  | .failed _ message _ => .error (.clientError message) session.next

def noteRead (task : StoredTask) : Client Unit := fun session => .ok () (session.note (.read task))

/-- `GET /tasks/{gid}` -/
def readTask (gid : String) : Client StoredTask := do
  match ← fetch (·.get? gid) with
  | none => throw (.clientError "Asana API returned HTTP 404")
  | some task => do
    noteRead task
    return task

/-- `GET /tasks/external:{gid}` -/
def findExternal (externalGid : String) (tasks : Tasks) : Option StoredTask :=
  tasks.rows.find? fun task => task.external.any (·.1 = externalGid)

end Batch
end Asana
end FlashyFactory
