import FlashyFactory.Asana.Client
import FlashyFactory.Lib.TopologicalOrder
import Mathlib.Data.List.DropRight

/-! # Reading the manifest of a batch

`parse_batch_manifest` and `validate_acyclic_graph`. The manifest is the JSON object that is read; the keys of
an object are distinct. -/

namespace FlashyFactory
namespace Asana

def maxTextBytes : ℕ := 256 * 1024
def maxBatchTasks : ℕ := 25
def maxTaskRelationships : ℕ := 30
def maxCustomFields : ℕ := 20

/-! ## Names -/

/-- One alphanumeric character, then at most `most` more or of these. -/
def isIdentifier (most : ℕ) (others : List Char) (value : String) : Bool :=
  match value.toList with
  | [] => false
  | c :: cs => c.isAlphanum && cs.length ≤ most && cs.all fun c => c.isAlphanum || others.contains c

/-- `TASK_REF_PATTERN.fullmatch` -/
def isTaskRef (value : String) : Bool := isIdentifier 99 ['_', '.', '-'] value

/-- `BATCH_CREATION_ID_PATTERN.fullmatch` -/
def isBatchCreationId (value : String) : Bool := isIdentifier 127 ['_', '.', ':', '-'] value

inductive DeliveryPolicy
  | backlogOnly
  | autonomousToPr
deriving DecidableEq, Repr

namespace DeliveryPolicy

def text : DeliveryPolicy → String
  | backlogOnly => "backlog_only"
  | autonomousToPr => "autonomous_to_pr"

/-- `AUTHORIZATION_TAGS` -/
def tag : DeliveryPolicy → String
  | backlogOnly => Asana.backlogOnly
  | autonomousToPr => Asana.autonomousToPr

def ofText? (text : String) : Option DeliveryPolicy :=
  [backlogOnly, autonomousToPr].find? (·.text = text)

end DeliveryPolicy

/-! ## Tasks -/

structure BatchTask where
  ref : String
  name : String
  notes : Option String := none
  customFields : Option (List (String × String)) := none
deriving DecidableEq, Repr

def rejectUnknownFields (fields : List (String × Json)) (allowed : List String) (field : String) : Answer Unit :=
  let unknown := (fields.map Prod.fst).filter fun name => name ∉ allowed
  refuseIf (unknown ≠ []) (field ++ " contains unknown fields: " ++
    String.intercalate ", " (unknown.insertionSort (· ≤ ·)))

/-- `require_gid` of a value of any type. -/
def requireGidValue (name : String) (value : Json) : Answer String :=
  match value with
  | .string text => requireGid name text
  | _ => refuse (name ++ " must be a valid Asana GID")

/-- The field is absent or `null`. -/
def isMissing : Option Json → Bool
  | none | some .null => true
  | _ => false

def parseNotes (field : String) (raw : Option Json) : Answer (Option String) :=
  if isMissing raw then .ok none
  else match raw with
    | some (.string notes) => do
      refuseIf (maxTextBytes < notes.utf8ByteSize)
        (field ++ ".notes must not exceed " ++ toString maxTextBytes ++ " bytes")
      return some notes
    | _ => refuse (field ++ ".notes must be a string")

def parseCustomField (field : String) (entry : String × Json) : Answer (String × String) := do
  let fieldGid ← requireGid (field ++ ".custom_fields field GID") entry.1
  let optionGid ← requireGidValue (field ++ ".custom_fields[" ++ pythonRepr entry.1 ++ "] enum option GID") entry.2
  return (fieldGid, optionGid)

def parseCustomFields (field : String) (raw : Option Json) : Answer (Option (List (String × String))) :=
  if isMissing raw then .ok none
  else match raw with
    | some (.object (first :: entries)) => do
      refuseIf (maxCustomFields < (first :: entries).length)
        (field ++ ".custom_fields may contain at most " ++ toString maxCustomFields ++ " values")
      let fields ← (first :: entries).mapM (parseCustomField field)
      return some fields
    | _ => refuse (field ++ ".custom_fields must be a non-empty object")

def requireRef (field : String) (raw : Option Json) : Answer String :=
  match raw with
  | some (.string reference) =>
    if isTaskRef reference then .ok reference else refuse (field ++ ".ref must be a 1-100 character task reference")
  | _ => refuse (field ++ ".ref must be a 1-100 character task reference")

def requireTaskName (field : String) (raw : Option Json) : Answer String :=
  match raw with
  | some (.string name) => requireName (field ++ ".name") name
  | _ => refuse (field ++ ".name must be a string")

/-- `references` are the references of the tasks before. -/
def parseTask (references : List String) (field : String) (raw : Json) : Answer BatchTask :=
  match raw with
  | .object fields => do
    rejectUnknownFields fields ["ref", "name", "notes", "custom_fields"] field
    let reference ← requireRef field (fields.lookup "ref")
    refuseIf (reference ∈ references) ("duplicate task reference " ++ pythonRepr reference)
    let name ← requireTaskName field (fields.lookup "name")
    let notes ← parseNotes field (fields.lookup "notes")
    let customFields ← parseCustomFields field (fields.lookup "custom_fields")
    return { ref := reference, name := name, notes := notes, customFields := customFields }
  | _ => refuse (field ++ " must be an object")

def parseTasks (references : List String) : List Json → Answer (List BatchTask)
  | [] => .ok []
  | raw :: rest => do
    let task ← parseTask references ("tasks[" ++ toString references.length ++ "]") raw
    let tasks ← parseTasks (references ++ [task.ref]) rest
    return task :: tasks

structure BatchHead where
  batchCreationId : String
  deliveryPolicy : DeliveryPolicy
  tasks : List BatchTask

def requireCreationId (raw : Option Json) : Answer String :=
  match raw with
  | some (.string value) =>
    if isBatchCreationId value then .ok value
    else refuse "batch_creation_id must be a caller-supplied 1-128 character identifier"
  | _ => refuse "batch_creation_id must be a caller-supplied 1-128 character identifier"

def requirePolicy (raw : Option Json) : Answer DeliveryPolicy :=
  match (raw.bind Json.asStr?).bind DeliveryPolicy.ofText? with
  | some policy => .ok policy
  | none => refuse "delivery_policy must be backlog_only or autonomous_to_pr"

def requireTasks (raw : Option Json) : Answer (List BatchTask) :=
  match raw with
  | some (.array (first :: rest)) => do
    refuseIf (maxBatchTasks < (first :: rest).length)
      ("a batch may contain at most " ++ toString maxBatchTasks ++ " tasks")
    parseTasks [] (first :: rest)
  | _ => refuse "tasks must be a non-empty array"

/-- The manifest up to its dependencies. -/
def parseHead (manifest : List (String × Json)) : Answer BatchHead := do
  rejectUnknownFields manifest ["batch_creation_id", "delivery_policy", "dependencies", "tasks"] "batch manifest"
  let batchCreationId ← requireCreationId (manifest.lookup "batch_creation_id")
  let deliveryPolicy ← requirePolicy (manifest.lookup "delivery_policy")
  let tasks ← requireTasks (manifest.lookup "tasks")
  return { batchCreationId := batchCreationId, deliveryPolicy := deliveryPolicy, tasks := tasks }

/-! ## Edges -/

/-- `str.isspace` of one character -/
def isSpace (c : Char) : Bool := isWhiteSpace c || (0x1C ≤ c.toNat && c.toNat ≤ 0x1F)

/-- `str.strip` -/
def strip (text : List Char) : List Char := (text.dropWhile isSpace).rdropWhile isSpace

/-- The character goes in front of the first part. -/
def extendFirst (c : Char) : List (List Char) → List (List Char)
  | [] => [[c]]
  | part :: parts => (c :: part) :: parts

/-- `raw_edge.split("->")` -/
def splitArrow : List Char → List (List Char)
  | [] => [[]]
  | '-' :: '>' :: text => [] :: splitArrow text
  | c :: text => extendFirst c (splitArrow text)

def edgeEnds (field : String) (raw : Json) : Answer (String × String) :=
  match raw with
  | .string text => match (splitArrow text.toList).map strip with
    | [dependent, blocker] =>
      if dependent ≠ [] ∧ blocker ≠ [] then .ok (String.ofList dependent, String.ofList blocker)
      else refuse (field ++ " must use the form 'dependent -> blocker'")
    | _ => refuse (field ++ " must use the form 'dependent -> blocker'")
  | .object fields => do
    rejectUnknownFields fields ["dependent", "blocker"] field
    match fields.lookup "dependent", fields.lookup "blocker" with
    | some (.string dependent), some (.string blocker) => return (dependent, blocker)
    | _, _ => refuse (field ++ ".dependent and " ++ field ++ ".blocker must be strings")
  | _ => refuse (field ++ " must be a string or object")

def parseEdge (references : List String) (field : String) (raw : Json) : Answer (String × String) := do
  let (dependent, blocker) ← edgeEnds field raw
  refuseIf (dependent ∉ references) (field ++ " references unknown dependent " ++ pythonRepr dependent)
  refuseIf (blocker ∉ references) (field ++ " references unknown blocker " ++ pythonRepr blocker)
  refuseIf (dependent = blocker) (field ++ " is a self-dependency for " ++ pythonRepr dependent)
  return (dependent, blocker)

def parseEdges (references : List String) (index : ℕ) : List Json → Answer (List (String × String))
  | [] => .ok []
  | raw :: rest => do
    let edge ← parseEdge references ("dependencies.edges[" ++ toString index ++ "]") raw
    let edges ← parseEdges references (index + 1) rest
    return edge :: edges

def parseDependencies (references : List String) (dependencies : Option Json) : Answer (List (String × String)) :=
  match dependencies with
  | some (.string text) =>
    if text = "independent" then .ok []
    else if text = "listed_chain" then .ok (references.tail.zip references)
    else refuse "dependencies must be independent, listed_chain, or an explicit_edges object"
  | some (.object fields) => do
    rejectUnknownFields fields ["mode", "edges"] "dependencies"
    refuseIf ((fields.lookup "mode").bind Json.asStr? ≠ some "explicit_edges")
      "dependencies.mode must be explicit_edges when dependencies is an object"
    match fields.lookup "edges" with
    | some (.array raw) => parseEdges references 0 raw
    | _ => refuse "dependencies.edges must be an array"
  | _ => refuse "dependencies must be independent, listed_chain, or an explicit_edges object"

/-- `relationship_counts[reference]` -/
def relationships (edges : List (String × String)) (reference : String) : ℕ :=
  (edges.flatMap fun e => [e.1, e.2]).count reference

def checkRelationships (edges : List (String × String)) : Answer Unit :=
  match (edges.flatMap fun e => [e.1, e.2]).find? fun reference =>
    maxTaskRelationships < relationships edges reference with
  | some reference => refuse ("task " ++ pythonRepr reference ++ " has " ++ toString (relationships edges reference) ++
      " dependencies and dependents; Asana permits at most " ++ toString maxTaskRelationships ++ " combined")
  | none => .ok ()

def sorted (items : List String) : List String := items.insertionSort (· ≤ ·)

def validateAcyclicGraph (references : List String) (edges : List (String × String)) : Answer Unit :=
  let last := TopologicalOrder.run sorted references edges
  refuseIf (last.visited.length ≠ references.length) ("dependencies contain a cycle involving: " ++
    String.intercalate ", " (sorted (references.filter fun reference => last.inDegree reference ≠ 0)))

def checkEdges (references : List String) (edges : List (String × String)) : Answer Unit := do
  refuseIf (¬ edges.Nodup) "dependencies contain a duplicate edge"
  checkRelationships edges
  validateAcyclicGraph references edges

def parseBatchManifest (manifest : List (String × Json)) :
    Answer (DeliveryPolicy × List BatchTask × List (String × String)) := do
  let head ← parseHead manifest
  let references := head.tasks.map BatchTask.ref
  let edges ← parseDependencies references (manifest.lookup "dependencies")
  checkEdges references edges
  return (head.deliveryPolicy, head.tasks, edges)

end Asana
end FlashyFactory
