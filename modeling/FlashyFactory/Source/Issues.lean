import FlashyFactory.Lib.Exceptions
import FlashyFactory.Storage.Records

/-! # What a source command may print

The daemon's side of the source protocol: `SourceOutput` and `validate_issues`. -/

namespace FlashyFactory
namespace Source

/-- `SourceIssue` -/
structure SourceIssue where
  key : String
  title : String
  description : String := ""
  state : String
  labels : List String := []
  url : String := ""
  author : String := ""
  revision : Option String := none
  dependencies : List String := []
  dependencyRevision : String := ""
deriving DecidableEq, Repr

/-! ## Parsing -/

def SourceIssue.fieldNames : List String :=
  ["key", "title", "description", "state", "labels", "url", "author", "revision", "dependencies",
    "dependency_revision"]

/-- A field with `#[serde(default)]`. -/
def orDefault (value : Option Json) (default : α) (decode : Json → Option α) : Option α :=
  match value with
  | none => some default
  | some json => decode json

def asStrings? (json : Json) : Option (List String) := json.asArray?.bind fun items => items.mapM Json.asStr?

def asOptionalStr? : Json → Option (Option String)
  | .null => some none
  | json => json.asStr?.map some

/-- An object of these fields at most, none of them twice. -/
def knownFields (names : List String) : Json → Option (List (String × Json))
  | .object fields =>
    if fields.all (fun field => field.1 ∈ names) ∧ (fields.map Prod.fst).Nodup then some fields else none
  | _ => none

def SourceIssue.fromJson? (json : Json) : Option SourceIssue := do
  let fields ← knownFields SourceIssue.fieldNames json
  let text := fun name => (fields.lookup name).bind Json.asStr?
  let textOr := fun name => orDefault (fields.lookup name) "" Json.asStr?
  return {
    key := ← text "key"
    title := ← text "title"
    description := ← textOr "description"
    state := ← text "state"
    labels := ← orDefault (fields.lookup "labels") [] asStrings?
    url := ← textOr "url"
    author := ← textOr "author"
    revision := ← orDefault (fields.lookup "revision") none asOptionalStr?
    dependencies := ← orDefault (fields.lookup "dependencies") [] asStrings?
    dependencyRevision := ← textOr "dependency_revision" }

/-- `SourceOutput` -/
def outputFromJson? (json : Json) : Option (List SourceIssue) := do
  let fields ← knownFields ["issues"] json
  let items ← (fields.lookup "issues").bind Json.asArray?
  items.mapM SourceIssue.fromJson?

/-! ## Validation -/

inductive SourceError
  | invalidJson
  | invalidKey
  | duplicateKey (key : String)
  | invalidTitle (key : String)
  | notMatching (key state : String) (labels : List String)
  | invalidRevision (key : String)
  | invalidDependencies (key : String)
  | noDependencyRevision (key : String)
deriving DecidableEq, Repr

/-- `char::is_control` -/
def isControl (c : Char) : Bool := c.toNat ≤ 0x1F || (0x7F ≤ c.toNat && c.toNat ≤ 0x9F)

def hasControl (value : String) : Bool := value.toList.any isControl

def isGidChar (c : Char) : Bool := c.isAlphanum || c = '_' || c = '-'

def validDependencyGid (value : String) : Bool :=
  value ≠ "" && value.utf8ByteSize ≤ 100 && value.toList.all isGidChar

def isLowerHex (c : Char) : Bool := ('0' ≤ c && c ≤ '9') || ('a' ≤ c && c ≤ 'f')

def validDependencyRevision (value : String) : Bool :=
  value.utf8ByteSize = 71 && "sha256:".toList.isPrefixOf value.toList && (value.toList.drop 7).all isLowerHex

def bailIf (p : Prop) [Decidable p] (error : SourceError) : Except SourceError Unit :=
  if p then .error error else .ok ()

@[simp] theorem bailIf_eq_ok {p : Prop} [Decidable p] : bailIf p error = .ok u ↔ ¬ p := by
  by_cases h : p <;> simp [bailIf, h]

/-- One turn of the loop of `validate_issues`; `keys` are the keys before. -/
def checkIssue (state : String) (labels keys : List String) (issue : SourceIssue) : Except SourceError Unit := do
  bailIf (isBlank issue.key ∨ 100 < issue.key.length ∨ hasControl issue.key) .invalidKey
  bailIf (issue.key ∈ keys) (.duplicateKey issue.key)
  bailIf (isBlank issue.title ∨ hasControl issue.title) (.invalidTitle issue.key)
  bailIf (issue.state ≠ state ∨ ¬ labels.all issue.labels.contains) (.notMatching issue.key state labels)
  bailIf (issue.revision.any fun revision => isBlank revision || hasControl revision) (.invalidRevision issue.key)
  bailIf (issue.dependencies.any (fun dependency => !validDependencyGid dependency) ∨ ¬ issue.dependencies.Nodup)
    (.invalidDependencies issue.key)
  bailIf ((issue.dependencies ≠ [] ∨ issue.dependencyRevision ≠ "") ∧
    ¬ validDependencyRevision issue.dependencyRevision) (.noDependencyRevision issue.key)

def checkIssues (state : String) (labels keys : List String) : List SourceIssue → Except SourceError Unit
  | [] => .ok ()
  | issue :: issues => do
    checkIssue state labels keys issue
    checkIssues state labels (issue.key :: keys) issues

def validateIssues (issues : List SourceIssue) (state : String) (labels : List String) :
    Except SourceError (List SourceIssue) := do
  checkIssues state labels [] issues
  return issues

/-- What `query` makes of the output of a command that succeeded. -/
def readOutput (crates : Crates) (stdout state : String) (labels : List String) :
    Except SourceError (List SourceIssue) :=
  match (crates.jsonFromStr stdout).bind outputFromJson? with
  | none => .error .invalidJson
  | some issues => validateIssues issues state labels

/-! ## What is valid -/

/-- An issue that matches, but for the uniqueness of its key. -/
structure SourceIssue.Valid (state : String) (labels : List String) (issue : SourceIssue) : Prop where
  key : isBlank issue.key = false ∧ issue.key.length ≤ 100 ∧ hasControl issue.key = false
  title : isBlank issue.title = false ∧ hasControl issue.title = false
  state : issue.state = state
  labels : ∀ label ∈ labels, label ∈ issue.labels
  revision : ∀ revision, issue.revision = some revision → isBlank revision = false ∧ hasControl revision = false
  dependencies : (∀ dependency ∈ issue.dependencies, validDependencyGid dependency = true) ∧
    issue.dependencies.Nodup
  dependencyRevision : issue.dependencies ≠ [] ∨ issue.dependencyRevision ≠ "" →
    validDependencyRevision issue.dependencyRevision = true

theorem checkIssue_eq_ok {issue : SourceIssue} :
    checkIssue state labels keys issue = .ok u ↔ issue.Valid state labels ∧ issue.key ∉ keys := by
  simp only [checkIssue, Except.bind_eq_ok, bailIf_eq_ok, not_or, Bool.not_eq_true, Nat.not_lt]
  constructor
  · rintro ⟨_, hkey, _, hfresh, _, htitle, _, ⟨hstate, hlabels⟩, _, hrevision, _, ⟨hgids, hnodup⟩,
      hdependencyRevision⟩
    refine ⟨⟨hkey, htitle, not_not.mp hstate, ?_, ?_, ⟨?_, not_not.mp hnodup⟩, ?_⟩, hfresh⟩
    · simpa using hlabels
    · intro revision hsome
      simpa [hsome] using hrevision
    · simpa using hgids
    · intro hpresent
      by_contra hinvalid
      exact hdependencyRevision ⟨hpresent, Bool.eq_false_iff.mpr hinvalid⟩
  · rintro ⟨H, hfresh⟩
    refine ⟨(), H.key, (), hfresh, (), H.title, (), ⟨not_not.mpr H.state, ?_⟩, (), ?_, (),
      ⟨?_, not_not.mpr H.dependencies.2⟩, fun h => ?_⟩
    · simpa using H.labels
    · cases hrevision : issue.revision with
      | none => rfl
      | some revision =>
        obtain ⟨hblank, hcontrol⟩ := H.revision revision hrevision
        simp [hblank, hcontrol]
    · simpa using H.dependencies.1
    · cases (H.dependencyRevision h.1).symm.trans h.2

theorem checkIssues_eq_ok {issues : List SourceIssue} : checkIssues state labels keys issues = .ok u ↔
    (∀ issue ∈ issues, issue.Valid state labels ∧ issue.key ∉ keys) ∧ (issues.map SourceIssue.key).Nodup := by
  induction issues generalizing keys with
  | nil => simp [checkIssues]
  | cons issue issues ih =>
    rw [List.forall_mem_cons, List.map_cons, List.nodup_cons]
    simp only [checkIssues, Except.bind_eq_ok, checkIssue_eq_ok, ih, List.mem_cons, not_or]
    constructor
    · rintro ⟨_, hfirst, hrest, hnodup⟩
      refine ⟨⟨hfirst, fun other hother => ⟨(hrest other hother).1, (hrest other hother).2.2⟩⟩,
        fun hmem => ?_, hnodup⟩
      obtain ⟨other, hother, hkey⟩ := List.mem_map.mp hmem
      exact (hrest other hother).2.1 hkey
    · rintro ⟨⟨hfirst, hrest⟩, hfresh, hnodup⟩
      refine ⟨(), hfirst, fun other hother =>
        ⟨(hrest other hother).1, fun hkey => ?_, (hrest other hother).2⟩, hnodup⟩
      exact hfresh (hkey ▸ List.mem_map_of_mem hother)

/-- **What is accepted**: valid issues with a key each of their own. -/
theorem validateIssues_eq_ok {issues : List SourceIssue} : validateIssues issues state labels = .ok accepted ↔
    (∀ issue ∈ issues, issue.Valid state labels) ∧ (issues.map SourceIssue.key).Nodup ∧ issues = accepted := by
  simp only [validateIssues, Except.bind_eq_ok, checkIssues_eq_ok, Except.pure_eq_ok, List.not_mem_nil,
    not_false_eq_true, and_true]
  constructor
  · rintro ⟨_, ⟨hvalid, hnodup⟩, heq⟩
    exact ⟨hvalid, hnodup, heq⟩
  · rintro ⟨hvalid, hnodup, heq⟩
    exact ⟨(), ⟨hvalid, hnodup⟩, heq⟩

end Source
end FlashyFactory
