import FlashyFactory.Asana.LastDependency
import FlashyFactory.Source.Issues
import Mathlib

/-! # The two sides of the source protocol

What `list_source` prints, as the daemon reads it: every issue is accepted unless a text of its task has a
control character in it. -/

namespace FlashyFactory
namespace Asana
open Source

variable {σ : Type} {api : Api σ} {s : σ} {project state : String} {python : Python} {labels : List String}

/-! ## What is printed -/

def jsonStrings (values : List String) : Json := .array (values.map .string)

def Issue.toJson (issue : Issue) : Json :=
  .object ([("key", .string issue.key), ("title", .string issue.title), ("description", .string issue.description),
      ("state", .string issue.state), ("labels", jsonStrings issue.labels), ("url", .string issue.url),
      ("author", .string issue.author), ("revision", .string issue.revision)] ++
    (issue.dependencies.map fun dependencies => ("dependencies", jsonStrings dependencies)).toList ++
    (issue.dependencyRevision.map fun revision => ("dependency_revision", .string revision)).toList)

/-- The result of `list_source`. -/
def outputJson (issues : List Issue) : Json := .object [("issues", .array (issues.map Issue.toJson))]

/-- The issue, with the defaults of the daemon. -/
def Issue.read (issue : Issue) : SourceIssue where
  key := issue.key
  title := issue.title
  description := issue.description
  state := issue.state
  labels := issue.labels
  url := issue.url
  author := issue.author
  revision := some issue.revision
  dependencies := issue.dependencies.getD []
  dependencyRevision := issue.dependencyRevision.getD ""

/-- Decoding what was encoded. -/
theorem mapM_map_encode {e : α → Json} {d : Json → Option β} {f : α → β} (h : ∀ a, d (e a) = some (f a))
    (as : List α) : (as.map e).mapM d = some (as.map f) := by
  induction as with
  | nil => rfl
  | cons a as ih =>
    rw [List.map_cons, List.mapM_cons, h, ih]
    rfl

@[simp] theorem asStrings?_jsonStrings {values : List String} : asStrings? (jsonStrings values) = some values := by
  have hread := mapM_map_encode (e := Json.string) (d := Json.asStr?) (f := id) (fun _ => rfl) values
  rw [List.map_id] at hread
  exact hread

theorem fromJson?_issue (issue : Issue) : SourceIssue.fromJson? issue.toJson = some issue.read := by
  obtain ⟨key, title, description, state, labels, url, author, revision, dependencies, dependencyRevision⟩ := issue
  cases dependencies <;> cases dependencyRevision <;>
    simp [SourceIssue.fromJson?, Issue.toJson, Issue.read, knownFields, SourceIssue.fieldNames, List.lookup_cons,
      Source.orDefault, Json.asStr?, asOptionalStr?]

theorem outputFromJson?_outputJson {issues : List Issue} :
    outputFromJson? (outputJson issues) = some (issues.map Issue.read) := by
  have hfields : knownFields ["issues"] (outputJson issues) =
      some [("issues", .array (issues.map Issue.toJson))] := by
    simp [knownFields, outputJson]
  rw [outputFromJson?, hfields]
  exact mapM_map_encode fromJson?_issue issues

/-! ## Texts -/

@[simp] theorem hasControl_append {a b : String} : hasControl (a ++ b) = (hasControl a || hasControl b) := by
  simp [hasControl, String.toList_append]

theorem isGidChar_toNat {c : Char} (h : isGidChar c = true) : 0x20 < c.toNat ∧ c.toNat < 0x7F := by
  simp only [isGidChar, Bool.or_eq_true, decide_eq_true_eq] at h
  rcases h with (h | rfl) | rfl
  · simp [Char.isAlphanum, Char.isAlpha, Char.isUpper, Char.isLower, Char.isDigit, UInt32.le_iff_toNat_le] at h ⊢
    omega
  · decide
  · decide

theorem isControl_of_lt {c : Char} (h : 0x20 < c.toNat ∧ c.toNat < 0x7F) : isControl c = false := by
  simp only [isControl, Bool.or_eq_false_iff, Bool.and_eq_false_iff, decide_eq_false_iff_not]
  omega

theorem isWhiteSpace_of_lt {c : Char} (h : 0x20 < c.toNat ∧ c.toNat < 0x7F) : isWhiteSpace c = false := by
  simp only [isWhiteSpace, Bool.or_eq_false_iff, Bool.and_eq_false_iff, decide_eq_false_iff_not]
  omega

theorem utf8ByteSize_of_ascii {value : String} (h : ∀ c ∈ value.toList, c.toNat < 0x7F) :
    value.utf8ByteSize = value.length := by
  have hone : ∀ c ∈ value.toList, c.utf8Size = 1 := fun c hc =>
    Char.utf8Size_eq_one_iff.mpr (UInt32.le_iff_toNat_le.mpr (by have := h c hc; simp at this ⊢; omega))
  rw [utf8ByteSize_eq, List.map_congr_left hone]
  simp [String.length_toList]

theorem isGid_iff {value : String} : isGid value = true ↔
    1 ≤ value.length ∧ value.length ≤ 100 ∧ ∀ c ∈ value.toList, isGidChar c = true := by
  simp [isGid, isGidChar, and_assoc, or_assoc]

theorem hasControl_intercalate {texts : List String} :
    hasControl (String.intercalate "," texts) = texts.any hasControl := by
  have hlist : ∀ texts : List String, ([','].intercalate (texts.map String.toList)).any isControl =
      texts.any hasControl := by
    intro texts
    induction texts with
    | nil => rfl
    | cons text texts ih =>
      cases texts with
      | nil => simp [hasControl]
      | cons next texts =>
        have hcomma : isControl ',' = false := by decide
        simp only [List.map_cons, List.intercalate_cons_cons, List.any_append, List.any_cons] at ih ⊢
        rw [ih]
        simp [hasControl, hcomma]
  rw [hasControl, String.toList_intercalate]
  exact hlist texts

theorem hasControl_tagGids {task : Task} :
    hasControl task.tagGids = false ↔ ∀ tag ∈ task.tags, hasControl tag.gid = false := by
  rw [Task.tagGids, hasControl_intercalate]
  simp

theorem isGid_printable {value : String} (h : isGid value = true) :
    isBlank value = false ∧ hasControl value = false := by
  obtain ⟨hlength, -, hchars⟩ := isGid_iff.mp h
  obtain ⟨c, hc⟩ : ∃ c, c ∈ value.toList := List.exists_mem_of_length_pos (by rwa [String.length_toList])
  constructor
  · refine List.all_eq_false.mpr ⟨c, hc, ?_⟩
    simp [isWhiteSpace_of_lt (isGidChar_toNat (hchars c hc))]
  · refine List.any_eq_false.mpr fun c hc => ?_
    simp [isControl_of_lt (isGidChar_toNat (hchars c hc))]

theorem validDependencyGid_of_isGid {value : String} (h : isGid value = true) : validDependencyGid value = true := by
  obtain ⟨hlength, hbound, hchars⟩ := isGid_iff.mp h
  have hne : value ≠ "" := by
    rintro rfl
    simp at hlength
  have hsize := utf8ByteSize_of_ascii fun c hc => (isGidChar_toNat (hchars c hc)).2
  simp only [validDependencyGid, Bool.and_eq_true, decide_eq_true_eq, List.all_eq_true]
  exact ⟨⟨hne, hsize ▸ hbound⟩, hchars⟩

/-- `hexdigest()`: 64 digits. -/
def Python.HexDigest (python : Python) : Prop :=
  ∀ text, (python.sha256 text).length = 64 ∧ ∀ c ∈ (python.sha256 text).toList, isLowerHex c = true

theorem isLowerHex_toNat {c : Char} (h : isLowerHex c = true) : 0x20 < c.toNat ∧ c.toNat < 0x7F := by
  simp only [isLowerHex, Bool.or_eq_true, Bool.and_eq_true, decide_eq_true_eq, Char.le_def,
    UInt32.le_iff_toNat_le] at h
  simp at h ⊢
  omega

theorem validDependencyRevision_digest (hdigest : python.HexDigest) {text : String} :
    validDependencyRevision ("sha256:" ++ python.sha256 text) = true := by
  obtain ⟨hlength, hchars⟩ := hdigest text
  have hsize : (python.sha256 text).utf8ByteSize = 64 :=
    hlength ▸ utf8ByteSize_of_ascii fun c hc => (isLowerHex_toNat (hchars c hc)).2
  simp only [validDependencyRevision, Bool.and_eq_true, decide_eq_true_eq, List.all_eq_true]
  refine ⟨⟨?_, ?_⟩, ?_⟩
  · rw [String.utf8ByteSize_append, hsize]
    rfl
  · rw [String.toList_append]
    exact List.isPrefixOf_iff_prefix.mpr (List.prefix_append _ _)
  · have hseven : "sha256:".toList.length = 7 := by decide
    rw [String.toList_append, ← hseven, List.drop_left]
    exact hchars

/-! ## One task -/

/-- What is printed of the task has no control character in its title and its revision. -/
structure Task.Printable (state : String) (task : Task) : Prop where
  name : hasControl task.name = false
  tags : ∀ tag ∈ task.tags, hasControl tag.gid = false
  modifiedAt : ¬ (state = waiting ∧ autonomousToPr ∈ task.tagNames) → hasControl task.modifiedAt = false

instance (state : String) (task : Task) : Decidable (task.Printable state) :=
  decidable_of_iff (hasControl task.name = false ∧ (∀ tag ∈ task.tags, hasControl tag.gid = false) ∧
      (¬ (state = waiting ∧ autonomousToPr ∈ task.tagNames) → hasControl task.modifiedAt = false))
    ⟨fun ⟨name, tags, modifiedAt⟩ => ⟨name, tags, modifiedAt⟩, fun H => ⟨H.name, H.tags, H.modifiedAt⟩⟩

/-- The task is not skipped. -/
def Task.listed (state : String) (labels : List String) (task : Task) : Bool :=
  !(task.completed || !labels.all task.tagNames.contains || state = waiting && task.tagNames.contains backlogOnly)

theorem Task.listed_labels {task : Task} (h : task.listed state labels = true) :
    ∀ label ∈ labels, label ∈ task.tagNames := by
  simp only [Task.listed, Bool.not_eq_true', Bool.or_eq_false_iff, Bool.not_eq_false'] at h
  simpa using h.1.2

/-- The four formats of a revision, and the dependencies that are printed with them. -/
inductive Stamped (api : Api σ) (s : σ) (project : String) (python : Python) (state : String)
    (found : ProjectSection) (task : Task) : String → Option DependencyState → Prop
  | reconciled {dependency} : state = waiting → autonomousToPr ∈ task.tagNames →
      dependencyState api s project python task.gid [] = .ok dependency →
      Stamped api s project python state found task
        ("asana:" ++ found.gid ++ ":" ++ task.tagGids ++ ":" ++ dependency.dependencyRevision) (some dependency)
  | stamped {dependency} : state ≠ waiting → autonomousToPr ∈ task.tagNames →
      dependencyState api s project python task.gid [] = .ok dependency →
      Stamped api s project python state found task
        ("asana:" ++ (task.modifiedAt ++ ":" ++ found.gid) ++ ":" ++ task.tagGids ++ ":" ++
          dependency.dependencyRevision) (some dependency)
  | untrusted : state = waiting → autonomousToPr ∈ task.tagNames →
      Stamped api s project python state found task
        ("asana:" ++ found.gid ++ ":" ++ task.tagGids ++ ":unsafe:" ++
          python.sha256 (found.gid ++ ":" ++ task.tagGids ++ ":unsafe")) none
  | plain : autonomousToPr ∉ task.tagNames →
      Stamped api s project python state found task
        ("asana:" ++ task.modifiedAt ++ ":" ++ found.gid ++ ":" ++ task.tagGids) none

theorem sourceIssue_eq_some {found : ProjectSection} {task : Task} {issue : Issue}
    (h : sourceIssue api s project python state labels found task = .ok (some issue)) :
    task.listed state labels = true ∧ isGid task.gid = true ∧ isBlankText task.name = false ∧
      ∃ revision dependency, issue = task.issue state revision dependency ∧
        Stamped api s project python state found task revision dependency := by
  unfold sourceIssue at h
  split at h
  · cases h
  next hlisted =>
  simp only [Except.bind_eq_ok, requireGid_eq_ok, refuseIf_eq_ok, Bool.not_eq_true] at h
  obtain ⟨_, ⟨hgid, rfl⟩, _, hname, h⟩ := h
  refine ⟨Bool.not_eq_true' _ ▸ Bool.eq_false_iff.mpr hlisted, hgid, hname, ?_⟩
  split at h
  · next htag =>
    rw [List.contains_iff_mem] at htag
    split at h
    · next dependency hdependency =>
      simp only [Except.pure_eq_ok, Option.some.injEq] at h
      refine ⟨_, _, h.symm, ?_⟩
      split
      · next hstate => exact .reconciled hstate htag hdependency
      · next hstate => exact .stamped hstate htag hdependency
    · split at h
      · cases h
      · next hwaiting =>
        simp only [Bool.or_eq_true, decide_eq_true_eq, not_or, not_not] at hwaiting
        simp only [Except.pure_eq_ok, Option.some.injEq] at h
        exact ⟨_, _, h.symm, .untrusted hwaiting.2 htag⟩
    · cases h
  · next htag =>
    rw [List.contains_iff_mem] at htag
    simp only [Except.pure_eq_ok, Option.some.injEq] at h
    exact ⟨_, _, h.symm, .plain htag⟩

theorem sourceIssue_eq_none {found : ProjectSection} {task : Task}
    (h : sourceIssue api s project python state labels found task = .ok none) : task.listed state labels = false := by
  unfold sourceIssue at h
  split at h
  · next hskipped =>
    rw [Task.listed, hskipped]
    rfl
  simp only [Except.bind_eq_ok] at h
  obtain ⟨_, -, _, -, h⟩ := h
  split at h
  · split at h
    · simp at h
    · split at h
      · cases h
      · simp at h
    · cases h
  · simp at h

theorem isBlank_of_isBlankText {value : String} (h : isBlankText value = false) : isBlank value = false := by
  obtain ⟨c, hc, hne⟩ := List.all_eq_false.mp h
  refine List.all_eq_false.mpr ⟨c, hc, fun hwhite => hne ?_⟩
  simp [hwhite]

theorem isBlank_of_head {c : Char} {text : String} (hc : isWhiteSpace c = false) (h : text.toList.head? = some c) :
    isBlank text = false := by
  refine List.all_eq_false.mpr ⟨c, List.mem_of_head? h, ?_⟩
  simp [hc]

theorem hasControl_digest (hdigest : python.HexDigest) {text : String} : hasControl (python.sha256 text) = false := by
  refine List.any_eq_false.mpr fun c hc => ?_
  simp [isControl_of_lt (isLowerHex_toNat ((hdigest text).2 c hc))]

theorem hasControl_dependencyRevision (hdigest : python.HexDigest)
    (h : dependencyState api s project python gid [] = .ok dependency) :
    hasControl dependency.dependencyRevision = false := by
  obtain ⟨_, -, hdescribes⟩ := dependencyState_describes h
  have hlabel : hasControl "sha256:" = false := by decide
  rw [hdescribes.dependencyRevision, hasControl_append, hlabel, hasControl_digest hdigest]
  rfl

/-- The revision can be printed if the texts in it can. -/
theorem Stamped.hasControl_iff {found : ProjectSection} {task : Task} (hdigest : python.HexDigest)
    (hfound : isGid found.gid = true) (h : Stamped api s project python state found task revision dependency) :
    hasControl revision = false ↔ (∀ tag ∈ task.tags, hasControl tag.gid = false) ∧
      (¬ (state = waiting ∧ autonomousToPr ∈ task.tagNames) → hasControl task.modifiedAt = false) := by
  have hsection := (isGid_printable hfound).2
  have hlabel : hasControl "asana:" = false := by decide
  have hcolon : hasControl ":" = false := by decide
  have huntrusted : hasControl ":unsafe:" = false := by decide
  rw [← hasControl_tagGids]
  cases h with
  | reconciled hstate htag hread =>
    simp [hasControl_append, hsection, hlabel, hcolon, hasControl_dependencyRevision hdigest hread, hstate, htag]
  | stamped hstate htag hread =>
    simp [hasControl_append, hsection, hlabel, hcolon, hasControl_dependencyRevision hdigest hread, hstate, and_comm]
  | untrusted hstate htag =>
    simp [hasControl_append, hsection, hlabel, hcolon, huntrusted, hasControl_digest hdigest, hstate, htag]
  | plain htag => simp [hasControl_append, hsection, hlabel, hcolon, htag, and_comm]

theorem Stamped.not_blank {found : ProjectSection} {task : Task}
    (h : Stamped api s project python state found task revision dependency) : isBlank revision = false := by
  obtain ⟨text, rfl⟩ : ∃ text, revision = "asana:" ++ text := by
    cases h <;> simp only [String.append_assoc] <;> exact ⟨_, rfl⟩
  refine isBlank_of_head (c := 'a') (by decide) ?_
  rw [String.toList_append]
  rfl

/-- The dependencies that are printed are valid. -/
theorem Stamped.dependencies {found : ProjectSection} {task : Task} (hdigest : python.HexDigest)
    (h : Stamped api s project python state found task revision (some dependency)) :
    (∀ blocker ∈ dependency.dependencies, isGid blocker = true) ∧ dependency.dependencies.Nodup ∧
      validDependencyRevision dependency.dependencyRevision = true := by
  have hread : dependencyState api s project python task.gid [] = .ok dependency := by
    cases h <;> assumption
  obtain ⟨w, hwalk, -⟩ := dependencyState_eq_ok.mp hread
  obtain ⟨live, hlive, hdescribes⟩ := dependencyState_describes hread
  obtain ⟨other, hother, hformed⟩ := (WellFormed.of_walk hwalk).task task.gid .refl
  cases hlive.symm.trans hother
  rw [hdescribes.dependencies, hdescribes.dependencyRevision]
  refine ⟨fun blocker hblocker => ?_, ?_, validDependencyRevision_digest hdigest⟩
  · exact hformed.isGid blocker ((List.mem_insertionSort _).mp hblocker)
  · exact (List.perm_insertionSort _ _).nodup_iff.mpr hformed.nodup

/-- The daemon accepts the issue of a task exactly if its texts can be printed. -/
theorem sourceIssue_valid_iff {found : ProjectSection} {task : Task} {issue : Issue} (hdigest : python.HexDigest)
    (hfound : isGid found.gid = true)
    (h : sourceIssue api s project python state labels found task = .ok (some issue)) :
    issue.read.Valid state labels ↔ task.Printable state := by
  obtain ⟨hlisted, hgid, hname, revision, dependency, rfl, hstamped⟩ := sourceIssue_eq_some h
  have hrevision := hstamped.hasControl_iff hdigest hfound
  constructor
  · intro H
    obtain ⟨htags, hmodified⟩ := hrevision.mp (H.revision revision rfl).2
    exact ⟨H.title.2, htags, hmodified⟩
  · intro H
    refine ⟨⟨(isGid_printable hgid).1, (isGid_iff.mp hgid).2.1, (isGid_printable hgid).2⟩,
      ⟨isBlank_of_isBlankText hname, H.name⟩, rfl, ?_, ?_, ?_, ?_⟩
    · exact Task.listed_labels hlisted
    · intro printed hprinted
      cases hprinted
      exact ⟨hstamped.not_blank, hrevision.mpr ⟨H.tags, H.modifiedAt⟩⟩
    · cases dependency with
      | none => exact ⟨nofun, .nil⟩
      | some dependency =>
        obtain ⟨hgids, hnodup, -⟩ := hstamped.dependencies hdigest
        exact ⟨fun blocker hblocker => validDependencyGid_of_isGid (hgids blocker hblocker), hnodup⟩
    · intro hpresent
      cases dependency with
      | none => simp [Issue.read, Task.issue] at hpresent
      | some dependency => exact (hstamped.dependencies hdigest).2.2

/-! ## The protocol -/

theorem resolveSection_isGid {found : ProjectSection} (h : resolveSection api s project name = .ok found) :
    isGid found.gid = true := by
  simp only [resolveSection, Except.bind_eq_ok, paginate_eq_ok] at h
  obtain ⟨_, -, h⟩ := h
  split at h
  · simp only [Except.bind_eq_ok, requireGid_eq_ok, Except.pure_eq_ok] at h
    obtain ⟨_, ⟨hgid, -⟩, rfl⟩ := h
    exact hgid
  · simp at h

/-- Each key is the gid of a task that was read. -/
theorem nodup_keys {found : ProjectSection} {tasks : List Task} {answers : List (Option Issue)}
    (h : List.Forall₂ (fun task answer => sourceIssue api s project python state labels found task = .ok answer)
      tasks answers) (hnodup : (tasks.map Task.gid).Nodup) :
    ((answers.filterMap id).map Issue.key).Sublist (tasks.map Task.gid) := by
  induction h with
  | nil => exact .slnil
  | @cons task answer tasks answers hfirst _ ih =>
    have hrest := ih (List.nodup_cons.mp hnodup).2
    cases answer with
    | none => exact hrest.cons _
    | some issue =>
      rw [List.map_cons, ← key_of_sourceIssue hfirst]
      exact hrest.cons_cons _

/-- **The two sides of the source protocol agree** on a listing exactly if no control character is in the
texts of a listed task that are printed in its title and its revision. -/
theorem source_output_accepted_iff {found : ProjectSection} {issues : List Issue} {crates : Crates}
    (dump : Json → String) (hdigest : python.HexDigest)
    (hfound : resolveSection api s project state = .ok found)
    (hnodup : ((api.sectionTasks s found.gid).map Task.gid).Nodup)
    (h : listSource api s project python state labels maxResults = .ok issues)
    (hdump : crates.jsonFromStr (dump (outputJson issues)) = some (outputJson issues)) :
    (∃ accepted, readOutput crates (dump (outputJson issues)) state labels = .ok accepted) ↔
      ∀ task ∈ api.sectionTasks s found.gid, task.listed state labels = true → task.Printable state := by
  have hgid := resolveSection_isGid hfound
  obtain ⟨-, _, hfound', -, answers, hanswers, rfl⟩ := listSource_eq_ok.mp h
  cases hfound.symm.trans hfound'
  have hkeys : (((answers.filterMap id).map Issue.read).map SourceIssue.key).Nodup := by
    rw [List.map_map]
    exact (nodup_keys hanswers hnodup).nodup hnodup
  rw [readOutput, hdump, Option.bind_some, outputFromJson?_outputJson]
  simp only [validateIssues_eq_ok, hkeys, true_and, exists_and_left, exists_eq', and_true, List.forall_mem_map]
  constructor
  · intro hvalid task htask hlisted
    obtain ⟨answer, hanswer, hsource⟩ := Except.mapM_forward hanswers htask
    cases answer with
    | none => cases hlisted.symm.trans (sourceIssue_eq_none hsource)
    | some issue =>
      exact (sourceIssue_valid_iff hdigest hgid hsource).mp (hvalid issue (by simpa using hanswer))
  · intro hprintable issue hissue
    obtain ⟨task, htask, hsource⟩ := Except.mapM_backward hanswers (by simpa using hissue : some issue ∈ answers)
    exact (sourceIssue_valid_iff hdigest hgid hsource).mpr
      (hprintable task htask (sourceIssue_eq_some hsource).1)

/-! ## A task of its own -/

namespace Memory

/-- The digest of the text `[]`. -/
def emptyDigest : String := "4f53cda18c2baa0c0354bb5f9a3ecbe5ed12ab4d8e11ba873c2f11161202b945"

/-- One task without dependencies, with this title. -/
def titled (title : String) : Memory where
  tasks := ⟨[{ sample "a" [] false readySection with name := title }], by simp⟩
  sections := sampleSections

/-- What is listed of it. -/
def titledIssue (title : String) : Issue where
  key := "a"
  title := title
  description := ""
  state := readyToImplement
  labels := [autonomousToPr]
  url := ""
  author := ""
  revision := "asana::r:1:sha256:" ++ emptyDigest
  dependencies := some []
  dependencyRevision := some ("sha256:" ++ emptyDigest)

/-- What is printed of it, with the title as it is spelled in JSON. -/
def titledOutput (spelled : String) : String :=
  "\x7b\"issues\":[\x7b\"key\":\"a\",\"title\":\"" ++ spelled ++ "\",\"description\":\"\"," ++
    "\"state\":\"Ready To Implement\",\"labels\":[\"factory:auto-to-pr\"],\"url\":\"\",\"author\":\"\"," ++
    "\"revision\":\"asana::r:1:sha256:" ++ emptyDigest ++ "\",\"dependencies\":[]," ++
    "\"dependency_revision\":\"sha256:" ++ emptyDigest ++ "\"\x7d]\x7d"

/-- `serde_json` on this text. -/
def titledCrates (title spelled : String) : Crates where
  jsonFromStr text := if text = titledOutput spelled then some (outputJson [titledIssue title]) else none
  jsonToString _ := ""
  sanitizeForStorage text := text

theorem titledCrates_reads {title spelled : String} :
    (titledCrates title spelled).jsonFromStr (titledOutput spelled) = some (outputJson [titledIssue title]) :=
  if_pos rfl

end Memory

theorem hexDigest_emptyDigest : (pythonOf fun _ => Memory.emptyDigest).HexDigest := by
  have hdigits : Memory.emptyDigest.length = 64 ∧ ∀ c ∈ Memory.emptyDigest.toList, isLowerHex c = true :=
    ⟨by decide, List.all_eq_true.mp (by decide)⟩
  exact fun _ => hdigits

theorem source_output_accepted_titled :
    ∃ accepted, readOutput (Memory.titledCrates "Fix bug" "Fix bug") (Memory.titledOutput "Fix bug")
      readyToImplement [autonomousToPr] = .ok accepted := by
  have hfound : resolveSection Memory.api (Memory.titled "Fix bug") "p" readyToImplement = .ok Memory.readySection := by
    decide
  have hlist : listSource Memory.api (Memory.titled "Fix bug") "p" (pythonOf fun _ => Memory.emptyDigest)
      readyToImplement [autonomousToPr] 100 = .ok [Memory.titledIssue "Fix bug"] := by decide
  exact (source_output_accepted_iff (fun _ => Memory.titledOutput "Fix bug") hexDigest_emptyDigest hfound
    (by decide) hlist Memory.titledCrates_reads).mpr (by decide)

/-- A tab in the name of one task. -/
theorem source_output_rejected :
    (pythonOf fun _ => Memory.emptyDigest).HexDigest ∧
    resolveSection Memory.api (Memory.titled "Fix\tbug") "p" readyToImplement = .ok Memory.readySection ∧
    ((Memory.api.sectionTasks (Memory.titled "Fix\tbug") "r").map Task.gid).Nodup ∧
    listSource Memory.api (Memory.titled "Fix\tbug") "p" (pythonOf fun _ => Memory.emptyDigest) readyToImplement
      [autonomousToPr] 100 = .ok [Memory.titledIssue "Fix\tbug"] ∧
    readOutput (Memory.titledCrates "Fix\tbug" "Fix\\tbug") (Memory.titledOutput "Fix\\tbug") readyToImplement
      [autonomousToPr] = .error (.invalidTitle "a") := by
  refine ⟨hexDigest_emptyDigest, by decide, by decide, by decide, ?_⟩
  rw [readOutput, Memory.titledCrates_reads, Option.bind_some, outputFromJson?_outputJson]
  decide

end Asana
end FlashyFactory
