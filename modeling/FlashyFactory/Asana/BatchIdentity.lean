import FlashyFactory.Asana.AdmissibleGraphs
import FlashyFactory.Asana.SourceProtocol
import FlashyFactory.Lib.CanonicalJson

/-! # The identities of a batch

`task_content_hash`, `batch_definition_hash` and `task_external_identity`, and when two identities collide. -/

namespace FlashyFactory
namespace Asana

open CanonicalJson Source

variable {python : Python}

/-! ## Hashes -/

def contentText (task : BatchTask) : List Char :=
  dumpsObject [
    ("custom_fields", dumpsObject ((task.customFields.getD []).map fun field => (field.1, quote field.2))),
    ("name", quote task.name),
    ("notes", quote (task.notes.getD ""))]

def taskContentHash (python : Python) (task : BatchTask) : String := python.sha256 (String.ofList (contentText task))

/-- `sorted(edges)` -/
def sortedEdges (edges : List (String × String)) : List (String × String) :=
  edges.insertionSort fun a b => a.1 < b.1 ∨ (a.1 = b.1 ∧ a.2 ≤ b.2)

def sortedTasks (tasks : List BatchTask) : List BatchTask := tasks.insertionSort fun a b => a.ref ≤ b.ref

def definitionText (python : Python) (deliveryPolicy : DeliveryPolicy) (tasks : List BatchTask)
    (edges : List (String × String)) : List Char :=
  dumpsObject [
    ("delivery_policy", quote deliveryPolicy.text),
    ("edges", dumpsArray ((sortedEdges edges).map fun edge =>
      dumpsObject [("blocker", quote edge.2), ("dependent", quote edge.1)])),
    ("tasks", dumpsArray ((sortedTasks tasks).map fun task =>
      dumpsObject [("content_sha256", quote (taskContentHash python task)), ("ref", quote task.ref)]))]

def batchDefinitionHash (python : Python) (deliveryPolicy : DeliveryPolicy) (tasks : List BatchTask)
    (edges : List (String × String)) : String :=
  python.sha256 (String.ofList (definitionText python deliveryPolicy tasks edges))

/-! ## External identities -/

def identitySuffix (batchAnchorRef reference : String) : String :=
  if reference = batchAnchorRef then "batch" else "task:" ++ reference

def externalGid (batchCreationId batchAnchorRef reference : String) : String :=
  "flashy-factory:" ++ batchCreationId ++ ":" ++ identitySuffix batchAnchorRef reference

def externalData (python : Python) (batchCreationId batchDefinitionSha256 : String) (task : BatchTask)
    (projectGid backlogGid : String) : String :=
  String.ofList (dumpsObject [
    ("batch_creation_id", quote batchCreationId),
    ("batch_definition_sha256", quote batchDefinitionSha256),
    ("content_sha256", quote (taskContentHash python task)),
    ("project_gid", quote projectGid),
    ("section_gid", quote backlogGid),
    ("task_ref", quote task.ref),
    ("version", ['1'])])

def taskExternalIdentity (python : Python) (batchCreationId batchDefinitionSha256 batchAnchorRef : String)
    (task : BatchTask) (projectGid backlogGid : String) : Answer (String × String) := do
  let gid := externalGid batchCreationId batchAnchorRef task.ref
  refuseIf (1024 < gid.utf8ByteSize)
    ("external GID for task " ++ pythonRepr task.ref ++ " exceeds 1024 bytes")
  let data := externalData python batchCreationId batchDefinitionSha256 task projectGid backlogGid
  refuseIf (32768 < data.utf8ByteSize)
    ("external data for task " ++ pythonRepr task.ref ++ " exceeds 32768 bytes")
  return (gid, data)

theorem taskExternalIdentity_eq_ok {task : BatchTask} :
    taskExternalIdentity python batchCreationId definitionSha256 batchAnchorRef task projectGid backlogGid =
        .ok (gid, data) ↔
      gid = externalGid batchCreationId batchAnchorRef task.ref ∧ gid.utf8ByteSize ≤ 1024 ∧
        data = externalData python batchCreationId definitionSha256 task projectGid backlogGid ∧
        data.utf8ByteSize ≤ 32768 := by
  unfold taskExternalIdentity
  generalize externalGid batchCreationId batchAnchorRef task.ref = derived
  generalize externalData python batchCreationId definitionSha256 task projectGid backlogGid = stored
  simp only [Except.bind_eq_ok, refuseIf_eq_ok, not_lt, Except.pure_eq_ok, Prod.mk.injEq, exists_const]
  constructor
  · rintro ⟨hgid, hdata, rfl, rfl⟩
    exact ⟨rfl, hgid, rfl, hdata⟩
  · rintro ⟨rfl, hgid, rfl, hdata⟩
    exact ⟨hgid, hdata, rfl, rfl⟩

/-! ## Sizes -/

/-- At most `most` characters, none of which needs an escape. -/
structure Short (most : ℕ) (text : String) : Prop where
  length : text.length ≤ most
  plain : ∀ c ∈ text.toList, Plain c

theorem Short.append {first second : String} (hfirst : Short m first) (hsecond : Short n second) :
    Short (m + n) (first ++ second) where
  length := by
    have := hfirst.length
    have := hsecond.length
    rw [String.length_append]
    omega
  plain c hc := by
    rw [String.toList_append] at hc
    exact (List.mem_append.mp hc).elim (hfirst.plain c) (hsecond.plain c)

theorem Short.mono {text : String} (h : Short m text) (hle : m ≤ n) :
    Short n text := ⟨h.length.trans hle, h.plain⟩

theorem Short.utf8ByteSize_le {text : String} (h : Short n text) : text.utf8ByteSize ≤ n := by
  rw [utf8ByteSize_of_ascii fun c hc => Nat.lt_succ_of_le (h.plain c hc).2.1]
  exact h.length

theorem Short.length_quote {text : String} (h : Short n text) : (quote text).length ≤ n + 2 := by
  rw [CanonicalJson.length_quote h.plain]
  have := h.length
  omega

theorem plain_of_gidChar {c : Char} (h : isGidChar c = true) : Plain c := by
  have hrange := isGidChar_toNat h
  refine ⟨by omega, by omega, ?_, ?_⟩
  · rintro rfl
    cases h
  · rintro rfl
    cases h

theorem isIdentifier_short {most : ℕ} {others : List Char} {value : String}
    (h : isIdentifier most others value = true)
    (hothers : ∀ c ∈ others, Plain c) : Short (most + 1) value where
  length := by
    unfold isIdentifier at h
    rw [← String.length_toList]
    cases hlist : value.toList with
    | nil => simp
    | cons c cs =>
      simp only [hlist, Bool.and_eq_true, decide_eq_true_eq] at h
      simp only [List.length_cons]
      omega
  plain c hc := by
    rcases (isIdentifier_chars h).2 c hc with halphanum | hother
    · exact plain_of_gidChar (by simp [isGidChar, halphanum])
    · exact hothers c hother

instance (c : Char) : Decidable (Plain c) := inferInstanceAs (Decidable (_ ∧ _ ∧ _ ∧ _))

theorem plain_of_all {text : List Char} (h : (text.all fun c => decide (Plain c)) = true) :
    ∀ c ∈ text, Plain c := by
  simpa using h

theorem Short.of_text {text : String}
    (h : text.length ≤ most ∧ (text.toList.all fun c => decide (Plain c)) = true) : Short most text :=
  ⟨h.1, plain_of_all h.2⟩

theorem isTaskRef_short {reference : String} (h : isTaskRef reference = true) : Short 100 reference :=
  isIdentifier_short h (plain_of_all (by decide))

theorem isBatchCreationId_short {id : String} (h : isBatchCreationId id = true) : Short 128 id :=
  isIdentifier_short h (plain_of_all (by decide))

theorem isGid_short {gid : String} (h : isGid gid = true) : Short 100 gid where
  length := (isGid_iff.mp h).2.1
  plain c hc := plain_of_gidChar ((isGid_iff.mp h).2.2 c hc)

theorem Python.HexDigest.short (hdigest : python.HexDigest) (text : String) : Short 64 (python.sha256 text) where
  length := (hdigest text).1.le
  plain c hc := by
    have hrange := isLowerHex_toNat ((hdigest text).2 c hc)
    have hhex := (hdigest text).2 c hc
    refine ⟨by omega, by omega, ?_, ?_⟩
    · rintro rfl
      cases hhex
    · rintro rfl
      cases hhex

theorem externalGid_short {id reference : String} (hid : Short 128 id) (href : Short 100 reference) :
    Short 249 (externalGid id anchorRef reference) := by
  have hspace : Short 15 "flashy-factory:" := .of_text (by decide)
  have hcolon : Short 1 ":" := .of_text (by decide)
  have hbatch : Short 105 "batch" := .of_text (by decide)
  have htask : Short 5 "task:" := .of_text (by decide)
  have hsuffix : Short 105 (identitySuffix anchorRef reference) := by
    unfold identitySuffix
    split
    · exact hbatch
    · exact htask.append href
  exact ((hspace.append hid).append hcolon).append hsuffix

theorem externalData_fits {id definition project backlog : String} {task : BatchTask} (hdigest : python.HexDigest)
    (hid : Short 128 id) (hdefinition : Short 64 definition) (href : Short 100 task.ref) (hproject : Short 100 project)
    (hbacklog : Short 100 backlog) :
      (externalData python id definition task project backlog).utf8ByteSize ≤ 32768 := by
  have hkeys : ["batch_creation_id", "batch_definition_sha256", "content_sha256", "project_gid", "section_gid",
    "task_ref", "version"].Pairwise (· ≤ ·) := by decide
  have hkey : ∀ key ∈ ["batch_creation_id", "batch_definition_sha256", "content_sha256",
    "project_gid", "section_gid",
    "task_ref", "version"], (quote key).length ≤ 25 := by decide
  have hcontent : Short 64 (taskContentHash python task) := hdigest.short _
  rw [externalData, dumpsObject_of_sorted]
  · rw [utf8ByteSize_of_ascii, String.length_ofList]
    · refine (@length_writeObject_le _ 155 ?_).trans (by simp)
      simp only [List.forall_mem_cons] at hkey ⊢
      have := hid.length_quote
      have := hdefinition.length_quote
      have := hcontent.length_quote
      have := href.length_quote
      have := hproject.length_quote
      have := hbacklog.length_quote
      obtain ⟨h₁, h₂, h₃, h₄, h₅, h₆, h₇, -⟩ := hkey
      exact ⟨by omega, by omega, by omega, by omega, by omega, by omega, by simp; omega, nofun⟩
    · rw [String.toList_ofList]
      refine writeObject_ascii ?_
      simp only [List.forall_mem_cons]
      exact ⟨quote_ascii _, quote_ascii _, quote_ascii _, quote_ascii _, quote_ascii _, quote_ascii _,
        ⟨by decide, nofun⟩, nofun⟩
  · exact hkeys

/-- A valid task of a valid batch has an identity. -/
theorem taskExternalIdentity_of_valid {id definition anchorRef project backlog : String} {task : BatchTask}
    (hdigest : python.HexDigest) (hid : isBatchCreationId id = true) (hdefinition : Short 64 definition)
    (href : isTaskRef task.ref = true) (hproject : isGid project = true) (hbacklog : isGid backlog = true) :
    taskExternalIdentity python id definition anchorRef task project backlog =
      .ok (externalGid id anchorRef task.ref, externalData python id definition task project backlog) := by
  have hid := isBatchCreationId_short hid
  have href := isTaskRef_short href
  refine taskExternalIdentity_eq_ok.mpr ⟨rfl, ?_, rfl, ?_⟩
  · exact ((externalGid_short hid href).mono (by decide)).utf8ByteSize_le
  · exact externalData_fits hdigest hid hdefinition href (isGid_short hproject) (isGid_short hbacklog)

/-! ## Collisions -/

/-- A task of a batch, as its identity names it. -/
structure Member where
  batchCreationId : String
  batchAnchorRef : String
  ref : String
deriving DecidableEq, Repr

namespace Member

structure Valid (i : Member) : Prop where
  creationId : isBatchCreationId i.batchCreationId = true
  anchorRef : isTaskRef i.batchAnchorRef = true
  ref : isTaskRef i.ref = true

def IsAnchor (i : Member) : Prop := i.ref = i.batchAnchorRef

instance (i : Member) : Decidable i.IsAnchor := inferInstanceAs (Decidable (i.ref = i.batchAnchorRef))

/-- One batch, and both are its anchor or both the same other task. -/
def Same (i j : Member) : Prop :=
  i.batchCreationId = j.batchCreationId ∧
    ((i.IsAnchor ∧ j.IsAnchor) ∨ (¬ i.IsAnchor ∧ ¬ j.IsAnchor ∧ i.ref = j.ref))

/-- The anchor of a batch whose id ends in `:task`, and the task `batch` of the batch without this ending. -/
def Shadows (i j : Member) : Prop :=
  i.IsAnchor ∧ i.batchCreationId = j.batchCreationId ++ ":task" ∧ ¬ j.IsAnchor ∧ j.ref = "batch"

instance (i j : Member) : Decidable (i.Shadows j) :=
  inferInstanceAs (Decidable (_ ∧ _ ∧ _ ∧ _))

end Member

theorem isTaskRef_separator {reference : String} (h : isTaskRef reference = true) : ':' ∉ reference.toList := by
  intro hmem
  rcases (isIdentifier_chars h).2 _ hmem with h | h
  · cases h
  · simp at h

theorem toList_externalGid {id anchorRef reference : String} : (externalGid id anchorRef reference).toList =
    "flashy-factory:".toList ++ (id.toList ++ ':' :: (identitySuffix anchorRef reference).toList) := by
  change ("flashy-factory:" ++ id ++ ":" ++ identitySuffix anchorRef reference).toList = _
  rw [String.toList_append, String.toList_append, String.toList_append, List.append_assoc, List.append_assoc]
  rfl

/-- The gid without the part that all of them have. -/
theorem externalGid_inj {id other anchorRef otherRef reference next : String} :
    externalGid id anchorRef reference = externalGid other otherRef next ↔
      id.toList ++ ':' :: (identitySuffix anchorRef reference).toList =
        other.toList ++ ':' :: (identitySuffix otherRef next).toList := by
  rw [← String.toList_inj, toList_externalGid, toList_externalGid]
  exact (List.append_cancel_left_eq _ _ _).to_iff

theorem identitySuffix_anchor {anchorRef reference : String} (h : reference = anchorRef) :
    (identitySuffix anchorRef reference).toList = "batch".toList := by
  rw [identitySuffix, if_pos h]

theorem identitySuffix_task {anchorRef reference : String} (h : reference ≠ anchorRef) :
    (identitySuffix anchorRef reference).toList = "task".toList ++ ':' :: reference.toList := by
  rw [identitySuffix, if_neg h]
  simp

/-- The gids of an anchor and of another task. -/
theorem anchor_eq_task {id other reference : String} (h : ':' ∉ reference.toList) :
    id.toList ++ ':' :: "batch".toList = other.toList ++ ':' :: ("task".toList ++ ':' :: reference.toList) ↔
      id = other ++ ":task" ∧ reference = "batch" := by
  have hbatch : ':' ∉ "batch".toList := by decide
  rw [← List.cons_append, ← List.append_assoc, append_separator_inj hbatch h, String.toList_inj]
  simp [← String.toList_inj, eq_comm]

theorem Member.gid_eq_iff {i j : Member} (hi : i.Valid) (hj : j.Valid) :
    externalGid i.batchCreationId i.batchAnchorRef i.ref = externalGid j.batchCreationId j.batchAnchorRef j.ref ↔
      i.Same j ∨ i.Shadows j ∨ j.Shadows i := by
  have hiref := isTaskRef_separator hi.ref
  have hjref := isTaskRef_separator hj.ref
  have hbatch : ':' ∉ "batch".toList := by decide
  rw [externalGid_inj]
  by_cases hianchor : i.IsAnchor
  · rw [identitySuffix_anchor hianchor]
    by_cases hjanchor : j.IsAnchor
    · rw [identitySuffix_anchor hjanchor, append_separator_inj hbatch hbatch, String.toList_inj]
      simp [Same, Shadows, hianchor, hjanchor]
    · rw [identitySuffix_task hjanchor, anchor_eq_task hjref]
      simp [Same, Shadows, hianchor, hjanchor]
  · rw [identitySuffix_task hianchor]
    by_cases hjanchor : j.IsAnchor
    · rw [identitySuffix_anchor hjanchor, eq_comm, anchor_eq_task hiref]
      simp [Same, Shadows, hianchor, hjanchor]
    · rw [identitySuffix_task hjanchor, ← List.cons_append, ← List.append_assoc, ← List.cons_append,
        ← List.append_assoc, append_separator_inj hiref hjref, String.toList_inj]
      have hid : i.batchCreationId.toList ++ ':' :: "task".toList = j.batchCreationId.toList ++ ':' :: "task".toList ↔
          i.batchCreationId = j.batchCreationId := by
        rw [List.append_cancel_right_eq, String.toList_inj]
      rw [hid]
      simp [Same, Shadows, hianchor, hjanchor]

theorem Member.not_same_of_shadows {i j : Member} (h : i.Shadows j) : ¬ i.Same j ∧ ¬ j.Same i := by
  obtain ⟨hianchor, -, hjanchor, -⟩ := h
  simp [Same, hianchor, hjanchor]

/-- **Identities never collide but for a task named as the anchor of another batch.** -/
theorem taskExternalIdentity_separates_iff {i j : Member} (hi : i.Valid) (hj : j.Valid) {first second : BatchTask}
    (hfirst : first.ref = i.ref) (hsecond : second.ref = j.ref)
    (h : taskExternalIdentity python i.batchCreationId definition i.batchAnchorRef first project backlog =
      .ok (gid, data))
    (h' : taskExternalIdentity python j.batchCreationId definition' j.batchAnchorRef second project' backlog' =
      .ok (gid', data')) :
    (gid = gid' → i.Same j) ↔ ¬ i.Shadows j ∧ ¬ j.Shadows i := by
  obtain ⟨rfl, -⟩ := taskExternalIdentity_eq_ok.mp h
  obtain ⟨rfl, -⟩ := taskExternalIdentity_eq_ok.mp h'
  rw [hfirst, hsecond, Member.gid_eq_iff hi hj]
  constructor
  · intro hsame
    exact ⟨fun hshadows => (Member.not_same_of_shadows hshadows).1 (hsame (.inr (.inl hshadows))),
      fun hshadows => (Member.not_same_of_shadows hshadows).2 (hsame (.inr (.inr hshadows)))⟩
  · rintro ⟨hij, hji⟩ (hsame | hshadows | hshadows)
    · exact hsame
    · exact (hij hshadows).elim
    · exact (hji hshadows).elim

/-- `hashlib.sha256` of the content of a task named `N` -/
def namedDigest : String := "13917c84ce11b17851e3c43909eb1ee8ee6622c77bb11e5fd78bd149b0d01820"

def namedPython : Python := ⟨fun _ => namedDigest, 1000⟩

theorem hexDigest_namedPython : namedPython.HexDigest := by
  have hdigest : namedDigest.length = 64 ∧ ∀ c ∈ namedDigest.toList, isLowerHex c = true :=
    ⟨by decide, List.all_eq_true.mp (by decide)⟩
  exact fun _ => hdigest

namespace Member

/-- The identity of a task named `N`. -/
def identity (i : Member) : Answer (String × String) :=
  taskExternalIdentity namedPython i.batchCreationId namedDigest i.batchAnchorRef { ref := i.ref, name := "N" } "1" "2"

theorem identity_of_valid {i : Member} (h : i.Valid) :
    ∃ data, i.identity = .ok (externalGid i.batchCreationId i.batchAnchorRef i.ref, data) :=
  ⟨_, taskExternalIdentity_of_valid hexDigest_namedPython h.creationId (hexDigest_namedPython.short "") h.ref
    (by decide) (by decide)⟩

/-- The anchor of a batch. -/
def first : Member := { batchCreationId := "a:b", batchAnchorRef := "one", ref := "one" }

/-- Another task of another batch. -/
def second : Member := { batchCreationId := "a", batchAnchorRef := "one", ref := "two" }

end Member

theorem taskExternalIdentity_separates_members :
    externalGid "a:b" "one" "one" ≠ externalGid "a" "one" "two" := by
  have hfirst : Member.first.Valid := ⟨by decide, by decide, by decide⟩
  have hsecond : Member.second.Valid := ⟨by decide, by decide, by decide⟩
  obtain ⟨data, hone⟩ := Member.identity_of_valid hfirst
  obtain ⟨other, htwo⟩ := Member.identity_of_valid hsecond
  intro hgid
  have hsame : Member.first.Same Member.second := by
    refine (taskExternalIdentity_separates_iff hfirst hsecond ?_ ?_ hone htwo).mpr (by decide) hgid
    · rfl
    · rfl
  exact absurd hsame.1 (by decide)

/-- The anchor of the batch `a:task` and the task `batch` of the batch `a`. -/
theorem taskExternalIdentity_collides :
    ¬ ∀ i j : Member, i.Valid → j.Valid → ∀ gid data data', i.identity = .ok (gid, data) →
      j.identity = .ok (gid, data') → i.Same j := by
  intro h
  have hanchor : Member.Valid { batchCreationId := "a:task", batchAnchorRef := "one", ref := "one" } :=
    ⟨by decide, by decide, by decide⟩
  have htask : Member.Valid { batchCreationId := "a", batchAnchorRef := "alpha", ref := "batch" } :=
    ⟨by decide, by decide, by decide⟩
  obtain ⟨data, hone⟩ := Member.identity_of_valid hanchor
  obtain ⟨other, htwo⟩ := Member.identity_of_valid htask
  have hsame := h _ _ hanchor htask _ _ _ hone htwo
  exact absurd hsame.1 (by decide)

end Asana
end FlashyFactory
