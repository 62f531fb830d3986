import FlashyFactory.Asana.BatchIdentity

/-! # What the hash of a batch is bound to

Two definitions have the same hash exactly if they differ in the order of their tasks, edges and custom fields
only, as long as the digest tells the texts apart that are hashed for them. -/

namespace FlashyFactory
namespace Asana

open CanonicalJson

variable {python : Python}

/-! ## Tasks -/

/-- The tasks differ in the order of their custom fields at most. -/
structure BatchTask.Same (task other : BatchTask) : Prop where
  ref : task.ref = other.ref
  name : task.name = other.name
  notes : task.notes.getD "" = other.notes.getD ""
  customFields : (task.customFields.getD []).Perm (other.customFields.getD [])

def BatchTask.fieldKeys (task : BatchTask) : List String := (task.customFields.getD []).map Prod.fst

/-- The custom fields, the name and the notes. -/
abbrev Content := List (String × String) × String × String

def BatchTask.content (task : BatchTask) : Content :=
  (sortKeys (task.customFields.getD []), task.name, task.notes.getD "")

theorem BatchTask.same_of_content {task other : BatchTask} (href : task.ref = other.ref)
    (h : task.content = other.content) : task.Same other := by
  simp only [BatchTask.content, Prod.mk.injEq] at h
  obtain ⟨hfields, hname, hnotes⟩ := h
  refine ⟨href, hname, hnotes, (perm_sortKeys _).symm.trans ?_⟩
  rw [hfields]
  exact perm_sortKeys _

theorem BatchTask.Same.content {task other : BatchTask} (h : task.Same other) (hkeys : task.fieldKeys.Nodup) :
    task.content = other.content := by
  rw [BatchTask.content, BatchTask.content, sortKeys_eq_of_perm h.customFields hkeys, h.name, h.notes]

def writtenContent (content : Content) : List Char :=
  writeObject [
    ("custom_fields", writeObject (content.1.map fun field => (field.1, quote field.2))),
    ("name", quote content.2.1),
    ("notes", quote content.2.2)]

theorem contentText_eq (task : BatchTask) : contentText task = writtenContent task.content := by
  have hkeys : ["custom_fields", "name", "notes"].Pairwise (· ≤ ·) := by decide
  rw [contentText, dumpsObject_of_sorted (by exact hkeys), dumpsObject, sortKeys_map]
  rfl

theorem writtenContent_injective : Function.Injective writtenContent := by
  intro content other h
  obtain ⟨hfields, h⟩ := writeObject_cons_inj (selfDelimiting_object selfDelimiting_quote) h
  obtain ⟨hname, h⟩ := writeObject_cons_inj selfDelimiting_quote h
  obtain ⟨hnotes, -⟩ := writeObject_cons_inj selfDelimiting_quote h
  exact Prod.ext hfields (Prod.ext hname hnotes)

/-! ## Definitions -/

structure BatchDefinition where
  deliveryPolicy : DeliveryPolicy
  tasks : List BatchTask
  edges : List (String × String)

namespace BatchDefinition

def references (d : BatchDefinition) : List String := d.tasks.map BatchTask.ref

def hash (python : Python) (d : BatchDefinition) : String :=
  batchDefinitionHash python d.deliveryPolicy d.tasks d.edges

/-- The definitions differ in the order of their tasks, edges and custom fields at most. -/
structure Same (d other : BatchDefinition) : Prop where
  deliveryPolicy : d.deliveryPolicy = other.deliveryPolicy
  tasks : ∃ tasks, List.Forall₂ BatchTask.Same d.tasks tasks ∧ tasks.Perm other.tasks
  edges : d.edges.Perm other.edges

/-- The texts that are hashed. -/
def texts (python : Python) (d : BatchDefinition) : List String :=
  String.ofList (definitionText python d.deliveryPolicy d.tasks d.edges) ::
    d.tasks.map fun task => String.ofList (contentText task)

/-- The digest tells the texts of the two definitions apart. -/
def Distinguished (python : Python) (d other : BatchDefinition) : Prop :=
  Set.InjOn python.sha256 {text | text ∈ d.texts python ∨ text ∈ other.texts python}

end BatchDefinition

/-- What is written of a task into the definition. -/
abbrev Entry := String × String

def entry (python : Python) (task : BatchTask) : Entry := (task.ref, taskContentHash python task)

def writtenEdge (edge : String × String) : List Char :=
  writeObject ([("blocker", edge.2), ("dependent", edge.1)].map fun e => (e.1, quote e.2))

def writtenEntry (entry : Entry) : List Char :=
  writeObject ([("content_sha256", entry.2), ("ref", entry.1)].map fun e => (e.1, quote e.2))

def writtenDefinition (deliveryPolicy : DeliveryPolicy) (edges : List (String × String)) (entries : List Entry) :
    List Char :=
  writeObject [
    ("delivery_policy", quote deliveryPolicy.text),
    ("edges", dumpsArray (edges.map writtenEdge)),
    ("tasks", dumpsArray (entries.map writtenEntry))]

theorem selfDelimiting_writtenEdge : SelfDelimiting writtenEdge :=
  (selfDelimiting_object selfDelimiting_quote).comp fun a b h => by simpa [Prod.ext_iff, and_comm] using h

theorem selfDelimiting_writtenEntry : SelfDelimiting writtenEntry :=
  (selfDelimiting_object selfDelimiting_quote).comp fun a b h => by simpa [Prod.ext_iff, and_comm] using h

theorem writtenObject_head (entries : List (String × List Char)) :
    ∃ first rest, writeObject entries = first :: rest ∧ first ≠ ']' := ⟨'\x7b', _, rfl, by decide⟩

theorem DeliveryPolicy.text_injective : Function.Injective DeliveryPolicy.text := by
  intro policy other h
  cases policy <;> cases other <;> first | rfl | exact absurd h (by decide)

theorem writtenDefinition_inj {policy other : DeliveryPolicy} {edges others : List (String × String)}
    {entries rest : List Entry} (h : writtenDefinition policy edges entries = writtenDefinition other others rest) :
    policy = other ∧ edges = others ∧ entries = rest := by
  obtain ⟨hpolicy, h⟩ := writeObject_cons_inj selfDelimiting_quote h
  obtain ⟨hedges, h⟩ := writeObject_cons_inj
    (selfDelimiting_array selfDelimiting_writtenEdge fun _ => writtenObject_head _) h
  obtain ⟨hentries, -⟩ := writeObject_cons_inj
    (selfDelimiting_array selfDelimiting_writtenEntry fun _ => writtenObject_head _) h
  exact ⟨DeliveryPolicy.text_injective hpolicy, hedges, hentries⟩

theorem sortedTasks_entries (tasks : List BatchTask) :
    (sortedTasks tasks).map (entry python) = sortKeys (tasks.map (entry python)) :=
  List.map_insertionSort (fun a b : BatchTask => a.ref ≤ b.ref) (fun a b : Entry => a.1 ≤ b.1) _ _
    fun _ _ _ _ => Iff.rfl

theorem definitionText_eq (d : BatchDefinition) : definitionText python d.deliveryPolicy d.tasks d.edges =
    writtenDefinition d.deliveryPolicy (sortedEdges d.edges) (sortKeys (d.tasks.map (entry python))) := by
  have hedgeKeys : ["blocker", "dependent"].Pairwise (· ≤ ·) := by decide
  have hentryKeys : ["content_sha256", "ref"].Pairwise (· ≤ ·) := by decide
  have hkeys : ["delivery_policy", "edges", "tasks"].Pairwise (· ≤ ·) := by decide
  have hedge : ∀ edge : String × String, dumpsObject [("blocker", quote edge.2), ("dependent", quote edge.1)] =
      writtenEdge edge := fun edge => dumpsObject_of_sorted hedgeKeys
  have htask : ∀ task : BatchTask,
      dumpsObject [("content_sha256", quote (taskContentHash python task)), ("ref", quote task.ref)] =
        writtenEntry (entry python task) := fun task => dumpsObject_of_sorted hentryKeys
  rw [definitionText, dumpsObject_of_sorted (by exact hkeys), writtenDefinition, ← sortedTasks_entries, List.map_map]
  simp only [hedge, htask]
  rfl

/-! ## The order of the parts -/

theorem sortedEdges_perm (edges : List (String × String)) : (sortedEdges edges).Perm edges :=
  List.perm_insertionSort _ _

theorem sortedEdges_eq_of_perm {edges others : List (String × String)} (h : edges.Perm others) :
    sortedEdges edges = sortedEdges others := by
  let before (a b : String × String) : Prop := a.1 < b.1 ∨ (a.1 = b.1 ∧ a.2 ≤ b.2)
  have : Std.Total before := ⟨fun a b => by
    rcases lt_trichotomy a.1 b.1 with hlt | heq | hgt
    · exact .inl (.inl hlt)
    · exact (le_total a.2 b.2).imp (fun hle => .inr ⟨heq, hle⟩) fun hle => .inr ⟨heq.symm, hle⟩
    · exact .inr (.inl hgt)⟩
  have : IsTrans (String × String) before := ⟨by
    rintro a b c (hab | ⟨hab, hab'⟩) (hbc | ⟨hbc, hbc'⟩)
    · exact .inl (hab.trans hbc)
    · exact .inl (hbc ▸ hab)
    · exact .inl (hab ▸ hbc)
    · exact .inr ⟨hab.trans hbc, hab'.trans hbc'⟩⟩
  have hperm : (sortedEdges edges).Perm (sortedEdges others) :=
    (sortedEdges_perm edges).trans (h.trans (sortedEdges_perm others).symm)
  refine hperm.eq_of_pairwise ?_ (List.pairwise_insertionSort before _) (List.pairwise_insertionSort before _)
  rintro a b - - (hab | ⟨hab, hab'⟩) (hba | ⟨hba, hba'⟩)
  · exact (lt_asymm hab hba).elim
  · exact (hab.ne hba.symm).elim
  · exact (hba.ne hab.symm).elim
  · exact Prod.ext hab (le_antisymm hab' hba')

namespace BatchDefinition
variable {d other : BatchDefinition}

theorem hash_eq (d : BatchDefinition) : d.hash python = python.sha256 (String.ofList
    (writtenDefinition d.deliveryPolicy (sortedEdges d.edges) (sortKeys (d.tasks.map (entry python))))) := by
  rw [hash, batchDefinitionHash, definitionText_eq]

theorem entries_eq_of_same {tasks others : List BatchTask} (h : List.Forall₂ BatchTask.Same tasks others)
    (hkeys : ∀ task ∈ tasks, task.fieldKeys.Nodup) : tasks.map (entry python) = others.map (entry python) := by
  induction h with
  | nil => rfl
  | @cons task other tasks others hsame _ ih =>
    rw [List.forall_mem_cons] at hkeys
    rw [List.map_cons, List.map_cons, ih hkeys.2, entry, entry, hsame.ref, taskContentHash, taskContentHash,
      contentText_eq, contentText_eq, hsame.content hkeys.1]

theorem Same.hash (h : d.Same other) (hrefs : d.references.Nodup) (hkeys : ∀ task ∈ d.tasks, task.fieldKeys.Nodup) :
    d.hash python = other.hash python := by
  obtain ⟨tasks, hsame, hperm⟩ := h.tasks
  have hentries : (d.tasks.map (entry python)).Perm (other.tasks.map (entry python)) := by
    rw [entries_eq_of_same hsame hkeys]
    exact hperm.map _
  have hnodup : ((d.tasks.map (entry python)).map Prod.fst).Nodup := by
    rw [List.map_map]
    exact hrefs
  rw [hash_eq, hash_eq, h.deliveryPolicy, sortedEdges_eq_of_perm h.edges, sortKeys_eq_of_perm hentries hnodup]

/-- The tasks that are hashed to the same entries, in order. -/
theorem forall₂_same_of_entries {tasks others : List BatchTask}
    (hdistinct : ∀ task ∈ tasks, ∀ other ∈ others,
      taskContentHash python task = taskContentHash python other →
      contentText task = contentText other)
    (h : tasks.map (entry python) = others.map (entry python)) : List.Forall₂ BatchTask.Same tasks others := by
  have hentries : List.Forall₂ (fun task other => entry python task = entry python other) tasks others :=
    List.forall₂_map_left_iff.mp (List.forall₂_map_right_iff.mp (List.forall₂_eq_eq_eq ▸ h))
  refine (List.forall₂_iff_zip.mpr ⟨hentries.length_eq, fun {task other} hmem => ?_⟩)
  have hentry := List.forall₂_zip hentries hmem
  obtain ⟨htask, hother⟩ := List.of_mem_zip hmem
  refine BatchTask.same_of_content (congrArg Prod.fst hentry) (writtenContent_injective ?_)
  rw [← contentText_eq, ← contentText_eq]
  exact hdistinct task htask other hother (congrArg Prod.snd hentry)

theorem Same.of_hash (hdistinct : d.Distinguished python other) (h : d.hash python = other.hash python) :
    d.Same other := by
  have htext := hdistinct (.inl List.mem_cons_self) (.inr List.mem_cons_self) h
  rw [String.ofList_inj, definitionText_eq, definitionText_eq] at htext
  obtain ⟨hpolicy, hedges, hentries⟩ := writtenDefinition_inj htext
  rw [← sortedTasks_entries, ← sortedTasks_entries] at hentries
  have hmem : ∀ (d : BatchDefinition) task, task ∈ sortedTasks d.tasks →
      String.ofList (contentText task) ∈ d.texts python := fun d task htask =>
    List.mem_cons_of_mem _ (List.mem_map_of_mem ((List.perm_insertionSort _ _).mem_iff.mp htask))
  have hsorted := forall₂_same_of_entries (fun task htask other' hother hhash =>
    String.ofList_inj.mp (hdistinct (.inl (hmem d task htask)) (.inr (hmem other other' hother)) hhash)) hentries
  refine ⟨hpolicy, ?_, ?_⟩
  · obtain ⟨tasks, hsame, hperm⟩ := (List.perm_comp_forall₂ (List.perm_insertionSort _ d.tasks).symm hsorted)
    exact ⟨tasks, hsame, hperm.trans (List.perm_insertionSort _ other.tasks)⟩
  · refine (sortedEdges_perm d.edges).symm.trans ?_
    rw [hedges]
    exact sortedEdges_perm other.edges

/-- A difference that is not one of order. -/
inductive Differs (d other : BatchDefinition) : Prop
  | deliveryPolicy (h : d.deliveryPolicy ≠ other.deliveryPolicy)
  | references (reference : String) (h : ¬ (reference ∈ d.references ↔ reference ∈ other.references))
  /-- The task of one reference has another name, other notes or other custom fields. -/
  | content (task next : BatchTask) (htask : task ∈ d.tasks) (hnext : next ∈ other.tasks)
      (href : task.ref = next.ref) (h : task.name ≠ next.name ∨ task.notes.getD "" ≠ next.notes.getD "" ∨
        ∃ field, ¬ (field ∈ task.customFields.getD [] ↔ field ∈ next.customFields.getD []))
  | edges (edge : String × String) (h : ¬ (edge ∈ d.edges ↔ edge ∈ other.edges))

theorem Same.references (h : d.Same other) : d.references.Perm other.references := by
  obtain ⟨tasks, hall, hperm⟩ := h.tasks
  have hrefs : List.Forall₂ (fun task next : BatchTask => task.ref = next.ref) d.tasks tasks :=
    hall.imp fun _ _ hsame => hsame.ref
  have hmap : d.tasks.map BatchTask.ref = tasks.map BatchTask.ref :=
    List.forall₂_eq_eq_eq ▸ List.forall₂_map_left_iff.mpr (List.forall₂_map_right_iff.mpr hrefs)
  rw [BatchDefinition.references, hmap]
  exact hperm.map _

theorem exists_same_of_forall₂ {tasks others : List BatchTask} (h : List.Forall₂ BatchTask.Same tasks others) :
    ∀ task ∈ tasks, ∃ next ∈ others, task.Same next := by
  induction h with
  | nil => simp
  | @cons task next tasks others hsame _ ih =>
    refine List.forall_mem_cons.mpr ⟨⟨next, List.mem_cons_self, hsame⟩, fun task' htask' => ?_⟩
    obtain ⟨next', hnext', hsame'⟩ := ih task' htask'
    exact ⟨next', List.mem_cons_of_mem _ hnext', hsame'⟩

theorem Same.task (h : d.Same other) {task : BatchTask} (htask : task ∈ d.tasks) :
    ∃ next ∈ other.tasks, task.Same next := by
  obtain ⟨tasks, hall, hperm⟩ := h.tasks
  obtain ⟨next, hnext, hsame⟩ := exists_same_of_forall₂ hall task htask
  exact ⟨next, hperm.mem_iff.mp hnext, hsame⟩

theorem Differs.not_same (h : d.Differs other) (hrefs : other.references.Nodup) : ¬ d.Same other := by
  intro hsame
  cases h with
  | deliveryPolicy h => exact h hsame.deliveryPolicy
  | references reference h => exact h hsame.references.mem_iff
  | content task next htask hnext href h =>
    -- the tasks of one reference correspond, since no reference is used twice
    obtain ⟨next', hnext', htasks⟩ := hsame.task htask
    obtain rfl := List.inj_on_of_nodup_map hrefs hnext' hnext (htasks.ref.symm.trans href)
    obtain hname | hnotes | ⟨field, hfield⟩ := h
    · exact hname htasks.name
    · exact hnotes htasks.notes
    · exact hfield htasks.customFields.mem_iff
  | edges edge h => exact h hsame.edges.mem_iff

/-- **The hash of a batch is that of its definition, whatever the order of the parts.** -/
theorem hash_eq_iff (hrefs : d.references.Nodup) (hkeys : ∀ task ∈ d.tasks, task.fieldKeys.Nodup)
    (hdistinct : d.Distinguished python other) : d.hash python = other.hash python ↔ d.Same other :=
  ⟨.of_hash hdistinct, fun h => h.hash hrefs hkeys⟩

/-- A batch of one task. -/
def sample (name : String) : BatchDefinition where
  deliveryPolicy := .backlogOnly
  tasks := [{ ref := "one", name := name }]
  edges := []

/-- `hashlib.sha256` of the texts of these batches -/
def sampleDigests : List (String × String) := [
  (String.ofList (writtenContent ([], "N", "")), namedDigest),
  (String.ofList (writtenContent ([], "M", "")), "5b2a78a5c685d70b238d396da88e511bc4bcd30d8c4c8e5cef1d481c4e5e848e"),
  (String.ofList (writtenDefinition .backlogOnly [] [("one", namedDigest)]),
    "f864b67a92a2034d07fe826216929712d1d57ccd24e18306554bb6d9074a1794"),
  (String.ofList (writtenDefinition .backlogOnly []
    [("one", "5b2a78a5c685d70b238d396da88e511bc4bcd30d8c4c8e5cef1d481c4e5e848e")]),
    "7d7a95ca65c2f7067c5ff605242acd81666b17ef951a9bdaff815148964448d8")]

def samplePython : Python := ⟨fun text => (sampleDigests.lookup text).getD namedDigest, 1000⟩

theorem hexDigest_samplePython : samplePython.HexDigest := by
  have hall : (sampleDigests.all fun entry => entry.2.length == 64 && entry.2.toList.all Source.isLowerHex) = true := by
    decide +kernel
  have hdigests : ∀ entry ∈ sampleDigests, entry.2.length = 64 ∧ ∀ c ∈ entry.2.toList,
    Source.isLowerHex c = true := by
    simpa [List.all_eq_true] using hall
  have hhex : ∀ found : Option String, (∀ digest ∈ found, digest.length = 64 ∧
      ∀ c ∈ digest.toList, Source.isLowerHex c = true) → (found.getD namedDigest).length = 64 ∧
        ∀ c ∈ (found.getD namedDigest).toList, Source.isLowerHex c = true := by
    intro found h
    cases found with
    | none => exact hexDigest_namedPython ""
    | some digest => exact h digest rfl
  refine fun text => hhex (sampleDigests.lookup text) fun digest hdigest => ?_
  obtain ⟨_, _, htable, -⟩ := List.lookup_eq_some_iff.mp hdigest
  exact hdigests (text, digest) (htable ▸ by simp)

/-- A table with distinct values tells its keys apart. -/
theorem injOn_lookup {table : List (String × String)} {other : String} (hvalues : (table.map Prod.snd).Nodup) :
    Set.InjOn (fun key => (table.lookup key).getD other) {key | key ∈ table.map Prod.fst} := by
  have hmem : ∀ key ∈ table.map Prod.fst, (key, (table.lookup key).getD other) ∈ table := by
    intro key hkey
    obtain ⟨entry, hentry, rfl⟩ := List.mem_map.mp hkey
    have hsome : (table.lookup entry.1).isSome := List.lookup_isSome_iff.mpr ⟨entry, hentry, by simp⟩
    obtain ⟨value, hvalue⟩ := Option.isSome_iff_exists.mp hsome
    obtain ⟨_, _, rfl, -⟩ := List.lookup_eq_some_iff.mp hvalue
    rw [hvalue]
    simp
  intro key hkey next hnext hsame
  have hentries := List.inj_on_of_nodup_map hvalues (hmem key hkey) (hmem next hnext) hsame
  exact congrArg Prod.fst hentries

theorem distinguished_sample : (sample "N").Distinguished samplePython (sample "M") := by
  have htexts : ∀ text ∈ (sample "N").texts samplePython ++ (sample "M").texts samplePython,
      text ∈ sampleDigests.map Prod.fst := by decide +kernel
  have hinj : Set.InjOn samplePython.sha256 {text | text ∈ sampleDigests.map Prod.fst} :=
    injOn_lookup (by decide +kernel)
  exact hinj.mono fun text htext => htexts text (List.mem_append.mpr htext)

theorem not_same_sample : ¬ (sample "N").Same (sample "M") := by
  intro h
  obtain ⟨tasks, hall, hperm⟩ := h.tasks
  obtain ⟨task, rest, hsame, hrest, rfl⟩ := List.forall₂_cons_left_iff.mp hall
  obtain rfl := List.forall₂_nil_left_iff.mp hrest
  obtain rfl := List.singleton_perm_singleton.mp hperm
  exact absurd hsame.name (by decide)

theorem hash_eq_iff_sample :
    (sample "N").hash samplePython = (sample "M").hash samplePython ↔ (sample "N").Same (sample "M") :=
  hash_eq_iff (by decide) (by decide) distinguished_sample

end BatchDefinition

end Asana
end FlashyFactory
