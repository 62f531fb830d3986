import FlashyFactory.Asana.Manifest
import Mathlib

/-! # The graphs that a manifest may ask for

`parse_batch_manifest` accepts the requested edges exactly when they form an admissible graph. -/

namespace FlashyFactory
namespace Asana

/-! ## The text of an edge -/

def arrow : List Char := ['-', '>']

theorem intercalate_extendFirst {c : Char} {parts : List (List Char)} (h : parts ≠ []) :
    arrow.intercalate (extendFirst c parts) = c :: arrow.intercalate parts := by
  match parts with
  | [] => exact (h rfl).elim
  | [_] => simp [extendFirst, List.intercalate]
  | _ :: _ :: _ => simp [extendFirst, List.intercalate]

theorem extendFirst_ne_nil {c : Char} {parts : List (List Char)} : extendFirst c parts ≠ [] := by
  cases parts <;> simp [extendFirst]

theorem splitArrow_ne_nil (text : List Char) : splitArrow text ≠ [] := by
  induction text using splitArrow.induct with
  | case1 => simp [splitArrow]
  | case2 => simp [splitArrow]
  | case3 c text h =>
    rw [splitArrow]
    · exact extendFirst_ne_nil
    · exact h

/-- The parts are what the text is made of. -/
theorem intercalate_splitArrow (text : List Char) : arrow.intercalate (splitArrow text) = text := by
  induction text using splitArrow.induct with
  | case1 => rfl
  | case2 text ih =>
    rw [splitArrow]
    obtain ⟨part, parts, hparts⟩ := List.exists_cons_of_ne_nil (splitArrow_ne_nil text)
    rw [hparts] at ih ⊢
    rw [← ih]
    simp [List.intercalate, arrow]
  | case3 c text h ih =>
    rw [splitArrow]
    · rw [intercalate_extendFirst (splitArrow_ne_nil text), ih]
    · exact h

theorem splitArrow_of_not_mem {text : List Char} (h : '>' ∉ text) : splitArrow text = [text] := by
  induction text with
  | nil => rfl
  | cons c text ih =>
    have htext : '>' ∉ text := fun hmem => h (List.mem_cons_of_mem _ hmem)
    rw [splitArrow]
    · rw [ih htext]
      rfl
    · rintro rest - rfl
      exact htext List.mem_cons_self

theorem splitArrow_join {before after : List Char} (hbefore : '>' ∉ before) (hafter : '>' ∉ after) :
    splitArrow (before ++ '-' :: '>' :: after) = [before, after] := by
  induction before with
  | nil => rw [List.nil_append, splitArrow, splitArrow_of_not_mem hafter]
  | cons c before ih =>
    have hrest : '>' ∉ before := fun hmem => hbefore (List.mem_cons_of_mem _ hmem)
    rw [List.cons_append, splitArrow]
    · rw [ih hrest]
      rfl
    · intro rest _ htext
      cases before with
      | nil => cases htext
      | cons d before =>
        cases htext
        exact hrest List.mem_cons_self

/-! ## Stripping -/

theorem strip_eq_of_blank {before text after : List Char} (hbefore : ∀ c ∈ before, isSpace c = true)
    (htext : ∀ c ∈ text, isSpace c = false) (hne : text ≠ []) (hafter : ∀ c ∈ after, isSpace c = true) :
    strip (before ++ text ++ after) = text := by
  have hhead : ∀ {rest : List Char}, (text ++ rest).dropWhile isSpace = text ++ rest := by
    intro rest
    obtain ⟨c, cs, rfl⟩ := List.exists_cons_of_ne_nil hne
    simp [htext c List.mem_cons_self]
  have hreverse : (text.reverse ++ []).dropWhile isSpace = text.reverse ++ [] := by
    obtain ⟨c, cs, hcs⟩ := List.exists_cons_of_ne_nil (List.reverse_ne_nil_iff.mpr hne)
    rw [hcs]
    have hc : isSpace c = false := htext c (List.mem_reverse.mp (hcs ▸ List.mem_cons_self))
    simp [hc]
  unfold strip
  rw [List.append_assoc, List.dropWhile_append_of_pos hbefore, hhead, List.rdropWhile, List.reverse_append,
    List.dropWhile_append_of_pos (fun c hc => hafter c (List.mem_reverse.mp hc))]
  rw [List.append_nil] at hreverse
  rw [hreverse, List.reverse_reverse]

theorem exists_of_strip {text : List Char} : ∃ before after : List Char, (∀ c ∈ before, isSpace c = true) ∧
    (∀ c ∈ after, isSpace c = true) ∧ text = before ++ strip text ++ after := by
  refine ⟨text.takeWhile isSpace, (text.dropWhile isSpace).rtakeWhile isSpace, fun c hc => List.mem_takeWhile_imp hc,
    fun c hc => List.mem_rtakeWhile_imp hc, ?_⟩
  have hinner := List.rdropWhile_append_rtakeWhile (p := isSpace) (l := text.dropWhile isSpace)
  rw [strip, List.append_assoc, hinner, List.takeWhile_append_dropWhile]

/-! ## References -/

theorem isAlphanum_toNat {c : Char} (h : c.isAlphanum = true) :
    (48 ≤ c.toNat ∧ c.toNat ≤ 57) ∨ (65 ≤ c.toNat ∧ c.toNat ≤ 90) ∨
      (97 ≤ c.toNat ∧ c.toNat ≤ 122) := by
  simp [Char.isAlphanum, Char.isAlpha, Char.isUpper, Char.isLower, Char.isDigit, UInt32.le_iff_toNat_le] at h ⊢
  omega

theorem isIdentifier_chars {most : ℕ} {others : List Char} {value : String}
    (h : isIdentifier most others value = true) :
    value.toList ≠ [] ∧ ∀ c ∈ value.toList, c.isAlphanum = true ∨ c ∈ others := by
  unfold isIdentifier at h
  cases hlist : value.toList with
  | nil => simp [hlist] at h
  | cons c cs =>
    simp only [hlist, Bool.and_eq_true, List.all_eq_true, Bool.or_eq_true, List.contains_iff_mem] at h
    exact ⟨nofun, List.forall_mem_cons.mpr ⟨.inl h.1.1, h.2⟩⟩

theorem isTaskRef_chars {reference : String} (h : isTaskRef reference = true) :
    reference.toList ≠ [] ∧ ∀ c ∈ reference.toList, isSpace c = false ∧ c ≠ '>' := by
  obtain ⟨hne, hchars⟩ := isIdentifier_chars h
  refine ⟨hne, fun c hc => ?_⟩
  rcases hchars c hc with halphanum | hother
  · have hrange := isAlphanum_toNat halphanum
    refine ⟨?_, ?_⟩
    · simp only [isSpace, isWhiteSpace, Bool.or_eq_false_iff, Bool.and_eq_false_iff, decide_eq_false_iff_not]
      omega
    · rintro rfl
      simp at hrange
  · have hothers : ∀ c ∈ ['_', '.', '-'], isSpace c = false ∧ c ≠ '>' := by simp [isSpace, isWhiteSpace]
    exact hothers c hother

theorem isSpace_ne_arrow {c : Char} (h : isSpace c = true) : c ≠ '>' := by
  rintro rfl
  cases h

/-! ## Requested edges -/

/-- The JSON value asks for the edge. -/
inductive RequestsEdge : Json → String × String → Prop
  | text {s : String} {dependent blocker : String} {w₁ w₂ w₃ w₄ : List Char} :
    isTaskRef dependent = true → isTaskRef blocker = true →
      (∀ c ∈ w₁ ++ w₂ ++ w₃ ++ w₄, isSpace c = true) →
    s.toList = w₁ ++ dependent.toList ++ w₂ ++ arrow ++ (w₃ ++ blocker.toList ++ w₄) →
    RequestsEdge (.string s) (dependent, blocker)
  | object {fields : List (String × Json)} {dependent blocker : String} :
    (∀ f ∈ fields, f.1 = "dependent" ∨ f.1 = "blocker") →
      fields.lookup "dependent" = some (.string dependent) →
    fields.lookup "blocker" = some (.string blocker) → RequestsEdge (.object fields) (dependent, blocker)

/-- What `dependencies` asks for, over the references of the tasks in their order. -/
inductive Requests (references : List String) : Option Json → List (String × String) → Prop
  | independent : Requests references (some (.string "independent")) []
  | listedChain : Requests references (some (.string "listed_chain")) (references.tail.zip references)
  | explicitEdges {fields : List (String × Json)} {raw : List Json} {edges : List (String × String)} :
    (∀ f ∈ fields, f.1 = "mode" ∨ f.1 = "edges") → fields.lookup "mode" = some (.string "explicit_edges") →
    fields.lookup "edges" = some (.array raw) → List.Forall₂ RequestsEdge raw edges →
    Requests references (some (.object fields)) edges

structure Admissible (references : List String) (edges : List (String × String)) : Prop where
  declared : ∀ e ∈ edges, e.1 ∈ references ∧ e.2 ∈ references
  irreflexive : ∀ e ∈ edges, e.1 ≠ e.2
  nodup : edges.Nodup
  degree : ∀ reference, edges.countP (·.1 = reference) + edges.countP (·.2 = reference) ≤ maxTaskRelationships
  acyclic : ∀ reference, ¬ Relation.TransGen (fun a b => (a, b) ∈ edges) reference reference

theorem rejectUnknownFields_eq_ok {fields : List (String × Json)} {allowed : List String} :
    rejectUnknownFields fields allowed field = .ok u ↔ ∀ f ∈ fields, f.1 ∈ allowed := by
  simp only [rejectUnknownFields, refuseIf_eq_ok, ne_eq, not_not, List.filter_eq_nil_iff, List.mem_map,
    decide_eq_true_eq, forall_exists_index, and_imp, forall_apply_eq_imp_iff₂]

theorem edgeEnds_text {field s dependent blocker : String} {w₁ w₂ w₃ w₄ : List Char}
    (hdependent : isTaskRef dependent = true) (hblocker : isTaskRef blocker = true)
    (hspace : ∀ c ∈ w₁ ++ w₂ ++ w₃ ++ w₄, isSpace c = true)
    (hs : s.toList = w₁ ++ dependent.toList ++ w₂ ++ arrow ++ (w₃ ++ blocker.toList ++ w₄)) :
    edgeEnds field (.string s) = .ok (dependent, blocker) := by
  obtain ⟨hdependent_ne, hdependent_chars⟩ := isTaskRef_chars hdependent
  obtain ⟨hblocker_ne, hblocker_chars⟩ := isTaskRef_chars hblocker
  simp only [List.forall_mem_append] at hspace
  obtain ⟨⟨⟨h₁, h₂⟩, h₃⟩, h₄⟩ := hspace
  have hbefore : '>' ∉ w₁ ++ dependent.toList ++ w₂ := by
    simp only [List.mem_append, not_or]
    exact ⟨⟨fun h => isSpace_ne_arrow (h₁ _ h) rfl, fun h => (hdependent_chars _ h).2 rfl⟩,
      fun h => isSpace_ne_arrow (h₂ _ h) rfl⟩
  have hafter : '>' ∉ w₃ ++ blocker.toList ++ w₄ := by
    simp only [List.mem_append, not_or]
    exact ⟨⟨fun h => isSpace_ne_arrow (h₃ _ h) rfl, fun h => (hblocker_chars _ h).2 rfl⟩,
      fun h => isSpace_ne_arrow (h₄ _ h) rfl⟩
  have hsplit : splitArrow s.toList = [w₁ ++ dependent.toList ++ w₂, w₃ ++ blocker.toList ++ w₄] := by
    rw [hs, List.append_assoc (w₁ ++ dependent.toList ++ w₂)]
    exact splitArrow_join hbefore hafter
  unfold edgeEnds
  simp only [hsplit, List.map_cons, List.map_nil,
    strip_eq_of_blank h₁ (fun c hc => (hdependent_chars c hc).1) hdependent_ne h₂,
    strip_eq_of_blank h₃ (fun c hc => (hblocker_chars c hc).1) hblocker_ne h₄]
  rw [if_pos ⟨hdependent_ne, hblocker_ne⟩, String.ofList_toList, String.ofList_toList]

theorem edgeEnds_object {field dependent blocker : String} {fields : List (String × Json)}
    (hfields : ∀ f ∈ fields, f.1 = "dependent" ∨ f.1 = "blocker")
    (hdependent : fields.lookup "dependent" = some (.string dependent))
    (hblocker : fields.lookup "blocker" = some (.string blocker)) :
    edgeEnds field (.object fields) = .ok (dependent, blocker) := by
  have hknown : rejectUnknownFields fields ["dependent", "blocker"] field = .ok () :=
    rejectUnknownFields_eq_ok.mpr (by simpa using hfields)
  simp only [edgeEnds, hknown, Except.ok_bind, hdependent, hblocker]
  rfl

theorem RequestsEdge.of_edgeEnds {field : String} {raw : Json} {e : String × String}
    (h : edgeEnds field raw = .ok e) (hfirst : isTaskRef e.1 = true) (hsecond : isTaskRef e.2 = true) :
    RequestsEdge raw e := by
  obtain ⟨dependent, blocker⟩ := e
  unfold edgeEnds at h
  split at h
  · next s =>
    split at h
    · next first second hparts =>
      split at h
      · cases h
        obtain ⟨p, q, hsplit⟩ : ∃ p q, splitArrow s.toList = [p, q] := by
          match hsplit : splitArrow s.toList with
          | [] => simp [hsplit] at hparts
          | [_] => simp [hsplit] at hparts
          | [p, q] => exact ⟨p, q, rfl⟩
          | _ :: _ :: _ :: _ => simp [hsplit] at hparts
        rw [hsplit] at hparts
        simp only [List.map_cons, List.map_nil, List.cons.injEq, and_true] at hparts
        obtain ⟨rfl, rfl⟩ := hparts
        obtain ⟨w₁, w₂, h₁, h₂, hp⟩ := @exists_of_strip p
        obtain ⟨w₃, w₄, h₃, h₄, hq⟩ := @exists_of_strip q
        have hs := intercalate_splitArrow s.toList
        rw [hsplit] at hs
        have hspace : ∀ c ∈ w₁ ++ w₂ ++ w₃ ++ w₄, isSpace c = true := by
          simp only [List.forall_mem_append]
          exact ⟨⟨⟨h₁, h₂⟩, h₃⟩, h₄⟩
        have hjoin : s.toList = w₁ ++ (String.ofList (strip p)).toList ++ w₂ ++ arrow ++
            (w₃ ++ (String.ofList (strip q)).toList ++ w₄) := by
          rw [String.toList_ofList, String.toList_ofList, ← hp, ← hq, ← hs]
          simp [List.intercalate]
        exact .text hfirst hsecond hspace hjoin
      · cases h
    · cases h
  · next fields =>
    simp only [Except.bind_eq_ok, rejectUnknownFields_eq_ok] at h
    obtain ⟨_, hfields, h⟩ := h
    split at h
    · next hdependent hblocker =>
      cases h
      exact .object (by simpa using hfields) hdependent hblocker
    · cases h
  · cases h

theorem RequestsEdge.edgeEnds {field : String} {raw : Json} {e : String × String} (h : RequestsEdge raw e) :
    edgeEnds field raw = .ok e := by
  cases h with
  | text hdependent hblocker hspace hs => exact edgeEnds_text hdependent hblocker hspace hs
  | object hfields hdependent hblocker => exact edgeEnds_object hfields hdependent hblocker

/-! ## The edges of a manifest -/

variable {references : List String} {edges : List (String × String)}

theorem parseEdge_eq_ok {field : String} {raw : Json} {e : String × String}
    (hrefs : ∀ reference ∈ references, isTaskRef reference = true) : parseEdge references field raw = .ok e ↔
      RequestsEdge raw e ∧ e.1 ∈ references ∧ e.2 ∈ references ∧ e.1 ≠ e.2 := by
  obtain ⟨dependent, blocker⟩ := e
  simp only [parseEdge, Except.bind_eq_ok, refuseIf_eq_ok, not_not, Except.pure_eq_ok, Prod.exists]
  constructor
  · rintro ⟨_, _, hends, _, hfirst, _, hsecond, _, hne, h⟩
    cases h
    exact ⟨.of_edgeEnds hends (hrefs _ hfirst) (hrefs _ hsecond), hfirst, hsecond, hne⟩
  · rintro ⟨hrequests, hfirst, hsecond, hne⟩
    exact ⟨dependent, blocker, hrequests.edgeEnds, (), hfirst, (), hsecond, (), hne, rfl⟩

theorem parseEdges_eq_ok {index : ℕ} {raw : List Json}
    (hrefs : ∀ reference ∈ references, isTaskRef reference = true) :
    parseEdges references index raw = .ok edges ↔ List.Forall₂ RequestsEdge raw edges ∧
      ∀ e ∈ edges, e.1 ∈ references ∧ e.2 ∈ references ∧ e.1 ≠ e.2 := by
  induction raw generalizing index edges with
  | nil =>
    rw [parseEdges, List.forall₂_nil_left_iff]
    constructor
    · rintro ⟨⟩
      exact ⟨rfl, nofun⟩
    · rintro ⟨rfl, -⟩
      rfl
  | cons first raw ih =>
    simp only [parseEdges, Except.bind_eq_ok, parseEdge_eq_ok hrefs, ih, Except.pure_eq_ok,
      List.forall₂_cons_left_iff]
    constructor
    · rintro ⟨e, ⟨hrequests, hedge⟩, rest, ⟨hrest, hedges⟩, rfl⟩
      exact ⟨⟨e, rest, hrequests, hrest, rfl⟩, List.forall_mem_cons.mpr ⟨hedge, hedges⟩⟩
    · rintro ⟨⟨e, rest, hrequests, hrest, rfl⟩, hedges⟩
      obtain ⟨hedge, hedges⟩ := List.forall_mem_cons.mp hedges
      exact ⟨e, ⟨hrequests, hedge⟩, rest, ⟨hrest, hedges⟩, rfl⟩

theorem relationships_eq {reference : String} :
    relationships edges reference = edges.countP (·.1 = reference) + edges.countP (·.2 = reference) := by
  unfold relationships
  induction edges with
  | nil => rfl
  | cons e edges ih =>
    rw [List.flatMap_cons, List.count_append, ih, List.countP_cons, List.countP_cons, List.count_cons, List.count_cons]
    simp only [List.count_nil, beq_iff_eq, decide_eq_true_eq]
    omega

theorem checkRelationships_eq_ok : checkRelationships edges = .ok u ↔
    ∀ reference, edges.countP (·.1 = reference) + edges.countP (·.2 = reference) ≤ maxTaskRelationships := by
  simp only [← relationships_eq]
  unfold checkRelationships
  cases hfind : (edges.flatMap fun e => [e.1, e.2]).find? fun reference =>
      maxTaskRelationships < relationships edges reference with
  | some reference =>
    have hmany := List.find?_some hfind
    simp only [decide_eq_true_eq] at hmany
    simp only [refuse_eq_ok, false_iff, not_forall]
    exact ⟨reference, by omega⟩
  | none =>
    refine ⟨fun _ reference => ?_, fun _ => rfl⟩
    rw [List.find?_eq_none] at hfind
    by_cases hmem : reference ∈ edges.flatMap fun e => [e.1, e.2]
    · simpa using hfind reference hmem
    · rw [relationships, List.count_eq_zero_of_not_mem hmem]
      exact Nat.zero_le _

theorem sorted_perm (items : List String) : (sorted items).Perm items := List.perm_insertionSort _ _

theorem sorted_eq_of_perm {items others : List String} (h : items.Perm others) : sorted items = sorted others := by
  have hperm : (sorted items).Perm (sorted others) := (sorted_perm items).trans (h.trans (sorted_perm others).symm)
  exact hperm.eq_of_pairwise (fun _ _ _ _ => le_antisymm) (List.pairwise_insertionSort _ _)
    (List.pairwise_insertionSort _ _)

theorem validateAcyclicGraph_eq_ok (hnodup : references.Nodup)
    (hedges : ∀ e ∈ edges, e.1 ∈ references ∧ e.2 ∈ references) :
      validateAcyclicGraph references edges = .ok u ↔
      ∀ reference, ¬ Relation.TransGen (fun a b => (a, b) ∈ edges) reference reference := by
  simp only [validateAcyclicGraph, refuseIf_eq_ok, ne_eq, not_not]
  exact TopologicalOrder.length_visited_eq_iff sorted_perm hnodup hedges

theorem checkEdges_eq_ok (hnodup : references.Nodup)
    (hedges : ∀ e ∈ edges, e.1 ∈ references ∧ e.2 ∈ references) :
    checkEdges references edges = .ok u ↔ Admissible references edges := by
  simp only [checkEdges, Except.bind_eq_ok, refuseIf_eq_ok, not_not, checkRelationships_eq_ok,
    validateAcyclicGraph_eq_ok hnodup hedges, exists_const]
  constructor
  · rintro ⟨hunique, hdegree, hacyclic⟩
    refine ⟨hedges, fun e he hself => ?_, hunique, hdegree, hacyclic⟩
    obtain ⟨dependent, blocker⟩ := e
    cases hself
    exact hacyclic dependent (.single he)
  · intro h
    exact ⟨h.nodup, h.degree, h.acyclic⟩

theorem requests_of_parseDependencies {dependencies : Option Json}
    (hrefs : ∀ reference ∈ references, isTaskRef reference = true)
    (h : parseDependencies references dependencies = .ok edges) :
    Requests references dependencies edges ∧ ∀ e ∈ edges, e.1 ∈ references ∧ e.2 ∈ references := by
  unfold parseDependencies at h
  split at h
  · split at h
    · next htext =>
      subst htext
      cases h
      exact ⟨.independent, nofun⟩
    split at h
    · next htext =>
      subst htext
      cases h
      refine ⟨.listedChain, fun e he => ?_⟩
      obtain ⟨hfirst, hsecond⟩ := List.of_mem_zip he
      exact ⟨List.mem_of_mem_tail hfirst, hsecond⟩
    · cases h
  · next fields =>
    simp only [Except.bind_eq_ok, rejectUnknownFields_eq_ok, refuseIf_eq_ok, ne_eq, not_not] at h
    obtain ⟨_, hfields, _, hmode, h⟩ := h
    obtain ⟨value, hvalue, htext⟩ := Option.bind_eq_some_iff.mp hmode
    have hexplicit : value = .string "explicit_edges" := by
      cases value <;> simp_all [Json.asStr?]
    split at h
    · next raw hraw =>
      obtain ⟨hrequests, hedges⟩ := (parseEdges_eq_ok hrefs).mp h
      refine ⟨.explicitEdges (by simpa using hfields) (hexplicit ▸ hvalue) hraw hrequests, fun e he => ?_⟩
      exact ⟨(hedges e he).1, (hedges e he).2.1⟩
    · cases h
  · cases h

theorem Requests.parseDependencies {dependencies : Option Json}
    (hrefs : ∀ reference ∈ references, isTaskRef reference = true) (h : Requests references dependencies edges)
    (hadmissible : Admissible references edges) : parseDependencies references dependencies = .ok edges := by
  cases h with
  | independent => rfl
  | listedChain => rfl
  | @explicitEdges fields raw _ hfields hmode hraw hrequests =>
    have hknown : rejectUnknownFields fields ["mode", "edges"] "dependencies" = .ok () :=
      rejectUnknownFields_eq_ok.mpr (by simpa using hfields)
    have hedges : parseEdges references 0 raw = .ok edges := (parseEdges_eq_ok hrefs).mpr ⟨hrequests, fun e he =>
      ⟨(hadmissible.declared e he).1, (hadmissible.declared e he).2, hadmissible.irreflexive e he⟩⟩
    simp [Asana.parseDependencies, hknown, hmode, hraw, hedges, Json.asStr?]

/-! ## The references of a manifest -/

theorem requireRef_ok {raw : Option Json} (h : requireRef field raw = .ok reference) : isTaskRef reference = true := by
  unfold requireRef at h
  split at h
  · split at h
    · next hvalid =>
      cases h
      exact hvalid
    · cases h
  · cases h

theorem parseTask_ref {raw : Json} {task : BatchTask} (h : parseTask references field raw = .ok task) :
    isTaskRef task.ref = true ∧ task.ref ∉ references := by
  unfold parseTask at h
  split at h
  · simp only [Except.bind_eq_ok, refuseIf_eq_ok, Except.pure_eq_ok] at h
    obtain ⟨_, -, reference, hreference, _, hfresh, _, -, _, -, _, -, rfl⟩ := h
    exact ⟨requireRef_ok hreference, hfresh⟩
  · cases h

theorem parseTasks_refs {raw : List Json} {tasks : List BatchTask} (h : parseTasks references raw = .ok tasks) :
    (∀ task ∈ tasks, isTaskRef task.ref = true ∧ task.ref ∉ references) ∧
      (tasks.map BatchTask.ref).Nodup := by
  induction raw generalizing references tasks with
  | nil =>
    cases h
    exact ⟨nofun, .nil⟩
  | cons first raw ih =>
    simp only [parseTasks, Except.bind_eq_ok, Except.pure_eq_ok] at h
    obtain ⟨task, htask, rest, hrest, rfl⟩ := h
    obtain ⟨hrefs, hnodup⟩ := ih hrest
    refine ⟨List.forall_mem_cons.mpr ⟨parseTask_ref htask, fun other hother => ?_⟩,
      List.nodup_cons.mpr ⟨?_, hnodup⟩⟩
    · exact ⟨(hrefs other hother).1, fun hmem => (hrefs other hother).2 (List.mem_append_left _ hmem)⟩
    · intro hmem
      obtain ⟨other, hother, hsame⟩ := List.mem_map.mp hmem
      exact (hrefs other hother).2 (List.mem_append_right _ (List.mem_singleton.mpr hsame))

theorem parseHead_refs {manifest : List (String × Json)} {head : BatchHead} (h : parseHead manifest = .ok head) :
    (head.tasks.map BatchTask.ref).Nodup ∧ ∀ reference ∈ head.tasks.map BatchTask.ref,
      isTaskRef reference = true := by
  simp only [parseHead, Except.bind_eq_ok, Except.pure_eq_ok] at h
  obtain ⟨_, -, _, -, _, -, tasks, htasks, rfl⟩ := h
  unfold requireTasks at htasks
  split at htasks
  · simp only [Except.bind_eq_ok] at htasks
    obtain ⟨_, -, htasks⟩ := htasks
    obtain ⟨hrefs, hnodup⟩ := parseTasks_refs htasks
    refine ⟨hnodup, fun reference hreference => ?_⟩
    obtain ⟨task, htask, rfl⟩ := List.mem_map.mp hreference
    exact (hrefs task htask).1
  · cases htasks

/-- The parser and what it accepts. -/
structure AcceptsAdmissible (manifest : List (String × Json)) (head : BatchHead) : Prop where
  accepts : ∀ policy tasks edges, parseBatchManifest manifest = .ok (policy, tasks, edges) ↔
    policy = head.deliveryPolicy ∧ tasks = head.tasks ∧
      Requests (head.tasks.map BatchTask.ref) (manifest.lookup "dependencies") edges ∧
      Admissible (head.tasks.map BatchTask.ref) edges
  /-- The two forms of an edge agree. -/
  forms : ∀ (references : List String) (field dependent blocker : String) (fields : List (String × Json)),
    isTaskRef dependent = true → isTaskRef blocker = true →
      (∀ f ∈ fields, f.1 = "dependent" ∨ f.1 = "blocker") →
    fields.lookup "dependent" = some (.string dependent) → fields.lookup "blocker" = some (.string blocker) →
    edgeEnds field (.string (dependent ++ " -> " ++ blocker)) = .ok (dependent, blocker) ∧
      parseEdge references field (.string (dependent ++ " -> " ++ blocker)) =
        parseEdge references field (.object fields)

/-- **The parser accepts exactly the admissible graphs.** -/
theorem parseBatchManifest_accepts {manifest : List (String × Json)} {head : BatchHead}
    (h : parseHead manifest = .ok head) : AcceptsAdmissible manifest head where
  accepts policy tasks edges := by
    obtain ⟨hnodup, hrefs⟩ := parseHead_refs h
    simp only [parseBatchManifest, h, Except.ok_bind, Except.bind_eq_ok, Except.pure_eq_ok, Prod.mk.injEq]
    constructor
    · rintro ⟨_, hparsed, _, hchecked, rfl, rfl, rfl⟩
      obtain ⟨hrequests, hdeclared⟩ := requests_of_parseDependencies hrefs hparsed
      exact ⟨rfl, rfl, hrequests, (checkEdges_eq_ok hnodup hdeclared).mp hchecked⟩
    · rintro ⟨rfl, rfl, hrequests, hadmissible⟩
      exact ⟨edges, hrequests.parseDependencies hrefs hadmissible, (),
        (checkEdges_eq_ok hnodup hadmissible.declared).mpr hadmissible, rfl, rfl, rfl⟩
  forms references field dependent blocker fields hdependent hblocker hfields hfirst hsecond := by
    have htext : edgeEnds field (.string (dependent ++ " -> " ++ blocker)) = .ok (dependent, blocker) := by
      have hspace : ∀ c ∈ ([] ++ [' '] ++ [' '] ++ [] : List Char), isSpace c = true :=
        List.all_eq_true.mp (by decide)
      refine edgeEnds_text hdependent hblocker hspace ?_
      simp [arrow]
    refine ⟨htext, ?_⟩
    rw [parseEdge, parseEdge, htext, edgeEnds_object hfields hfirst hsecond]

/-- Two tasks, and an edge between them in the text form. -/
def pairManifest : List (String × Json) :=
  [("batch_creation_id", .string "b:1"), ("delivery_policy", .string "backlog_only"),
    ("tasks", .array [.object [("ref", .string "a-"), ("name", .string "First")],
      .object [("ref", .string "b"), ("name", .string "Second")]]),
    ("dependencies", .object [("mode", .string "explicit_edges"), ("edges", .array [.string "a--> b"])])]

theorem parseBatchManifest_accepts_pair :
    AcceptsAdmissible pairManifest
      { batchCreationId := "b:1"
        deliveryPolicy := .backlogOnly
        tasks := [{ ref := "a-", name := "First" }, { ref := "b", name := "Second" }] } :=
  parseBatchManifest_accepts (by rfl)

end Asana
end FlashyFactory
