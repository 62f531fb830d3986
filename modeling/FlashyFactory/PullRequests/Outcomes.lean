import FlashyFactory.Lib.TextSearch
import FlashyFactory.PullRequests.Reconcile

/-! # What an observation says of a change request

`failed_pipeline`, `changes_requested` and the two answers that
`reconcile_pull_request_observations_with_commands` normalises. The pipeline is searched as text,
so every name and description in it counts as much as its outcome. -/

namespace FlashyFactory

/-! ## The text of a JSON value -/

namespace Json

def escapeChar (c : Char) : List Char :=
  if c = '"' then ['\\', '"']
  else if c = '\\' then ['\\', '\\']
  else if c.toNat = 8 then ['\\', 'b']
  else if c.toNat = 9 then ['\\', 't']
  else if c.toNat = 10 then ['\\', 'n']
  else if c.toNat = 12 then ['\\', 'f']
  else if c.toNat = 13 then ['\\', 'r']
  else if c.toNat < 32 then
    ['\\', 'u', '0', '0', Nat.digitChar (c.toNat / 16), Nat.digitChar (c.toNat % 16)]
  else [c]

def escape (s : String) : List Char := s.toList.flatMap escapeChar

mutual

/-- `serde_json::Value::to_string`: without blanks, the fields in the order of the map. -/
def render : Json → List Char
  | .null => "null".toList
  | .bool b => (if b then "true" else "false").toList
  | .number n => n.toList
  | .string s => '"' :: (escape s ++ ['"'])
  | .array [] => ['[', ']']
  | .array (v :: items) => '[' :: (v.render ++ renderItems items)
  | .object [] => ['\x7b', '\x7d']
  | .object ((name, v) :: fields) =>
    '\x7b' :: ('"' :: (escape name ++ '"' :: (':' :: (v.render ++ renderFields fields))))

def renderItems : List Json → List Char
  | [] => [']']
  | v :: items => ',' :: (v.render ++ renderItems items)

def renderFields : List (String × Json) → List Char
  | [] => ['\x7d']
  | (name, v) :: fields =>
    ',' :: ('"' :: (escape name ++ '"' :: (':' :: (v.render ++ renderFields fields))))

end

end Json

/-! ## The decision -/

def failingWords : List String := ["failure", "failed", "timed_out", "cancelled", "action_required"]

/-- The lower-case text contains one of the words. -/
def mentionsFailure (text : List Char) : Bool :=
  failingWords.any fun word => decide (word.toList <:+: toAsciiLowercase text)

def failedPipeline (crates : Crates) (pipeline : Option Json) : Bool :=
  pipeline.any fun pipeline => mentionsFailure (crates.jsonToString pipeline).toList

def requestsChanges (review : Json) : Bool :=
  ((review.get? "state").bind Json.asStr?).any fun state =>
    eqIgnoreAsciiCase state.toList "changes_requested".toList

def changesRequested (reviews : List Json) : Bool := reviews.any requestsChanges

/-- The answer of `gh pr view --json`. -/
structure GitHubObservation where
  state : String
  mergedAt : Option String
  headRefOid : String
  reviews : List Json
  statusCheckRollup : Option Json

/-- The answer of `glab api`. -/
structure GitLabObservation where
  state : String
  mergedAt : Option String
  sha : String
  approvedBy : List Json
  headPipeline : Option Json
  blockingDiscussionsResolved : Option Bool

inductive ProviderObservation
  | gitHub (value : GitHubObservation)
  | gitLab (value : GitLabObservation)

def GitHubObservation.normalized (crates : Crates) (value : GitHubObservation) :
    ChangeRequestObservation where
  state := value.state
  mergedAt := value.mergedAt
  headSha := value.headRefOid
  reviews := (value.reviews ++ value.statusCheckRollup.toList).map crates.jsonToString
  continuationRequired :=
    failedPipeline crates value.statusCheckRollup || changesRequested value.reviews

def GitLabObservation.normalized (crates : Crates) (value : GitLabObservation) :
    ChangeRequestObservation where
  state := value.state
  mergedAt := value.mergedAt
  headSha := value.sha
  reviews :=
    let resolved := value.blockingDiscussionsResolved.map fun resolved =>
      Json.object [("blocking_discussions_resolved", .bool resolved)]
    (value.approvedBy ++ value.headPipeline.toList ++ resolved.toList).map crates.jsonToString
  continuationRequired :=
    failedPipeline crates value.headPipeline || value.blockingDiscussionsResolved = some false

def ProviderObservation.normalized (crates : Crates) :
    ProviderObservation → ChangeRequestObservation
  | .gitHub value => value.normalized crates
  | .gitLab value => value.normalized crates

/-! ## Outcomes

What an observation says about outcomes, and what else stands in it. -/

namespace Json

mutual

/-- Some name, string or number of the value mentions a failure. -/
def saysFailure : Json → Bool
  | .null => false
  | .bool _ => false
  | .number n => mentionsFailure n.toList
  | .string s => mentionsFailure (escape s)
  | .array items => saysFailureItems items
  | .object fields => saysFailureFields fields

def saysFailureItems : List Json → Bool
  | [] => false
  | v :: items => v.saysFailure || saysFailureItems items

def saysFailureFields : List (String × Json) → Bool
  | [] => false
  | (name, v) :: fields => mentionsFailure (escape name) || v.saysFailure || saysFailureFields fields

end

/-- The checks of a rollup: the items of an array, and any other value is one check. -/
def checks : Option Json → List Json
  | some (.array items) => items
  | some check => [check]
  | none => []

/-- The fields of a check that say how it went. -/
def outcomes (outcomeFields : List String) : Json → List (String × Json)
  | .object fields => fields.filter fun f => outcomeFields.contains f.1
  | _ => []

/-- The check without these fields: its names, descriptions and addresses. -/
def description (outcomeFields : List String) : Json → Json
  | .object fields => .object (fields.filter fun f => !outcomeFields.contains f.1)
  | check => check

end Json

def reviewer (review : Json) : Option String :=
  ((review.get? "author").bind (·.get? "login")).bind Json.asStr?

def reviewState (review : Json) : Option String := (review.get? "state").bind Json.asStr?

/-- The state of the reviewer's last review; the reviews are in the order of their submission. -/
def latestState (reviews : List Json) (who : Option String) : Option (Option String) :=
  (reviews.reverse.find? fun review => reviewer review = who).map reviewState

/-- The reviews with no later one by the same reviewer. -/
def latestReviews : List Json → List Json
  | [] => []
  | review :: later =>
    if later.any (reviewer · = reviewer review) then latestReviews later
    else review :: latestReviews later

/-- The reviews with a later one by the same reviewer. -/
def supersededReviews : List Json → List Json
  | [] => []
  | review :: later =>
    if later.any (reviewer · = reviewer review) then review :: supersededReviews later
    else supersededReviews later

namespace ProviderObservation

/-- The checks have the same list of outcomes, and every reviewer's latest state is the same, or
whether the discussions are resolved. -/
def SameOutcomes (outcomeFields : List String) : ProviderObservation → ProviderObservation → Prop
  | .gitHub value, .gitHub other =>
    (Json.checks value.statusCheckRollup).map (Json.outcomes outcomeFields) =
        (Json.checks other.statusCheckRollup).map (Json.outcomes outcomeFields) ∧
      ∀ who, latestState value.reviews who = latestState other.reviews who
  | .gitLab value, .gitLab other =>
    (Json.checks value.headPipeline).map (Json.outcomes outcomeFields) =
        (Json.checks other.headPipeline).map (Json.outcomes outcomeFields) ∧
      value.blockingDiscussionsResolved = other.blockingDiscussionsResolved
  | _, _ => False

/-- An outcome in the observation asks for a continuation. -/
def outcomesRequire (outcomeFields : List String) : ProviderObservation → Bool
  | .gitHub value =>
    (Json.checks value.statusCheckRollup).any
        (fun check => Json.saysFailureFields (check.outcomes outcomeFields)) ||
      (latestReviews value.reviews).any requestsChanges
  | .gitLab value =>
    (Json.checks value.headPipeline).any
        (fun check => Json.saysFailureFields (check.outcomes outcomeFields)) ||
      value.blockingDiscussionsResolved = some false

/-- Something else in the observation does: a failing word in the description of a check, or a
review that a later one has superseded. -/
def misleads (outcomeFields : List String) : ProviderObservation → Bool
  | .gitHub value =>
    (Json.checks value.statusCheckRollup).any
        (fun check => (check.description outcomeFields).saysFailure) ||
      (supersededReviews value.reviews).any requestsChanges
  | .gitLab value =>
    (Json.checks value.headPipeline).any
      (fun check => (check.description outcomeFields).saysFailure)

end ProviderObservation

/-! ## What the search finds -/

/-- The characters that JSON puts around names and values. -/
def jsonPunctuation : List Char := ['"', '[', ']', '\x7b', '\x7d', ':', ',']

theorem asciiLower_punctuation_not_mem {sep : Char} (hsep : sep ∈ jsonPunctuation) {word : String}
    (hword : word ∈ failingWords) : asciiLower sep ∉ word.toList := by
  have hall : (jsonPunctuation.all fun sep => failingWords.all fun word => !word.toList.contains (asciiLower sep)) =
      true := by decide
  have hword := List.all_eq_true.mp (List.all_eq_true.mp hall sep hsep) word hword
  simpa using hword

theorem mentionsFailure_append_cons {sep : Char} (hsep : sep ∈ jsonPunctuation) (xs ys : List Char) :
    mentionsFailure (xs ++ sep :: ys) = (mentionsFailure xs || mentionsFailure ys) := by
  rw [Bool.eq_iff_iff]
  simp only [mentionsFailure, List.any_eq_true, decide_eq_true_eq, Bool.or_eq_true]
  rw [← exists_or]
  simp only [← and_or_left, toAsciiLowercase, List.map_append, List.map_cons]
  refine exists_congr fun word => and_congr_right fun hword => ?_
  exact TextSearch.infix_append_cons (asciiLower_punctuation_not_mem hsep hword)

@[simp] theorem mentionsFailure_nil : mentionsFailure [] = false := by decide

theorem mentionsFailure_cons {sep : Char} (hsep : sep ∈ jsonPunctuation) (ys : List Char) :
    mentionsFailure (sep :: ys) = mentionsFailure ys := by
  simpa using mentionsFailure_append_cons hsep [] ys

theorem mentionsFailure_quoted (text ys : List Char) :
    mentionsFailure ('"' :: (text ++ '"' :: ys)) = (mentionsFailure text || mentionsFailure ys) := by
  rw [mentionsFailure_cons (by decide), mentionsFailure_append_cons (by decide)]

namespace Json

/-- What follows a value begins with punctuation. -/
theorem exists_renderItems (items : List Json) :
    ∃ sep rest, sep ∈ jsonPunctuation ∧ renderItems items = sep :: rest := by
  cases items with
  | nil => exact ⟨']', [], by decide, rfl⟩
  | cons v items => exact ⟨',', _, by decide, rfl⟩

theorem exists_renderFields (fields : List (String × Json)) :
    ∃ sep rest, sep ∈ jsonPunctuation ∧ renderFields fields = sep :: rest := by
  cases fields with
  | nil => exact ⟨'\x7d', [], by decide, rfl⟩
  | cons f fields => exact ⟨',', _, by decide, rfl⟩

theorem mentionsFailure_append {xs ys : List Char}
    (hys : ∃ sep rest, sep ∈ jsonPunctuation ∧ ys = sep :: rest) :
    mentionsFailure (xs ++ ys) = (mentionsFailure xs || mentionsFailure ys) := by
  obtain ⟨sep, rest, hsep, rfl⟩ := hys
  rw [mentionsFailure_append_cons hsep, mentionsFailure_cons hsep]

mutual

/-- The search finds a word only within one name, string or number. -/
theorem mentionsFailure_render : ∀ v : Json, mentionsFailure v.render = v.saysFailure
  | .null => by decide
  | .bool true => by decide
  | .bool false => by decide
  | .number _ => by rw [render, saysFailure]
  | .string s => by rw [render, saysFailure, mentionsFailure_quoted]; simp
  | .array [] => by decide
  | .array (v :: items) => by
    rw [render, saysFailure, saysFailureItems, mentionsFailure_cons (by decide),
      mentionsFailure_append (exists_renderItems items), mentionsFailure_render v,
      mentionsFailure_renderItems items]
  | .object [] => by decide
  | .object ((name, v) :: fields) => by
    rw [render, saysFailure, saysFailureFields, mentionsFailure_cons (by decide),
      mentionsFailure_quoted, mentionsFailure_cons (by decide),
      mentionsFailure_append (exists_renderFields fields), mentionsFailure_render v,
      mentionsFailure_renderFields fields, Bool.or_assoc]

theorem mentionsFailure_renderItems :
    ∀ items : List Json, mentionsFailure (renderItems items) = saysFailureItems items
  | [] => by decide
  | v :: items => by
    rw [renderItems, saysFailureItems, mentionsFailure_cons (by decide),
      mentionsFailure_append (exists_renderItems items), mentionsFailure_render v,
      mentionsFailure_renderItems items]

theorem mentionsFailure_renderFields :
    ∀ fields : List (String × Json), mentionsFailure (renderFields fields) = saysFailureFields fields
  | [] => by decide
  | (name, v) :: fields => by
    rw [renderFields, saysFailureFields, mentionsFailure_cons (by decide), mentionsFailure_quoted,
      mentionsFailure_cons (by decide), mentionsFailure_append (exists_renderFields fields),
      mentionsFailure_render v, mentionsFailure_renderFields fields, Bool.or_assoc]

end

theorem saysFailureItems_eq_any (items : List Json) :
    saysFailureItems items = items.any saysFailure := by
  induction items with
  | nil => rfl
  | cons v items ih => simp [saysFailureItems, ih]

theorem saysFailureFields_filter (p : String × Json → Bool) (fields : List (String × Json)) :
    saysFailureFields fields =
      (saysFailureFields (fields.filter p) || saysFailureFields (fields.filter fun f => !p f)) := by
  induction fields with
  | nil => rfl
  | cons f fields ih =>
    rw [saysFailureFields, ih]
    cases hf : p f <;> simp [hf, saysFailureFields, Bool.or_assoc, Bool.or_left_comm]

/-- A check mentions a failure in an outcome or in its description. -/
theorem saysFailure_eq (outcomeFields : List String) (check : Json) :
    check.saysFailure = (saysFailureFields (check.outcomes outcomeFields) ||
      (check.description outcomeFields).saysFailure) := by
  cases check with
  | object fields =>
    simpa [outcomes, description, saysFailure] using
      saysFailureFields_filter (fun f => outcomeFields.contains f.1) fields
  | _ => simp [outcomes, description, saysFailureFields]

theorem checks_any_saysFailure (rollup : Option Json) :
    (rollup.any saysFailure) = (checks rollup).any saysFailure := by
  cases rollup with
  | none => rfl
  | some v =>
    cases v with
    | array items => simp [checks, saysFailure, saysFailureItems_eq_any]
    | _ => simp [checks]

end Json

theorem failedPipeline_eq (hcrates : ∀ v, (crates.jsonToString v).toList = v.render)
    (outcomeFields : List String) (rollup : Option Json) :
    failedPipeline crates rollup =
      ((Json.checks rollup).any (fun check => Json.saysFailureFields (check.outcomes outcomeFields)) ||
        (Json.checks rollup).any fun check => (check.description outcomeFields).saysFailure) := by
  simp only [failedPipeline, hcrates, Json.mentionsFailure_render, Json.checks_any_saysFailure]
  induction Json.checks rollup with
  | nil => rfl
  | cons check checks ih =>
    rw [List.any_cons, ih, Json.saysFailure_eq outcomeFields check]
    simp [Bool.or_assoc, Bool.or_left_comm]

theorem changesRequested_eq (reviews : List Json) :
    changesRequested reviews = ((latestReviews reviews).any requestsChanges ||
      (supersededReviews reviews).any requestsChanges) := by
  induction reviews with
  | nil => rfl
  | cons review later ih =>
    rw [changesRequested] at ih
    rw [changesRequested, List.any_cons, ih, latestReviews, supersededReviews]
    split <;> simp [Bool.or_assoc, Bool.or_left_comm]

/-! ## The latest reviews -/

theorem latestState_cons (review : Json) (later : List Json) (who : Option String) :
    latestState (review :: later) who =
      (latestState later who).or (if reviewer review = who then some (reviewState review) else none) := by
  rw [latestState, List.reverse_cons, List.find?_append, Option.map_or, latestState]
  congr 1
  split <;> simp_all

theorem latestState_eq_none {reviews : List Json} {who : Option String} :
    latestState reviews who = none ↔ ∀ review ∈ reviews, reviewer review ≠ who := by
  simp [latestState]

/-- The latest reviews are those whose states count. -/
theorem exists_mem_latestReviews (state : Option String) (reviews : List Json) :
    (∃ review ∈ latestReviews reviews, reviewState review = state) ↔
      ∃ who, latestState reviews who = some state := by
  induction reviews with
  | nil => simp [latestReviews, latestState]
  | cons review later ih =>
    rw [latestReviews]
    by_cases hlater : later.any (reviewer · = reviewer review) = true
    · rw [if_pos hlater, ih]
      refine exists_congr fun who => ?_
      rw [latestState_cons]
      by_cases hwho : reviewer review = who
      · obtain ⟨known, hknown⟩ : ∃ known, latestState later who = some known := by
          rw [← Option.ne_none_iff_exists', ne_eq, latestState_eq_none]
          simpa [← hwho] using hlater
        simp [hknown]
      · simp [hwho]
    · have hnone : latestState later (reviewer review) = none := by
        rw [latestState_eq_none]
        simpa using hlater
      rw [if_neg hlater]
      simp only [List.mem_cons, exists_eq_or_imp, ih]
      constructor
      · rintro (rfl | ⟨who, hwho⟩)
        · exact ⟨reviewer review, by rw [latestState_cons, hnone]; simp⟩
        · exact ⟨who, by rw [latestState_cons, hwho]; simp⟩
      · rintro ⟨who, hwho⟩
        rw [latestState_cons] at hwho
        cases hknown : latestState later who with
        | some known => exact .inr ⟨who, by rw [hknown] at hwho ⊢; simpa using hwho⟩
        | none =>
          rw [hknown, Option.none_or] at hwho
          split at hwho
          · exact .inl (Option.some.inj hwho)
          · cases hwho

theorem latestReviews_requestsChanges (h : ∀ who, latestState reviews who = latestState reviews' who) :
    (latestReviews reviews).any requestsChanges = (latestReviews reviews').any requestsChanges := by
  have hone : ∀ reviews : List Json, (latestReviews reviews).any requestsChanges = true ↔
      ∃ state : Option String, (state.any fun state =>
        eqIgnoreAsciiCase state.toList "changes_requested".toList) = true ∧
          ∃ who, latestState reviews who = some state := by
    intro reviews
    simp only [← exists_mem_latestReviews, List.any_eq_true]
    constructor
    · rintro ⟨review, hmem, hreview⟩
      exact ⟨_, hreview, review, hmem, rfl⟩
    · rintro ⟨state, hstate, review, hmem, rfl⟩
      exact ⟨review, hmem, hstate⟩
  rw [Bool.eq_iff_iff, hone, hone]
  simp only [h]

/-! ## Two observations with the same outcomes -/

namespace ProviderObservation

variable {crates : Crates} {outcomeFields : List String} {o o' : ProviderObservation}

/-- The decision is that of the outcomes, or that of what else stands in the observation. -/
theorem continuationRequired_eq (outcomeFields : List String)
    (hcrates : ∀ v, (crates.jsonToString v).toList = v.render) :
    (o.normalized crates).continuationRequired =
      (o.outcomesRequire outcomeFields || o.misleads outcomeFields) := by
  cases o with
  | gitHub value =>
    simp only [normalized, GitHubObservation.normalized, outcomesRequire, misleads,
      failedPipeline_eq hcrates outcomeFields, changesRequested_eq]
    ac_rfl
  | gitLab value =>
    simp only [normalized, GitLabObservation.normalized, outcomesRequire, misleads,
      failedPipeline_eq hcrates outcomeFields]
    ac_rfl

theorem SameOutcomes.outcomesRequire (h : SameOutcomes outcomeFields o o') :
    o.outcomesRequire outcomeFields = o'.outcomesRequire outcomeFields := by
  have hchecks : ∀ checks : List Json,
      checks.any (fun check => Json.saysFailureFields (check.outcomes outcomeFields)) =
        (checks.map (Json.outcomes outcomeFields)).any Json.saysFailureFields := by
    intro checks
    rw [List.any_map]
    rfl
  cases o with
  | gitHub value =>
    cases o' with
    | gitLab other => exact h.elim
    | gitHub other =>
      obtain ⟨hrollup, hreviews⟩ := h
      simp only [ProviderObservation.outcomesRequire, hchecks, hrollup,
        latestReviews_requestsChanges hreviews]
  | gitLab value =>
    cases o' with
    | gitHub other => exact h.elim
    | gitLab other =>
      obtain ⟨hpipeline, hresolved⟩ := h
      simp only [ProviderObservation.outcomesRequire, hchecks, hpipeline, hresolved]

/-- Whichever fields of a check are taken for its outcome: two observations with the same outcomes
get the same decision exactly when the outcomes ask for a continuation anyway, or both mislead, or
neither does. -/
theorem sameDecision_iff (hcrates : ∀ v, (crates.jsonToString v).toList = v.render)
    (h : SameOutcomes outcomeFields o o') :
    (o.normalized crates).continuationRequired = (o'.normalized crates).continuationRequired ↔
      o.outcomesRequire outcomeFields = true ∨ o.misleads outcomeFields = o'.misleads outcomeFields := by
  rw [continuationRequired_eq outcomeFields hcrates, continuationRequired_eq outcomeFields hcrates,
    h.outcomesRequire]
  cases o'.outcomesRequire outcomeFields <;> simp

/-! ### An observation of a passing check -/

def serdeJson : Crates where
  jsonFromStr _ := none
  jsonToString v := String.ofList v.render
  sanitizeForStorage text := text

theorem serdeJson_render (v : Json) : (serdeJson.jsonToString v).toList = v.render :=
  String.toList_ofList

def passingCheck (name : String) (reviews : List Json) : ProviderObservation :=
  .gitHub
    { state := "OPEN"
      mergedAt := none
      headRefOid := "aaaaaaaaaaaaaaaaaaaaaaaaaaaaaaaaaaaaaaaa"
      reviews := reviews
      statusCheckRollup := some (.array [.object
        [("conclusion", .string "SUCCESS"), ("name", .string name), ("status", .string "COMPLETED")]]) }

def review (login state : String) : Json :=
  .object [("author", .object [("login", .string login)]), ("state", .string state)]

/-- The fields of a check run and of a commit status. -/
def checkOutcomeFields : List String := ["status", "conclusion", "state"]

theorem passingCheck_sameOutcomes (name name' : String) (reviews : List Json) :
    SameOutcomes checkOutcomeFields (passingCheck name reviews) (passingCheck name' reviews) :=
  ⟨rfl, fun _ => rfl⟩

theorem sameDecision_iff_passingCheck :
    ((passingCheck "build" []).normalized serdeJson).continuationRequired =
        ((passingCheck "test" []).normalized serdeJson).continuationRequired ↔
      (passingCheck "build" []).outcomesRequire checkOutcomeFields = true ∨
        (passingCheck "build" []).misleads checkOutcomeFields =
          (passingCheck "test" []).misleads checkOutcomeFields :=
  sameDecision_iff serdeJson_render (passingCheck_sameOutcomes "build" "test" [])

/-- A check that passes is taken for a failed one because of its name, and a review that its author
has since replaced by an approval still counts. -/
theorem not_sameDecision :
    (SameOutcomes checkOutcomeFields (passingCheck "build" []) (passingCheck "failure-injection" []) ∧
      ((passingCheck "build" []).normalized serdeJson).continuationRequired ≠
        ((passingCheck "failure-injection" []).normalized serdeJson).continuationRequired) ∧
    (SameOutcomes checkOutcomeFields (passingCheck "build" [review "ana" "APPROVED"])
        (passingCheck "build" [review "ana" "CHANGES_REQUESTED", review "ana" "APPROVED"]) ∧
      ((passingCheck "build" [review "ana" "APPROVED"]).normalized serdeJson).continuationRequired ≠
        ((passingCheck "build" [review "ana" "CHANGES_REQUESTED",
          review "ana" "APPROVED"]).normalized serdeJson).continuationRequired) := by
  refine ⟨⟨passingCheck_sameOutcomes _ _ _, ?_⟩, ⟨⟨rfl, fun who => ?_⟩, ?_⟩⟩
  · rw [continuationRequired_eq checkOutcomeFields serdeJson_render,
      continuationRequired_eq checkOutcomeFields serdeJson_render]
    decide
  · rw [latestState_cons, latestState_cons, latestState_cons]
    by_cases hwho : reviewer (review "ana" "APPROVED") = who
    · simp [hwho, latestState]
    · have hfirst : reviewer (review "ana" "CHANGES_REQUESTED") ≠ who := hwho
      simp [hwho, hfirst, latestState]
  · rw [continuationRequired_eq checkOutcomeFields serdeJson_render,
      continuationRequired_eq checkOutcomeFields serdeJson_render]
    decide

end ProviderObservation

end FlashyFactory
