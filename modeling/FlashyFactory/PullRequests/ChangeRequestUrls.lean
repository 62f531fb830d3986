import FlashyFactory.Repository.Spellings
import FlashyFactory.PullRequests.Associations
import Mathlib

/-! # The change requests of a repository

Two remotes name one repository exactly if their identities are equal, and the recogniser of change
request URLs accepts the URLs of that repository only. -/

namespace FlashyFactory

def IsUpper (c : Char) : Prop := 65 ≤ c.toNat ∧ c.toNat ≤ 90

theorem isUpper_iff {c : Char} : IsUpper c ↔ ('A' ≤ c && c ≤ 'Z') = true := by
  simp only [Bool.and_eq_true, decide_eq_true_eq, Char.le_def, UInt32.le_iff_toNat_le]
  rfl

theorem asciiLower_of_not_isUpper {c : Char} (h : ¬ IsUpper c) : asciiLower c = c :=
  if_neg (mt isUpper_iff.mpr h)

theorem IsUpper.toNat_asciiLower {c : Char} (h : IsUpper c) : (asciiLower c).toNat = c.toNat + 32 := by
  have hvalid : (c.toNat + 32).isValidChar := .inl (by have := h.2; omega)
  rw [asciiLower, if_pos (isUpper_iff.mp h), Char.ofNat, dif_pos hvalid]
  rfl

theorem asciiLower_idem (c : Char) : asciiLower (asciiLower c) = asciiLower c := by
  by_cases h : IsUpper c
  · refine asciiLower_of_not_isUpper fun hlower => ?_
    have hbound := hlower.2
    rw [h.toNat_asciiLower] at hbound
    have hupper := h.1
    omega
  · rw [asciiLower_of_not_isUpper h, asciiLower_of_not_isUpper h]

theorem map_toAsciiLowercase_idem (segments : List (List Char)) :
    (segments.map toAsciiLowercase).map toAsciiLowercase = segments.map toAsciiLowercase := by
  simp [toAsciiLowercase, Function.comp_def, asciiLower_idem]

theorem asciiLower_eq_slash {c : Char} (h : asciiLower c = '/') : c = '/' := by
  by_cases hupper : IsUpper c
  · have hnat := hupper.toNat_asciiLower
    rw [h] at hnat
    have hslash : '/'.toNat = 47 := rfl
    have hbound := hupper.1
    omega
  · rwa [asciiLower_of_not_isUpper hupper] at h

theorem slash_not_mem_lower {text : List Char} (h : '/' ∉ text) : '/' ∉ toAsciiLowercase text := by
  intro hmem
  obtain ⟨c, hc, hlower⟩ := List.mem_map.mp hmem
  rw [asciiLower_eq_slash hlower] at hc
  exact h hc

theorem toAsciiLowercase_append (a b : List Char) :
    toAsciiLowercase (a ++ b) = toAsciiLowercase a ++ toAsciiLowercase b := List.map_append

theorem toAsciiLowercase_joined (segments : List (List Char)) :
    toAsciiLowercase (joined segments) = joined (segments.map toAsciiLowercase) := by
  induction segments with
  | nil => rfl
  | cons first segments ih =>
    cases segments with
    | nil => simp [joined]
    | cons next segments =>
      simp only [joined, List.map_cons, List.intercalate_cons_cons, toAsciiLowercase_append] at ih ⊢
      rw [ih]
      rfl

/-- Lower case does not move the separators of a path. -/
theorem splitOn_toAsciiLowercase (text : List Char) :
    (toAsciiLowercase text).splitOn '/' = (text.splitOn '/').map toAsciiLowercase := by
  have htext : joined (text.splitOn '/') = text := List.intercalate_splitOn '/'
  have hlower : toAsciiLowercase text = joined ((text.splitOn '/').map toAsciiLowercase) := by
    rw [← toAsciiLowercase_joined, htext]
  rw [hlower]
  refine List.splitOn_intercalate '/' (fun segment h => ?_) (by simp)
  obtain ⟨source, hsource, rfl⟩ := List.mem_map.mp h
  exact slash_not_mem_lower (not_mem_of_mem_splitOn hsource)

/-! ## Identities -/

/-- What stands before the path in an identity. -/
def identityScope : RepositoryProvider → String
  | .gitHub => ""
  | .gitLab => "gitlab.com/"

variable {r a b : RepositoryRef} {segments : List (List Char)}

theorem Parsed.identity_eq (h : Parsed r segments) :
    r.identity.toList = (identityScope r.provider).toList ++ toAsciiLowercase r.path := by
  have hhost : r.host = r.provider.host := by rw [h.ref]; rfl
  unfold RepositoryRef.identity RepositoryRef.path
  rw [hhost, String.toList_ofList]
  cases r.provider with
  | gitHub => rfl
  | gitLab =>
    have hlower : toAsciiLowercase "gitlab.com/".toList = "gitlab.com/".toList := by decide
    have hsplit : (RepositoryProvider.gitLab.host ++ "/" ++ r.nameSpace ++ "/" ++ r.name).toList =
        "gitlab.com/".toList ++ (r.nameSpace ++ "/" ++ r.name).toList := by
      simp [RepositoryProvider.host]
    dsimp only
    rw [hsplit, toAsciiLowercase_append, hlower]
    rfl

theorem Parsed.splitOn_path (h : Parsed r segments) : r.path.splitOn '/' = segments := by
  rw [h.path_eq]
  refine List.splitOn_intercalate '/' h.accepted.slash ?_
  rintro rfl
  exact absurd h.accepted.two (by decide)

theorem Parsed.identity_length (h : Parsed r segments) : (r.identity.toList.splitOn '/').length =
    match r.provider with | .gitHub => 2 | .gitLab => segments.length + 1 := by
  rw [h.identity_eq]
  cases hprovider : r.provider with
  | gitHub =>
    have hscope : (identityScope .gitHub).toList = [] := rfl
    rw [hscope, List.nil_append, splitOn_toAsciiLowercase, h.splitOn_path, List.length_map]
    exact h.accepted.gitHub hprovider
  | gitLab =>
    have hscope : (identityScope .gitLab).toList ++ toAsciiLowercase r.path =
        "gitlab.com".toList ++ '/' :: toAsciiLowercase r.path := by simp [identityScope]
    rw [hscope, List.splitOn_append_cons_self_of_not_mem (by decide), splitOn_toAsciiLowercase, h.splitOn_path]
    simp

theorem Parsed.identity_eq_iff {segments' : List (List Char)} (ha : Parsed a segments) (hb : Parsed b segments') :
    a.identity = b.identity ↔ a.provider = b.provider ∧ toAsciiLowercase a.path = toAsciiLowercase b.path := by
  constructor
  · intro h
    have hlength : (a.identity.toList.splitOn '/').length = (b.identity.toList.splitOn '/').length := by rw [h]
    have hprovider : a.provider = b.provider := by
      have htwo := ha.accepted.two
      have htwo' := hb.accepted.two
      rw [ha.identity_length, hb.identity_length] at hlength
      -- an identity of GitLab has a segment more than two
      cases hpa : a.provider <;> cases hpb : b.provider <;> simp only [hpa, hpb] at hlength <;> first | rfl | omega
    refine ⟨hprovider, ?_⟩
    have htext := congrArg String.toList h
    rw [ha.identity_eq, hb.identity_eq, hprovider] at htext
    exact List.append_cancel_left htext
  · rintro ⟨hprovider, hpath⟩
    apply String.toList_injective
    rw [ha.identity_eq, hb.identity_eq, hprovider, hpath]

/-! ## Change request URLs -/

/-- The segments between the project and the number. -/
def requestWords : RepositoryProvider → List String
  | .gitHub => ["pull"]
  | .gitLab => ["-", "merge_requests"]

def RepositoryProvider.requestMarker : RepositoryProvider → String
  | .gitHub => "/pull/"
  | .gitLab => "/-/merge_requests/"

/-- A URL of a change request of the repository: its host in any case, its path up to the case of ASCII
letters, and a number. -/
def RepositoryRef.RequestUrl (r : RepositoryRef) (url : String) : Prop :=
  ∃ host path number, url.toList =
      "https://".toList ++ (host ++ '/' :: (path ++ r.provider.requestMarker.toList ++ number)) ∧
    toAsciiLowercase host = r.host.toList ∧ toAsciiLowercase path = toAsciiLowercase r.path ∧
    number ≠ [] ∧ number.all isAsciiDigit

theorem joined_request {provider : RepositoryProvider} {actual : List (List Char)} {number : List Char}
    (h : actual ≠ []) : joined (actual ++ (requestWords provider).map String.toList ++ [number]) =
      joined actual ++ provider.requestMarker.toList ++ number := by
  cases provider with
  | gitHub =>
    have hwords : (requestWords .gitHub).map String.toList = ["pull".toList] := rfl
    rw [hwords, joined_concat (by simp), joined_concat h]
    simp [RepositoryProvider.requestMarker]
  | gitLab =>
    have hwords : actual ++ (requestWords .gitLab).map String.toList =
        actual ++ ["-".toList] ++ ["merge_requests".toList] := by simp [requestWords]
    rw [hwords, joined_concat (by simp), joined_concat (by simp), joined_concat h]
    simp [RepositoryProvider.requestMarker]

theorem zip_lower {actual expected : List (List Char)}
    (h : actual.map toAsciiLowercase = expected.map toAsciiLowercase) :
    (actual.zip expected).all (fun (a, e) => eqIgnoreAsciiCase a e) = true := by
  induction actual generalizing expected with
  | nil => rfl
  | cons first actual ih =>
    cases expected with
    | nil => rfl
    | cons e expected =>
      simp only [List.map_cons, List.cons.injEq] at h
      rw [List.zip_cons_cons, List.all_cons, ih h.2]
      simp [eqIgnoreAsciiCase, h.1]

/-- The word before the number. -/
def requestWord : RepositoryProvider → String
  | .gitHub => "pull"
  | .gitLab => "merge_requests"

/-- What the checks after the host establish about the segments of the path. -/
structure RequestSegments (provider : RepositoryProvider) (project segments : List (List Char)) (offset : ℕ) :
    Prop where
  length : segments.length = project.length + requestSuffix provider
  lower : ((segments.take project.length).zip project).all
    (fun (actual, expected) => eqIgnoreAsciiCase actual expected) = true
  place : numberOffset provider segments project.length = some offset
  word : segments.getD (offset - 1) [] = (requestWord provider).toList
  number : segments.getD offset [] ≠ [] ∧ (segments.getD offset []).all isAsciiDigit

section
variable {provider : RepositoryProvider} {project segments : List (List Char)}

theorem RequestSegments.split {offset : ℕ} (h : RequestSegments provider project segments offset) :
    ∃ actual number, segments = actual ++ (requestWords provider).map String.toList ++ [number] ∧
      actual.map toAsciiLowercase = project.map toAsciiLowercase ∧ number ≠ [] ∧ number.all isAsciiDigit := by
  obtain ⟨actual, tail, rfl, hactual⟩ : ∃ actual tail, segments = actual ++ tail ∧
    actual.length = project.length := by
    refine ⟨segments.take project.length, segments.drop project.length, (List.take_append_drop _ _).symm, ?_⟩
    simp [h.length]
  have hproject := h.lower
  rw [← hactual, List.take_left] at hproject
  have hlower := map_lower_eq hactual hproject
  have htail : tail.length = requestSuffix provider := by
    have := h.length
    simp only [List.length_append] at this
    omega
  obtain ⟨-, -, hoffset, hword, hnumber⟩ := h
  rw [← hactual] at hoffset
  cases provider with
  | gitHub =>
    obtain ⟨x, y, rfl⟩ := List.length_eq_two.mp htail
    obtain rfl : actual.length + 1 = offset := by simpa [numberOffset] using hoffset
    obtain rfl : x = "pull".toList := by simpa [requestWord] using hword
    refine ⟨actual, y, by simp [requestWords], hlower, ?_⟩
    simpa using hnumber
  | gitLab =>
    obtain ⟨x, y, z, rfl⟩ := List.length_eq_three.mp htail
    have hdash : x = "-".toList ∧ actual.length + 2 = offset := by
      simpa [numberOffset] using hoffset
    obtain ⟨rfl, rfl⟩ := hdash
    obtain rfl : y = "merge_requests".toList := by simpa [requestWord] using hword
    refine ⟨actual, z, by simp [requestWords], hlower, ?_⟩
    simpa using hnumber

theorem requestSegments_of_split {actual : List (List Char)} {number : List Char}
    (hlower : actual.map toAsciiLowercase = project.map toAsciiLowercase) (hne : number ≠ [])
    (hdigits : number.all isAsciiDigit) :
    ∃ offset, RequestSegments provider project
      (actual ++ (requestWords provider).map String.toList ++ [number]) offset := by
  have hactual : actual.length = project.length := by simpa using congrArg List.length hlower
  refine ⟨project.length + (requestWords provider).length, ?_, ?_, ?_, ?_, ?_⟩
  · cases provider <;> simp [hactual, requestWords, requestSuffix]
  · rw [List.append_assoc, ← hactual, List.take_left]
    exact zip_lower hlower
  · cases provider <;> simp [← hactual, numberOffset, requestWords]
  · cases provider <;> simp [← hactual, requestWord, requestWords]
  · cases provider <;> simp [← hactual, requestWords, hne, hdigits]

end

theorem Parsed.expectedRequest_eq (h : Parsed r segments) : expectedRequest r.provider r.identity.toList =
    some (r.host.toList, toAsciiLowercase r.path, (requestWord r.provider).toList) := by
  rw [h.host_eq, h.identity_eq]
  cases r.provider with
  | gitHub => rfl
  | gitLab =>
    have hscope : (identityScope .gitLab).toList = "gitlab.com/".toList := rfl
    rw [expectedRequest, hscope, stripPrefix_append]
    rfl

theorem Parsed.eqIgnoreAsciiCase_host (h : Parsed r segments) {host : List Char} :
    eqIgnoreAsciiCase host r.host.toList = true ↔ toAsciiLowercase host = r.host.toList := by
  have hlower : toAsciiLowercase r.host.toList = r.host.toList := by
    rw [h.host_eq]
    cases r.provider <;> decide
  rw [eqIgnoreAsciiCase, decide_eq_true_eq, hlower]

theorem Parsed.recognize_iff_segments (h : Parsed r segments) {u u' : String} :
    recognizeChangeRequestUrl r.provider r.identity u = some u' ↔ u' = u ∧ ∃ host path offset,
      u.toList = "https://".toList ++ (host ++ '/' :: path) ∧ '/' ∉ host ∧
        toAsciiLowercase host = r.host.toList ∧
      RequestSegments r.provider (segments.map toAsciiLowercase) (path.splitOn '/') offset := by
  have hproject : (toAsciiLowercase r.path).splitOn '/' = segments.map toAsciiLowercase := by
    rw [splitOn_toAsciiLowercase, h.splitOn_path]
  rw [← hproject]
  simp only [recognizeChangeRequestUrl, h.expectedRequest_eq, Option.bind_eq_bind, Option.bind_eq_some_iff,
    Option.guard_eq_some', stripPrefix_eq_some, splitOnce_eq_some, Prod.exists, Option.some.injEq,
    Prod.mk.injEq, Option.pure_def]
  constructor
  · rintro ⟨remainder, htext, host, path, ⟨rfl, hslash⟩, _, _, _, ⟨rfl, rfl, rfl⟩, _, hhost, _,
      hlength, _, hall,
      offset, hoffset, _, hword, _, hnumber, rfl⟩
    exact ⟨rfl, host, path, offset, htext, hslash, h.eqIgnoreAsciiCase_host.mp hhost,
      ⟨hlength, hall, hoffset, hword, hnumber⟩⟩
  · rintro ⟨rfl, host, path, offset, htext, hslash, hhost, ⟨hlength, hall, hoffset, hword, hnumber⟩⟩
    exact ⟨_, htext, host, path, ⟨rfl, hslash⟩, _, _, _, ⟨rfl, rfl, rfl⟩, (),
      h.eqIgnoreAsciiCase_host.mpr hhost,
      (), hlength, (), hall, offset, hoffset, (), hword, (), hnumber, rfl⟩

theorem slash_not_mem_number {number : List Char} (h : number.all isAsciiDigit) : '/' ∉ number := by
  intro hmem
  exact absurd (List.all_eq_true.mp h _ hmem) (by decide)

theorem Parsed.recognize_iff (h : Parsed r segments) {u u' : String} :
    recognizeChangeRequestUrl r.provider r.identity u = some u' ↔ u' = u ∧ r.RequestUrl u := by
  have hlowerPath : toAsciiLowercase r.path = joined (segments.map toAsciiLowercase) := by
    rw [h.path_eq, toAsciiLowercase_joined]
  rw [h.recognize_iff_segments, and_congr_right_iff]
  intro _
  constructor
  · rintro ⟨host, path, offset, htext, -, hhost, hsegments⟩
    obtain ⟨actual, number, hsplit, hlower, hne, hdigits⟩ := hsegments.split
    have hactual : actual ≠ [] := by
      rintro rfl
      have hnil : segments = [] := by simpa using hlower.symm
      exact absurd h.accepted.two (by simp [hnil])
    have hpath : path = joined actual ++ r.provider.requestMarker.toList ++ number := by
      rw [← joined_request hactual, ← hsplit]
      exact (List.intercalate_splitOn '/').symm
    refine ⟨host, joined actual, number, hpath ▸ htext, hhost, ?_, hne, hdigits⟩
    rw [toAsciiLowercase_joined, hlower, map_toAsciiLowercase_idem, hlowerPath]
  · rintro ⟨host, path, number, htext, hhost, hpath, hne, hdigits⟩
    have hslash : '/' ∉ host := (h.isHost hhost).not_mem (by simp)
    have hlower : (path.splitOn '/').map toAsciiLowercase = (segments.map toAsciiLowercase).map toAsciiLowercase := by
      rw [map_toAsciiLowercase_idem, ← splitOn_toAsciiLowercase, hpath, splitOn_toAsciiLowercase, h.splitOn_path]
    obtain ⟨offset, hsegments⟩ := @requestSegments_of_split r.provider _ _ _ hlower hne hdigits
    refine ⟨host, _, offset, htext, hslash, hhost, ?_⟩
    have hrequest : path ++ r.provider.requestMarker.toList ++ number =
        joined (path.splitOn '/' ++ (requestWords r.provider).map String.toList ++ [number]) := by
      rw [joined_request (List.splitOn_ne_nil _ _), joined, List.intercalate_splitOn]
    have hsplit : (path ++ r.provider.requestMarker.toList ++ number).splitOn '/' =
        path.splitOn '/' ++ (requestWords r.provider).map String.toList ++ [number] := by
      rw [hrequest]
      refine List.splitOn_intercalate '/' (fun segment hmem => ?_) (by simp)
      simp only [List.mem_append, List.mem_singleton] at hmem
      obtain (hmem | hmem) | rfl := hmem
      · exact not_mem_of_mem_splitOn hmem
      · revert segment
        cases r.provider <;> decide
      · exact slash_not_mem_number hdigits
    rw [hsplit]
    exact hsegments

/-- A URL that belongs to two repositories shows that they are one. -/
theorem Parsed.identity_of_requestUrl {segments' : List (List Char)} (ha : Parsed a segments) (hb : Parsed b segments')
    {u : String} (hua : a.RequestUrl u) (hub : b.RequestUrl u) : a.provider = b.provider ∧
      a.identity = b.identity := by
  obtain ⟨host, path, number, htext, hhost, hpath, -, hdigits⟩ := hua
  obtain ⟨host', path', number', htext', hhost', hpath', -, hdigits'⟩ := hub
  rw [htext] at htext'
  have hslash : '/' ∉ host := (ha.isHost hhost).not_mem (by simp)
  have hslash' : '/' ∉ host' := (hb.isHost hhost').not_mem (by simp)
  have hsplit := congrArg (splitOnce '/') (List.append_cancel_left htext')
  rw [splitOnce_append hslash, splitOnce_append hslash'] at hsplit
  obtain ⟨rfl, hrest⟩ := Prod.mk.inj (Option.some.inj hsplit)
  have hprovider : a.provider = b.provider := by
    have hhosts : a.provider.host.toList = b.provider.host.toList := by
      rw [← ha.host_eq, ← hb.host_eq, ← hhost, ← hhost']
    revert hhosts
    cases a.provider <;> cases b.provider <;> decide
  rw [← hprovider] at hrest
  obtain ⟨base, hbase⟩ : ∃ base, a.provider.requestMarker.toList = base ++ ['/'] := by
    cases a.provider with
    | gitHub => exact ⟨"/pull".toList, rfl⟩
    | gitLab => exact ⟨"/-/merge_requests".toList, rfl⟩
  simp only [hbase, List.append_assoc, List.singleton_append] at hrest
  rw [← List.append_assoc, ← List.append_assoc] at hrest
  have hlast := congrArg (rsplitOnce '/') hrest
  rw [rsplitOnce_append (slash_not_mem_number hdigits), rsplitOnce_append (slash_not_mem_number hdigits')] at hlast
  have hpaths : path = path' := List.append_cancel_right (Prod.mk.inj (Option.some.inj hlast)).1
  refine ⟨hprovider, (ha.identity_eq_iff hb).mpr ⟨hprovider, ?_⟩⟩
  rw [← hpath, ← hpath', hpaths]

/-- The reference of a provider and of segments that the parser accepts is what all its spellings, and no other
texts, parse to; there are no other references. Two of them have one identity exactly if they agree on the provider
and, up to the case of ASCII letters, on the path; and the recogniser accepts the change request URLs of the
repository with that identity and no others. -/
theorem repository_identity :
    (∀ provider segments, AcceptedSegments provider segments → (∀ segment ∈ segments, Clean segment) →
      ∀ text, parseRepositoryRef (String.ofList text) = .ok (.ofSegments provider segments) ↔
        (RepositoryRef.ofSegments provider segments).Spelling text) ∧
    ∀ remote r, parseRepositoryRef remote = .ok r →
      (∃ segments, Parsed r segments) ∧
      (∀ u u', recognizeChangeRequestUrl r.provider r.identity u = some u' ↔ u' = u ∧ r.RequestUrl u) ∧
      ∀ remote' r', parseRepositoryRef remote' = .ok r' →
        (r.identity = r'.identity ↔
          r.provider = r'.provider ∧ toAsciiLowercase r.path = toAsciiLowercase r'.path) ∧
        ∀ u, r'.RequestUrl u → (recognizeChangeRequestUrl r.provider r.identity u).isSome →
          r.provider = r'.provider ∧ r.identity = r'.identity := by
  constructor
  · intro provider segments haccepted hclean text
    have hparsed : Parsed (.ofSegments provider segments) segments := ⟨haccepted, rfl, hclean⟩
    constructor
    · intro h
      simpa using (parsed_of_parse h).2
    · exact hparsed.parse_spelling
  · intro remote r h
    obtain ⟨segments, hparsed⟩ := (parsed_of_parse h).1
    refine ⟨⟨segments, hparsed⟩, fun u u' => hparsed.recognize_iff, fun remote' r' h' => ?_⟩
    obtain ⟨segments', hparsed'⟩ := (parsed_of_parse h').1
    refine ⟨hparsed.identity_eq_iff hparsed', fun u hu hsome => ?_⟩
    obtain ⟨u', hu'⟩ := Option.isSome_iff_exists.mp hsome
    exact hparsed.identity_of_requestUrl hparsed' (hparsed.recognize_iff.mp hu').2 hu

theorem repository_identity_https :
    parseRepositoryRef "https://token@GitHub.com:443/Acme/Site.git/" =
      .ok ⟨.gitHub, "github.com", "Acme", "Site"⟩ :=
  (repository_identity.1 .gitHub ["Acme".toList, "Site".toList]
    ⟨by decide, by decide, by decide, by decide, by decide⟩ (by simp [Clean]) _).mpr
    (@RepositoryRef.Spelling.https _ (some "token".toList) (some "443".toList) "GitHub.com".toList
      ".git/".toList (by simp [Clean]) (by simp [isAsciiDigit]) (by decide +kernel) ⟨1, .inr rfl⟩)

end FlashyFactory
