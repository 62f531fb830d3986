import FlashyFactory.Repository.Remote
import FlashyFactory.Lib.TextSearch

/-! # The spellings of a remote

All spellings of a repository that `parse_repository_ref` accepts are the same repository. -/

namespace FlashyFactory

/-! ## The string functions -/

section
variable {c : Char} {text before after pre rest : List Char}

@[simp] theorem stripPrefix_append : stripPrefix pre (pre ++ rest) = some rest := by
  simp [stripPrefix]

theorem stripPrefix_eq_some : stripPrefix pre text = some rest ↔ text = pre ++ rest := by
  constructor
  · intro h
    unfold stripPrefix at h
    split at h
    · next hprefix =>
      cases h
      obtain ⟨more, rfl⟩ := List.isPrefixOf_iff_prefix.mp hprefix
      simp
    · cases h
  · rintro rfl
    exact stripPrefix_append

theorem stripSuffix_append {suffix : List Char} : stripSuffix suffix (text ++ suffix) = some text := by
  simp [stripSuffix]

theorem stripSuffix_eq_some {suffix : List Char} : stripSuffix suffix text = some rest ↔ text = rest ++ suffix := by
  constructor
  · intro h
    unfold stripSuffix at h
    split at h
    · next hsuffix =>
      cases h
      obtain ⟨more, rfl⟩ := List.isSuffixOf_iff_suffix.mp hsuffix
      simp
    · cases h
  · rintro rfl
    exact stripSuffix_append

theorem splitOnce_append (h : c ∉ before) : splitOnce c (before ++ c :: after) = some (before, after) := by
  have hall : ∀ d ∈ before, decide (d ≠ c) = true := by
    rintro d hd
    simp only [ne_eq, decide_not, Bool.not_eq_true', decide_eq_false_iff_not]
    rintro rfl
    exact h hd
  simp only [splitOnce, List.mem_append, List.mem_cons, true_or, or_true, if_true, List.takeWhile_append_of_pos hall,
    List.dropWhile_append_of_pos hall]
  simp

theorem splitOnce_eq_none (h : c ∉ text) : splitOnce c text = none := if_neg h

theorem splitOnce_eq_some :
    splitOnce c text = some (before, after) ↔ text = before ++ c :: after ∧ c ∉ before := by
  constructor
  · intro h
    by_cases hmem : c ∈ text
    · obtain ⟨first, more, rfl, hfirst⟩ := List.eq_append_cons_of_mem hmem
      rw [splitOnce_append hfirst] at h
      cases h
      exact ⟨rfl, hfirst⟩
    · rw [splitOnce_eq_none hmem] at h
      cases h
  · rintro ⟨rfl, h⟩
    exact splitOnce_append h

theorem rsplitOnce_append (h : c ∉ after) : rsplitOnce c (before ++ c :: after) = some (before, after) := by
  have hreverse : (before ++ c :: after).reverse = after.reverse ++ c :: before.reverse := by simp
  rw [rsplitOnce, hreverse, splitOnce_append (by simpa using h)]
  simp

theorem rsplitOnce_eq_some :
    rsplitOnce c text = some (before, after) ↔ text = before ++ c :: after ∧ c ∉ after := by
  constructor
  · intro h
    obtain ⟨⟨first, last⟩, hsplit, hparts⟩ := Option.map_eq_some_iff.mp h
    obtain ⟨htext, hfirst⟩ := splitOnce_eq_some.mp hsplit
    cases hparts
    refine ⟨?_, by simpa using hfirst⟩
    rw [← List.reverse_reverse text, htext]
    simp
  · rintro ⟨rfl, h⟩
    exact rsplitOnce_append h

theorem rsplitOnce_eq_none (h : c ∉ text) : rsplitOnce c text = none := by
  rw [rsplitOnce, splitOnce_eq_none (by simpa using h)]
  rfl

end

/-! ## Paths -/

/-- The segments of a path that `parse_repository_ref` accepts. -/
structure AcceptedSegments (provider : RepositoryProvider) (segments : List (List Char)) : Prop where
  good : ∀ segment ∈ segments, badSegment segment = false
  dash : provider = .gitLab → ['-'] ∉ segments
  two : 2 ≤ segments.length
  gitHub : provider = .gitHub → segments.length = 2
  slash : ∀ segment ∈ segments, '/' ∉ segment

def joined (segments : List (List Char)) : List Char := ['/'].intercalate segments

/-- What may stand after the path: `.git`, then any number of slashes. -/
def IsEnding (ending : List Char) : Prop :=
  ∃ n, ending = List.replicate n '/' ∨ ending = ".git".toList ++ List.replicate n '/'

theorem rdropWhile_slashes {text : List Char} {c : Char} (hc : c ≠ '/') (n : ℕ) :
    (text ++ [c] ++ List.replicate n '/').rdropWhile (· = '/') = text ++ [c] := by
  induction n with
  | zero => simp [hc]
  | succ n ih =>
    rw [List.replicate_succ', ← List.append_assoc, List.rdropWhile_concat_pos _ _ _ (by simp)]
    exact ih

theorem joined_concat {segments : List (List Char)} {last : List Char} (h : segments ≠ []) :
    joined (segments ++ [last]) = joined segments ++ '/' :: last := by
  induction segments with
  | nil => exact (h rfl).elim
  | cons first segments ih =>
    cases segments with
    | nil => simp [joined]
    | cons next segments =>
      have hrest := ih (List.cons_ne_nil _ _)
      simp only [joined, List.cons_append, List.intercalate_cons_cons] at hrest ⊢
      rw [hrest]
      simp

theorem pathSegments_joined {provider : RepositoryProvider} {segments : List (List Char)} {ending : List Char}
    (h : AcceptedSegments provider segments) (hending : IsEnding ending) :
    pathSegments (joined segments ++ ending) = segments := by
  have hne : segments ≠ [] := by
    rintro rfl
    exact absurd h.two (by decide)
  obtain ⟨init, last, rfl⟩ := (List.eq_nil_or_concat segments).resolve_left hne
  rw [List.concat_eq_append] at *
  have hinit : init ≠ [] := by
    rintro rfl
    exact absurd h.two (by simp)
  have hlast := h.good last (by simp)
  have hslash := h.slash last (by simp)
  simp only [badSegment, Bool.or_eq_false_iff, decide_eq_false_iff_not] at hlast
  obtain ⟨⟨⟨hnonempty, -⟩, -⟩, hgit⟩ := hlast
  have hjoined := @joined_concat init last hinit
  have hsplit : (joined (init ++ [last])).splitOn '/' = init ++ [last] :=
    List.splitOn_intercalate '/' h.slash (by simp)
  have hnogit : stripSuffix ".git".toList (joined (init ++ [last])) = none := by
    refine if_neg fun hsuffix => ?_
    rw [hjoined] at hsuffix
    have hword := TextSearch.suffix_append_cons (by decide) (List.isSuffixOf_iff_suffix.mp hsuffix)
    rw [List.isSuffixOf_iff_suffix.mpr hword] at hgit
    cases hgit
  obtain ⟨base, c, hbase⟩ : ∃ base c, last = base ++ [c] :=
    ⟨last.dropLast, last.getLast hnonempty, (List.dropLast_append_getLast hnonempty).symm⟩
  have hc : c ≠ '/' := by
    rintro rfl
    exact hslash (by simp [hbase])
  obtain ⟨n, rfl | rfl⟩ := hending
  · have hdrop : (joined (init ++ [last]) ++ List.replicate n '/').rdropWhile (· = '/') =
        joined (init ++ [last]) := by
      have hslashes := @rdropWhile_slashes (joined init ++ '/' :: base) _ hc n
      rw [hjoined, hbase]
      simpa using hslashes
    rw [pathSegments, hdrop, hnogit, Option.getD_none, hsplit]
  · have hdrop : (joined (init ++ [last]) ++ (".git".toList ++ List.replicate n '/')).rdropWhile (· = '/') =
        joined (init ++ [last]) ++ ".git".toList := by
      have hslashes := @rdropWhile_slashes (joined (init ++ [last]) ++ ".gi".toList) _
        (show 't' ≠ '/' by decide) n
      simpa using hslashes
    rw [pathSegments, hdrop, stripSuffix_append, Option.getD_some, hsplit]

/-- A path is its segments and an ending. -/
theorem exists_ending (path : List Char) : ∃ ending, IsEnding ending ∧
    path = joined (pathSegments path) ++ ending := by
  have hpath : path.rdropWhile (· = '/') ++ path.rtakeWhile (· = '/') = path := List.rdropWhile_append_rtakeWhile
  have hslashes : path.rtakeWhile (· = '/') = List.replicate (path.rtakeWhile (· = '/')).length '/' :=
    List.eq_replicate_of_mem fun c hc => by simpa using List.mem_rtakeWhile_imp hc
  rw [pathSegments, joined, List.intercalate_splitOn]
  cases hstrip : stripSuffix ".git".toList (path.rdropWhile (· = '/')) with
  | none => exact ⟨_, ⟨_, .inl hslashes⟩, hpath.symm⟩
  | some base =>
    have hbase := stripSuffix_eq_some.mp hstrip
    refine ⟨".git".toList ++ path.rtakeWhile (· = '/'), ⟨_, .inr (congrArg _ hslashes)⟩, ?_⟩
    rw [Option.getD_some, ← List.append_assoc, ← hbase]
    exact hpath.symm

/-! ## What the parser accepts -/

theorem not_mem_of_mem_splitOn {c : Char} {text segment : List Char} (h : segment ∈ text.splitOn c) :
    c ∉ segment := by
  induction text generalizing segment with
  | nil =>
    obtain rfl : segment = [] := by simpa using h
    simp
  | cons d text ih =>
    rw [List.splitOn_cons_eq_if_modifyHead] at h
    split at h
    · obtain rfl | h := List.mem_cons.mp h
      · simp
      · exact ih h
    · next hd =>
      obtain ⟨first, rest, hsplit⟩ := List.exists_cons_of_ne_nil (List.splitOn_ne_nil c text)
      rw [hsplit] at h ih
      obtain rfl | h := List.mem_cons.mp h
      · have hfirst := ih List.mem_cons_self
        have hne : c ≠ d := by
          rintro rfl
          simp at hd
        simp [hne, hfirst]
      · exact ih (List.mem_cons_of_mem _ h)

/-- The host and the path of a remote, whatever its grammar. -/
def transport (text : List Char) : Except String (List Char × List Char) :=
  match stripPrefix "https://".toList text with
  | some remainder => parseUrlRemote remainder none
  | none => match stripPrefix "ssh://".toList text with
    | some remainder => parseUrlRemote remainder (some "git".toList)
    | none => parseScpRemote text

def RepositoryProvider.host : RepositoryProvider → String
  | .gitHub => "github.com"
  | .gitLab => "gitlab.com"

def RepositoryRef.path (r : RepositoryRef) : List Char := (r.nameSpace ++ "/" ++ r.name).toList

/-- The reference that a provider and the segments of a path make. -/
def RepositoryRef.ofSegments (provider : RepositoryProvider) (segments : List (List Char)) : RepositoryRef where
  provider
  host := provider.host
  nameSpace := String.ofList (joined segments.dropLast)
  name := String.ofList (segments.getLast?.getD [])

/-- Without a query and without a fragment. -/
def Clean (text : List Char) : Prop := ∀ c ∈ text, c ≠ '?' ∧ c ≠ '#'

@[simp] theorem clean_append {a b : List Char} : Clean (a ++ b) ↔ Clean a ∧ Clean b :=
  List.forall_mem_append

@[simp] theorem clean_cons {c : Char} {text : List Char} :
    Clean (c :: text) ↔ (c ≠ '?' ∧ c ≠ '#') ∧ Clean text :=
  List.forall_mem_cons

@[simp] theorem clean_nil : Clean [] := by simp [Clean]

theorem clean_joined {segments : List (List Char)} :
    Clean (joined segments) ↔ ∀ segment ∈ segments, Clean segment := by
  induction segments with
  | nil => simp [joined]
  | cons first segments ih =>
    cases segments with
    | nil => simp [joined]
    | cons next segments =>
      simp only [joined, List.intercalate_cons_cons, clean_append] at ih ⊢
      rw [ih]
      simp

theorem supportedHost_eq_some {host : List Char} {provider : RepositoryProvider} {name : String}
    (h : supportedHost host = some (provider, name)) : name = provider.host := by
  simp only [supportedHost] at h
  split at h
  · cases h
    rfl
  · split at h
    · cases h
      rfl
    · cases h

theorem acceptedSegments_iff {provider : RepositoryProvider} {path : List Char} :
    AcceptedSegments provider (pathSegments path) ↔
      ¬ ((pathSegments path).any badSegment || provider = .gitLab && (pathSegments path).contains ['-'] ||
        (pathSegments path).length < 2 || provider = .gitHub && (pathSegments path).length ≠ 2) := by
  have hslash : ∀ segment ∈ pathSegments path, '/' ∉ segment := fun segment h => not_mem_of_mem_splitOn h
  simp only [Bool.or_eq_true, List.any_eq_true, Bool.and_eq_true, decide_eq_true_eq, List.contains_iff_mem,
    not_or, not_exists, not_and, not_lt, ne_eq, not_not, Bool.not_eq_true]
  constructor
  · rintro ⟨good, dash, two, gitHub, -⟩
    exact ⟨⟨⟨good, dash⟩, two⟩, gitHub⟩
  · rintro ⟨⟨⟨good, dash⟩, two⟩, gitHub⟩
    exact ⟨good, dash, two, gitHub, hslash⟩

theorem parseRepositoryRef_eq {remote : String} : parseRepositoryRef remote =
    if remote.toList = [] || remote.toList.any fun c => c = '?' || c = '#' then .error malformedRemote
    else match transport remote.toList with
      | .error e => .error e
      | .ok (host, path) => match supportedHost host with
        | none => .error (unsupportedHost host)
        | some (provider, name) =>
          if (pathSegments path).any badSegment || provider = .gitLab && (pathSegments path).contains ['-'] ||
              (pathSegments path).length < 2 || provider = .gitHub && (pathSegments path).length ≠ 2 then
            .error malformedRemote
          else .ok { RepositoryRef.ofSegments provider (pathSegments path) with host := name } := by
  rfl

theorem parseRepositoryRef_eq_ok {remote : String} {r : RepositoryRef} :
    parseRepositoryRef remote = .ok r ↔ Clean remote.toList ∧ remote.toList ≠ [] ∧
      ∃ host path, transport remote.toList = .ok (host, path) ∧
        supportedHost host = some (r.provider, r.provider.host) ∧
        AcceptedSegments r.provider (pathSegments path) ∧
        r = RepositoryRef.ofSegments r.provider (pathSegments path) := by
  have hguard : (remote.toList = [] || remote.toList.any fun c => c = '?' || c = '#') = true ↔
      ¬ (Clean remote.toList ∧ remote.toList ≠ []) := by
    simp only [Bool.or_eq_true, decide_eq_true_eq, List.any_eq_true, Clean]
    grind
  rw [parseRepositoryRef_eq]
  split
  · next hbad =>
    rw [hguard] at hbad
    constructor
    · rintro h
      cases h
    · rintro ⟨hclean, hne, -⟩
      exact (hbad ⟨hclean, hne⟩).elim
  · next hgood =>
    rw [hguard] at hgood
    obtain ⟨hclean, hne⟩ := not_not.mp hgood
    cases htransport : transport remote.toList with
    | error e => simp
    | ok parsed =>
      obtain ⟨host, path⟩ := parsed
      dsimp only
      constructor
      · intro h
        split at h
        · cases h
        · next provider name hhost =>
          obtain rfl := supportedHost_eq_some hhost
          split at h
          · cases h
          · next hsegments =>
            cases h
            exact ⟨hclean, hne, host, path, rfl, hhost, acceptedSegments_iff.mpr hsegments, rfl⟩
      · rintro ⟨-, -, host, path, h, hhost, hsegments, hr⟩
        cases h
        rw [hhost]
        dsimp only
        rw [if_neg (acceptedSegments_iff.mp hsegments)]
        exact congrArg _ hr.symm

/-- The reference is made of segments that the parser accepts. -/
structure Parsed (r : RepositoryRef) (segments : List (List Char)) : Prop where
  accepted : AcceptedSegments r.provider segments
  ref : r = RepositoryRef.ofSegments r.provider segments
  clean : ∀ segment ∈ segments, Clean segment

theorem Parsed.path_eq {r : RepositoryRef} {segments : List (List Char)} (h : Parsed r segments) :
    r.path = joined segments := by
  have hne : segments ≠ [] := by
    rintro rfl
    exact absurd h.accepted.two (by decide)
  obtain ⟨init, last, rfl⟩ := (List.eq_nil_or_concat segments).resolve_left hne
  rw [List.concat_eq_append] at *
  have hinit : init ≠ [] := by
    rintro rfl
    exact absurd h.accepted.two (by simp)
  rw [h.ref, joined_concat hinit]
  simp [RepositoryRef.path, RepositoryRef.ofSegments]

/-! ## The spellings of a reference -/

def userText : Option (List Char) → List Char
  | none => []
  | some user => user ++ ['@']

def portText : Option (List Char) → List Char
  | none => []
  | some port => ':' :: port

/-- The texts that spell a reference: over https with or without credentials, over ssh, and in the form
of `scp`, the host in letters of any case. -/
inductive RepositoryRef.Spelling (r : RepositoryRef) : List Char → Prop
  | https {user port : Option (List Char)} {host ending : List Char}
    (huser : ∀ u ∈ user, '/' ∉ u ∧ Clean u) (hport : ∀ p ∈ port, p ≠ [] ∧ p.all isAsciiDigit)
    (hhost : toAsciiLowercase host = r.host.toList) (hending : IsEnding ending) :
    r.Spelling ("https://".toList ++ (userText user ++ (host ++ portText port) ++ '/' :: (r.path ++ ending)))
  | ssh {port : Option (List Char)} {host ending : List Char}
    (hport : ∀ p ∈ port, p ≠ [] ∧ p.all isAsciiDigit)
    (hhost : toAsciiLowercase host = r.host.toList) (hending : IsEnding ending) :
    r.Spelling ("ssh://".toList ++ ("git@".toList ++ (host ++ portText port) ++ '/' :: (r.path ++ ending)))
  | scp {host ending : List Char}
    (hhost : toAsciiLowercase host = r.host.toList) (hending : IsEnding ending) :
    r.Spelling ("git@".toList ++ host ++ ':' :: (r.path ++ ending))
  /-- The host that serves ssh on the port of https. -/
  | sshGitHub {port : Option (List Char)} {host ending : List Char} (hprovider : r.provider = .gitHub)
    (hport : ∀ p ∈ port, p = "443".toList)
    (hhost : toAsciiLowercase host = FlashyFactory.sshGitHub) (hending : IsEnding ending) :
    r.Spelling ("ssh://".toList ++ ("git@".toList ++ (host ++ portText port) ++ '/' :: (r.path ++ ending)))

/-- The names of the supported hosts. -/
def hostNames : List (RepositoryProvider × List Char) :=
  [(.gitHub, "github.com".toList), (.gitHub, sshGitHub), (.gitLab, "gitlab.com".toList)]

theorem mem_hostNames {provider : RepositoryProvider} {name : List Char} :
    (provider, name) ∈ hostNames ↔ name = provider.host.toList ∨ provider = .gitHub ∧ name = sshGitHub := by
  cases provider <;> simp [hostNames, RepositoryProvider.host]

theorem supportedHost_iff {provider : RepositoryProvider} {host : List Char} :
    supportedHost host = some (provider, provider.host) ↔ (provider, toAsciiLowercase host) ∈ hostNames := by
  dsimp only [supportedHost]
  generalize toAsciiLowercase host = name
  constructor
  · intro h
    split at h
    · next hname =>
      cases h
      rw [Bool.or_eq_true, decide_eq_true_eq, decide_eq_true_eq] at hname
      rcases hname with rfl | rfl <;> decide
    · split at h
      · next hname =>
        cases h
        subst hname
        decide
      · cases h
  · intro h
    rcases mem_hostNames.mp h with rfl | ⟨rfl, rfl⟩
    · cases provider <;> decide
    · decide

theorem eqIgnoreAsciiCase_sshGitHub {host : List Char} :
    eqIgnoreAsciiCase host sshGitHub = true ↔ toAsciiLowercase host = sshGitHub := by
  have hlower : toAsciiLowercase sshGitHub = sshGitHub := by decide
  rw [eqIgnoreAsciiCase, decide_eq_true_eq, hlower]

/-- What the letters of a supported host are not. -/
structure IsHost (provider : RepositoryProvider) (host : List Char) : Prop where
  supported : supportedHost host = some (provider, provider.host)
  plain : ∀ c ∈ host, c ≠ '/' ∧ c ≠ '@' ∧ c ≠ ':' ∧ c ≠ '?' ∧ c ≠ '#'
  ne_nil : host ≠ []

theorem isHost_of_lower {provider : RepositoryProvider} {host : List Char}
    (h : (provider, toAsciiLowercase host) ∈ hostNames) : IsHost provider host where
  supported := supportedHost_iff.mpr h
  plain c hc := by
    have hmem : asciiLower c ∈ toAsciiLowercase host := List.mem_map_of_mem hc
    have hall : (hostNames.all fun named => named.2.all fun d =>
        not (['/', '@', ':', '?', '#'].contains d)) = true := by
      decide
    have hlower := List.all_eq_true.mp (List.all_eq_true.mp hall _ h) _ hmem
    refine ⟨?_, ?_, ?_, ?_, ?_⟩ <;>
    · rintro rfl
      exact absurd hlower (by decide)
  ne_nil := by
    rintro rfl
    revert h
    cases provider <;> decide

section
variable {provider : RepositoryProvider} {user port : Option (List Char)} {host path : List Char}

theorem IsHost.not_mem (h : IsHost provider host) {c : Char} (hc : c ∈ ['/', '@', ':']) : c ∉ host := by
  intro hmem
  obtain ⟨hslash, hat, hcolon, -, -⟩ := h.plain c hmem
  simp only [List.mem_cons, List.not_mem_nil, or_false] at hc
  grind

theorem not_mem_portText {c : Char} (hport : ∀ p ∈ port, p ≠ [] ∧ p.all isAsciiDigit) (hcolon : c ≠ ':')
    (hc : isAsciiDigit c = false) : c ∉ portText port := by
  cases port with
  | none => simp [portText]
  | some digits =>
    have hdigits := List.all_eq_true.mp (hport digits rfl).2
    simp only [portText, List.mem_cons, not_or]
    refine ⟨hcolon, fun hmem => ?_⟩
    rw [hdigits c hmem] at hc
    cases hc

def splitUser (authority : List Char) : Option (List Char) × List Char :=
  match rsplitOnce '@' authority with
  | some (user, host) => (some user, host)
  | none => (none, authority)

def splitPort (hostAndPort : List Char) : List Char × Option (List Char) :=
  match rsplitOnce ':' hostAndPort with
  | some (host, port) => (host, some port)
  | none => (hostAndPort, none)

theorem splitUser_userText (h : '@' ∉ path) : splitUser (userText user ++ path) = (user, path) := by
  cases user with
  | none => simp only [splitUser, userText, List.nil_append, rsplitOnce_eq_none h]
  | some u =>
    have hsplit : rsplitOnce '@' (u ++ ['@'] ++ path) = some (u, path) := by
      rw [List.append_assoc]
      exact rsplitOnce_append h
    rw [splitUser, userText, hsplit]

theorem splitPort_portText (hport : ∀ p ∈ port, p ≠ [] ∧ p.all isAsciiDigit) (h : ':' ∉ host) :
    splitPort (host ++ portText port) = (host, port) := by
  cases port with
  | none => simp only [splitPort, portText, List.append_nil, rsplitOnce_eq_none h]
  | some digits =>
    have hdigits : ':' ∉ digits := by
      intro hmem
      exact absurd (List.all_eq_true.mp (hport digits rfl).2 _ hmem) (by decide)
    simp only [splitPort, portText, rsplitOnce_append hdigits]

theorem parseUrlRemote_of_split {remote authority : List Char} {requiredUser : Option (List Char)}
    (hremote : splitOnce '/' remote = some (authority, path)) (huser : splitUser authority = (user, host))
    {name : List Char} (hport : splitPort host = (name, port)) :
    parseUrlRemote remote requiredUser =
      if authority = [] || path = [] then .error malformedRemote
      else if requiredUser.any fun required => user ≠ some required then .error malformedRemote
      else if name = [] || port.any fun port => port = [] || !port.all isAsciiDigit then .error malformedRemote
      else if eqIgnoreAsciiCase name sshGitHub && port.any fun port => port ≠ "443".toList then
        .error (unsupportedHost name)
      else if requiredUser.isNone && eqIgnoreAsciiCase name sshGitHub then .error (unsupportedHost name)
      else .ok (name, path) := by
  obtain ⟨rfl, rfl⟩ := Prod.mk.inj huser.symm
  obtain ⟨rfl, rfl⟩ := Prod.mk.inj hport.symm
  unfold parseUrlRemote
  split
  · next h => cases h.symm.trans hremote
  · next h =>
    cases h.symm.trans hremote
    rfl

/-- The host that serves ssh on the port of https is for ssh, and for that port. -/
def SshOnly (requiredUser port : Option (List Char)) (host : List Char) : Prop :=
  toAsciiLowercase host = sshGitHub → requiredUser.isSome ∧ ∀ p ∈ port, p = "443".toList

theorem parseUrlRemote_spelled {requiredUser : Option (List Char)} (hrequired : ∀ u ∈ requiredUser, user = some u)
    (huser : ∀ u ∈ user, '/' ∉ u) (hport : ∀ p ∈ port, p ≠ [] ∧ p.all isAsciiDigit)
    (h : IsHost provider host) (hssh : SshOnly requiredUser port host) (hpath : path ≠ []) :
    parseUrlRemote (userText user ++ (host ++ portText port) ++ '/' :: path) requiredUser = .ok (host, path) := by
  have hauthority : '/' ∉ userText user ++ (host ++ portText port) := by
    simp only [List.mem_append, not_or]
    refine ⟨?_, h.not_mem (by simp), not_mem_portText hport (by decide) (by decide)⟩
    cases user with
    | none => simp [userText]
    | some u => simpa [userText] using huser u rfl
  have hafter : '@' ∉ host ++ portText port := by
    simp only [List.mem_append, not_or]
    exact ⟨h.not_mem (by simp), not_mem_portText hport (by decide) (by decide)⟩
  have hok : (port.any fun port => port = [] || !port.all isAsciiDigit) = false := by
    cases port with
    | none => rfl
    | some digits => simp [(hport digits rfl).1, (hport digits rfl).2]
  have huser : (requiredUser.any fun required => user ≠ some required) = false := by
    cases requiredUser with
    | none => rfl
    | some required => simp [hrequired required rfl]
  have hplace : (eqIgnoreAsciiCase host sshGitHub && port.any fun port => port ≠ "443".toList) = false ∧
      (requiredUser.isNone && eqIgnoreAsciiCase host sshGitHub) = false := by
    by_cases hlower : toAsciiLowercase host = sshGitHub
    · obtain ⟨hsome, hports⟩ := hssh hlower
      refine ⟨?_, by simp [Option.isNone_eq_false_iff.mpr hsome]⟩
      cases port with
      | none => simp
      | some digits => simp [hports digits rfl]
    · rw [← eqIgnoreAsciiCase_sshGitHub, Bool.not_eq_true] at hlower
      simp [hlower]
  rw [parseUrlRemote_of_split (splitOnce_append hauthority) (splitUser_userText hafter)
    (splitPort_portText hport (h.not_mem (by simp))), huser, hok, hplace.1, hplace.2]
  simp [hpath, h.ne_nil]

theorem splitUser_sound {authority : List Char} (h : splitUser authority = (user, path)) :
    authority = userText user ++ path := by
  unfold splitUser at h
  split at h
  · next before after hsplit =>
    cases h
    simp [(rsplitOnce_eq_some.mp hsplit).1, userText]
  · cases h
    rfl

theorem splitPort_sound {hostAndPort : List Char} (h : splitPort hostAndPort = (host, port)) :
    hostAndPort = host ++ portText port := by
  unfold splitPort at h
  split at h
  · next before after hsplit =>
    cases h
    exact (rsplitOnce_eq_some.mp hsplit).1
  · cases h
    simp [portText]

theorem parseUrlRemote_sound {remote : List Char} {requiredUser : Option (List Char)}
    (h : parseUrlRemote remote requiredUser = .ok (host, path)) :
    ∃ user port, remote = userText user ++ (host ++ portText port) ++ '/' :: path ∧ (∀ u ∈ user, '/' ∉ u) ∧
      (∀ required ∈ requiredUser, user = some required) ∧ (∀ p ∈ port, p ≠ [] ∧ p.all isAsciiDigit) ∧
      SshOnly requiredUser port host := by
  cases hsplit : splitOnce '/' remote with
  | none =>
    rw [parseUrlRemote, hsplit] at h
    cases h
  | some parts =>
    obtain ⟨authority, rest⟩ := parts
    rcases huser : splitUser authority with ⟨user, hostAndPort⟩
    rcases hport : splitPort hostAndPort with ⟨name, port⟩
    obtain ⟨rfl, hslash⟩ := splitOnce_eq_some.mp hsplit
    rw [parseUrlRemote_of_split hsplit huser hport] at h
    rw [splitUser_sound huser, splitPort_sound hport] at hslash ⊢
    split at h
    · cases h
    split at h
    · cases h
    next hrequired =>
    split at h
    · cases h
    next hdigits =>
    split at h
    · cases h
    next hports =>
    split at h
    · cases h
    next hsome =>
    cases h
    refine ⟨user, port, rfl, ?_, ?_, ?_, fun hlower => ?_⟩
    · rintro u hu hmem
      cases hu
      exact hslash (by simp [userText, hmem])
    · rintro required hmem
      cases hmem
      simpa using hrequired
    · rintro p hp
      cases hp
      simp only [Option.any_some, Bool.or_eq_true, decide_eq_true_eq, not_or, Bool.not_eq_true'] at hdigits
      exact ⟨hdigits.2.1, by simpa using hdigits.2.2⟩
    · rw [eqIgnoreAsciiCase_sshGitHub.mpr hlower] at hports hsome
      refine ⟨by simpa [Option.isSome_iff_ne_none] using hsome, ?_⟩
      rintro p hp
      cases hp
      simpa using hports

theorem parseScpRemote_sound {remote : List Char} (h : parseScpRemote remote = .ok (host, path)) :
    remote = "git@".toList ++ host ++ ':' :: path ∧ toAsciiLowercase host ≠ sshGitHub := by
  unfold parseScpRemote at h
  split at h
  · cases h
  · next authority rest hsplit =>
    obtain ⟨rfl, -⟩ := splitOnce_eq_some.mp hsplit
    split at h
    · cases h
    · next user name hname =>
      obtain ⟨rfl, -⟩ := splitOnce_eq_some.mp hname
      split at h
      · cases h
      next hgit =>
      split at h
      · cases h
      next hssh =>
      cases h
      simp only [Bool.or_eq_true, decide_eq_true_eq, not_or, not_not] at hgit
      obtain ⟨⟨rfl, -⟩, -⟩ := hgit
      exact ⟨by simp, fun hlower => hssh (eqIgnoreAsciiCase_sshGitHub.mpr hlower)⟩

theorem parseScpRemote_spelled (h : IsHost provider host) (hssh : toAsciiLowercase host ≠ sshGitHub)
    (hpath : path ≠ []) :
    parseScpRemote ("git@".toList ++ host ++ ':' :: path) = .ok (host, path) := by
  have hauthority : ':' ∉ "git@".toList ++ host := by
    simp only [List.mem_append, not_or]
    exact ⟨by decide, h.not_mem (by simp)⟩
  have hat : splitOnce '@' ("git@".toList ++ host) = some ("git".toList, host) :=
    @splitOnce_append '@' "git".toList host (by decide)
  unfold parseScpRemote
  rw [splitOnce_append hauthority]
  dsimp only
  rw [hat]
  have hne : eqIgnoreAsciiCase host sshGitHub = false :=
    Bool.eq_false_iff.mpr (mt eqIgnoreAsciiCase_sshGitHub.mp hssh)
  simp [h.ne_nil, hne, hpath]

end

theorem IsEnding.clean {ending : List Char} (h : IsEnding ending) : Clean ending := by
  obtain ⟨n, rfl | rfl⟩ := h
  · intro c hc
    obtain rfl := (List.mem_replicate.mp hc).2
    decide
  · rw [clean_append]
    refine ⟨by simp, fun c hc => ?_⟩
    obtain rfl := (List.mem_replicate.mp hc).2
    decide

theorem IsHost.clean {provider : RepositoryProvider} {host : List Char} (h : IsHost provider host) : Clean host :=
  fun c hc => (h.plain c hc).2.2.2

theorem clean_portText {port : Option (List Char)} (hport : ∀ p ∈ port, p ≠ [] ∧ p.all isAsciiDigit) :
    Clean (portText port) := by
  rintro c hc
  refine ⟨?_, ?_⟩
  · rintro rfl
    exact not_mem_portText hport (by decide) (by decide) hc
  · rintro rfl
    exact not_mem_portText hport (by decide) (by decide) hc

theorem clean_userText {user : Option (List Char)} (huser : ∀ u ∈ user, '/' ∉ u ∧ Clean u) :
    Clean (userText user) := by
  cases user with
  | none => simp [userText]
  | some u => simp [userText, (huser u rfl).2]

variable {r : RepositoryRef} {segments : List (List Char)}

theorem RepositoryRef.path_append_ne_nil (r : RepositoryRef) (ending : List Char) : r.path ++ ending ≠ [] := by
  simp [RepositoryRef.path]

theorem Parsed.host_eq (h : Parsed r segments) : r.host = r.provider.host := by
  rw [h.ref]
  rfl

theorem Parsed.isHost (h : Parsed r segments) {host : List Char} (hhost : toAsciiLowercase host = r.host.toList) :
    IsHost r.provider host := by
  refine isHost_of_lower (mem_hostNames.mpr (.inl ?_))
  rw [hhost, h.host_eq]

theorem Parsed.ne_sshGitHub (h : Parsed r segments) {host : List Char} (hhost : toAsciiLowercase host = r.host.toList) :
    toAsciiLowercase host ≠ sshGitHub := by
  rw [hhost, h.host_eq]
  cases r.provider <;> decide

/-- Both spellings over ssh have the user that is required. -/
theorem Parsed.transport_ssh (h : Parsed r segments) {port : Option (List Char)} {host ending : List Char}
    (hhost : IsHost r.provider host) (hending : IsEnding ending)
    (hport : ∀ p ∈ port, p ≠ [] ∧ p.all isAsciiDigit) (hssh : SshOnly (some "git".toList) port host) :
    Clean ("ssh://".toList ++ ("git@".toList ++ (host ++ portText port) ++ '/' :: (r.path ++ ending))) ∧
      transport ("ssh://".toList ++ ("git@".toList ++ (host ++ portText port) ++ '/' :: (r.path ++ ending))) =
        .ok (host, r.path ++ ending) := by
  have hclean : Clean r.path := h.path_eq ▸ clean_joined.mpr h.clean
  refine ⟨by simp [hhost.clean, clean_portText hport, hclean, hending.clean], ?_⟩
  have hno : stripPrefix "https://".toList ("ssh://".toList ++ ("git@".toList ++ (host ++ portText port) ++
      '/' :: (r.path ++ ending))) = none := by
    simp [stripPrefix, List.isPrefixOf]
  rw [transport, hno, stripPrefix_append]
  exact @parseUrlRemote_spelled _ (some "git".toList) _ _ _ _ (by simp) (by simp) hport hhost hssh
    (r.path_append_ne_nil ending)

theorem Parsed.transport_spelling (h : Parsed r segments) {text : List Char} (hs : r.Spelling text) :
    Clean text ∧ text ≠ [] ∧ ∃ host ending, IsHost r.provider host ∧ IsEnding ending ∧
      transport text = .ok (host, r.path ++ ending) := by
  have hclean : Clean r.path := h.path_eq ▸ clean_joined.mpr h.clean
  cases hs with
  | @https user port host ending huser hport hhost hending =>
    have hisHost := h.isHost hhost
    refine ⟨?_, by simp, host, ending, hisHost, hending, ?_⟩
    · simp [clean_userText huser, hisHost.clean, clean_portText hport, hclean, hending.clean]
    · rw [transport, stripPrefix_append]
      exact parseUrlRemote_spelled (by simp) (fun u hu => (huser u hu).1) hport hisHost
        (fun hlower => absurd hlower (h.ne_sshGitHub hhost)) (r.path_append_ne_nil ending)
  | @ssh port host ending hport hhost hending =>
    obtain ⟨hclean, htransport⟩ := h.transport_ssh (h.isHost hhost) hending hport
      fun hlower => absurd hlower (h.ne_sshGitHub hhost)
    exact ⟨hclean, by simp, host, ending, h.isHost hhost, hending, htransport⟩
  | @scp host ending hhost hending =>
    have hisHost := h.isHost hhost
    refine ⟨?_, by simp, host, ending, hisHost, hending, ?_⟩
    · simp [hisHost.clean, hclean, hending.clean]
    · have hno : ∀ scheme ∈ ["https://".toList, "ssh://".toList],
          stripPrefix scheme ("git@".toList ++ host ++ ':' :: (r.path ++ ending)) = none := by
        simp [stripPrefix]
      rw [transport, hno _ (by simp), hno _ (by simp)]
      exact parseScpRemote_spelled hisHost (h.ne_sshGitHub hhost) (r.path_append_ne_nil ending)
  | @sshGitHub port host ending hprovider hport hhost hending =>
    have hisHost : IsHost r.provider host := isHost_of_lower (mem_hostNames.mpr (.inr ⟨hprovider, hhost⟩))
    have hdigits : ∀ p ∈ port, p ≠ [] ∧ p.all isAsciiDigit := by
      intro p hp
      rw [hport p hp]
      decide
    obtain ⟨hclean, htransport⟩ := h.transport_ssh hisHost hending hdigits fun _ => ⟨rfl, hport⟩
    exact ⟨hclean, by simp, host, ending, hisHost, hending, htransport⟩

theorem Parsed.parse_spelling (h : Parsed r segments) {text : List Char} (hs : r.Spelling text) :
    parseRepositoryRef (String.ofList text) = .ok r := by
  obtain ⟨hclean, hne, host, ending, hhost, hending, htransport⟩ := h.transport_spelling hs
  have hsegments : pathSegments (r.path ++ ending) = segments := by
    rw [h.path_eq]
    exact pathSegments_joined h.accepted hending
  refine parseRepositoryRef_eq_ok.mpr ⟨by simpa using hclean, by simpa using hne, host, r.path ++ ending, ?_,
    hhost.supported, ?_, ?_⟩
  · simpa using htransport
  · rw [hsegments]
    exact h.accepted
  · rw [hsegments]
    exact h.ref

/-! ## Every accepted remote is a spelling -/

/-- The transport, the host and the path of a remote make a spelling. -/
theorem spelling_of_transport {text host ending : List Char} (hclean : Clean text)
    (h : transport text = .ok (host, r.path ++ ending)) (hhost : (r.provider, toAsciiLowercase host) ∈ hostNames)
    (hr : r.host = r.provider.host) (hending : IsEnding ending) : r.Spelling text := by
  rw [mem_hostNames, ← hr] at hhost
  unfold transport at h
  split at h
  · next remainder hremainder =>
    obtain rfl := stripPrefix_eq_some.mp hremainder
    obtain ⟨user, port, rfl, huser, -, hport, hssh⟩ := parseUrlRemote_sound h
    simp only [clean_append] at hclean
    have husers : ∀ u ∈ user, '/' ∉ u ∧ Clean u := by
      rintro u hu
      refine ⟨huser u hu, ?_⟩
      cases hu
      exact (clean_append.mp hclean.2.1.1).1
    rcases hhost with hhost | ⟨-, hlower⟩
    · exact .https husers hport hhost hending
    · cases (hssh hlower).1
  · split at h
    · next remainder hremainder =>
      obtain rfl := stripPrefix_eq_some.mp hremainder
      obtain ⟨user, port, rfl, -, hrequired, hport, hssh⟩ := parseUrlRemote_sound h
      obtain rfl := hrequired _ rfl
      rcases hhost with hhost | ⟨hprovider, hlower⟩
      · exact .ssh hport hhost hending
      · exact .sshGitHub hprovider (hssh hlower).2 hlower hending
    · obtain ⟨rfl, hne⟩ := parseScpRemote_sound h
      rcases hhost with hhost | ⟨-, hlower⟩
      · exact .scp hhost hending
      · exact absurd hlower hne

theorem transport_path {text host path : List Char} (h : transport text = .ok (host, path)) : path ⊆ text := by
  have hsub : ∀ {before : List Char} {c : Char}, path ⊆ before ++ c :: path :=
    fun hd => List.mem_append_right _ (List.mem_cons_of_mem _ hd)
  unfold transport at h
  split at h
  · next remainder hremainder =>
    obtain rfl := stripPrefix_eq_some.mp hremainder
    obtain ⟨user, port, rfl, -⟩ := parseUrlRemote_sound h
    exact List.Subset.trans hsub (List.subset_append_right _ _)
  · split at h
    · next remainder hremainder =>
      obtain rfl := stripPrefix_eq_some.mp hremainder
      obtain ⟨user, port, rfl, -⟩ := parseUrlRemote_sound h
      exact List.Subset.trans hsub (List.subset_append_right _ _)
    · rw [(parseScpRemote_sound h).1]
      exact hsub

/-- What the parser accepts is a spelling of what it returns. -/
theorem parsed_of_parse {remote : String} (h : parseRepositoryRef remote = .ok r) :
    (∃ segments, Parsed r segments) ∧ r.Spelling remote.toList := by
  obtain ⟨hclean, -, host, path, htransport, hhost, haccepted, hr⟩ := parseRepositoryRef_eq_ok.mp h
  obtain ⟨ending, hending, hpath⟩ := exists_ending path
  have hparsed : Parsed r (pathSegments path) := by
    refine ⟨haccepted, hr, clean_joined.mp fun c hc => hclean c (transport_path htransport ?_)⟩
    rw [hpath]
    exact List.mem_append_left _ hc
  have htext : transport remote.toList = .ok (host, r.path ++ ending) := by
    rw [hparsed.path_eq, ← hpath]
    exact htransport
  exact ⟨⟨_, hparsed⟩,
    spelling_of_transport hclean htext (supportedHost_iff.mp hhost) hparsed.host_eq hending⟩

end FlashyFactory
