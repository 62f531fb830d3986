import FlashyFactory.Storage.Errors
import Mathlib.Data.List.DropRight

/-! # Repository remotes

`parse_repository_ref` of `repository.rs`, over lists of characters, and the identity of a
repository. -/

namespace FlashyFactory

/-! ## The string functions that the parser uses -/

/-- `str::strip_prefix` -/
def stripPrefix (pre text : List Char) : Option (List Char) :=
  if pre.isPrefixOf text then some (text.drop pre.length) else none

/-- `str::strip_suffix` -/
def stripSuffix (suffix text : List Char) : Option (List Char) :=
  if suffix.isSuffixOf text then some (text.take (text.length - suffix.length)) else none

/-- `str::split_once` -/
def splitOnce (c : Char) (text : List Char) : Option (List Char × List Char) :=
  if c ∈ text then some (text.takeWhile (· ≠ c), (text.dropWhile (· ≠ c)).tail) else none

/-- `str::rsplit_once` -/
def rsplitOnce (c : Char) (text : List Char) : Option (List Char × List Char) :=
  (splitOnce c text.reverse).map fun (after, before) => (before.reverse, after.reverse)

/-- `char::is_ascii_digit` -/
def isAsciiDigit (c : Char) : Bool := '0' ≤ c && c ≤ '9'

/-- `char::to_ascii_lowercase` -/
def asciiLower (c : Char) : Char :=
  if 'A' ≤ c && c ≤ 'Z' then Char.ofNat (c.toNat + 32) else c

/-- `str::to_ascii_lowercase` -/
def toAsciiLowercase (text : List Char) : List Char := text.map asciiLower

/-- `str::eq_ignore_ascii_case` -/
def eqIgnoreAsciiCase (a b : List Char) : Bool := toAsciiLowercase a = toAsciiLowercase b

/-! ## The parser -/

/-- The hosting services that the factory knows. -/
inductive RepositoryProvider
  | gitHub
  | gitLab
deriving DecidableEq, Repr

/-- A repository of a provider. A namespace of GitLab can have several segments. -/
structure RepositoryRef where
  provider : RepositoryProvider
  host : String
  nameSpace : String
  name : String
deriving DecidableEq, Repr

/-- The key of a repository. GitHub has one host, so its identities leave the host out. -/
def RepositoryRef.identity (r : RepositoryRef) : String :=
  String.ofList (toAsciiLowercase (match r.provider with
    | .gitHub => r.nameSpace ++ "/" ++ r.name
    | .gitLab => r.host ++ "/" ++ r.nameSpace ++ "/" ++ r.name).toList)

def supportedRemoteHelp : String :=
  "supported repository remotes are git@github.com:owner/repository.git, " ++
  "https://github.com/owner/repository.git, ssh://git@github.com/owner/repository.git, " ++
  "git@gitlab.com:group/repository.git, https://gitlab.com/group/repository.git, or " ++
  "ssh://git@gitlab.com/group/repository.git"

def malformedRemote : String := "invalid repository remote; " ++ supportedRemoteHelp

/-- The complaint about a host, without user information that may be a secret. -/
def unsupportedHost (host : List Char) : String :=
  let sanitized := match rsplitOnce '@' host with
    | some (_, sanitized) => sanitized
    | none => host
  "unsupported repository host " ++ debugStr (String.ofList sanitized) ++
    "; supported hosts are github.com and gitlab.com; " ++ supportedRemoteHelp

/-- The host that GitHub serves SSH at on port 443. -/
def sshGitHub : List Char := "ssh.github.com".toList

/-- The host and the path of a remote after its scheme. Only SSH requires a user. -/
def parseUrlRemote (remote : List Char) (requiredUser : Option (List Char)) :
    Except String (List Char × List Char) :=
  match splitOnce '/' remote with
  | none => .error malformedRemote
  | some (authority, path) =>
    if authority = [] || path = [] then .error malformedRemote
    else
      let (userInfo, hostAndPort) := match rsplitOnce '@' authority with
        | some (user, host) => (some user, host)
        | none => (none, authority)
      if requiredUser.any fun required => userInfo ≠ some required then .error malformedRemote
      else
        let (host, port) := match rsplitOnce ':' hostAndPort with
          | some (host, port) => (host, some port)
          | none => (hostAndPort, none)
        if host = [] || port.any fun port => port = [] || !port.all isAsciiDigit then
          .error malformedRemote
        else if eqIgnoreAsciiCase host sshGitHub && port.any fun port => port ≠ "443".toList then
          .error (unsupportedHost host)
        else if requiredUser.isNone && eqIgnoreAsciiCase host sshGitHub then
          .error (unsupportedHost host)
        else .ok (host, path)

/-- `git@host:path` -/
def parseScpRemote (remote : List Char) : Except String (List Char × List Char) :=
  match splitOnce ':' remote with
  | none => .error malformedRemote
  | some (authority, path) =>
    match splitOnce '@' authority with
    | none => .error malformedRemote
    | some (user, host) =>
      if user ≠ "git".toList || host = [] || path = [] then .error malformedRemote
      else if eqIgnoreAsciiCase host sshGitHub then .error (unsupportedHost host)
      else .ok (host, path)

/-- The provider behind a host, and the host that its references have. -/
def supportedHost (host : List Char) : Option (RepositoryProvider × String) :=
  let host := toAsciiLowercase host
  if host = "github.com".toList || host = sshGitHub then some (.gitHub, "github.com")
  else if host = "gitlab.com".toList then some (.gitLab, "gitlab.com")
  else none

/-- The segments of a path, without trailing separators and one `.git`. -/
def pathSegments (path : List Char) : List (List Char) :=
  let path := path.rdropWhile (· = '/')
  ((stripSuffix ".git".toList path).getD path).splitOn '/'

/-- A segment that a path could climb with, or that ends in a second `.git`. -/
def badSegment (segment : List Char) : Bool :=
  segment = [] || segment = ['.'] || segment = ['.', '.'] || ".git".toList.isSuffixOf segment

/-- `parse_repository_ref`: a remote in one of the three syntaxes. -/
def parseRepositoryRef (remote : String) : Except String RepositoryRef :=
  let text := remote.toList
  if text = [] || text.any fun c => c = '?' || c = '#' then .error malformedRemote
  else
    let parsed := match stripPrefix "https://".toList text with
      | some remainder => parseUrlRemote remainder none
      | none => match stripPrefix "ssh://".toList text with
        | some remainder => parseUrlRemote remainder (some "git".toList)
        | none => parseScpRemote text
    match parsed with
    | .error e => .error e
    | .ok (transportHost, path) =>
      match supportedHost transportHost with
      | none => .error (unsupportedHost transportHost)
      | some (provider, host) =>
        let segments := pathSegments path
        if segments.any badSegment || provider = .gitLab && segments.contains ['-'] ||
            segments.length < 2 || provider = .gitHub && segments.length ≠ 2 then
          .error malformedRemote
        else .ok {
          provider, host
          nameSpace := String.ofList (['/'].intercalate segments.dropLast)
          name := String.ofList (segments.getLast?.getD []) }

end FlashyFactory
