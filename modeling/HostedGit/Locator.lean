/-
Repository URLs of Azure DevOps and what they name. Four shapes are read:

    https://dev.azure.com/org/proj/_git/repo
    https://org.visualstudio.com/proj/_git/repo
    git@ssh.dev.azure.com:v3/org/proj/repo
    ssh://git@ssh.dev.azure.com:v3/org/proj/repo

Reading is positional: any other number of segments is refused. What a URL escapes is unescaped once;
the texts of the SSH shapes are taken as they are.
-/
import HostedGit.Credentials
import HostedGit.Redaction
import HostedGit.Url.Parser

namespace HostedGit

/-- The coordinates of a repository, and the credentials that its URL carries. -/
structure Locator where
  organization : String
  project : String
  repository : String
  embedded : Credentials
  deriving DecidableEq, Repr

/-- Why a text names no repository. URLs are held as they may be shown. -/
inductive LocatorError where
  | unsupportedScheme (shown : String)
  | noSshShape (shown : String)
  | malformed (shown : String) (cause : UrlError)
  | noOrganizationPath (shown : String)
  | noOrganizationHost (shown : String)
  | unknownHost (shown : String)
  deriving DecidableEq, Repr

/-- How an error is worded. -/
def LocatorError.message : LocatorError → String
  | unsupportedScheme shown =>
    "supported url schemes are https and ssh; received URL '" ++ shown ++ "'"
  | noSshShape shown =>
    "want url git@ssh.dev.azure.com:v3/Organisation/Project/Repository, got " ++ shown
  | malformed shown cause => "failed to parse HTTP url '" ++ shown ++ "': " ++ cause.message
  | noOrganizationPath shown =>
    "want url https://Organisation@dev.azure.com/Organisation/Project/_git/Repository, got " ++ shown
  | noOrganizationHost shown =>
    "want url https://organisation.visualstudio.com/project/_git/repository, got " ++ shown
  | unknownHost shown => "unknown azure host in url \"" ++ shown ++ "\""

namespace Locator

/-- The host that serves all organizations. -/
def sharedHost : List Char := "dev.azure.com".toList

/-- What follows the organization in a host of its own. -/
def ownHostEnding : List Char := ".visualstudio.com".toList

/-- Whether a text looks like a repository URL of Azure DevOps: it mentions one of the hosts. -/
def looksHosted (url : String) : Bool :=
  Text.occursIn sharedHost url.toList || Text.occursIn ownHostEnding url.toList

/-! ## SSH -/

/-- Whether a text is `user@ssh.host:v3`. -/
def isSshPlace (cs : List Char) : Bool :=
  match Text.cut? '@' cs with
  | none => false
  | some (user, place) =>
    match ("ssh.".toList.isPrefixOf? place).bind (Text.cut? ':') with
    | none => false
    | some (host, version) =>
      !user.isEmpty && !user.contains ':' && !host.isEmpty && version = "v3".toList

/-- Reads `user@ssh.host:v3/organization/project/repository`. -/
def ofSsh? (cs : List Char) : Option Locator :=
  match cs.splitOn '/' with
  | [place, organization, project, repository] =>
    if isSshPlace place && !organization.isEmpty && !project.isEmpty && !repository.isEmpty then
      some ⟨.ofList organization, .ofList project, .ofList repository, .blank⟩
    else none
  | _ => none

/-! ## HTTP -/

/-- The text that an escaped part of a URL stands for. -/
def unescape (cs : List Char) : String := .ofList (Percent.decode cs)

/-- The credentials in a URL. -/
def embeddedIn (u : Url) : Credentials :=
  match u.authority with
  | some a => ⟨unescape a.username, unescape a.password⟩
  | none => .blank

/-- The host of a URL; empty where it has none. -/
def hostOf (u : Url) : List Char := (u.authority.map (·.host)).getD []

/-- The segment between a project and its repository. -/
def marker : List Char := "_git".toList

/-- The coordinates that a URL gives, unless one of them is empty. -/
def ofParts? (u : Url) (organization project repository : List Char) : Option Locator :=
  if organization.isEmpty || project.isEmpty || repository.isEmpty then none
  else some ⟨unescape organization, unescape project, unescape repository, embeddedIn u⟩

/-- Reads the path below the host that serves all organizations. -/
def ofSharedHost? (u : Url) : Option Locator :=
  match u.segments with
  | [organization, project, git, repository] =>
    if git = marker then ofParts? u organization project repository else none
  | _ => none

/-- Reads the path below an organization's own host. -/
def ofOwnHost? (u : Url) (organization : List Char) : Option Locator :=
  match u.segments with
  | [project, git, repository] =>
    if git = marker then ofParts? u organization project repository else none
  | _ => none

/-- Reads the coordinates off a URL. -/
def ofUrl (shown : String) (u : Url) : Except LocatorError Locator :=
  if hostOf u = sharedHost then
    match ofSharedHost? u with
    | some l => .ok l
    | none => .error (.noOrganizationPath shown)
  else
    match Text.beforeEnding? ownHostEnding (hostOf u) with
    | some organization =>
      match ofOwnHost? u organization with
      | some l => .ok l
      | none => .error (.noOrganizationHost shown)
    | none => .error (.unknownHost shown)

/-! ## All shapes -/

/-- Reads a repository URL over HTTP. -/
def parseHttp (url : String) : Except LocatorError Locator :=
  match Url.parse url.toList with
  | .ok u => ofUrl (redact url) u
  | .error cause => .error (.malformed (redact url) cause)

/-- Reads a repository URL over SSH, given also without its scheme. -/
def parseSsh (url : String) (place : List Char) : Except LocatorError Locator :=
  match ofSsh? place with
  | some l => .ok l
  | none => .error (.noSshShape (redact url))

/-- Reads a repository URL. -/
def parse (url : String) : Except LocatorError Locator :=
  let cs := url.toList
  if "https://".toList.isPrefixOf cs || "http://".toList.isPrefixOf cs then parseHttp url
  else if "git@ssh".toList.isPrefixOf cs then parseSsh url cs
  else
    match "ssh://".toList.isPrefixOf? cs with
    | some place => parseSsh url place
    | none => .error (.unsupportedScheme (redact url))

end Locator

end HostedGit
