/-
What can go wrong while a repository is asked about, how it is worded, and what a caller may do about it.
-/
import HostedGit.Archive.Extract
import HostedGit.Config
import HostedGit.Json.Basic
import HostedGit.Locator
import HostedGit.Status

namespace HostedGit

/-- Why an operation failed. A `step` says what was being done, as in "list refs". -/
inductive Error where
  /-- The text names no repository. -/
  | urlParse (cause : LocatorError)
  /-- No provider takes the URL. -/
  | unsupportedUrl (shown : String)
  /-- The base URL has no place for a resource. -/
  | endpointBuild (endpoint : String) (cause : UrlError)
  /-- The remote wants other credentials. -/
  | authenticationFailure (step : String)
  /-- The remote knows no such repository. -/
  | repositoryNotFound (step : String)
  /-- The remote does not list the reference. -/
  | referenceNotFound (name : String)
  /-- The remote answered with a status that carries nothing. -/
  | unexpectedStatus (step : String) (status : Nat)
  /-- The exchange with the remote broke. -/
  | transport (step : String) (cause : String)
  /-- The caller gave up. -/
  | cancelled
  /-- The caller's time ran out. -/
  | timeout (step : String)
  /-- The remote's answer is not the document that was expected. -/
  | decode (what : String) (cause : Json.Error)
  /-- The remote lacks something that is needed to go on. -/
  | incompleteData (detail : String)
  /-- The machine's own storage failed. -/
  | io (step : String) (cause : String)
  /-- The archive that was downloaded cannot be unpacked. -/
  | extraction (cause : ExtractError)
  /-- No requests can be made with these settings. -/
  | clientBuild
  /-- The settings are refused. -/
  | config (cause : ConfigError)
  deriving DecidableEq, Repr

/-- What a caller may do about an error: mend the URL or the settings, mend the credentials, pick
something that exists, try again, and so on. -/
inductive ErrorKind where
  | invalidUrl
  | authentication
  | notFound
  | remote
  | malformedResponse
  | incompleteData
  | io
  deriving DecidableEq, Repr

namespace Error

/-- The error that a status without content stands for. 203 is how a private organization answers those
it does not know. -/
def ofStatus (step : String) (status : Nat) : Error :=
  if status = 404 then repositoryNotFound step
  else if status = 401 ∨ status = 203 then authenticationFailure step
  else unexpectedStatus step status

/-- How an error is worded. -/
def message : Error → String
  | urlParse cause => "Failed to parse repository URL: " ++ cause.message
  | unsupportedUrl shown => "No provider is able to handle repository URL '" ++ shown ++ "'"
  | endpointBuild endpoint cause => "Failed to build " ++ endpoint ++ " URL: " ++ cause.message
  | authenticationFailure step => "Authentication failed while trying to " ++ step
  | repositoryNotFound step =>
    "Repository not found or repository URL is incorrect (while trying to " ++ step ++ ")"
  | referenceNotFound name => "Reference '" ++ name ++ "' was not found on the remote"
  | unexpectedStatus step status =>
    "Failed to " ++ step ++ " with a status \"" ++ Status.text status ++ "\""
  | transport step cause => "Failed to " ++ step ++ ": " ++ cause
  | cancelled => "Operation cancelled"
  | timeout step => "Operation timed out while trying to " ++ step
  | decode what cause => "Could not parse " ++ what ++ " response: " ++ cause.message
  | incompleteData detail => "Incomplete data from remote: " ++ detail
  | io step cause => "I/O error while trying to " ++ step ++ ": " ++ cause
  | extraction cause => "Failed to extract archive: " ++ cause.message
  | clientBuild => "Failed to build HTTP client: builder error"
  | config cause => "Invalid configuration: " ++ cause.message

/-- The kind of an error. -/
def kind : Error → ErrorKind
  | urlParse _ | unsupportedUrl _ | endpointBuild _ _ | clientBuild | config _ => .invalidUrl
  | authenticationFailure _ => .authentication
  | repositoryNotFound _ | referenceNotFound _ => .notFound
  | unexpectedStatus _ _ | transport _ _ | cancelled | timeout _ => .remote
  | decode _ _ => .malformedResponse
  | incompleteData _ => .incompleteData
  | io _ _ | extraction _ => .io

end Error

end HostedGit
