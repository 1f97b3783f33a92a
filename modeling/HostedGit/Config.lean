/-
Settings of a resolver. `Settings` holds what a caller gives; `Settings.build` checks it, fills in the
defaults and answers a `Config`.
-/
import HostedGit.Time.Duration
import HostedGit.Url.Parser

namespace HostedGit

/-- Settings that every operation of a provider shares. -/
structure Config where
  /-- Whether listings are remembered between calls. -/
  cacheEnabled : Bool
  /-- How long one request may take. -/
  requestTimeout : Duration
  /-- Whether a remote's certificates go unverified. -/
  acceptInvalidCerts : Bool
  /-- Whether proxies named by the environment are used. -/
  useEnvProxy : Bool
  /-- The URL below which the remote's resources lie. -/
  baseUrl : String
  /-- What requests announce themselves as. -/
  userAgent : String
  deriving DecidableEq, Repr

/-- Why settings are refused. -/
inductive ConfigError where
  | zeroTimeout
  | malformedBase (base : String) (cause : UrlError)
  | foreignBase (base : String)
  deriving DecidableEq, Repr

/-- How an error is worded. -/
def ConfigError.message : ConfigError → String
  | zeroTimeout => "Request timeout must be greater than zero."
  | malformedBase base cause => "Invalid base URL '" ++ base ++ "': " ++ cause.message
  | foreignBase base => "Base URL '" ++ base ++ "' must be an absolute http(s) URL."

namespace Config

/-- The settings that nothing else is given for. -/
def default : Config where
  cacheEnabled := true
  requestTimeout := .ofSeconds 300
  acceptInvalidCerts := false
  useEnvProxy := true
  baseUrl := "https://dev.azure.com"
  userAgent := "repofetch/0.1.0"

/-- Whether requests can announce the user agent: a header holds no control octet but the tab. -/
def hasLegalUserAgent (c : Config) : Bool :=
  c.userAgent.toList.all fun c => c = '\t' || (0x20 ≤ c.toNat && c.toNat != 0x7F)

end Config

/-- Settings as they are given; what is missing keeps its default. -/
structure Settings where
  cacheEnabled : Option Bool
  requestTimeout : Option Duration
  acceptInvalidCerts : Option Bool
  useEnvProxy : Option Bool
  baseUrl : Option String
  userAgent : Option String

namespace Settings

/-- Nothing given. -/
def none : Settings := ⟨.none, .none, .none, .none, .none, .none⟩

/-- A base URL without the slashes at its end. -/
def trimSlashes (base : String) : String :=
  .ofList (base.toList.reverse.dropWhile (· = '/')).reverse

/-- Whether requests can be made to a URL. -/
def isReachable (u : Url) : Bool :=
  Scheme.isHttp u.scheme && match u.path with
    | .segments _ => true
    | .whole _ => false

/-- Checks the settings: first the timeout, then the base URL. -/
def build (s : Settings) : Except ConfigError Config := do
  let requestTimeout := s.requestTimeout.getD Config.default.requestTimeout
  if requestTimeout.nanos = 0 then throw .zeroTimeout
  let baseUrl := (s.baseUrl.map trimSlashes).getD Config.default.baseUrl
  match Url.parse baseUrl.toList with
  | .error cause => throw (.malformedBase baseUrl cause)
  | .ok u =>
    if !isReachable u then throw (.foreignBase baseUrl)
    return {
      cacheEnabled := s.cacheEnabled.getD Config.default.cacheEnabled
      requestTimeout
      acceptInvalidCerts := s.acceptInvalidCerts.getD Config.default.acceptInvalidCerts
      useEnvProxy := s.useEnvProxy.getD Config.default.useEnvProxy
      baseUrl
      userAgent := s.userAgent.getD Config.default.userAgent }

end Settings

end HostedGit
