/-
Requests to a remote: one question at a time, with credentials, within a time limit, following
redirections. An exchange is recorded before it begins, even if its context is over by then.
-/
import HostedGit.Payload
import HostedGit.Session
import HostedGit.Text.Base64

namespace HostedGit

/-- What all requests have in common. -/
structure Client where
  userAgent : String
  requestTimeout : Duration

namespace Client

/-- A client for a configuration. Going without verified certificates is recorded. -/
def ofConfig (c : Config) : Action Session Client := do
  if c.acceptInvalidCerts then Action.log .warn "TLS certificate verification is disabled."
  if !c.hasLegalUserAgent then throw .clientBuild
  return ⟨c.userAgent, c.requestTimeout⟩

/-! ## Authorization -/

/-- The header that shows credentials. -/
def basicAuthorization (c : Credentials) : String :=
  "Basic " ++ String.ofList (Base64.encode (Utf8.encode (c.username ++ ":" ++ c.password).toList))

/-- The credentials within a URL, if there are any. -/
def ownCredentials? (u : Url) : Option Credentials :=
  u.authority.bind fun a =>
    if a.username.isEmpty && a.password.isEmpty then none
    else some ⟨.ofList (Percent.decode a.username), .ofList (Percent.decode a.password)⟩

/-- The header for a URL: credentials within it come first. -/
def authorization? (u : Url) (given : Option Credentials) : Option String :=
  (ownCredentials? u <|> given).map basicAuthorization

/-! ## Exchanges -/

/-- The host and the port that a URL leads to. -/
def origin? (u : Url) : Option (List Char × Option Nat) :=
  u.authority.map fun a => (a.host, a.port <|> Scheme.defaultPort? u.scheme)

/-- Where a reply sends the question, if it does and if the place can be told. -/
def redirection? (u : Url) (r : Reply) : Option Url :=
  if [301, 302, 303, 307, 308].contains r.status then
    r.location.bind fun l => (Url.resolve u l.toList).toOption
  else none

/-- How often a question may be sent on. -/
def mostRedirections : Nat := 10

/-- A URL without the credentials within it. -/
def anonymous (u : Url) : Url :=
  { u with authority := u.authority.map fun a => { a with username := [], password := [] } }

/-- The failure of an exchange. -/
def exchangeFailure (step : String) (u : Url) : Session.Failure :=
  ⟨step, "error sending request for url (" ++ (anonymous u).toString ++ ")"⟩

/-- The failure of a body. -/
def bodyFailure (step : String) : Session.Failure := ⟨step, "error decoding response body"⟩

/-- Begins an exchange: the request is made, if there is anything to make it to. -/
def ask (c : Client) (authorization : Option String) (u : Url) (s : Session) : Coming Reply × Session :=
  if Scheme.isHttp u.scheme && s.remote.reaches u then
    let r : Request := ⟨"GET", .ofList u.target, authorization, c.userAgent⟩
    (s.remote.reply s.requests r, { s with requests := s.requests ++ [r] })
  else (.broken ⟨0⟩, s)

/-- Asks, and follows at most `more` redirections. The authorization is shown only as long as they stay at
one host. -/
def exchange (c : Client) (ctx : CallContext) (step : String) (limit : Instant) (more : Nat)
    (authorization : Option String) (u : Url) : Action Session Reply := do
  let r ← Session.await ctx limit (exchangeFailure step u) (c.ask authorization u)
  match redirection? u r with
  | none => return r
  | some v =>
    match more with
    | 0 => throw (.transport step ("error following redirect for url (" ++ (anonymous u).toString ++ ")"))
    | more + 1 =>
      exchange c ctx step limit more (if origin? u = origin? v then authorization else none) v

/-- A reply that carries what was asked for, and the moment by which its body has to be there. -/
structure Response where
  reply : Reply
  limit : Instant

/-- Asks for a URL. -/
def get (c : Client) (ctx : CallContext) (u : Url) (credentials : Option Credentials) (step : String) :
    Action Session Response := do
  Action.log .debug ("GET " ++ u.toString ++ " (" ++ step ++ ")")
  let limit := (← getThe Session).timeline.now.after c.requestTimeout
  let r ← c.exchange ctx step limit mostRedirections (authorization? u credentials) u
  if Status.isSuccess r.status then return ⟨r, limit⟩
  Action.log .debug (u.toString ++ " answered " ++ Status.text r.status ++ " (" ++ step ++ ")")
  throw (.ofStatus step r.status)

/-! ## Bodies -/

/-- Waits for each piece of a body and for its end, and does something with each piece. -/
def forPieces (ctx : CallContext) (step : String) (limit : Instant) (ending : Coming Unit)
    (act : Octets → Action Session Unit) : List (Duration × Octets) → Action Session Unit
  | [] => Session.await ctx limit (bodyFailure step) fun s => (ending, s)
  | (delay, piece) :: rest => do
    act (← Session.await ctx limit (bodyFailure step) fun s => (.after delay piece, s))
    forPieces ctx step limit ending act rest

/-- Waits for a whole document, which is then recorded. -/
def readBody (ctx : CallContext) (step : String) (r : Response) : Action Session Octets := do
  forPieces ctx step r.limit r.reply.body.ending (fun _ => return) r.reply.body.pieces
  Session.receive ⟨step, r.reply.status, r.reply.body.octets⟩
  return r.reply.body.octets

/-- Asks for a document and reads it; `what` is what messages call it. -/
def getDocument {α : Type} (c : Client) (ctx : CallContext) (u : Url) (credentials : Option Credentials)
    (step what : String) (decode : Octets → Except Json.Error α) : Action Session α := do
  let r ← c.get ctx u credentials step
  let body ← readBody ctx step r
  match decode body with
  | .ok a => return a
  | .error e => throw (.decode what e)

end Client

end HostedGit
