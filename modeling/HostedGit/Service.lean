/-
The provider that asks a hosting service through its Git REST API. What the service lists is remembered
in the cache as it was listed; a listing is narrowed only in the answer.
-/
import HostedGit.Client
import HostedGit.Endpoint
import HostedGit.PathFilter

namespace HostedGit

/-- What unpacks an archive: it gets the archive's name and content, and a destination. -/
abbrev Extractor := String → Option Octets → String → Extract.Attempt Nat

/-- A hosting service as calls use it. -/
structure Service where
  client : Client
  /-- The URL below which the service's resources lie. -/
  baseUrl : String
  extractor : Extractor
  /-- Whether transfers are told of. -/
  isTold : Bool

namespace Service

/-- Changes the cache. -/
def remember (f : Cache → Cache) : Action Session Unit :=
  modify fun s => { s with cache := f s.cache }

/-- The service of a configuration, which starts with nothing remembered. -/
def ofConfig (c : Config) (extractor : Extractor) (isTold : Bool) : Action Session Service := do
  let client ← Client.ofConfig c
  remember fun _ => .empty c.cacheEnabled
  return ⟨client, c.baseUrl, extractor, isTold⟩

/-! ## Resources -/

/-- A repository, and the credentials that it is asked for with. -/
structure Repository where
  locator : Locator
  credentials : Option Credentials

/-- Reads what a call is about. -/
def repository (t : Target) : Action Session Repository :=
  match Locator.parse t.url with
  | .ok l => return ⟨l, Credentials.select t.credentials l.embedded⟩
  | .error e => throw (.urlParse e)

/-- The URL of a resource of a repository. -/
def resource (s : Service) (r : Repository) (e : Endpoint) : Action Session Url :=
  match e.url s.baseUrl r.locator with
  | .ok u => return u
  | .error cause => throw (.endpointBuild e.name cause)

/-- Asks which references there are. -/
def fetchRefs (s : Service) (ctx : CallContext) (r : Repository) : Action Session (List String) := do
  let u ← s.resource r .refs
  s.client.getDocument ctx u r.credentials "list refs" "Azure refs" Payload.decodeRefs

/-- Asks for the root of a version; without a commit it is of no use. -/
def fetchRoot (s : Service) (ctx : CallContext) (r : Repository) (reference : String) :
    Action Session Payload.RootItem := do
  let u ← s.resource r (.rootItem reference)
  let items ← s.client.getDocument ctx u r.credentials "get repository root item" "Azure items"
    Payload.decodeItems
  match items.head? with
  | some item => if item.commitId.isEmpty then lacking else return item
  | none => lacking
where
  /-- The error for a version without a commit. -/
  lacking : Action Session Payload.RootItem :=
    throw (.incompleteData ("failed to get latest commit ID of '" ++ r.locator.repository ++ "' at '" ++
      reference ++ "'"))

/-- Asks which paths there are below a tree. -/
def fetchTree (s : Service) (ctx : CallContext) (r : Repository) (objectId : String) :
    Action Session (List String) := do
  let u ← s.resource r (.tree objectId)
  s.client.getDocument ctx u r.credentials "list tree" "Azure tree" Payload.decodeTree

/-! ## References and trees -/

/-- Asks which references there are, and remembers them. -/
def refreshRefs (s : Service) (ctx : CallContext) (r : Repository) (url : String) :
    Action Session (List String) := do
  let names ← s.fetchRefs ctx r
  Action.log .debug (redact url ++ " lists " ++ toString names.length ++ " references")
  remember (·.setRefs url names)
  return names

/-- The references of a repository: the remembered ones, or those that are there now. -/
def knownRefs (s : Service) (ctx : CallContext) (r : Repository) (url : String) :
    Action Session (List String) := do
  match (← getThe Session).cache.getRefs url with
  | some names =>
    Action.log .debug ("Reference cache hit for " ++ redact url)
    return names
  | none => s.refreshRefs ctx r url

/-- Which references there are. -/
def listRemote (s : Service) (ctx : CallContext) (t : Target) : Action Session (List String) := do
  let r ← repository t
  s.refreshRefs ctx r t.url

/-- All paths of a version, which are then remembered. The reference has to be one that is listed. -/
def fetchPaths (s : Service) (ctx : CallContext) (r : Repository) (t : Target) :
    Action Session (List String) := do
  let names ← s.knownRefs ctx r t.url
  if !names.contains t.reference then throw (.referenceNotFound t.reference)
  let root ← s.fetchRoot ctx r t.reference
  let paths ← s.fetchTree ctx r root.objectId
  Action.log .debug
    (redact t.url ++ " at '" ++ t.reference ++ "' has " ++ toString paths.length ++ " tree entries")
  remember (·.setTree t.url t.reference paths)
  return paths

/-- The paths of a version that end in one of the extensions. -/
def listTree (s : Service) (ctx : CallContext) (t : Target) (extensions : List String) :
    Action Session (List String) := do
  let r ← repository t
  match (← getThe Session).cache.getTree t.url t.reference with
  | some paths =>
    Action.log .debug ("Tree cache hit for " ++ redact t.url ++ " at '" ++ t.reference ++ "'")
    return PathFilter.select extensions paths
  | none => return PathFilter.select extensions (← s.fetchPaths ctx r t)

/-- The commit that a reference points at. -/
def latestCommit (s : Service) (ctx : CallContext) (t : Target) : Action Session String := do
  let r ← repository t
  let item ← s.fetchRoot ctx r t.reference
  Action.log .debug (redact t.url ++ " at '" ++ t.reference ++ "' is " ++ item.commitId)
  return item.commitId

/-- Forgets what is remembered of a version and the references of its repository. -/
def removeCache (t : Target) : Action Session Unit := do
  remember (·.invalidate t.url t.reference)
  Action.log .debug
    ("Evicted cached refs and tree for " ++ redact t.url ++ " at '" ++ t.reference ++ "'")

/-! ## Downloads -/

/-- Tells something of a transfer, if transfers are told of. -/
def tell (s : Service) (e : ProgressEvent) : Action Session Unit :=
  if s.isTold then Session.tell e else return

/-- A step that local storage may fail at. -/
def store (step : String) (failure : Storage → Option String) : Action Session Unit := do
  match failure (← getThe Session).storage with
  | none => return
  | some cause => throw (.io step cause)

/-- Puts octets behind those of the temporary archive. -/
def append (octets : Octets) : Action Session Unit := do
  let there := (← getThe Session).archive.getD []
  store "save HTTP response to a file" (·.write there octets)
  modify fun s => { s with archive := some (there ++ octets) }

/-- Puts the temporary archive down for good. -/
def flush : Action Session Unit := do
  let there := (← getThe Session).archive.getD []
  store "save HTTP response to a file" (·.flush there)

/-- The size of the temporary archive. -/
def archiveSize : Action Session Nat := do
  return ((← getThe Session).archive.getD []).length

/-- Fetches a version into the temporary archive. -/
def fetchArchive (s : Service) (ctx : CallContext) (r : Repository) (reference : String) :
    Action Session Unit := do
  let step := "download zip"
  let u ← s.resource r (.download reference)
  let response ← s.client.get ctx u r.credentials step
  if let some n := response.reply.length then s.tell (.length n)
  s.tell (.message ("Downloading " ++ r.locator.repository ++ "..."))
  let body := response.reply.body
  Client.forPieces ctx step response.limit body.ending
    (fun piece => do
      append piece
      s.tell (.position (← archiveSize)))
    body.pieces
  flush
  s.tell (.finished ("Downloaded " ++ r.locator.repository))

/-- Unpacks the temporary archive. -/
def unpack (s : Service) (destination : String) : Action Session Unit := do
  let session ← getThe Session
  let (result, files) := (s.extractor session.archiveName session.archive destination).run.run session.files
  set { session with files }
  match result with
  | .ok count =>
    Action.log .debug ("Extracted " ++ toString count ++ " entries into " ++ destination)
  | .error e => throw (.extraction e)

/-- Does something with a temporary archive, which is gone afterwards in any case. -/
def withArchive (act : Action Session Unit) : Action Session Unit := fun s =>
  let (result, s) := act { s with archive := some [] }
  (result, { s with archive := none })

/-- Puts the content of a version into a directory. -/
def download (s : Service) (ctx : CallContext) (t : Target) (destination : String) :
    Action Session Unit := do
  let r ← repository t
  Session.check ctx "download zip"
  store "create temp file" (·.make)
  withArchive do
    store "open temp file" (·.reopen)
    s.fetchArchive ctx r t.reference
    Action.log .debug ("Saved " ++ toString (← archiveSize) ++ " bytes of " ++ redact t.url ++ " to " ++
      (← getThe Session).archiveName)
    Session.check ctx "extract zip"
    s.unpack destination
    Action.log .info
      ("Downloaded " ++ r.locator.repository ++ " at '" ++ t.reference ++ "' into " ++ destination)

/-! ## The provider -/

/-- Answers a call. -/
def perform (s : Service) (ctx : CallContext) : (call : Call) → Action Session call.Answer
  | .listRemote t => s.listRemote ctx t
  | .listTree t extensions => s.listTree ctx t extensions
  | .latestCommit t => s.latestCommit ctx t
  | .download t destination => s.download ctx t destination
  | .removeCache t => removeCache t

/-- A service as a provider of the repositories whose URLs look like its own. -/
def toProvider (s : Service) : Provider Session where
  name := "azure"
  handles := Locator.looksHosted
  perform call ctx := s.perform ctx call

end Service

end HostedGit
