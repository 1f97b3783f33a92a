/-
What a provider works on: the time, a remote, the requests that were made to it and the documents that
came of them, a cache, the files of the machine, and what is told on the way. `await` is the one way in
which time passes and the remote is asked.
-/
import HostedGit.Cache
import HostedGit.FileTree
import HostedGit.Provider
import HostedGit.Remote

namespace HostedGit

/-- What is told of a transfer. -/
inductive ProgressEvent where
  | length (octets : Nat)
  | message (text : String)
  | position (octets : Nat)
  | finished (text : String)
  deriving DecidableEq, Repr

/-- A document that came in full: what was being done, and the status and the octets that it came with. -/
structure Document where
  step : String
  status : Nat
  body : Octets
  deriving DecidableEq, Repr

/-- How the machine keeps a temporary archive: why it does not make one, open it again, put more octets behind
those that are there, or put them down for good, where it does not. -/
structure Storage where
  make : Option String
  reopen : Option String
  write : (there more : Octets) → Option String
  flush : (there : Octets) → Option String

/-- Storage that does not fail. -/
def Storage.reliable : Storage := ⟨none, none, fun _ _ => none, fun _ => none⟩

/-- The state of everything that calls touch. -/
structure Session where
  timeline : Timeline
  remote : Remote
  /-- The requests that were made, the first one first. -/
  requests : List Request
  /-- The documents that came in full, the first one first. -/
  documents : List Document
  cache : Cache
  files : FileTree
  storage : Storage
  /-- The content of the temporary archive, while there is one. -/
  archive : Option Octets
  /-- What the temporary archive is called. -/
  archiveName : String
  log : List LogRecord
  progress : List ProgressEvent

namespace Session

/-- Nothing asked, remembered or told, and storage that does not fail. -/
def start (remote : Remote) (files : FileTree) (archiveName : String) : Session where
  timeline := .start
  remote
  requests := []
  documents := []
  cache := .empty true
  files
  storage := .reliable
  archive := none
  archiveName
  log := []
  progress := []

instance : Journal Session where
  add r s := { s with log := s.log ++ [r] }

/-- Tells something of a transfer. -/
def tell (e : ProgressEvent) : Action Session Unit :=
  modify fun s => { s with progress := s.progress ++ [e] }

/-- Records a document that has come in full. -/
def receive (d : Document) : Action Session Unit :=
  modify fun s => { s with documents := s.documents ++ [d] }

/-! ## Waiting -/

/-- What a transport failure says. -/
structure Failure where
  step : String
  cause : String

/-- When something that comes is there, and what it is. What is not there by `limit` is given up. -/
def arrival {α : Type} (now limit : Instant) (f : Failure) : Coming α → Arrival (Except Error α)
  | .after delay value =>
    let m := now.after delay
    if m.nanos ≤ limit.nanos then ⟨m, .ok value⟩ else ⟨limit, .error (.transport f.step f.cause)⟩
  | .broken delay => ⟨(now.after delay).earlier limit, .error (.transport f.step f.cause)⟩
  | .never => ⟨limit, .error (.transport f.step f.cause)⟩

/-- Waits under a context for what `start` begins, at most until `limit`. -/
def await {α : Type} (ctx : CallContext) (limit : Instant) (f : Failure)
    (start : Session → Coming α × Session) : Action Session α := fun s =>
  let begin (s : Session) :=
    let (c, s') := start s
    (arrival s.timeline.now limit f c, s')
  let (a, s) := ctx.run s.timeline f.step begin s
  (a.value, { s with timeline := s.timeline.wait a.moment })

/-- Fails if the context is over. -/
def check (ctx : CallContext) (step : String) : Action Session Unit := fun s =>
  (ctx.check s.timeline step, s)

end Session

end HostedGit
