/-
What an exchange leaves alone. A frame is a relation between two states of a session that logging,
waiting and asking keep; then every exchange with the remote keeps it, however it ends. The document
that an exchange may bring is the only other thing that is left behind.
-/
import HostedGit.Client
import HostedGit.Proofs.Action

namespace HostedGit

open HostedGit.Action

/-- A relation that is kept by all that an exchange does to a session. -/
structure Session.Frame (R : Session → Session → Prop) : Prop where
  refl : ∀ s, R s s
  trans : ∀ {a b c}, R a b → R b c → R a c
  log : ∀ (s : Session) r, R s (Journal.add r s)
  wait : ∀ (s : Session) m, R s { s with timeline := s.timeline.wait m }
  ask : ∀ (s : Session) r, R s { s with requests := s.requests ++ [r] }

namespace Session.Frame

variable {R : Session → Session → Prop} {α β : Type}

theorem bind (hR : Frame R) {x : Action Session α} {f : α → Action Session β} (hx : Keeps R x)
    (hf : ∀ a, Keeps R (f a)) : Keeps R (x >>= f) := Keeps.bind (R := R) hR.trans hx hf

/-- Two frames at once. -/
theorem and {S : Session → Session → Prop} (hR : Frame R) (hS : Frame S) :
    Frame fun s s' => R s s' ∧ S s s' where
  refl s := ⟨hR.refl s, hS.refl s⟩
  trans h h' := ⟨hR.trans h.1 h'.1, hS.trans h.2 h'.2⟩
  log s r := ⟨hR.log s r, hS.log s r⟩
  wait s m := ⟨hR.wait s m, hS.wait s m⟩
  ask s r := ⟨hR.ask s r, hS.ask s r⟩

theorem keeps_pure (hR : Frame R) (a : α) : Keeps R (pure a : Action Session α) := hR.refl

theorem keeps_throw (hR : Frame R) (e : Error) : Keeps R (throw e : Action Session α) := hR.refl

theorem keeps_log (hR : Frame R) (level : LogLevel) (text : String) :
    Keeps R (Action.log level text : Action Session Unit) := fun s => hR.log s _

theorem keeps_check (hR : Frame R) (ctx : CallContext) (step : String) : Keeps R (Session.check ctx step) :=
  hR.refl

/-! ## Waiting -/

/-- Waiting keeps what beginning keeps. -/
theorem keeps_await (hR : Frame R) (ctx : CallContext) (limit : Instant) (f : Session.Failure)
    {start : Session → Coming α × Session} (hs : ∀ s, R s (start s).2) :
    Keeps R (Session.await ctx limit f start) := by
  intro s
  unfold Session.await CallContext.run
  dsimp only
  cases ctx.check s.timeline f.step with
  | error e => exact hR.wait s s.timeline.now
  | ok _ => exact hR.trans (hs s) (hR.wait _ _)

theorem keeps_ask (hR : Frame R) (c : Client) (authorization : Option String) (u : Url) (s : Session) :
    R s (c.ask authorization u s).2 := by
  unfold Client.ask
  split
  · exact hR.ask s _
  · exact hR.refl s

/-! ## Exchanges -/

theorem keeps_exchange (hR : Frame R) (c : Client) (ctx : CallContext) (step : String) (limit : Instant)
    (more : Nat) (authorization : Option String) (u : Url) :
    Keeps R (c.exchange ctx step limit more authorization u) := by
  induction more generalizing authorization u with
  | zero =>
    unfold Client.exchange
    refine hR.bind (hR.keeps_await _ _ _ (hR.keeps_ask c _ u)) fun r => ?_
    cases Client.redirection? u r with
    | none => exact hR.keeps_pure r
    | some v => exact hR.keeps_throw _
  | succ more ih =>
    unfold Client.exchange
    refine hR.bind (hR.keeps_await _ _ _ (hR.keeps_ask c _ u)) fun r => ?_
    cases Client.redirection? u r with
    | none => exact hR.keeps_pure r
    | some v => exact ih _ v

theorem keeps_get (hR : Frame R) (c : Client) (ctx : CallContext) (u : Url) (credentials : Option Credentials)
    (step : String) : Keeps R (c.get ctx u credentials step) := by
  unfold Client.get
  refine hR.bind (hR.keeps_log _ _) fun _ => hR.bind hR.refl fun s => ?_
  refine hR.bind (hR.keeps_exchange c _ _ _ _ _ u) fun r => ?_
  split
  · exact hR.keeps_pure _
  · exact hR.bind (hR.keeps_log _ _) fun _ => hR.keeps_throw _

theorem keeps_forPieces (hR : Frame R) (ctx : CallContext) (step : String) (limit : Instant)
    (ending : Coming Unit) {act : Octets → Action Session Unit} (ha : ∀ p, Keeps R (act p))
    (pieces : List (Duration × Octets)) : Keeps R (Client.forPieces ctx step limit ending act pieces) := by
  induction pieces with
  | nil => exact hR.keeps_await _ _ _ hR.refl
  | cons p rest ih =>
    obtain ⟨delay, piece⟩ := p
    exact hR.bind (hR.keeps_await _ _ _ hR.refl) fun q => hR.bind (ha q) fun _ => ih

end Session.Frame

end HostedGit
