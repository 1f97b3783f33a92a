/-
The line to a remote, and steps on two lines beside each other. Only what asks the remote sees the line: every other
step does the same on any line and leaves the line as it is. So two runs that differ in their lines alone stay so, as
long as what they ask for comes alike, and their lines stay related as the asking leaves them.
-/
import HostedGit.Proofs.Session.Served

namespace HostedGit

open HostedGit.Action

/-- A remote, and the requests that were made to it. -/
structure Line where
  remote : Remote
  requests : List Request

/-- The line after one more request. -/
def Line.add (l : Line) (q : Request) : Line := ⟨l.remote, l.requests ++ [q]⟩

namespace Session

/-- The line of a session. -/
def line (σ : Session) : Line := ⟨σ.remote, σ.requests⟩

/-- The session on another line. -/
def on (σ : Session) (l : Line) : Session := { σ with remote := l.remote, requests := l.requests }

@[simp] theorem on_line (σ : Session) : σ.on σ.line = σ := rfl

@[simp] theorem line_on (σ : Session) (l : Line) : (σ.on l).line = l := rfl

variable {α β : Type}

/-! ## Steps off the line -/

/-- A step that does the same on any line, and leaves the line as it is. -/
def Quiet (x : Action Session α) : Prop := ∀ (σ : Session) (l : Line), x (σ.on l) = ((x σ).1, (x σ).2.on l)

namespace Quiet

theorem line_eq {x : Action Session α} (hx : Quiet x) (σ : Session) : (x σ).2.line = σ.line := by
  have same := congrArg Prod.snd (hx σ σ.line)
  rw [on_line] at same
  rw [same, line_on]

theorem pure (a : α) : Quiet (Pure.pure a : Action Session α) := fun _ _ => rfl

theorem throw (e : Error) : Quiet (MonadExcept.throw e : Action Session α) := fun _ _ => rfl

theorem log (level : LogLevel) (text : String) : Quiet (Action.log level text : Action Session Unit) := fun _ _ => rfl

theorem check (ctx : CallContext) (step : String) : Quiet (Session.check ctx step) := fun _ _ => rfl

theorem bind {x : Action Session α} {f : α → Action Session β} (hx : Quiet x) (hf : ∀ a, Quiet (f a)) :
    Quiet (x >>= f) := by
  intro σ l
  rw [bind_apply, bind_apply, hx σ l]
  rcases x σ with ⟨_ | a, σ'⟩
  · rfl
  · exact hf a σ' l

/-- What goes on with the session goes on alike, where it does not look at the line. -/
theorem get_bind {f : Session → Action Session α} (hf : ∀ σ, Quiet (f σ)) (hl : ∀ σ l, f (σ.on l) = f σ) :
    Quiet (getThe Session >>= f) := by
  intro σ l
  rw [bind_ok (get_apply σ), bind_ok (get_apply (σ.on l)), hl]
  exact hf σ σ l

theorem receive (d : Document) : Quiet (Session.receive d) := fun _ _ => rfl

/-- To wait for what is under way does not take the line. -/
theorem await (ctx : CallContext) (limit : Instant) (f : Failure) (c : Coming α) :
    Quiet (Session.await ctx limit f fun σ => (c, σ)) := by
  intro σ l
  unfold Session.await CallContext.run
  dsimp only [on]
  cases ctx.check σ.timeline f.step <;> rfl

theorem forPieces (ctx : CallContext) (step : String) (limit : Instant) (ending : Coming Unit)
    {act : Octets → Action Session Unit} (ha : ∀ p, Quiet (act p)) (pieces : List (Duration × Octets)) :
    Quiet (Client.forPieces ctx step limit ending act pieces) := by
  induction pieces with
  | nil => exact .await ctx limit _ _
  | cons p rest ih => exact .bind (.await ctx limit _ _) fun q => .bind (ha q) fun _ => ih

theorem settleReply (u : Url) (step : String) (limit : Instant) (r : Reply) :
    Quiet (Client.settleReply u step limit r) := by
  unfold Client.settleReply
  split
  · exact .pure _
  · exact .bind (.log _ _) fun _ => .throw _

theorem settleResponse (ctx : CallContext) (step what : String) (decode : Octets → Except Json.Error α)
    (r : Client.Response) : Quiet (Client.settleResponse ctx step what decode r) := by
  unfold Client.settleResponse Client.readBody
  refine .bind ?_ fun body => ?_
  · exact .bind (.forPieces ctx _ _ _ (fun _ => .pure _) _) fun _ => .bind (.receive _) fun _ => .pure _
  · cases decode body with
    | ok a => exact .pure a
    | error e => exact .throw _

end Quiet

/-! ## Steps on two lines -/

/-- Two steps that come out alike on lines that are related, and leave lines behind that are related; everything else
is the same before and after. -/
def Parallel (J : Line → Line → Prop) (x x' : Action Session α) : Prop :=
  ∀ (σ : Session) (l : Line), J σ.line l → ∃ l', x' (σ.on l) = ((x σ).1, (x σ).2.on l') ∧ J (x σ).2.line l'

namespace Parallel

variable {J : Line → Line → Prop}

theorem of_quiet {x : Action Session α} (hx : Quiet x) : Parallel J x x := by
  intro σ l hl
  exact ⟨l, hx σ l, by rwa [hx.line_eq]⟩

theorem bind {x x' : Action Session α} {f f' : α → Action Session β} (hx : Parallel J x x')
    (hf : ∀ a, Parallel J (f a) (f' a)) : Parallel J (x >>= f) (x' >>= f') := by
  intro σ l hl
  obtain ⟨l₁, hx₁, hl₁⟩ := hx σ l hl
  rw [bind_apply, bind_apply, hx₁]
  rcases hr : x σ with ⟨e | a, σ₁⟩
  · rw [hr] at hl₁
    exact ⟨l₁, rfl, hl₁⟩
  · rw [hr] at hl₁
    exact hf a σ₁ l₁ hl₁

theorem throw_bind (e : Error) (f f' : α → Action Session β) :
    Parallel J (MonadExcept.throw e >>= f) (MonadExcept.throw e >>= f') := by
  intro σ l hl
  rw [bind_error (throw_apply e σ), bind_error (throw_apply e (σ.on l))]
  exact ⟨l, rfl, hl⟩

/-- A document comes alike if its reply does. -/
theorem getDocument {c : Client} {ctx : CallContext} {u : Url} {k k' : Option Credentials} {step : String}
    (hg : Parallel J (c.get ctx u k step) (c.get ctx u k' step)) (what : String)
    (decode : Octets → Except Json.Error α) :
    Parallel J (c.getDocument ctx u k step what decode) (c.getDocument ctx u k' step what decode) := by
  rw [Client.getDocument_eq, Client.getDocument_eq]
  exact hg.bind fun r => .of_quiet (.settleResponse ctx step what decode r)

end Parallel

/-! ## Steps on one line -/

/-- A step keeps a property of lines exactly if it comes out alike beside itself where the property holds. -/
theorem parallel_self_iff {I : Line → Prop} {x : Action Session α} :
    Parallel (fun l l' => l' = l ∧ I l) x x ↔ ∀ σ, I σ.line → I (x σ).2.line := by
  constructor
  · intro h σ hI
    obtain ⟨l', -, -, hI'⟩ := h σ σ.line ⟨rfl, hI⟩
    exact hI'
  · rintro h σ l ⟨rfl, hI⟩
    exact ⟨(x σ).2.line, rfl, rfl, h σ hI⟩

/-- Waiting leaves the line as it is, or as what is waited for leaves it. -/
theorem line_await (ctx : CallContext) (limit : Instant) (f : Failure) (start : Session → Coming α × Session)
    (σ : Session) : (Session.await ctx limit f start σ).2.line = σ.line ∨
      (Session.await ctx limit f start σ).2.line = (start σ).2.line := by
  unfold Session.await CallContext.run
  dsimp only
  cases ctx.check σ.timeline f.step with
  | error e => exact .inl rfl
  | ok _ => exact .inr rfl

end Session

/-! ## Questions -/

namespace Client

open Session

variable {c : Client} {ctx : CallContext} {step : String} {limit : Instant} {u : Url} {σ : Session}

/-- At most one request is made, where the remote is reached. -/
def AsksOnce (u : Url) (q : Request) (l l' : Line) : Prop := l' = l ∨ l.remote.reaches u = true ∧ l' = l.add q

/-- Whatever is replied to a request for a URL, it sends nobody elsewhere. -/
def StaysAt (u : Url) (q : Request) (l : Line) : Prop :=
  l.remote.reaches u = true → ∀ delay r, l.remote.reply l.requests q = .after delay r → redirection? u r = none

theorem ask_cases (c : Client) (authorization : Option String) (u : Url) (σ : Session) :
    ((∃ delay, (c.ask authorization u σ).1 = .broken delay) ∧ (c.ask authorization u σ).2.line = σ.line) ∨
      σ.remote.reaches u = true ∧
        (c.ask authorization u σ).1 = σ.remote.reply σ.requests (c.requestFor authorization u) ∧
        (c.ask authorization u σ).2.line = σ.line.add (c.requestFor authorization u) := by
  unfold ask
  split
  · rename_i hr
    exact .inr ⟨(Bool.and_eq_true_iff.mp hr).2, rfl, rfl⟩
  · exact .inl ⟨⟨_, rfl⟩, rfl⟩

/-- A question that no reply sends elsewhere is one request, or none. -/
theorem line_exchange {authorization : Option String} (more : Nat)
    (h : StaysAt u (c.requestFor authorization u) σ.line) :
    AsksOnce u (c.requestFor authorization u) σ.line (c.exchange ctx step limit more authorization u σ).2.line := by
  have asked := c.ask_cases authorization u σ
  have awaited : AsksOnce u (c.requestFor authorization u) σ.line
      (Session.await ctx limit (exchangeFailure step u) (c.ask authorization u) σ).2.line := by
    rcases line_await ctx limit (exchangeFailure step u) (c.ask authorization u) σ with hl | hl
    · exact .inl hl
    · rw [hl]
      rcases asked with ⟨-, hl⟩ | ⟨hr, -, hl⟩
      · exact .inl hl
      · exact .inr ⟨hr, hl⟩
  unfold exchange
  rcases hx : Session.await ctx limit (exchangeFailure step u) (c.ask authorization u) σ with ⟨e | r, σ₁⟩
  · rw [hx] at awaited
    rw [bind_error hx]
    exact awaited
  · -- what is answered is a reply, and it stays
    have stays : redirection? u r = none := by
      obtain ⟨⟨delay, hr⟩, -⟩ := Session.await_ok hx
      rcases asked with ⟨⟨_, hb⟩, -⟩ | ⟨reached, hq, -⟩
      · cases hb.symm.trans hr
      · exact h reached delay r (hq.symm.trans hr)
    rw [hx] at awaited
    rw [bind_ok hx, stays]
    exact awaited

theorem line_get {credentials : Option Credentials}
    (h : StaysAt u (c.requestFor (authorization? u credentials) u) σ.line) :
    AsksOnce u (c.requestFor (authorization? u credentials) u) σ.line (c.get ctx u credentials step σ).2.line := by
  let σ₀ : Session := Journal.add ⟨.debug, "GET " ++ u.toString ++ " (" ++ step ++ ")"⟩ σ
  let limit := σ.timeline.now.after c.requestTimeout
  have exchanged : AsksOnce u (c.requestFor (authorization? u credentials) u) σ.line
      (c.exchange ctx step limit mostRedirections (authorization? u credentials) u σ₀).2.line :=
    line_exchange mostRedirections h
  rw [get_eq]
  rcases hx : c.exchange ctx step limit mostRedirections (authorization? u credentials) u σ₀ with ⟨e | r, σ₁⟩
  · rw [hx] at exchanged
    rw [bind_error hx]
    exact exchanged
  · rw [hx] at exchanged
    rw [bind_ok hx, (Quiet.settleReply u step _ r).line_eq]
    exact exchanged

end Client

end HostedGit
