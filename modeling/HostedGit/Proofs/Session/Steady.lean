/-
Remotes that reply by what is asked for and by whom alone. Two exchanges with such a remote that ask for
the same, each under a context that outlives it, end alike: it does not matter when they are made, what
was asked for before, or under which contexts.
-/
import HostedGit.Proofs.Service.Frame
import HostedGit.Proofs.Time.Alive

namespace HostedGit

open HostedGit.Action

namespace Session

/-! ## Contexts that outlive a step -/

theorem forward_frame : FullFrame fun s s' => s.timeline.Forward s'.timeline where
  refl _ := .refl _
  trans h h' := h.trans h'
  log _ _ := .refl _
  wait s m := s.timeline.forward_wait m
  ask _ _ := .refl _
  archive _ _ := .refl _
  files _ _ := .refl _
  progress _ _ := .refl _
  gain _ _ := .refl _
  cache _ _ := .refl _

/-- The context is alive when the step has ended, in whatever way. -/
def Outlives {α : Type} (ctx : CallContext) (x : Action Session α) (s : Session) : Prop :=
  ctx.Alive (x s).2.timeline

variable {α β : Type} {ctx ctx' : CallContext}

/-- A context that outlives a sequence outlives its first step. -/
theorem Outlives.of_bind {x : Action Session α} {f : α → Action Session β} {s : Session}
    (h : Outlives ctx (x >>= f) s) (hf : ∀ a, Keeps (fun s s' => s.timeline.Forward s'.timeline) (f a)) :
    Outlives ctx x s := by
  unfold Outlives at h ⊢
  rw [bind_apply] at h
  split at h
  · rename_i a s₁ hx
    rw [hx]
    exact h.of_forward (hf a s₁)
  · rename_i e s₁ hx
    rw [hx]
    exact h

theorem Outlives.of_bind_ok {x : Action Session α} {f : α → Action Session β} {s s' : Session} {a : α}
    (h : Outlives ctx (x >>= f) s) (hx : x s = (.ok a, s')) : Outlives ctx (f a) s' := by
  unfold Outlives at h
  rwa [bind_ok hx] at h

theorem Outlives.of_eq {x y : Action Session α} {s s' : Session} (h : Outlives ctx x s) (e : x s = y s') :
    Outlives ctx y s' := by
  unfold Outlives at h ⊢
  rwa [e] at h

/-- A wait that its context outlives ends with what was waited for. -/
theorem await_of_outlives {limit : Instant} {f : Failure} {start : Session → Coming α × Session} {s : Session}
    (hs : ∀ s, (start s).2.timeline = s.timeline) (h : Outlives ctx (await ctx limit f start) s) :
    await ctx limit f start s =
      ((arrival s.timeline.now limit f (start s).1).value,
        { (start s).2 with
          timeline := s.timeline.wait (arrival s.timeline.now limit f (start s).1).moment }) := by
  have alive : ctx.Alive s.timeline := by
    refine CallContext.Alive.of_forward h (forward_frame.keeps_await ctx limit f (fun s => ?_) s)
    rw [hs]
    exact .refl _
  unfold Outlives at h
  unfold await CallContext.run at h ⊢
  dsimp only at h ⊢
  rw [alive.check] at h ⊢
  dsimp only at h ⊢
  rw [hs] at h ⊢
  rw [CallContext.race_of_alive alive h]

/-! ## Two sessions side by side -/

/-- Two sessions of one remote, with the same time left until a limit in each. -/
structure Alike (R : Remote) (limit limit' : Instant) (s s' : Session) : Prop where
  remote : s.remote = R
  remote' : s'.remote = R
  left : s.timeline.now.nanos + limit'.nanos = s'.timeline.now.nanos + limit.nanos

variable {R : Remote} {limit limit' : Instant}

/-- Two steps that end alike in sessions that are alike, if their contexts outlive them, and leave sessions
behind that are alike. -/
def Together (R : Remote) (limit limit' : Instant) (ctx ctx' : CallContext) (x x' : Action Session α) : Prop :=
  ∀ s s', Alike R limit limit' s s' → Outlives ctx x s → Outlives ctx' x' s' →
    (x s).1 = (x' s').1 ∧ Alike R limit limit' (x s).2 (x' s').2

theorem Together.bind {x x' : Action Session α} {f f' : α → Action Session β}
    (hx : Together R limit limit' ctx ctx' x x') (hf : ∀ a, Together R limit limit' ctx ctx' (f a) (f' a))
    (hk : ∀ a, Keeps (fun s s' => s.timeline.Forward s'.timeline) (f a))
    (hk' : ∀ a, Keeps (fun s s' => s.timeline.Forward s'.timeline) (f' a)) :
    Together R limit limit' ctx ctx' (x >>= f) (x' >>= f') := by
  intro s s' h ho ho'
  obtain ⟨hv, h₁⟩ := hx s s' h (ho.of_bind hk) (ho'.of_bind hk')
  rcases same_cases hv with ⟨e, s₁, s₁', hx₁, hx₁'⟩ | ⟨a, s₁, s₁', hx₁, hx₁'⟩
  · rw [hx₁, hx₁'] at h₁
    rw [bind_error hx₁, bind_error hx₁']
    exact ⟨rfl, h₁⟩
  · rw [hx₁, hx₁'] at h₁
    rw [bind_ok hx₁, bind_ok hx₁']
    exact hf a s₁ s₁' h₁ (ho.of_bind_ok hx₁) (ho'.of_bind_ok hx₁')

theorem Together.pure (a : α) :
    Together R limit limit' ctx ctx' (pure a : Action Session α) (Pure.pure a) := fun _ _ h _ _ => ⟨rfl, h⟩

theorem Together.throw (e : Error) :
    Together R limit limit' ctx ctx' (throw e : Action Session α) (MonadExcept.throw e) :=
  fun _ _ h _ _ => ⟨rfl, h⟩

/-- What comes as late, as measured by what is left, is there at the same time or given up at the same
time. -/
theorem arrival_alike {now now' : Instant} (h : now.nanos + limit'.nanos = now'.nanos + limit.nanos)
    (f : Failure) (c : Coming α) :
    (arrival now limit f c).value = (arrival now' limit' f c).value ∧
      (arrival now limit f c).moment.nanos + limit'.nanos =
        (arrival now' limit' f c).moment.nanos + limit.nanos := by
  cases c with
  | after delay value =>
    unfold arrival
    dsimp only
    -- in time for the one limit is in time for the other
    have same : (now.after delay).nanos ≤ limit.nanos ↔ (now'.after delay).nanos ≤ limit'.nanos := by
      simp only [Timeline.nanos_after]
      omega
    by_cases hl : (now.after delay).nanos ≤ limit.nanos
    · rw [if_pos hl, if_pos (same.mp hl)]
      simp only [Timeline.nanos_after, true_and]
      omega
    · rw [if_neg hl, if_neg fun hl' => hl (same.mpr hl')]
      exact ⟨rfl, Nat.add_comm _ _⟩
  | broken delay =>
    unfold arrival
    simp only [Timeline.nanos_earlier, Timeline.nanos_after, true_and]
    omega
  | never => exact ⟨rfl, Nat.add_comm _ _⟩

theorem Together.await {f : Failure} {start start' : Session → Coming α × Session}
    (ht : ∀ s, (start s).2.timeline = s.timeline) (ht' : ∀ s, (start' s).2.timeline = s.timeline)
    (hr : ∀ s, (start s).2.remote = s.remote) (hr' : ∀ s, (start' s).2.remote = s.remote)
    (hc : ∀ s s', s.remote = R → s'.remote = R → (start s).1 = (start' s').1) :
    Together R limit limit' ctx ctx' (Session.await ctx limit f start) (Session.await ctx' limit' f start') := by
  intro s s' h ho ho'
  rw [await_of_outlives ht ho, await_of_outlives ht' ho', hc s s' h.remote h.remote']
  obtain ⟨hv, hm⟩ := arrival_alike h.left f (start' s').1
  refine ⟨hv, (hr s).trans h.remote, (hr' s').trans h.remote', ?_⟩
  have := h.left
  simp only [Timeline.now_wait, Timeline.nanos_later]
  omega

end Session

/-! ## Exchanges -/

namespace Client

open Session

variable {ctx ctx' : CallContext} {limit limit' : Instant} {reaches : Url → Bool}
  {reply : String → Option String → Coming Reply}

theorem ask_fixed (c : Client) (authorization : Option String) (u : Url) {s s' : Session}
    (h : s.remote = .fixed reaches reply) (h' : s'.remote = .fixed reaches reply) :
    (c.ask authorization u s).1 = (c.ask authorization u s').1 := by
  unfold ask
  rw [h, h']
  split <;> rfl

theorem ask_timeline (c : Client) (authorization : Option String) (u : Url) (s : Session) :
    (c.ask authorization u s).2.timeline = s.timeline := by
  unfold ask
  split <;> rfl

theorem ask_remote (c : Client) (authorization : Option String) (u : Url) (s : Session) :
    (c.ask authorization u s).2.remote = s.remote := by
  unfold ask
  split <;> rfl

theorem keeps_redirected {f : Url → Action Session Reply}
    (hf : ∀ v, Keeps (fun s s' => s.timeline.Forward s'.timeline) (f v)) (u : Url) (r : Reply) :
    Keeps (fun s s' => s.timeline.Forward s'.timeline) (match redirection? u r with
      | none => pure r
      | some v => f v) := by
  cases redirection? u r with
  | none => exact forward_frame.toFrame.keeps_pure r
  | some v => exact hf v

/-- Two exchanges for one URL end alike, by induction on the redirections that may still be followed. -/
theorem exchange_together (c : Client) (step : String) (more : Nat) (authorization : Option String) (u : Url) :
    Together (.fixed reaches reply) limit limit' ctx ctx' (c.exchange ctx step limit more authorization u)
      (c.exchange ctx' step limit' more authorization u) := by
  have hF := forward_frame.toFrame
  have first : ∀ (authorization : Option String) (u : Url),
      Together (.fixed reaches reply) limit limit' ctx ctx'
        (Session.await ctx limit (exchangeFailure step u) (c.ask authorization u))
        (Session.await ctx' limit' (exchangeFailure step u) (c.ask authorization u)) := fun authorization u =>
    .await (c.ask_timeline _ u) (c.ask_timeline _ u) (c.ask_remote _ u) (c.ask_remote _ u)
      fun _ _ h h' => c.ask_fixed _ u h h'
  induction more generalizing authorization u with
  | zero =>
    unfold exchange
    refine (first authorization u).bind (fun r => ?_) (keeps_redirected (fun _ => hF.keeps_throw _) u)
      (keeps_redirected (fun _ => hF.keeps_throw _) u)
    cases redirection? u r with
    | none => exact .pure r
    | some v => exact .throw _
  | succ more ih =>
    unfold exchange
    refine (first authorization u).bind (fun r => ?_) (keeps_redirected (fun v => hF.keeps_exchange c _ _ _ _ _ v) u)
      (keeps_redirected (fun v => hF.keeps_exchange c _ _ _ _ _ v) u)
    cases redirection? u r with
    | none => exact .pure r
    | some v => exact ih _ v

theorem forPieces_together {R : Remote} (step : String) (ending : Coming Unit)
    (pieces : List (Duration × Octets)) :
    Together R limit limit' ctx ctx' (forPieces ctx step limit ending (fun _ => pure ()) pieces)
      (forPieces ctx' step limit' ending (fun _ => pure ()) pieces) := by
  have hF := forward_frame.toFrame
  induction pieces with
  | nil => exact .await (fun _ => rfl) (fun _ => rfl) (fun _ => rfl) (fun _ => rfl) fun _ _ _ _ => rfl
  | cons p rest ih =>
    obtain ⟨delay, piece⟩ := p
    have hk : ∀ ctx limit, Keeps (fun s s' => s.timeline.Forward s'.timeline)
        (forPieces ctx step limit ending (fun _ => pure ()) rest) := fun ctx limit =>
      hF.keeps_forPieces _ _ _ _ (fun _ => hF.keeps_pure ()) _
    unfold forPieces
    refine .bind (.await (fun _ => rfl) (fun _ => rfl) (fun _ => rfl) (fun _ => rfl) fun _ _ _ _ => rfl)
      (fun q => .bind (.pure ()) (fun _ => ih) (fun _ => hk _ _) fun _ => hk _ _) (fun q => ?_) fun q => ?_
    · exact hF.bind (hF.keeps_pure ()) fun _ => hk _ _
    · exact hF.bind (hF.keeps_pure ()) fun _ => hk _ _

/-- What becomes of a reply: an answer with the moment by which its body has to be there, or an error. -/
def settleReply (u : Url) (step : String) (limit : Instant) (r : Reply) : Action Session Response := do
  if Status.isSuccess r.status then return ⟨r, limit⟩
  Action.log .debug (u.toString ++ " answered " ++ Status.text r.status ++ " (" ++ step ++ ")")
  throw (.ofStatus step r.status)

theorem get_eq (c : Client) (ctx : CallContext) (u : Url) (credentials : Option Credentials) (step : String)
    (s : Session) :
    c.get ctx u credentials step s =
      (c.exchange ctx step (s.timeline.now.after c.requestTimeout) mostRedirections
          (authorization? u credentials) u >>=
        settleReply u step (s.timeline.now.after c.requestTimeout))
        (Journal.add ⟨.debug, "GET " ++ u.toString ++ " (" ++ step ++ ")"⟩ s) := rfl

theorem keeps_settleReply (u : Url) (step : String) (limit : Instant) (r : Reply) :
    Keeps (fun s s' => s.timeline.Forward s'.timeline) (settleReply u step limit r) := by
  have hF := forward_frame.toFrame
  unfold settleReply
  split
  · exact hF.keeps_pure _
  · exact hF.bind (hF.keeps_log _ _) fun _ => hF.keeps_throw _

/-- Two requests for one URL fail alike, or get one reply, with the same time left for its body. -/
theorem get_together (c : Client) (u : Url) (credentials : Option Credentials) (step : String)
    {s s' : Session} (h : s.remote = .fixed reaches reply) (h' : s'.remote = .fixed reaches reply)
    (ho : Outlives ctx (c.get ctx u credentials step) s)
    (ho' : Outlives ctx' (c.get ctx' u credentials step) s') :
    (∃ e s₁ s₁', c.get ctx u credentials step s = (.error e, s₁) ∧
      c.get ctx' u credentials step s' = (.error e, s₁')) ∨
    ∃ r limit limit' s₁ s₁', c.get ctx u credentials step s = (.ok ⟨r, limit⟩, s₁) ∧
      c.get ctx' u credentials step s' = (.ok ⟨r, limit'⟩, s₁') ∧
      Alike (.fixed reaches reply) limit limit' s₁ s₁' := by
  unfold Outlives at ho ho'
  rw [get_eq] at ho ho'
  rw [get_eq c ctx, get_eq c ctx']
  generalize (⟨.debug, "GET " ++ u.toString ++ " (" ++ step ++ ")"⟩ : LogRecord) = log at ho ho' ⊢
  -- both limits lie one time-out ahead, so as much time is left in the one session as in the other
  have alike : Alike (.fixed reaches reply) (s.timeline.now.after c.requestTimeout)
      (s'.timeline.now.after c.requestTimeout) (Journal.add log s) (Journal.add log s') := by
    refine ⟨h, h', ?_⟩
    show s.timeline.now.nanos + _ = s'.timeline.now.nanos + _
    simp only [Timeline.nanos_after]
    omega
  obtain ⟨hv, hl⟩ := c.exchange_together step mostRedirections (authorization? u credentials) u _ _ alike
    (Outlives.of_bind ho (keeps_settleReply u step _)) (Outlives.of_bind ho' (keeps_settleReply u step _))
  rcases same_cases hv with ⟨e, s₁, s₁', hx, hx'⟩ | ⟨r, s₁, s₁', hx, hx'⟩
  · exact .inl ⟨e, s₁, s₁', bind_error hx, bind_error hx'⟩
  rw [hx, hx'] at hl
  rw [bind_ok hx, bind_ok hx']
  unfold settleReply
  split
  · exact .inr ⟨r, _, _, s₁, s₁', rfl, rfl, hl⟩
  · exact .inl ⟨_, _, _, rfl, rfl⟩

/-- What becomes of an answer: its body is awaited, and read. -/
def settleResponse {α : Type} (ctx : CallContext) (step what : String)
    (decode : Octets → Except Json.Error α) (r : Response) : Action Session α := do
  let body ← readBody ctx step r
  match decode body with
  | .ok a => return a
  | .error e => throw (.decode what e)

theorem getDocument_eq {α : Type} (c : Client) (ctx : CallContext) (u : Url)
    (credentials : Option Credentials) (step what : String) (decode : Octets → Except Json.Error α) :
    c.getDocument ctx u credentials step what decode =
      c.get ctx u credentials step >>= settleResponse ctx step what decode := rfl

theorem receive_then_forward {α : Type} (d : Document) (a : α) :
    Keeps (fun s s' => s.timeline.Forward s'.timeline) (do Session.receive d; return a) := fun _ => .refl _

theorem keeps_decoded {α : Type} (what : String) (read : Except Json.Error α) :
    Keeps (fun s s' => s.timeline.Forward s'.timeline) (match read with
      | .ok a => return a
      | .error e => throw (.decode what e) : Action Session α) := by
  cases read with
  | ok a => exact forward_frame.toFrame.keeps_pure a
  | error e => exact forward_frame.toFrame.keeps_throw _

theorem keeps_settleResponse {α : Type} (ctx : CallContext) (step what : String)
    (decode : Octets → Except Json.Error α) (r : Response) :
    Keeps (fun s s' => s.timeline.Forward s'.timeline) (settleResponse ctx step what decode r) := by
  have hF := forward_frame.toFrame
  unfold settleResponse readBody
  exact hF.bind (hF.bind (hF.keeps_forPieces _ _ _ _ (fun _ => hF.keeps_pure ()) _) fun _ =>
    receive_then_forward _ _) fun body => keeps_decoded what (decode body)

/-- Two bodies of one reply are read alike. -/
theorem settleResponse_together {R : Remote} {α : Type} (step what : String)
    (decode : Octets → Except Json.Error α) (r : Reply) :
    Together R limit limit' ctx ctx' (settleResponse ctx step what decode ⟨r, limit⟩)
      (settleResponse ctx' step what decode ⟨r, limit'⟩) := by
  have hk := fun body => keeps_decoded what (decode body)
  unfold settleResponse readBody
  refine .bind (.bind (forPieces_together step r.body.ending r.body.pieces) (fun _ => ?_)
    (fun _ => receive_then_forward _ _) fun _ => receive_then_forward _ _) (fun body => ?_) hk hk
  · exact fun s s' h _ _ => ⟨rfl, h.remote, h.remote', h.left⟩
  · cases decode body with
    | ok a => exact .pure a
    | error e => exact .throw _

/-- Two requests for one document end alike. -/
theorem getDocument_same {α : Type} (c : Client) (u : Url) (credentials : Option Credentials)
    (step what : String) (decode : Octets → Except Json.Error α) {s s' : Session}
    (h : s.remote = .fixed reaches reply) (h' : s'.remote = .fixed reaches reply)
    (ho : Outlives ctx (c.getDocument ctx u credentials step what decode) s)
    (ho' : Outlives ctx' (c.getDocument ctx' u credentials step what decode) s') :
    (c.getDocument ctx u credentials step what decode s).1 =
      (c.getDocument ctx' u credentials step what decode s').1 := by
  rw [getDocument_eq] at ho ho'
  rw [getDocument_eq, getDocument_eq]
  rcases c.get_together u credentials step h h' (ho.of_bind (keeps_settleResponse ctx step what decode))
      (ho'.of_bind (keeps_settleResponse ctx' step what decode)) with
    ⟨e, s₁, s₁', hx, hx'⟩ | ⟨r, limit, limit', s₁, s₁', hx, hx', alike⟩
  · rw [bind_error hx, bind_error hx']
  · rw [bind_ok hx, bind_ok hx']
    exact (settleResponse_together step what decode r s₁ s₁' alike (ho.of_bind_ok hx)
      (ho'.of_bind_ok hx')).1

end Client

/-! ## Listings -/

/-- A context that outlives a listing outlives the question for the references, which comes first. -/
theorem Service.outlives_knownRefs {s : Service} {ctx : CallContext} {r : Service.Repository} {t : Target}
    {σ : Session} (h : Session.Outlives ctx (s.fetchPaths ctx r t) σ) :
    Session.Outlives ctx (s.knownRefs ctx r t.url) σ := by
  have hF := Session.forward_frame.toReadingFrame
  unfold fetchPaths at h
  refine h.of_bind fun names => ?_
  split
  · exact hF.keeps_throw _
  · exact hF.bind (fetchRoot_keeps hF s ctx _ _) fun root =>
      hF.bind ((fetchTree_reads s ctx _ _).keeps hF) fun _ _ => .refl _

end HostedGit
