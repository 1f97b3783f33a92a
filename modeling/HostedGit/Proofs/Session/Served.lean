/-
Remotes that serve: every request is replied to, in full and in time, and sends nobody elsewhere. A document
that is asked for under a context that outlives the exchange takes one request, and its outcome is read off the
reply.
-/
import HostedGit.Proofs.Session.Steady

namespace HostedGit

open HostedGit.Action

/-! ## Replies -/

/-- How long it takes until the last of some pieces is there. -/
def Body.wait : List (Duration × Octets) → Nat
  | [] => 0
  | (delay, _) :: rest => delay.nanos + wait rest

namespace Reply

/-- A reply that comes to its end within a limit, counted from its request, and sends nobody elsewhere. -/
structure Whole (r : Reply) (delay limit : Duration) : Prop where
  here : ∀ u, Client.redirection? u r = none
  inTime : ∃ last, r.body.ending = .after last () ∧
    delay.nanos + Body.wait r.body.pieces + last.nanos ≤ limit.nanos

/-- What a reply comes to for one who asks for a document. -/
def outcome {α : Type} (step what : String) (decode : Octets → Except Json.Error α) (r : Reply) :
    Except Error α :=
  if r.status = 404 then .error (.repositoryNotFound step)
  else if r.status = 401 ∨ r.status = 203 then .error (.authenticationFailure step)
  else if 200 ≤ r.status ∧ r.status < 300 then (decode r.body.octets).mapError (.decode what)
  else .error (.unexpectedStatus step r.status)

variable {α : Type} {step what : String} {decode : Octets → Except Json.Error α} {r : Reply}

theorem outcome_of_isSuccess (h : Status.isSuccess r.status = true) :
    r.outcome step what decode = (decode r.body.octets).mapError (.decode what) := by
  unfold Status.isSuccess at h
  simp only [Bool.and_eq_true, decide_eq_true_eq, bne_iff_ne] at h
  unfold outcome
  rw [if_neg (by omega), if_neg (by omega), if_pos (by omega)]

theorem outcome_of_not_isSuccess (h : Status.isSuccess r.status = false) :
    r.outcome step what decode = .error (.ofStatus step r.status) := by
  unfold Status.isSuccess at h
  simp only [Bool.and_eq_false_iff, decide_eq_false_iff_not, bne_eq_false_iff_eq] at h
  unfold outcome Error.ofStatus
  split
  · rfl
  · split
    · rfl
    · rw [if_neg (by omega)]

theorem isSuccess_of_ok {a : α} (h : r.outcome step what decode = .ok a) : Status.isSuccess r.status = true := by
  cases hs : Status.isSuccess r.status with
  | true => rfl
  | false =>
    rw [outcome_of_not_isSuccess hs] at h
    cases h

end Reply

/-- A remote that serves: it replies to a request after earlier ones as a script has it. -/
structure Remote.Serves (R : Remote) (limit : Duration) (script : List Request → Request → Reply) : Prop where
  reaches : ∀ u, R.reaches u = true
  replies : ∀ earlier q, ∃ delay, R.reply earlier q = .after delay (script earlier q) ∧
    (script earlier q).Whole delay limit

/-! ## Waiting -/

namespace Session

variable {α : Type} {ctx : CallContext} {s s' : Session}

/-- Requests have been made, to the same remote. -/
structure Asked (qs : List Request) (s s' : Session) : Prop where
  requests : s'.requests = s.requests ++ qs
  remote : s'.remote = s.remote

theorem Asked.trans {qs qs' : List Request} {a b c : Session} (h : Asked qs a b) (h' : Asked qs' b c) :
    Asked (qs ++ qs') a c where
  requests := by rw [h'.requests, h.requests, List.append_assoc]
  remote := h'.remote.trans h.remote

theorem await_of_inTime {limit : Instant} {f : Failure} {start : Session → Coming α × Session}
    {delay : Duration} {a : α} (hs : ∀ s, (start s).2.timeline = s.timeline)
    (ho : Outlives ctx (await ctx limit f start) s) (hc : (start s).1 = .after delay a)
    (ht : (s.timeline.now.after delay).nanos ≤ limit.nanos) :
    await ctx limit f start s =
      (.ok a, { (start s).2 with timeline := s.timeline.wait (s.timeline.now.after delay) }) := by
  rw [await_of_outlives hs ho, hc]
  unfold arrival
  dsimp only
  rw [if_pos ht]

end Session

namespace Client

open Session

variable {ctx : CallContext} {c : Client} {step : String} {u : Url} {s : Session}
  {script : List Request → Request → Reply} {limit : Instant}

/-- The request for a URL. -/
def requestFor (c : Client) (authorization : Option String) (u : Url) : Request :=
  ⟨"GET", .ofList u.target, authorization, c.userAgent⟩

theorem ask_served (c : Client) (authorization : Option String) {limit : Duration}
    (hR : s.remote.Serves limit script) (hu : Scheme.isHttp u.scheme = true) :
    ∃ delay, c.ask authorization u s = (.after delay (script s.requests (c.requestFor authorization u)),
        { s with requests := s.requests ++ [c.requestFor authorization u] }) ∧
      (script s.requests (c.requestFor authorization u)).Whole delay limit := by
  obtain ⟨delay, hr, whole⟩ := hR.replies s.requests (c.requestFor authorization u)
  refine ⟨delay, ?_, whole⟩
  rw [← hr]
  unfold ask
  rw [hu, hR.reaches]
  rfl

/-- A question is answered at once, and by the one that is asked. -/
theorem exchange_served {more : Nat} {authorization : Option String}
    (hR : s.remote.Serves c.requestTimeout script) (hu : Scheme.isHttp u.scheme = true)
    (hl : s.timeline.now.nanos + c.requestTimeout.nanos ≤ limit.nanos)
    (ho : Outlives ctx (c.exchange ctx step limit more authorization u) s) :
    ∃ delay s', c.exchange ctx step limit more authorization u s =
        (.ok (script s.requests (c.requestFor authorization u)), s') ∧
      (script s.requests (c.requestFor authorization u)).Whole delay c.requestTimeout ∧
      Asked [c.requestFor authorization u] s s' ∧
      s'.timeline.now.nanos = s.timeline.now.nanos + delay.nanos := by
  obtain ⟨delay, hask, whole⟩ := c.ask_served authorization hR hu
  obtain ⟨last, -, hin⟩ := whole.inTime
  -- the reply may be waited for to its end, for the context outlives what comes after it
  have outlived : Outlives ctx (Session.await ctx limit (exchangeFailure step u) (c.ask authorization u)) s := by
    have hF := forward_frame.toFrame
    unfold exchange at ho
    refine ho.of_bind fun r => ?_
    cases redirection? u r with
    | none => exact hF.keeps_pure r
    | some v =>
      cases more with
      | zero => exact hF.keeps_throw _
      | succ more => exact hF.keeps_exchange c _ _ _ _ _ v
  have first := await_of_inTime (c.ask_timeline _ u) outlived (congrArg Prod.fst hask) (by
    simp only [Timeline.nanos_after]
    omega)
  rw [hask] at first
  have exchanged : c.exchange ctx step limit more authorization u s =
      (.ok (script s.requests (c.requestFor authorization u)),
        { s with
          requests := s.requests ++ [c.requestFor authorization u]
          timeline := s.timeline.wait (s.timeline.now.after delay) }) := by
    unfold exchange
    rw [bind_ok first, whole.here u]
    rfl
  refine ⟨delay, _, exchanged, whole, ⟨rfl, rfl⟩, ?_⟩
  rw [Timeline.now_wait]
  simp

/-- A reply is taken by its status; the body of one that is taken comes before the limit. -/
theorem get_served {credentials : Option Credentials} {r : Reply} (hR : s.remote.Serves c.requestTimeout script)
    (hu : Scheme.isHttp u.scheme = true) (ho : Outlives ctx (c.get ctx u credentials step) s)
    (hr : script s.requests (c.requestFor (authorization? u credentials) u) = r) :
    ∃ s', Asked [c.requestFor (authorization? u credentials) u] s s' ∧
      (Status.isSuccess r.status = false ∧
          c.get ctx u credentials step s = (.error (.ofStatus step r.status), s') ∨
        Status.isSuccess r.status = true ∧ ∃ limit last,
          c.get ctx u credentials step s = (.ok ⟨r, limit⟩, s') ∧ r.body.ending = .after last () ∧
          s'.timeline.now.nanos + Body.wait r.body.pieces + last.nanos ≤ limit.nanos) := by
  let limit := s.timeline.now.after c.requestTimeout
  let s₀ : Session := Journal.add ⟨.debug, "GET " ++ u.toString ++ " (" ++ step ++ ")"⟩ s
  have exchanged : Outlives ctx (c.exchange ctx step limit mostRedirections (authorization? u credentials) u) s₀ :=
    Outlives.of_bind (f := settleReply u step limit) ho (keeps_settleReply u step limit)
  obtain ⟨delay, s₁, hx, ⟨-, last, hend, hin⟩, same, hnow⟩ :=
    exchange_served (s := s₀) hR hu (Nat.le_refl _) exchanged
  have hr : script s₀.requests (c.requestFor (authorization? u credentials) u) = r := hr
  rw [hr] at hx hend hin
  have got := (c.get_eq ctx u credentials step s).trans (bind_ok hx)
  unfold settleReply at got
  cases hs : Status.isSuccess r.status with
  | false =>
    rw [if_neg (by rw [hs]; decide), bind_ok (log_apply ..), throw_apply] at got
    refine ⟨_, ?_, .inl ⟨rfl, got⟩⟩
    exact ⟨same.requests, same.remote⟩
  | true =>
    rw [if_pos hs] at got
    refine ⟨s₁, ⟨same.requests, same.remote⟩, .inr ⟨rfl, limit, last, got, hend, ?_⟩⟩
    have hnow : s₁.timeline.now.nanos = s.timeline.now.nanos + delay.nanos := hnow
    have hlimit : limit.nanos = s.timeline.now.nanos + c.requestTimeout.nanos := rfl
    omega

/-- A body that comes in time is read to its end. -/
theorem forPieces_served {ending : Coming Unit} {last : Duration} {pieces : List (Duration × Octets)}
    (he : ending = .after last ())
    (hl : s.timeline.now.nanos + Body.wait pieces + last.nanos ≤ limit.nanos)
    (ho : Outlives ctx (forPieces ctx step limit ending (fun _ => pure ()) pieces) s) :
    ∃ t, forPieces ctx step limit ending (fun _ => pure ()) pieces s = (.ok (), { s with timeline := t }) := by
  subst he
  -- as pieces come, as much is left of the time as is left of the body
  induction pieces generalizing s with
  | nil =>
    exact ⟨_, await_of_inTime (fun _ => rfl) ho rfl (by simpa [Body.wait] using hl)⟩
  | cons p rest ih =>
    obtain ⟨delay, piece⟩ := p
    simp only [Body.wait] at hl
    unfold forPieces at ho ⊢
    have hF := forward_frame.toFrame
    have outlived := ho.of_bind fun q => hF.bind (hF.keeps_pure ()) fun _ =>
      hF.keeps_forPieces _ _ _ _ (fun _ => hF.keeps_pure ()) rest
    have first := await_of_inTime (fun _ => rfl) outlived rfl (by
      simp only [Timeline.nanos_after]
      omega)
    rw [bind_ok first]
    have later := ho.of_bind_ok first
    refine ih ?_ later
    rw [Timeline.now_wait]
    simp only [Timeline.nanos_later, Timeline.nanos_after]
    omega

theorem readBody_served {r : Reply} {last : Duration} (he : r.body.ending = .after last ())
    (hl : s.timeline.now.nanos + Body.wait r.body.pieces + last.nanos ≤ limit.nanos)
    (ho : Outlives ctx (readBody ctx step ⟨r, limit⟩) s) :
    ∃ s', readBody ctx step ⟨r, limit⟩ s = (.ok r.body.octets, s') ∧ Asked [] s s' := by
  obtain ⟨t, hx⟩ := forPieces_served he hl (Outlives.of_bind ho fun _ => receive_then_forward _ _)
  exact ⟨_, bind_ok hx, (List.append_nil _).symm, rfl⟩

/-- A document is read off the reply to one request. -/
theorem getDocument_served {α : Type} {what : String} {credentials : Option Credentials}
    {decode : Octets → Except Json.Error α} (hR : s.remote.Serves c.requestTimeout script)
    (hu : Scheme.isHttp u.scheme = true)
    (ho : Outlives ctx (c.getDocument ctx u credentials step what decode) s) :
    ∃ s', c.getDocument ctx u credentials step what decode s =
        ((script s.requests (c.requestFor (authorization? u credentials) u)).outcome step what decode, s') ∧
      Asked [c.requestFor (authorization? u credentials) u] s s' := by
  generalize hr : script s.requests (c.requestFor (authorization? u credentials) u) = r
  rw [getDocument_eq] at ho ⊢
  obtain ⟨s₁, same, ⟨hs, got⟩ | ⟨hs, limit, last, got, hend, hin⟩⟩ :=
    get_served hR hu (ho.of_bind (keeps_settleResponse ctx step what decode)) hr
  · rw [Reply.outcome_of_not_isSuccess hs]
    exact ⟨s₁, bind_error got, same⟩
  have outlived : Outlives ctx (readBody ctx step ⟨r, limit⟩) s₁ :=
    Outlives.of_bind (ho.of_bind_ok got) fun body => keeps_decoded what (decode body)
  obtain ⟨s₂, hx, same'⟩ := readBody_served hend hin outlived
  refine ⟨s₂, ?_, by simpa using same.trans same'⟩
  rw [Reply.outcome_of_isSuccess hs, bind_ok got]
  unfold settleResponse
  rw [bind_ok hx]
  cases decode r.body.octets <;> rfl

end Client

end HostedGit
