/-
Documents. What an operation takes for a document is the whole body of a reply that the remote gave to a
request of this session, with a status that carries content; and each is recorded, once, before it is
read. An exchange that brings no whole document records none.
-/
import HostedGit.Proofs.Session.Frame

namespace HostedGit

open HostedGit.Action

/-! ## Replies -/

/-- A session as it is after an exchange: the same remote, and perhaps more requests. -/
structure Session.Onward (s s' : Session) : Prop where
  remote : s'.remote = s.remote
  requests : s.requests <+: s'.requests

theorem Session.onward_frame : Session.Frame Session.Onward where
  refl _ := ⟨rfl, List.prefix_refl _⟩
  trans h h' := ⟨h'.remote.trans h.remote, h.requests.trans h'.requests⟩
  log _ _ := ⟨rfl, List.prefix_refl _⟩
  wait _ _ := ⟨rfl, List.prefix_refl _⟩
  ask _ _ := ⟨rfl, List.prefix_append ..⟩

/-- The remote gave a reply to a request of the session. -/
def Session.Got (s : Session) (r : Reply) : Prop :=
  ∃ earlier q delay, earlier ++ [q] <+: s.requests ∧ s.remote.reply earlier q = .after delay r

theorem Session.Got.onward {s s' : Session} {r : Reply} (h : s.Got r) (hs : s.Onward s') : s'.Got r := by
  obtain ⟨earlier, q, delay, hp, hq⟩ := h
  exact ⟨earlier, q, delay, hp.trans hs.requests, by rw [hs.remote]; exact hq⟩

/-- A wait that ends well brings what was to come. -/
theorem Session.await_ok {α : Type} {ctx : CallContext} {limit : Instant} {f : Session.Failure}
    {start : Session → Coming α × Session} {s s' : Session} {a : α}
    (h : Session.await ctx limit f start s = (.ok a, s')) :
    (∃ delay, (start s).1 = .after delay a) ∧
      ∃ m, s' = { (start s).2 with timeline := (start s).2.timeline.wait m } := by
  unfold Session.await CallContext.run at h
  dsimp only at h
  cases hc : ctx.check s.timeline f.step with
  | error e => rw [hc] at h; cases h
  | ok _ =>
    rw [hc] at h
    dsimp only at h
    rw [Prod.mk.injEq] at h
    refine ⟨?_, _, h.2.symm⟩
    have hv := h.1
    unfold CallContext.race at hv
    -- only an arrival has a value; an interruption has an error
    have arrived : (arrival s.timeline.now limit f (start s).1).value = .ok a →
        ∃ delay, (start s).1 = .after delay a := by
      intro hv
      cases hcome : (start s).1 with
      | after delay b =>
        rw [hcome] at hv
        unfold arrival at hv
        dsimp only at hv
        split at hv <;> cases hv
        exact ⟨delay, rfl⟩
      | broken delay => rw [hcome] at hv; cases hv
      | never => rw [hcome] at hv; cases hv
    split at hv
    · split at hv
      · exact arrived hv
      · cases hv
    · exact arrived hv

/-- The remote gave a reply to the last request, which was made after an earlier session. -/
def Session.Replied (s s' : Session) (r : Reply) : Prop :=
  ∃ earlier q delay, s.requests <+: earlier ∧ s'.requests = earlier ++ [q] ∧
    s.remote.reply earlier q = .after delay r

theorem Session.Replied.got {s s' : Session} {r : Reply} (h : s.Replied s' r) (hs : s'.remote = s.remote) :
    s'.Got r := by
  obtain ⟨earlier, q, delay, -, hr, hq⟩ := h
  exact ⟨earlier, q, delay, hr ▸ List.prefix_refl _, by rw [hs]; exact hq⟩

theorem Session.Replied.of_onward {s s₁ s' : Session} {r : Reply} (hs : s.Onward s₁) (h : s₁.Replied s' r) :
    s.Replied s' r := by
  obtain ⟨earlier, q, delay, hp, hr, hq⟩ := h
  exact ⟨earlier, q, delay, hs.requests.trans hp, hr, by rw [← hs.remote]; exact hq⟩

/-- The last request has one reply. -/
theorem Session.Replied.unique {s s' : Session} {r r' : Reply} (h : s.Replied s' r) (h' : s.Replied s' r') :
    r = r' := by
  obtain ⟨earlier, q, delay, -, hr, hq⟩ := h
  obtain ⟨earlier', q', delay', -, hr', hq'⟩ := h'
  obtain ⟨rfl, same⟩ := List.append_inj' (hr.symm.trans hr') rfl
  cases same
  cases hq.symm.trans hq'
  rfl

theorem Client.ask_ok {c : Client} {authorization : Option String} {u : Url} {s : Session} {delay : Duration}
    {r : Reply} (h : (c.ask authorization u s).1 = .after delay r) : s.Replied (c.ask authorization u s).2 r := by
  unfold Client.ask at h ⊢
  split at h
  · rename_i hr
    rw [if_pos hr]
    exact ⟨s.requests, _, delay, List.prefix_refl _, rfl, h⟩
  · cases h

/-- The reply that an exchange ends with is the remote's to its last request. -/
theorem Client.exchange_ok {c : Client} {ctx : CallContext} {step : String} {limit : Instant} {more : Nat}
    {authorization : Option String} {u : Url} {s s' : Session} {r : Reply}
    (h : c.exchange ctx step limit more authorization u s = (.ok r, s')) : s.Replied s' r := by
  have first : ∀ {s s₁ : Session} {r : Reply} {authorization : Option String} {u : Url},
      Session.await ctx limit (Client.exchangeFailure step u) (c.ask authorization u) s = (.ok r, s₁) →
        s.Replied s₁ r := by
    intro s s₁ r authorization u ha
    obtain ⟨⟨delay, hr⟩, m, rfl⟩ := Session.await_ok ha
    exact Client.ask_ok hr
  -- the last reply counts, whichever of the redirections it follows
  induction more generalizing authorization u s with
  | zero =>
    unfold Client.exchange at h
    obtain ⟨q, s₁, hq, h⟩ := bind_answered h
    cases hd : Client.redirection? u q with
    | none => rw [hd] at h; cases h; exact first hq
    | some v => rw [hd] at h; cases h
  | succ more ih =>
    unfold Client.exchange at h
    obtain ⟨q, s₁, hq, h⟩ := bind_answered h
    cases hd : Client.redirection? u q with
    | none => rw [hd] at h; cases h; exact first hq
    | some v =>
      rw [hd] at h
      have onward := Session.onward_frame.keeps_await ctx limit (Client.exchangeFailure step u)
        (Session.onward_frame.keeps_ask c authorization u)
      exact .of_onward (onward.of_eq hq) (ih h)

/-- What a URL answers carries content, and is the remote's reply to the last request. -/
theorem Client.get_ok {c : Client} {ctx : CallContext} {u : Url} {credentials : Option Credentials}
    {step : String} {s s' : Session} {r : Client.Response} (h : c.get ctx u credentials step s = (.ok r, s')) :
    s.Replied s' r.reply ∧ Status.isSuccess r.reply.status = true := by
  unfold Client.get at h
  obtain ⟨_, s₁, hlog, h⟩ := bind_answered h
  obtain ⟨_, s₂, hs₂, h⟩ := bind_answered h
  cases hlog
  cases hs₂
  obtain ⟨q, s₃, hq, h⟩ := bind_answered h
  split at h
  · rename_i hs
    cases h
    have hr := Client.exchange_ok hq
    exact ⟨hr, hs⟩
  · cases h

/-! ## Bodies -/

/-- A body comes to its end. -/
def Body.Comes (b : Body) : Prop := ∃ delay, b.ending = .after delay ()

theorem Client.forPieces_ok {ctx : CallContext} {step : String} {limit : Instant} {ending : Coming Unit}
    {act : Octets → Action Session Unit} {pieces : List (Duration × Octets)} {s s' : Session}
    (h : Client.forPieces ctx step limit ending act pieces s = (.ok (), s')) :
    ∃ delay, ending = .after delay () := by
  induction pieces generalizing s with
  | nil => exact (Session.await_ok h).1
  | cons p rest ih =>
    obtain ⟨delay, piece⟩ := p
    unfold Client.forPieces at h
    obtain ⟨_, s₁, _, h⟩ := bind_answered h
    obtain ⟨_, s₂, _, h⟩ := bind_answered h
    exact ih h

/-- A document is the whole body of one of the remote's replies, and of one that carries content. -/
def Session.Brought (s : Session) (d : Document) : Prop :=
  ∃ r : Reply, s.Got r ∧ r.body.Comes ∧ Status.isSuccess r.status = true ∧ d.status = r.status ∧
    d.body = r.body.octets

theorem Session.Brought.onward {s s' : Session} {d : Document} (h : s.Brought d) (hs : s.Onward s') :
    s'.Brought d := by
  obtain ⟨r, hg, h⟩ := h
  exact ⟨r, hg.onward hs, h⟩

theorem Session.Brought.isSuccess {s : Session} {d : Document} (h : s.Brought d) :
    Status.isSuccess d.status = true := by
  obtain ⟨r, -, -, hsucc, hstatus, -⟩ := h
  rw [hstatus]
  exact hsucc

/-- The session with one more document. -/
def Session.gaining (s : Session) (d : Document) : Session := { s with documents := s.documents ++ [d] }

theorem Client.readBody_spec {R : Session → Session → Prop} (hR : Session.Frame R) (ctx : CallContext)
    (step : String) (r : Client.Response) (s : Session) :
    ∃ s', R s s' ∧ ((∃ e, Client.readBody ctx step r s = (.error e, s')) ∨
      r.reply.body.Comes ∧ Client.readBody ctx step r s =
        (.ok r.reply.body.octets, s'.gaining ⟨step, r.reply.status, r.reply.body.octets⟩)) := by
  unfold Client.readBody
  have hk : Keeps R (Client.forPieces ctx step r.limit r.reply.body.ending (fun _ => pure ())
      r.reply.body.pieces) := hR.keeps_forPieces _ _ _ _ (fun _ => hR.keeps_pure ()) _
  rcases hp : Client.forPieces ctx step r.limit r.reply.body.ending (fun _ => pure ()) r.reply.body.pieces s
    with ⟨e | _, s'⟩
  · exact ⟨s', hk.of_eq hp, .inl ⟨e, bind_error hp⟩⟩
  · exact ⟨s', hk.of_eq hp, .inr ⟨Client.forPieces_ok hp, bind_ok hp⟩⟩

/-- A step that brings no document and fails, or that brings one, which is recorded and then read. -/
def Session.Reads {α : Type} (step what : String) (decode : Octets → Except Json.Error α)
    (x : Action Session α) : Prop :=
  ∀ R : Session → Session → Prop, Session.Frame R → ∀ s, ∃ s', R s s' ∧ ((∃ e, x s = (.error e, s')) ∨
    ∃ d : Document, d.step = step ∧ s'.Brought d ∧
      x s = ((decode d.body).mapError (.decode what), s'.gaining d))

/-- A frame that does not look at the documents. -/
structure Session.ReadingFrame (R : Session → Session → Prop) : Prop extends Session.Frame R where
  gain : ∀ (s : Session) d, R s (s.gaining d)

theorem Session.Reads.keeps {R : Session → Session → Prop} {α : Type} {step what : String}
    {decode : Octets → Except Json.Error α} {x : Action Session α} (hx : Session.Reads step what decode x)
    (hR : Session.ReadingFrame R) : Keeps R x := by
  intro s
  obtain ⟨s', hs, ⟨e, h⟩ | ⟨d, -, -, h⟩⟩ := hx R hR.toFrame s
  · rw [h]
    exact hs
  · rw [h]
    exact hR.trans hs (hR.gain s' d)

theorem Client.getDocument_reads {α : Type} (c : Client) (ctx : CallContext) (u : Url)
    (credentials : Option Credentials) (step what : String) (decode : Octets → Except Json.Error α) :
    Session.Reads step what decode (c.getDocument ctx u credentials step what decode) := by
  intro R hR s
  have hR' := hR.and Session.onward_frame
  unfold Client.getDocument
  rcases hg : c.get ctx u credentials step s with ⟨e | r, s₁⟩
  · exact ⟨s₁, (hR.keeps_get c ctx u credentials step).of_eq hg, .inl ⟨e, bind_error hg⟩⟩
  rw [bind_ok hg]
  have hs₁ := (hR.keeps_get c ctx u credentials step).of_eq hg
  obtain ⟨hreplied, hsucc⟩ := Client.get_ok hg
  have hgot := hreplied.got ((Session.onward_frame.keeps_get c ctx u credentials step).of_eq hg).remote
  obtain ⟨s₂, ⟨hs₂, hO⟩, ⟨e, hb⟩ | ⟨hcomes, hb⟩⟩ := Client.readBody_spec hR' ctx step r s₁
  · exact ⟨s₂, hR.trans hs₁ hs₂, .inl ⟨e, bind_error hb⟩⟩
  refine ⟨s₂, hR.trans hs₁ hs₂, .inr ⟨⟨step, r.reply.status, r.reply.body.octets⟩, rfl,
    ⟨r.reply, hgot.onward hO, hcomes, hsucc, rfl, rfl⟩, ?_⟩⟩
  rw [bind_ok hb]
  cases decode r.reply.body.octets <;> rfl

end HostedGit
