/-
Exchanges under two headers beside each other. Where the one stands for the other, remotes that reply alike make the
exchanges come out alike, and the requests made in them differ in the header alone. So remotes may well look at
headers, and each know its own, as long as this does not show in the replies.
-/
import HostedGit.Proofs.Session.Line
import Mathlib.Data.List.Forall2

namespace HostedGit

open HostedGit.Action Session

/-- A request without what it says of who makes it. -/
def Request.unsigned (q : Request) : Request := { q with authorization := none }

/-- Headers of which one stands for the other, each on a line of its own. -/
abbrev Headers := Option String → Option String → Prop

/-- Two requests that differ in nothing but headers that stand for each other. -/
structure Request.Twin (H : Headers) (q q' : Request) : Prop where
  unsigned : q'.unsigned = q.unsigned
  headers : H q.authorization q'.authorization

/-- Two remotes that reply alike, each to its own of two requests. -/
structure Remote.Twin (H : Headers) (R R' : Remote) : Prop where
  reaches : R'.reaches = R.reaches
  reply : ∀ {earlier earlier' q q'}, List.Forall₂ (Request.Twin H) earlier earlier' → q.Twin H q' →
    R'.reply earlier' q' = R.reply earlier q

/-- Replies that are given in turn are given under any header. -/
theorem Remote.twin_scripted (H : Headers) (reaches : Url → Bool) (replies : List (Coming Reply))
    (last : Coming Reply) : (scripted reaches replies last).Twin H (scripted reaches replies last) where
  reaches := rfl
  reply := by
    intro earlier earlier' q q' before _
    show replies.getD earlier'.length last = replies.getD earlier.length last
    rw [before.length_eq]

/-- Two lines to such remotes, with such requests. -/
structure Line.Twin (H : Headers) (l l' : Line) : Prop where
  remote : l.remote.Twin H l'.remote
  requests : List.Forall₂ (Request.Twin H) l.requests l'.requests

theorem Line.Twin.add {H : Headers} {l l' : Line} (h : l.Twin H l') {q q' : Request} (hq : q.Twin H q') :
    (l.add q).Twin H (l'.add q') where
  remote := h.remote
  requests := List.rel_append h.requests (.cons hq .nil)

namespace Client

variable {H : Headers} (c : Client) (ctx : CallContext) (step : String) (limit : Instant)
  {authorization authorization' : Option String} (hH : H authorization authorization')
include hH

/-- Whichever of the headers a request bears, the reply is the same. -/
theorem ask_twin (u : Url) {σ : Session} {l : Line} (h : σ.line.Twin H l) :
    ∃ l', c.ask authorization' u (σ.on l) = ((c.ask authorization u σ).1, (c.ask authorization u σ).2.on l') ∧
      (c.ask authorization u σ).2.line.Twin H l' := by
  have same : (σ.on l).remote.reaches u = σ.remote.reaches u := congrFun h.remote.reaches u
  have twin : (c.requestFor authorization u).Twin H (c.requestFor authorization' u) := ⟨rfl, hH⟩
  unfold ask
  rw [same]
  split
  · refine ⟨l.add (c.requestFor authorization' u), ?_, h.add twin⟩
    exact Prod.ext (h.remote.reply h.requests twin) rfl
  · exact ⟨l, rfl, h⟩

theorem await_ask_twin (f : Failure) (u : Url) :
    Parallel (Line.Twin H) (Session.await ctx limit f (c.ask authorization u))
      (Session.await ctx limit f (c.ask authorization' u)) := by
  intro σ l h
  obtain ⟨l', asked, h'⟩ := c.ask_twin hH u h
  have now : (σ.on l).timeline = σ.timeline := rfl
  unfold Session.await CallContext.run
  dsimp only
  rw [now, asked]
  cases ctx.check σ.timeline f.step with
  | error e => exact ⟨l, rfl, h⟩
  | ok _ => exact ⟨l', rfl, h'⟩

variable (hN : H none none)
include hN

/-- Redirections keep or drop both headers alike. -/
theorem exchange_twin (more : Nat) (u : Url) :
    Parallel (Line.Twin H) (c.exchange ctx step limit more authorization u)
      (c.exchange ctx step limit more authorization' u) := by
  induction more generalizing authorization authorization' u with
  | zero =>
    unfold exchange
    refine .bind (c.await_ask_twin ctx limit hH _ u) fun r => ?_
    cases redirection? u r with
    | none => exact .of_quiet (.pure r)
    | some v => exact .of_quiet (.throw _)
  | succ more ih =>
    unfold exchange
    refine .bind (c.await_ask_twin ctx limit hH _ u) fun r => ?_
    cases redirection? u r with
    | none => exact .of_quiet (.pure r)
    | some v =>
      -- both headers are kept, or both are dropped
      refine ih ?_ v
      split
      · exact hH
      · exact hN

omit hH in
/-- The headers that credentials come to need only stand for each other. -/
theorem get_twin {u : Url} {k k' : Option Credentials} (hH : H (authorization? u k) (authorization? u k')) :
    Parallel (Line.Twin H) (c.get ctx u k step) (c.get ctx u k' step) := by
  intro σ l h
  rw [get_eq, get_eq]
  have exchanged := c.exchange_twin ctx step (σ.timeline.now.after c.requestTimeout) hH hN mostRedirections u
  exact Parallel.bind exchanged (fun r => .of_quiet (.settleReply u step _ r)) (Journal.add _ σ) l h

end Client

end HostedGit
