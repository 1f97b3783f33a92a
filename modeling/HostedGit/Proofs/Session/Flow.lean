/-
Bodies as they come. Which of its pieces come, and whether its end does, is a matter of time and of the context
alone; how many of those that came are kept is a matter of storage; and what is told on the way are the running
totals of what is kept.
-/
import HostedGit.Proofs.Session.Transfer

namespace HostedGit

open HostedGit.Action

/-! ## Waiting for what is under way -/

/-- What a wait for something that is under way comes to, and what is known of time then. -/
def Session.awaited {α : Type} (ctx : CallContext) (limit : Instant) (f : Failure) (c : Coming α) (t : Timeline) :
    Except Error α × Timeline :=
  match ctx.check t f.step with
  | .error e => (.error e, t.wait t.now)
  | .ok () =>
    let a := ctx.race t f.step (arrival t.now limit f c)
    (a.value, t.wait a.moment)

/-- A wait for what is under way changes nothing but the time. -/
theorem Session.await_eq {α : Type} (ctx : CallContext) (limit : Instant) (f : Failure) (c : Coming α) (s : Session) :
    await ctx limit f (fun s => (c, s)) s =
      ((awaited ctx limit f c s.timeline).1, { s with timeline := (awaited ctx limit f c s.timeline).2 }) := by
  unfold await awaited CallContext.run
  cases ctx.check s.timeline f.step <;> rfl

theorem Session.awaited_ok {α : Type} {ctx : CallContext} {limit : Instant} {f : Failure} {c : Coming α} {a : α}
    {t : Timeline} (h : (awaited ctx limit f c t).1 = .ok a) : ∃ delay, c = .after delay a := by
  have hx := await_eq ctx limit f c { (start .unreachable .empty "") with timeline := t }
  rw [h] at hx
  exact (await_ok hx).1

/-! ## Bodies -/

/-- What comes of a body: pieces, and then its end or a failure. -/
structure Flow where
  pieces : List Octets
  ended : Except Error Unit

/-- What comes of a body while it is waited for, one piece after the other. -/
def Flow.of (ctx : CallContext) (step : String) (limit : Instant) (ending : Coming Unit) :
    Timeline → List (Duration × Octets) → Flow
  | t, [] => ⟨[], (Session.awaited ctx limit (Client.bodyFailure step) ending t).1⟩
  | t, (delay, piece) :: rest =>
    match Session.awaited ctx limit (Client.bodyFailure step) (.after delay piece) t with
    | (.error e, _) => ⟨[], .error e⟩
    | (.ok piece, t) =>
      let more := Flow.of ctx step limit ending t rest
      ⟨piece :: more.pieces, more.ended⟩

/-- What comes are pieces of the body from the first one on, and all of them if its end comes. -/
theorem Flow.of_pieces (ctx : CallContext) (step : String) (limit : Instant) (ending : Coming Unit) (t : Timeline)
    (pieces : List (Duration × Octets)) :
    let came := Flow.of ctx step limit ending t pieces
    came.pieces <+: pieces.map (·.2) ∧
      (came.ended = .ok () → came.pieces = pieces.map (·.2) ∧ ∃ delay, ending = .after delay ()) := by
  induction pieces generalizing t with
  | nil => exact ⟨List.prefix_refl _, fun ended => ⟨rfl, Session.awaited_ok ended⟩⟩
  | cons p rest ih =>
    obtain ⟨delay, piece⟩ := p
    unfold Flow.of
    rcases hx : Session.awaited ctx limit (Client.bodyFailure step) (.after delay piece) t with ⟨e | piece', t'⟩
    · exact ⟨List.nil_prefix, nofun⟩
    · obtain ⟨_, came⟩ := Session.awaited_ok (congrArg Prod.fst hx)
      cases came
      obtain ⟨before, whole⟩ := ih t'
      refine ⟨List.cons_prefix_cons.mpr ⟨rfl, before⟩, fun ended => ?_⟩
      obtain ⟨all, comes⟩ := whole ended
      exact ⟨congrArg _ all, comes⟩

/-! ## What is kept -/

/-- What is kept of pieces, and what storage says if it does not keep the next of them. -/
structure Storage.Kept where
  pieces : List Octets
  refusal : Option String

/-- What is kept of pieces that are put behind those that are there, one after the other. -/
def Storage.keep (storage : Storage) : (there : Octets) → List Octets → Kept
  | _, [] => ⟨[], none⟩
  | there, piece :: rest =>
    match storage.write there piece with
    | some cause => ⟨[], some cause⟩
    | none =>
      let more := storage.keep (there ++ piece) rest
      ⟨piece :: more.pieces, more.refusal⟩

/-- What is kept are pieces from the first one on, and all of them if none is refused. -/
theorem Storage.keep_pieces (storage : Storage) (there : Octets) (pieces : List Octets) :
    let kept := storage.keep there pieces
    kept.pieces <+: pieces ∧ (kept.refusal = none → kept.pieces = pieces) := by
  induction pieces generalizing there with
  | nil => exact ⟨List.prefix_refl _, fun _ => rfl⟩
  | cons piece rest ih =>
    unfold Storage.keep
    cases storage.write there piece with
    | some cause => exact ⟨List.nil_prefix, nofun⟩
    | none =>
      obtain ⟨before, whole⟩ := ih (there ++ piece)
      exact ⟨List.cons_prefix_cons.mpr ⟨rfl, before⟩, fun kept => congrArg _ (whole kept)⟩

theorem Storage.keep_of_reliable (storage : Storage) (h : ∀ there more, storage.write there more = none)
    (there : Octets) (pieces : List Octets) : (storage.keep there pieces).refusal = none := by
  induction pieces generalizing there with
  | nil => rfl
  | cons piece rest ih =>
    unfold Storage.keep
    rw [h]
    exact ih (there ++ piece)

/-! ## Running totals -/

/-- How much is there after each of some pieces. -/
def totals (there : Nat) : List Octets → List Nat
  | [] => []
  | piece :: rest => (there + piece.length) :: totals (there + piece.length) rest

theorem totals_bounds (there : Nat) (pieces : List Octets) :
    ∀ n ∈ totals there pieces, there ≤ n ∧ n ≤ there + pieces.flatten.length := by
  induction pieces generalizing there with
  | nil => nofun
  | cons piece rest ih =>
    intro n hn
    rw [List.flatten_cons, List.length_append]
    rcases List.mem_cons.mp hn with rfl | hn
    · omega
    · have := ih _ n hn
      omega

theorem totals_sorted (there : Nat) (pieces : List Octets) : (totals there pieces).Pairwise (· ≤ ·) := by
  induction pieces generalizing there with
  | nil => exact .nil
  | cons piece rest ih => exact .cons (fun n hn => (totals_bounds _ rest n hn).1) (ih _)

/-- The last of the totals is how much there is in the end. -/
theorem totals_last (there : Nat) (pieces : List Octets) :
    (totals there pieces).getLast?.getD there = there + pieces.flatten.length := by
  induction pieces generalizing there with
  | nil => rfl
  | cons piece rest ih =>
    unfold totals
    rw [List.getLast?_cons, Option.getD_some, ih, List.flatten_cons, List.length_append, Nat.add_assoc]

end HostedGit
