/-
Transfers as they are seen from outside: which octets the temporary archive holds however a transfer ends, how many
are counted, and what is told of them in which order.
-/
import HostedGit.Proofs.Service.Download
import HostedGit.Proofs.Session.Flow
import Mathlib.Data.List.Infix

namespace HostedGit

open HostedGit.Action

/-- The length that a reply announces is that of its body, if that comes to its end. -/
def Reply.Framed (r : Reply) : Prop := ∀ n, r.length = some n → r.body.Comes → r.body.octets.length = n

namespace Service

open Session

variable {s : Service} {ctx : CallContext} {r : Repository} {σ σ' : Session} {held : Octets}

/-! ## Transfers that count -/

/-- Asks for a version, of which the body is still to come. -/
def opening (s : Service) (ctx : CallContext) (r : Repository) (reference : String) :
    Action Session Client.Response := do
  let u ← s.resource r (.download reference)
  s.client.get ctx u r.credentials "download zip"

/-- Puts pieces by as they come, and counts their octets on top of those that are written already. -/
def counted (s : Service) (ctx : CallContext) (limit : Instant) (ending : Coming Unit) (written : Nat) :
    List (Duration × Octets) → Action Session Nat
  | [] => do
    Session.await ctx limit (Client.bodyFailure "download zip") fun σ => (ending, σ)
    return written
  | (delay, piece) :: rest => do
    let piece ← Session.await ctx limit (Client.bodyFailure "download zip") fun σ => (.after delay piece, σ)
    append piece
    s.tell (.position (written + piece.length))
    s.counted ctx limit ending (written + piece.length) rest

/-- Fetches a version into the temporary archive, and answers how many octets were written. -/
def transfer (s : Service) (ctx : CallContext) (r : Repository) (reference : String) : Action Session Nat := do
  let response ← s.opening ctx r reference
  s.announce r response.reply.length
  let written ← s.counted ctx response.limit response.reply.body.ending 0 response.reply.body.pieces
  flush
  s.tell (.finished ("Downloaded " ++ r.locator.repository))
  return written

/-! ## Pieces that are put by -/

theorem append_held (piece : Octets) (ha : σ.archive = some held) :
    append piece σ = match σ.storage.write held piece with
      | none => (.ok (), { σ with archive := some (held ++ piece) })
      | some cause => (.error (.io "save HTTP response to a file" cause), σ) := by
  have appended := append_apply piece σ
  rw [ha, Option.getD_some] at appended
  exact appended

theorem save_told (s : Service) (piece : Octets) (ha : σ.archive = some held) :
    s.save piece σ = match σ.storage.write held piece with
      | none => (.ok (), σ.holding (held ++ piece) σ.timeline
          (σ.progress ++ s.told [.position (held.length + piece.length)]))
      | some cause => (.error (.io "save HTTP response to a file" cause), σ) := by
  have appended := append_held piece ha
  unfold save
  cases hw : σ.storage.write held piece with
  | none =>
    rw [hw] at appended
    rw [bind_ok appended, bind_ok (archiveSize_apply _), tell_apply]
    simp [holding]
  | some cause =>
    rw [hw] at appended
    exact bind_error appended

/-- Nothing is put by, and nothing is told of it. -/
theorem holding_nothing (s : Service) (ha : σ.archive = some held) (t : Timeline) :
    { σ with timeline := t } =
      σ.holding (held ++ List.flatten []) t (σ.progress ++ s.told ((totals held.length []).map .position)) := by
  rw [← holding_append_nil ha t]
  simp [totals]

/-- How a body ends that is put by: as storage refuses a piece of it, or as it ends itself. -/
def settled (came : Flow) (kept : Storage.Kept) : Except Error Unit :=
  match kept.refusal with
  | some cause => .error (.io "save HTTP response to a file" cause)
  | none => came.ended

/-- What the pieces of a body leave behind as they come: those that are kept, behind what was there, and their
running totals. -/
theorem forPieces_told (s : Service) (ctx : CallContext) (limit : Instant) (ending : Coming Unit)
    (pieces : List (Duration × Octets)) (ha : σ.archive = some held) :
    let came := Flow.of ctx "download zip" limit ending σ.timeline pieces
    let kept := σ.storage.keep held came.pieces
    ∃ t, Client.forPieces ctx "download zip" limit ending s.save pieces σ =
      (settled came kept, σ.holding (held ++ kept.pieces.flatten) t
        (σ.progress ++ s.told ((totals held.length kept.pieces).map .position))) := by
  induction pieces generalizing σ held with
  | nil =>
    refine ⟨(awaited ctx limit (Client.bodyFailure "download zip") ending σ.timeline).2, ?_⟩
    exact (await_eq ctx limit _ ending σ).trans (congrArg _ (s.holding_nothing ha _))
  | cons p rest ih =>
    obtain ⟨delay, piece⟩ := p
    have waited := await_eq ctx limit (Client.bodyFailure "download zip") (.after delay piece) σ
    unfold Client.forPieces Flow.of
    rcases hx : awaited ctx limit (Client.bodyFailure "download zip") (.after delay piece) σ.timeline with
      ⟨e | piece', t⟩
    · -- the next piece has not come
      rw [hx] at waited
      exact ⟨t, (bind_error waited).trans (congrArg _ (s.holding_nothing ha t))⟩
    rw [hx] at waited
    rw [bind_ok waited]
    have saved := s.save_told piece' (σ := { σ with timeline := t }) ha
    dsimp only at saved ⊢
    unfold Storage.keep
    cases hw : σ.storage.write held piece' with
    | some cause =>
      rw [hw] at saved
      exact ⟨t, (bind_error saved).trans (congrArg _ (s.holding_nothing ha t))⟩
    | none =>
      rw [hw] at saved
      rw [bind_ok saved]
      obtain ⟨t', h⟩ := ih (σ := ({ σ with timeline := t } : Session).holding (held ++ piece') t
        (σ.progress ++ s.told [.position (held.length + piece'.length)])) rfl
      refine ⟨t', h.trans ?_⟩
      dsimp only [holding]
      rw [List.length_append, List.append_assoc held, List.append_assoc σ.progress, ← told_append]
      rfl

/-! ## Whole transfers -/

/-- All that is told of a transfer: what comes before the body, the running totals of what is kept, and that the
transfer is done if it is. -/
def trace (r : Repository) (length : Option Nat) (kept : List Octets) (done : Bool) : List ProgressEvent :=
  heading r length ++ (totals 0 kept).map .position ++
    if done then [.finished ("Downloaded " ++ r.locator.repository)] else []

/-- How a transfer ends, by what came of the body and what is kept of it. -/
def verdict (storage : Storage) (came : Flow) (kept : Storage.Kept) : Except Error Unit :=
  (settled came kept).bind fun _ =>
    match storage.flush kept.pieces.flatten with
    | none => .ok ()
    | some cause => .error (.io "save HTTP response to a file" cause)

theorem trace_undone (s : Service) (r : Repository) (length : Option Nat) (kept : List Octets) :
    s.told (heading r length) ++ s.told ((totals 0 kept).map .position) = s.told (trace r length kept false) := by
  rw [← told_append, trace, if_neg Bool.false_ne_true, List.append_nil]

theorem trace_done (s : Service) (r : Repository) (length : Option Nat) (kept : List Octets) :
    s.told (trace r length kept false) ++ s.told [.finished ("Downloaded " ++ r.locator.repository)] =
      s.told (trace r length kept true) := by
  rw [← told_append, trace, if_neg Bool.false_ne_true, List.append_nil]
  rfl

theorem fetchArchive_opening (s : Service) (ctx : CallContext) (r : Repository) (reference : String) :
    s.fetchArchive ctx r reference = (do
      let response ← s.opening ctx r reference
      s.announce r response.reply.length
      Client.forPieces ctx "download zip" response.limit response.reply.body.ending s.save response.reply.body.pieces
      flush
      s.tell (.finished ("Downloaded " ++ r.locator.repository))) := by
  rw [fetchArchive_eq]
  unfold opening
  rw [bind_assoc]

/-- The end of a transfer whose body has come and is kept. -/
theorem finish_told (s : Service) (text : String) (ha : σ.archive = some held) :
    (do flush; s.tell (.finished text)) σ = match σ.storage.flush held with
      | none => (.ok (), { σ with progress := σ.progress ++ s.told [.finished text] })
      | some cause => (.error (.io "save HTTP response to a file" cause), σ) := by
  have flushed := store_apply "save HTTP response to a file" (·.flush held) σ
  have hf : flush σ = store "save HTTP response to a file" (·.flush held) σ := by rw [flush_apply, ha, Option.getD_some]
  cases hs : σ.storage.flush held with
  | none =>
    rw [hs] at flushed
    exact (bind_ok (hf.trans flushed)).trans (s.tell_apply _ σ)
  | some cause =>
    rw [hs] at flushed
    exact bind_error (hf.trans flushed)

/-- A transfer before its end: all that is told by then is told in order. -/
theorem forPieces_announced (s : Service) (ctx : CallContext) (r : Repository) (response : Client.Response)
    (ha : σ.archive = some []) :
    let body := response.reply.body
    let came := Flow.of ctx "download zip" response.limit body.ending σ.timeline body.pieces
    let kept := σ.storage.keep [] came.pieces
    ∃ t, (do
      s.announce r response.reply.length
      Client.forPieces ctx "download zip" response.limit body.ending s.save body.pieces) σ =
        (settled came kept, σ.holding kept.pieces.flatten t
          (σ.progress ++ s.told (trace r response.reply.length kept.pieces false))) := by
  intro body came kept
  obtain ⟨t, transferred⟩ := s.forPieces_told ctx response.limit body.ending body.pieces
    (σ := { σ with progress := σ.progress ++ s.told (heading r response.reply.length) }) ha
  refine ⟨t, (bind_ok (s.announce_apply r _ σ)).trans (transferred.trans ?_)⟩
  show (_, σ.holding kept.pieces.flatten t (σ.progress ++ s.told (heading r response.reply.length) ++
    s.told ((totals 0 kept.pieces).map .position))) = _
  rw [List.append_assoc, trace_undone]

theorem fetchArchive_told {reference : String} {response : Client.Response} {σ₁ : Session}
    (h : s.opening ctx r reference σ = (.ok response, σ₁)) (ha : σ₁.archive = some []) :
    let body := response.reply.body
    let came := Flow.of ctx "download zip" response.limit body.ending σ₁.timeline body.pieces
    let kept := σ₁.storage.keep [] came.pieces
    let out := verdict σ₁.storage came kept
    ∃ t, s.fetchArchive ctx r reference σ = (out, σ₁.holding kept.pieces.flatten t
      (σ₁.progress ++ s.told (trace r response.reply.length kept.pieces out.isOk))) := by
  intro body came kept out
  obtain ⟨t, transferred⟩ := s.forPieces_announced ctx r response ha
  refine ⟨t, ?_⟩
  rw [fetchArchive_opening, bind_ok h, ← bind_assoc]
  change _ = (settled came kept, _) at transferred
  have finished := s.finish_told ("Downloaded " ++ r.locator.repository)
    (σ := σ₁.holding kept.pieces.flatten t (σ₁.progress ++ s.told (trace r response.reply.length kept.pieces false)))
    rfl
  dsimp only [out]
  unfold verdict
  cases hs : settled came kept with
  | error e =>
    rw [hs] at transferred
    exact bind_error transferred
  | ok _ =>
    rw [hs] at transferred
    rw [bind_ok transferred, finished]
    dsimp only [holding, Except.bind]
    cases σ₁.storage.flush kept.pieces.flatten with
    | none =>
      dsimp only
      rw [List.append_assoc, trace_done]
      rfl
    | some cause => rfl

/-! ## Counting -/

/-- What is counted on the way is how much is there in the end. -/
theorem counted_eq (s : Service) (ctx : CallContext) (limit : Instant) (ending : Coming Unit)
    (pieces : List (Duration × Octets)) (ha : σ.archive = some held) :
    s.counted ctx limit ending held.length pieces σ = (do
      Client.forPieces ctx "download zip" limit ending s.save pieces
      archiveSize) σ := by
  induction pieces generalizing σ held with
  | nil =>
    unfold counted Client.forPieces
    rcases hx : await ctx limit (Client.bodyFailure "download zip") (fun s => (ending, s)) σ with ⟨e | _, σ'⟩
    · rw [bind_error hx, bind_error hx]
    · obtain ⟨t, rfl⟩ := await_still hx
      rw [bind_ok hx, bind_ok hx, archiveSize_apply]
      dsimp only
      rw [ha]
      rfl
  | cons p rest ih =>
    obtain ⟨delay, piece⟩ := p
    unfold counted Client.forPieces
    rw [bind_assoc]
    rcases hx : await ctx limit (Client.bodyFailure "download zip") (fun s => (.after delay piece, s)) σ with
      ⟨e | piece', σ'⟩
    · rw [bind_error hx, bind_error hx]
    obtain ⟨t, rfl⟩ := await_still hx
    rw [bind_ok hx, bind_ok hx, bind_assoc]
    have appended := append_held piece' (σ := { σ with timeline := t }) ha
    have saved := s.save_told piece' (σ := { σ with timeline := t }) ha
    dsimp only at appended saved
    cases hw : σ.storage.write held piece' with
    | some cause =>
      rw [hw] at appended saved
      rw [bind_error appended, bind_error saved]
    | none =>
      rw [hw] at appended saved
      rw [bind_ok appended, bind_ok (s.tell_apply _ _), bind_ok saved, ← List.length_append]
      exact ih rfl

theorem opening_keeps {R : Session → Session → Prop} (hR : Frame R) (s : Service) (ctx : CallContext)
    (r : Repository) (reference : String) : Keeps R (s.opening ctx r reference) :=
  hR.bind (hR.keeps_resource s r _) fun u => hR.keeps_get s.client ctx u r.credentials _

/-- What is counted stays right as long as the archive is left alone. -/
theorem counted_bind {x : Action Session Nat} {x' y : Action Session Unit}
    (hx : x σ = (do x'; archiveSize) σ) (hy : Keeps (fun σ σ' => σ'.archive = σ.archive) y) :
    (do let n ← x; y; return n) σ = (do x'; y; archiveSize) σ := by
  rcases hx' : x' σ with ⟨e | _, σ₁⟩
  · rw [bind_error hx'] at hx ⊢
    rw [bind_error hx]
  rw [bind_ok hx', archiveSize_apply] at hx
  rw [bind_ok hx', bind_ok hx]
  rcases hy' : y σ₁ with ⟨e | _, σ₂⟩
  · rw [bind_error hy', bind_error hy']
  · rw [bind_ok hy', bind_ok hy', archiveSize_apply, hy.of_eq hy']
    rfl

/-- A transfer is the fetching of an archive, and counts what the archive then holds. -/
theorem transfer_eq (s : Service) (ctx : CallContext) (r : Repository) (reference : String) (ha : σ.archive = some []) :
    s.transfer ctx r reference σ = (do
      s.fetchArchive ctx r reference
      archiveSize) σ := by
  have hF := archive_frame
  have finishing : Keeps (fun σ σ' => σ'.archive = σ.archive)
      (do flush; s.tell (.finished ("Downloaded " ++ r.locator.repository))) :=
    hF.bind (hF.bind hF.refl fun _ => hF.keeps_store _ _) fun _ σ => by rw [tell_apply]
  rw [fetchArchive_opening, bind_assoc]
  unfold transfer
  rcases hx : s.opening ctx r reference σ with ⟨e | response, σ₁⟩
  · rw [bind_error hx, bind_error hx]
  have ha₁ : σ₁.archive = some [] := ((opening_keeps hF s ctx r reference).of_eq hx).trans ha
  rw [bind_ok hx, bind_ok hx, bind_assoc, bind_ok (s.announce_apply r _ σ₁), bind_ok (s.announce_apply r _ σ₁)]
  have counted := counted_bind (s.counted_eq ctx response.limit response.reply.body.ending response.reply.body.pieces
    (σ := { σ₁ with progress := σ₁.progress ++ s.told (heading r response.reply.length) }) ha₁) finishing
  simp only [bind_assoc] at counted ⊢
  exact counted

/-! ## What a transfer comes to -/

theorem opening_ok {reference : String} {response : Client.Response}
    (h : s.opening ctx r reference σ = (.ok response, σ')) :
    σ.Replied σ' response.reply ∧ Status.isSuccess response.reply.status = true := by
  obtain ⟨u, σ₁, hu, h⟩ := bind_answered h
  rw [resource_apply] at hu
  obtain ⟨-, rfl⟩ := Prod.mk.inj hu
  exact Client.get_ok h

theorem verdict_eq_ok {storage : Storage} {came : Flow} {kept : Storage.Kept} :
    verdict storage came kept = .ok () ↔
      kept.refusal = none ∧ came.ended = .ok () ∧ storage.flush kept.pieces.flatten = none := by
  unfold verdict settled
  cases kept.refusal with
  | some cause => simp [Except.bind]
  | none =>
    rcases came.ended with e | _
    · simp [Except.bind]
    · cases storage.flush kept.pieces.flatten <;> simp [Except.bind]

theorem transfer_told {reference : String} {response : Client.Response} {σ₁ : Session} (ha : σ.archive = some [])
    (h : s.opening ctx r reference σ = (.ok response, σ₁)) :
    let body := response.reply.body
    let came := Flow.of ctx "download zip" response.limit body.ending σ₁.timeline body.pieces
    let kept := σ₁.storage.keep [] came.pieces
    let out := (verdict σ₁.storage came kept).map fun _ => kept.pieces.flatten.length
    ∃ t, s.transfer ctx r reference σ = (out, σ₁.holding kept.pieces.flatten t
      (σ₁.progress ++ s.told (trace r response.reply.length kept.pieces out.isOk))) := by
  intro body came kept out
  have ha₁ : σ₁.archive = some [] := ((opening_keeps archive_frame s ctx r reference).of_eq h).trans ha
  obtain ⟨t, fetched⟩ := fetchArchive_told h ha₁
  refine ⟨t, (s.transfer_eq ctx r reference ha).trans ?_⟩
  dsimp only [out]
  rcases hv : verdict σ₁.storage came kept with e | _
  · rw [hv] at fetched
    exact bind_error fetched
  · rw [hv] at fetched
    rw [bind_ok fetched]
    rfl

/-- What a transfer of the body of a reply comes to, of which something came and something is kept. -/
structure Streamed (s : Service) (r : Repository) (σ : Session) (reply : Reply) (came : Flow) (kept : Storage.Kept)
    (out : Except Error Nat × Session) : Prop where
  /-- What came are pieces of the body from the first one on, and all of them if its end came. -/
  came_first : came.pieces <+: reply.body.pieces.map (·.2)
  came_whole : came.ended = .ok () → came.pieces = reply.body.pieces.map (·.2)
  /-- What is kept is what came, unless storage refuses the next piece. -/
  kept_first : kept.pieces <+: came.pieces
  kept_whole : kept.refusal = none → kept.pieces = came.pieces
  unrefused : (∀ there more, σ.storage.write there more = none) → kept.refusal = none
  /-- The archive holds what is kept, which is the beginning of the body. -/
  archive : out.2.archive = some kept.pieces.flatten
  beginning : kept.pieces.flatten <+: reply.body.octets
  /-- The transfer is answered exactly if the whole body came and is kept, by the number of its octets. -/
  answered : ∀ n, out.1 = .ok n ↔ came.ended = .ok () ∧ kept.refusal = none ∧
    σ.storage.flush reply.body.octets = none ∧ n = reply.body.octets.length
  complete : ∀ n, out.1 = .ok n → out.2.archive = some reply.body.octets
  /-- If storage is not at fault, it fails as the body does. -/
  failed : ∀ e, kept.refusal = none → came.ended = .error e → out.1 = .error e
  /-- The length is told first, if it is announced; then the totals of what is kept; and then the end, if all
  went well. -/
  told : out.2.progress = σ.progress ++ s.told (trace r reply.length kept.pieces out.1.isOk)
  sorted : (totals 0 kept.pieces).Pairwise (· ≤ ·)
  bounded : ∀ n ∈ totals 0 kept.pieces, n ≤ reply.body.octets.length
  announced : reply.Framed → ∀ n l, out.1 = .ok n → reply.length = some l →
    l = n ∧ (totals 0 kept.pieces).getLast?.getD 0 = l

/-- How a transfer comes out shows in how it ends, in the archive, and in what is told. -/
theorem Streamed.of_told {reply : Reply} {came : Flow} {out : Except Error Nat × Session}
    (hc : came.pieces <+: reply.body.pieces.map (·.2) ∧
      (came.ended = .ok () → came.pieces = reply.body.pieces.map (·.2) ∧ reply.body.Comes))
    (hr : out.1 = (verdict σ.storage came (σ.storage.keep [] came.pieces)).map fun _ =>
      (σ.storage.keep [] came.pieces).pieces.flatten.length)
    (ha : out.2.archive = some (σ.storage.keep [] came.pieces).pieces.flatten)
    (ht : out.2.progress =
      σ.progress ++ s.told (trace r reply.length (σ.storage.keep [] came.pieces).pieces out.1.isOk)) :
    s.Streamed r σ reply came (σ.storage.keep [] came.pieces) out := by
  obtain ⟨came_first, came_whole⟩ := hc
  obtain ⟨kept_first, kept_whole⟩ := σ.storage.keep_pieces [] came.pieces
  have unrefused := fun h => σ.storage.keep_of_reliable h [] came.pieces
  generalize σ.storage.keep [] came.pieces = kept at *
  have octets : (reply.body.pieces.map (·.2)).flatten = reply.body.octets := rfl
  have beginning : kept.pieces.flatten <+: reply.body.octets :=
    octets ▸ List.IsPrefix.flatten (kept_first.trans came_first)
  -- what is kept of a body that comes to its end is all of it, if storage does not refuse
  have all (he : came.ended = .ok ()) (hn : kept.refusal = none) : kept.pieces.flatten = reply.body.octets := by
    rw [kept_whole hn, (came_whole he).1, octets]
  have answered (n : Nat) : out.1 = .ok n ↔ came.ended = .ok () ∧ kept.refusal = none ∧
      σ.storage.flush reply.body.octets = none ∧ n = reply.body.octets.length := by
    rw [hr]
    constructor
    · intro h
      cases hv : verdict σ.storage came kept with
      | error e =>
        rw [hv] at h
        cases h
      | ok _ =>
        rw [hv] at h
        cases h
        obtain ⟨hn, he, hf⟩ := verdict_eq_ok.mp hv
        rw [← all he hn]
        exact ⟨he, hn, hf, rfl⟩
    · rintro ⟨he, hn, hf, rfl⟩
      rw [verdict_eq_ok.mpr ⟨hn, he, by rwa [all he hn]⟩, all he hn]
      rfl
  exact {
    came_first
    came_whole := fun he => (came_whole he).1
    kept_first
    kept_whole
    unrefused
    archive := ha
    beginning
    answered
    complete := fun n h => by
      obtain ⟨he, hn, -⟩ := (answered n).mp h
      rw [ha, all he hn]
    failed := fun e hn he => by
      rw [hr]
      unfold verdict settled
      rw [hn, he]
      rfl
    told := ht
    sorted := totals_sorted 0 _
    bounded := fun n hn => by
      have := (totals_bounds 0 _ n hn).2
      have := beginning.length_le
      omega
    announced := fun framed n l h hl => by
      obtain ⟨he, hn, -, rfl⟩ := (answered n).mp h
      have := framed l hl (came_whole he).2
      rw [totals_last, all he hn]
      omega }

/-- What an exchange leaves alone of a transfer that is to come. -/
theorem untouched_frame : Frame fun σ σ' =>
    σ'.archive = σ.archive ∧ σ'.storage = σ.storage ∧ σ'.progress = σ.progress where
  refl _ := ⟨rfl, rfl, rfl⟩
  trans h h' := ⟨h'.1.trans h.1, h'.2.1.trans h.2.1, h'.2.2.trans h.2.2⟩
  log _ _ := ⟨rfl, rfl, rfl⟩
  wait _ _ := ⟨rfl, rfl, rfl⟩
  ask _ _ := ⟨rfl, rfl, rfl⟩

/-- A transfer of which the exchange fails ends with it, and nothing is told of it. -/
theorem transfer_of_unopened {reference : String} {e : Error} {σ₁ : Session}
    (h : s.opening ctx r reference { σ with archive := some [] } = (.error e, σ₁)) :
    s.transfer ctx r reference { σ with archive := some [] } = (.error e, σ₁) ∧
      σ₁.archive = some [] ∧ σ₁.progress = σ.progress := by
  obtain ⟨archive, -, progress⟩ := (opening_keeps untouched_frame s ctx r reference).of_eq h
  exact ⟨bind_error h, archive, progress⟩

theorem transfer_of_opened {reference : String} {response : Client.Response} {σ₁ : Session}
    (h : s.opening ctx r reference { σ with archive := some [] } = (.ok response, σ₁)) :
    let out := s.transfer ctx r reference { σ with archive := some [] }
    let came := Flow.of ctx "download zip" response.limit response.reply.body.ending σ₁.timeline
      response.reply.body.pieces
    Session.Replied { σ with archive := some [] } out.2 response.reply ∧
      Status.isSuccess response.reply.status = true ∧
      s.Streamed r σ response.reply came (σ.storage.keep [] came.pieces) out := by
  intro out came
  obtain ⟨-, storage, progress⟩ := (opening_keeps untouched_frame s ctx r reference).of_eq h
  obtain ⟨replied, success⟩ := opening_ok h
  obtain ⟨t, transferred⟩ := transfer_told rfl h
  rw [storage, progress] at transferred
  have transferred : out = _ := transferred
  refine ⟨?_, success, .of_told (Flow.of_pieces ..) (congrArg Prod.fst transferred) ?_ ?_⟩
  · rw [transferred]
    exact replied
  · rw [transferred]
    rfl
  · rw [transferred]
    rfl

/-- Whatever body a reply has, into whatever pieces it is split, and wherever it breaks off, comes too late, is
cancelled or is refused by storage: the archive holds the pieces that came, in their order; a transfer is answered
exactly if all of them came and are kept, by their number of octets; and what is told are the announced length, the
running totals, and the end if all went well. Nothing is told of an exchange that brings no body, such as one whose
last reply has a failing status. -/
theorem transfer_streams (s : Service) (ctx : CallContext) (r : Repository) (reference : String) (σ : Session) :
    let begun : Session := { σ with archive := some [] }
    let opened := s.opening ctx r reference begun
    let out := s.transfer ctx r reference begun
    out = (do s.fetchArchive ctx r reference; archiveSize) begun ∧
      (∀ e, opened.1 = .error e → out.1 = .error e ∧ out.2.archive = some [] ∧ out.2.progress = σ.progress) ∧
      (∀ reply, begun.Replied out.2 reply → Status.isSuccess reply.status = false →
        (∃ e, out.1 = .error e) ∧ out.2.progress = σ.progress) ∧
      ∀ response, opened.1 = .ok response →
        let body := response.reply.body
        let came := Flow.of ctx "download zip" response.limit body.ending opened.2.timeline body.pieces
        begun.Replied out.2 response.reply ∧ Status.isSuccess response.reply.status = true ∧
          s.Streamed r σ response.reply came (σ.storage.keep [] came.pieces) out := by
  intro begun opened out
  have counted : out = _ := s.transfer_eq ctx r reference rfl
  rcases ho : s.opening ctx r reference begun with ⟨e | response, σ₁⟩
  · have unopened : opened = (.error e, σ₁) := ho
    obtain ⟨failed, archive, untold⟩ := transfer_of_unopened ho
    have failed : out = (.error e, σ₁) := failed
    rw [unopened]
    refine ⟨counted, fun e' he => ?_, fun _ _ _ => ?_, nofun⟩ <;> rw [failed]
    · cases he
      exact ⟨rfl, archive, untold⟩
    · exact ⟨⟨e, rfl⟩, untold⟩
  · have isOpened : opened = (.ok response, σ₁) := ho
    obtain ⟨replied, success, streamed⟩ := transfer_of_opened ho
    rw [isOpened]
    refine ⟨counted, nofun, fun reply hreplied hstatus => ?_, fun response' hr => ?_⟩
    · rw [hreplied.unique replied, success] at hstatus
      cases hstatus
    · cases hr
      exact ⟨replied, success, streamed⟩

/-- A body in two pieces, of the length that was announced; and a reply with a status of failure. -/
theorem transfer_streams_in_pieces :
    let s : Service := ⟨⟨"client", ⟨30000000000⟩⟩, "https://dev.azure.com", Extract.archive, true⟩
    let r : Repository := ⟨⟨"org", "project", "repo", .blank⟩, none⟩
    let reply : Reply := ⟨200, none, some 5, ⟨[(⟨1⟩, [1, 2, 3]), (⟨1⟩, [4, 5])], .after ⟨0⟩ ()⟩⟩
    let σ (reply : Reply) : Session := .start ⟨fun _ => true, fun _ _ => .after ⟨1⟩ reply⟩ .empty "archive"
    let begun (reply : Reply) : Session := { σ reply with archive := some [] }
    let whole := s.transfer (.ofToken ⟨0⟩) r "refs/heads/main" (begun reply)
    let missing := s.transfer (.ofToken ⟨0⟩) r "refs/heads/main" (begun { reply with status := 404 })
    (whole.1 = .ok 5 ∧ whole.2.archive = some [1, 2, 3, 4, 5] ∧ ∃ kept,
      whole.2.progress = trace r (some 5) kept true ∧ (totals 0 kept).getLast?.getD 0 = 5) ∧
    (∃ e, missing.1 = .error e) ∧ missing.2.progress = [] := by
  intro s r reply σ begun whole missing
  have answered : whole.1.toOption = some 5 := by decide +kernel
  have asked : missing.2.requests.length = 1 := by decide +kernel
  have opened : (s.opening (.ofToken ⟨0⟩) r "refs/heads/main" (begun reply)).1.toOption.isSome := by decide +kernel
  obtain ⟨-, -, -, streams⟩ := s.transfer_streams (.ofToken ⟨0⟩) r "refs/heads/main" (σ reply)
  obtain ⟨-, -, failing, -⟩ := s.transfer_streams (.ofToken ⟨0⟩) r "refs/heads/main" (σ { reply with status := 404 })
  constructor
  · obtain ⟨response, ho⟩ := Option.isSome_iff_exists.mp opened
    obtain ⟨⟨_, _, _, -, -, hreply⟩, -, streamed⟩ := streams response (Locator.eq_ok_of_toOption ho)
    rw [← (Coming.after.inj hreply).2] at streamed
    have answered := Locator.eq_ok_of_toOption answered
    have framed : reply.Framed := fun n hn _ => by
      cases hn
      rfl
    have told := streamed.told
    rw [answered] at told
    exact ⟨answered, streamed.complete 5 answered, _, told, (streamed.announced framed 5 5 answered rfl).2⟩
  · obtain ⟨q, hq⟩ := List.length_eq_one_iff.mp asked
    exact failing { reply with status := 404 } ⟨[], q, ⟨1⟩, List.nil_prefix, hq, rfl⟩ (by decide)

end Service

end HostedGit
