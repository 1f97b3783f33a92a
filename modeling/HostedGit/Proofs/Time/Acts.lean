/-
What callers do besides their calls: they make tokens and contexts and copy them, bound contexts by spans of time,
cancel tokens, and let time pass. Tokens are shared by what is made of them and deadlines are copied, so whether a
context still lets calls go on is read off the whole history: whether its token was cancelled by way of anything
that bears it, and which of the spans on its own way here ends first.
-/
import HostedGit.Proofs.Time.Deadline
import Mathlib.Algebra.GroupWithZero.Nat
import Mathlib.Data.List.Induction
import Mathlib.Order.Bounds.Basic
import Mathlib.Order.Nat

namespace HostedGit

/-! ## Histories -/

/-- What a caller does. What it has made is named by its place in the history. -/
inductive Act where
  /-- Makes a token. -/
  | token
  /-- Copies a token. -/
  | cloneToken (i : Nat)
  /-- Takes the token out of a context. -/
  | tokenOf (i : Nat)
  /-- Makes a context with a token of its own. -/
  | background
  /-- Makes a context of a token. -/
  | withToken (i : Nat)
  /-- Copies a context. -/
  | cloneContext (i : Nat)
  /-- Makes a context of another, that ends a span of time from now at the latest. -/
  | withTimeout (i : Nat) (d : Duration)
  /-- Cancels a token. -/
  | cancel (i : Nat)
  /-- Lets time pass. -/
  | advance (d : Duration)
  deriving DecidableEq

/-- What an act makes. -/
inductive Kind where
  | token
  | context
  | nothing
  deriving DecidableEq

namespace Act

/-- What an act makes. -/
def kind : Act → Kind
  | token | cloneToken _ | tokenOf _ => .token
  | background | withToken _ | cloneContext _ | withTimeout .. => .context
  | cancel _ | advance _ => .nothing

/-- What an act takes a token from. -/
def source? : Act → Option Nat
  | cloneToken i | tokenOf i | withToken i | cloneContext i | withTimeout i _ => some i
  | token | background | cancel _ | advance _ => none

/-- What an act derives a context from. -/
def parent? : Act → Option Nat
  | cloneContext i | withTimeout i _ => some i
  | _ => none

/-- The time that passes in an act. -/
def lapse : Act → Nat
  | advance d => d.nanos
  | _ => 0

end Act

/-- What a caller has done, from the start of the clock. -/
abbrev Acts := List Act

namespace Acts

/-- What a clock shows after a history. -/
def clock (H : Acts) : Nat := (H.map Act.lapse).sum

/-- What is made at a place of a history. -/
def Makes (H : Acts) (i : Nat) (kind : Kind) : Prop := H[i]?.map Act.kind = some kind

instance (H : Acts) (i : Nat) (kind : Kind) : Decidable (Makes H i kind) := inferInstanceAs (Decidable (_ = _))

/-- Whether an act can come next: what it names has been made, and the moment that it sets can be told. -/
def Admits (H : Acts) : Act → Prop
  | .token | .background | .advance _ => True
  | .cloneToken i | .withToken i | .cancel i => Makes H i .token
  | .tokenOf i | .cloneContext i => Makes H i .context
  | .withTimeout i d => Makes H i .context ∧ clock H + d.nanos ≤ Instant.latest.nanos

instance (H : Acts) : (a : Act) → Decidable (Admits H a)
  | .token | .background | .advance _ => inferInstanceAs (Decidable True)
  | .cloneToken _ | .withToken _ | .cancel _ | .tokenOf _ | .cloneContext _ => inferInstanceAs (Decidable (Makes ..))
  | .withTimeout .. => inferInstanceAs (Decidable (_ ∧ _))

/-- A history each act of which can come after those before it. -/
def Sound (H : Acts) : Prop := ∀ i (h : i < H.length), Admits (H.take i) H[i]

instance (H : Acts) : Decidable (Sound H) := inferInstanceAs (Decidable (∀ i, ∀ _ : i < _, _))

/-- What is made at a place comes from what is made at another, by way of earlier and earlier things. -/
inductive ComesFrom (next : Act → Option Nat) (H : Acts) : Nat → Nat → Prop
  | refl (i : Nat) : ComesFrom next H i i
  | step {i j n : Nat} {a : Act} (h : H[i]? = some a) (hn : next a = some j) (hj : j < i)
    (hc : ComesFrom next H j n) : ComesFrom next H i n

/-- A token or a context bears the token that is made at a place. -/
def Bears (H : Acts) (i n : Nat) : Prop :=
  ComesFrom Act.source? H i n ∧ (H[n]? = some .token ∨ H[n]? = some .background)

/-- A token has been cancelled, by way of anything that bears it. -/
def Struck (H : Acts) (n : Nat) : Prop := ∃ p j, H[p]? = some (.cancel j) ∧ j < p ∧ Bears H j n

/-- A context is the other or is derived from it. -/
def Derived (H : Acts) (i j : Nat) : Prop := ComesFrom Act.parent? H j i

/-- A moment that was set as a limit on the way on which a context was derived. -/
def Limit (H : Acts) (i l : Nat) : Prop :=
  ∃ j m d, Derived H j i ∧ H[j]? = some (.withTimeout m d) ∧ l = clock (H.take j) + d.nanos

/-- A context whose token has been cancelled. -/
def Cancelled (H : Acts) (i : Nat) : Prop := ∃ n, Bears H i n ∧ Struck H n

/-- A context the first of whose limits has come. -/
def Late (H : Acts) (i : Nat) : Prop := ∃ l, IsLeast {m | Limit H i m} l ∧ l ≤ clock H

/-! ### Longer histories -/

variable {H H' : Acts} {next : Act → Option Nat} {a : Act} {i j n l : Nat}

theorem makes_append (h : i < H.length) {kind : Kind} : Makes (H ++ H') i kind ↔ Makes H i kind := by
  unfold Makes
  rw [List.getElem?_append_left h]

theorem Makes.lt {kind : Kind} (h : Makes H i kind) : i < H.length := by
  obtain ⟨a, ha, -⟩ := Option.map_eq_some_iff.mp h
  exact (List.getElem?_eq_some_iff.mp ha).1

theorem clock_append (H H' : Acts) : clock (H ++ H') = clock H + clock H' := by
  unfold clock
  rw [List.map_append, List.sum_append]

theorem clock_concat (H : Acts) (a : Act) : clock (H ++ [a]) = clock H + a.lapse := by
  rw [clock_append]
  exact congrArg _ (Nat.add_zero _)

theorem sound_concat : Sound (H ++ [a]) ↔ Sound H ∧ Admits H a := by
  unfold Sound
  constructor
  · intro h
    refine ⟨fun i hi => ?_, ?_⟩
    · have := h i (by simp; omega)
      rwa [List.take_append_of_le_length (by omega), List.getElem_append_left hi] at this
    · simpa using h H.length (by simp)
  · rintro ⟨h, ha⟩ i hi
    by_cases hi' : i < H.length
    · rw [List.take_append_of_le_length (by omega), List.getElem_append_left hi']
      exact h i hi'
    · obtain rfl : i = H.length := by simp at hi; omega
      simpa using ha

theorem ComesFrom.le (h : ComesFrom next H i j) : j ≤ i := by
  induction h with
  | refl => exact Nat.le_refl _
  | step _ _ hj _ ih => omega

theorem ComesFrom.trans (h : ComesFrom next H i j) (h' : ComesFrom next H j n) : ComesFrom next H i n := by
  induction h with
  | refl => exact h'
  | step ha hn hj _ ih => exact .step ha hn hj (ih h')

theorem comesFrom_append (hi : i < H.length) : ComesFrom next (H ++ H') i n ↔ ComesFrom next H i n := by
  constructor <;> intro h
  · induction h with
    | refl => exact .refl _
    | step ha hn hj _ ih =>
      rw [List.getElem?_append_left hi] at ha
      exact .step ha hn hj (ih (by omega))
  · induction h with
    | refl => exact .refl _
    | step ha hn hj _ ih =>
      exact .step ((List.getElem?_append_left hi).trans ha) hn hj (ih (by omega))

/-- What was made last comes from itself, or from what it was made of. -/
theorem comesFrom_last (H : Acts) (a : Act) :
    ComesFrom next (H ++ [a]) H.length n ↔
      n = H.length ∨ ∃ j, next a = some j ∧ j < H.length ∧ ComesFrom next H j n := by
  have last : (H ++ [a])[H.length]? = some a := List.getElem?_concat_length
  constructor
  · rintro (_ | ⟨ha, hn, hj, hc⟩)
    · exact .inl rfl
    · cases last.symm.trans ha
      exact .inr ⟨_, hn, hj, (comesFrom_append hj).mp hc⟩
  · rintro (rfl | ⟨j, hn, hj, hc⟩)
    · exact .refl _
    · exact .step last hn hj ((comesFrom_append hj).mpr hc)

theorem bears_append (hi : i < H.length) : Bears (H ++ H') i n ↔ Bears H i n := by
  unfold Bears
  rw [comesFrom_append hi]
  refine and_congr_right fun hc => ?_
  rw [List.getElem?_append_left (by have := hc.le; omega)]

theorem limit_append (hi : i < H.length) : Limit (H ++ H') i l ↔ Limit H i l := by
  unfold Limit Derived
  refine exists_congr fun j => exists_congr fun m => exists_congr fun d => ?_
  rw [comesFrom_append hi]
  refine and_congr_right fun hc => ?_
  have := hc.le
  rw [List.getElem?_append_left (by omega), List.take_append_of_le_length (by omega)]

/-- A token that was made last is a new one, or that of what it was made of. -/
theorem bears_last (H : Acts) (a : Act) :
    Bears (H ++ [a]) H.length n ↔
      (a = .token ∨ a = .background) ∧ n = H.length ∨ ∃ j, a.source? = some j ∧ j < H.length ∧ Bears H j n := by
  have last : (H ++ [a])[H.length]? = some a := List.getElem?_concat_length
  unfold Bears
  rw [comesFrom_last]
  constructor
  · rintro ⟨rfl | ⟨j, hn, hj, hc⟩, hf⟩
    · rw [last] at hf
      exact .inl ⟨hf.imp Option.some.inj Option.some.inj, rfl⟩
    · have := hc.le
      rw [List.getElem?_append_left (by omega)] at hf
      exact .inr ⟨j, hn, hj, hc, hf⟩
  · rintro (⟨hf, rfl⟩ | ⟨j, hn, hj, hc, hf⟩)
    · rw [last]
      exact ⟨.inl rfl, hf.imp (congrArg some) (congrArg some)⟩
    · have := hc.le
      rw [List.getElem?_append_left (by omega)]
      exact ⟨.inr ⟨j, hn, hj, hc⟩, hf⟩

/-- The limits of a context that was made last: one that is set now, and those of the context it was made of. -/
theorem limit_last (H : Acts) (a : Act) :
    Limit (H ++ [a]) H.length l ↔
      (∃ m d, a = .withTimeout m d ∧ l = clock H + d.nanos) ∨
        ∃ j, a.parent? = some j ∧ j < H.length ∧ Limit H j l := by
  have last : (H ++ [a])[H.length]? = some a := List.getElem?_concat_length
  constructor
  · rintro ⟨j, m, d, hc, hj, rfl⟩
    rcases (comesFrom_last H a).mp hc with rfl | ⟨i, hn, hi, hc⟩
    · cases last.symm.trans hj
      exact .inl ⟨m, d, rfl, by rw [List.take_left]⟩
    · have := hc.le
      refine .inr ⟨i, hn, hi, j, m, d, hc, ?_, ?_⟩
      · rwa [List.getElem?_append_left (by omega)] at hj
      · rw [List.take_append_of_le_length (by omega)]
  · rintro (⟨m, d, rfl, rfl⟩ | ⟨j, hn, hj, hl⟩)
    · exact ⟨_, m, d, .refl _, last, by rw [List.take_left]⟩
    · obtain ⟨i, m, d, hc, hi, he⟩ : Limit (H ++ [a]) j l := (limit_append hj).mpr hl
      exact ⟨i, m, d, .step last hn hj hc, hi, he⟩

theorem Struck.append (h : Struck H n) (H' : Acts) : Struck (H ++ H') n := by
  obtain ⟨p, j, hp, hj, hb⟩ := h
  have hp' := (List.getElem?_eq_some_iff.mp hp).1
  refine ⟨p, j, ?_, hj, (bears_append (by omega)).mpr hb⟩
  rwa [List.getElem?_append_left hp']

theorem struck_concat : Struck (H ++ [a]) n ↔ Struck H n ∨ ∃ j, a = .cancel j ∧ j < H.length ∧ Bears H j n := by
  constructor
  · rintro ⟨p, j, hp, hj, hb⟩
    by_cases hp' : p < H.length
    · rw [List.getElem?_append_left hp'] at hp
      exact .inl ⟨p, j, hp, hj, (bears_append (by omega)).mp hb⟩
    · obtain rfl : p = H.length := by
        have := (List.getElem?_eq_some_iff.mp hp).1
        simp at this
        omega
      cases List.getElem?_concat_length.symm.trans hp
      exact .inr ⟨j, rfl, hj, (bears_append hj).mp hb⟩
  · rintro (h | ⟨j, rfl, hj, hb⟩)
    · exact h.append _
    · exact ⟨H.length, j, List.getElem?_concat_length, hj, (bears_append hj).mpr hb⟩

/-! ### Contexts that are over -/

theorem late_iff : Late H i ↔ ∃ l, Limit H i l ∧ l ≤ clock H := by
  classical
  constructor
  · rintro ⟨l, hl, hle⟩
    exact ⟨l, hl.1, hle⟩
  · rintro ⟨l, hl, hle⟩
    have first := Nat.isLeast_find ⟨l, hl⟩
    exact ⟨_, first, Nat.le_trans (first.2 hl) hle⟩

/-- A context derives its token along with itself. -/
theorem Derived.bears (h : Derived H i j) (hb : Bears H i n) : Bears H j n := by
  refine ⟨?_, hb.2⟩
  unfold Derived at h
  induction h with
  | refl => exact hb.1
  | @step _ _ _ a ha hn hj _ ih =>
    refine .step ha ?_ hj (ih hb)
    cases a <;> first | exact hn | cases hn

theorem Derived.limit (h : Derived H i j) (hl : Limit H i l) : Limit H j l := by
  obtain ⟨k, m, d, hk, hm, he⟩ := hl
  exact ⟨k, m, d, ComesFrom.trans h hk, hm, he⟩

theorem Derived.makes (h : Derived H i j) (hi : Makes H i .context) : Makes H j .context := by
  rcases h with _ | @⟨_, _, _, a, ha, hn, -, -⟩
  · exact hi
  · unfold Makes
    rw [ha]
    cases a <;> first | rfl | cases hn

/-- A context that is over stays over, and so does every context that is ever derived from it. -/
theorem over_derived (hi : i < H.length) (h : Cancelled H i ∨ Late H i) (hd : Derived (H ++ H') i j) :
    Cancelled (H ++ H') j ∨ Late (H ++ H') j := by
  rcases h with ⟨n, hb, hs⟩ | h
  · exact .inl ⟨n, hd.bears ((bears_append hi).mpr hb), hs.append H'⟩
  · obtain ⟨l, hl, hle⟩ := late_iff.mp h
    refine .inr (late_iff.mpr ⟨l, hd.limit ((limit_append hi).mpr hl), ?_⟩)
    rw [clock_append]
    omega

end Acts

/-! ## Callers -/

/-- Something that a caller has. -/
inductive Made where
  | token (t : Token)
  | context (c : CallContext)
  | nothing

namespace Made

/-- What it is. -/
def kind : Made → Kind
  | token _ => .token
  | context _ => .context
  | nothing => .nothing

/-- The token that it bears. -/
def token? : Made → Option Token
  | token t => some t
  | context c => some c.token
  | nothing => none

end Made

/-- A caller: what is known of time, and what it has made, one thing for each act. -/
structure Caller where
  timeline : Timeline
  made : List Made

namespace Caller

/-- A caller that has not done anything. -/
def start : Caller := ⟨.start, []⟩

/-- The token at a place. -/
def tokenAt? (k : Caller) (i : Nat) : Option Token :=
  match k.made[i]? with
  | some (.token t) => some t
  | _ => none

/-- The context at a place. -/
def contextAt? (k : Caller) (i : Nat) : Option CallContext :=
  match k.made[i]? with
  | some (.context c) => some c
  | _ => none

/-- What an act makes. A token that is new is told by its place from all that are there. -/
def make? (k : Caller) : Act → Option Made
  | .token => some (.token ⟨k.made.length⟩)
  | .cloneToken i => (k.tokenAt? i).map .token
  | .tokenOf i => (k.contextAt? i).map fun c => .token c.token
  | .background => some (.context (.ofToken ⟨k.made.length⟩))
  | .withToken i => (k.tokenAt? i).map fun t => .context (.ofToken t)
  | .cloneContext i => (k.contextAt? i).map .context
  | .withTimeout i d => (k.contextAt? i).bind fun c => (c.withTimeout? k.timeline.now d).map .context
  | .cancel i => (k.tokenAt? i).map fun _ => .nothing
  | .advance _ => some .nothing

/-- What is known of time after an act. -/
def pass (k : Caller) : Act → Timeline
  | .cancel i => (k.tokenAt? i).elim k.timeline k.timeline.cancel
  | .advance d => k.timeline.advance d
  | _ => k.timeline

/-- Does something. -/
def act? (k : Caller) (a : Act) : Option Caller := (k.make? a).map fun m => ⟨k.pass a, k.made ++ [m]⟩

/-- The caller that has done all of a history. -/
def after? (H : Acts) : Option Caller := H.foldlM act? start

variable {k k' : Caller} {a : Act} {i : Nat}

theorem tokenAt?_eq_some {t : Token} : k.tokenAt? i = some t ↔ k.made[i]? = some (.token t) := by
  unfold tokenAt?
  split <;> simp_all

theorem contextAt?_eq_some {c : CallContext} : k.contextAt? i = some c ↔ k.made[i]? = some (.context c) := by
  unfold contextAt?
  split <;> simp_all

theorem after?_concat (H : Acts) (a : Act) : after? (H ++ [a]) = (after? H).bind (·.act? a) := by
  unfold after?
  rw [List.foldlM_append]
  exact congrArg (Option.bind _) (funext fun k => bind_pure _)

/-- What each act gives, and what it takes for that. -/
inductive Gives (k : Caller) : Act → Made → Prop
  | token : Gives k .token (.token ⟨k.made.length⟩)
  | cloneToken {i : Nat} {t : Token} (h : k.made[i]? = some (.token t)) : Gives k (.cloneToken i) (.token t)
  | tokenOf {i : Nat} {c : CallContext} (h : k.made[i]? = some (.context c)) : Gives k (.tokenOf i) (.token c.token)
  | background : Gives k .background (.context ⟨⟨k.made.length⟩, none⟩)
  | withToken {i : Nat} {t : Token} (h : k.made[i]? = some (.token t)) : Gives k (.withToken i) (.context ⟨t, none⟩)
  | cloneContext {i : Nat} {c : CallContext} (h : k.made[i]? = some (.context c)) :
    Gives k (.cloneContext i) (.context c)
  | withTimeout {i : Nat} {c : CallContext} {d : Duration} {m : Instant} (h : k.made[i]? = some (.context c))
    (hm : k.timeline.now.after? d = some m) :
    Gives k (.withTimeout i d) (.context ⟨c.token, some (c.deadline.elim m m.earlier)⟩)
  | cancel {i : Nat} {t : Token} (h : k.made[i]? = some (.token t)) : Gives k (.cancel i) .nothing
  | advance (d : Duration) : Gives k (.advance d) .nothing

theorem gives_of_make? {m : Made} (h : k.make? a = some m) : k.Gives a m := by
  cases a with
  | token => cases h; exact .token
  | background => cases h; exact .background
  | advance d => cases h; exact .advance d
  | cloneToken | withToken | cancel =>
    obtain ⟨t, ht, rfl⟩ := Option.map_eq_some_iff.mp h
    constructor
    exact tokenAt?_eq_some.mp ht
  | tokenOf | cloneContext =>
    obtain ⟨c, hc, rfl⟩ := Option.map_eq_some_iff.mp h
    constructor
    exact contextAt?_eq_some.mp hc
  | withTimeout i d =>
    obtain ⟨c, hc, h⟩ := Option.bind_eq_some_iff.mp h
    obtain ⟨c', hc', rfl⟩ := Option.map_eq_some_iff.mp h
    obtain ⟨m, hm, hc'⟩ := Option.bind_eq_some_iff.mp hc'
    cases hc'
    exact .withTimeout (contextAt?_eq_some.mp hc) hm

end Caller

/-! ## What a caller knows -/

open Acts

/-- The deadline of a context is the first of some limits. -/
def Soonest (limits : Set Nat) : Option Instant → Prop
  | none => limits = ∅
  | some d => IsLeast limits d.nanos

theorem Soonest.insert {limits : Set Nat} {deadline : Option Instant} (h : Soonest limits deadline) (m : Instant) :
    Soonest (Insert.insert m.nanos limits) (some (deadline.elim m m.earlier)) := by
  cases deadline with
  | none =>
    cases (show limits = ∅ from h)
    simp [Soonest]
  | some d =>
    show IsLeast _ (m.earlier d).nanos
    rw [Timeline.nanos_earlier]
    exact IsLeast.insert m.nanos h

/-- A caller is as its history says. -/
structure Knows (H : Acts) (k : Caller) : Prop where
  kinds : k.made.map Made.kind = H.map Act.kind
  now : k.timeline.now.nanos = clock H
  unplanned : k.timeline.planned = []
  cancelled : ∀ t, t ∈ k.timeline.cancelled ↔ Struck H t.id
  bears : ∀ {i m t}, k.made[i]? = some m → m.token? = some t → ∀ n, Bears H i n ↔ n = t.id
  soonest : ∀ {i c}, k.made[i]? = some (.context c) → Soonest {l | Limit H i l} c.deadline

variable {H : Acts} {k k' : Caller} {a : Act}

theorem Knows.length (h : Knows H k) : k.made.length = H.length := by
  simpa using congrArg List.length h.kinds

theorem Knows.lt (h : Knows H k) {i : Nat} {m : Made} (hi : k.made[i]? = some m) : i < H.length := by
  rw [← h.length]
  exact (List.getElem?_eq_some_iff.mp hi).1

theorem knows_start : Knows [] .start where
  kinds := rfl
  now := rfl
  unplanned := rfl
  cancelled _ := ⟨nofun, fun ⟨_, _, h, _⟩ => nomatch h⟩
  bears h := nomatch h
  soonest h := nomatch h

/-- The token of what is made by an act. -/
theorem Knows.bears_made (h : Knows H k) {m : Made} {t : Token} (hm : k.Gives a m) (ht : m.token? = some t) (n : Nat) :
    Bears (H ++ [a]) H.length n ↔ n = t.id := by
  rw [bears_last]
  have copied {i : Nat} {m' : Made} (hi : k.made[i]? = some m') (ht : m'.token? = some t) (hs : a.source? = some i)
      (hf : ¬ (a = .token ∨ a = .background)) :
      (a = .token ∨ a = .background) ∧ n = H.length ∨ (∃ j, a.source? = some j ∧ j < H.length ∧ Bears H j n) ↔
        n = t.id := by
    rw [← h.bears hi ht n]
    simp [hs, hf, h.lt hi]
  cases hm with
  | token | background =>
    cases ht
    simp [Act.source?, h.length]
  | cloneToken hi | withToken hi | tokenOf hi | cloneContext hi | withTimeout hi _ =>
    exact copied hi ht rfl (by simp)
  | cancel | advance => cases ht

/-- The deadline of a context that is made by an act. -/
theorem Knows.soonest_made (h : Knows H k) {c : CallContext} (hm : k.Gives a (.context c)) :
    Soonest {l | Limit (H ++ [a]) H.length l} c.deadline := by
  cases hm with
  | background | withToken =>
    refine Set.eq_empty_of_forall_notMem fun l hl => ?_
    rcases (limit_last H _).mp hl with ⟨_, _, ha, -⟩ | ⟨_, ha, -⟩ <;> cases ha
  | cloneContext hi =>
    convert h.soonest hi using 2
    ext l
    simp [limit_last, Act.parent?, h.lt hi]
  | @withTimeout i c d m hi hd =>
    have set : m.nanos = clock H + d.nanos := by
      obtain ⟨-, rfl⟩ := Instant.after?_eq_some_iff.mp hd
      rw [← h.now]
      rfl
    have limits : {l | Limit (H ++ [.withTimeout i d]) H.length l} = Insert.insert m.nanos {l | Limit H i l} := by
      ext l
      simp [limit_last, Act.parent?, h.lt hi, set]
    rw [limits]
    exact (h.soonest hi).insert m

/-- What an act changes of what is known of time. -/
theorem Knows.pass (h : Knows H k) {m : Made} (hm : k.Gives a m) :
    (k.pass a).now.nanos = clock (H ++ [a]) ∧ (k.pass a).planned = [] ∧
      ∀ t, t ∈ (k.pass a).cancelled ↔ Struck (H ++ [a]) t.id := by
  simp only [clock_concat, struck_concat, ← h.now, ← h.cancelled]
  cases hm with
  | @cancel i t hi =>
    have pass : k.pass (.cancel i) = k.timeline.cancel t := by
      show (k.tokenAt? i).elim k.timeline k.timeline.cancel = _
      rw [Caller.tokenAt?_eq_some.mpr hi]
      rfl
    rw [pass]
    refine ⟨rfl, h.unplanned, fun t' => ?_⟩
    have same : t' = t ↔ t'.id = t.id := ⟨congrArg _, fun he => by cases t'; cases t; cases he; rfl⟩
    simp [Timeline.cancel, same, h.lt hi, h.bears hi rfl, or_comm]
  | advance d => exact ⟨rfl, by simp [Caller.pass, Timeline.advance, Timeline.settle, h.unplanned],
      fun t => by simp [Caller.pass, Timeline.advance, Timeline.settle, h.unplanned]⟩
  | _ => exact ⟨rfl, h.unplanned, fun t => by simp [Caller.pass]⟩

theorem Knows.act (h : Knows H k) (ha : k.act? a = some k') : Knows (H ++ [a]) k' := by
  obtain ⟨m, hm, rfl⟩ := Option.map_eq_some_iff.mp ha
  have gives := Caller.gives_of_make? hm
  obtain ⟨now, unplanned, cancelled⟩ := h.pass gives
  have cases_made {i : Nat} {m' : Made} (hi : (k.made ++ [m])[i]? = some m') :
      k.made[i]? = some m' ∧ i < H.length ∨ i = H.length ∧ m' = m := by
    rcases Nat.lt_trichotomy i k.made.length with hlt | rfl | hgt
    · rw [List.getElem?_append_left hlt] at hi
      exact .inl ⟨hi, h.lt hi⟩
    · rw [List.getElem?_concat_length] at hi
      exact .inr ⟨h.length, (Option.some.inj hi).symm⟩
    · rw [List.getElem?_eq_none (by simp; omega)] at hi
      cases hi
  refine ⟨?_, now, unplanned, cancelled, ?_, ?_⟩
  · rw [List.map_append, List.map_append, h.kinds]
    cases gives <;> rfl
  · intro i m' t hi ht n
    rcases cases_made hi with ⟨hi, hlt⟩ | ⟨rfl, rfl⟩
    · rw [bears_append hlt]
      exact h.bears hi ht n
    · exact h.bears_made gives ht n
  · intro i c hi
    rcases cases_made hi with ⟨hi, hlt⟩ | ⟨rfl, rfl⟩
    · simp only [limit_append hlt]
      exact h.soonest hi
    · exact h.soonest_made gives

/-- What a history makes is there. -/
theorem Knows.made (h : Knows H k) {i : Nat} {kind : Kind} (hi : Makes H i kind) :
    ∃ m, k.made[i]? = some m ∧ m.kind = kind := by
  unfold Makes at hi
  rw [← List.getElem?_map, ← h.kinds, List.getElem?_map] at hi
  exact Option.map_eq_some_iff.mp hi

theorem Knows.context (h : Knows H k) {i : Nat} (hi : Makes H i .context) :
    ∃ c, k.made[i]? = some (.context c) := by
  obtain ⟨m, hm, hk⟩ := h.made hi
  cases m with
  | context c => exact ⟨c, hm⟩
  | token | nothing => cases hk

theorem Knows.token (h : Knows H k) {i : Nat} (hi : Makes H i .token) : ∃ t, k.made[i]? = some (.token t) := by
  obtain ⟨m, hm, hk⟩ := h.made hi
  cases m with
  | token t => exact ⟨t, hm⟩
  | context | nothing => cases hk

/-- What can come next can be done. -/
theorem Knows.act_of_admits (h : Knows H k) (ha : Admits H a) : ∃ k', k.act? a = some k' := by
  suffices ∃ m, k.make? a = some m by
    obtain ⟨m, hm⟩ := this
    exact ⟨_, congrArg _ hm⟩
  unfold Caller.make?
  cases a with
  | token | background | advance => exact ⟨_, rfl⟩
  | cloneToken | withToken | cancel =>
    obtain ⟨t, ht⟩ := h.token ha
    dsimp only
    rw [Caller.tokenAt?_eq_some.mpr ht]
    exact ⟨_, rfl⟩
  | tokenOf | cloneContext =>
    obtain ⟨c, hc⟩ := h.context ha
    dsimp only
    rw [Caller.contextAt?_eq_some.mpr hc]
    exact ⟨_, rfl⟩
  | withTimeout i d =>
    obtain ⟨hi, hd⟩ := ha
    obtain ⟨c, hc⟩ := h.context hi
    rw [← h.now] at hd
    obtain ⟨c', made⟩ : ∃ c', c.withTimeout? k.timeline.now d = some c' :=
      ⟨_, CallContext.withTimeout?_eq_some_iff.mpr ⟨hd, rfl⟩⟩
    dsimp only
    rw [Caller.contextAt?_eq_some.mpr hc, Option.bind_some, made]
    exact ⟨_, rfl⟩

/-- A history can be gone through, and a caller that has done so is as it says. -/
theorem knows_after? (hs : Sound H) : ∃ k, Caller.after? H = some k ∧ Knows H k := by
  induction H using List.reverseRecOn with
  | nil => exact ⟨_, rfl, knows_start⟩
  | append_singleton H a ih =>
    obtain ⟨hs, ha⟩ := sound_concat.mp hs
    obtain ⟨k, hk, h⟩ := ih hs
    obtain ⟨k', hk'⟩ := h.act_of_admits ha
    refine ⟨k', ?_, h.act hk'⟩
    rw [Caller.after?_concat, hk]
    exact hk'

/-! ## Checks -/

namespace Knows

variable {i : Nat} {c : CallContext}

theorem isCancelled_iff (h : Knows H k) (hi : k.made[i]? = some (.context c)) :
    k.timeline.isCancelled c.token = true ↔ Cancelled H i := by
  unfold Timeline.isCancelled Cancelled
  rw [List.contains_iff_mem, h.cancelled]
  simp only [h.bears hi rfl, exists_eq_left]

theorem late_iff (h : Knows H k) (hi : k.made[i]? = some (.context c)) :
    (c.deadline.any fun d => d.nanos ≤ k.timeline.now.nanos) = true ↔ Late H i := by
  have soonest := h.soonest hi
  unfold Late
  rw [h.now]
  cases hd : c.deadline with
  | none =>
    rw [hd] at soonest
    simp [show {l | Limit H i l} = ∅ from soonest, IsLeast]
  | some d =>
    rw [hd] at soonest
    simp only [Option.any_some, decide_eq_true_eq]
    constructor
    · exact fun hle => ⟨_, soonest, hle⟩
    · rintro ⟨l, hl, hle⟩
      rwa [IsLeast.unique soonest hl]

/-- A check tells from the history whether a context lets calls go on. -/
theorem check_cases (h : Knows H k) (hi : k.made[i]? = some (.context c)) (step : String) :
    Cancelled H i ∧ c.check k.timeline step = .error .cancelled ∨
      (¬ Cancelled H i ∧ Late H i) ∧ c.check k.timeline step = .error (.timeout step) ∨
      (¬ Cancelled H i ∧ ¬ Late H i) ∧ c.check k.timeline step = .ok () := by
  rw [← h.isCancelled_iff hi, ← h.late_iff hi]
  unfold CallContext.check
  split
  · simp_all
  · split <;> simp_all

end Knows

/-- A caller has a context, and time has come to a point, after a history. -/
def Caller.Has (H : Acts) (i : Nat) (c : CallContext) (t : Timeline) : Prop :=
  ∃ k, after? H = some k ∧ k.made[i]? = some (.context c) ∧ k.timeline = t

/-- Under a context that is over, work is not begun. -/
theorem CallContext.run_of_check {σ α : Type} {c : CallContext} {t : Timeline} {step : String} {e : Error}
    (h : c.check t step = .error e) (start : σ → Arrival (Except Error α) × σ) (s : σ) :
    c.run t step start s = (⟨t.now, .error e⟩, s) := by
  unfold CallContext.run
  rw [h]

/-- Whatever tokens and contexts are made and copied, in any number and nesting, and whichever are cancelled as time
passes: a check on a context says that it is cancelled exactly if its token has been, by way of anything that bears
it; otherwise that it is late, at the step that it is asked for, exactly if the first of the limits has come that were
set on the way on which it was derived; otherwise it lets calls go on. Once a check has failed, every later check on
the context or on any that is derived from it fails, and no work is begun under them. -/
theorem check_tells_history (hs : Sound H) {i : Nat} (hi : Makes H i .context) :
    ∃ c t, Caller.Has H i c t ∧
      (∀ step, (c.check t step = .error .cancelled ↔ Cancelled H i) ∧
        (c.check t step = .error (.timeout step) ↔ ¬ Cancelled H i ∧ Late H i) ∧
        (c.check t step = .ok () ↔ ¬ Cancelled H i ∧ ¬ Late H i)) ∧
      ∀ step e, c.check t step = .error e → ∀ H', Sound (H ++ H') → ∀ j, Derived (H ++ H') i j →
        ∃ c' t', Caller.Has (H ++ H') j c' t' ∧ ∀ step', ∃ e', c'.check t' step' = .error e' ∧
          ∀ {σ α : Type} (start : σ → Arrival (Except Error α) × σ) (s : σ),
            c'.run t' step' start s = (⟨t'.now, .error e'⟩, s) := by
  obtain ⟨k, hk, h⟩ := knows_after? hs
  obtain ⟨c, hc⟩ := h.context hi
  refine ⟨c, k.timeline, ⟨k, hk, hc, rfl⟩, fun step => ?_, fun step e he H' hs' j hd => ?_⟩
  · rcases h.check_cases hc step with ⟨h, hx⟩ | ⟨h, hx⟩ | ⟨h, hx⟩ <;> simp [hx, h]
  · have ended : Cancelled H i ∨ Late H i := by
      rcases h.check_cases hc step with ⟨h, -⟩ | ⟨h, -⟩ | ⟨-, hx⟩
      · exact .inl h
      · exact .inr h.2
      · cases hx.symm.trans he
    have ended' := over_derived hi.lt ended hd
    obtain ⟨k', hk', h'⟩ := knows_after? hs'
    obtain ⟨c', hc'⟩ := h'.context (hd.makes ((makes_append hi.lt).mpr hi))
    refine ⟨c', k'.timeline, ⟨k', hk', hc', rfl⟩, fun step' => ?_⟩
    suffices ∃ e', c'.check k'.timeline step' = .error e' by
      obtain ⟨e', he'⟩ := this
      exact ⟨e', he', CallContext.run_of_check he'⟩
    rcases h'.check_cases hc' step' with ⟨-, hx⟩ | ⟨-, hx⟩ | ⟨⟨hn, hl⟩, -⟩
    · exact ⟨_, hx⟩
    · exact ⟨_, hx⟩
    · exact absurd ended' (not_or.mpr ⟨hn, hl⟩)

/-- A context that was derived again and again is late by its nearest deadline, and so is one that is derived of it
later, whatever it is given and although a token is cancelled in between. -/
theorem check_tells_history_nested :
    let H : Acts := [.token, .withToken 0, .withTimeout 1 ⟨5⟩, .advance ⟨1⟩, .withTimeout 2 ⟨10⟩, .withTimeout 4 ⟨1⟩,
      .cloneContext 5, .advance ⟨1⟩]
    let H' : Acts := [.cloneToken 0, .cancel 8, .withTimeout 6 ⟨9⟩]
    (Sound H ∧ Makes H 6 .context ∧ Sound (H ++ H') ∧ Derived (H ++ H') 6 10) ∧
      (¬ Cancelled H 6 ∧ Late H 6) ∧
      ∃ c t, Caller.Has (H ++ H') 10 c t ∧ ∀ step, ∃ e, c.check t step = .error e := by
  intro H H'
  have hs : Sound H := by decide
  have hi : Makes H 6 .context := by decide
  have hs' : Sound (H ++ H') := by decide
  have hd : Derived (H ++ H') 6 10 := .step rfl rfl (by decide) (.refl _)
  obtain ⟨c, t, ⟨k, hk, hc, rfl⟩, told, later⟩ := check_tells_history hs hi
  have late : c.check k.timeline "list refs" = .error (.timeout "list refs") := by
    cases (show Caller.after? H = some _ from rfl).symm.trans hk
    cases hc
    rfl
  obtain ⟨c', t', has, failed⟩ := later _ _ late H' hs' 10 hd
  refine ⟨⟨hs, hi, hs', hd⟩, (told "list refs").2.1.mp late, c', t', has, fun step => ?_⟩
  obtain ⟨e, he, -⟩ := failed step
  exact ⟨e, he⟩

end HostedGit
