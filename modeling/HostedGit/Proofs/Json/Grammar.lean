/-
JSON in writing. Each relation says of two rows of octets that something is written at the start of the first
and that the second is what comes behind it. A string is said to be spelled where its text is meant; of a string
that is passed over it only matters that it is one. `ListOf` and `ObjectOf` take what is meant by an element or
by the value of a member, and leave everything else open: white space, spelling, and members that are not meant.
-/
import HostedGit.Json.Basic
import Mathlib.Data.Bool.AllAny

namespace HostedGit.Json

/-! ## White space -/

/-- Blanks, tabs and line ends, if any. -/
def Blank (s r : Octets) : Prop := ∃ b, (∀ x ∈ b, isSpace x = true) ∧ s = b ++ r

/-- Nothing that a value could go on with: the text ends, or white space, a comma or a closing bracket comes. -/
def Ends (r : Octets) : Prop := ∀ b ∈ r.head?, isSpace b = true ∨ b = 0x2C ∨ b = 0x5D ∨ b = 0x7D

theorem Blank.refl (s : Octets) : Blank s s := ⟨[], nofun, rfl⟩

theorem Blank.ends {s r : Octets} (h : Blank s r) (hr : Ends r) : Ends s := by
  obtain ⟨_ | ⟨x, b⟩, hb, rfl⟩ := h
  · exact hr
  · intro y hy
    cases hy
    exact .inl (hb _ List.mem_cons_self)

theorem ends_nil : Ends [] := nofun

/-- White space up to an octet that may come behind a value. -/
theorem Blank.ends_cons {s r : Octets} {c : UInt8} (h : Blank s (c :: r)) (hc : c = 0x2C ∨ c = 0x5D ∨ c = 0x7D) :
    Ends s := by
  refine h.ends fun b hb => ?_
  cases hb
  exact .inr hc

/-- What is dropped ends where something comes that is not to be dropped. -/
theorem dropWhile_append {p : UInt8 → Bool} {b r : Octets} (hb : ∀ x ∈ b, p x = true)
    (hr : ∀ x ∈ r.head?, p x = false) : (b ++ r).dropWhile p = r := by
  rw [List.dropWhile_append_of_pos hb]
  cases r with
  | nil => rfl
  | cons c r => rw [List.dropWhile_cons_of_neg (by simpa using hr c rfl)]

/-- White space is passed over up to what is none. -/
theorem skipSpace_of_blank {s r : Octets} (h : Blank s r) (hr : ∀ b ∈ r.head?, isSpace b = false) :
    ∃ h, skipSpace s = ⟨r, h⟩ := by
  obtain ⟨b, hb, rfl⟩ := h
  exact ⟨by simp, Subtype.ext (dropWhile_append hb hr)⟩

theorem skipSpace_cons {s r : Octets} {c : UInt8} (h : Blank s (c :: r)) (hc : isSpace c = false) :
    ∃ h, skipSpace s = ⟨c :: r, h⟩ := by
  refine skipSpace_of_blank h fun b hb => ?_
  cases hb
  exact hc

/-! ## Strings -/

/-- A hexadecimal digit, in either case. -/
def IsHexDigit (b : UInt8) (n : Nat) : Prop :=
  n < 10 ∧ b.toNat = 0x30 + n ∨ 10 ≤ n ∧ n < 16 ∧ (b.toNat = 0x57 + n ∨ b.toNat = 0x37 + n)

/-- Four hexadecimal digits. -/
inductive Hex : Nat → Octets → Octets → Prop
  | digits {a b c d : UInt8} {i j k l : Nat} {r : Octets} (ha : IsHexDigit a i) (hb : IsHexDigit b j)
    (hc : IsHexDigit c k) (hd : IsHexDigit d l) : Hex (((i * 16 + j) * 16 + k) * 16 + l) (a :: b :: c :: d :: r) r

/-- The escapes of one letter. -/
def letters : List (UInt8 × Char) :=
  [(0x22, '\x22'), (0x5C, '\\'), (0x2F, '/'), (0x62, '\x08'), (0x66, '\x0c'), (0x6E, '\n'), (0x72, '\r'),
    (0x74, '\t')]

/-- A character that may stand in a string as it is. -/
def IsPlain (c : Char) : Prop := 0x20 ≤ c.toNat ∧ c ≠ '\x22' ∧ c ≠ '\\'
deriving Decidable

/-- The inside of a string that stands for a text, and its closing quote. Each character stands as it is or is
escaped; one beyond the first plane is escaped as two halves. -/
inductive Spelled : List Char → Octets → Octets → Prop
  | close {r : Octets} : Spelled [] (0x22 :: r) r
  | plain {c : Char} {cs : List Char} {s r : Octets} (hc : IsPlain c) (h : Spelled cs s r) :
    Spelled (c :: cs) (Utf8.encodeChar c ++ s) r
  | letter {b : UInt8} {c : Char} {cs : List Char} {s r : Octets} (hb : (b, c) ∈ letters) (h : Spelled cs s r) :
    Spelled (c :: cs) (0x5C :: b :: s) r
  | number {c : Char} {cs : List Char} {s t r : Octets} (hn : Hex c.toNat s t) (h : Spelled cs t r) :
    Spelled (c :: cs) (0x5C :: 0x75 :: s) r
  | halves {c : Char} {i j : Nat} {cs : List Char} {s t u r : Octets} (hi : i < 0x400) (hj : j < 0x400)
    (hc : c.toNat = 0x10000 + i * 0x400 + j) (hn : Hex (0xD800 + i) s (0x5C :: 0x75 :: t))
    (hm : Hex (0xDC00 + j) t u) (h : Spelled cs u r) : Spelled (c :: cs) (0x5C :: 0x75 :: s) r

/-- The inside of a string, and its closing quote. An escape may be half of a character. -/
inductive Inside : Octets → Octets → Prop
  | close {r : Octets} : Inside (0x22 :: r) r
  | plain {c : Char} {s r : Octets} (hc : IsPlain c) (h : Inside s r) : Inside (Utf8.encodeChar c ++ s) r
  | letter {b : UInt8} {c : Char} {s r : Octets} (hb : (b, c) ∈ letters) (h : Inside s r) :
    Inside (0x5C :: b :: s) r
  | number {n : Nat} {s t r : Octets} (hn : Hex n s t) (h : Inside t r) : Inside (0x5C :: 0x75 :: s) r

/-- A text may stand as it is, if no character of it has to be escaped. -/
theorem spelled_plain {cs : List Char} (hc : ∀ c ∈ cs, IsPlain c) (r : Octets) :
    Spelled cs (Utf8.encode cs ++ 0x22 :: r) r := by
  induction cs with
  | nil => exact .close
  | cons c cs ih =>
    rw [Utf8.encode, List.flatMap_cons, List.append_assoc]
    exact .plain (hc c List.mem_cons_self) (ih fun x hx => hc x (List.mem_cons_of_mem c hx))

theorem spelled_of_all {cs : List Char} (hc : cs.all fun c => IsPlain c) (r : Octets) :
    Spelled cs (Utf8.encode cs ++ 0x22 :: r) r := spelled_plain (List.all_iff_forall_prop.mp hc) r

/-- A string that stands for a text. -/
inductive TextOf : String → Octets → Octets → Prop
  | quoted {text : String} {s r : Octets} (h : Spelled text.toList s r) : TextOf text (0x22 :: s) r

/-! ## Numbers -/

/-- Decimal digits, one at least. -/
def DigitRow (s r : Octets) : Prop := ∃ d ds, (∀ x ∈ d :: ds, isDigit x = true) ∧ s = d :: ds ++ r

/-- The part of a number before the point: no zero stands before other digits. -/
inductive Whole : Octets → Octets → Prop
  | zero {r : Octets} : Whole (0x30 :: r) r
  | positive {d : UInt8} {ds r : Octets} (hd : d ≠ 0x30) (hs : ∀ x ∈ d :: ds, isDigit x = true) :
    Whole (d :: ds ++ r) r

/-- The point of a number and its places, if there are any. -/
inductive Places : Octets → Octets → Prop
  | none {r : Octets} : Places r r
  | some {s r : Octets} (h : DigitRow s r) : Places (0x2E :: s) r

/-- A sign, if there is one. -/
inductive Signed : Octets → Octets → Prop
  | none {r : Octets} : Signed r r
  | plus {r : Octets} : Signed (0x2B :: r) r
  | minus {r : Octets} : Signed (0x2D :: r) r

/-- The exponent of a number, if it has one. -/
inductive Power : Octets → Octets → Prop
  | none {r : Octets} : Power r r
  | some {e : UInt8} {s t r : Octets} (he : e = 0x65 ∨ e = 0x45) (hs : Signed s t) (h : DigitRow t r) :
    Power (e :: s) r

/-- A number without its sign. -/
def Magnitude (s r : Octets) : Prop := ∃ t u, Whole s t ∧ Places t u ∧ Power u r

/-! ## Values -/

/-- What may be written: a value, or the rest of a list or of an object up to its closing bracket. -/
inductive Part where
  | value
  | elements
  | members

/-- A value of any kind and depth. -/
inductive Wellformed : Part → Octets → Octets → Prop
  | name {w : String} {r : Octets} (hw : w ∈ ["null", "true", "false"]) : Wellformed .value (octets w ++ r) r
  | number {s r : Octets} (h : Magnitude s r) : Wellformed .value s r
  | negative {s r : Octets} (h : Magnitude s r) : Wellformed .value (0x2D :: s) r
  | text {s r : Octets} (h : Inside s r) : Wellformed .value (0x22 :: s) r
  | emptyList {s r : Octets} (h : Blank s (0x5D :: r)) : Wellformed .value (0x5B :: s) r
  | list {s t r : Octets} (hb : Blank s t) (h : Wellformed .elements t r) : Wellformed .value (0x5B :: s) r
  | emptyObject {s r : Octets} (h : Blank s (0x7D :: r)) : Wellformed .value (0x7B :: s) r
  | object {s t r : Octets} (hb : Blank s t) (h : Wellformed .members t r) : Wellformed .value (0x7B :: s) r
  | lastElement {s t r : Octets} (hv : Wellformed .value s t) (he : Blank t (0x5D :: r)) :
    Wellformed .elements s r
  | element {s t u v r : Octets} (hv : Wellformed .value s t) (he : Blank t (0x2C :: u)) (hb : Blank u v)
    (h : Wellformed .elements v r) : Wellformed .elements s r
  | lastMember {s t u v w r : Octets} (hk : Inside s t) (hc : Blank t (0x3A :: u)) (hb : Blank u v)
    (hv : Wellformed .value v w) (he : Blank w (0x7D :: r)) : Wellformed .members (0x22 :: s) r
  | member {s t u v w x y r : Octets} (hk : Inside s t) (hc : Blank t (0x3A :: u)) (hb : Blank u v)
    (hv : Wellformed .value v w) (he : Blank w (0x2C :: x)) (hb' : Blank x y) (h : Wellformed .members y r) :
    Wellformed .members (0x22 :: s) r

/-! ## Lists and objects whose content is meant -/

section

variable {α : Type}

/-- The elements of a list, the closing bracket behind them. `W` is how an element is written. -/
inductive Elements (W : α → Octets → Octets → Prop) : List α → Octets → Octets → Prop
  | last {a : α} {s t r : Octets} (hv : W a s t) (he : Blank t (0x5D :: r)) : Elements W [a] s r
  | cons {a : α} {as : List α} {s t u v r : Octets} (hv : W a s t) (he : Blank t (0x2C :: u)) (hb : Blank u v)
    (h : Elements W as v r) : Elements W (a :: as) s r

/-- A list. -/
inductive ListOf (W : α → Octets → Octets → Prop) : List α → Octets → Octets → Prop
  | nil {s r : Octets} (h : Blank s (0x5D :: r)) : ListOf W [] (0x5B :: s) r
  | elements {as : List α} {s t r : Octets} (hb : Blank s t) (h : Elements W as t r) : ListOf W as (0x5B :: s) r

/-- The value of a member: one that is meant, or any other. -/
inductive Held (W : α → Octets → Octets → Prop) : Option α → Octets → Octets → Prop
  | meant {a : α} {s r : Octets} (h : W a s r) : Held W (some a) s r
  | other {s r : Octets} (h : Wellformed .value s r) : Held W none s r

/-- The members of an object from a key on, the closing bracket behind them. -/
inductive Members (W : α → Octets → Octets → Prop) : List (List Char × Option α) → Octets → Octets → Prop
  | last {key : List Char} {a? : Option α} {s t u v w r : Octets} (hk : Spelled key s t) (hc : Blank t (0x3A :: u))
    (hb : Blank u v) (hv : Held W a? v w) (he : Blank w (0x7D :: r)) : Members W [(key, a?)] (0x22 :: s) r
  | cons {key : List Char} {a? : Option α} {ms : List (List Char × Option α)} {s t u v w x y r : Octets}
    (hk : Spelled key s t) (hc : Blank t (0x3A :: u)) (hb : Blank u v) (hv : Held W a? v w)
    (he : Blank w (0x2C :: x)) (hb' : Blank x y) (h : Members W ms y r) :
    Members W ((key, a?) :: ms) (0x22 :: s) r

/-- An object: its keys, each with what its value means, if that is meant. -/
inductive ObjectOf (W : α → Octets → Octets → Prop) : List (List Char × Option α) → Octets → Octets → Prop
  | nil {s r : Octets} (h : Blank s (0x7D :: r)) : ObjectOf W [] (0x7B :: s) r
  | members {ms : List (List Char × Option α)} {s t r : Octets} (hb : Blank s t) (h : Members W ms t r) :
    ObjectOf W ms (0x7B :: s) r

/-- A text that is one value and nothing else. -/
def Document (W : α → Octets → Octets → Prop) (a : α) (body : Octets) : Prop :=
  ∃ s r, Blank body s ∧ W a s r ∧ Blank r []

end

end HostedGit.Json
