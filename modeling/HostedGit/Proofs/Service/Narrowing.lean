/-
Listings that are narrowed. What a listing is narrowed to shows in its answer and in nothing else: the session
comes out as if the listing had been asked for whole, and so does everything that is asked for later.
-/
import HostedGit.Proofs.Service.Run
import HostedGit.Proofs.Service.Steps
import Mathlib.Data.List.Forall2

namespace HostedGit

namespace PathFilter

variable {extensions : List String}

/-- A path is wanted of which one of the extensions is the end, and every path if there are no extensions. -/
def Wants (extensions : List String) (path : String) : Prop :=
  extensions = [] ∨ ∃ ext ∈ extensions, ext.toList <:+ path.toList

instance (extensions : List String) (path : String) : Decidable (Wants extensions path) :=
  inferInstanceAs (Decidable (_ ∨ _))

theorem accepts_iff (extensions : List String) (path : String) :
    accepts extensions path = true ↔ Wants extensions path := by
  simp [accepts, Wants]

theorem select_eq (extensions paths : List String) :
    select extensions paths = paths.filter fun path => Wants extensions path := by
  apply List.filter_congr
  intro path _
  rw [Bool.eq_iff_iff, accepts_iff, decide_eq_true_iff]

theorem select_nil (paths : List String) : select [] paths = paths :=
  List.filter_eq_self.mpr fun _ _ => rfl

end PathFilter

/-! ## Calls without a filter -/

/-- The same call, that lists everything if it lists paths. -/
def Call.unfiltered : Call → Call
  | .listTree t _ => .listTree t []
  | c => c

/-- The same event, with a call that lists everything. -/
def Event.unfiltered : Event → Event
  | .call ctx c => .call ctx c.unfiltered
  | e => e

namespace Service

open HostedGit.Action

variable (s : Service) (ctx : CallContext) (t : Target) (extensions : List String) (σ : Session)

/-- A listing is narrowed in what is answered, wherever its paths come from. -/
theorem listTree_narrowed :
    s.listTree ctx t extensions σ =
      ((s.listTree ctx t [] σ).1.map (PathFilter.select extensions), (s.listTree ctx t [] σ).2) := by
  cases hl : Locator.parse t.url with
  | error e =>
    have failed (extensions : List String) : s.listTree ctx t extensions σ = (.error (.urlParse e), σ) :=
      bind_error (repository_error hl σ)
    rw [failed, failed]
    rfl
  | ok l =>
    cases hc : σ.cache.getTree t.url t.reference with
    | some paths =>
      rw [listTree_of_some hl hc, listTree_of_some hl hc, PathFilter.select_nil]
      rfl
    | none =>
      rw [listTree_of_none hl hc, listTree_of_none hl hc, bind_pure_apply, bind_pure_apply]
      rcases s.fetchPaths ctx ⟨l, Credentials.select t.credentials l.embedded⟩ t σ with ⟨_ | paths, σ'⟩
      · rfl
      · show _ = (Except.ok (PathFilter.select extensions (PathFilter.select [] paths)), σ')
        rw [PathFilter.select_nil]
        rfl

/-- How an answer comes of that of the call without a filter: some of its paths are left out, and everything else
is the same. -/
inductive Narrows : Answered → Answered → Prop
  | listing (t : Target) (extensions : List String) (out : Except Error (List String)) :
    Narrows ⟨.listTree t [], out⟩
      ⟨.listTree t extensions, out.map fun paths => paths.filter fun path => PathFilter.Wants extensions path⟩
  | other {c : Call} (out : Except Error c.Answer) (h : ∀ t extensions, c ≠ .listTree t extensions) :
    Narrows ⟨c, out⟩ ⟨c, out⟩

theorem perform_unfiltered (c : Call) :
    (s.perform ctx c.unfiltered σ).2 = (s.perform ctx c σ).2 ∧
      Narrows ⟨c.unfiltered, (s.perform ctx c.unfiltered σ).1⟩ ⟨c, (s.perform ctx c σ).1⟩ := by
  cases c with
  | listTree t extensions =>
    have narrowed : s.perform ctx (.listTree t extensions) σ = _ := s.listTree_narrowed ctx t extensions σ
    rw [funext (PathFilter.select_eq extensions)] at narrowed
    rw [narrowed]
    exact ⟨rfl, .listing t extensions _⟩
  | listRemote | latestCommit | download | removeCache => exact ⟨rfl, .other _ nofun⟩

theorem after_unfiltered (e : Event) : s.after σ e.unfiltered = s.after σ e := by
  cases e with
  | call ctx c => exact (s.perform_unfiltered ctx σ c).1
  | advance | cancel | plan => rfl

theorem run_unfiltered (es : List Event) : s.run σ (es.map Event.unfiltered) = s.run σ es := by
  induction es generalizing σ with
  | nil => rfl
  | cons e es ih => rw [List.map_cons, run_cons, run_cons, after_unfiltered, ih]

theorem answers_unfiltered (es : List Event) :
    List.Forall₂ Narrows (s.answers σ (es.map Event.unfiltered)) (s.answers σ es) := by
  induction es generalizing σ with
  | nil => exact .nil
  | cons e es ih =>
    have rest := ih (s.after σ e)
    rw [← s.after_unfiltered σ e] at rest
    cases e with
    | call ctx c => exact .cons (s.perform_unfiltered ctx σ c).2 (s.after_unfiltered σ (.call ctx c) ▸ rest)
    | advance | cancel | plan => exact rest

/-- What a listing is narrowed to shows in its answer only. After any run it leaves behind the session that it leaves
behind if it is asked for whole, and if no listing before it was narrowed: with the same requests and the same cache.
It fails alike, and succeeds with those of all the paths that are wanted, in their order. The same is so of every
answer on the way. -/
theorem filter_shows_in_answer_only (es : List Event) :
    let bare := es.map Event.unfiltered
    let out := s.listTree ctx t extensions (s.run σ es)
    let whole := s.listTree ctx t [] (s.run σ bare)
    out.2 = whole.2 ∧
      (out.1 = whole.1.map fun paths => paths.filter fun path => PathFilter.Wants extensions path) ∧
      s.run σ bare = s.run σ es ∧ List.Forall₂ Narrows (s.answers σ bare) (s.answers σ es) := by
  intro bare out whole
  have same : s.run σ bare = s.run σ es := s.run_unfiltered σ es
  have narrowed : out = (whole.1.map (PathFilter.select extensions), whole.2) := by
    show s.listTree ctx t extensions (s.run σ es) = _
    rw [listTree_narrowed, ← same]
  rw [funext (PathFilter.select_eq extensions)] at narrowed
  obtain ⟨answer, session⟩ := Prod.mk.inj narrowed
  exact ⟨session, answer, same, s.answers_unfiltered σ es⟩

end Service

end HostedGit
