/-
What a remote tells that replies by what is asked for and by whom alone: an inquiry about a repository has
one outcome, whenever it is made, and under whatever context that outlives it.
-/
import HostedGit.Proofs.Service.Frame
import HostedGit.Proofs.Session.Steady

namespace HostedGit

open HostedGit.Action Session

namespace Service

variable {α β : Type} {R : Remote}

/-! ## What a remote tells -/

/-- What a remote tells: the outcome of an inquiry, made under a context that outlives it. -/
def Told (R : Remote) (x : CallContext → Action Session α) (a : Except Error α) : Prop :=
  ∃ ctx σ, σ.remote = R ∧ Outlives ctx (x ctx) σ ∧ (x ctx σ).1 = a

/-- An inquiry whose outcome depends on the remote alone. -/
def Determined (R : Remote) (x : CallContext → Action Session α) : Prop :=
  ∀ ctx ctx' σ σ', σ.remote = R → σ'.remote = R → Outlives ctx (x ctx) σ → Outlives ctx' (x ctx') σ' →
    (x ctx σ).1 = (x ctx' σ').1

/-- What depends on the remote alone is told in one way. -/
theorem Told.unique {x : CallContext → Action Session α} {a b : Except Error α} (ha : Told R x a)
    (hb : Told R x b) (hx : Determined R x) : a = b := by
  obtain ⟨ctx, σ, hσ, ho, rfl⟩ := ha
  obtain ⟨ctx', σ', hσ', ho', rfl⟩ := hb
  exact hx _ _ _ _ hσ hσ' ho ho'

/-- A step that asks nothing and changes nothing. -/
def Still (x : Action Session α) : Prop := ∃ r, ∀ σ, x σ = (r, σ)

theorem Still.pure (a : α) : Still (pure a : Action Session α) := ⟨_, fun _ => rfl⟩

theorem Still.throw (e : Error) : Still (throw e : Action Session α) := ⟨_, fun _ => rfl⟩

theorem Still.keeps {T : Session → Session → Prop} {x : Action Session α} (hx : Still x)
    (hT : Session.Frame T) : Keeps T x := by
  obtain ⟨r, h⟩ := hx
  intro σ
  rw [h]
  exact hT.refl σ

/-- What is made of an answer, without asking for more, depends on the remote as the answer does. -/
theorem Determined.bind_still {x : CallContext → Action Session α} {f : α → Action Session β}
    (hx : Determined R x) (hf : ∀ a, Still (f a)) : Determined R fun ctx => x ctx >>= f := by
  intro ctx ctx' σ σ' hσ hσ' ho ho'
  show ((x ctx >>= f) σ).1 = ((x ctx' >>= f) σ').1
  have hk := fun a => (hf a).keeps forward_frame.toFrame
  rcases same_cases (hx _ _ _ _ hσ hσ' (ho.of_bind hk) (ho'.of_bind hk)) with
    ⟨e, σ₁, σ₁', h, h'⟩ | ⟨a, σ₁, σ₁', h, h'⟩
  · rw [bind_error h, bind_error h']
  · obtain ⟨r, hr⟩ := hf a
    rw [bind_ok h, bind_ok h', hr, hr]

/-- So does what is asked for after a step that asks for nothing. -/
theorem Determined.still_bind {x : Action Session α} {f : CallContext → α → Action Session β} (hx : Still x)
    (hf : ∀ a, Determined R fun ctx => f ctx a) : Determined R fun ctx => x >>= f ctx := by
  obtain ⟨r, hr⟩ := hx
  intro ctx ctx' σ σ' hσ hσ' ho ho'
  show ((x >>= f ctx) σ).1 = ((x >>= f ctx') σ').1
  cases r with
  | error e => rw [bind_error (hr σ), bind_error (hr σ')]
  | ok a =>
    rw [bind_ok (hr σ), bind_ok (hr σ')]
    exact hf a _ _ _ _ hσ hσ' (ho.of_bind_ok (hr σ)) (ho'.of_bind_ok (hr σ'))

theorem resource_still (s : Service) (r : Repository) (e : Endpoint) : Still (s.resource r e) := by
  unfold resource
  cases e.url s.baseUrl r.locator with
  | ok u => exact .pure u
  | error cause => exact .throw _

section

variable {reaches : Url → Bool} {reply : String → Option String → Coming Reply} (s : Service) (r : Repository)

theorem fetchRefs_determined : Determined (.fixed reaches reply) fun ctx => s.fetchRefs ctx r :=
  .still_bind (resource_still s r _) fun u _ _ _ _ hσ hσ' ho ho' =>
    s.client.getDocument_same u r.credentials _ _ _ hσ hσ' ho ho'

theorem fetchTree_determined (objectId : String) :
    Determined (.fixed reaches reply) fun ctx => s.fetchTree ctx r objectId :=
  .still_bind (resource_still s r _) fun u _ _ _ _ hσ hσ' ho ho' =>
    s.client.getDocument_same u r.credentials _ _ _ hσ hσ' ho ho'

theorem fetchRoot_determined (reference : String) :
    Determined (.fixed reaches reply) fun ctx => s.fetchRoot ctx r reference := by
  simp only [fetchRoot_eq]
  refine .still_bind (resource_still s r _) fun u => .bind_still (fun _ _ _ _ hσ hσ' ho ho' =>
    s.client.getDocument_same u r.credentials _ _ _ hσ hσ' ho ho') fun items => ?_
  rcases settleRoot_cases r reference items with ⟨root, -, -, h⟩ | ⟨-, h⟩
  · exact ⟨_, h⟩
  · exact ⟨_, h⟩

end

/-! ## What a remote tells of a version -/

/-- What a remote tells when it is asked for a tree: its references, then the root, then the paths. -/
inductive TreeTold (R : Remote) (s : Service) (r : Repository) (reference : String) :
    Except Error (List String) → Prop
  | noRefs {e : Error} (h : Told R (fun ctx => s.fetchRefs ctx r) (.error e)) : TreeTold R s r reference (.error e)
  | unlisted {names : List String} (h : Told R (fun ctx => s.fetchRefs ctx r) (.ok names))
      (hn : names.contains reference = false) : TreeTold R s r reference (.error (.referenceNotFound reference))
  | noRoot {names : List String} {e : Error} (h : Told R (fun ctx => s.fetchRefs ctx r) (.ok names))
      (hn : names.contains reference = true)
      (hr : Told R (fun ctx => s.fetchRoot ctx r reference) (.error e)) : TreeTold R s r reference (.error e)
  | paths {names : List String} {root : Payload.RootItem} {a : Except Error (List String)}
      (h : Told R (fun ctx => s.fetchRefs ctx r) (.ok names)) (hn : names.contains reference = true)
      (hr : Told R (fun ctx => s.fetchRoot ctx r reference) (.ok root))
      (ht : Told R (fun ctx => s.fetchTree ctx r root.objectId) a) : TreeTold R s r reference a

section

variable {reaches : Url → Bool} {reply : String → Option String → Coming Reply} {s : Service}
  {r : Repository} {reference : String}

/-- A remote tells one thing of a version. -/
theorem TreeTold.unique {a b : Except Error (List String)} (ha : TreeTold (.fixed reaches reply) s r reference a)
    (hb : TreeTold (.fixed reaches reply) s r reference b) : a = b := by
  have refs {x y} (hx : Told (.fixed reaches reply) (fun ctx => s.fetchRefs ctx r) x)
      (hy : Told (.fixed reaches reply) (fun ctx => s.fetchRefs ctx r) y) : x = y :=
    hx.unique hy (fetchRefs_determined s r)
  have root {x y} (hx : Told (.fixed reaches reply) (fun ctx => s.fetchRoot ctx r reference) x)
      (hy : Told (.fixed reaches reply) (fun ctx => s.fetchRoot ctx r reference) y) : x = y :=
    hx.unique hy (fetchRoot_determined s r reference)
  -- each stage has one outcome, so the second telling took the branch of the first
  cases ha with
  | noRefs h =>
    cases hb with
    | noRefs h' => cases refs h h'; rfl
    | unlisted h' | noRoot h' | paths h' => cases refs h h'
  | unlisted h hn =>
    cases hb with
    | noRefs h' => cases refs h h'
    | unlisted => rfl
    | noRoot h' hn' | paths h' hn' => cases refs h h'; rw [hn] at hn'; cases hn'
  | noRoot h hn hr =>
    cases hb with
    | noRefs h' => cases refs h h'
    | unlisted h' hn' => cases refs h h'; rw [hn] at hn'; cases hn'
    | noRoot _ _ hr' => cases root hr hr'; rfl
    | paths _ _ hr' => cases root hr hr'
  | paths h hn hr ht =>
    cases hb with
    | noRefs h' => cases refs h h'
    | unlisted h' hn' => cases refs h h'; rw [hn] at hn'; cases hn'
    | noRoot _ _ hr' => cases root hr hr'
    | paths _ _ hr' ht' =>
      cases root hr hr'
      exact ht.unique ht' (fetchTree_determined s r _)

end

end Service

end HostedGit
