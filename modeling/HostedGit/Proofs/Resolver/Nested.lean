/-
Resolvers within resolvers. However deep resolvers without a fallback are nested, a call is made on one provider that
is no such resolver, and is made there once and as it is: on the first one from the left that handles the URL, else on
the outer fallback. All that comes before it are records of the providers that are used on the way.
-/
import HostedGit.Proofs.Resolver

namespace HostedGit.Resolver

open HostedGit.Action

variable {σ : Type} [Journal σ]

/-! ## Leaves -/

/-- How a resolver is put together, and the leaves that it has then, from left to right. A provider that is registered
is a leaf, whatever it is made of; for a resolver without a fallback, its own leaves may count instead. -/
inductive Gathers : Resolver σ → List (Provider σ) → Prop
  | empty : Gathers empty []
  | register {r : Resolver σ} {leaves : List (Provider σ)} (h : Gathers r leaves) (p : Provider σ) :
    Gathers (r.register p) (leaves ++ [p])
  | nest {r inner : Resolver σ} {leaves more : List (Provider σ)} (h : Gathers r leaves) (hi : Gathers inner more)
    (alone : inner.fallback = none) : Gathers (r.register inner.toProvider) (leaves ++ more)
  | withFallback {r : Resolver σ} {leaves : List (Provider σ)} (h : Gathers r leaves) (p : Provider σ) :
    Gathers (r.withFallback p) leaves

/-- A state with the records that providers are used for a URL, the outermost one first. -/
def announced (url : String) (names : List String) (s : σ) : σ :=
  names.foldl (fun s name => Journal.add ⟨.debug, "Using '" ++ name ++ "' provider for " ++ redact url⟩ s) s

/-- A provider that is used for a URL, and the leaf that calls about it get to through resolvers. -/
def LeadsTo (url : String) (q p : Provider σ) : Prop :=
  ∃ depth, ∀ (call : Call) (ctx : CallContext) (s : σ), call.target.url = url →
    q.perform call ctx (announced url [q.name] s) =
      p.perform call ctx (announced url (List.replicate depth "resolver" ++ [p.name]) s)

theorem LeadsTo.refl (url : String) (p : Provider σ) : LeadsTo url p p := ⟨0, fun _ _ _ _ => rfl⟩

/-! ## One resolver -/

section

variable {r : Resolver σ} {p q : Provider σ} {url : String}

theorem perform_of_leadsTo (hq : r.find? url = some q) (h : LeadsTo url q p) :
    ∃ depth, ∀ (call : Call) (ctx : CallContext) (s : σ), call.target.url = url → r.perform call ctx s =
      p.perform call ctx (announced url (List.replicate depth "resolver" ++ [p.name]) s) := by
  obtain ⟨depth, h⟩ := h
  refine ⟨depth, fun call ctx s hu => ?_⟩
  rw [← h call ctx s hu]
  subst hu
  rw [perform_of_find? hq ctx]
  rfl

/-- A resolver leads where the provider leads that it chooses. -/
theorem LeadsTo.toProvider (hq : r.find? url = some q) (h : LeadsTo url q p) : LeadsTo url r.toProvider p := by
  obtain ⟨depth, h⟩ := perform_of_leadsTo hq h
  exact ⟨depth + 1, fun call ctx s hu => h call ctx (announced url ["resolver"] s) hu⟩

omit [Journal σ] in
theorem handles_eq_isSome_find? (r : Resolver σ) (url : String) : r.handles url = (r.find? url).isSome := by
  unfold handles find?
  cases r.fallback <;> simp [List.isSome_find?]

end

/-! ## Nested resolvers -/

theorem rel_or {α β : Type*} {R : α → β → Prop} {a c : Option α} {b d : Option β} (h : Option.Rel R a b)
    (h' : Option.Rel R c d) : Option.Rel R (a.or c) (b.or d) := by
  cases h with
  | none => exact h'
  | some h => exact .some h

/-- A resolver that stands alone is chosen for a URL if something that it has registered is. -/
theorem leadsTo_singleton {inner : Resolver σ} {leaves : List (Provider σ)} {url : String}
    (alone : inner.fallback = none)
    (h : Option.Rel (LeadsTo url) (inner.registered.find? (·.handles url)) (leaves.find? (·.handles url))) :
    Option.Rel (LeadsTo url) ([inner.toProvider].find? (·.handles url)) (leaves.find? (·.handles url)) := by
  have inside : inner.find? url = inner.registered.find? (·.handles url) := by simp [find?, alone]
  have handled : inner.toProvider.handles url = (inner.find? url).isSome := handles_eq_isSome_find? inner url
  rw [← inside] at h
  rw [List.find?_singleton, handled]
  cases hq : inner.find? url with
  | none =>
    rw [hq] at h
    exact h
  | some q =>
    rw [hq] at h
    generalize leaves.find? (·.handles url) = found at h
    cases h with
    | some led => exact .some (led.toProvider hq)

/-- What a resolver has registered handles a URL if a leaf does, and the first that does leads to the first leaf. -/
theorem Gathers.find?_registered {r : Resolver σ} {leaves : List (Provider σ)} (h : r.Gathers leaves) (url : String) :
    Option.Rel (LeadsTo url) (r.registered.find? (·.handles url)) (leaves.find? (·.handles url)) := by
  induction h with
  | empty => exact .none
  | register h p ih =>
    simp only [Resolver.register, List.find?_append]
    refine rel_or ih ?_
    cases [p].find? (·.handles url) with
    | none => exact .none
    | some q => exact .some (.refl url q)
  | nest h hi alone ih ihi =>
    simp only [Resolver.register, List.find?_append]
    exact rel_or ih (leadsTo_singleton alone ihi)
  | withFallback h p ih => exact ih

/-- The provider that a resolver finds for a URL leads to the first leaf that handles it, or is the fallback. -/
theorem Gathers.find? {r : Resolver σ} {leaves : List (Provider σ)} (h : r.Gathers leaves) (url : String) :
    Option.Rel (LeadsTo url) (r.find? url) (leaves.find? (·.handles url) <|> r.fallback) := by
  have chosen := h.find?_registered url
  simp only [Resolver.find?, Option.orElse_eq_orElse, Option.orElse_eq_or]
  refine rel_or chosen ?_
  cases r.fallback with
  | none => exact .none
  | some p => exact .some (.refl url p)

/-- A call about a URL is made on the first leaf that handles the URL, else on the fallback, and nowhere else: it is
that call, with records of the providers used before it. Without either, a call only fails with the redacted URL, or
has nothing to forget. A resolver handles exactly the URLs that it has a provider for. -/
theorem one_leaf_answers {r : Resolver σ} {leaves : List (Provider σ)} (h : r.Gathers leaves) (url : String) :
    (∀ s, r.handles url = true ↔ ∃ p s', r.providerFor url s = (.ok p, s')) ∧
    match leaves.find? (·.handles url) <|> r.fallback with
    | some p => r.handles url = true ∧ ∃ depth, ∀ (call : Call) (ctx : CallContext) (s : σ), call.target.url = url →
        r.perform call ctx s =
          p.perform call ctx (announced url (List.replicate depth "resolver" ++ [p.name]) s)
    | none => r.handles url = false ∧ r.providerFor url = throw (.unsupportedUrl (redact url)) ∧
        (∀ (call : Call) (ctx : CallContext), call.target.url = url → (∀ t, call ≠ .removeCache t) →
          r.perform call ctx = throw (.unsupportedUrl (redact url))) ∧
        ∀ (t : Target) (ctx : CallContext), t.url = url →
          r.perform (.removeCache t) ctx = Action.log .debug ("No provider caches " ++ redact url) := by
  have found := h.find? url
  generalize (leaves.find? (·.handles url) <|> r.fallback) = leaf at found
  rw [handles_eq_isSome_find?]
  cases hq : r.find? url with
  | none =>
    rw [hq] at found
    cases found
    refine ⟨fun s => ⟨nofun, fun ⟨p, s', provided⟩ => ?_⟩, rfl, providerFor_of_none hq, ?_, ?_⟩
    · rw [providerFor_of_none hq] at provided
      cases provided
    · rintro call ctx rfl hc
      exact perform_of_none hq hc ctx
    · rintro t ctx rfl
      exact removeCache_of_none hq ctx
  | some q =>
    rw [hq] at found
    cases found with
    | some led =>
      have provided : ∀ s, ∃ p s', r.providerFor url s = (.ok p, s') := fun s => ⟨q, _, providerFor_of_find? hq s⟩
      exact ⟨fun s => ⟨fun _ => provided s, fun _ => rfl⟩, rfl, perform_of_leadsTo hq led⟩

/-- The second leaf of an inner resolver is reached before a later registration and before the fallback. -/
theorem one_leaf_answers_within :
    let leaf (name : String) (urls : List String) : Provider Session :=
      ⟨name, urls.contains, fun _ _ => throw (.io name "reached")⟩
    let inner := (empty.register (leaf "first" ["a"])).register (leaf "second" ["a", "b"])
    let r := (((empty.register (leaf "alone" [])).register inner.toProvider).register
      (leaf "late" ["b"])).withFallback (leaf "last" ["b"])
    let leaves := [leaf "alone" [], leaf "first" ["a"], leaf "second" ["a", "b"], leaf "late" ["b"]]
    let s : Session := .start .unreachable .empty "archive"
    r.Gathers leaves ∧
      (r.perform (.latestCommit ⟨"b", "", .blank⟩) (.ofToken ⟨0⟩) s).1 = .error (.io "second" "reached") := by
  intro leaf inner r leaves s
  have gathered : r.Gathers leaves :=
    ((Gathers.empty.register _).nest ((Gathers.empty.register _).register _) rfl |>.register _).withFallback _
  have chosen : (leaves.find? (·.handles "b") <|> r.fallback) = some (leaf "second" ["a", "b"]) := by
    simp [leaves, leaf]
  have answered := (one_leaf_answers gathered "b").2
  rw [chosen] at answered
  obtain ⟨-, depth, answered⟩ := answered
  refine ⟨gathered, ?_⟩
  rw [answered (.latestCommit ⟨"b", "", .blank⟩) (.ofToken ⟨0⟩) s rfl]
  rfl

end HostedGit.Resolver
