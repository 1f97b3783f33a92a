/-
Calls that are answered out of the cache. With a remote that replies by what is asked for and by whom
alone, what the cache shows is what the remote tells; so calls are answered alike, whether something is
remembered or not.
-/
import HostedGit.Proofs.Service.Learning
import HostedGit.Proofs.Service.Run
import HostedGit.Proofs.Service.Told

namespace HostedGit

open HostedGit.Action Session

namespace Service

variable {α β : Type} {R : Remote}

/-! ## Caches that tell the truth -/

/-- A cache shows nothing but what the remote tells; `who` are the credentials that each URL is asked for
with. -/
structure Truthful (R : Remote) (s : Service) (who : String → Option Credentials) (c : Cache) : Prop where
  refs : ∀ {url names}, c.getRefs url = some names → ∀ {l}, Locator.parse url = .ok l →
    Told R (fun ctx => s.fetchRefs ctx ⟨l, who url⟩) (.ok names)
  tree : ∀ {url reference paths}, c.getTree url reference = some paths → ∀ {l}, Locator.parse url = .ok l →
    TreeTold R s ⟨l, who url⟩ reference (.ok paths)

theorem truthful_empty (R : Remote) (s : Service) (who : String → Option Credentials) (enabled : Bool) :
    Truthful R s who (.empty enabled) where
  refs h := by rw [Cache.getRefs_empty] at h; cases h
  tree h := by rw [Cache.getTree_empty] at h; cases h

section

variable {s : Service} {who : String → Option Credentials} {c : Cache}

theorem Truthful.setRefs (h : Truthful R s who c) {url : String} {names : List String} {l : Locator}
    (hl : Locator.parse url = .ok l) (hn : Told R (fun ctx => s.fetchRefs ctx ⟨l, who url⟩) (.ok names)) :
    Truthful R s who (c.setRefs url names) where
  refs := by
    intro url' names' h' l' hl'
    rw [Cache.getRefs_setRefs] at h'
    split at h'
    · rename_i hu
      obtain ⟨-, rfl⟩ := hu
      cases h'
      cases hl.symm.trans hl'
      exact hn
    · exact h.refs h' hl'
  tree h' := h.tree (by rwa [Cache.getTree_setRefs] at h')

theorem Truthful.setTree (h : Truthful R s who c) {url reference : String} {paths : List String} {l : Locator}
    (hl : Locator.parse url = .ok l) (ht : TreeTold R s ⟨l, who url⟩ reference (.ok paths)) :
    Truthful R s who (c.setTree url reference paths) where
  refs h' := h.refs (by rwa [Cache.getRefs_setTree] at h')
  tree := by
    intro url' reference' paths' h' l' hl'
    rw [Cache.getTree_setTree] at h'
    split at h'
    · rename_i hu
      obtain ⟨-, rfl, rfl⟩ := hu
      cases h'
      cases hl.symm.trans hl'
      exact ht
    · exact h.tree h' hl'

theorem Truthful.invalidate (h : Truthful R s who c) (url reference : String) :
    Truthful R s who (c.invalidate url reference) where
  refs := by
    intro url' names h' l hl
    rw [Cache.getRefs_invalidate] at h'
    split at h'
    · cases h'
    · exact h.refs h' hl
  tree := by
    intro url' reference' paths h' l hl
    rw [Cache.getTree_invalidate] at h'
    split at h'
    · cases h'
    · exact h.tree h' hl

end

/-! ## Inquiries leave the cache alone -/

/-- The remote and the cache are left alone. -/
theorem kept_reading : ReadingFrame fun σ σ' => σ'.remote = σ.remote ∧ σ'.cache = σ.cache where
  refl _ := ⟨rfl, rfl⟩
  trans h h' := ⟨h'.1.trans h.1, h'.2.trans h.2⟩
  log _ _ := ⟨rfl, rfl⟩
  wait _ _ := ⟨rfl, rfl⟩
  ask _ _ := ⟨rfl, rfl⟩
  gain _ _ := ⟨rfl, rfl⟩

/-! ## Calls tell the truth -/

/-- A session with a remote and a cache that shows what it tells. -/
structure Faithful (R : Remote) (s : Service) (who : String → Option Credentials) (σ : Session) : Prop where
  remote : σ.remote = R
  cache : Truthful R s who σ.cache

section

variable {s : Service} {who : String → Option Credentials} {ctx : CallContext} {σ : Session} {l : Locator}
  {url : String}

theorem Faithful.of_kept {σ' : Session} (h : Faithful R s who σ)
    (hk : σ'.remote = σ.remote ∧ σ'.cache = σ.cache) : Faithful R s who σ' :=
  ⟨hk.1.trans h.remote, by rw [hk.2]; exact h.cache⟩

theorem refreshRefs_told (h : Faithful R s who σ) (hl : Locator.parse url = .ok l)
    (ho : Outlives ctx (s.refreshRefs ctx ⟨l, who url⟩ url) σ) :
    Told R (fun ctx => s.fetchRefs ctx ⟨l, who url⟩) (s.refreshRefs ctx ⟨l, who url⟩ url σ).1 ∧
      Faithful R s who (s.refreshRefs ctx ⟨l, who url⟩ url σ).2 := by
  unfold refreshRefs at ho ⊢
  have told : Told R (fun ctx => s.fetchRefs ctx ⟨l, who url⟩) (s.fetchRefs ctx ⟨l, who url⟩ σ).1 :=
    ⟨ctx, σ, h.remote, ho.of_bind fun _ _ => .refl _, rfl⟩
  have kept := (fetchRefs_reads s ctx ⟨l, who url⟩).keeps kept_reading
  rcases hx : s.fetchRefs ctx ⟨l, who url⟩ σ with ⟨e | names, σ₁⟩
  · rw [hx] at told
    rw [bind_error hx]
    exact ⟨told, h.of_kept (kept.of_eq hx)⟩
  · rw [hx] at told
    rw [bind_ok hx]
    have h₁ := h.of_kept (kept.of_eq hx)
    exact ⟨told, h₁.remote, h₁.cache.setRefs hl told⟩

/-- References that are remembered are those that the remote tells. -/
theorem knownRefs_told (h : Faithful R s who σ) (hl : Locator.parse url = .ok l)
    (ho : Outlives ctx (s.knownRefs ctx ⟨l, who url⟩ url) σ) :
    Told R (fun ctx => s.fetchRefs ctx ⟨l, who url⟩) (s.knownRefs ctx ⟨l, who url⟩ url σ).1 ∧
      Faithful R s who (s.knownRefs ctx ⟨l, who url⟩ url σ).2 := by
  unfold knownRefs at ho ⊢
  have ho := ho.of_bind_ok (get_apply σ)
  rw [bind_ok (get_apply σ)]
  cases hc : σ.cache.getRefs url with
  | some names =>
    dsimp only
    rw [bind_ok (log_apply ..)]
    exact ⟨h.cache.refs hc hl, h.of_kept ⟨rfl, rfl⟩⟩
  | none =>
    rw [hc] at ho
    exact refreshRefs_told h hl ho

variable {t : Target}

theorem fetchPaths_told (h : Faithful R s who σ) (hl : Locator.parse t.url = .ok l)
    (ho : Outlives ctx (s.fetchPaths ctx ⟨l, who t.url⟩ t) σ) :
    TreeTold R s ⟨l, who t.url⟩ t.reference (s.fetchPaths ctx ⟨l, who t.url⟩ t σ).1 ∧
      Faithful R s who (s.fetchPaths ctx ⟨l, who t.url⟩ t σ).2 := by
  have hF := forward_frame.toReadingFrame
  -- the references come first
  obtain ⟨refs_told, h₁⟩ := knownRefs_told h hl (outlives_knownRefs ho)
  unfold fetchPaths at ho ⊢
  rcases hx : s.knownRefs ctx ⟨l, who t.url⟩ t.url σ with ⟨e | names, σ₁⟩
  · rw [hx] at refs_told h₁
    rw [bind_error hx]
    exact ⟨.noRefs refs_told, h₁⟩
  rw [hx] at refs_told h₁
  have ho := ho.of_bind_ok hx
  rw [bind_ok hx]
  cases hn : names.contains t.reference with
  | false => exact ⟨.unlisted refs_told hn, h₁⟩
  | true =>
    rw [hn] at ho
    simp only [Bool.not_true, Bool.false_eq_true, ↓reduceIte] at ho ⊢
    -- then the root
    have root_told : Told R (fun ctx => s.fetchRoot ctx ⟨l, who t.url⟩ t.reference)
        (s.fetchRoot ctx ⟨l, who t.url⟩ t.reference σ₁).1 :=
      ⟨ctx, σ₁, h₁.remote, ho.of_bind fun root =>
        hF.bind ((fetchTree_reads s ctx _ _).keeps hF) fun _ _ => .refl _, rfl⟩
    have root_kept := fetchRoot_keeps kept_reading s ctx ⟨l, who t.url⟩ t.reference
    rcases hx : s.fetchRoot ctx ⟨l, who t.url⟩ t.reference σ₁ with ⟨e | root, σ₂⟩
    · rw [hx] at root_told
      rw [bind_error hx]
      exact ⟨.noRoot refs_told hn root_told, h₁.of_kept (root_kept.of_eq hx)⟩
    rw [hx] at root_told
    have h₂ := h₁.of_kept (root_kept.of_eq hx)
    have ho := ho.of_bind_ok hx
    rw [bind_ok hx]
    -- and then the paths
    have tree_told : TreeTold R s ⟨l, who t.url⟩ t.reference
        (s.fetchTree ctx ⟨l, who t.url⟩ root.objectId σ₂).1 :=
      .paths refs_told hn root_told ⟨ctx, σ₂, h₂.remote, ho.of_bind fun _ _ => .refl _, rfl⟩
    have tree_kept := (fetchTree_reads s ctx ⟨l, who t.url⟩ root.objectId).keeps kept_reading
    rcases hx : s.fetchTree ctx ⟨l, who t.url⟩ root.objectId σ₂ with ⟨e | paths, σ₃⟩
    · rw [hx] at tree_told
      rw [bind_error hx]
      exact ⟨tree_told, h₂.of_kept (tree_kept.of_eq hx)⟩
    · rw [hx] at tree_told
      rw [bind_ok hx]
      have h₃ := h₂.of_kept (tree_kept.of_eq hx)
      exact ⟨tree_told, h₃.remote, h₃.cache.setTree hl tree_told⟩

end

/-! ## Answers -/

/-- What holds of the outcome of a call about a URL: the URL names no repository and the outcome says so, or
what is to hold for the repository does. -/
inductive About (url : String) (P : Locator → Except Error α → Prop) : Except Error α → Prop
  | unnamed {e : LocatorError} (hl : Locator.parse url = .error e) : About url P (.error (.urlParse e))
  | named {l : Locator} {a : Except Error α} (hl : Locator.parse url = .ok l) (h : P l a) : About url P a

theorem About.unique {url : String} {P : Locator → Except Error α → Prop} {a b : Except Error α}
    (hP : ∀ l, P l a → P l b → a = b) (ha : About url P a) (hb : About url P b) : a = b := by
  cases ha with
  | unnamed hl =>
    cases hb with
    | unnamed hl' => cases hl.symm.trans hl'; rfl
    | named hl' => cases hl.symm.trans hl'
  | named hl h =>
    cases hb with
    | unnamed hl' => cases hl.symm.trans hl'
    | named hl' h' => cases hl.symm.trans hl'; exact hP _ h h'

/-- The narrowed listing that a remote stands for. -/
def ListingTold (R : Remote) (s : Service) (r : Repository) (reference : String) (extensions : List String)
    (a : Except Error (List String)) : Prop :=
  ∃ b, TreeTold R s r reference b ∧ a = b.map (PathFilter.select extensions)

/-- The commit that a remote stands for. -/
def CommitTold (R : Remote) (s : Service) (r : Repository) (reference : String) (a : Except Error String) : Prop :=
  ∃ b, Told R (fun ctx => s.fetchRoot ctx r reference) b ∧ a = b.map (·.commitId)

section

variable {reaches : Url → Bool} {reply : String → Option String → Coming Reply} {s : Service}
  {r : Repository} {reference : String}

theorem ListingTold.unique {extensions : List String} {a b : Except Error (List String)}
    (ha : ListingTold (.fixed reaches reply) s r reference extensions a)
    (hb : ListingTold (.fixed reaches reply) s r reference extensions b) : a = b := by
  obtain ⟨x, hx, rfl⟩ := ha
  obtain ⟨y, hy, rfl⟩ := hb
  rw [hx.unique hy]

theorem CommitTold.unique {a b : Except Error String} (ha : CommitTold (.fixed reaches reply) s r reference a)
    (hb : CommitTold (.fixed reaches reply) s r reference b) : a = b := by
  obtain ⟨x, hx, rfl⟩ := ha
  obtain ⟨y, hy, rfl⟩ := hb
  rw [hx.unique hy (fetchRoot_determined s r reference)]

end

/-- The answer to a call that a remote stands for. A download has none but its effect. -/
def AnswerTold (R : Remote) (s : Service) (who : String → Option Credentials) :
    (c : Call) → Except Error c.Answer → Prop
  | .listRemote t => About t.url fun l => Told R fun ctx => s.fetchRefs ctx ⟨l, who t.url⟩
  | .listTree t extensions => About t.url fun l => ListingTold R s ⟨l, who t.url⟩ t.reference extensions
  | .latestCommit t => About t.url fun l => CommitTold R s ⟨l, who t.url⟩ t.reference
  | .download _ _ => fun _ => False
  | .removeCache _ => (· = .ok ())

theorem AnswerTold.unique {reaches : Url → Bool} {reply : String → Option String → Coming Reply} {s : Service}
    {who : String → Option Credentials} {c : Call} {a b : Except Error c.Answer}
    (ha : AnswerTold (.fixed reaches reply) s who c a) (hb : AnswerTold (.fixed reaches reply) s who c b) :
    a = b := by
  cases c with
  | listRemote t => exact About.unique (fun l hx hy => hx.unique hy (fetchRefs_determined s _)) ha hb
  | listTree t extensions => exact About.unique (fun l hx hy => ListingTold.unique hx hy) ha hb
  | latestCommit t => exact About.unique (fun l hx hy => CommitTold.unique hx hy) ha hb
  | download t destination => exact ha.elim
  | removeCache t => exact ha.trans hb.symm

/-- A call about a version uses the credentials that its URL is asked for with. -/
def Selects (who : String → Option Credentials) (t : Target) : Prop :=
  ∀ l, Locator.parse t.url = .ok l → Credentials.select t.credentials l.embedded = who t.url

section

variable {s : Service} {who : String → Option Credentials} {ctx : CallContext} {σ : Session}

theorem repository_ok {t : Target} {l : Locator} (hw : Selects who t) (hl : Locator.parse t.url = .ok l)
    (σ : Session) :
    repository t σ = (.ok ⟨l, who t.url⟩, σ) := by
  rw [← hw l hl]
  exact repository_of_ok hl σ

theorem listTree_told {t : Target} {extensions : List String} (h : Faithful R s who σ)
    (hw : Selects who t) (ho : Outlives ctx (s.listTree ctx t extensions) σ) :
    About t.url (fun l => ListingTold R s ⟨l, who t.url⟩ t.reference extensions)
        (s.listTree ctx t extensions σ).1 ∧
      Faithful R s who (s.listTree ctx t extensions σ).2 := by
  unfold listTree at ho ⊢
  cases hl : Locator.parse t.url with
  | error e =>
    rw [bind_error (repository_error hl _)]
    exact ⟨.unnamed hl, h⟩
  | ok l =>
    have hr := repository_ok hw hl σ
    have ho := (ho.of_bind_ok hr).of_bind_ok (get_apply σ)
    rw [bind_ok hr, bind_ok (get_apply σ)]
    cases hc : σ.cache.getTree t.url t.reference with
    | some paths =>
      dsimp only
      rw [bind_ok (log_apply ..)]
      exact ⟨.named hl ⟨_, h.cache.tree hc hl, rfl⟩, h.of_kept ⟨rfl, rfl⟩⟩
    | none =>
      rw [hc] at ho
      obtain ⟨told, h₁⟩ := fetchPaths_told h hl (Outlives.of_bind ho fun _ _ => .refl _)
      dsimp only
      rcases hx : s.fetchPaths ctx ⟨l, who t.url⟩ t σ with ⟨e | paths, σ₁⟩
      · rw [hx] at told h₁
        rw [bind_error hx]
        exact ⟨.named hl ⟨_, told, rfl⟩, h₁⟩
      · rw [hx] at told h₁
        rw [bind_ok hx]
        exact ⟨.named hl ⟨_, told, rfl⟩, h₁⟩

theorem listRemote_told {t : Target} (h : Faithful R s who σ) (hw : Selects who t)
    (ho : Outlives ctx (s.listRemote ctx t) σ) :
    About t.url (fun l => Told R fun ctx => s.fetchRefs ctx ⟨l, who t.url⟩) (s.listRemote ctx t σ).1 ∧
      Faithful R s who (s.listRemote ctx t σ).2 := by
  unfold listRemote at ho ⊢
  cases hl : Locator.parse t.url with
  | error e =>
    rw [bind_error (repository_error hl _)]
    exact ⟨.unnamed hl, h⟩
  | ok l =>
    have hr := repository_ok hw hl σ
    obtain ⟨told, h₁⟩ := refreshRefs_told h hl (ho.of_bind_ok hr)
    rw [bind_ok hr]
    exact ⟨.named hl told, h₁⟩

theorem latestCommit_told {t : Target} (h : Faithful R s who σ) (hw : Selects who t)
    (ho : Outlives ctx (s.latestCommit ctx t) σ) :
    About t.url (fun l => CommitTold R s ⟨l, who t.url⟩ t.reference) (s.latestCommit ctx t σ).1 ∧
      Faithful R s who (s.latestCommit ctx t σ).2 := by
  unfold latestCommit at ho ⊢
  cases hl : Locator.parse t.url with
  | error e =>
    rw [bind_error (repository_error hl _)]
    exact ⟨.unnamed hl, h⟩
  | ok l =>
    have hr := repository_ok hw hl σ
    have ho := ho.of_bind_ok hr
    rw [bind_ok hr]
    have told : Told R (fun ctx => s.fetchRoot ctx ⟨l, who t.url⟩ t.reference)
        (s.fetchRoot ctx ⟨l, who t.url⟩ t.reference σ).1 :=
      ⟨ctx, σ, h.remote, ho.of_bind fun _ _ => .refl _, rfl⟩
    have kept := fetchRoot_keeps kept_reading s ctx ⟨l, who t.url⟩ t.reference
    rcases hx : s.fetchRoot ctx ⟨l, who t.url⟩ t.reference σ with ⟨e | item, σ₁⟩
    · rw [hx] at told
      rw [bind_error hx]
      exact ⟨.named hl ⟨_, told, rfl⟩, h.of_kept (kept.of_eq hx)⟩
    · rw [hx] at told
      rw [bind_ok hx]
      exact ⟨.named hl ⟨_, told, rfl⟩, (h.of_kept (kept.of_eq hx)).of_kept ⟨rfl, rfl⟩⟩

/-- A call that its context outlives is answered as the remote tells, whatever is remembered; and what is
remembered is still what the remote tells. -/
theorem perform_told {c : Call} (h : Faithful R s who σ) (hw : Selects who c.target)
    (hd : ∀ t destination, c ≠ .download t destination) (ho : Outlives ctx (s.perform ctx c) σ) :
    AnswerTold R s who c (s.perform ctx c σ).1 ∧ Faithful R s who (s.perform ctx c σ).2 := by
  cases c with
  | listRemote t => exact listRemote_told h hw ho
  | listTree t extensions => exact listTree_told h hw ho
  | latestCommit t => exact latestCommit_told h hw ho
  | download t destination => exact absurd rfl (hd t destination)
  | removeCache t => exact ⟨rfl, h.remote, h.cache.invalidate t.url t.reference⟩

end

/-! ## Runs -/

/-- Each call of a run comes to its end before its context does. -/
def Undisturbed (s : Service) : Session → List Event → Prop
  | _, [] => True
  | σ, .call ctx c :: es => Outlives ctx (s.perform ctx c) σ ∧ Undisturbed s (s.after σ (.call ctx c)) es
  | σ, e :: es => Undisturbed s (s.after σ e) es

/-- Runs of the same events are answered alike from any two sessions that show nothing but what the one
remote tells. -/
theorem answers_eq {reaches : Url → Bool} {reply : String → Option String → Coming Reply} {s : Service}
    {who : String → Option Credentials} {es : List Event} {σ τ : Session}
    (h : Faithful (.fixed reaches reply) s who σ) (h' : Faithful (.fixed reaches reply) s who τ)
    (hw : ∀ ctx c, .call ctx c ∈ es → Selects who c.target)
    (hd : ∀ ctx t destination, .call ctx (.download t destination) ∉ es)
    (ho : s.Undisturbed σ es) (ho' : s.Undisturbed τ es) : s.answers σ es = s.answers τ es := by
  induction es generalizing σ τ with
  | nil => rfl
  | cons e es ih =>
    have hw' : ∀ ctx c, .call ctx c ∈ es → Selects who c.target := fun ctx c hc =>
      hw ctx c (List.mem_cons_of_mem _ hc)
    have hd' : ∀ ctx t destination, .call ctx (.download t destination) ∉ es := fun ctx t destination hc =>
      hd ctx t destination (List.mem_cons_of_mem _ hc)
    cases e with
    | call ctx c =>
      have hc : ∀ t destination, c ≠ .download t destination := by
        rintro t destination rfl
        exact hd ctx t destination List.mem_cons_self
      have hs := hw ctx c List.mem_cons_self
      -- the answer is what the remote tells in either session, whatever each of them remembers
      obtain ⟨told, h₁⟩ := perform_told h hs hc ho.1
      obtain ⟨told', h₁'⟩ := perform_told h' hs hc ho'.1
      have rest : s.answers (s.after σ (.call ctx c)) es = s.answers (s.after τ (.call ctx c)) es :=
        ih h₁ h₁' hw' hd' ho.2 ho'.2
      unfold answers
      rw [told.unique told', rest]
    | advance d => exact ih (h.of_kept ⟨rfl, rfl⟩) (h'.of_kept ⟨rfl, rfl⟩) hw' hd' ho ho'
    | cancel token => exact ih (h.of_kept ⟨rfl, rfl⟩) (h'.of_kept ⟨rfl, rfl⟩) hw' hd' ho ho'
    | plan moment token => exact ih (h.of_kept ⟨rfl, rfl⟩) (h'.of_kept ⟨rfl, rfl⟩) hw' hd' ho ho'

/-- Calls that agree on the credentials for each URL use those of one assignment. -/
theorem exists_selects {es : List Event}
    (hw : ∀ ctx ctx' c c', .call ctx c ∈ es → .call ctx' c' ∈ es → c.target.url = c'.target.url →
      ∀ l, Locator.parse c.target.url = .ok l →
        Credentials.select c.target.credentials l.embedded = Credentials.select c'.target.credentials l.embedded) :
    ∃ who, ∀ ctx c, .call ctx c ∈ es → Selects who c.target := by
  have each : ∀ url, ∃ w : Option Credentials, ∀ ctx c, .call ctx c ∈ es → c.target.url = url →
      ∀ l, Locator.parse url = .ok l → Credentials.select c.target.credentials l.embedded = w := by
    intro url
    by_cases h : ∃ ctx c l, .call ctx c ∈ es ∧ c.target.url = url ∧ Locator.parse url = .ok l
    · obtain ⟨ctx, c, l, hc, rfl, hl⟩ := h
      refine ⟨Credentials.select c.target.credentials l.embedded, fun ctx' c' hc' hu l' hl' => ?_⟩
      cases hl.symm.trans hl'
      exact hw ctx' ctx c' c hc' hc hu l (by rw [hu]; exact hl)
    · -- no call is about this URL, so any credentials do
      exact ⟨none, fun ctx c hc hu l hl => absurd ⟨ctx, c, l, hc, hu, hl⟩ h⟩
  obtain ⟨who, hwho⟩ := Classical.skolem.mp each
  exact ⟨who, fun ctx c hc l hl => hwho c.target.url ctx c hc rfl l hl⟩

/-- With a remote that replies by what is asked for and by whom alone, and contexts that outlive the calls, a
service whose cache is enabled answers every sequence of calls as one whose cache is disabled. -/
theorem cache_transparent (s : Service) (reaches : Url → Bool) (reply : String → Option String → Coming Reply)
    (σ τ : Session) (es : List Event) (hd : ∀ ctx t destination, .call ctx (.download t destination) ∉ es)
    (hw : ∀ ctx ctx' c c', .call ctx c ∈ es → .call ctx' c' ∈ es → c.target.url = c'.target.url →
      ∀ l, Locator.parse c.target.url = .ok l →
        Credentials.select c.target.credentials l.embedded = Credentials.select c'.target.credentials l.embedded)
    (ho : s.Undisturbed { σ with remote := .fixed reaches reply, cache := .empty true } es)
    (ho' : s.Undisturbed { τ with remote := .fixed reaches reply, cache := .empty false } es) :
    s.answers { σ with remote := .fixed reaches reply, cache := .empty true } es =
      s.answers { τ with remote := .fixed reaches reply, cache := .empty false } es := by
  obtain ⟨who, hwho⟩ := exists_selects hw
  exact answers_eq ⟨rfl, truthful_empty _ s who true⟩ ⟨rfl, truthful_empty _ s who false⟩ hwho hd ho ho'

/-! ## Runs that nothing disturbs -/

/-- An event by which no context comes to an end. -/
def IsQuiet : Event → Prop
  | .call ctx _ => ctx.deadline = none
  | .advance _ => True
  | .cancel _ | .plan _ _ => False

/-- Nothing is cancelled, and nothing is going to be. -/
def Uncancelled (t : Timeline) : Prop := t.cancelled = [] ∧ t.planned = []

theorem uncancelled_wait {t : Timeline} (h : Uncancelled t) (m : Instant) : Uncancelled (t.wait m) := by
  obtain ⟨hc, hp⟩ := h
  unfold Uncancelled Timeline.wait Timeline.settle
  simp [hc, hp]

theorem uncancelled_frame : FullFrame fun σ σ' => Uncancelled σ.timeline → Uncancelled σ'.timeline where
  refl _ h := h
  trans h h' hu := h' (h hu)
  log _ _ h := h
  wait _ m h := uncancelled_wait h m
  ask _ _ h := h
  archive _ _ h := h
  files _ _ h := h
  progress _ _ h := h
  gain _ _ h := h
  cache _ _ h := h

/-- Calls without a deadline come to their end if nothing is cancelled. -/
theorem undisturbed_of_uncancelled {s : Service} {es : List Event} {σ : Session}
    (hes : ∀ e ∈ es, IsQuiet e) (h : Uncancelled σ.timeline) : s.Undisturbed σ es := by
  induction es generalizing σ with
  | nil => trivial
  | cons e es ih =>
    have hes' : ∀ e ∈ es, IsQuiet e := fun e he => hes e (List.mem_cons_of_mem _ he)
    have he := hes e List.mem_cons_self
    cases e with
    | call ctx c =>
      have h' := perform_keeps uncancelled_frame s ctx c σ h
      refine ⟨⟨?_, ?_⟩, ih hes' h'⟩
      · rw [h'.1]
        exact List.not_mem_nil
      · rw [show ctx.deadline = none from he]
        nofun
    | advance d =>
      refine ih hes' ?_
      obtain ⟨hc, hp⟩ := h
      simp [after, Uncancelled, Timeline.advance, Timeline.settle, hc, hp]
    | cancel token => exact he.elim
    | plan moment token => exact he.elim

/-- Listings that are asked for again, and once more after the cache has forgotten them, come out as without a cache. -/
theorem cache_transparent_repeated :
    let s : Service := ⟨⟨"client", ⟨30000000000⟩⟩, "https://dev.azure.com", fun _ _ _ => pure 0, false⟩
    let body := Utf8.encode ("\x7b\"value\":[\x7b\"name\":\"main\",\"objectId\":\"7a\",\"commitId\":\"c1\"\x7d]," ++
      "\"treeEntries\":[\x7b\"relativePath\":\"lib.rs\"\x7d,\x7b\"relativePath\":\"notes.md\"\x7d]\x7d").toList
    let reply := fun (_ : String) (_ : Option String) =>
      Coming.after ⟨1⟩ (⟨200, none, none, ⟨[(⟨1⟩, body)], .after ⟨0⟩ ()⟩⟩ : Reply)
    let t : Target := ⟨"https://dev.azure.com/org/project/_git/repo", "main", .blank⟩
    let ctx : CallContext := .ofToken ⟨0⟩
    let σ : Session := .start (.fixed (fun _ => true) reply) .empty "archive"
    let es : List Event := [.call ctx (.listRemote t), .call ctx (.listTree t []), .call ctx (.listTree t ["rs"]),
      .call ctx (.removeCache t), .advance ⟨1⟩, .call ctx (.listTree t []), .call ctx (.latestCommit t)]
    s.Undisturbed σ es ∧ s.Undisturbed { σ with cache := .empty false } es ∧
      s.answers σ es = s.answers { σ with cache := .empty false } es := by
  intro s body reply t ctx σ es
  have quiet : ∀ e ∈ es, IsQuiet e := by
    simp [es, ctx, IsQuiet, CallContext.ofToken]
  have about : ∀ ctx c, .call ctx c ∈ es → c.target = t := by
    intro ctx c hc
    simp only [es, List.mem_cons, Event.call.injEq, List.not_mem_nil, or_false, reduceCtorEq, false_or] at hc
    rcases hc with ⟨-, rfl⟩ | ⟨-, rfl⟩ | ⟨-, rfl⟩ | ⟨-, rfl⟩ | ⟨-, rfl⟩ | ⟨-, rfl⟩ <;> rfl
  have ho : s.Undisturbed σ es := undisturbed_of_uncancelled quiet ⟨rfl, rfl⟩
  have ho' : s.Undisturbed { σ with cache := .empty false } es := undisturbed_of_uncancelled quiet ⟨rfl, rfl⟩
  refine ⟨ho, ho', cache_transparent s (fun _ => true) reply σ σ es ?_ ?_ ho ho'⟩
  · simp [es]
  · intro ctx ctx' c c' hc hc' _ l _
    rw [about ctx c hc, about ctx' c' hc']

end Service

end HostedGit
