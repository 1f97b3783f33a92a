/-
The cache after any run. It shows what the history of the run says, whatever the remote replied, and
however the calls ended; a call that fails changes nothing but a list of references that came in full.
-/
import HostedGit.Proofs.Service.Learning
import HostedGit.Proofs.Service.Run

namespace HostedGit

open HostedGit.Action Session

namespace Service

/-- What happens at an event that matters to what is known. -/
def happenings (s : Service) (σ : Session) : Event → History
  | .call ctx call =>
    match call with
    | .removeCache t => [.forgotten t]
    | call => ((s.perform ctx call σ).2.documents.drop σ.documents.length).map (.received call)
  | _ => []

/-- The history of a run. -/
def history (s : Service) : Session → List Event → History
  | _, [] => []
  | σ, e :: es => s.happenings σ e ++ history s (s.after σ e) es

/-! ## One event -/

/-- A call that is not one to forget learns from the documents that came during it. -/
theorem perform_learnt (s : Service) (ctx : CallContext) (σ : Session) {call : Call}
    (h : ∀ t, call ≠ .removeCache t) :
    Learnt call ((s.perform ctx call σ).2.documents.drop σ.documents.length) σ (s.perform ctx call σ).2 := by
  obtain ⟨ds, hl, -⟩ := perform_teaches s ctx call h σ
  have : (s.perform ctx call σ).2.documents.drop σ.documents.length = ds := by
    rw [hl.documents, List.drop_left]
  rw [this]
  exact hl

theorem after_onward (s : Service) (σ : Session) (e : Event) : σ.Onward (s.after σ e) := by
  have same : ∀ {σ' : Session}, σ'.remote = σ.remote → σ'.requests = σ.requests → σ.Onward σ' :=
    fun hr hq => ⟨hr, hq ▸ List.prefix_refl _⟩
  cases e with
  | call ctx call =>
    cases call with
    | removeCache t => exact same rfl rfl
    | _ => exact (perform_learnt s ctx σ (by nofun)).onward
  | _ => exact same rfl rfl

/-- An event changes the cache as its happenings do. -/
theorem cache_after (s : Service) (σ : Session) (e : Event) :
    (s.after σ e).cache = (s.happenings σ e).foldl Cache.follow σ.cache := by
  cases e with
  | call ctx call =>
    have learnt (h : ∀ t, call ≠ .removeCache t) : (s.after σ (.call ctx call)).cache =
        (((s.perform ctx call σ).2.documents.drop σ.documents.length).map (.received call)).foldl Cache.follow
          σ.cache := by
      rw [List.foldl_map]
      exact (perform_learnt s ctx σ h).cache
    -- forgetting is the one call that changes the cache without a document
    cases call with
    | removeCache t => rfl
    | _ => exact learnt nofun
  | _ => rfl

/-- A document that came at an event is one that the remote brought. -/
theorem brought_of_happenings {s : Service} {σ : Session} {e : Event} {call : Call} {d : Document}
    (h : .received call d ∈ s.happenings σ e) : (s.after σ e).Brought d := by
  cases e with
  | call ctx call' =>
    have learnt (hne : ∀ t, call' ≠ .removeCache t)
        (h : .received call d ∈ ((s.perform ctx call' σ).2.documents.drop σ.documents.length).map
          (Happening.received call')) : (s.after σ (.call ctx call')).Brought d := by
      obtain ⟨d', hd', he⟩ := List.mem_map.mp h
      cases he
      exact (perform_learnt s ctx σ hne).brought d hd'
    cases call' with
    | removeCache t => cases List.mem_singleton.mp h
    | _ => exact learnt nofun h
  | _ => cases h

/-! ## Runs -/

theorem run_onward (s : Service) (σ : Session) (es : List Event) : σ.Onward (s.run σ es) := by
  induction es generalizing σ with
  | nil => exact onward_frame.refl σ
  | cons e es ih => exact onward_frame.trans (after_onward s σ e) (ih _)

/-- A run changes the cache as its history does. -/
theorem cache_run (s : Service) (σ : Session) (es : List Event) :
    (s.run σ es).cache = (s.history σ es).foldl Cache.follow σ.cache := by
  induction es generalizing σ with
  | nil => rfl
  | cons e es ih =>
    unfold history
    rw [run_cons, ih, cache_after, List.foldl_append]

theorem brought_of_history {s : Service} {σ : Session} {es : List Event} {call : Call} {d : Document}
    (h : .received call d ∈ s.history σ es) : (s.run σ es).Brought d := by
  induction es generalizing σ with
  | nil => cases h
  | cons e es ih =>
    unfold history at h
    rcases List.mem_append.mp h with h | h
    · exact (brought_of_happenings h).onward (run_onward s _ es)
    · exact ih h

/-! ## Calls that fail -/

/-- A call that fails leaves all trees alone, and all references but those of its own repository; these it
leaves alone or replaces by ones that came in full during the call. -/
theorem perform_error (s : Service) (ctx : CallContext) (σ : Session) {call : Call} {e : Error}
    (h : (s.perform ctx call σ).1 = .error e) :
    (∀ url reference,
      (s.perform ctx call σ).2.cache.getTree url reference = σ.cache.getTree url reference) ∧
    ∀ url, (s.perform ctx call σ).2.cache.getRefs url = σ.cache.getRefs url ∨
      url = call.target.url ∧ ∃ d ∈ (s.perform ctx call σ).2.documents.drop σ.documents.length,
        d.refs? = (s.perform ctx call σ).2.cache.getRefs url ∧ d.refs?.isSome := by
  have hne : ∀ t, call ≠ .removeCache t := by
    rintro t rfl
    cases h
  obtain ⟨ds, hl, hds⟩ := perform_teaches s ctx call hne σ
  rw [show (s.perform ctx call σ).2.documents.drop σ.documents.length = ds by
    rw [hl.documents, List.drop_left]]
  constructor
  · -- no document that came lists paths, since the call would not have failed after one that does
    exact hl.getTree (hds ⟨e, h⟩)
  · intro url
    rw [hl.follow]
    rcases Cache.getRefs_foldl_cases (ds.map (.received call)) σ.cache url with same | ⟨x, hx, hv⟩
    · exact .inl same
    · right
      obtain ⟨d, hd, rfl⟩ := List.mem_map.mp hx
      unfold Happening.refs? at hv
      dsimp only at hv
      split at hv
      · rename_i hurl
        obtain ⟨names, hr, hn⟩ := Option.map_eq_some_iff.mp hv
        exact ⟨hurl.symm, d, hd, hr.trans hn, by rw [hr]; rfl⟩
      · cases hv

/-! ## The cache and the history -/

/-- After any run, the cache shows what the history of the run says, and nothing at all if it is disabled;
the documents in the history are whole bodies of replies of the remote that carried content; and a call of
the run that fails changes nothing but the references of its own repository, and these only to ones that
came in full during the call. -/
theorem cache_shows_history (s : Service) (σ : Session) (enabled : Bool) (es : List Event) :
    let start := { σ with cache := .empty enabled }
    let h := s.history start es
    (∀ url, (s.run start es).cache.getRefs url = if enabled then h.refs url else none) ∧
    (∀ url reference,
      (s.run start es).cache.getTree url reference = if enabled then h.tree url reference else none) ∧
    (∀ call d, .received call d ∈ h → (s.run start es).Brought d) ∧
    ∀ earlier ctx call later e, es = earlier ++ .call ctx call :: later →
      let before := s.run start earlier
      let after := (s.perform ctx call before).2
      (s.perform ctx call before).1 = .error e →
        (∀ url reference, after.cache.getTree url reference = before.cache.getTree url reference) ∧
        ∀ url, after.cache.getRefs url = before.cache.getRefs url ∨
          url = call.target.url ∧ ∃ d ∈ after.documents.drop before.documents.length,
            d.refs? = after.cache.getRefs url ∧ d.refs?.isSome := by
  intro start h
  refine ⟨fun url => ?_, fun url reference => ?_, fun call d hd => brought_of_history hd, ?_⟩
  · rw [cache_run]
    exact Cache.getRefs_foldl_follow h enabled url
  · rw [cache_run]
    exact Cache.getTree_foldl_follow h enabled url reference
  · intro earlier ctx call later e hes before after failed
    exact perform_error s ctx before failed

end Service

end HostedGit
