/-
What a call for a tree asks for. With a remote that serves by a script, the requests of the call follow one
plan: what is remembered is not asked for, each request needs what the reply before it told, and the first
reply that is no good ends the call with its error.
-/
import HostedGit.Proofs.Endpoint
import HostedGit.Proofs.Service.Frame
import HostedGit.Proofs.Session.Served

namespace HostedGit

open HostedGit.Action Session

namespace Service

variable {s : Service} {r : Repository} {script : List Request → Request → Reply}

/-! ## Requests -/

/-- The request for a resource of a repository. -/
def RequestFor (s : Service) (r : Repository) (e : Endpoint) (q : Request) : Prop :=
  ∃ u, e.url s.baseUrl r.locator = .ok u ∧ q = s.client.requestFor (Client.authorization? u r.credentials) u

theorem RequestFor.unique {e : Endpoint} {q q' : Request} (h : s.RequestFor r e q)
    (h' : s.RequestFor r e q') : q' = q := by
  obtain ⟨u, hu, rfl⟩ := h
  obtain ⟨u', hu', rfl⟩ := h'
  cases hu.symm.trans hu'
  rfl

/-- Whether a script grants requests that are made one after the other. -/
def Granted (script : List Request → Request → Reply) : List Request → List Request → Prop
  | _, [] => True
  | earlier, q :: rest => Status.isSuccess (script earlier q).status = true ∧ Granted script (earlier ++ [q]) rest

theorem Granted.append {earlier qs qs' : List Request} (h : Granted script earlier qs)
    (h' : Granted script (earlier ++ qs) qs') : Granted script earlier (qs ++ qs') := by
  induction qs generalizing earlier with
  | nil => simpa using h'
  | cons q rest ih =>
    refine ⟨h.1, ih h.2 ?_⟩
    simpa using h'

/-- A service whose resources all lie somewhere, and can be asked for. -/
def Placed (s : Service) : Prop :=
  ∀ l e, ∃ u, Endpoint.url s.baseUrl l e = .ok u ∧ Scheme.isHttp u.scheme = true

theorem placed_of_build {settings : Settings} {c : Config} (hb : settings.build = .ok c)
    (hs : s.baseUrl = c.baseUrl) : s.Placed := by
  intro l e
  obtain ⟨base, hp, hh⟩ := Settings.base_of_build hb
  rw [← hs] at hp
  obtain ⟨u, hu, -⟩ := Endpoint.url_ok hp hh l e
  refine ⟨u, hu, ?_⟩
  rw [(Endpoint.authority_of_url hp hu).2]
  exact hh

/-! ## The plan -/

section

variable (s : Service) (r : Repository) (script : List Request → Request → Reply)

/-- How the references are come by: they are remembered, or asked for. -/
inductive RefsPlan (σ : Session) (url : String) : List Request → Except Error (List String) → Prop
  | remembered {names : List String} (hc : σ.cache.getRefs url = some names) : RefsPlan σ url [] (.ok names)
  | asked {q : Request} (hc : σ.cache.getRefs url = none) (hq : s.RequestFor r .refs q) :
    RefsPlan σ url [q] ((script σ.requests q).outcome "list refs" "Azure refs" Payload.decodeRefs)

/-- How the root of a version is come by: it is the first item of a reply, and has a commit. -/
inductive RootPlan (earlier : List Request) (reference : String) : Request → Except Error Payload.RootItem → Prop
  | failed {q : Request} {e : Error} (hq : s.RequestFor r (.rootItem reference) q)
    (h : (script earlier q).outcome "get repository root item" "Azure items" Payload.decodeItems = .error e) :
    RootPlan earlier reference q (.error e)
  | lacking {q : Request} {items : List Payload.RootItem} (hq : s.RequestFor r (.rootItem reference) q)
    (h : (script earlier q).outcome "get repository root item" "Azure items" Payload.decodeItems = .ok items)
    (hi : ∀ item, items.head? = some item → item.commitId = "") :
    RootPlan earlier reference q (.error (.incompleteData ("failed to get latest commit ID of '" ++
      r.locator.repository ++ "' at '" ++ reference ++ "'")))
  | found {q : Request} {items : List Payload.RootItem} {root : Payload.RootItem}
    (hq : s.RequestFor r (.rootItem reference) q)
    (h : (script earlier q).outcome "get repository root item" "Azure items" Payload.decodeItems = .ok items)
    (hi : items.head? = some root) (hc : root.commitId ≠ "") : RootPlan earlier reference q (.ok root)

/-- How the paths of a version are come by: they are remembered, or asked for by the root that the remote has
for a reference that is listed. -/
inductive TreePlan (σ : Session) (t : Target) : List Request → Except Error (List String) → Prop
  | remembered {paths : List String} (hc : σ.cache.getTree t.url t.reference = some paths) :
    TreePlan σ t [] (.ok paths)
  | noRefs {qs : List Request} {e : Error} (hc : σ.cache.getTree t.url t.reference = none)
    (h : RefsPlan s r script σ t.url qs (.error e)) : TreePlan σ t qs (.error e)
  | unlisted {qs : List Request} {names : List String} (hc : σ.cache.getTree t.url t.reference = none)
    (h : RefsPlan s r script σ t.url qs (.ok names)) (hn : t.reference ∉ names) :
    TreePlan σ t qs (.error (.referenceNotFound t.reference))
  | noRoot {qs : List Request} {names : List String} {q : Request} {e : Error}
    (hc : σ.cache.getTree t.url t.reference = none) (h : RefsPlan s r script σ t.url qs (.ok names))
    (hn : t.reference ∈ names) (hr : RootPlan s r script (σ.requests ++ qs) t.reference q (.error e)) :
    TreePlan σ t (qs ++ [q]) (.error e)
  | asked {qs : List Request} {names : List String} {q q' : Request} {root : Payload.RootItem}
    (hc : σ.cache.getTree t.url t.reference = none) (h : RefsPlan s r script σ t.url qs (.ok names))
    (hn : t.reference ∈ names) (hr : RootPlan s r script (σ.requests ++ qs) t.reference q (.ok root))
    (hq : s.RequestFor r (.tree root.objectId) q') :
    TreePlan σ t (qs ++ [q] ++ [q'])
      ((script (σ.requests ++ (qs ++ [q])) q').outcome "list tree" "Azure tree" Payload.decodeTree)

end

/-! ## There is one plan -/

section

variable {σ : Session}

theorem RefsPlan.unique {url : String} {qs qs' : List Request} {a a' : Except Error (List String)}
    (h : RefsPlan s r script σ url qs a) (h' : RefsPlan s r script σ url qs' a') : qs' = qs ∧ a' = a := by
  cases h with
  | remembered hc =>
    cases h' with
    | remembered hc' => cases hc.symm.trans hc'; exact ⟨rfl, rfl⟩
    | asked hc' => cases hc.symm.trans hc'
  | asked hc hq =>
    cases h' with
    | remembered hc' => cases hc.symm.trans hc'
    | asked _ hq' => cases hq.unique hq'; exact ⟨rfl, rfl⟩

theorem RootPlan.request {earlier : List Request} {reference : String} {q : Request}
    {a : Except Error Payload.RootItem} (h : RootPlan s r script earlier reference q a) :
    s.RequestFor r (.rootItem reference) q := by
  cases h with
  | failed hq | lacking hq | found hq => exact hq

theorem RootPlan.unique {earlier : List Request} {reference : String} {q q' : Request}
    {a a' : Except Error Payload.RootItem} (h : RootPlan s r script earlier reference q a)
    (h' : RootPlan s r script earlier reference q' a') : q' = q ∧ a' = a := by
  cases h.request.unique h'.request
  refine ⟨rfl, ?_⟩
  -- one reply has one outcome, and one first item
  cases h with
  | failed _ h =>
    cases h' with
    | failed _ h' => cases h.symm.trans h'; rfl
    | lacking _ h' | found _ h' => cases h.symm.trans h'
  | lacking _ h hi =>
    cases h' with
    | failed _ h' => cases h.symm.trans h'
    | lacking => rfl
    | found _ h' hi' hc' => cases h.symm.trans h'; exact absurd (hi _ hi') hc'
  | found _ h hi hc =>
    cases h' with
    | failed _ h' => cases h.symm.trans h'
    | lacking _ h' hi' => cases h.symm.trans h'; exact absurd (hi' _ hi) hc
    | found _ h' hi' => cases h.symm.trans h'; cases hi.symm.trans hi'; rfl

theorem TreePlan.unique {t : Target} {qs qs' : List Request} {a a' : Except Error (List String)}
    (h : TreePlan s r script σ t qs a) (h' : TreePlan s r script σ t qs' a') : qs' = qs ∧ a' = a := by
  cases h with
  | remembered hc =>
    cases h' with
    | remembered hc' => cases hc.symm.trans hc'; exact ⟨rfl, rfl⟩
    | noRefs hc' | unlisted hc' | noRoot hc' | asked hc' => cases hc.symm.trans hc'
  | noRefs hc h =>
    cases h' with
    | remembered hc' => cases hc.symm.trans hc'
    | noRefs _ h' => exact h.unique h'
    | unlisted _ h' | noRoot _ h' | asked _ h' => cases (h.unique h').2
  | unlisted hc h hn =>
    cases h' with
    | remembered hc' => cases hc.symm.trans hc'
    | noRefs _ h' => cases (h.unique h').2
    | unlisted _ h' => cases (h.unique h').1; exact ⟨rfl, rfl⟩
    | noRoot _ h' hn' | asked _ h' hn' => cases (h.unique h').2; exact absurd hn' hn
  | noRoot hc h hn hr =>
    cases h' with
    | remembered hc' => cases hc.symm.trans hc'
    | noRefs _ h' => cases (h.unique h').2
    | unlisted _ h' hn' => cases (h.unique h').2; exact absurd hn hn'
    | noRoot _ h' _ hr' =>
      cases (h.unique h').1
      obtain ⟨rfl, ha⟩ := hr.unique hr'
      cases ha
      exact ⟨rfl, rfl⟩
    | asked _ h' _ hr' =>
      cases (h.unique h').1
      cases (hr.unique hr').2
  | asked hc h hn hr hq =>
    cases h' with
    | remembered hc' => cases hc.symm.trans hc'
    | noRefs _ h' => cases (h.unique h').2
    | unlisted _ h' hn' => cases (h.unique h').2; exact absurd hn hn'
    | noRoot _ h' _ hr' =>
      cases (h.unique h').1
      cases (hr.unique hr').2
    | asked _ h' _ hr' hq' =>
      cases (h.unique h').1
      obtain ⟨rfl, ha⟩ := hr.unique hr'
      cases ha
      cases hq.unique hq'
      exact ⟨rfl, rfl⟩

/-! ## What is no good ends the plan -/

theorem RefsPlan.granted {url : String} {qs : List Request} {a : Except Error (List String)}
    (h : RefsPlan s r script σ url qs a) :
    Granted script σ.requests qs.dropLast ∧ ∀ names, a = .ok names → Granted script σ.requests qs := by
  cases h with
  | remembered => exact ⟨trivial, fun _ _ => trivial⟩
  | asked => exact ⟨trivial, fun names hn => ⟨Reply.isSuccess_of_ok hn, trivial⟩⟩

theorem RootPlan.granted {earlier : List Request} {reference : String} {q : Request} {root : Payload.RootItem}
    (h : RootPlan s r script earlier reference q (.ok root)) : Granted script earlier [q] := by
  cases h with
  | found _ h => exact ⟨Reply.isSuccess_of_ok h, trivial⟩

/-- All requests but the last one are granted, and if the paths are come by, that one is too. -/
theorem TreePlan.granted {t : Target} {qs : List Request} {a : Except Error (List String)}
    (h : TreePlan s r script σ t qs a) :
    Granted script σ.requests qs.dropLast ∧ ∀ paths, a = .ok paths → Granted script σ.requests qs := by
  cases h with
  | remembered => exact ⟨trivial, fun _ _ => trivial⟩
  | noRefs _ h | unlisted _ h => exact ⟨h.granted.1, nofun⟩
  | noRoot _ h =>
    rw [List.dropLast_concat]
    exact ⟨h.granted.2 _ rfl, nofun⟩
  | asked _ h _ hr =>
    have before := (h.granted.2 _ rfl).append hr.granted
    rw [List.dropLast_concat]
    exact ⟨before, fun paths hp => before.append ⟨Reply.isSuccess_of_ok hp, trivial⟩⟩

end

/-! ## Calls follow the plan -/

section

variable {ctx : CallContext} {σ : Session}

/-- A document of a resource is asked for once. -/
theorem inquiry_served {α : Type} {e : Endpoint} {step what : String} {decode : Octets → Except Json.Error α}
    (hR : σ.remote.Serves s.client.requestTimeout script) (hs : s.Placed)
    (ho : Outlives ctx (do s.client.getDocument ctx (← s.resource r e) r.credentials step what decode) σ) :
    ∃ q a σ', s.RequestFor r e q ∧ (script σ.requests q).outcome step what decode = a ∧
      (do s.client.getDocument ctx (← s.resource r e) r.credentials step what decode) σ = (a, σ') ∧
      Asked [q] σ σ' := by
  obtain ⟨u, hu, hh⟩ := hs r.locator e
  have hx := resource_ok hu σ
  obtain ⟨σ', hd, asked⟩ := Client.getDocument_served hR hh (ho.of_bind_ok hx)
  exact ⟨_, _, σ', ⟨u, hu, rfl⟩, rfl, (bind_ok hx).trans hd, asked⟩

theorem knownRefs_planned {url : String} (hR : σ.remote.Serves s.client.requestTimeout script) (hs : s.Placed)
    (ho : Outlives ctx (s.knownRefs ctx r url) σ) :
    ∃ qs a σ', RefsPlan s r script σ url qs a ∧ s.knownRefs ctx r url σ = (a, σ') ∧ Asked qs σ σ' := by
  cases hc : σ.cache.getRefs url with
  | some names =>
    exact ⟨[], .ok names, _, .remembered hc, knownRefs_of_some hc, (List.append_nil _).symm, rfl⟩
  | none =>
    have known : s.knownRefs ctx r url σ = s.refreshRefs ctx r url σ := knownRefs_of_none hc
    obtain ⟨q, a, σ₁, hq, ha, hx, asked⟩ := inquiry_served hR hs <|
      Outlives.of_bind (ho.of_eq known) fun _ _ => .refl _
    have planned : RefsPlan s r script σ url [q] a := ha ▸ .asked hc hq
    rw [known]
    cases a with
    | error e => exact ⟨[q], _, σ₁, planned, bind_error hx, asked⟩
    | ok names => exact ⟨[q], _, _, planned, bind_ok hx, asked.requests, asked.remote⟩

theorem fetchRoot_planned {reference : String} (hR : σ.remote.Serves s.client.requestTimeout script)
    (hs : s.Placed) (ho : Outlives ctx (s.fetchRoot ctx r reference) σ) :
    ∃ q a σ', RootPlan s r script σ.requests reference q a ∧ s.fetchRoot ctx r reference σ = (a, σ') ∧
      Asked [q] σ σ' := by
  rw [fetchRoot_eq, ← bind_assoc] at ho ⊢
  obtain ⟨q, a, σ₁, hq, ha, hx, asked⟩ := inquiry_served hR hs <|
    ho.of_bind fun items => forward_frame.toFrame.keeps_settleRoot r reference items
  cases a with
  | error e => exact ⟨q, _, σ₁, .failed hq ha, bind_error hx, asked⟩
  | ok items =>
    rcases settleRoot_cases r reference items with ⟨root, hi, hc, h⟩ | ⟨hi, h⟩
    · exact ⟨q, _, σ₁, .found hq ha hi hc, (bind_ok hx).trans (h σ₁), asked⟩
    · exact ⟨q, _, σ₁, .lacking hq ha hi, (bind_ok hx).trans (h σ₁), asked⟩

theorem fetchPaths_planned {t : Target} (hR : σ.remote.Serves s.client.requestTimeout script) (hs : s.Placed)
    (hc : σ.cache.getTree t.url t.reference = none) (ho : Outlives ctx (s.fetchPaths ctx r t) σ) :
    ∃ qs a σ', TreePlan s r script σ t qs a ∧ s.fetchPaths ctx r t σ = (a, σ') ∧ Asked qs σ σ' := by
  have hF := forward_frame.toReadingFrame
  -- the references come first
  obtain ⟨qs, a, σ₁, refs, hk, asked⟩ := knownRefs_planned hR hs (outlives_knownRefs ho)
  cases a with
  | error e => exact ⟨qs, _, σ₁, .noRefs hc refs, bind_error hk, asked⟩
  | ok names =>
    by_cases hn : t.reference ∈ names
    · have listed := fetchPaths_of_listed hk hn
      have ho := ho.of_eq listed
      have hR₁ : σ₁.remote.Serves s.client.requestTimeout script := asked.remote ▸ hR
      rw [listed]
      -- then the root
      obtain ⟨q, a, σ₂, rooted, hx, asked'⟩ := fetchRoot_planned hR₁ hs <| ho.of_bind fun root =>
        hF.bind ((fetchTree_reads s ctx _ _).keeps hF) fun _ _ => .refl _
      rw [asked.requests] at rooted
      have both := asked.trans asked'
      cases a with
      | error e => exact ⟨qs ++ [q], _, σ₂, .noRoot hc refs hn rooted, bind_error hx, both⟩
      | ok root =>
        have ho := ho.of_bind_ok hx
        have hR₂ : σ₂.remote.Serves s.client.requestTimeout script := asked'.remote ▸ hR₁
        rw [bind_ok hx]
        -- and then the paths
        obtain ⟨q', a, σ₃, hq, ha, hx, asked''⟩ := inquiry_served hR₂ hs (ho.of_bind fun _ _ => .refl _)
        have planned := TreePlan.asked hc refs hn rooted hq
        rw [← both.requests, ha] at planned
        have all := both.trans asked''
        cases a with
        | error e => exact ⟨_, _, σ₃, planned, bind_error hx, all⟩
        | ok paths => exact ⟨_, _, _, planned, bind_ok hx, all.requests, all.remote⟩
    · exact ⟨qs, _, σ₁, .unlisted hc refs hn, fetchPaths_of_unlisted hk hn, asked⟩

/-- The requests of a call for a tree are those of the one plan that there is for it, and its answer is the
answer of the plan, narrowed. All requests but the last one are granted, and if there is no error, that one
is too. -/
theorem listTree_follows_plan (s : Service) {settings : Settings} {c : Config} (hb : settings.build = .ok c)
    (hs : s.baseUrl = c.baseUrl) (ctx : CallContext) (t : Target) (extensions : List String) {l : Locator}
    (hl : Locator.parse t.url = .ok l) (σ : Session) {script : List Request → Request → Reply}
    (hR : σ.remote.Serves s.client.requestTimeout script) (ho : Outlives ctx (s.listTree ctx t extensions) σ) :
    let r : Repository := ⟨l, Credentials.select t.credentials l.embedded⟩
    ∃ qs a, TreePlan s r script σ t qs a ∧
      (∀ qs' a', TreePlan s r script σ t qs' a' → qs' = qs ∧ a' = a) ∧
      (s.listTree ctx t extensions σ).2.requests = σ.requests ++ qs ∧
      (s.listTree ctx t extensions σ).1 = a.map (PathFilter.select extensions) ∧
      Granted script σ.requests qs.dropLast ∧
      ((∃ paths, (s.listTree ctx t extensions σ).1 = .ok paths) → Granted script σ.requests qs) := by
  intro r
  have planned : ∃ qs a σ', TreePlan s r script σ t qs a ∧
      s.listTree ctx t extensions σ = (a.map (PathFilter.select extensions), σ') ∧ Asked qs σ σ' := by
    cases hc : σ.cache.getTree t.url t.reference with
    | some paths =>
      exact ⟨[], .ok paths, _, .remembered hc, listTree_of_some hl hc, (List.append_nil _).symm, rfl⟩
    | none =>
      have missed : s.listTree ctx t extensions σ = _ := listTree_of_none hl hc
      have ho := (ho.of_eq missed).of_bind fun _ _ => .refl _
      obtain ⟨qs, a, σ', h, hx, asked⟩ := fetchPaths_planned hR (placed_of_build hb hs) hc ho
      rw [missed]
      cases a with
      | error e => exact ⟨qs, _, σ', h, bind_error hx, asked⟩
      | ok paths => exact ⟨qs, _, σ', h, bind_ok hx, asked⟩
  obtain ⟨qs, a, σ', h, hx, asked⟩ := planned
  rw [hx]
  refine ⟨qs, a, h, fun _ _ h' => h.unique h', asked.requests, rfl, h.granted.1, ?_⟩
  rintro ⟨paths, hp⟩
  cases a with
  | error e => cases hp
  | ok paths => exact h.granted.2 paths rfl

/-- Where nothing is remembered, three requests are sent, and the answer is narrowed to one suffix. -/
theorem listTree_follows_plan_afresh :
    let s : Service := ⟨⟨"client", ⟨30000000000⟩⟩, "https://dev.azure.com", fun _ _ _ => pure 0, false⟩
    let refs := Utf8.encode
      "\x7b\"value\":[\x7b\"name\":\"HEAD\"\x7d,\x7b\"name\":\"refs/heads/main\"\x7d]\x7d".toList
    let items := Utf8.encode "\x7b\"value\":[\x7b\"objectId\":\"7a\",\"commitId\":\"c1\"\x7d]\x7d".toList
    let tree := Utf8.encode
      "\x7b\"treeEntries\":[\x7b\"relativePath\":\"lib.rs\"\x7d,\x7b\"relativePath\":\"notes.md\"\x7d]\x7d".toList
    let script : List Request → Request → Reply := fun earlier _ =>
      ⟨200, none, none, ⟨[(⟨1⟩, [refs, items].getD earlier.length tree)], .after ⟨0⟩ ()⟩⟩
    let t : Target := ⟨"https://dev.azure.com/org/project/_git/repo", "refs/heads/main", .blank⟩
    let r : Repository := ⟨⟨"org", "project", "repo", .blank⟩, none⟩
    let ctx : CallContext := .ofToken ⟨0⟩
    let R : Remote := ⟨fun _ => true, fun earlier q => .after ⟨1⟩ (script earlier q)⟩
    let σ : Session := .start R .empty "archive"
    σ.remote.Serves s.client.requestTimeout script ∧ Outlives ctx (s.listTree ctx t ["rs"]) σ ∧
      (s.listTree ctx t ["rs"] σ).1.toOption = some ["lib.rs"] ∧
      ∃ qs a, TreePlan s r script σ t qs a ∧ (s.listTree ctx t ["rs"] σ).2.requests = qs ∧
        (s.listTree ctx t ["rs"] σ).1 = a.map (PathFilter.select ["rs"]) ∧ qs.length = 3 ∧
        Granted script [] qs := by
  intro s refs items tree script t r ctx R σ
  have hb : Settings.none.build = .ok Config.default := Locator.eq_ok_of_toOption (by decide +kernel)
  have hl : Locator.parse t.url = .ok ⟨"org", "project", "repo", .blank⟩ :=
    Locator.eq_ok_of_toOption (by decide +kernel)
  have short : 1 + (1 + 0) + 0 ≤ 30000000000 := by omega
  have hR : σ.remote.Serves s.client.requestTimeout script :=
    ⟨fun _ => rfl, fun _ _ => ⟨⟨1⟩, rfl, fun _ => rfl, ⟨0⟩, rfl, short⟩⟩
  obtain ⟨answer, asked, uncancelled⟩ : (s.listTree ctx t ["rs"] σ).1.toOption = some ["lib.rs"] ∧
      (s.listTree ctx t ["rs"] σ).2.requests.length = 3 ∧
      ctx.token ∉ (s.listTree ctx t ["rs"] σ).2.timeline.cancelled := by decide +kernel
  have ho : Outlives ctx (s.listTree ctx t ["rs"]) σ := ⟨uncancelled, nofun⟩
  obtain ⟨qs, a, planned, -, requests, same, -, granted⟩ :=
    listTree_follows_plan s hb rfl ctx t ["rs"] hl σ hR ho
  have requests : (s.listTree ctx t ["rs"] σ).2.requests = qs := requests
  refine ⟨hR, ho, answer, qs, a, planned, requests, same, ?_, granted ⟨_, Locator.eq_ok_of_toOption answer⟩⟩
  rw [← requests]
  exact asked

end

end Service

end HostedGit
