/-
What a call for a tree makes of the items of a version. The first item decides, and of it the commit alone: without
a commit the call is over, and with one the tree is asked for by whatever object id the item has, an empty one too.
-/
import HostedGit.Proofs.Locator
import HostedGit.Proofs.Service.Learning
import HostedGit.Proofs.Session.Transfer

namespace HostedGit

open HostedGit.Action Session

theorem Client.Fault.ne_incompleteData {step : String} {e : Error} (h : Fault step e) (detail : String) :
    e ≠ .incompleteData detail := by
  rintro rfl
  generalize he : Error.incompleteData detail = e at h
  cases h with
  | transport => cases he
  | interruption h => subst he; cases h
  | status n =>
    unfold Error.ofStatus at he
    split at he
    · cases he
    · split at he <;> cases he

namespace Service

variable (s : Service) (ctx : CallContext) (r : Repository) (t : Target)

/-! ## The steps of a call for a tree -/

/-- Asks for the items of a version, if it is listed. -/
def rootItems : Action Session (List Payload.RootItem) := do
  let names ← s.knownRefs ctx r t.url
  if !names.contains t.reference then throw (.referenceNotFound t.reference)
  let u ← s.resource r (.rootItem t.reference)
  s.client.getDocument ctx u r.credentials "get repository root item" "Azure items" Payload.decodeItems

/-- Asks for a tree by its object id, and remembers its paths as those of the version. -/
def keepTree (objectId : String) : Action Session (List String) := do
  let paths ← s.fetchTree ctx r objectId
  Action.log .debug
    (redact t.url ++ " at '" ++ t.reference ++ "' has " ++ toString paths.length ++ " tree entries")
  remember (·.setTree t.url t.reference paths)
  return paths

/-- The error for a version without a commit. -/
def rootless : Error :=
  .incompleteData ("failed to get latest commit ID of '" ++ r.locator.repository ++ "' at '" ++ t.reference ++ "'")

theorem fetchPaths_eq : s.fetchPaths ctx r t = (do
    let items ← s.rootItems ctx r t
    let root ← settleRoot r t.reference items
    s.keepTree ctx r t root.objectId) := by
  unfold fetchPaths rootItems
  rw [bind_assoc]
  refine bind_congr fun names => ?_
  split
  · rfl
  · rw [fetchRoot_eq]
    simp only [bind_assoc]
    rfl

variable {s ctx r t} {σ σ' : Session}

/-- No tree is remembered before the items have come. -/
theorem getTree_rootItems {x : Except Error (List Payload.RootItem)} (h : s.rootItems ctx r t σ = (x, σ'))
    (url reference : String) : σ'.cache.getTree url reference = σ.cache.getTree url reference := by
  have hF := learntOf_frame (·.paths? = none) (.listTree t [])
  have steps : Keeps (LearntNoTree (.listTree t [])) (s.rootItems ctx r t) := by
    refine hF.bind (knownRefs_learns s ctx r (.listTree t [])) fun names => ?_
    split
    · exact fun σ => hF.refl σ
    · exact hF.bind (hF.keeps_resource s r _) fun u σ => (getItems_learns s ctx r u _ σ).mono fun _ h => h.2
  obtain ⟨ds, hl, hd⟩ := steps.of_eq h
  exact hl.getTree hd url reference

/-- Asking for a tree never ends for want of data. -/
theorem keepTree_complete (objectId : String) :
    FailsOnly (fun e => ∀ detail, e ≠ .incompleteData detail) (s.keepTree ctx r t objectId) := by
  refine .bind (.bind ?_ fun u => ?_) fun paths =>
    .bind (.log _ _) fun _ => .bind (.of_ok fun _ => ⟨_, _, rfl⟩) fun _ => .pure _
  · intro σ e σ' h
    cases hu : Endpoint.url s.baseUrl r.locator (.tree objectId) with
    | error cause =>
      rw [resource_error hu] at h
      cases h
      nofun
    | ok u =>
      rw [resource_ok hu] at h
      cases h
  · exact s.client.getDocument_failsOnly ctx _ (fun _ => Client.Fault.ne_incompleteData) (fun _ => nofun) u _ _

/-! ## What the first item decides -/

section

variable {l : Locator} {extensions : List String} {items : List Payload.RootItem}

/-- How a call for a tree goes on that is not remembered, once it is known what the URL names. -/
theorem listTree_eq (hl : Locator.parse t.url = .ok l) (hc : σ.cache.getTree t.url t.reference = none)
    (hr : r = ⟨l, Credentials.select t.credentials l.embedded⟩) :
    s.listTree ctx t extensions σ = (s.rootItems ctx r t >>= fun items => do
      let root ← settleRoot r t.reference items
      let paths ← s.keepTree ctx r t root.objectId
      return PathFilter.select extensions paths) σ := by
  rw [listTree_of_none hl hc, ← hr, fetchPaths_eq]
  simp only [bind_assoc]

/-- The call does with the items what their first one allows: it goes on with the tree that is named there, if the
commit is named as well, and otherwise it fails for want of data, and does nothing more. -/
structure GoesByNames (s : Service) (ctx : CallContext) (r : Repository) (t : Target) (extensions : List String)
    (items : List Payload.RootItem) (σ σ' : Session) : Prop where
  named : ∀ root, items.head? = some root → root.commitId ≠ "" → root.objectId ≠ "" →
    s.listTree ctx t extensions σ =
      (do return PathFilter.select extensions (← s.keepTree ctx r t root.objectId)) σ'
  unnamed : (∀ root, items.head? = some root → root.commitId = "" ∨ root.objectId = "") →
    ∃ detail, s.listTree ctx t extensions σ = (.error (.incompleteData detail), σ')

end

/-- A tree is asked for by the object id of the first item, if that has a commit, and otherwise the call fails for
want of data and leaves everything as it was when the items had come. So no tree is asked for without a name unless
the first item has a commit and no object id. -/
theorem tree_named_unless_blank (s : Service) (ctx : CallContext) (t : Target) (extensions : List String)
    (σ : Session) :
    (∀ cause, Locator.parse t.url = .error cause →
      s.listTree ctx t extensions σ = (.error (.urlParse cause), σ)) ∧
    ∀ l, Locator.parse t.url = .ok l →
      let r : Repository := ⟨l, Credentials.select t.credentials l.embedded⟩
      (∀ paths, σ.cache.getTree t.url t.reference = some paths →
        (s.listTree ctx t extensions σ).2.requests = σ.requests) ∧
      (σ.cache.getTree t.url t.reference = none →
        (∀ e σ', s.rootItems ctx r t σ = (.error e, σ') → s.listTree ctx t extensions σ = (.error e, σ')) ∧
        ∀ items σ', s.rootItems ctx r t σ = (.ok items, σ') →
          (∀ url reference, σ'.cache.getTree url reference = σ.cache.getTree url reference) ∧
          (∀ root, items.head? = some root → root.commitId ≠ "" → s.listTree ctx t extensions σ =
            (do return PathFilter.select extensions (← s.keepTree ctx r t root.objectId)) σ') ∧
          ((∀ root, items.head? = some root → root.commitId = "") →
            s.listTree ctx t extensions σ = (.error (rootless r t), σ')) ∧
          (GoesByNames s ctx r t extensions items σ σ' ↔
            ∀ root, items.head? = some root → root.commitId ≠ "" → root.objectId ≠ "")) := by
  constructor
  · exact fun cause hl => bind_error (repository_error hl σ)
  intro l hl r
  refine ⟨fun paths hc => ?_, fun hc => ⟨fun e σ' h => ?_, fun items σ' h => ?_⟩⟩
  · rw [listTree_of_some hl hc]
    rfl
  · rw [listTree_eq hl hc rfl, bind_error h]
  have after : s.listTree ctx t extensions σ = _ := (listTree_eq hl hc rfl).trans (bind_ok h)
  have found : ∀ root, items.head? = some root → root.commitId ≠ "" → s.listTree ctx t extensions σ =
      (do return PathFilter.select extensions (← s.keepTree ctx r t root.objectId)) σ' := by
    intro root hi hn
    rcases settleRoot_cases r t.reference items with ⟨root', hi', -, settled⟩ | ⟨blank, -⟩
    · cases hi.symm.trans hi'
      exact after.trans (bind_ok (settled σ'))
    · exact absurd (blank root hi) hn
  have lacking : (∀ root, items.head? = some root → root.commitId = "") →
      s.listTree ctx t extensions σ = (.error (rootless r t), σ') := by
    intro blank
    rcases settleRoot_cases r t.reference items with ⟨root, hi, hn, -⟩ | ⟨-, settled⟩
    · exact absurd (blank root hi) hn
    · exact after.trans (bind_error (settled σ'))
  refine ⟨getTree_rootItems h, found, lacking, ?_, ?_⟩
  · intro names root hi hn blank
    -- a tree without a name would be asked for, and that never ends for want of data
    obtain ⟨detail, ended⟩ := names.unnamed fun root' hi' => by
      cases hi.symm.trans hi'
      exact .inr blank
    have complete : FailsOnly (fun e => ∀ detail, e ≠ .incompleteData detail) (do
        return PathFilter.select extensions (← s.keepTree ctx r t root.objectId)) :=
      (keepTree_complete _).bind fun _ => .pure _
    exact complete ((found root hi hn).symm.trans ended) detail rfl
  · intro named
    refine ⟨fun root hi hn _ => found root hi hn, fun blank => ⟨_, lacking fun root hi => ?_⟩⟩
    by_cases hn : root.commitId = ""
    · exact hn
    · exact (blank root hi).resolve_right (named root hi hn)

/-- Items of which the first says all that is needed, and items of which none says both. -/
theorem tree_named_unless_blank_read :
    let s : Service := ⟨⟨"client", ⟨30000000000⟩⟩, "https://dev.azure.com", fun _ _ _ => pure 0, false⟩
    let refs := Json.octets "\x7b\"value\":[\x7b\"name\":\"refs/heads/main\"\x7d]\x7d"
    let tree := Json.octets "\x7b\"treeEntries\":[\x7b\"relativePath\":\"lib.rs\"\x7d]\x7d"
    let whole := Json.octets "\x7b\"value\":[\x7b\"objectId\":\"7a\",\"commitId\":\"c1\"\x7d,\x7b\x7d]\x7d"
    let lacking :=
      Json.octets "\x7b\"value\":[\x7b\"objectId\":\"7a\",\"commitId\":\"\"\x7d,\x7b\"commitId\":\"c1\"\x7d]\x7d"
    let t : Target := ⟨"https://dev.azure.com/org/project/_git/repo", "refs/heads/main", .blank⟩
    let r : Repository := ⟨⟨"org", "project", "repo", .blank⟩, none⟩
    let ctx : CallContext := .ofToken ⟨0⟩
    let σ (items : Octets) : Session := .start ⟨fun _ => true, fun earlier _ => .after ⟨1⟩
      ⟨200, none, none, ⟨[(⟨1⟩, [refs, items].getD earlier.length tree)], .after ⟨0⟩ ()⟩⟩⟩ .empty "archive"
    Locator.parse t.url = .ok r.locator ∧
      (∃ items σ', s.rootItems ctx r t (σ whole) = (.ok items, σ') ∧ GoesByNames s ctx r t [] items (σ whole) σ') ∧
      ∃ items σ', s.rootItems ctx r t (σ lacking) = (.ok items, σ') ∧
        s.listTree ctx t [] (σ lacking) = (.error (rootless r t), σ') ∧ σ'.requests.length = 2 ∧
        σ'.cache.getTree t.url t.reference = none := by
  intro s refs tree whole lacking t r ctx σ
  have hl : Locator.parse t.url = .ok r.locator := Locator.eq_ok_of_toOption (by decide +kernel)
  obtain ⟨named, unnamed, asked⟩ : (s.rootItems ctx r t (σ whole)).1.toOption = some [⟨"7a", "c1", ""⟩, ⟨"", "", ""⟩] ∧
      (s.rootItems ctx r t (σ lacking)).1.toOption = some [⟨"7a", "", ""⟩, ⟨"", "c1", ""⟩] ∧
      (s.rootItems ctx r t (σ lacking)).2.requests.length = 2 := by decide +kernel
  have named : s.rootItems ctx r t (σ whole) = (.ok _, _) := Prod.ext (Locator.eq_ok_of_toOption named) rfl
  have unnamed : s.rootItems ctx r t (σ lacking) = (.ok _, _) := Prod.ext (Locator.eq_ok_of_toOption unnamed) rfl
  refine ⟨hl, ⟨_, _, named, ?_⟩, _, _, unnamed, ?_⟩
  · obtain ⟨-, -, -, iff⟩ := (((tree_named_unless_blank s ctx t [] (σ whole)).2 _ hl).2 rfl).2 _ _ named
    refine iff.mpr fun root hi _ => ?_
    cases hi
    decide
  · obtain ⟨same, -, ended, -⟩ := (((tree_named_unless_blank s ctx t [] (σ lacking)).2 _ hl).2 rfl).2 _ _ unnamed
    refine ⟨ended fun root hi => ?_, asked, same _ _⟩
    cases hi
    rfl

/-- An item without an object id leads to a request that names no tree, and what comes back is remembered. -/
theorem tree_asked_without_name :
    let s : Service := ⟨⟨"client", ⟨30000000000⟩⟩, "https://dev.azure.com", fun _ _ _ => pure 0, false⟩
    let refs := Json.octets "\x7b\"value\":[\x7b\"name\":\"refs/heads/main\"\x7d]\x7d"
    let items := Json.octets "\x7b\"value\":[\x7b\"commitId\":\"c1\"\x7d]\x7d"
    let tree := Json.octets "\x7b\"treeEntries\":[\x7b\"relativePath\":\"lib.rs\"\x7d]\x7d"
    let t : Target := ⟨"https://dev.azure.com/org/project/_git/repo", "refs/heads/main", .blank⟩
    let r : Repository := ⟨⟨"org", "project", "repo", .blank⟩, none⟩
    let ctx : CallContext := .ofToken ⟨0⟩
    let σ : Session := .start ⟨fun _ => true, fun earlier _ => .after ⟨1⟩
      ⟨200, none, none, ⟨[(⟨1⟩, [refs, items].getD earlier.length tree)], .after ⟨0⟩ ()⟩⟩⟩ .empty "archive"
    let σ' := (s.listTree ctx t [] σ).2
    (s.rootItems ctx r t σ).1.toOption = some [⟨"", "c1", ""⟩] ∧
      (s.listTree ctx t [] σ).1.toOption = some ["lib.rs"] ∧
      σ'.requests.getLast?.map (·.target) =
        some "/org/project/_apis/git/repositories/repo/trees/?recursive=true&api-version=6.0" ∧
      σ'.cache.getTree t.url t.reference = some ["lib.rs"] ∧
      ∀ σ₁, ¬ GoesByNames s ctx r t [] [⟨"", "c1", ""⟩] σ σ₁ := by
  intro s refs items tree t r ctx σ σ'
  obtain ⟨came, answer, asked, kept⟩ : (s.rootItems ctx r t σ).1.toOption = some [⟨"", "c1", ""⟩] ∧
      (s.listTree ctx t [] σ).1.toOption = some ["lib.rs"] ∧
      σ'.requests.getLast?.map (·.target) =
        some "/org/project/_apis/git/repositories/repo/trees/?recursive=true&api-version=6.0" ∧
      σ'.cache.getTree t.url t.reference = some ["lib.rs"] := by decide +kernel
  refine ⟨came, answer, asked, kept, fun σ₁ h => ?_⟩
  obtain ⟨detail, ended⟩ := h.unnamed fun root hi => by
    cases hi
    exact .inr rfl
  rw [ended] at answer
  cases answer

end Service

end HostedGit
