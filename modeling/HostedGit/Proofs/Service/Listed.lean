/-
Listings as they come back. A body that lists references or the paths of a tree is answered with just those names,
however it is written.
-/
import HostedGit.Proofs.Locator
import HostedGit.Proofs.Payload
import HostedGit.Proofs.Session.Steady

namespace HostedGit.Service

open HostedGit.Action Payload Json

/-- What comes back for a resource, as it is written. -/
def bodyOf (s : Service) (ctx : CallContext) (r : Repository) (e : Endpoint) (step : String) :
    Action Session Octets := do
  let u ← s.resource r e
  let response ← s.client.get ctx u r.credentials step
  Client.readBody ctx step response

/-- A document that comes back is decoded, and nothing else is done with it. -/
theorem inquiry_of_body {s : Service} {ctx : CallContext} {r : Repository} {e : Endpoint} {σ σ' : Session} {α : Type}
    {step : String} {body : Octets} {decode : Octets → Except Json.Error α} {a : α}
    (h : s.bodyOf ctx r e step σ = (.ok body, σ')) (hd : decode body = .ok a) (what : String) :
    (do s.client.getDocument ctx (← s.resource r e) r.credentials step what decode) σ = (.ok a, σ') := by
  obtain ⟨u, σ₁, hu, h⟩ := bind_answered h
  obtain ⟨response, σ₂, hr, hb⟩ := bind_answered h
  rw [bind_ok hu, Client.getDocument_eq, bind_ok hr, Client.settleResponse, bind_ok hb, hd]
  rfl

/-- A body that lists references is answered with their names in order, without the symbolic one, and a body that
lists what is below a tree with the paths in order. Bodies that list the same names are never told apart. -/
theorem listings_show_names (names : List String) :
    (∀ body, RefsDocument names body →
      decodeRefs body = .ok (names.filter (· ≠ "HEAD")) ∧
      (∀ body', RefsDocument names body' → decodeRefs body' = decodeRefs body) ∧
      ∀ (s : Service) (ctx : CallContext) (r : Repository) (σ σ' : Session),
        s.bodyOf ctx r .refs "list refs" σ = (.ok body, σ') →
        s.fetchRefs ctx r σ = (.ok (names.filter (· ≠ "HEAD")), σ')) ∧
    ∀ body, TreeDocument names body →
      decodeTree body = .ok names ∧
      (∀ body', TreeDocument names body' → decodeTree body' = decodeTree body) ∧
      ∀ (s : Service) (ctx : CallContext) (r : Repository) (objectId : String) (σ σ' : Session),
        s.bodyOf ctx r (.tree objectId) "list tree" σ = (.ok body, σ') →
        s.fetchTree ctx r objectId σ = (.ok names, σ') := by
  constructor
  · intro body h
    have decoded := decodeRefs_of_document h
    refine ⟨decoded, fun body' h' => ?_, fun s ctx r σ σ' hb => inquiry_of_body hb decoded _⟩
    rw [decoded, decodeRefs_of_document h']
  · intro body h
    have decoded := decodeTree_of_document h
    refine ⟨decoded, fun body' h' => ?_, fun s ctx r objectId σ σ' hb => inquiry_of_body hb decoded _⟩
    rw [decoded, decodeTree_of_document h']

/-- Documents with other members, a key in other letters, escapes, and the symbolic reference. -/
theorem listings_show_names_escaped :
    let refs := octets (" \x7b\"x\":[null],\"Value\":[\x7b\"n\":-0.5,\"name\":\"A\\ud834\\udd1e\"\x7d,\x7b\"name\":" ++
      "\"HEAD\"\x7d]\x7d")
    let tree := octets "\x7b\"treeEntries\":[\x7b\"relativePath\":\"src\\/lib.rs\"\x7d]\x7d"
    let s : Service := ⟨⟨"client", ⟨30000000000⟩⟩, "https://dev.azure.com", fun _ _ _ => pure 0, false⟩
    let r : Repository := ⟨⟨"org", "project", "repo", .blank⟩, none⟩
    let ctx : CallContext := .ofToken ⟨0⟩
    let σ (body : Octets) : Session :=
      .start ⟨fun _ => true, fun _ _ => .after ⟨1⟩ ⟨200, none, none, ⟨[(⟨1⟩, body)], .after ⟨0⟩ ()⟩⟩⟩ .empty "archive"
    (RefsDocument ["A𝄞", "HEAD"] refs ∧ (s.bodyOf ctx r .refs "list refs" (σ refs)).1.toOption = some refs ∧
      (s.fetchRefs ctx r (σ refs)).1 = .ok ["A𝄞"]) ∧
    TreeDocument ["src/lib.rs"] tree ∧ (s.bodyOf ctx r (.tree "t") "list tree" (σ tree)).1.toOption = some tree ∧
      (s.fetchTree ctx r "t" (σ tree)).1 = .ok ["src/lib.rs"] := by
  intro refs tree s r ctx σ
  have refsCame : (s.bodyOf ctx r .refs "list refs" (σ refs)).1.toOption = some refs := by decide +kernel
  have treeCame : (s.bodyOf ctx r (.tree "t") "list tree" (σ tree)).1.toOption = some tree := by decide +kernel
  refine ⟨⟨refsDocument_escaped, refsCame, ?_⟩, treeDocument_escaped, treeCame, ?_⟩
  · have came : s.bodyOf ctx r .refs "list refs" (σ refs) = (.ok refs, _) :=
      Prod.ext (Locator.eq_ok_of_toOption refsCame) rfl
    rw [((listings_show_names _).1 _ refsDocument_escaped).2.2 s ctx r (σ refs) _ came]
    rfl
  · have came : s.bodyOf ctx r (.tree "t") "list tree" (σ tree) = (.ok tree, _) :=
      Prod.ext (Locator.eq_ok_of_toOption treeCame) rfl
    rw [((listings_show_names _).2 _ treeDocument_escaped).2.2 s ctx r "t" (σ tree) _ came]

end HostedGit.Service
