import VaultplaneGateway.WireFormats
import Mathlib.Logic.Function.Basic

/-!
# Cache keys and the response cache

A cache key is the digest of one flat byte string: scope, a zero byte, model, a
zero byte, and a payload that is either the request body or the caller's
idempotency key behind a fixed tag. The endpoint is not part of it. The bytes
determine the scope whenever scopes have no zero byte, and scope, model and
payload whenever models have none either; a body that starts with the tag is a
payload of both kinds.

The cache itself belongs to another crate. It is a finite store that may lose
an entry at any time; what it returns was inserted under the same key.
-/
namespace VaultplaneGateway.ResponseCaching
open WireFormats

/-- Token usage reported by an upstream provider. -/
structure Usage where
  promptTokens : UInt32
  completionTokens : UInt32
  deriving DecidableEq, Repr

structure CachedResponse where
  status : UInt16
  contentType : Option String
  body : Bytes
  provider : String
  model : String
  usage : Option Usage
  deriving DecidableEq, Repr

/-- The bytes fed to the hasher, in order. -/
def keyInput (scope model : String) (payload : Bytes) : Bytes :=
  asBytes scope ++ 0 :: (asBytes model ++ 0 :: payload)

/-- `ResponseCache::key`. -/
def key (lib : Externals) (scope model : String) (payload : Bytes) : String :=
  hexEncode (lib.sha256 (keyInput scope model payload))

/-- The bytes of `format!("idempotency:{k}")`. -/
def idempotencyTag : Bytes := asBytes "idempotency:"

/-- The caller's idempotency key replaces the body. -/
def payload (idempotencyKey : Option String) (body : Bytes) : Bytes :=
  match idempotencyKey with
  | some k => idempotencyTag ++ asBytes k
  | none => body

def cacheKeyFor (lib : Externals) (scope model : String) (idempotencyKey : Option String)
    (body : Bytes) : String :=
  match idempotencyKey with
  | some k => key lib scope model (idempotencyTag ++ asBytes k)
  | none => key lib scope model body

theorem cacheKeyFor_eq (lib : Externals) (scope model : String) (idem : Option String)
    (body : Bytes) :
    cacheKeyFor lib scope model idem body = key lib scope model (payload idem body) := by
  cases idem <;> rfl

/-- A word without the separator is recovered from the front of a framed word. -/
theorem append_cons_inj {α : Type*} {sep : α} {x y a b : List α} (hx : sep ∉ x) (hy : sep ∉ y)
    (h : x ++ sep :: a = y ++ sep :: b) : x = y ∧ a = b := by
  induction x generalizing y with
  | nil =>
      cases y with
      | nil => exact ⟨rfl, (List.cons.inj h).2⟩
      | cons c y => exact (hy ((List.cons.inj h).1 ▸ List.mem_cons_self)).elim
  | cons c x ih =>
      cases y with
      | nil => exact (hx ((List.cons.inj h).1 ▸ List.mem_cons_self)).elim
      | cons d y =>
          obtain ⟨hcd, htail⟩ := List.cons.inj h
          obtain ⟨hxy, hab⟩ := ih (fun hm => hx (List.mem_cons_of_mem _ hm))
            (fun hm => hy (List.mem_cons_of_mem _ hm)) htail
          exact ⟨by rw [hcd, hxy], hab⟩

/-- Scopes without a zero byte are recovered whatever models and payloads are. -/
theorem scope_of_keyInput {s s' m m' : String} {p p' : Bytes} (hs : 0 ∉ asBytes s)
    (hs' : 0 ∉ asBytes s') (h : keyInput s m p = keyInput s' m' p') : s = s' :=
  asBytes_injective (append_cons_inj hs hs' h).1

theorem keyInput_inj {s s' m m' : String} {p p' : Bytes} (hs : 0 ∉ asBytes s)
    (hs' : 0 ∉ asBytes s') (hm : 0 ∉ asBytes m) (hm' : 0 ∉ asBytes m')
    (h : keyInput s m p = keyInput s' m' p') : s = s' ∧ m = m' ∧ p = p' := by
  obtain ⟨hss, hrest⟩ := append_cons_inj hs hs' h
  obtain ⟨hmm, hpp⟩ := append_cons_inj hm hm' hrest
  exact ⟨asBytes_injective hss, asBytes_injective hmm, hpp⟩

structure ResponseCache where
  inner : String → Option CachedResponse

namespace ResponseCache

def empty : ResponseCache := ⟨fun _ => none⟩

def get (c : ResponseCache) (k : String) : Option CachedResponse := c.inner k

def insert (c : ResponseCache) (k : String) (v : CachedResponse) : ResponseCache :=
  ⟨Function.update c.inner k (some v)⟩

/-- Capacity or age: any entry may disappear at any time. -/
def evict (c : ResponseCache) (k : String) : ResponseCache :=
  ⟨Function.update c.inner k none⟩

theorem get_insert (c : ResponseCache) (k k' : String) (v : CachedResponse) :
    (c.insert k v).get k' = if k' = k then some v else c.get k' := by
  simp [get, insert, Function.update_apply]

theorem get_evict (c : ResponseCache) (k k' : String) :
    (c.evict k).get k' = if k' = k then none else c.get k' := by
  simp [get, evict, Function.update_apply]

end ResponseCache

end VaultplaneGateway.ResponseCaching
