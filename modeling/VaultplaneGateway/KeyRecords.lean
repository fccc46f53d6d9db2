import VaultplaneGateway.WireFormats
import Mathlib.Data.List.AList

/-!
# Virtual keys and the key store

The store is a map from token hash to key record. Its association list is the
map in its current iteration order. The standard library leaves that order
unspecified and may change it at any insertion; a result for every store covers
every order in which the search for an id may run.

Every writer of the store files a record under its own `hash` field. The store
carries that fact, and no operation below has to re-establish it by hand.
-/
namespace VaultplaneGateway.KeyRecords
open WireFormats

inductive Period where
  | day | week | month
  deriving DecidableEq, Repr

/-- Dollar amounts are exact rationals throughout the development. -/
structure SpendLimit where
  amountUsd : ℚ
  period : Period
  deriving DecidableEq, Repr

structure VirtualKey where
  id : String
  hash : String
  team : String
  app : String
  env : String
  models : List String
  rateLimitRps : Option UInt32
  spendLimit : Option SpendLimit
  expiresAt : Option String
  deriving DecidableEq, Repr

namespace VirtualKey

def anonymous : VirtualKey where
  id := ""
  hash := ""
  team := ""
  app := ""
  env := ""
  models := []
  rateLimitRps := none
  spendLimit := none
  expiresAt := none

def allowsModel (k : VirtualKey) (model : String) : Bool :=
  k.models.isEmpty || k.models.any fun m => m == "*" || m == model

def identifier (k : VirtualKey) : String := if k.id.isEmpty then "anonymous" else k.id

/-- A timestamp that does not parse counts as expired. -/
def isExpired (lib : Externals) (k : VirtualKey) (now : ℕ) : Bool :=
  match k.expiresAt with
  | none => false
  | some expiry =>
      match lib.parseRfc3339 expiry with
      | some t => t < (now : ℤ)
      | none => true

end VirtualKey

def hashToken (lib : Externals) (token : String) : String :=
  hexEncode (lib.sha256 (asBytes token))

abbrev KeyMap := AList fun _ : String => VirtualKey

structure KeyStore where
  byHash : KeyMap
  keyed : ∀ h k, byHash.lookup h = some k → k.hash = h

namespace KeyStore

def lookup (s : KeyStore) (h : String) : Option VirtualKey := s.byHash.lookup h

def empty : KeyStore := ⟨∅, by simp⟩

def authenticate (lib : Externals) (s : KeyStore) (token : String) : Option VirtualKey :=
  s.lookup (hashToken lib token)

def insert (s : KeyStore) (key : VirtualKey) : KeyStore where
  byHash := s.byHash.insert key.hash key
  keyed := by
    intro h k hk
    by_cases he : h = key.hash
    · subst he
      rw [AList.lookup_insert] at hk
      rw [← Option.some.inj hk]
    · rw [AList.lookup_insert_ne he] at hk
      exact s.keyed h k hk

/-- Collecting records into a map inserts them in order: of two records with one
hash the later one stays. -/
def new (keys : List VirtualKey) : KeyStore := keys.foldl insert empty

/-- The previous map is dropped as a whole. -/
def replaceAll (_ : KeyStore) (keys : List VirtualKey) : KeyStore := new keys

def erase (s : KeyStore) (h : String) : KeyStore where
  byHash := s.byHash.erase h
  keyed := by
    intro h' k hk
    by_cases he : h' = h
    · subst he
      simp at hk
    · rw [AList.lookup_erase_ne he] at hk
      exact s.keyed h' k hk

/-- The hash of the first record in iteration order that carries the id. -/
def hashOfId (s : KeyStore) (id : String) : Option String :=
  s.byHash.entries.findSome? fun e => if e.2.id == id then some e.1 else none

/-- The answer says whether a record was removed. -/
def removeById (s : KeyStore) (id : String) : KeyStore × Bool :=
  match s.hashOfId id with
  | some h => (s.erase h, true)
  | none => (s, false)

def list (s : KeyStore) : List VirtualKey := s.byHash.entries.map Sigma.snd

def findById (s : KeyStore) (id : String) : Option VirtualKey :=
  s.list.find? fun k => k.id == id

def isEmpty (s : KeyStore) : Bool := s.byHash.entries.isEmpty

@[simp] theorem lookup_empty (h : String) : empty.lookup h = none := by
  simp [lookup, empty]

theorem lookup_insert (s : KeyStore) (key : VirtualKey) (h : String) :
    (s.insert key).lookup h = if h = key.hash then some key else s.lookup h := by
  unfold lookup insert
  split_ifs with he
  · rw [he, AList.lookup_insert]
  · rw [AList.lookup_insert_ne he]

theorem lookup_erase (s : KeyStore) (h h' : String) :
    (s.erase h).lookup h' = if h' = h then none else s.lookup h' := by
  unfold lookup erase
  split_ifs with he
  · rw [he, AList.lookup_erase]
  · rw [AList.lookup_erase_ne he]

/-- A stored record is one of the records the store was folded from, or was
there before. -/
theorem mem_of_lookup_foldl (keys : List VirtualKey) (s : KeyStore) {h : String}
    {k : VirtualKey} (hk : (keys.foldl insert s).lookup h = some k) :
    k ∈ keys ∨ s.lookup h = some k := by
  induction keys generalizing s with
  | nil => exact .inr hk
  | cons key keys ih =>
      rcases ih (s.insert key) hk with hmem | hs
      · exact .inl (List.mem_cons_of_mem _ hmem)
      · rw [lookup_insert] at hs
        split_ifs at hs with he
        · exact .inl (by simp [Option.some.inj hs])
        · exact .inr hs

theorem mem_of_lookup_new {keys : List VirtualKey} {h : String} {k : VirtualKey}
    (hk : (new keys).lookup h = some k) : k ∈ keys := by
  rcases mem_of_lookup_foldl keys empty hk with hmem | hnone
  · exact hmem
  · simp at hnone

theorem mem_list_iff (s : KeyStore) (k : VirtualKey) :
    k ∈ s.list ↔ s.lookup k.hash = some k := by
  constructor
  · intro hk
    obtain ⟨⟨h, k'⟩, he, rfl⟩ := List.mem_map.mp hk
    have hl : s.byHash.lookup h = some k' := AList.mem_lookup_iff.mpr he
    rw [lookup, s.keyed h k' hl, hl]
  · intro hk
    exact List.mem_map.mpr ⟨⟨k.hash, k⟩, AList.mem_lookup_iff.mp hk, rfl⟩

theorem hash_of_lookup {s : KeyStore} {h : String} {k : VirtualKey}
    (hk : s.lookup h = some k) : k.hash = h := s.keyed h k hk

theorem mem_list_of_lookup {s : KeyStore} {h : String} {k : VirtualKey}
    (hk : s.lookup h = some k) : k ∈ s.list :=
  (s.mem_list_iff k).mpr (by rw [hash_of_lookup hk, hk])

theorem isEmpty_iff (s : KeyStore) : s.isEmpty = true ↔ s.list = [] := by
  simp [isEmpty, list, List.isEmpty_iff]

/-- A store that knows a token is not empty. -/
theorem isEmpty_of_authenticate {lib : Externals} {s : KeyStore} {token : String}
    {key : VirtualKey} (h : s.authenticate lib token = some key) : s.isEmpty = false := by
  apply Bool.eq_false_iff.mpr
  intro hempty
  have hmem := mem_list_of_lookup h
  rw [(isEmpty_iff s).mp hempty] at hmem
  cases hmem

theorem findById_eq_none_iff (s : KeyStore) (id : String) :
    s.findById id = none ↔ ∀ k ∈ s.list, k.id ≠ id := by
  simp [findById, List.find?_eq_none]

/-- The search for an id either reports a stored record that carries it or shows
that no record does. -/
theorem hashOfId_cases (s : KeyStore) (id : String) :
    (∃ k, s.lookup k.hash = some k ∧ k.id = id ∧ s.hashOfId id = some k.hash) ∨
      (s.hashOfId id = none ∧ ∀ k ∈ s.list, k.id ≠ id) := by
  cases hf : s.hashOfId id with
  | some h =>
      left
      obtain ⟨⟨h', k⟩, he, hk⟩ := List.exists_of_findSome?_eq_some hf
      dsimp only at hk
      split_ifs at hk with hid
      have hl : s.lookup h' = some k := AList.mem_lookup_iff.mpr he
      refine ⟨k, ?_, beq_iff_eq.mp hid, ?_⟩
      · rw [hash_of_lookup hl, hl]
      · rw [hash_of_lookup hl, ← hk]
  | none =>
      right
      refine ⟨rfl, ?_⟩
      intro k hk hid
      have hmem := AList.mem_lookup_iff.mp ((s.mem_list_iff k).mp hk)
      have := List.findSome?_eq_none_iff.mp hf _ hmem
      simp [hid] at this

/-- Removal by id deletes at most one record, and it carries the id. -/
theorem removeById_cases (s : KeyStore) (id : String) :
    (∃ k, s.lookup k.hash = some k ∧ k.id = id ∧ s.removeById id = (s.erase k.hash, true)) ∨
      (s.removeById id = (s, false) ∧ ∀ k ∈ s.list, k.id ≠ id) := by
  rcases s.hashOfId_cases id with ⟨k, hk, hid, hf⟩ | ⟨hf, hnone⟩
  · exact .inl ⟨k, hk, hid, by simp [removeById, hf]⟩
  · exact .inr ⟨by simp [removeById, hf], hnone⟩

theorem lookup_removeById {s : KeyStore} {id h : String} {k : VirtualKey}
    (hk : (s.removeById id).1.lookup h = some k) : s.lookup h = some k := by
  rcases s.removeById_cases id with ⟨k', -, -, he⟩ | ⟨he, -⟩
  · rw [he, lookup_erase] at hk
    split_ifs at hk
    exact hk
  · rwa [he] at hk

/-- The iteration order of the map does not show in lookups. -/
theorem lookup_of_perm {s t : KeyStore} (h : s.byHash.entries.Perm t.byHash.entries)
    (x : String) : s.lookup x = t.lookup x := AList.perm_lookup h

end KeyStore

end VaultplaneGateway.KeyRecords
