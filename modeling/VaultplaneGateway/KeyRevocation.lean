import VaultplaneGateway.ProxyPipeline
import Mathlib.Logic.Relation

/-!
# Revoking keys

Two questions about `DELETE /admin/keys/{id}` and about a key set that replaces
the current one with fewer keys. Does a removal ever open the proxy to a request
it refused before, and does a removal by id reach every record with that id?

The store is consulted only while it holds a key. A removal that leaves it
nonempty keeps every refusal; a removal that empties it turns authentication
off, which is the documented meaning of a gateway without keys. The store is
indexed by hash and removal by id deletes one record, so it is complete exactly
for ids that at most one record carries.
-/
namespace VaultplaneGateway.KeyRevocation
open WireFormats KeyRecords RateLimiting ProxyPipeline

/-- The answer to a request without an acceptable token. -/
def invalidKey : Response := error 401 "missing or invalid virtual key"

/-- The middleware turns the request away for want of a valid key. -/
def Refuses (lib : Externals) (keys : KeyStore) (limiter : RateLimiter) (headers : HeaderMap)
    (now : Clock) : Prop :=
  (authenticate lib keys limiter headers now).2 = .error invalidKey

/-- Expiry and rate refusals carry other messages, so only the key lookup gives
this answer. -/
theorem admission_ne_invalidKey (lib : Externals) (limiter : RateLimiter) (key : VirtualKey)
    (now : Clock) : (admission lib limiter key now).2 ≠ some invalidKey := by
  unfold admission
  split_ifs
  · simp [error, invalidKey]
  · split
    · simp
    · dsimp only
      split_ifs
      · simp
      · simp [error, invalidKey]

theorem refuses_iff_identify (lib : Externals) (keys : KeyStore) (limiter : RateLimiter)
    (headers : HeaderMap) (now : Clock) :
    Refuses lib keys limiter headers now ↔ identify lib keys headers = .error invalidKey := by
  unfold Refuses authenticate
  cases hid : identify lib keys headers with
  | error r => simp
  | ok key =>
      have hne := admission_ne_invalidKey lib limiter key now
      rcases hadm : admission lib limiter key now with ⟨l, _ | r⟩
      · simp [hadm]
      · rw [hadm] at hne
        simpa [hadm] using hne

theorem refuses_iff (lib : Externals) (keys : KeyStore) (limiter : RateLimiter)
    (headers : HeaderMap) (now : Clock) :
    Refuses lib keys limiter headers now ↔
      keys.isEmpty = false ∧ (bearerToken headers).bind (keys.authenticate lib) = none := by
  rw [refuses_iff_identify]
  unfold identify
  cases hempty : keys.isEmpty with
  | true => simp
  | false =>
      cases (bearerToken headers).bind (keys.authenticate lib) with
      | none => simp [invalidKey]
      | some k => simp

/-- Operations that only take keys away: removal by id, and replacement by
records the store already holds. -/
inductive Removal : KeyStore → KeyStore → Prop
  | removeById (s : KeyStore) (id : String) : Removal s (s.removeById id).1
  | replaceAll (s : KeyStore) (keys : List VirtualKey) :
      (∀ k ∈ keys, k ∈ s.list) → Removal s (s.replaceAll keys)
  | rehash (s t : KeyStore) : s.byHash.entries.Perm t.byHash.entries → Removal s t

theorem Removal.lookup {s t : KeyStore} (hr : Removal s t) {h : String} {k : VirtualKey}
    (hk : t.lookup h = some k) : s.lookup h = some k := by
  cases hr with
  | removeById id => exact KeyStore.lookup_removeById hk
  | replaceAll keys hsub =>
      have hmem := hsub k (KeyStore.mem_of_lookup_new hk)
      rw [← KeyStore.hash_of_lookup hk]
      exact (s.mem_list_iff k).mp hmem
  | rehash _ hperm => rwa [KeyStore.lookup_of_perm hperm]

theorem lookup_of_removals {s t : KeyStore} (hr : Relation.ReflTransGen Removal s t)
    {h : String} {k : VirtualKey} (hk : t.lookup h = some k) : s.lookup h = some k := by
  induction hr with
  | refl => exact hk
  | tail _ hstep ih => exact ih (hstep.lookup hk)

/-- Store operations that file no record under the hash `h`. -/
inductive StepWithout (h : String) : KeyStore → KeyStore → Prop
  | insert (s : KeyStore) (key : VirtualKey) : key.hash ≠ h → StepWithout h s (s.insert key)
  | replaceAll (s : KeyStore) (keys : List VirtualKey) :
      (∀ k ∈ keys, k.hash ≠ h) → StepWithout h s (s.replaceAll keys)
  | removeById (s : KeyStore) (id : String) : StepWithout h s (s.removeById id).1
  | rehash (s t : KeyStore) : s.byHash.entries.Perm t.byHash.entries → StepWithout h s t

theorem StepWithout.lookup {h : String} {s t : KeyStore} (hstep : StepWithout h s t)
    (hs : s.lookup h = none) : t.lookup h = none := by
  cases hstep with
  | insert key hne => rw [KeyStore.lookup_insert, if_neg (Ne.symm hne), hs]
  | replaceAll keys hne =>
      cases hl : (s.replaceAll keys).lookup h with
      | none => rfl
      | some k =>
          exact (hne k (KeyStore.mem_of_lookup_new hl) (KeyStore.hash_of_lookup hl)).elim
  | removeById id =>
      cases hl : (s.removeById id).1.lookup h with
      | none => rfl
      | some k =>
          rw [KeyStore.lookup_removeById hl] at hs
          cases hs
  | rehash _ hperm => rwa [← KeyStore.lookup_of_perm hperm]

theorem lookup_of_stepsWithout {h : String} {s t : KeyStore}
    (hsteps : Relation.ReflTransGen (StepWithout h) s t) (hs : s.lookup h = none) :
    t.lookup h = none := by
  induction hsteps with
  | refl => exact hs
  | tail _ hstep ih => exact hstep.lookup ih

/-- Removing keys keeps every refusal as long as a key is left. A token without a
record stays refused, whatever is stored and removed later, until a record with
its hash is stored or the store runs empty. An empty store serves everyone as
the anonymous key. -/
theorem removal_keeps_refusals (lib : Externals) (s s' : KeyStore)
    (hr : Relation.ReflTransGen Removal s s') :
    (∀ headers limiter limiter' now now', Refuses lib s limiter headers now →
      s'.isEmpty = false → Refuses lib s' limiter' headers now') ∧
    (∀ token t, s'.lookup (hashToken lib token) = none →
      Relation.ReflTransGen (StepWithout (hashToken lib token)) s' t → t.isEmpty = false →
      ∀ headers limiter now, bearerToken headers = some token →
        Refuses lib t limiter headers now) ∧
    (s'.isEmpty = true → ∀ headers, identify lib s' headers = .ok VirtualKey.anonymous) := by
  refine ⟨?_, ?_, ?_⟩
  · intro headers limiter limiter' now now' href hne
    rw [refuses_iff] at href ⊢
    refine ⟨hne, ?_⟩
    cases hb : bearerToken headers with
    | none => rfl
    | some token =>
        rw [hb] at href
        cases hl : s'.authenticate lib token with
        | none => exact hl
        | some k =>
            have hold : s.authenticate lib token = some k := lookup_of_removals hr hl
            exact absurd href.2 (by simp [hold])
  · intro token t hgone hsteps hne headers limiter now hb
    rw [refuses_iff]
    refine ⟨hne, ?_⟩
    rw [hb]
    exact lookup_of_stepsWithout hsteps hgone
  · intro hempty headers
    simp [identify, hempty]

/-- Records that differ in id and hash only, without limits. -/
def plainKey (id hash : String) : VirtualKey := { VirtualKey.anonymous with id := id, hash := hash }

/-- Answers for requests that never reach the hash, the JSON or the date reader. -/
def silentExternals : Externals := ⟨fun _ => [], fun _ => none, fun _ _ => none, fun _ => none⟩

def someTime : Clock := ⟨0, 0⟩

/-- Two keys, of which one is revoked: a request without a token stays refused. -/
theorem removal_keeps_refusals_two_keys :
    Refuses silentExternals
      ((KeyStore.new [plainKey "vp_a" "aa", plainKey "vp_b" "bb"]).removeById "vp_a").1
      RateLimiter.empty [] someTime :=
  (removal_keeps_refusals silentExternals
    (KeyStore.new [plainKey "vp_a" "aa", plainKey "vp_b" "bb"]) _
    (.single (.removeById _ "vp_a"))).1 [] RateLimiter.empty RateLimiter.empty someTime someTime
      ((refuses_iff ..).mpr (by decide)) (by decide)

/-- One key: a request without a token is refused until the key is revoked, and
is served as the anonymous key from then on. -/
theorem last_revocation_opens_gateway :
    Refuses silentExternals (KeyStore.new [plainKey "vp_a" "aa"]) RateLimiter.empty [] someTime ∧
      ((KeyStore.new [plainKey "vp_a" "aa"]).removeById "vp_a").2 = true ∧
      (authenticate silentExternals ((KeyStore.new [plainKey "vp_a" "aa"]).removeById "vp_a").1
        RateLimiter.empty [] someTime).2 = .ok VirtualKey.anonymous := by
  refine ⟨(refuses_iff ..).mpr (by decide), by decide, ?_⟩
  have hempty : ((KeyStore.new [plainKey "vp_a" "aa"]).removeById "vp_a").1.isEmpty = true := by
    decide
  simp [authenticate, identify, hempty, admission, VirtualKey.anonymous, VirtualKey.isExpired]

/-- No record carries the id and no token authenticates to one that does. -/
def Dead (lib : Externals) (s : KeyStore) (id : String) : Prop :=
  s.findById id = none ∧ ∀ token k, s.authenticate lib token = some k → k.id ≠ id

theorem dead_iff (lib : Externals) (s : KeyStore) (id : String) :
    Dead lib s id ↔ ∀ k ∈ s.list, k.id ≠ id := by
  unfold Dead
  rw [KeyStore.findById_eq_none_iff]
  constructor
  · exact And.left
  · intro h
    exact ⟨h, fun token k hk => h k (KeyStore.mem_list_of_lookup hk)⟩

/-- `DELETE /admin/keys/{id}`: 204 when a record was removed, 404 otherwise. -/
def deleteKey (g : Gateway) (id : String) : Gateway × UInt16 :=
  match g.keys.removeById id with
  | (keys, true) =>
      ({ g with keys := keys, limiter := g.limiter.forget id, tracker := g.tracker.forget id },
        204)
  | (keys, false) => ({ g with keys := keys }, 404)

theorem deleteKey_keys (g : Gateway) (id : String) :
    (deleteKey g id).1.keys = (g.keys.removeById id).1 := by
  unfold deleteKey
  split
  · rename_i heq
    simp [heq]
  · rename_i heq
    simp [heq]

/-- After a removal by id, through the store or through the admin endpoint, the id
is dead exactly if at most one record carried it before. -/
theorem removeById_dead_iff (lib : Externals) (g : Gateway) (id : String) :
    (Dead lib (g.keys.removeById id).1 id ∧ Dead lib (deleteKey g id).1.keys id) ↔
      ∀ k ∈ g.keys.list, ∀ k' ∈ g.keys.list, k.id = id → k'.id = id → k = k' := by
  rw [deleteKey_keys, and_self, dead_iff]
  rcases g.keys.removeById_cases id with ⟨k₀, hk₀, hid₀, heq⟩ | ⟨heq, hnone⟩
  · rw [heq]
    -- The records that are left are those with another hash than the removed one.
    have hleft : ∀ k, k ∈ (g.keys.erase k₀.hash).list ↔ k ∈ g.keys.list ∧ k ≠ k₀ := by
      intro k
      rw [KeyStore.mem_list_iff, KeyStore.mem_list_iff, KeyStore.lookup_erase]
      by_cases hh : k.hash = k₀.hash
      · simp only [hh, if_true, hk₀, Option.some.injEq, ne_eq]
        tauto
      · have hne : k ≠ k₀ := fun he => hh (by rw [he])
        simp [hh, hne]
    constructor
    · intro hdead k hk k' hk' hid hid'
      have hall : ∀ x ∈ g.keys.list, x.id = id → x = k₀ := by
        intro x hx hxid
        by_contra hne
        exact hdead x ((hleft x).mpr ⟨hx, hne⟩) hxid
      rw [hall k hk hid, hall k' hk' hid']
    · intro hsole k hk hid
      obtain ⟨hmem, hne⟩ := (hleft k).mp hk
      exact hne (hsole k hmem k₀ ((KeyStore.mem_list_iff _ _).mpr hk₀) hid hid₀)
  · rw [heq]
    exact ⟨fun _ k hk _ _ hid _ => (hnone k hk hid).elim, fun _ => hnone⟩

/-- Two secrets issued under one id: the endpoint answers 204 and one of them is
still there. -/
theorem second_secret_survives :
    let g : Gateway := ⟨KeyStore.new [plainKey "vp_a" "aa", plainKey "vp_a" "bb"],
      RateLimiter.empty, SpendTracking.SpendTracker.empty, ResponseCaching.ResponseCache.empty⟩
    (deleteKey g "vp_a").2 = 204 ∧
      ((deleteKey g "vp_a").1.keys.findById "vp_a").isSome = true ∧
      ¬ Dead silentExternals (deleteKey g "vp_a").1.keys "vp_a" :=
  ⟨by decide, by decide, fun h => absurd h.1 (by decide)⟩

end VaultplaneGateway.KeyRevocation
