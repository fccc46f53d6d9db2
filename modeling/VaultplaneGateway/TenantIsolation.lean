import VaultplaneGateway.CacheProvenance

/-!
# Tenants do not see each other

Requests of several virtual keys share all stores. What a request of key `A` can
observe is its own phase, the token bucket and the spend entry under `A`'s
identifier, and the cache entries under the keys of `A`'s requests. A step of
another key's request leaves this view alone, and a step of `A`'s own request
depends on nothing else, so deleting the other requests from a run changes
nothing for `A`.

Buckets and entries are separated by the identifiers. The cache is separated by
the first zero byte of its key inputs: model names and payloads may contain
anything.
-/
namespace VaultplaneGateway.TenantIsolation
open WireFormats KeyRecords RateLimiting SpendTracking ResponseCaching InlinePlugins StreamUsage
open ProxyPipeline TransitionRuns RequestInterleaving CacheProvenance

/-- The request presents the credentials of `key`. -/
def Owns (sys : System) (keys : KeyStore) (rid : ℕ) (key : VirtualKey) : Prop :=
  identify sys.lib keys (sys.requests rid).headers = .ok key

/-- Different keys have different identifiers without a zero byte, and the digest
does not collide on the cache key inputs of the requests. -/
structure Separated (sys : System) (keys : KeyStore) : Prop where
  distinct : ∀ i j k k', Owns sys keys i k → Owns sys keys j k' →
    k.identifier = k'.identifier → k = k'
  nulFree : ∀ i k, Owns sys keys i k → 0 ∉ asBytes k.identifier
  collisionFree : ∀ i j k k' p q, Owns sys keys i k → Owns sys keys j k' →
    sys.prepare i k = some p → sys.prepare j k' = some q →
    sys.lib.sha256 (input p) = sys.lib.sha256 (input q) → input p = input q

/-- The states look the same to key `A`. -/
structure View (sys : System) (keys : KeyStore) (A : VirtualKey) (s t : State) : Prop where
  bucket : s.gateway.limiter.buckets A.identifier = t.gateway.limiter.buckets A.identifier
  entry : s.gateway.tracker.entries A.identifier = t.gateway.tracker.entries A.identifier
  slice : ∀ rid p k, Owns sys keys rid A → sys.prepare rid A = some p →
    cacheKey sys.lib p = some k → s.gateway.cache.get k = t.gateway.cache.get k
  phases : ∀ rid, Owns sys keys rid A → s.phases rid = t.phases rid

theorem View.symm {sys : System} {keys : KeyStore} {A : VirtualKey} {s t : State}
    (h : View sys keys A s t) : View sys keys A t s where
  bucket := h.bucket.symm
  entry := h.entry.symm
  slice rid p k hrid hp hk := (h.slice rid p k hrid hp hk).symm
  phases rid hrid := (h.phases rid hrid).symm

theorem View.trans {sys : System} {keys : KeyStore} {A : VirtualKey} {s t u : State}
    (h : View sys keys A s t) (h' : View sys keys A t u) : View sys keys A s u where
  bucket := h.bucket.trans h'.bucket
  entry := h.entry.trans h'.entry
  slice rid p k hrid hp hk := (h.slice rid p k hrid hp hk).trans (h'.slice rid p k hrid hp hk)
  phases rid hrid := (h.phases rid hrid).trans (h'.phases rid hrid)

/-- The key store is the given one and every phase belongs to its request. -/
structure Attributed (sys : System) (keys : KeyStore) (s : State) : Prop where
  keys_eq : s.gateway.keys = keys
  fits : ∀ rid, Fits sys (Owns sys keys) rid (s.phases rid)

theorem Attributed.step {sys : System} {keys : KeyStore} {s : State} (h : Attributed sys keys s)
    (rid : ℕ) (now : Clock) : Attributed sys keys (next sys s (.step rid now)) where
  keys_eq := by simpa [next] using h.keys_eq
  fits := by
    apply next_fits _ h.fits
    rintro rid' _ -
    exact covers_of_identify fun key hkey => by rwa [h.keys_eq] at hkey

/-- The identifier under which a phase reads and writes the shared stores. -/
def tenant : Phase → Option String
  | .identified key => some key.identifier
  | .admitted key => some key.identifier
  | .cleared p => some p.key.identifier
  | .waiting p => some p.key.identifier
  | .answered p _ => some p.key.identifier
  | .settled p _ => some p.key.identifier
  | .streaming _ o => some o.keyId
  | _ => none

theorem owner_of_tenant {sys : System} {keys : KeyStore} {rid : ℕ} {ph : Phase} {a : String}
    (h : Fits sys (Owns sys keys) rid ph) (ha : tenant ph = some a) :
    ∃ key, Owns sys keys rid key ∧ key.identifier = a := by
  cases ph with
  | identified key => exact ⟨key, h, Option.some.inj ha⟩
  | admitted key => exact ⟨key, h, Option.some.inj ha⟩
  | cleared p => exact ⟨p.key, h.1, Option.some.inj ha⟩
  | waiting p => exact ⟨p.key, h.1, Option.some.inj ha⟩
  | answered p u => exact ⟨p.key, h.1, Option.some.inj ha⟩
  | settled p u => exact ⟨p.key, h.1, Option.some.inj ha⟩
  | streaming r o =>
      obtain ⟨key, hkey, hid⟩ := h
      exact ⟨key, hkey, hid.symm.trans (Option.some.inj ha)⟩
  | _ => cases ha

theorem admission_buckets_ne (lib : Externals) (limiter : RateLimiter) (key : VirtualKey)
    (now : Clock) {a : String} (h : a ≠ key.identifier) :
    (admission lib limiter key now).1.buckets a = limiter.buckets a := by
  unfold admission
  split_ifs
  · rfl
  · split
    · rfl
    · exact RateLimiter.check_buckets_ne limiter h _ _

theorem settle_entries_ne (rt : Runtime) (tracker : SpendTracker) (p : Prepared)
    (upstream : ChatResponse) (now : ℕ) {a : String} (h : a ≠ p.key.identifier) :
    (settle rt tracker p upstream now).entries a = tracker.entries a := by
  unfold settle
  split
  · exact chargeUsage_entries_ne rt.pricing tracker h _ _ _ _ now
  · rfl

/-- A step touches the bucket and the entry of its own tenant only. -/
theorem advance_frame (sys : System) (rid : ℕ) (g : Gateway) (now : Clock) {ph : Phase}
    {a : String} (h : tenant ph ≠ some a) :
    (advance sys rid g now ph).1.limiter.buckets a = g.limiter.buckets a ∧
      (advance sys rid g now ph).1.tracker.entries a = g.tracker.entries a := by
  have hne : ∀ b, tenant ph = some b → a ≠ b := by
    rintro b hb rfl
    exact h hb
  cases ph with
  | identified key => exact ⟨admission_buckets_ne sys.lib g.limiter key now (hne _ rfl), rfl⟩
  | answered p u => exact ⟨rfl, settle_entries_ne sys.runtime g.tracker p u _ (hne _ rfl)⟩
  | streaming r o =>
      refine ⟨rfl, ?_⟩
      simp only [advance]
      rcases o.pollNext_cases sys.lib sys.runtime.pricing now.utc with
        ⟨o', item, -, heq⟩ | ⟨o', usage, item, -, heq⟩
      · rw [heq]
      · rw [heq]
        exact chargeUsage_entries_ne _ _ (hne _ rfl) _ _ _ _ _
  | _ => exact ⟨rfl, rfl⟩

/-- Cache keys of requests of different tenants differ. -/
theorem cacheKey_ne {sys : System} {keys : KeyStore} (hsep : Separated sys keys) {i j : ℕ}
    {A B : VirtualKey} {p q : Prepared} (hA : Owns sys keys i A) (hB : Owns sys keys j B)
    (hne : B ≠ A) (hp : sys.prepare i A = some p) (hq : sys.prepare j B = some q) {k k' : String}
    (hk : cacheKey sys.lib p = some k) (hk' : cacheKey sys.lib q = some k') : k ≠ k' := by
  rintro rfl
  have hpA := key_of_prepare hp
  have hqB := key_of_prepare hq
  rw [cacheKey_eq sys.lib (stream_of_cacheKey hk)] at hk
  rw [cacheKey_eq sys.lib (stream_of_cacheKey hk')] at hk'
  have hdigest := hexEncode_injective (Option.some.inj (hk'.trans hk.symm))
  have hinput := hsep.collisionFree j i B A q p hB hA hq hp hdigest
  have hscope := scope_of_keyInput (by rw [hqB]; exact hsep.nulFree j B hB)
    (by rw [hpA]; exact hsep.nulFree i A hA) hinput
  rw [hpA, hqB] at hscope
  exact hne (hsep.distinct j i B A hB hA hscope)

/-- A step of a request that is not `A`'s is invisible to `A`. -/
theorem View.frame {sys : System} {keys : KeyStore} (hsep : Separated sys keys) {s : State}
    (hs : Attributed sys keys s) {A : VirtualKey} {i : ℕ} (hA : Owns sys keys i A) {rid : ℕ}
    (hrid : ¬ Owns sys keys rid A) (now : Clock) :
    View sys keys A s (next sys s (.step rid now)) := by
  have hten : tenant (s.phases rid) ≠ some A.identifier := by
    intro hten
    obtain ⟨B, hB, hid⟩ := owner_of_tenant (hs.fits rid) hten
    rw [hsep.distinct rid i B A hB hA hid] at hB
    exact hrid hB
  have hframe := advance_frame sys rid s.gateway now hten
  refine ⟨hframe.1.symm, hframe.2.symm, ?_, ?_⟩
  · intro rid' q k hrid' hq hk
    simp only [next]
    rcases advance_cache sys rid s.gateway now (s.phases rid) with
      hsame | ⟨p, u, k', v, hph, hst, hins⟩
    · rw [hsame]
    · have hfit := hs.fits rid
      rw [hph] at hfit
      have hne : p.key ≠ A := by
        rintro rfl
        exact hrid hfit.1
      rw [hins, ResponseCache.get_insert,
        if_neg (cacheKey_ne hsep hrid' hfit.1 hne hq hfit.2 hk hst.keyed)]
  · intro rid' hrid'
    have hne : rid' ≠ rid := by
      rintro rfl
      exact hrid hrid'
    simp [next, hne]

theorem admission_congr (lib : Externals) {l l' : RateLimiter} {key : VirtualKey} (now : Clock)
    (h : l.buckets key.identifier = l'.buckets key.identifier) :
    (admission lib l key now).2 = (admission lib l' key now).2 ∧
      (admission lib l key now).1.buckets key.identifier =
        (admission lib l' key now).1.buckets key.identifier := by
  unfold admission
  split_ifs
  · exact ⟨rfl, h⟩
  · split
    · exact ⟨rfl, h⟩
    · rename_i rps _
      have hcheck : (l.check key.identifier rps now.mono).2 =
          (l'.check key.identifier rps now.mono).2 := by
        simp only [RateLimiter.check, h]
      dsimp only
      rw [hcheck, RateLimiter.check_buckets_self, RateLimiter.check_buckets_self, h]
      exact ⟨rfl, rfl⟩

theorem receive_congr (rt : Runtime) {t t' : SpendTracker} {key : VirtualKey} (req : Request)
    (info : Meta) (now : ℕ) (h : t.entries key.identifier = t'.entries key.identifier) :
    receive rt t key req info now = receive rt t' key req info now := by
  have hcheck : t.preCheck key.identifier = t'.preCheck key.identifier := by
    funext limit now
    simp only [SpendTracker.preCheck, h]
  unfold receive gate
  rw [hcheck]

theorem settle_congr (rt : Runtime) {t t' : SpendTracker} {p : Prepared}
    (upstream : ChatResponse) (now : ℕ)
    (h : t.entries p.key.identifier = t'.entries p.key.identifier) :
    (settle rt t p upstream now).entries p.key.identifier =
      (settle rt t' p upstream now).entries p.key.identifier := by
  unfold settle
  split
  · exact chargeUsage_entries_congr rt.pricing h _ _ _ _ now
  · exact h

/-- A step reads the bucket and the entry of its tenant, the key store, and one
cache entry; its result depends on nothing else. -/
theorem advance_congr {sys : System} (rid : ℕ) {g g' : Gateway} (now : Clock) {ph : Phase}
    {a : String} (hten : ∀ b, tenant ph = some b → b = a) (hkeys : g.keys = g'.keys)
    (hbucket : g.limiter.buckets a = g'.limiter.buckets a)
    (hentry : g.tracker.entries a = g'.tracker.entries a)
    (hcache : ∀ p k, ph = .cleared p → cacheKey sys.lib p = some k →
      g.cache.get k = g'.cache.get k) :
    (advance sys rid g now ph).2 = (advance sys rid g' now ph).2 ∧
      (advance sys rid g now ph).1.limiter.buckets a =
        (advance sys rid g' now ph).1.limiter.buckets a ∧
      (advance sys rid g now ph).1.tracker.entries a =
        (advance sys rid g' now ph).1.tracker.entries a := by
  cases ph with
  | arrived => exact ⟨by simp [advance, hkeys], hbucket, hentry⟩
  | challenged => exact ⟨by simp [advance, hkeys], hbucket, hentry⟩
  | identified key =>
      obtain rfl := hten _ rfl
      obtain ⟨hanswer, hb⟩ := admission_congr sys.lib now hbucket
      exact ⟨by simp only [advance, hanswer], hb, hentry⟩
  | admitted key =>
      obtain rfl := hten _ rfl
      exact ⟨by simp only [advance, receive_congr _ _ _ _ hentry], hbucket, hentry⟩
  | cleared p =>
      refine ⟨?_, hbucket, hentry⟩
      have hlook : cacheLookup sys.lib sys.runtime g.cache p =
          cacheLookup sys.lib sys.runtime g'.cache p := by
        unfold cacheLookup
        split_ifs
        · cases hk : cacheKey sys.lib p with
          | none => rfl
          | some k => exact hcache p k rfl hk
        · rfl
      simp only [advance, hlook]
  | waiting p => exact ⟨rfl, hbucket, hentry⟩
  | answered p u =>
      obtain rfl := hten _ rfl
      exact ⟨rfl, hbucket, settle_congr sys.runtime u _ hentry⟩
  | settled p u =>
      refine ⟨?_, hbucket, hentry⟩
      obtain ⟨reply, h | ⟨k, v, -, h⟩⟩ := respond_cases sys.lib sys.runtime p u
      · simp only [advance, h]
      · simp only [advance, h]
  | streaming r o =>
      obtain rfl := hten _ rfl
      rcases o.pollNext_cases sys.lib sys.runtime.pricing now.utc with
        ⟨o', item, -, h⟩ | ⟨o', usage, item, -, h⟩
      · exact ⟨by simp only [advance, h], hbucket, by simpa only [advance, h] using hentry⟩
      · refine ⟨by simp only [advance, h], hbucket, ?_⟩
        simp only [advance, h]
        exact chargeUsage_entries_congr _ hentry _ _ _ _ _
  | done r => exact ⟨rfl, hbucket, hentry⟩

/-- Two caches that agree at a key still do after the same step. -/
theorem advance_cache_congr {sys : System} {rid : ℕ} {g g' : Gateway} {now : Clock} (ph : Phase)
    {k : String} (h : g.cache.get k = g'.cache.get k) :
    (advance sys rid g now ph).1.cache.get k = (advance sys rid g' now ph).1.cache.get k := by
  cases ph with
  | settled p u =>
      obtain ⟨reply, hr | ⟨k', v, -, hr⟩⟩ := respond_cases sys.lib sys.runtime p u
      · simpa only [advance, hr] using h
      · simp only [advance, hr, ResponseCache.get_insert, h]
  | _ => exact h

/-- A step of `A`'s own request, taken in two states that look the same to `A`. -/
theorem View.lockstep {sys : System} {keys : KeyStore} {s t : State} (hs : Attributed sys keys s)
    (ht : Attributed sys keys t) {A : VirtualKey} (h : View sys keys A s t) {rid : ℕ}
    (hrid : Owns sys keys rid A) (now : Clock) :
    View sys keys A (next sys s (.step rid now)) (next sys t (.step rid now)) := by
  have hown : ∀ key, Owns sys keys rid key → key = A := fun key hkey =>
    Except.ok.inj (hkey.symm.trans hrid)
  have hph := h.phases rid hrid
  have hten : ∀ b, tenant (s.phases rid) = some b → b = A.identifier := by
    intro b hb
    obtain ⟨key, hkey, rfl⟩ := owner_of_tenant (hs.fits rid) hb
    rw [hown key hkey]
  have hcache : ∀ p k, s.phases rid = .cleared p → cacheKey sys.lib p = some k →
      s.gateway.cache.get k = t.gateway.cache.get k := by
    intro p k hp hk
    have hfit := hs.fits rid
    rw [hp] at hfit
    have hprep := hfit.2
    rw [hown p.key hfit.1] at hprep
    exact h.slice rid p k hrid hprep hk
  obtain ⟨hphase, hbucket, hentry⟩ := advance_congr rid now hten
    (hs.keys_eq.trans ht.keys_eq.symm) h.bucket h.entry hcache
  rw [hph] at hphase hbucket hentry
  refine ⟨?_, ?_, ?_, ?_⟩
  · simpa only [next, hph] using hbucket
  · simpa only [next, hph] using hentry
  · intro rid' p k hrid' hp hk
    simp only [next, hph]
    exact advance_cache_congr _ (h.slice rid' p k hrid' hp hk)
  · intro rid' hrid'
    by_cases hr : rid' = rid
    · subst hr
      simpa [next, hph] using hphase
    · simpa [next, hr] using h.phases rid' hrid'

/-- One step of the run: a request id and the clock reading of its step. -/
def take (sys : System) (s : State) (e : ℕ × Clock) : State := next sys s (.step e.1 e.2)

/-- Deleting requests that are not `A`'s, all of them or any part, leaves what
`A` sees unchanged: its buckets, its spend, its slice of the cache, and the phase
of each of its requests with the response. -/
theorem other_tenants_invisible (sys : System) (g : Gateway) (hsep : Separated sys g.keys)
    (A : VirtualKey) (keep : ℕ → Bool)
    (hkeep : ∀ rid, Owns sys g.keys rid A → keep rid = true) (steps : List (ℕ × Clock))
    (rid : ℕ) (hrid : Owns sys g.keys rid A) :
    let full := run (take sys) (State.start g) steps
    let own := run (take sys) (State.start g) (steps.filter fun e => keep e.1)
    View sys g.keys A full own ∧ full.phases rid = own.phases rid := by
  intro full own
  have hstart : Attributed sys g.keys (State.start g) := ⟨rfl, fun _ => trivial⟩
  have hrel : Attributed sys g.keys full ∧ Attributed sys g.keys own ∧ View sys g.keys A full own := by
    apply run_filter_related (take sys)
      (fun s t => Attributed sys g.keys s ∧ Attributed sys g.keys t ∧ View sys g.keys A s t)
    · rintro ⟨i, now⟩ - hdrop s t ⟨hs, ht, hv⟩
      have hi : ¬ Owns sys g.keys i A := fun ho => by simp [hkeep i ho] at hdrop
      exact ⟨hs.step i now, ht, (View.frame hsep hs hrid hi now).symm.trans hv⟩
    · rintro ⟨i, now⟩ - - s t ⟨hs, ht, hv⟩
      refine ⟨hs.step i now, ht.step i now, ?_⟩
      by_cases hi : Owns sys g.keys i A
      · exact hv.lockstep hs ht hi now
      · exact ((View.frame hsep hs hrid hi now).symm.trans hv).trans
          (View.frame hsep ht hrid hi now)
    · exact ⟨hstart, hstart, ⟨rfl, rfl, fun _ _ _ _ _ _ => rfl, fun _ _ => rfl⟩⟩
  exact ⟨hrel.2.2, hrel.2.2.phases rid hrid⟩

/-- The digests of the tokens `ta` and `tb`. -/
def tokenDigestA : Bytes :=
  [0x76, 0x59, 0x2b, 0x9d, 0xe6, 0xd3, 0x82, 0x38, 0xa5, 0x2a, 0x36, 0x51,
    0x86, 0x78, 0x71, 0xe5, 0xc6, 0x70, 0xe6, 0x32, 0x0a, 0x8e, 0xf4, 0x6a,
    0x84, 0xb5, 0x59, 0x0f, 0x89, 0x33, 0xf3, 0x3e]

def tokenDigestB : Bytes :=
  [0x7a, 0xa5, 0xae, 0x9e, 0xcf, 0x82, 0xf6, 0xfc, 0x52, 0x08, 0xec, 0xd0,
    0x94, 0x0f, 0xd7, 0x1d, 0x50, 0xcd, 0x4a, 0xc5, 0x96, 0xfc, 0xca, 0xc2,
    0xed, 0xe0, 0x5a, 0xf8, 0x06, 0xa8, 0x7b, 0x6e]

/-- The digests of the two tenants' cache key inputs for `modelBody`. -/
def inputDigestA : Bytes :=
  [0x5c, 0x1a, 0x36, 0x6e, 0xcd, 0x39, 0x32, 0xa0, 0x5e, 0xaf, 0xb5, 0xa3,
    0x7e, 0x19, 0xa3, 0x5b, 0xae, 0xe7, 0xae, 0x18, 0x0f, 0xfd, 0xab, 0xef,
    0x26, 0xc1, 0x79, 0x06, 0xcd, 0x52, 0x63, 0x6e]

def inputDigestB : Bytes :=
  [0x47, 0x6e, 0xa3, 0x6e, 0xf2, 0x06, 0x41, 0x01, 0xda, 0x67, 0xd6, 0x94,
    0x25, 0x4e, 0x57, 0xa0, 0x9b, 0x69, 0x7b, 0x0c, 0x52, 0x4e, 0x04, 0xf2,
    0xd8, 0xe2, 0x94, 0x79, 0x17, 0x25, 0x67, 0x7b]

def tenantExternals : Externals where
  sha256 b :=
    if b = asBytes "ta" then tokenDigestA
    else if b = asBytes "tb" then tokenDigestB
    else if b = keyInput "vp_a" "m" modelBody then inputDigestA
    else if b = keyInput "vp_b" "m" modelBody then inputDigestB
    else []
  fromSlice b := if b = modelBody then some (.object [("model", .string "m")]) else none
  fromSliceAs _ b := if b = modelBody then some (.object [("model", .string "m")]) else none
  parseRfc3339 _ := none

def keyA : VirtualKey :=
  { VirtualKey.anonymous with id := "vp_a", hash := hexEncode tokenDigestA, rateLimitRps := some 1 }

def keyB : VirtualKey :=
  { VirtualKey.anonymous with id := "vp_b", hash := hexEncode tokenDigestB, rateLimitRps := some 1 }

/-- Even requests come from `A` and odd ones from `B`, all with the same body. -/
def twoTenants : System where
  lib := tenantExternals
  runtime := ⟨⟨fun _ => none⟩, true, []⟩
  requests rid := ⟨.chat, [("authorization",
    if rid % 2 = 0 then asBytes "Bearer ta" else asBytes "Bearer tb")], modelBody⟩
  upstream _ _ := .ok ⟨200, some "application/json", [.ok (asBytes "chat")], "openai", "gpt-4o",
    none, 1⟩

def sharedGateway : Gateway := { emptyGateway with keys := KeyStore.new [keyA, keyB] }

theorem owns_twoTenants (rid : ℕ) (key : VirtualKey) :
    Owns twoTenants sharedGateway.keys rid key ↔ key = if rid % 2 = 0 then keyA else keyB := by
  have hid : identify twoTenants.lib sharedGateway.keys (twoTenants.requests rid).headers =
      .ok (if rid % 2 = 0 then keyA else keyB) := by
    simp only [twoTenants]
    split_ifs
    · decide +kernel
    · decide +kernel
  rw [Owns, hid]
  constructor
  · intro h
    exact (Except.ok.inj h).symm
  · rintro rfl
    rfl

theorem prepare_twoTenants (rid : ℕ) (key : VirtualKey) :
    twoTenants.prepare rid key = some ⟨.chat, key, "m", false, none, modelBody⟩ := by
  have hmeta : requestMeta twoTenants.lib (twoTenants.requests rid) = ⟨"m", false⟩ := by
    change chatMeta tenantExternals modelBody = ⟨"m", false⟩
    decide +kernel
  have hidem : headerStr (twoTenants.requests rid).headers idempotencyHeader = none := by
    simp [twoTenants, headerStr, HeaderMap.get, idempotencyHeader]
  simp only [System.prepare, GateOrder.prepared, hmeta, hidem]
  rfl

theorem separated_twoTenants : Separated twoTenants sharedGateway.keys where
  distinct i j k k' hi hj hid := by
    rw [owns_twoTenants] at hi hj
    subst hi hj
    split_ifs at hid ⊢ <;> first | rfl | exact absurd hid (by decide)
  nulFree i k hi := by
    rw [owns_twoTenants] at hi
    subst hi
    split_ifs <;> decide
  collisionFree i j k k' p q hi hj hp hq hsha := by
    rw [owns_twoTenants] at hi hj
    rw [prepare_twoTenants] at hp hq
    obtain rfl := Option.some.inj hp
    obtain rfl := Option.some.inj hq
    subst hi hj
    split_ifs at hsha ⊢ <;> first | rfl | exact absurd hsha (by decide +kernel)

/-- `B` makes a full request before `A` does. `A` has its token, pays nothing for
`B` and misses the cache, as if `B` had not been there. -/
theorem other_tenants_invisible_two :
    let steps : List (ℕ × Clock) := List.replicate 8 (1, ⟨0, 0⟩) ++ List.replicate 8 (0, ⟨0, 0⟩)
    let full := run (take twoTenants) (State.start sharedGateway) steps
    let own := run (take twoTenants) (State.start sharedGateway)
      (steps.filter fun e => e.1 % 2 == 0)
    View twoTenants sharedGateway.keys keyA full own ∧ full.phases 0 = own.phases 0 :=
  other_tenants_invisible twoTenants sharedGateway separated_twoTenants keyA (· % 2 == 0)
    (fun rid h => by
      rw [owns_twoTenants] at h
      split_ifs at h with hr
      · simp [hr]
      · exact absurd h (by decide))
    _ 0 ((owns_twoTenants 0 keyA).mpr rfl)

end VaultplaneGateway.TenantIsolation
