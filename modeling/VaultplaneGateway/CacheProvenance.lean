import VaultplaneGateway.RequestInterleaving

/-!
# Where a cache hit comes from

Every cached entry descends from an upstream answer of the run, stored under the
key of the request that obtained it. A hit therefore tells that two requests have
equal cache keys. Whether it also tells that they are the same request depends
on the flat key: two requests that are not the same share a key input in exactly
three ways. They went to different endpoints, or the body of one spells out the
idempotency key of the other, or a zero byte inside an identifier or a model name
moves a separator.

In a run whose requests avoid the three confusions every hit is sound, for every
interleaving and whatever the key writers and the eviction do.
-/
namespace VaultplaneGateway.CacheProvenance
open WireFormats KeyRecords ResponseCaching InlinePlugins ProxyPipeline TransitionRuns
open RequestInterleaving

/-- The bytes whose digest is the request's cache key. -/
def input (p : Prepared) : Bytes :=
  keyInput p.key.identifier p.virtualModel (payload p.idempotencyKey p.body)

theorem stream_of_cacheKey {lib : Externals} {p : Prepared} {k : String}
    (h : cacheKey lib p = some k) : p.stream = false := by
  unfold cacheKey at h
  split_ifs at h with hs
  exact Bool.eq_false_iff.mpr hs

theorem cacheKey_eq (lib : Externals) {p : Prepared} (h : p.stream = false) :
    cacheKey lib p = some (hexEncode (lib.sha256 (input p))) := by
  simp [cacheKey, h, cacheKeyFor_eq, key, input]

/-- Same endpoint, tenant and model, and the same idempotency key or, without
one, the same forwarded body. -/
structure Same (p q : Prepared) : Prop where
  endpoint : p.endpoint = q.endpoint
  identifier : p.key.identifier = q.key.identifier
  virtualModel : p.virtualModel = q.virtualModel
  idempotencyKey : p.idempotencyKey = q.idempotencyKey
  body : p.idempotencyKey = none → p.body = q.body

/-- The three ways in which different requests share a key input. -/
inductive Confusion (p q : Prepared) : Prop
  | endpoint : p.endpoint ≠ q.endpoint → p.key.identifier = q.key.identifier →
      p.virtualModel = q.virtualModel →
      payload p.idempotencyKey p.body = payload q.idempotencyKey q.body → Confusion p q
  | mode (k : String) : p.key.identifier = q.key.identifier →
      p.virtualModel = q.virtualModel → p.idempotencyKey = none →
      q.idempotencyKey = some k → p.body = idempotencyTag ++ asBytes k → Confusion p q
  | framing : p.key.identifier ≠ q.key.identifier ∨ p.virtualModel ≠ q.virtualModel →
      (0 ∈ asBytes p.key.identifier ∨ 0 ∈ asBytes p.virtualModel ∨
        0 ∈ asBytes q.key.identifier ∨ 0 ∈ asBytes q.virtualModel) →
      input p = input q → Confusion p q

theorem input_of_same {p q : Prepared} (h : Same p q) : input p = input q := by
  unfold input
  rw [h.identifier, h.virtualModel, h.idempotencyKey]
  cases hk : q.idempotencyKey with
  | none => rw [h.body (h.idempotencyKey.trans hk)]
  | some k => rfl

theorem Confusion.input_eq {p q : Prepared} (h : Confusion p q) : input p = input q := by
  cases h with
  | endpoint _ hid hm hp => rw [input, input, hid, hm, hp]
  | mode k hid hm hp hq hb => rw [input, input, hid, hm, hp, hq, hb]; rfl
  | framing _ _ h => exact h

/-- Requests that share identifier, model and payload are the same unless their
endpoints or their keying modes differ. -/
theorem same_or_confusion {p q : Prepared} (hid : p.key.identifier = q.key.identifier)
    (hm : p.virtualModel = q.virtualModel)
    (hp : payload p.idempotencyKey p.body = payload q.idempotencyKey q.body) :
    Same p q ∨ Confusion p q ∨ Confusion q p := by
  by_cases he : p.endpoint = q.endpoint
  · cases hk : p.idempotencyKey with
    | none =>
        cases hk' : q.idempotencyKey with
        | none =>
            rw [hk, hk'] at hp
            exact .inl ⟨he, hid, hm, hk.trans hk'.symm, fun _ => hp⟩
        | some k =>
            rw [hk, hk'] at hp
            exact .inr (.inl (.mode k hid hm hk hk' hp))
    | some k =>
        cases hk' : q.idempotencyKey with
        | none =>
            rw [hk, hk'] at hp
            exact .inr (.inr (.mode k hid.symm hm.symm hk' hk hp.symm))
        | some k' =>
            rw [hk, hk'] at hp
            have hkk : k = k' := asBytes_injective (List.append_cancel_left hp)
            exact .inl ⟨he, hid, hm, by rw [hk, hk', hkk], fun hn => by simp [hk] at hn⟩
  · exact .inr (.inl (.endpoint he hid hm hp))

/-- The three confusions are the only ones. -/
theorem input_eq_iff (p q : Prepared) :
    input p = input q ↔ Same p q ∨ Confusion p q ∨ Confusion q p := by
  constructor
  · intro h
    by_cases hnul : 0 ∈ asBytes p.key.identifier ∨ 0 ∈ asBytes p.virtualModel ∨
        0 ∈ asBytes q.key.identifier ∨ 0 ∈ asBytes q.virtualModel
    · by_cases hid : p.key.identifier = q.key.identifier
      · by_cases hm : p.virtualModel = q.virtualModel
        · unfold input at h
          rw [hid, hm] at h
          have hp := List.append_cancel_left h
          have hp := List.append_cancel_left (List.cons.inj hp).2
          exact same_or_confusion hid hm (List.cons.inj hp).2
        · exact .inr (.inl (.framing (.inr hm) hnul h))
      · exact .inr (.inl (.framing (.inl hid) hnul h))
    · rw [not_or, not_or, not_or] at hnul
      obtain ⟨h₁, h₂, h₃, h₄⟩ := hnul
      obtain ⟨hid, hm, hp⟩ := keyInput_inj h₁ h₃ h₂ h₄ h
      exact same_or_confusion hid hm hp
  · rintro (h | h | h)
    · exact input_of_same h
    · exact h.input_eq
    · exact h.input_eq.symm

/-- The entry `v` under `k` was made from the answer. -/
structure Stored (lib : Externals) (a : Answer) (k : String) (v : CachedResponse) : Prop where
  plain : a.request.stream = false
  keyed : cacheKey lib a.request = some k
  ok : a.upstream.status = 200
  drained : ∃ bytes, collectBody a.upstream.body = .ok bytes ∧ v = cachedResponse a.upstream bytes

/-- A reply either leaves the cache alone or stores a drained 200 answer. It does
not depend on what the cache holds. -/
theorem respond_cases (lib : Externals) (rt : Runtime) (p : Prepared) (upstream : ChatResponse) :
    ∃ reply, (∀ cache, respond lib rt cache p upstream = (cache, reply)) ∨
      ∃ k v, Stored lib ⟨p, upstream⟩ k v ∧
        ∀ cache, respond lib rt cache p upstream = (cache.insert k v, reply) := by
  unfold respond
  split
  · rename_i k hk hok
    split
    · rename_i bytes hbytes
      have hstatus : upstream.status = 200 := by simpa using (Bool.and_eq_true_iff.mp hok).2
      exact ⟨_, .inr ⟨k, _, ⟨stream_of_cacheKey hk, hk, hstatus, bytes, hbytes, rfl⟩, fun _ => rfl⟩⟩
    · exact ⟨_, .inl fun _ => rfl⟩
  · exact ⟨_, .inl fun _ => rfl⟩

/-- Request `rid` takes a step in the run, and the initial key store or one
written during the run identifies it as `key`. -/
def Known (sys : System) (keys : KeyStore) (es : List Event) (rid : ℕ) (key : VirtualKey) : Prop :=
  (∃ now, .step rid now ∈ es) ∧ ∃ store, (store = keys ∨ .keys store ∈ es) ∧
    identify sys.lib store (sys.requests rid).headers = .ok key

/-- The invariant of a run: phases that fit their requests, and an answer behind
every entry and every request that has been answered. -/
structure Recorded (sys : System) (keys : KeyStore) (es : List Event) (s : State) : Prop where
  store : s.gateway.keys = keys ∨ .keys s.gateway.keys ∈ es
  fits : ∀ rid, Fits sys (Known sys keys es) rid (s.phases rid)
  entries : ∀ k v, s.gateway.cache.get k = some v → ∃ a ∈ s.answers, Stored sys.lib a k v
  pending : ∀ rid p u, s.phases rid = .answered p u ∨ s.phases rid = .settled p u →
    ⟨p, u⟩ ∈ s.answers
  offered : ∀ a ∈ s.answers, ∃ rid, Known sys keys es rid a.request.key ∧
    sys.prepare rid a.request.key = some a.request

theorem mem_obtains {sys : System} {rid : ℕ} {ph : Phase} {a : Answer}
    (h : a ∈ ph.obtains sys rid) : ph = .waiting a.request ∧
      sys.upstream rid a.request.call = .ok a.upstream := by
  cases ph with
  | waiting p =>
      simp only [Phase.obtains] at h
      split at h
      · rename_i u hu
        rw [List.mem_singleton.mp h]
        exact ⟨rfl, hu⟩
      · simp at h
  | _ => simp [Phase.obtains] at h

/-- A request becomes pending only by receiving its answer. -/
theorem pending_of_advance {sys : System} {rid : ℕ} {g : Gateway} {now : Clock} {ph : Phase}
    {p : Prepared} {u : ChatResponse}
    (h : (advance sys rid g now ph).2 = .answered p u ∨
      (advance sys rid g now ph).2 = .settled p u) :
    ⟨p, u⟩ ∈ ph.obtains sys rid ∨ ph = .answered p u := by
  cases ph with
  | waiting q =>
      simp only [advance] at h
      cases hu : sys.upstream rid q.call with
      | ok v =>
          left
          rw [hu] at h
          simp only [reduceCtorEq, or_false, Phase.answered.injEq] at h
          obtain ⟨rfl, rfl⟩ := h
          simp [Phase.obtains, hu]
      | error err => simp [hu] at h
  | answered q v =>
      simp only [advance, reduceCtorEq, false_or, Phase.settled.injEq] at h
      obtain ⟨rfl, rfl⟩ := h
      exact .inr rfl
  | done r => simp [advance] at h
  | _ =>
      simp only [advance, Phase.ofReply] at h
      split at h <;> simp at h

/-- A step's cache is the old one, or has one new entry made from an answer. -/
theorem advance_cache (sys : System) (rid : ℕ) (g : Gateway) (now : Clock) (ph : Phase) :
    (advance sys rid g now ph).1.cache = g.cache ∨
      ∃ p u k v, ph = .settled p u ∧ Stored sys.lib ⟨p, u⟩ k v ∧
        (advance sys rid g now ph).1.cache = g.cache.insert k v := by
  cases ph with
  | settled p u =>
      obtain ⟨reply, h | ⟨k, v, hst, h⟩⟩ := respond_cases sys.lib sys.runtime p u
      · exact .inl (congrArg Prod.fst (h g.cache))
      · exact .inr ⟨p, u, k, v, rfl, hst, congrArg Prod.fst (h g.cache)⟩
  | _ => exact .inl rfl

theorem Recorded.step {sys : System} {keys : KeyStore} {es : List Event} {s : State}
    (h : Recorded sys keys es s) {rid : ℕ} {now : Clock} (he : .step rid now ∈ es) :
    Recorded sys keys es (next sys s (.step rid now)) where
  store := by simpa [next] using h.store
  fits := by
    apply next_fits _ h.fits
    rintro _ _ ⟨rfl, rfl⟩
    exact covers_of_identify fun key hkey => ⟨⟨now, he⟩, _, h.store, hkey⟩
  entries := by
    intro k v hk
    simp only [next] at hk ⊢
    rcases advance_cache sys rid s.gateway now (s.phases rid) with
      hsame | ⟨p, u, k', v', hph, hst, hins⟩
    · rw [hsame] at hk
      obtain ⟨a, ha, hst⟩ := h.entries k v hk
      exact ⟨a, List.mem_append_right _ ha, hst⟩
    · rw [hins, ResponseCache.get_insert] at hk
      split_ifs at hk with he
      · obtain rfl := Option.some.inj hk
        rw [he]
        exact ⟨⟨p, u⟩, List.mem_append_right _ (h.pending rid p u (.inr hph)), hst⟩
      · obtain ⟨a, ha, hst⟩ := h.entries k v hk
        exact ⟨a, List.mem_append_right _ ha, hst⟩
  pending := by
    intro rid' p u hph
    simp only [next] at hph ⊢
    by_cases hr : rid' = rid
    · subst hr
      rw [Function.update_self] at hph
      rcases pending_of_advance hph with hnew | hold
      · exact List.mem_append_left _ hnew
      · exact List.mem_append_right _ (h.pending rid' p u (.inl hold))
    · rw [Function.update_of_ne hr] at hph
      exact List.mem_append_right _ (h.pending rid' p u hph)
  offered := by
    intro a ha
    rcases List.mem_append.mp ha with hnew | hold
    · have hfit := h.fits rid
      rw [(mem_obtains hnew).1] at hfit
      exact ⟨rid, hfit⟩
    · exact h.offered a hold

theorem Recorded.next {sys : System} {keys : KeyStore} {es : List Event} {s : State}
    (h : Recorded sys keys es s) {e : Event} (he : e ∈ es) :
    Recorded sys keys es (next sys s e) := by
  cases e with
  | step rid now => exact h.step he
  | keys store => exact ⟨.inr he, h.fits, h.entries, h.pending, h.offered⟩
  | forgetRate keyId => exact ⟨h.store, h.fits, h.entries, h.pending, h.offered⟩
  | forgetSpend keyId => exact ⟨h.store, h.fits, h.entries, h.pending, h.offered⟩
  | evict cacheKey =>
      refine ⟨h.store, h.fits, ?_, h.pending, h.offered⟩
      intro k v hk
      change (s.gateway.cache.evict cacheKey).get k = some v at hk
      rw [ResponseCache.get_evict] at hk
      split_ifs at hk
      exact h.entries k v hk

theorem recorded_start (sys : System) {g : Gateway} (hcache : g.cache = ResponseCache.empty)
    (es : List Event) : Recorded sys g.keys es (State.start g) where
  store := .inl rfl
  fits _ := trivial
  entries k v hk := by
    change g.cache.get k = some v at hk
    rw [hcache] at hk
    cases hk
  pending rid p u h := by
    rcases h with h | h <;> cases h
  offered a ha := by cases ha

/-- The cacheable requests a run can prepare. -/
def Workload (sys : System) (keys : KeyStore) (es : List Event) (p : Prepared) : Prop :=
  p.stream = false ∧ ∃ rid key, Known sys keys es rid key ∧ sys.prepare rid key = some p

/-- A response marked as a hit comes from a lookup that found an entry. -/
theorem advance_hit {sys : System} {rid : ℕ} {g : Gateway} {now : Clock} {ph : Phase}
    {r : Response} (hr : (advance sys rid g now ph).2.response = some r)
    (hhit : r.cache = some .hit) :
    ph.response = some r ∨ ∃ p v, ph = .cleared p ∧
      cacheLookup sys.lib sys.runtime g.cache p = some v ∧ r = serveFromCache v := by
  cases ph with
  | arrived =>
      simp only [advance] at hr
      split_ifs at hr <;> cases hr
  | challenged =>
      simp only [advance] at hr
      split at hr
      · cases hr
      · rw [← Option.some.inj hr] at hhit
        cases hhit
  | identified key =>
      simp only [advance] at hr
      split at hr
      · rename_i refusal hadm
        rw [← Option.some.inj hr, admission_refusal hadm] at hhit
        cases hhit
      · cases hr
  | admitted key =>
      simp only [advance] at hr
      split at hr
      · cases hr
      · rename_i refusal hgate
        rw [← Option.some.inj hr, receive_error hgate] at hhit
        cases hhit
  | cleared p =>
      simp only [advance] at hr
      split at hr
      · rename_i v hv
        exact .inr ⟨p, v, rfl, hv, (Option.some.inj hr).symm⟩
      · cases hr
  | waiting p =>
      simp only [advance] at hr
      split at hr
      · cases hr
      · rename_i err herr
        rw [← Option.some.inj hr, upstreamErrorResponse_cache] at hhit
        cases hhit
  | answered p u => cases hr
  | settled p u =>
      have hresp : (respond sys.lib sys.runtime g.cache p u).2.response = r := by
        simp only [advance, Phase.ofReply] at hr
        split at hr <;> exact Option.some.inj hr
      rw [← hresp] at hhit
      exact (respond_cache _ _ _ _ _ hhit).elim
  | streaming response o =>
      simp only [advance] at hr
      split_ifs at hr <;> exact .inl hr
  | done response => exact .inl hr

/-- A lookup finds an entry only for a request without streaming. -/
theorem cacheLookup_some {lib : Externals} {rt : Runtime} {cache : ResponseCache} {p : Prepared}
    {v : CachedResponse} (h : cacheLookup lib rt cache p = some v) :
    p.stream = false ∧ cache.get (hexEncode (lib.sha256 (input p))) = some v := by
  unfold cacheLookup at h
  split_ifs at h
  cases hs : p.stream with
  | true => simp [cacheKey, hs] at h
  | false =>
      rw [cacheKey_eq lib hs] at h
      exact ⟨rfl, h⟩

theorem idempotencyKey_of_prepare {sys : System} {rid : ℕ} {key : VirtualKey} {p : Prepared}
    (h : sys.prepare rid key = some p) : p.idempotencyKey ≠ some "" := by
  unfold System.prepare at h
  split at h
  · rw [← Option.some.inj h]
    intro hk
    have := (Option.filter_eq_some_iff.mp hk).2
    simp at this
  · cases h

/-- What a successful lookup tells: an answer of the run was stored under the same
digest. -/
theorem Recorded.lookup {sys : System} {keys : KeyStore} {es : List Event} {s : State}
    (h : Recorded sys keys es s) {p : Prepared} {v : CachedResponse}
    (hlook : cacheLookup sys.lib sys.runtime s.gateway.cache p = some v) :
    p.stream = false ∧ ∃ a ∈ s.answers, a.request.stream = false ∧
      sys.lib.sha256 (input p) = sys.lib.sha256 (input a.request) ∧
      a.upstream.status = 200 ∧ ∃ bytes, collectBody a.upstream.body = .ok bytes ∧
        v = cachedResponse a.upstream bytes := by
  obtain ⟨hplain, hget⟩ := cacheLookup_some hlook
  obtain ⟨a, ha, hst⟩ := h.entries _ v hget
  have hkey := hst.keyed
  rw [cacheKey_eq sys.lib hst.plain] at hkey
  exact ⟨hplain, a, ha, hst.plain, (hexEncode_injective (Option.some.inj hkey)).symm, hst.ok,
    hst.drained⟩

/-- A hit is produced by a step of its own request that asks the cache. -/
theorem next_hit {sys : System} {s : State} {e : Event} {rid : ℕ} {r : Response}
    (hbefore : (s.phases rid).response ≠ some r)
    (hafter : ((next sys s e).phases rid).response = some r) (hhit : r.cache = some .hit) :
    ∃ now p v, e = .step rid now ∧ s.phases rid = .cleared p ∧
      cacheLookup sys.lib sys.runtime s.gateway.cache p = some v ∧ r = serveFromCache v := by
  cases e with
  | step other now =>
      by_cases ho : rid = other
      · subst ho
        simp only [next, Function.update_self] at hafter
        rcases advance_hit hafter hhit with hold | ⟨p, v, hph, hlook, hr⟩
        · exact (hbefore hold).elim
        · exact ⟨now, p, v, rfl, hph, hlook, hr⟩
      · simp only [next, Function.update_of_ne ho] at hafter
        exact (hbefore hafter).elim
  | keys store => exact (hbefore hafter).elim
  | forgetRate keyId => exact (hbefore hafter).elim
  | forgetSpend keyId => exact (hbefore hafter).elim
  | evict cacheKey => exact (hbefore hafter).elim

/-- In a run that starts with an empty cache and whose requests are free of the
three confusions, every response marked as a hit repeats a drained 200 answer
that the upstream had already given, when the cache was asked, to the same
request. -/
theorem hit_repeats_answer (sys : System) (g : Gateway) (hcache : g.cache = ResponseCache.empty)
    (es : List Event)
    (hsha : ∀ p q, Workload sys g.keys es p → Workload sys g.keys es q →
      sys.lib.sha256 (input p) = sys.lib.sha256 (input q) → input p = input q)
    (hclear : ∀ p q, Workload sys g.keys es p → Workload sys g.keys es q → ¬ Confusion p q)
    (rid : ℕ) (r : Response)
    (hr : ((run (next sys) (State.start g) es).phases rid).response = some r)
    (hhit : r.cache = some .hit) :
    ∃ es₁ now es₂ p a bytes, es = es₁ ++ .step rid now :: es₂ ∧
      (run (next sys) (State.start g) es₁).phases rid = .cleared p ∧
      a ∈ (run (next sys) (State.start g) es₁).answers ∧
      Same p a.request ∧ p.idempotencyKey ≠ some "" ∧
      a.upstream.status = 200 ∧ collectBody a.upstream.body = .ok bytes ∧
      r = ⟨200, a.upstream.contentType, some .hit, .bytes bytes⟩ := by
  obtain ⟨es₁, e, es₂, hes, hbefore, hafter⟩ := run_establishes (next sys)
    (fun s => (s.phases rid).response = some r) (State.start g) es nofun hr
  have hrec : Recorded sys g.keys es (run (next sys) (State.start g) es₁) := by
    apply run_invariant (next sys) (Recorded sys g.keys es) es₁ _ _ (recorded_start sys hcache es)
    intro s f hf h
    exact h.next (by simp [hes, hf])
  obtain ⟨now, p, v, rfl, hph, hlook, rfl⟩ := next_hit hbefore hafter hhit
  obtain ⟨hplain, a, ha, hplain', hdigest, hok, bytes, hbytes, rfl⟩ := hrec.lookup hlook
  have hfit := hrec.fits rid
  rw [hph] at hfit
  have hpW : Workload sys g.keys es p := ⟨hplain, rid, p.key, hfit⟩
  obtain ⟨rid', hoff⟩ := hrec.offered a ha
  have haW : Workload sys g.keys es a.request := ⟨hplain', rid', a.request.key, hoff⟩
  -- Equal digests are equal inputs, and equal inputs are the same request.
  have hsame : Same p a.request := by
    rcases (input_eq_iff p a.request).mp (hsha p a.request hpW haW hdigest) with h | h | h
    · exact h
    · exact (hclear p a.request hpW haW h).elim
    · exact (hclear a.request p haW hpW h).elim
  refine ⟨es₁, now, es₂, p, a, bytes, hes, hph, ha, hsame, idempotencyKey_of_prepare hfit.2,
    hok, hbytes, ?_⟩
  refine (buildResponse_cache hhit).1.trans ?_
  simp [cachedResponse, hok]

/-- A body with one member, the model `m`. -/
def modelBody : Bytes := asBytes "\x7b\"model\":\"m\"\x7d"

/-- The digest of the cache key input of `modelBody` without a virtual key. -/
def modelDigest : Bytes :=
  [0x14, 0x4c, 0xe8, 0xd2, 0xa6, 0x02, 0x82, 0x9e, 0xc7, 0x93, 0xb8, 0xa4,
    0xc4, 0x28, 0x2a, 0x58, 0xfe, 0xe9, 0x3c, 0x64, 0x07, 0x2a, 0x3e, 0x2d,
    0x76, 0xce, 0x5d, 0xbf, 0x8f, 0x16, 0xb2, 0x54]

/-- The digest and the JSON tree of the inputs that occur below. -/
def modelExternals : Externals where
  sha256 b := if b = keyInput "anonymous" "m" modelBody then modelDigest else []
  fromSlice b := if b = modelBody then some (.object [("model", .string "m")]) else none
  fromSliceAs _ b := if b = modelBody then some (.object [("model", .string "m")]) else none
  parseRfc3339 _ := none

/-- Every request carries `modelBody` and every upstream call succeeds. -/
def modelSystem (endpoint : ℕ → Endpoint) : System where
  lib := modelExternals
  runtime := ⟨⟨fun _ => none⟩, true, []⟩
  requests rid := ⟨endpoint rid, [], modelBody⟩
  upstream _ _ := .ok ⟨200, some "application/json", [.ok (asBytes "chat")], "openai", "gpt-4o",
    none, 1⟩

def emptyGateway : Gateway :=
  ⟨KeyStore.empty, RateLimiting.RateLimiter.empty, SpendTracking.SpendTracker.empty,
    ResponseCache.empty⟩

/-- Request 0 from arrival to reply, then request 1 up to its cache lookup. -/
def twoRequests : List Event :=
  List.replicate 7 (.step 0 ⟨0, 0⟩) ++ List.replicate 4 (.step 1 ⟨0, 0⟩)

/-- A chat request, then an embeddings request with the same body: the second is
answered from the cache although no embeddings call was ever made. -/
theorem embeddings_hit_without_embeddings_answer :
    let sys := modelSystem fun rid => if rid = 1 then .embeddings else .chat
    let s := run (next sys) (State.start emptyGateway) twoRequests
    (sys.requests 1).endpoint = .embeddings ∧
      (s.phases 1).response =
        some ⟨200, some "application/json", some .hit, .bytes (asBytes "chat")⟩ ∧
      s.answers.map (fun a => a.request.endpoint) = [.chat] := by
  decide +kernel

theorem workload_modelSystem {p : Prepared}
    (h : Workload (modelSystem fun _ => .chat) KeyStore.empty twoRequests p) :
    p = ⟨.chat, VirtualKey.anonymous, "m", false, none, modelBody⟩ := by
  obtain ⟨-, rid, key, ⟨-, store, hstore, hid⟩, hprep⟩ := h
  obtain rfl : store = KeyStore.empty := by
    rcases hstore with h | h
    · exact h
    · simp [twoRequests] at h
  obtain rfl : VirtualKey.anonymous = key := Except.ok.inj hid
  have hall : ∀ rid, (modelSystem fun _ => .chat).prepare rid VirtualKey.anonymous =
      some ⟨.chat, VirtualKey.anonymous, "m", false, none, modelBody⟩ := by
    intro rid
    exact (by decide +kernel : (modelSystem fun _ => .chat).prepare 0 VirtualKey.anonymous =
      some ⟨.chat, VirtualKey.anonymous, "m", false, none, modelBody⟩)
  rw [hall rid] at hprep
  exact (Option.some.inj hprep).symm

/-- Two equal chat requests: the second is a hit and repeats the first's answer. -/
theorem hit_repeats_answer_two_chats :
    let sys := modelSystem fun _ => .chat
    ∃ es₁ now es₂ p a bytes, twoRequests = es₁ ++ .step 1 now :: es₂ ∧
      (run (next sys) (State.start emptyGateway) es₁).phases 1 = .cleared p ∧
      a ∈ (run (next sys) (State.start emptyGateway) es₁).answers ∧
      Same p a.request ∧ p.idempotencyKey ≠ some "" ∧
      a.upstream.status = 200 ∧ collectBody a.upstream.body = .ok bytes ∧
      (⟨200, some "application/json", some .hit, .bytes (asBytes "chat")⟩ : Response) =
        ⟨200, a.upstream.contentType, some .hit, .bytes bytes⟩ := by
  apply hit_repeats_answer (modelSystem fun _ => .chat) emptyGateway rfl twoRequests
  · intro p q hp hq _
    rw [workload_modelSystem hp, workload_modelSystem hq]
  · intro p q hp hq
    rw [workload_modelSystem hp, workload_modelSystem hq]
    rintro (⟨h, -⟩ | ⟨k, -, -, -, h, -⟩ | ⟨h | h, -⟩)
    · exact h rfl
    · cases h
    · exact h rfl
    · exact h rfl
  · decide +kernel
  · rfl

end VaultplaneGateway.CacheProvenance
