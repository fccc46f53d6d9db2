import VaultplaneGateway.CacheProvenance

/-!
# Requests across reloads

A reload puts a new runtime in place of the old one: routes, plugins, prices and an empty
response cache. A request loads the runtime once, at the top of its handler, and goes on
with it to its end. Keys, rate limits and spend belong to no runtime.

Runtimes are numbered in the order in which they are installed. Every generation has a
cache of its own, and a request that began in one generation may still write to its cache
while later ones are being served. Three things follow. A cached reply is one that the
same generation obtained. What a client is told comes from one generation, the one that
was current when its handler began. And the middleware in front of the handler cannot
tell whether the gateway was reloaded.
-/
namespace VaultplaneGateway.ReloadGenerations
open WireFormats KeyRecords RateLimiting SpendTracking ResponseCaching InlinePlugins StreamUsage
open ProxyPipeline TransitionRuns RequestInterleaving CacheProvenance

/-- The runtimes in the order of their installation, with the upstreams that their routes
lead to. -/
structure Fleet where
  lib : Externals
  runtimes : ℕ → Runtime
  requests : ℕ → Request
  upstream : ℕ → ℕ → Connector

def Fleet.system (f : Fleet) (gen : ℕ) : System := ⟨f.lib, f.runtimes gen, f.requests, f.upstream gen⟩

/-- An answer with the generation and the request that obtained it. -/
structure Obtained where
  gen : ℕ
  rid : ℕ
  answer : Answer

structure State where
  current : ℕ
  keys : KeyStore
  limiter : RateLimiter
  tracker : SpendTracker
  caches : ℕ → ResponseCache
  loaded : ℕ → Option ℕ
  phases : ℕ → Phase
  obtained : List Obtained

def State.start (keys : KeyStore) (limiter : RateLimiter) (tracker : SpendTracker) : State where
  current := 0
  keys := keys
  limiter := limiter
  tracker := tracker
  caches _ := ResponseCache.empty
  loaded _ := none
  phases _ := .arrived
  obtained := []

/-- The runtime a step of the request works with: the one it loaded, or the current one. -/
def State.runtimeOf (s : State) (rid : ℕ) : ℕ := (s.loaded rid).getD s.current

def State.gateway (s : State) (gen : ℕ) : Gateway := ⟨s.keys, s.limiter, s.tracker, s.caches gen⟩

inductive Event where
  | step (rid : ℕ) (now : Clock)
  | reload
  | keys (store : KeyStore)
  | forgetRate (keyId : String)
  | forgetSpend (keyId : String)
  | evict (gen : ℕ) (cacheKey : String)

/-- The next step of the request is the load: the middleware has admitted it, its body fits,
and its handler has loaded nothing so far. -/
def State.loads (f : Fleet) (s : State) (rid : ℕ) : Bool :=
  (s.loaded rid).isNone && (f.requests rid).body.length ≤ bodyLimit &&
    match s.phases rid with
    | .admitted _ => true
    | _ => false

def next (f : Fleet) (s : State) : Event → State
  | .step rid now =>
      if s.loads f rid then { s with loaded := Function.update s.loaded rid (some s.current) }
      else
        let gen := s.runtimeOf rid
        let r := advance (f.system gen) rid (s.gateway gen) now (s.phases rid)
        { s with
          keys := r.1.keys
          limiter := r.1.limiter
          tracker := r.1.tracker
          caches := Function.update s.caches gen r.1.cache
          phases := Function.update s.phases rid r.2
          obtained :=
            ((s.phases rid).obtains (f.system gen) rid).map (⟨gen, rid, ·⟩) ++ s.obtained }
  | .reload => { s with current := s.current + 1 }
  | .keys store => { s with keys := store }
  | .forgetRate keyId => { s with limiter := s.limiter.forget keyId }
  | .forgetSpend keyId => { s with tracker := s.tracker.forget keyId }
  | .evict gen cacheKey =>
      { s with caches := Function.update s.caches gen ((s.caches gen).evict cacheKey) }

/-- A phase of the handler under `key`, with the runtime of one generation. -/
def Served (f : Fleet) (gen rid : ℕ) (key : VirtualKey) : Phase → Prop
  | .admitted k => k = key ∧ (f.requests rid).body.length ≤ bodyLimit
  | .cleared p => (f.system gen).prepare rid key = some p
  | .waiting p => (f.system gen).prepare rid key = some p
  | .answered p upstream =>
      (f.system gen).prepare rid key = some p ∧ f.upstream gen rid p.call = .ok upstream
  | .settled p upstream =>
      (f.system gen).prepare rid key = some p ∧ f.upstream gen rid p.call = .ok upstream
  | .streaming _ _ => True
  | .done _ => True
  | _ => False

theorem served_ofReply (f : Fleet) (gen rid : ℕ) (key : VirtualKey) (r : Reply) :
    Served f gen rid key (Phase.ofReply r) := by
  unfold Phase.ofReply
  split
  · trivial
  · trivial

/-- The handler goes on under the generation that it began with. -/
theorem served_advance {f : Fleet} {gen rid : ℕ} {key : VirtualKey} {ph : Phase}
    (h : Served f gen rid key ph) (g : Gateway) (now : Clock) :
    Served f gen rid key (advance (f.system gen) rid g now ph).2 := by
  cases ph with
  | arrived => cases h
  | challenged => cases h
  | identified _ => cases h
  | admitted k =>
      obtain ⟨rfl, -⟩ := h
      simp only [advance]
      split
      · rename_i p hgate
        exact prepare_of_receive hgate
      · trivial
  | cleared p =>
      simp only [advance]
      split
      · trivial
      · exact h
  | waiting p =>
      simp only [advance]
      split
      · rename_i upstream hup
        exact ⟨h, hup⟩
      · trivial
  | answered p upstream => exact h
  | settled p upstream => exact served_ofReply f gen rid key _
  | streaming response o =>
      simp only [advance]
      split_ifs
      · trivial
      · trivial
  | done response => trivial

/-- What precedes the load. -/
def early : Phase → Bool
  | .arrived | .challenged | .identified _ | .admitted _ | .done _ => true
  | _ => false

/-- A request that was admitted and cannot load is told that its body is too long. -/
theorem refused_of_stuck {f : Fleet} {s : State} {rid : ℕ} {key : VirtualKey}
    (hnone : s.loaded rid = none) (hph : s.phases rid = .admitted key)
    (hload : s.loads f rid = false) (gen : ℕ) (g : Gateway) (now : Clock) :
    bodyLimit < (f.requests rid).body.length ∧
      (advance (f.system gen) rid g now (.admitted key)).2 = .done payloadTooLarge := by
  have hlong : bodyLimit < (f.requests rid).body.length := by
    simpa [State.loads, hnone, hph] using hload
  refine ⟨hlong, ?_⟩
  simp only [advance, Fleet.system]
  rw [receive_of_long hlong]

theorem early_advance {f : Fleet} {s : State} {rid : ℕ} (hnone : s.loaded rid = none)
    (h : early (s.phases rid) = true) (hload : s.loads f rid = false) (gen : ℕ) (g : Gateway)
    (now : Clock) : early (advance (f.system gen) rid g now (s.phases rid)).2 = true := by
  cases hph : s.phases rid with
  | arrived =>
      simp only [advance]
      split_ifs
      · rfl
      · rfl
  | challenged =>
      simp only [advance]
      split
      · rfl
      · rfl
  | identified key =>
      simp only [advance]
      split
      · rfl
      · rfl
  | admitted key =>
      rw [(refused_of_stuck hnone hph hload gen g now).2]
      rfl
  | done response => rfl
  | _ =>
      rw [hph] at h
      cases h

/-- Behind every entry of a generation's cache stands an answer of that generation. -/
structure Consistent (f : Fleet) (s : State) : Prop where
  early : ∀ rid, s.loaded rid = none → early (s.phases rid) = true
  served : ∀ rid gen, s.loaded rid = some gen → ∃ key, Served f gen rid key (s.phases rid)
  entries : ∀ gen k v, (s.caches gen).get k = some v →
    ∃ o ∈ s.obtained, o.gen = gen ∧ Stored f.lib o.answer k v
  pending : ∀ rid p u, s.phases rid = .answered p u ∨ s.phases rid = .settled p u →
    ∃ gen, s.loaded rid = some gen ∧ ⟨gen, rid, p, u⟩ ∈ s.obtained
  obtained : ∀ o ∈ s.obtained, s.loaded o.rid = some o.gen ∧
    f.upstream o.gen o.rid o.answer.request.call = .ok o.answer.upstream

theorem consistent_start (f : Fleet) (keys : KeyStore) (limiter : RateLimiter)
    (tracker : SpendTracker) : Consistent f (State.start keys limiter tracker) where
  early _ _ := rfl
  served _ _ h := by cases h
  entries gen k v h := by cases h
  pending rid p u h := by
    rcases h with h | h <;> cases h
  obtained o h := by cases h

theorem runtimeOf_of_loaded {s : State} {rid gen : ℕ} (h : s.loaded rid = some gen) :
    s.runtimeOf rid = gen := by
  rw [State.runtimeOf, h, Option.getD_some]

section
variable {f : Fleet} {s : State} {rid : ℕ}

theorem loads_eq_false {gen : ℕ} (h : s.loaded rid = some gen) : s.loads f rid = false := by
  simp [State.loads, h]

theorem loads_eq_true (h : s.loads f rid = true) :
    s.loaded rid = none ∧ (f.requests rid).body.length ≤ bodyLimit ∧
      ∃ key, s.phases rid = .admitted key := by
  unfold State.loads at h
  cases hph : s.phases rid with
  | admitted key => simpa [hph] using h
  | _ => simp [hph] at h

/-- A step that loads does nothing else. -/
theorem next_of_loads (h : s.loads f rid = true) (now : Clock) :
    next f s (.step rid now) = { s with loaded := Function.update s.loaded rid (some s.current) } :=
  if_pos h

theorem next_loaded (f : Fleet) (s : State) (rid : ℕ) (now : Clock) (rid' : ℕ) :
    (next f s (.step rid now)).loaded rid' =
      if rid' = rid ∧ s.loads f rid = true then some s.current else s.loaded rid' := by
  cases hload : s.loads f rid with
  | false => simp [next, hload]
  | true =>
      by_cases hr : rid' = rid
      · simp [next, hload, hr]
      · simp [next, hload, hr]

theorem next_phase (hload : s.loads f rid = false) (now : Clock) :
    (next f s (.step rid now)).phases rid =
      (advance (f.system (s.runtimeOf rid)) rid (s.gateway (s.runtimeOf rid)) now
        (s.phases rid)).2 := by
  simp [next, hload]

theorem next_phase_of_ne {rid' : ℕ} (hr : rid' ≠ rid) (now : Clock) :
    (next f s (.step rid now)).phases rid' = s.phases rid' := by
  simp only [next]
  split_ifs
  · rfl
  · exact Function.update_of_ne hr ..

/-- A runtime is loaded once. -/
theorem keeps_loaded {gen : ℕ} (e : Event) (h : s.loaded rid = some gen) :
    (next f s e).loaded rid = some gen := by
  cases e with
  | step rid' now =>
      rw [next_loaded, if_neg, h]
      rintro ⟨rfl, hload⟩
      rw [(loads_eq_true hload).1] at h
      cases h
  | _ => exact h

/-- A request that is past the gates has loaded a runtime. -/
theorem Consistent.loaded_of_late (h : Consistent f s)
    (hlate : ReloadGenerations.early (s.phases rid) = false) :
    s.loaded rid = some (s.runtimeOf rid) := by
  cases hl : s.loaded rid with
  | none =>
      rw [h.early rid hl] at hlate
      cases hlate
  | some gen => rw [runtimeOf_of_loaded hl]

theorem Consistent.obtains (h : Consistent f s) {a : Answer}
    (ha : a ∈ (s.phases rid).obtains (f.system (s.runtimeOf rid)) rid) :
    s.loaded rid = some (s.runtimeOf rid) ∧
      f.upstream (s.runtimeOf rid) rid a.request.call = .ok a.upstream := by
  obtain ⟨hph, hup⟩ := mem_obtains ha
  refine ⟨h.loaded_of_late ?_, hup⟩
  rw [hph]
  rfl

/-- The load itself. -/
theorem Consistent.load (h : Consistent f s) (hload : s.loads f rid = true) :
    Consistent f { s with loaded := Function.update s.loaded rid (some s.current) } := by
  obtain ⟨hnone, hfits, key, hph⟩ := loads_eq_true hload
  have hkeep : ∀ {rid' gen}, s.loaded rid' = some gen →
      Function.update s.loaded rid (some s.current) rid' = some gen := by
    intro rid' gen hl
    rw [Function.update_of_ne, hl]
    rintro rfl
    rw [hnone] at hl
    cases hl
  refine ⟨?_, ?_, h.entries, ?_, fun o ho => ⟨hkeep (h.obtained o ho).1, (h.obtained o ho).2⟩⟩
  · intro rid' hl
    by_cases hr : rid' = rid
    · simp [hr] at hl
    · exact h.early rid' (by simpa [hr] using hl)
  · intro rid' gen hl
    by_cases hr : rid' = rid
    · subst hr
      exact ⟨key, by rw [hph]; exact ⟨rfl, hfits⟩⟩
    · exact h.served rid' gen (by simpa [hr] using hl)
  · intro rid' p u hp
    obtain ⟨gen, hl, hmem⟩ := h.pending rid' p u hp
    exact ⟨gen, hkeep hl, hmem⟩

/-- A request writes into the cache of its own generation, and what it writes was obtained
before. -/
theorem Consistent.entries_advance (h : Consistent f s) (hload : s.loads f rid = false)
    (now : Clock) {gen : ℕ} {k : String} {v : CachedResponse}
    (hk : ((next f s (.step rid now)).caches gen).get k = some v) :
    ∃ o ∈ s.obtained, o.gen = gen ∧ Stored f.lib o.answer k v := by
  by_cases hg : gen = s.runtimeOf rid
  · simp only [ReloadGenerations.next, hload, hg, Function.update_self, Bool.false_eq_true,
      if_false] at hk
    rcases advance_cache (f.system (s.runtimeOf rid)) rid (s.gateway (s.runtimeOf rid)) now
        (s.phases rid) with hsame | ⟨p, u, k', v', hph, hst, hins⟩
    · rw [hsame] at hk
      exact h.entries gen k v (hg ▸ hk)
    · rw [hins, ResponseCache.get_insert] at hk
      split_ifs at hk with he
      · obtain rfl := Option.some.inj hk
        obtain ⟨gen', hgen', hmem⟩ := h.pending rid p u (.inr hph)
        have hrun := runtimeOf_of_loaded hgen'
        rw [he]
        exact ⟨_, hmem, by rw [hg, hrun], hst⟩
      · exact h.entries gen k v (hg ▸ hk)
  · simp only [ReloadGenerations.next, hload, Function.update_of_ne hg, Bool.false_eq_true,
      if_false] at hk
    exact h.entries gen k v hk

/-- Any other step of a request. -/
theorem Consistent.advance (h : Consistent f s) (hload : s.loads f rid = false) (now : Clock) :
    Consistent f (next f s (.step rid now)) := by
  have hloaded : ∀ rid', (next f s (.step rid now)).loaded rid' = s.loaded rid' := by
    intro rid'
    rw [next_loaded, hload]
    simp
  have hphase := next_phase hload now
  have hobtained : (next f s (.step rid now)).obtained =
      ((s.phases rid).obtains (f.system (s.runtimeOf rid)) rid).map (⟨s.runtimeOf rid, rid, ·⟩) ++
        s.obtained := by
    simp [ReloadGenerations.next, hload]
  have hold : ∀ o ∈ s.obtained, o ∈ (next f s (.step rid now)).obtained := by
    intro o ho
    rw [hobtained]
    exact List.mem_append_right _ ho
  refine ⟨?_, ?_, ?_, ?_, ?_⟩
  · intro rid' hnone
    rw [hloaded] at hnone
    by_cases hr : rid' = rid
    · subst hr
      rw [hphase]
      exact early_advance hnone (h.early rid' hnone) hload _ _ now
    · rw [next_phase_of_ne hr]
      exact h.early rid' hnone
  · intro rid' gen hgen
    rw [hloaded] at hgen
    by_cases hr : rid' = rid
    · subst hr
      obtain ⟨key, hserved⟩ := h.served rid' gen hgen
      rw [hphase, runtimeOf_of_loaded hgen]
      exact ⟨key, served_advance hserved _ now⟩
    · rw [next_phase_of_ne hr]
      exact h.served rid' gen hgen
  · intro gen k v hk
    obtain ⟨o, ho, hog, hst⟩ := h.entries_advance hload now hk
    exact ⟨o, hold o ho, hog, hst⟩
  · intro rid' p u hph
    rw [hloaded]
    by_cases hr : rid' = rid
    · subst hr
      rw [hphase] at hph
      rcases pending_of_advance hph with hnew | hpend
      · obtain ⟨hl, -⟩ := h.obtains hnew
        refine ⟨_, hl, ?_⟩
        rw [hobtained]
        exact List.mem_append_left _ (List.mem_map_of_mem hnew)
      · obtain ⟨gen, hl, hmem⟩ := h.pending rid' p u (.inl hpend)
        exact ⟨gen, hl, hold _ hmem⟩
    · rw [next_phase_of_ne hr] at hph
      obtain ⟨gen, hl, hmem⟩ := h.pending rid' p u hph
      exact ⟨gen, hl, hold _ hmem⟩
  · intro o ho
    rw [hobtained] at ho
    rw [hloaded]
    rcases List.mem_append.mp ho with hnew | hpast
    · obtain ⟨a, ha, rfl⟩ := List.mem_map.mp hnew
      exact h.obtains ha
    · exact h.obtained o hpast

theorem Consistent.next (h : Consistent f s) (e : Event) : Consistent f (next f s e) := by
  cases e with
  | step rid now =>
      cases hload : s.loads f rid with
      | true =>
          rw [next_of_loads hload]
          exact h.load hload
      | false => exact h.advance hload now
  | reload => exact ⟨h.early, h.served, h.entries, h.pending, h.obtained⟩
  | keys store => exact ⟨h.early, h.served, h.entries, h.pending, h.obtained⟩
  | forgetRate keyId => exact ⟨h.early, h.served, h.entries, h.pending, h.obtained⟩
  | forgetSpend keyId => exact ⟨h.early, h.served, h.entries, h.pending, h.obtained⟩
  | evict gen cacheKey =>
      refine ⟨h.early, h.served, ?_, h.pending, h.obtained⟩
      intro gen' k v hk
      simp only [ReloadGenerations.next] at hk
      by_cases hg : gen' = gen
      · rw [hg, Function.update_self, ResponseCache.get_evict] at hk
        split_ifs at hk
        exact h.entries gen' k v (hg ▸ hk)
      · rw [Function.update_of_ne hg] at hk
        exact h.entries gen' k v hk

end

theorem consistent_run (f : Fleet) (keys : KeyStore) (limiter : RateLimiter)
    (tracker : SpendTracker) (es : List Event) :
    Consistent f (run (next f) (State.start keys limiter tracker) es) :=
  run_invariant (next f) (Consistent f) es (fun _ e _ h => h.next e) _
    (consistent_start f keys limiter tracker)

/-- A reply is given by a step of the request that is not its load. -/
theorem next_replies {f : Fleet} {s : State} {e : Event} {rid : ℕ} {r : Response}
    (hbefore : (s.phases rid).response ≠ some r)
    (hafter : ((next f s e).phases rid).response = some r) :
    ∃ now, e = .step rid now ∧ s.loads f rid = false ∧
      (advance (f.system (s.runtimeOf rid)) rid (s.gateway (s.runtimeOf rid)) now
        (s.phases rid)).2.response = some r := by
  cases e with
  | step other now =>
      by_cases ho : rid = other
      · subst ho
        cases hload : s.loads f rid with
        | true =>
            rw [next_of_loads hload] at hafter
            exact (hbefore hafter).elim
        | false =>
            rw [next_phase hload] at hafter
            exact ⟨now, rfl, rfl, hafter⟩
      · rw [next_phase_of_ne ho] at hafter
        exact (hbefore hafter).elim
  | _ => exact (hbefore hafter).elim

/-- No cached reply crosses a reload. For every interleaving of requests, reloads, key
writers and evictions: a response marked as a hit repeats a drained 200 answer that, when
the cache was asked, a request of the same generation had already obtained from an upstream
of that generation, under the same cache key. -/
theorem hit_stays_in_its_generation (f : Fleet) (keys : KeyStore) (limiter : RateLimiter)
    (tracker : SpendTracker) (es : List Event) (rid : ℕ) (r : Response)
    (hr : ((run (next f) (State.start keys limiter tracker) es).phases rid).response = some r)
    (hhit : r.cache = some .hit) :
    ∃ es₁ now es₂ gen p o bytes, es = es₁ ++ .step rid now :: es₂ ∧
      let s := run (next f) (State.start keys limiter tracker) es₁
      s.phases rid = .cleared p ∧ s.loaded rid = some gen ∧
      o ∈ s.obtained ∧ o.gen = gen ∧ s.loaded o.rid = some gen ∧
      f.upstream gen o.rid o.answer.request.call = .ok o.answer.upstream ∧
      cacheKey f.lib p = cacheKey f.lib o.answer.request ∧
      o.answer.upstream.status = 200 ∧ collectBody o.answer.upstream.body = .ok bytes ∧
      r = ⟨200, o.answer.upstream.contentType, some .hit, .bytes bytes⟩ := by
  obtain ⟨es₁, e, es₂, hes, hbefore, hafter⟩ := run_establishes (next f)
    (fun s => (s.phases rid).response = some r) (State.start keys limiter tracker) es nofun hr
  have hcons := consistent_run f keys limiter tracker es₁
  obtain ⟨now, rfl, -, hstep⟩ := next_replies hbefore hafter
  obtain ⟨p, v, hph, hlook, rfl⟩ := (advance_hit hstep hhit).resolve_left hbefore
  obtain ⟨hplain, hget⟩ := cacheLookup_some hlook
  obtain ⟨o, ho, hog, hst⟩ := hcons.entries _ _ v hget
  obtain ⟨hloaded, hup⟩ := hcons.obtained o ho
  have hearly : ReloadGenerations.early
      ((run (next f) (State.start keys limiter tracker) es₁).phases rid) = false := by
    rw [hph]
    rfl
  have hlate := hcons.loaded_of_late hearly
  obtain ⟨bytes, hbytes, rfl⟩ := hst.drained
  rw [hog] at hloaded hup
  refine ⟨es₁, now, es₂, _, p, o, bytes, hes, hph, hlate, ho, hog, hloaded, hup, ?_, hst.ok, hbytes,
    ?_⟩
  · rw [hst.keyed, cacheKey_eq f.lib hplain]
    rfl
  · refine (buildResponse_cache hhit).1.trans ?_
    simp [cachedResponse, hst.ok]

theorem next_served {f : Fleet} {s : State} {rid gen : ℕ} {key : VirtualKey}
    (hl : s.loaded rid = some gen) (hserved : Served f gen rid key (s.phases rid)) (e : Event) :
    Served f gen rid key ((next f s e).phases rid) := by
  cases e with
  | step other now =>
      by_cases ho : rid = other
      · subst ho
        rw [next_phase (loads_eq_false hl), runtimeOf_of_loaded hl]
        exact served_advance hserved _ now
      · rw [next_phase_of_ne ho]
        exact hserved
  | _ => exact hserved

theorem next_loads {f : Fleet} {s : State} {rid : ℕ} {e : Event} (hbefore : s.loaded rid = none)
    (hafter : (next f s e).loaded rid ≠ none) : ∃ now, e = .step rid now ∧ s.loads f rid = true := by
  cases e with
  | step other now =>
      rw [next_loaded] at hafter
      split_ifs at hafter with hload
      · obtain ⟨rfl, hload⟩ := hload
        exact ⟨now, rfl, hload⟩
      · exact (hafter hbefore).elim
  | _ => exact (hafter hbefore).elim

/-- The replies that request `rid` gets in state `s` from what is in front of the handler. -/
inductive TurnedAway (f : Fleet) (s : State) (rid : ℕ) (now : Clock) : Response → Prop
  | unknown (hph : s.phases rid = .challenged)
      (h : (bearerToken (f.requests rid).headers).bind (s.keys.authenticate f.lib) = none) :
      TurnedAway f s rid now (error 401 "missing or invalid virtual key")
  | refused {key : VirtualKey} {r : Response} (hph : s.phases rid = .identified key)
      (h : (admission f.lib s.limiter key now).2 = some r) : TurnedAway f s rid now r
  | tooLong {key : VirtualKey} (hph : s.phases rid = .admitted key)
      (h : bodyLimit < (f.requests rid).body.length) : TurnedAway f s rid now payloadTooLarge

/-- The replies that the handler gives to request `rid` under `key` in state `s`, with the
plugins, the routes and the cache of one generation. -/
inductive Produces (f : Fleet) (s : State) (gen rid : ℕ) (key : VirtualKey) (now : Clock) :
    Response → Prop
  | refused {r : Response} (hph : s.phases rid = .admitted key)
      (h : gate (f.runtimes gen) s.tracker key (f.requests rid)
        (requestMeta f.lib (f.requests rid)) now.utc = .error r) : Produces f s gen rid key now r
  | cached {p : Prepared} {v : CachedResponse} (hph : s.phases rid = .cleared p)
      (hp : (f.system gen).prepare rid key = some p)
      (h : cacheLookup f.lib (f.runtimes gen) (s.caches gen) p = some v) :
      Produces f s gen rid key now (serveFromCache v)
  | failed {p : Prepared} {err : CoreError} (hph : s.phases rid = .waiting p)
      (hp : (f.system gen).prepare rid key = some p)
      (h : f.upstream gen rid p.call = .error err) :
      Produces f s gen rid key now (upstreamErrorResponse err)
  | answered {p : Prepared} {upstream : ChatResponse} (hph : s.phases rid = .settled p upstream)
      (hp : (f.system gen).prepare rid key = some p)
      (h : f.upstream gen rid p.call = .ok upstream) :
      Produces f s gen rid key now
        (respond f.lib (f.runtimes gen) (s.caches gen) p upstream).2.response

/-- The spend after a step in this phase, with the prices of one runtime. -/
def charged (lib : Externals) (rt : Runtime) (tracker : SpendTracker) (now : Clock) :
    Phase → SpendTracker
  | .answered p upstream => settle rt tracker p upstream now.utc
  | .streaming _ observer => (observer.pollNext lib rt.pricing tracker now.utc).1.2
  | _ => tracker

/-- A step of request `rid` works with one generation: it charges by its prices, reads and
writes its cache, and leaves the caches of all others alone. -/
structure WorksWith (f : Fleet) (s : State) (gen rid : ℕ) (now : Clock) : Prop where
  phase : (next f s (.step rid now)).phases rid =
    (advance (f.system gen) rid (s.gateway gen) now (s.phases rid)).2
  tracker : (next f s (.step rid now)).tracker =
    charged f.lib (f.runtimes gen) s.tracker now (s.phases rid)
  cache : (next f s (.step rid now)).caches gen =
    (advance (f.system gen) rid (s.gateway gen) now (s.phases rid)).1.cache
  others : ∀ other, other ≠ gen → (next f s (.step rid now)).caches other = s.caches other

theorem advance_tracker (sys : System) (rid : ℕ) (g : Gateway) (now : Clock) (ph : Phase) :
    (advance sys rid g now ph).1.tracker = charged sys.lib sys.runtime g.tracker now ph := by
  cases ph <;> rfl

theorem works_with {f : Fleet} {s : State} {gen rid : ℕ} (hl : s.loaded rid = some gen)
    (now : Clock) : WorksWith f s gen rid now := by
  have hload := loads_eq_false (f := f) hl
  have hrun := runtimeOf_of_loaded hl
  constructor
  · rw [next_phase hload, hrun]
  · simp only [next, hload, hrun, Bool.false_eq_true, if_false]
    exact advance_tracker ..
  · simp [next, hload, hrun]
  · intro other ho
    simp only [next, hload, hrun, Bool.false_eq_true, if_false]
    exact Function.update_of_ne ho ..

/-- A reply to a request that has loaded nothing. -/
theorem turned_away {f : Fleet} {s : State} {rid : ℕ} {r : Response} {now : Clock}
    (hnone : s.loaded rid = none) (hearly : early (s.phases rid) = true)
    (hload : s.loads f rid = false) (hbefore : (s.phases rid).response ≠ some r) {gen : ℕ}
    (hafter : (advance (f.system gen) rid (s.gateway gen) now (s.phases rid)).2.response = some r) :
    TurnedAway f s rid now r := by
  cases hph : s.phases rid with
  | arrived =>
      rw [hph] at hafter
      simp only [advance] at hafter
      split_ifs at hafter <;> cases hafter
  | challenged =>
      rw [hph] at hafter
      simp only [advance] at hafter
      split at hafter
      · cases hafter
      · rename_i hkey
        rw [← Option.some.inj hafter]
        exact .unknown hph hkey
  | identified key =>
      rw [hph] at hafter
      simp only [advance] at hafter
      split at hafter
      · rename_i refusal hadm
        rw [← Option.some.inj hafter]
        exact .refused hph hadm
      · cases hafter
  | admitted key =>
      obtain ⟨hlong, hrefused⟩ := refused_of_stuck hnone hph hload gen (s.gateway gen) now
      rw [hph, hrefused] at hafter
      rw [← Option.some.inj hafter]
      exact .tooLong hph hlong
  | done response =>
      rw [hph] at hbefore hafter
      exact (hbefore hafter).elim
  | _ =>
      rw [hph] at hearly
      cases hearly

/-- A reply to a request that has loaded a runtime. -/
theorem produces {f : Fleet} {s : State} {gen rid : ℕ} {key : VirtualKey} {r : Response}
    {now : Clock} (hserved : Served f gen rid key (s.phases rid))
    (hbefore : (s.phases rid).response ≠ some r)
    (hafter : (advance (f.system gen) rid (s.gateway gen) now (s.phases rid)).2.response = some r) :
    Produces f s gen rid key now r := by
  cases hph : s.phases rid with
  | admitted k =>
      rw [hph] at hserved hafter
      obtain ⟨rfl, hfits⟩ := hserved
      simp only [advance] at hafter
      split at hafter
      · cases hafter
      · rename_i refusal hgate
        rw [← Option.some.inj hafter]
        exact .refused hph ((receive_of_fits hfits _ _).symm.trans hgate)
  | cleared p =>
      rw [hph] at hserved hafter
      simp only [advance] at hafter
      split at hafter
      · rename_i v hv
        rw [← Option.some.inj hafter]
        exact .cached hph hserved hv
      · cases hafter
  | waiting p =>
      rw [hph] at hserved hafter
      simp only [advance] at hafter
      split at hafter
      · cases hafter
      · rename_i err herr
        rw [← Option.some.inj hafter]
        exact .failed hph hserved herr
  | answered p upstream =>
      rw [hph] at hafter
      cases hafter
  | settled p upstream =>
      rw [hph] at hserved hafter
      have hreply : Produces f s gen rid key now
          (respond f.lib (f.runtimes gen) (s.caches gen) p upstream).2.response :=
        .answered hph hserved.1 hserved.2
      simp only [advance, Phase.ofReply] at hafter
      split at hafter
      · rw [← Option.some.inj hafter]
        exact hreply
      · rw [← Option.some.inj hafter]
        exact hreply
  | streaming response o =>
      rw [hph] at hbefore hafter
      simp only [advance] at hafter
      split_ifs at hafter
      · exact (hbefore hafter).elim
      · exact (hbefore hafter).elim
  | done response =>
      rw [hph] at hbefore hafter
      exact (hbefore hafter).elim
  | _ =>
      rw [hph] at hserved
      cases hserved

/-- A request turned away loads no runtime afterwards. -/
theorem stays_away {f : Fleet} {s : State} {rid : ℕ} (hnone : s.loaded rid = none) {r : Response}
    (hph : s.phases rid = .done r) (es : List Event) :
    (run (next f) s es).loaded rid = none := by
  refine (run_invariant (next f) (fun t => t.loaded rid = none ∧ t.phases rid = .done r) es ?_ s
    ⟨hnone, hph⟩).1
  rintro t e - ⟨hnone, hph⟩
  have hload : t.loads f rid = false := by simp [State.loads, hph]
  cases e with
  | step other now =>
      constructor
      · rw [next_loaded, if_neg, hnone]
        rintro ⟨rfl, h⟩
        simp [hload] at h
      · by_cases ho : rid = other
        · subst ho
          rw [next_phase hload, hph]
          rfl
        · rw [next_phase_of_ne ho, hph]
  | _ => exact ⟨hnone, hph⟩

theorem done_of_early {ph : Phase} {r : Response} (h : early ph = true)
    (hr : ph.response = some r) : ph = .done r := by
  cases ph with
  | done response => rw [Option.some.inj hr]
  | streaming response o => cases h
  | _ => cases hr

/-- From the load on the request keeps its generation and its key. -/
theorem after_load {f : Fleet} {s : State} {rid : ℕ} {key : VirtualKey}
    (hload : s.loads f rid = true) (hph : s.phases rid = .admitted key) (load : Clock)
    (es : List Event) :
    (run (next f) s (.step rid load :: es)).loaded rid = some s.current ∧
      Served f s.current rid key ((run (next f) s (.step rid load :: es)).phases rid) := by
  rw [run_cons]
  refine run_invariant (next f)
    (fun t => t.loaded rid = some s.current ∧ Served f s.current rid key (t.phases rid)) es
    (fun t e _ h => ⟨keeps_loaded e h.1, next_served h.1 h.2 e⟩) _ ⟨?_, ?_⟩
  · rw [next_loaded, if_pos ⟨rfl, hload⟩]
  · rw [next_of_loads hload, hph]
    exact ⟨rfl, (loads_eq_true hload).2.1⟩

/-- What a client is told, for every interleaving: a request turned away in front of the
handler loads no runtime; every other reply is given with the runtime that was current when
the request loaded it. Plugins, routes, prices and cache are those of that one generation in
every step from the load on, however many reloads come in between. -/
theorem reply_comes_from_one_generation (f : Fleet) (keys : KeyStore) (limiter : RateLimiter)
    (tracker : SpendTracker) (es : List Event) (rid : ℕ) (r : Response)
    (hr : ((run (next f) (State.start keys limiter tracker) es).phases rid).response = some r) :
    let after := run (next f) (State.start keys limiter tracker)
    ((after es).loaded rid = none ∧
      ∃ es₁ now es₂, es = es₁ ++ .step rid now :: es₂ ∧ TurnedAway f (after es₁) rid now r) ∨
    ∃ es₁ load es₂ now es₃ key, es = es₁ ++ .step rid load :: es₂ ++ .step rid now :: es₃ ∧
      (after es₁).phases rid = .admitted key ∧ (after es₁).loaded rid = none ∧
      (after (es₁ ++ [.step rid load])).loaded rid = some (after es₁).current ∧
      Produces f (after (es₁ ++ .step rid load :: es₂)) (after es₁).current rid key now r ∧
      ∀ fs later gs, es = es₁ ++ .step rid load :: fs ++ .step rid later :: gs →
        WorksWith f (after (es₁ ++ .step rid load :: fs)) (after es₁).current rid later := by
  intro after
  obtain ⟨es₁, e, es₂, hes, hbefore, hafter⟩ := run_establishes (next f)
    (fun s => (s.phases rid).response = some r) (State.start keys limiter tracker) es nofun hr
  obtain ⟨now, rfl, hload, hstep⟩ := next_replies hbefore hafter
  have hcons := consistent_run f keys limiter tracker es₁
  cases hl : (after es₁).loaded rid with
  | none =>
      left
      have hnone : (next f (after es₁) (.step rid now)).loaded rid = none := by
        rw [next_loaded, hload, hl]
        simp
      have hdone := done_of_early ((hcons.next (.step rid now)).early rid hnone) hafter
      refine ⟨?_, es₁, now, es₂, hes, turned_away hl (hcons.early rid hl) hload hbefore hstep⟩
      rw [hes]
      simp only [after, run_append, run_cons]
      exact stays_away hnone hdone es₂
  | some gen =>
      right
      -- the load lies before the step that decides the reply
      obtain ⟨es₀, e, fs, hes₁, hunloaded, hloaded⟩ := run_establishes (next f)
        (fun s => s.loaded rid ≠ none) (State.start keys limiter tracker) es₁ (fun h => h rfl)
        (by rw [show (run (next f) _ es₁).loaded rid = some gen from hl]; simp)
      obtain ⟨load, rfl, hloads⟩ := next_loads (not_not.mp hunloaded) hloaded
      obtain ⟨hnone, -, key, hph⟩ := loads_eq_true hloads
      have hrest : ∀ fs, (after (es₀ ++ .step rid load :: fs)).loaded rid =
            some (after es₀).current ∧
          Served f (after es₀).current rid key ((after (es₀ ++ .step rid load :: fs)).phases rid) := by
        intro fs
        simp only [after, run_append]
        exact after_load hloads hph load fs
      subst hes₁
      obtain ⟨hgen, hserved⟩ := hrest fs
      refine ⟨es₀, load, fs, now, es₂, key, hes, hph, hnone, (hrest []).1, ?_, ?_⟩
      · rw [← runtimeOf_of_loaded hgen]
        rw [← runtimeOf_of_loaded hgen] at hserved
        exact produces hserved hbefore hstep
      · intro fs later gs _
        exact works_with (hrest fs).1 later

/-- How far a request has come in front of its handler. -/
inductive Front where
  | arrived
  | challenged
  | identified (key : VirtualKey)
  | admitted
  | refused (response : Response)
  | passed

def front (loaded : Option ℕ) : Phase → Front
  | .arrived => .arrived
  | .challenged => .challenged
  | .identified key => .identified key
  | .admitted _ => if loaded.isNone then .admitted else .passed
  | .done response => if loaded.isNone then .refused response else .passed
  | _ => .passed

/-- What is seen of the gateway in front of the handlers. -/
structure View where
  keys : KeyStore
  limiter : RateLimiter
  fronts : ℕ → Front

def State.view (s : State) : View :=
  ⟨s.keys, s.limiter, fun rid => front (s.loaded rid) (s.phases rid)⟩

def View.put (v : View) (rid : ℕ) (front : Front) : View :=
  { v with fronts := Function.update v.fronts rid front }

/-- The middleware and the limit on bodies by themselves. -/
def viewStep (lib : Externals) (requests : ℕ → Request) (v : View) : Event → View
  | .step rid now =>
      match v.fronts rid with
      | .arrived =>
          v.put rid (if v.keys.isEmpty then .identified VirtualKey.anonymous else .challenged)
      | .challenged =>
          v.put rid (match (bearerToken (requests rid).headers).bind (v.keys.authenticate lib) with
            | some key => .identified key
            | none => .refused (error 401 "missing or invalid virtual key"))
      | .identified key =>
          let r := admission lib v.limiter key now
          { v with limiter := r.1 }.put rid (match r.2 with
            | some refusal => .refused refusal
            | none => .admitted)
      | .admitted =>
          v.put rid (if bodyLimit < (requests rid).body.length then .refused payloadTooLarge
            else .passed)
      | _ => v
  | .keys store => { v with keys := store }
  | .forgetRate keyId => { v with limiter := v.limiter.forget keyId }
  | _ => v

theorem next_keys (f : Fleet) (s : State) (rid : ℕ) (now : Clock) :
    (next f s (.step rid now)).keys = s.keys := by
  simp only [next]
  split_ifs
  · rfl
  · exact advance_keys ..

/-- Only the admission writes the rate limiter. -/
theorem advance_limiter {sys : System} {rid : ℕ} {g : Gateway} {now : Clock} {ph : Phase}
    (h : ∀ key, ph ≠ .identified key) : (advance sys rid g now ph).1.limiter = g.limiter := by
  cases ph with
  | identified key => exact (h key rfl).elim
  | _ => rfl

theorem next_limiter {f : Fleet} {s : State} {rid : ℕ} {now : Clock}
    (h : ∀ key, s.phases rid ≠ .identified key) : (next f s (.step rid now)).limiter = s.limiter := by
  simp only [next]
  split_ifs
  · rfl
  · exact advance_limiter h

/-- The view after a step of request `rid`. -/
theorem view_step (f : Fleet) (s : State) (rid : ℕ) (now : Clock) :
    (next f s (.step rid now)).view =
      View.put ⟨s.keys, (next f s (.step rid now)).limiter, s.view.fronts⟩
        rid (front ((next f s (.step rid now)).loaded rid) ((next f s (.step rid now)).phases rid)) := by
  have hfronts : (next f s (.step rid now)).view.fronts = Function.update s.view.fronts rid
      (front ((next f s (.step rid now)).loaded rid) ((next f s (.step rid now)).phases rid)) := by
    funext rid'
    by_cases hr : rid' = rid
    · subst hr
      rw [Function.update_self]
      rfl
    · rw [Function.update_of_ne hr]
      simp only [State.view, next_loaded, next_phase_of_ne hr]
      rw [if_neg (by simp [hr])]
  rw [View.put, ← hfronts, ← next_keys f s rid now]
  rfl

/-- A request that stays where it is and does not write the limiter leaves the view alone. -/
theorem view_of_late {f : Fleet} {s : State} {rid : ℕ} {now : Clock}
    (hlimiter : ∀ key, s.phases rid ≠ .identified key)
    (hfront : front ((next f s (.step rid now)).loaded rid) ((next f s (.step rid now)).phases rid) =
      front (s.loaded rid) (s.phases rid)) : (next f s (.step rid now)).view = s.view := by
  rw [view_step, next_limiter hlimiter, hfront, View.put]
  exact congrArg (View.mk s.keys s.limiter) (Function.update_eq_self rid s.view.fronts)

/-- The front of a request that has loaded a runtime. -/
theorem front_of_served {f : Fleet} {gen rid : ℕ} {key : VirtualKey} {ph : Phase}
    (h : Served f gen rid key ph) : front (some gen) ph = .passed := by
  cases ph with
  | arrived => cases h
  | challenged => cases h
  | identified _ => cases h
  | _ => rfl

section
variable (sys : System) (rid : ℕ) (g : Gateway) (now : Clock)

theorem front_arrived : front none (advance sys rid g now .arrived).2 =
    if g.keys.isEmpty then .identified VirtualKey.anonymous else .challenged := by
  simp only [advance]
  split_ifs
  · rfl
  · rfl

theorem front_challenged : front none (advance sys rid g now .challenged).2 =
    match (bearerToken (sys.requests rid).headers).bind (g.keys.authenticate sys.lib) with
    | some key => .identified key
    | none => .refused (error 401 "missing or invalid virtual key") := by
  simp only [advance]
  cases (bearerToken (sys.requests rid).headers).bind (g.keys.authenticate sys.lib) with
  | none => rfl
  | some key => rfl

theorem front_identified (key : VirtualKey) :
    front none (advance sys rid g now (.identified key)).2 =
      match (admission sys.lib g.limiter key now).2 with
      | some refusal => .refused refusal
      | none => .admitted := by
  simp only [advance]
  cases (admission sys.lib g.limiter key now).2 with
  | none => rfl
  | some refusal => rfl

end

section
variable {f : Fleet} {s : State} {rid : ℕ}

/-- A request that has loaded a runtime is out of sight. -/
theorem view_next_loaded (h : Consistent f s) {gen : ℕ} (hl : s.loaded rid = some gen)
    (now : Clock) :
    (next f s (.step rid now)).view = viewStep f.lib f.requests s.view (.step rid now) := by
  obtain ⟨key, hserved⟩ := h.served rid gen hl
  have hfront : front (s.loaded rid) (s.phases rid) = .passed := by
    rw [hl]
    exact front_of_served hserved
  have hstay : viewStep f.lib f.requests s.view (.step rid now) = s.view := by
    simp only [viewStep, State.view, hfront]
  rw [hstay]
  apply view_of_late
  · intro key' hph
    rw [hph] at hserved
    cases hserved
  · rw [hfront, keeps_loaded (.step rid now) hl]
    exact front_of_served (next_served hl hserved (.step rid now))

/-- The load takes a request out of sight. -/
theorem view_next_load (hload : s.loads f rid = true) (now : Clock) :
    (next f s (.step rid now)).view = viewStep f.lib f.requests s.view (.step rid now) := by
  obtain ⟨hnone, hfits, key, hph⟩ := loads_eq_true hload
  have hfront : s.view.fronts rid = .admitted := by
    simp only [State.view, hnone, hph, front, Option.isNone_none, if_true]
  rw [view_step, next_limiter (by rw [hph]; nofun), next_loaded, if_pos ⟨rfl, hload⟩,
    next_of_loads hload, hph, viewStep, hfront]
  dsimp only
  rw [if_neg (Nat.not_lt.mpr hfits)]
  rfl

/-- The view after a step that loads nothing. -/
theorem view_next_front (hl : s.loaded rid = none) (hload : s.loads f rid = false) (now : Clock) :
    (next f s (.step rid now)).view =
      View.put ⟨s.keys, (next f s (.step rid now)).limiter, s.view.fronts⟩ rid
        (front none (advance (f.system (s.runtimeOf rid)) rid (s.gateway (s.runtimeOf rid)) now
          (s.phases rid)).2) := by
  have hnone : (next f s (.step rid now)).loaded rid = none := by
    rw [next_loaded, if_neg (by simp [hload]), hl]
  rw [view_step, next_phase hload, hnone]

theorem loads_of_early (h : ∀ key, s.phases rid ≠ .admitted key) : s.loads f rid = false := by
  by_contra hload
  obtain ⟨-, -, key, hph⟩ := loads_eq_true (Bool.not_eq_false _ ▸ hload)
  exact h key hph

theorem view_next_arrived (hl : s.loaded rid = none) (hph : s.phases rid = .arrived) (now : Clock) :
    (next f s (.step rid now)).view = viewStep f.lib f.requests s.view (.step rid now) := by
  have hfront : s.view.fronts rid = .arrived := by simp only [State.view, hph, front]
  rw [view_next_front hl (loads_of_early (by rw [hph]; nofun)),
    next_limiter (by rw [hph]; nofun), hph, front_arrived, viewStep, hfront]
  rfl

theorem view_next_challenged (hl : s.loaded rid = none) (hph : s.phases rid = .challenged)
    (now : Clock) :
    (next f s (.step rid now)).view = viewStep f.lib f.requests s.view (.step rid now) := by
  have hfront : s.view.fronts rid = .challenged := by simp only [State.view, hph, front]
  rw [view_next_front hl (loads_of_early (by rw [hph]; nofun)),
    next_limiter (by rw [hph]; nofun), hph, front_challenged, viewStep, hfront]
  rfl

theorem view_next_identified {key : VirtualKey} (hl : s.loaded rid = none)
    (hph : s.phases rid = .identified key) (now : Clock) :
    (next f s (.step rid now)).view = viewStep f.lib f.requests s.view (.step rid now) := by
  have hfront : s.view.fronts rid = .identified key := by simp only [State.view, hph, front]
  have hload : s.loads f rid = false := loads_of_early (by rw [hph]; nofun)
  have hlimiter : (next f s (.step rid now)).limiter = (admission f.lib s.limiter key now).1 := by
    simp only [next, hload, hph]
    rfl
  rw [view_next_front hl hload, hlimiter, hph, front_identified, viewStep, hfront]
  rfl

theorem view_next_stuck {key : VirtualKey} (hl : s.loaded rid = none)
    (hph : s.phases rid = .admitted key) (hload : s.loads f rid = false) (now : Clock) :
    (next f s (.step rid now)).view = viewStep f.lib f.requests s.view (.step rid now) := by
  have hfront : s.view.fronts rid = .admitted := by
    simp only [State.view, hl, hph, front, Option.isNone_none, if_true]
  obtain ⟨hlong, hrefused⟩ := refused_of_stuck hl hph hload (s.runtimeOf rid)
    (s.gateway (s.runtimeOf rid)) now
  rw [view_next_front hl hload, next_limiter (by rw [hph]; nofun), hph, hrefused, viewStep, hfront]
  dsimp only
  rw [if_pos hlong]
  rfl

theorem view_next_refused {response : Response} (hl : s.loaded rid = none)
    (hph : s.phases rid = .done response) (now : Clock) :
    (next f s (.step rid now)).view = viewStep f.lib f.requests s.view (.step rid now) := by
  have hfront : s.view.fronts rid = .refused response := by
    simp only [State.view, hl, hph, front, Option.isNone_none, if_true]
  have hstay : viewStep f.lib f.requests s.view (.step rid now) = s.view := by
    simp only [viewStep, hfront]
  have hload : s.loads f rid = false := loads_of_early (by rw [hph]; nofun)
  rw [hstay]
  apply view_of_late (by rw [hph]; nofun)
  rw [next_loaded, if_neg (by simp [hload]), next_phase hload, hph]
  rfl

end

theorem view_next {f : Fleet} {s : State} (h : Consistent f s) (e : Event) :
    (next f s e).view = viewStep f.lib f.requests s.view e := by
  cases e with
  | reload => rfl
  | keys store => rfl
  | forgetRate keyId => rfl
  | forgetSpend keyId => rfl
  | evict gen cacheKey => rfl
  | step rid now =>
      cases hl : s.loaded rid with
      | some gen => exact view_next_loaded h hl now
      | none =>
          have hearly := h.early rid hl
          cases hph : s.phases rid with
          | admitted key =>
              cases hload : s.loads f rid with
              | true => exact view_next_load hload now
              | false => exact view_next_stuck hl hph hload now
          | arrived => exact view_next_arrived hl hph now
          | challenged => exact view_next_challenged hl hph now
          | identified key => exact view_next_identified hl hph now
          | done response => exact view_next_refused hl hph now
          | _ =>
              rw [hph] at hearly
              cases hearly

/-- Events that are seen in front of the handlers. -/
def ofMiddleware : Event → Bool
  | .step _ _ => true
  | .keys _ => true
  | .forgetRate _ => true
  | _ => false

/-- Authentication, expiry, rate limits and the limit on bodies do not know of reloads. Two
gateways with the same keys and rate limiter to begin with and the same requests, whose
steps come in the same order and at the same instants, whatever their runtimes, upstreams,
trackers and caches are and wherever reloads and evictions come in: after every run they
have the same keys and rate limiter, and have turned away the same requests with the same
replies. -/
theorem middleware_is_blind_to_reloads (f f' : Fleet) (hlib : f.lib = f'.lib)
    (hrequests : f.requests = f'.requests) (keys : KeyStore) (limiter : RateLimiter)
    (tracker tracker' : SpendTracker) (es es' : List Event)
    (hes : es.filter ofMiddleware = es'.filter ofMiddleware) :
    (run (next f) (State.start keys limiter tracker) es).view =
      (run (next f') (State.start keys limiter tracker') es').view := by
  have hview : ∀ (f : Fleet) (tracker : SpendTracker) (es : List Event),
      (run (next f) (State.start keys limiter tracker) es).view =
        run (viewStep f.lib f.requests) (State.start keys limiter tracker).view
          (es.filter ofMiddleware) := by
    intro f tracker es
    rw [run_view (fun _ e h => Consistent.next h e) (fun _ e h => view_next h e)
      (consistent_start f keys limiter tracker)]
    apply run_filter_eq
    intro v e he
    cases e with
    | step rid now => cases he
    | keys store => cases he
    | forgetRate keyId => cases he
    | reload => rfl
    | forgetSpend keyId => rfl
    | evict gen cacheKey => rfl
  rw [hview f tracker es, hview f' tracker' es', hlib, hrequests, hes]
  rfl

section Sample

/-- Two generations whose upstreams answer every request with their own name. -/
def twoGenerations : Fleet where
  lib := modelExternals
  runtimes _ := ⟨⟨fun _ => none⟩, true, []⟩
  requests _ := ⟨.chat, [], modelBody⟩
  upstream gen _ _ := .ok ⟨200, some "application/json",
    [.ok (asBytes (if gen = 0 then "old" else "new"))], "openai", "gpt-4o", none, 1⟩

def sampleStart : State :=
  State.start KeyStore.empty RateLimiter.empty SpendTracker.empty

def steps (rid n : ℕ) : List Event := List.replicate n (.step rid ⟨0, 0⟩)

/-- Request 0 is served, the gateway is reloaded, and two equal requests follow. -/
def acrossReload : List Event := steps 0 8 ++ [.reload] ++ steps 1 8 ++ steps 2 5

def hitBody (text : String) : Response :=
  ⟨200, some "application/json", some .hit, .bytes (asBytes text)⟩

/-- The old reply is in a cache but the first request after the reload asks the new upstream,
and the second repeats the new reply. -/
theorem hit_after_reload :
    ((run (next twoGenerations) sampleStart acrossReload).phases 1).response =
        some { hitBody "new" with cache := some .miss } ∧
      ∃ es₁ now es₂ gen p o bytes, acrossReload = es₁ ++ .step 2 now :: es₂ ∧
        let s := run (next twoGenerations) sampleStart es₁
        s.phases 2 = .cleared p ∧ s.loaded 2 = some gen ∧
        o ∈ s.obtained ∧ o.gen = gen ∧ s.loaded o.rid = some gen ∧
        twoGenerations.upstream gen o.rid o.answer.request.call = .ok o.answer.upstream ∧
        cacheKey twoGenerations.lib p = cacheKey twoGenerations.lib o.answer.request ∧
        o.answer.upstream.status = 200 ∧ collectBody o.answer.upstream.body = .ok bytes ∧
        hitBody "new" = ⟨200, o.answer.upstream.contentType, some .hit, .bytes bytes⟩ := by
  refine ⟨by decide +kernel, ?_⟩
  apply hit_stays_in_its_generation twoGenerations KeyStore.empty RateLimiter.empty
    SpendTracker.empty acrossReload 2 (hitBody "new")
  · decide +kernel
  · rfl

/-- Request 0 loads the runtime before the reload and is answered after it, by the old
generation. -/
theorem old_reply_after_reload :
    let es := steps 0 3 ++ [.reload] ++ steps 0 5
    let reply : Response := { hitBody "old" with cache := some .miss }
    let after := run (next twoGenerations) sampleStart
    (after es).loaded 0 = some 0 ∧
    (((after es).loaded 0 = none ∧
      ∃ es₁ now es₂, es = es₁ ++ .step 0 now :: es₂ ∧
        TurnedAway twoGenerations (after es₁) 0 now reply) ∨
    ∃ es₁ load es₂ now es₃ key, es = es₁ ++ .step 0 load :: es₂ ++ .step 0 now :: es₃ ∧
      (after es₁).phases 0 = .admitted key ∧ (after es₁).loaded 0 = none ∧
      (after (es₁ ++ [.step 0 load])).loaded 0 = some (after es₁).current ∧
      Produces twoGenerations (after (es₁ ++ .step 0 load :: es₂)) (after es₁).current 0 key now
        reply ∧
      ∀ fs later gs, es = es₁ ++ .step 0 load :: fs ++ .step 0 later :: gs →
        WorksWith twoGenerations (after (es₁ ++ .step 0 load :: fs)) (after es₁).current 0
          later) := by
  intro es reply after
  refine ⟨by decide +kernel, ?_⟩
  apply reply_comes_from_one_generation twoGenerations KeyStore.empty RateLimiter.empty
    SpendTracker.empty es 0 reply
  decide +kernel

/-- The run with the reload and one without it, under other runtimes. -/
theorem same_view_without_reload :
    let other := { twoGenerations with runtimes := fun _ => ⟨⟨fun _ => none⟩, false, []⟩ }
    let plain := steps 0 8 ++ steps 1 8 ++ steps 2 5
    plain.filter ofMiddleware = acrossReload.filter ofMiddleware ∧
      (run (next twoGenerations) sampleStart acrossReload).view =
        (run (next other) sampleStart plain).view :=
  ⟨rfl, middleware_is_blind_to_reloads twoGenerations
    { twoGenerations with runtimes := fun _ => ⟨⟨fun _ => none⟩, false, []⟩ } rfl rfl
    KeyStore.empty RateLimiter.empty SpendTracker.empty SpendTracker.empty acrossReload
    (steps 0 8 ++ steps 1 8 ++ steps 2 5) rfl⟩

end Sample

end VaultplaneGateway.ReloadGenerations
