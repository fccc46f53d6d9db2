import VaultplaneGateway.GateOrder
import VaultplaneGateway.TransitionRuns

/-!
# Interleaved requests

Any number of requests share the key store, the rate limiter, the spend tracker
and the response cache. A request is in one of ten phases and a step of it is one
atomic access to a shared store, or the arrival of the upstream's answer; between
two steps of one request any other request may take any number of steps. Key
writers, the cleanup after a revocation and the eviction of a cached entry are
events of their own.

The state keeps the upstream answers obtained so far. No step reads them.
-/
namespace VaultplaneGateway.RequestInterleaving
open WireFormats KeyRecords RateLimiting SpendTracking ResponseCaching InlinePlugins StreamUsage
open ProxyPipeline TransitionRuns

/-- The fixed surroundings of a run. Every request has its own upstream, so two
equal calls may be answered differently. -/
structure System where
  lib : Externals
  runtime : Runtime
  requests : ℕ → Request
  upstream : ℕ → Connector

inductive Phase where
  | arrived
  | challenged
  | identified (key : VirtualKey)
  | admitted (key : VirtualKey)
  | cleared (p : Prepared)
  | waiting (p : Prepared)
  | answered (p : Prepared) (upstream : ChatResponse)
  | settled (p : Prepared) (upstream : ChatResponse)
  | streaming (response : Response) (observer : UsageObservingStream)
  | done (response : Response)

/-- The response whose head has been sent. -/
def Phase.response : Phase → Option Response
  | .streaming response _ => some response
  | .done response => some response
  | _ => none

def Phase.ofReply (r : Reply) : Phase :=
  match r.observer with
  | some o => .streaming r.response o
  | none => .done r.response

/-- One step of request `rid` at the clock reading `now`. -/
def advance (sys : System) (rid : ℕ) (g : Gateway) (now : Clock) : Phase → Gateway × Phase
  | .arrived => (g, if g.keys.isEmpty then .identified VirtualKey.anonymous else .challenged)
  | .challenged =>
      (g, match (bearerToken (sys.requests rid).headers).bind (g.keys.authenticate sys.lib) with
        | some key => .identified key
        | none => .done (error 401 "missing or invalid virtual key"))
  | .identified key =>
      let r := admission sys.lib g.limiter key now
      ({ g with limiter := r.1 }, match r.2 with
        | some refusal => .done refusal
        | none => .admitted key)
  | .admitted key =>
      (g, match receive sys.runtime g.tracker key (sys.requests rid)
          (requestMeta sys.lib (sys.requests rid)) now.utc with
        | .ok p => .cleared p
        | .error refusal => .done refusal)
  | .cleared p =>
      (g, match cacheLookup sys.lib sys.runtime g.cache p with
        | some cached => .done (serveFromCache cached)
        | none => .waiting p)
  | .waiting p =>
      (g, match sys.upstream rid p.call with
        | .ok upstream => .answered p upstream
        | .error err => .done (upstreamErrorResponse err))
  | .answered p upstream =>
      ({ g with tracker := settle sys.runtime g.tracker p upstream now.utc },
        .settled p upstream)
  | .settled p upstream =>
      let r := respond sys.lib sys.runtime g.cache p upstream
      ({ g with cache := r.1 }, Phase.ofReply r.2)
  | .streaming response observer =>
      let r := observer.pollNext sys.lib sys.runtime.pricing g.tracker now.utc
      ({ g with tracker := r.1.2 },
        if r.2.isNone then .done response else .streaming response r.1.1)
  | .done response => (g, .done response)

/-- An answer the upstream gave, with the request it was given to. -/
structure Answer where
  request : Prepared
  upstream : ChatResponse

/-- The answer that a step of a request in this phase obtains. -/
def Phase.obtains (sys : System) (rid : ℕ) : Phase → List Answer
  | .waiting p =>
      match sys.upstream rid p.call with
      | .ok upstream => [⟨p, upstream⟩]
      | .error _ => []
  | _ => []

structure State where
  gateway : Gateway
  phases : ℕ → Phase
  answers : List Answer

/-- No request has started and no answer was obtained. -/
def State.start (g : Gateway) : State := ⟨g, fun _ => .arrived, []⟩

inductive Event where
  | step (rid : ℕ) (now : Clock)
  | keys (store : KeyStore)
  | forgetRate (keyId : String)
  | forgetSpend (keyId : String)
  | evict (cacheKey : String)

def next (sys : System) (s : State) : Event → State
  | .step rid now =>
      let r := advance sys rid s.gateway now (s.phases rid)
      { gateway := r.1
        phases := Function.update s.phases rid r.2
        answers := (s.phases rid).obtains sys rid ++ s.answers }
  | .keys store => { s with gateway := { s.gateway with keys := store } }
  | .forgetRate keyId =>
      { s with gateway := { s.gateway with limiter := s.gateway.limiter.forget keyId } }
  | .forgetSpend keyId =>
      { s with gateway := { s.gateway with tracker := s.gateway.tracker.forget keyId } }
  | .evict cacheKey =>
      { s with gateway := { s.gateway with cache := s.gateway.cache.evict cacheKey } }

/-- The clock readings at which a lone request takes its steps. An empty key
store saves the lookup. -/
def schedule (g : Gateway) (c : Clocks) : List Clock :=
  c.admitted :: ((if g.keys.isEmpty then [] else [c.admitted]) ++
    [c.admitted, c.gated, c.gated, c.answered, c.answered, c.answered])

/-- Steps of one request alone. -/
def advances (sys : System) (rid : ℕ) (s : Gateway × Phase) (clocks : List Clock) :
    Gateway × Phase :=
  run (fun s now => advance sys rid s.1 now s.2) s clocks

@[simp] theorem advances_cons (sys : System) (rid : ℕ) (s : Gateway × Phase) (now : Clock)
    (clocks : List Clock) :
    advances sys rid s (now :: clocks) = advances sys rid (advance sys rid s.1 now s.2) clocks :=
  rfl

@[simp] theorem advances_done (sys : System) (rid : ℕ) (g : Gateway) (r : Response)
    (clocks : List Clock) : advances sys rid (g, .done r) clocks = (g, .done r) := by
  induction clocks with
  | nil => rfl
  | cons now clocks ih => rw [advances_cons, advance, ih]

/-- Where an outcome leaves the stores and its request. -/
def rest (o : Outcome) : Gateway × Phase := (o.gateway, Phase.ofReply o.reply)

/-- The steps after the gates amount to `dispatch`. -/
theorem advances_cleared (sys : System) (rid : ℕ) (g : Gateway) (p : Prepared) (c : Clocks) :
    advances sys rid (g, .cleared p) [c.gated, c.answered, c.answered, c.answered] =
      rest (dispatch sys.lib sys.runtime (sys.upstream rid) g p c.answered) := by
  rw [advances_cons]
  simp only [advance, dispatch]
  cases cacheLookup sys.lib sys.runtime g.cache p with
  | some cached => exact advances_done ..
  | none =>
      dsimp only
      rw [advances_cons]
      simp only [advance]
      cases sys.upstream rid p.call with
      | error err => exact advances_done ..
      | ok upstream => rfl

/-- The steps of a request that has a key: admission and the handler. -/
theorem advances_identified (sys : System) (rid : ℕ) (g : Gateway) (key : VirtualKey)
    (c : Clocks) :
    advances sys rid (g, .identified key)
        [c.admitted, c.gated, c.gated, c.answered, c.answered, c.answered] =
      match admission sys.lib g.limiter key c.admitted with
      | (limiter, some r) => ({ g with limiter := limiter }, .done r)
      | (limiter, none) =>
          rest (handle sys.lib sys.runtime (sys.upstream rid) { g with limiter := limiter } key
            (sys.requests rid) (requestMeta sys.lib (sys.requests rid)) c) := by
  rw [advances_cons]
  simp only [advance]
  rcases admission sys.lib g.limiter key c.admitted with ⟨limiter, _ | r⟩
  · dsimp only
    rw [advances_cons]
    simp only [advance, handle]
    cases receive sys.runtime g.tracker key (sys.requests rid)
        (requestMeta sys.lib (sys.requests rid)) c.gated.utc with
    | error r => exact advances_done ..
    | ok p => exact advances_cleared sys rid _ p c
  · exact advances_done ..

/-- The two ways through the key lookup agree with `identify`. -/
theorem advances_arrived (sys : System) (rid : ℕ) (g : Gateway) (c : Clocks) :
    advances sys rid (g, .arrived) (schedule g c) =
      advances sys rid (g, match identify sys.lib g.keys (sys.requests rid).headers with
        | .ok key => .identified key
        | .error r => .done r)
      [c.admitted, c.gated, c.gated, c.answered, c.answered, c.answered] := by
  unfold schedule identify
  generalize [c.admitted, c.gated, c.gated, c.answered, c.answered, c.answered] = clocks
  cases hempty : g.keys.isEmpty with
  | true => simp [advance, hempty]
  | false =>
      simp only [Bool.false_eq_true, if_false, List.cons_append, List.nil_append, advances_cons,
        advance, hempty]
      cases (bearerToken (sys.requests rid).headers).bind (g.keys.authenticate sys.lib) with
      | none => rfl
      | some key => rfl

/-- A request that takes its steps alone is served as `serve` describes. -/
theorem advances_schedule (sys : System) (rid : ℕ) (g : Gateway) (c : Clocks) :
    advances sys rid (g, .arrived) (schedule g c) =
      rest (serve sys.lib sys.runtime (sys.upstream rid) g (sys.requests rid) c) := by
  rw [advances_arrived, GateOrder.serve_handle]
  unfold authenticate
  cases identify sys.lib g.keys (sys.requests rid).headers with
  | error r => exact advances_done ..
  | ok key =>
      dsimp only
      rw [advances_identified]
      rcases admission sys.lib g.limiter key c.admitted with ⟨limiter, _ | r⟩
      · rfl
      · rfl

/-- Without other events the machine does what one request does alone. -/
theorem run_steps (sys : System) (s : State) (rid : ℕ) (clocks : List Clock) :
    let t := run (next sys) s (clocks.map (Event.step rid))
    (t.gateway, t.phases rid) = advances sys rid (s.gateway, s.phases rid) clocks := by
  induction clocks generalizing s with
  | nil => rfl
  | cons now clocks ih =>
      simp only [List.map_cons, run_cons, advances_cons]
      rw [ih]
      simp [next]

/-- What the handler prepares for request `rid` under `key`, if the plugins
accept it. No shared store enters. -/
def System.prepare (sys : System) (rid : ℕ) (key : VirtualKey) : Option Prepared :=
  match runPlugins sys.runtime.plugins (sys.requests rid).endpoint.path
      (requestMeta sys.lib (sys.requests rid)).virtualModel (sys.requests rid).body with
  | .ok body => some (GateOrder.prepared sys.lib (sys.requests rid) key body)
  | .error _ => none

theorem key_of_prepare {sys : System} {rid : ℕ} {key : VirtualKey} {p : Prepared}
    (h : sys.prepare rid key = some p) : p.key = key := by
  unfold System.prepare at h
  split at h
  · rw [← Option.some.inj h]
    rfl
  · cases h

theorem prepare_of_receive {sys : System} {rid : ℕ} {key : VirtualKey} {p : Prepared}
    {tracker : SpendTracker} {now : ℕ}
    (h : receive sys.runtime tracker key (sys.requests rid)
      (requestMeta sys.lib (sys.requests rid)) now = .ok p) :
    sys.prepare rid key = some p := by
  replace h := (receive_eq_ok h).2
  unfold gate at h
  split_ifs at h
  split at h
  · rename_i body hrun
    rw [← Except.ok.inj h]
    simp [System.prepare, hrun, GateOrder.prepared]
  · cases h

/-- The phase of `rid` carries a key that `known` allows for it, and the request
prepared under that key. -/
def Fits (sys : System) (known : ℕ → VirtualKey → Prop) (rid : ℕ) : Phase → Prop
  | .identified key => known rid key
  | .admitted key => known rid key
  | .cleared p => known rid p.key ∧ sys.prepare rid p.key = some p
  | .waiting p => known rid p.key ∧ sys.prepare rid p.key = some p
  | .answered p _ => known rid p.key ∧ sys.prepare rid p.key = some p
  | .settled p _ => known rid p.key ∧ sys.prepare rid p.key = some p
  | .streaming _ o => ∃ key, known rid key ∧ o.keyId = key.identifier
  | _ => True

/-- Whatever way the middleware takes through this store, the key it finds for
the request is one that `known` allows. -/
structure Covers (sys : System) (known : ℕ → VirtualKey → Prop) (rid : ℕ) (keys : KeyStore) :
    Prop where
  anonymous : keys.isEmpty = true → known rid VirtualKey.anonymous
  token : ∀ key, (bearerToken (sys.requests rid).headers).bind
    (keys.authenticate sys.lib) = some key → known rid key

/-- An unchanged store covers what it identifies the request with. -/
theorem covers_of_identify {sys : System} {known : ℕ → VirtualKey → Prop} {rid : ℕ}
    {keys : KeyStore}
    (h : ∀ key, identify sys.lib keys (sys.requests rid).headers = .ok key → known rid key) :
    Covers sys known rid keys where
  anonymous hempty := h _ (by simp [identify, hempty])
  token key hkey := by
    apply h
    obtain ⟨token, -, hauth⟩ := Option.bind_eq_some_iff.mp hkey
    simp [identify, KeyStore.isEmpty_of_authenticate hauth, hkey]

theorem keyId_of_respond {lib : Externals} {rt : Runtime} {cache : ResponseCache} {p : Prepared}
    {upstream : ChatResponse} {o : UsageObservingStream}
    (h : (respond lib rt cache p upstream).2.observer = some o) : o.keyId = p.key.identifier := by
  unfold respond at h
  split at h
  · split at h
    · cases h
    · cases h
  · dsimp only at h
    split_ifs at h
    rw [← Option.some.inj h]
    rfl

theorem advance_fits {sys : System} {known : ℕ → VirtualKey → Prop} {rid : ℕ} {g : Gateway}
    (hcov : Covers sys known rid g.keys) (now : Clock) {ph : Phase} (h : Fits sys known rid ph) :
    Fits sys known rid (advance sys rid g now ph).2 := by
  cases ph with
  | arrived =>
      simp only [advance]
      split_ifs with hempty
      · exact hcov.anonymous hempty
      · trivial
  | challenged =>
      simp only [advance]
      split
      · rename_i key hkey
        exact hcov.token key hkey
      · trivial
  | identified key =>
      simp only [advance]
      split
      · trivial
      · exact h
  | admitted key =>
      simp only [advance]
      split
      · rename_i p hgate
        have hprep := prepare_of_receive hgate
        rw [Fits, key_of_prepare hprep]
        exact ⟨h, hprep⟩
      · trivial
  | cleared p =>
      simp only [advance]
      split
      · trivial
      · exact h
  | waiting p =>
      simp only [advance]
      split
      · exact h
      · trivial
  | answered p upstream => exact h
  | settled p upstream =>
      simp only [advance, Phase.ofReply]
      split
      · rename_i o ho
        exact ⟨p.key, h.1, keyId_of_respond ho⟩
      · trivial
  | streaming response o =>
      obtain ⟨key, hkey, hid⟩ := h
      simp only [advance]
      split_ifs
      · trivial
      · refine ⟨key, hkey, ?_⟩
        rcases o.pollNext_cases sys.lib sys.runtime.pricing now.utc with
          ⟨o', item, ho, heq⟩ | ⟨o', usage, item, ho, heq⟩
        · rw [heq, ho, hid]
        · rw [heq, ho, hid]
  | done response => trivial

/-- A step of one request leaves every other phase alone. -/
theorem next_fits {sys : System} {known : ℕ → VirtualKey → Prop} {s : State} {e : Event}
    (hcov : ∀ rid now, e = .step rid now → Covers sys known rid s.gateway.keys)
    (h : ∀ rid, Fits sys known rid (s.phases rid)) (rid : ℕ) :
    Fits sys known rid ((next sys s e).phases rid) := by
  cases e with
  | step other now =>
      by_cases hr : rid = other
      · subst hr
        simpa [next] using advance_fits (hcov rid now rfl) now (h rid)
      · simpa [next, hr] using h rid
  | keys store => exact h rid
  | forgetRate keyId => exact h rid
  | forgetSpend keyId => exact h rid
  | evict cacheKey => exact h rid

@[simp] theorem advance_keys (sys : System) (rid : ℕ) (g : Gateway) (now : Clock) (ph : Phase) :
    (advance sys rid g now ph).1.keys = g.keys := by
  cases ph <;> rfl

end VaultplaneGateway.RequestInterleaving
