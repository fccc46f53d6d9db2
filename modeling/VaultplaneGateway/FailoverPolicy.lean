import VaultplaneGateway.ProviderFailover

/-!
# The failover policy

Stated without a loop: the first route to answer with a status that is not to be retried
decides, or the last route if none does. The routes up to it are asked, once each and in
order, and each route before it leaves one event that names the next. Both dispatch loops
do this on the outcomes of the routes, for every model that a registry has.
-/
namespace VaultplaneGateway.FailoverPolicy
open WireFormats ProxyPipeline ConfigOverlay ModelRegistry ProviderFailover

variable {κ : Type}

/-- The route answers, and not with a status to be retried. -/
def settles (retryOn : UInt16 → Bool) : RouteOutcome → Bool
  | .answered response => !retryOn response.status
  | _ => false

/-- The first of `n` routes whose outcome settles the request, or the last one. -/
def decisive (retryOn : UInt16 → Bool) (outcome : ℕ → RouteOutcome) (n : ℕ) : ℕ :=
  ((List.range n).find? fun j => settles retryOn (outcome j)).getD (n - 1)

/-- What the client gets from the route that decides. -/
def answer (name : String) (index : ℕ) : RouteOutcome → Except CoreError ChatResponse
  | .answered response => .ok { response with attempts := (index + 1).toUInt32 }
  | .failed err => .error err
  | .timedOut => .error (.upstreamTimeout
      ("request timed out on all configured providers (last: " ++ name ++ ")"))

/-- Connectors whose outcomes are assigned to the routes. -/
def assigned (name : κ → String) (outcome : ℕ → RouteOutcome) : Providers κ where
  name := name
  ask index _ _ := some (outcome index)

/-- The event for leaving route `j`. -/
def failoverAt (P : Providers κ) (resolved : ResolvedModel κ) (virtualModel : String)
    (outcome : ℕ → RouteOutcome) (j : ℕ) : FailoverEvent :=
  ⟨virtualModel, routeName P resolved j, routeName P resolved (j + 1),
    failoverReason resolved (outcome j)⟩

theorem final_iff_settles (retryOn : UInt16 → Bool) (outcome : RouteOutcome) :
    Final retryOn (some outcome) ↔ settles retryOn outcome = true := by
  cases outcome <;> simp [Final, settles]

/-- The deciding route is a route; those before it do not settle the request, and it
does or is the last one. -/
theorem decisive_spec (retryOn : UInt16 → Bool) (outcome : ℕ → RouteOutcome) {n : ℕ}
    (hn : 0 < n) :
    decisive retryOn outcome n < n ∧
      (∀ j < decisive retryOn outcome n, settles retryOn (outcome j) = false) ∧
      (settles retryOn (outcome (decisive retryOn outcome n)) = true ∨
        decisive retryOn outcome n = n - 1) := by
  unfold decisive
  cases hfind : (List.range n).find? fun j => settles retryOn (outcome j) with
  | none =>
      rw [List.find?_eq_none] at hfind
      rw [Option.getD_none]
      refine ⟨by omega, fun j hj => ?_, .inr rfl⟩
      exact Bool.eq_false_iff.mpr (hfind j (List.mem_range.mpr (by omega)))
  | some i =>
      obtain ⟨hi, hlt, hbefore⟩ := List.find?_range_eq_some.mp hfind
      rw [Option.getD_some]
      refine ⟨List.mem_range.mp hlt, fun j hj => ?_, .inl hi⟩
      simpa using hbefore j hj

section
variable {name : κ → String} {outcome : ℕ → RouteOutcome} {resolved : ResolvedModel κ}
variable {virtualModel : String} {attempt : String → ConnectorCall} {i : ℕ}

/-- From `index` on, the loop asks the routes up to the deciding one. -/
theorem tryRoutes_assigned (index : ℕ) {routes : List (ResolvedRoute κ)}
    (hrest : resolved.routes.drop index = routes) (hle : index ≤ i)
    (hlt : i < resolved.routes.length)
    (hbefore : ∀ j < i, settles resolved.retryOn (outcome j) = false)
    (hstop : settles resolved.retryOn (outcome i) = true ∨ i = resolved.routes.length - 1) :
    tryRoutes (assigned name outcome) resolved virtualModel attempt index routes =
      ⟨some (answer (routeName (assigned name outcome) resolved i) i (outcome i)),
        (routes.take (i + 1 - index)).map fun r => (r.connector, attempt r.model),
        (List.range' index (i - index)).map
          (failoverAt (assigned name outcome) resolved virtualModel outcome)⟩ := by
  -- by induction on the routes that are left; the deciding one is among them
  induction routes generalizing index with
  | nil =>
      have := congrArg List.length hrest
      rw [List.length_drop, List.length_nil] at this
      omega
  | cons route routes ih =>
      obtain ⟨hhead, htail⟩ := routed_of_drop hrest
      have hname : routeName (assigned name outcome) resolved index = name route.connector := by
        rw [routeName, hhead]
        rfl
      by_cases hindex : index = i
      · subst hindex
        have hfinal := hstop.imp_left (final_iff_settles resolved.retryOn (outcome index)).mpr
        rw [tryRoutes_stop (P := assigned name outcome) hfinal, hname, Nat.add_sub_cancel_left,
          Nat.sub_self, List.range'_zero]
        cases hout : outcome index <;> simp [assigned, concluded, answer, hout]
      · have hnot : ¬ Final resolved.retryOn (some (outcome index)) := by
          rw [final_iff_settles, hbefore index (by omega)]
          decide
        have hrange : i - index = (i - (index + 1)) + 1 := by omega
        have htake : i + 1 - index = (i + 1 - (index + 1)) + 1 := by omega
        rw [tryRoutes_continue (P := assigned name outcome) rfl hnot (by omega),
          ih (index + 1) htail (by omega), hrange, htake, List.range'_succ, List.take_succ_cons]
        simp only [List.map_cons, failoverAt, hname]
        rfl

end

theorem routes_pos {connectors : String → Option κ} {m : ModelConfig} {resolved : ResolvedModel κ}
    (h : resolveModel connectors m = .ok resolved) : 0 < resolved.routes.length := by
  rw [← (resolveModel_eq_ok h).1.length_eq, routesOf, List.length_cons]
  omega

theorem attempts_of_answer {name : String} {index : ℕ} {outcome : RouteOutcome}
    {response : ChatResponse} (h : answer name index outcome = .ok response) :
    response.attempts = (index + 1).toUInt32 := by
  cases outcome with
  | answered r =>
      obtain rfl := Except.ok.inj h
      rfl
  | failed err => cases h
  | timedOut => cases h

/-- A provider's error is answered only for the route that failed with it. -/
theorem failed_of_answer {name : String} {index : ℕ} {outcome : RouteOutcome} {text : String}
    (h : answer name index outcome = .error (.provider text)) :
    outcome = .failed (.provider text) := by
  cases outcome with
  | answered r => cases h
  | failed err =>
      obtain rfl := Except.error.inj h
      rfl
  | timedOut => cases h

/-- For every model of a registry and every assignment of outcomes to its routes: the
routes are those of the configuration, both loops ask exactly those up to the deciding
one, each for its own model and with the body of the request, and both return its answer
and write one event for each route before it. The end of the loop is not reached: its
error is returned only if the deciding route fails with it. -/
theorem dispatch_follows_policy {connectors : String → Option κ} {models : List ModelConfig}
    {registry : Registry κ} (hnew : Registry.new connectors models = .ok registry)
    {virtualModel : String} {resolved : ResolvedModel κ}
    (hmodel : registry.models virtualModel = some resolved) (name : κ → String)
    (outcome : ℕ → RouteOutcome) (request : ConnectorCall) :
    let P := assigned name outcome
    let i := decisive resolved.retryOn outcome resolved.routes.length
    let chat := dispatch P resolved virtualModel request
    let embeddings := dispatchEmbeddings P resolved virtualModel request
    (∃ m ∈ models, m.name = virtualModel ∧
      List.Forall₂ (fun route r => connectors route.provider = some r.connector ∧
        r.model = route.model) (m.primary :: m.fallbacks) resolved.routes ∧
      ∀ status, resolved.retryOn status = m.retryOn.contains status) ∧
    i < resolved.routes.length ∧
    chat.calls = (resolved.routes.take (i + 1)).map (fun r =>
      (r.connector, ⟨.chat, r.model, request.stream, request.body⟩)) ∧
    embeddings.calls = (resolved.routes.take (i + 1)).map (fun r =>
      (r.connector, ⟨.embeddings, r.model, false, request.body⟩)) ∧
    chat.result = some (answer (routeName P resolved i) i (outcome i)) ∧
    (∀ response, chat.result = some (.ok response) → resolved.routes.length < 2 ^ 32 →
      response.attempts.toNat = i + 1) ∧
    (chat.result = some (.error (.provider "no providers were attempted")) →
      outcome i = .failed (.provider "no providers were attempted")) ∧
    chat.failovers = (List.range i).map (failoverAt P resolved virtualModel outcome) ∧
    embeddings.result = chat.result ∧ embeddings.failovers = chat.failovers := by
  intro P i chat embeddings
  obtain ⟨m, hlast, hresolve⟩ := (Registry.new_models hnew).mp hmodel
  obtain ⟨hm, hname⟩ := lastNamed_mem hlast
  obtain ⟨hroutes, hretry, -⟩ := resolveModel_eq_ok hresolve
  obtain ⟨hlt, hbefore, hstop⟩ :=
    decisive_spec resolved.retryOn outcome (routes_pos hresolve)
  have hchat : chat = _ := tryRoutes_assigned 0 rfl (Nat.zero_le _) hlt hbefore hstop
  have hembeddings : embeddings = _ :=
    tryRoutes_assigned 0 rfl (Nat.zero_le _) hlt hbefore hstop
  refine ⟨⟨m, hm, hname, hroutes, hretry⟩, hlt, by rw [hchat]; rfl, by rw [hembeddings]; rfl,
    by rw [hchat], fun response hresponse hlength => ?_, fun herror => ?_, ?_,
    by rw [hchat, hembeddings], by rw [hchat, hembeddings]⟩
  · rw [hchat] at hresponse
    rw [attempts_of_answer (Option.some.inj hresponse)]
    exact Nat.mod_eq_of_lt (by omega)
  · rw [hchat] at herror
    exact failed_of_answer (Option.some.inj herror)
  · rw [hchat, List.range_eq_range']
    rfl

/-- Three routes over two connectors. -/
def sampleModel : ModelConfig where
  name := "smart"
  primary := ⟨"openai", "gpt-4o"⟩
  fallbacks := [⟨"azure", "large"⟩, ⟨"openai", "gpt-4o-mini"⟩]

def sampleConnectors (provider : String) : Option Bool :=
  if provider = "openai" then some true else if provider = "azure" then some false else none

def sampleOutcome : ℕ → RouteOutcome
  | 0 => .timedOut
  | _ => .failed (.provider "connection refused")

theorem dispatch_follows_policy_sample :
    ∃ registry resolved, Registry.new sampleConnectors [sampleModel] = .ok registry ∧
      registry.models "smart" = some resolved ∧
      let chat := dispatch (assigned toString sampleOutcome) resolved "smart"
        ⟨.chat, "smart", false, []⟩
      chat.result = some (.error (.provider "connection refused")) ∧
        chat.failovers = [⟨"smart", "true", "false", "timeout after 30000ms"⟩,
          ⟨"smart", "false", "true", "provider error: connection refused"⟩] := by
  have hpolicy := @dispatch_follows_policy Bool sampleConnectors [sampleModel] _ rfl "smart" _ rfl
    toString sampleOutcome ⟨.chat, "smart", false, []⟩
  obtain ⟨-, -, -, -, hresult, -, -, hfailovers, -, -⟩ := hpolicy
  exact ⟨_, _, rfl, rfl, hresult, hfailovers⟩

end VaultplaneGateway.FailoverPolicy
