import VaultplaneGateway.AdminApi
import VaultplaneGateway.ProviderCalls

/-!
# Readiness

A background task probes the providers and sets the flag that `GET /admin/readyz` shows.
A probe takes the runtime that is current when it starts and asks each connector of its
routes once, whatever the order in which the models are listed; it is in favour if some
provider answers, or if there is nothing to route to. A reload in the meantime does not
change the probe, and the flag keeps the verdict of the last one that ended.
-/
namespace VaultplaneGateway.Readiness
open ConfigOverlay ModelRegistry RuntimeBuilding ControlNodeClient ProviderCalls TransitionRuns
  FallibleComputations

variable {κ α : Type}

/-- Which addresses answer a request in time, with any status. -/
abbrev Network (κ : Type) := κ → String → Bool

def httpReachable (net : Network κ) (client : κ) (url : String) : Bool :=
  if url.isEmpty then false else net client url

def reachable (net : Network κ) : RuntimeBuilding.Connector κ → Bool
  | .openai c => httpReachable net c.client c.baseUrl
  | .anthropic c => httpReachable net c.client c.baseUrl
  | .azure c => httpReachable net c.client c.baseUrl
  | .bedrock c => httpReachable net c.client c.endpoint

/-- The connectors of routes, the first one of each name. -/
def distinct (name : α → String) (seen : List String) : List (ResolvedRoute α) → List α
  | [] => []
  | route :: routes =>
      if seen.contains (name route.connector) then distinct name seen routes
      else route.connector :: distinct name (name route.connector :: seen) routes

/-- `Registry::reachable`, for the models in the order in which the map lists them. -/
def registryReachable (name : α → String) (probe : α → Bool) (values : List (ResolvedModel α)) :
    Bool :=
  let connectors := distinct name [] (values.flatMap ResolvedModel.routes)
  if connectors.isEmpty then true else connectors.any probe

section
variable {name : α → String} {probe : α → Bool}

theorem distinct_isEmpty (name : α → String) (routes : List (ResolvedRoute α)) :
    (distinct name [] routes).isEmpty = routes.isEmpty := by
  cases routes <;> rfl

/-- Connectors of one name answer alike, so it is enough to ask one of them. -/
theorem any_distinct {seen : List String} {routes : List (ResolvedRoute α)}
    (h : ∀ r ∈ routes, ∀ r' ∈ routes, name r.connector = name r'.connector →
      probe r.connector = probe r'.connector)
    (hseen : ∀ r ∈ routes, name r.connector ∈ seen → probe r.connector = false) :
    (distinct name seen routes).any probe = routes.any fun r => probe r.connector := by
  induction routes generalizing seen with
  | nil => rfl
  | cons route routes ih =>
      have htail : ∀ r ∈ routes, ∀ r' ∈ routes, name r.connector = name r'.connector →
          probe r.connector = probe r'.connector := fun r hr r' hr' =>
        h r (List.mem_cons_of_mem route hr) r' (List.mem_cons_of_mem route hr')
      rw [distinct, List.any_cons]
      by_cases hmem : name route.connector ∈ seen
      · rw [if_pos (List.contains_iff_mem.mpr hmem), hseen route List.mem_cons_self hmem,
          Bool.false_or]
        exact ih htail fun r hr => hseen r (List.mem_cons_of_mem route hr)
      · rw [if_neg (fun hc => hmem (List.contains_iff_mem.mp hc)), List.any_cons]
        cases hprobe : probe route.connector with
        | true => rw [Bool.true_or, Bool.true_or]
        | false =>
            rw [Bool.false_or, Bool.false_or]
            refine ih htail ?_
            intro r hr hname
            rcases List.mem_cons.mp hname with heq | hold
            · rw [← hprobe]
              exact h r (List.mem_cons_of_mem route hr) route List.mem_cons_self heq
            · exact hseen r (List.mem_cons_of_mem route hr) hold

theorem registryReachable_iff {values : List (ResolvedModel α)}
    (h : ∀ m ∈ values, ∀ r ∈ m.routes, ∀ m' ∈ values, ∀ r' ∈ m'.routes,
      name r.connector = name r'.connector → probe r.connector = probe r'.connector) :
    registryReachable name probe values = true ↔
      (∀ m ∈ values, m.routes = []) ∨ ∃ m ∈ values, ∃ r ∈ m.routes, probe r.connector = true := by
  have hany : (distinct name [] (values.flatMap ResolvedModel.routes)).any probe =
      (values.flatMap ResolvedModel.routes).any fun r => probe r.connector := by
    apply any_distinct
    · intro r hr r' hr'
      obtain ⟨m, hm, hr⟩ := List.mem_flatMap.mp hr
      obtain ⟨m', hm', hr'⟩ := List.mem_flatMap.mp hr'
      exact h m hm r hr m' hm' r' hr'
    · intro r _ hr
      exact (List.not_mem_nil hr).elim
  simp only [registryReachable, distinct_isEmpty, hany]
  by_cases hempty : (values.flatMap ResolvedModel.routes).isEmpty = true
  · rw [if_pos hempty]
    exact iff_of_true rfl (.inl (List.flatMap_eq_nil_iff.mp (List.isEmpty_iff.mp hempty)))
  · rw [if_neg hempty, List.any_eq_true]
    constructor
    · intro hex
      obtain ⟨r, hr, hprobe⟩ := hex
      obtain ⟨m, hm, hr⟩ := List.mem_flatMap.mp hr
      exact .inr ⟨m, hm, r, hr, hprobe⟩
    · intro hor
      rcases hor with hnil | hex
      · exact (hempty (List.isEmpty_iff.mpr (List.flatMap_eq_nil_iff.mpr hnil))).elim
      · obtain ⟨m, hm, r, hr, hprobe⟩ := hex
        exact ⟨r, List.mem_flatMap.mpr ⟨m, hm, hr⟩, hprobe⟩

end

/-- The address by which a provider is probed. -/
def providerUrl (p : Providers) (provider : String) : String :=
  if provider = "openai" then trimSlashes p.openai.baseUrl
  else if provider = "anthropic" then trimSlashes p.anthropic.baseUrl
  else if provider = "azure" then trimSlashes p.azure.baseUrl
  else "https://bedrock-runtime." ++ p.bedrock.region ++ ".amazonaws.com"

/-- The provider has an address and answers there. -/
def Answers (host : Host κ) (p : Providers) (net : Network κ) (provider : String) : Prop :=
  ∃ client, host.client = .ok client ∧ providerUrl p provider ≠ "" ∧
    net client (providerUrl p provider) = true

/-- No model is configured, or a provider of a route answers. Of two models of one name
the last one counts. -/
def Serving (host : Host κ) (config : Config) (net : Network κ) : Prop :=
  config.models = [] ∨ ∃ m, lastNamed config.models m.name = some m ∧
    ∃ r ∈ routesOf m, Answers host config.providers net r.provider

/-- A configuration with the runtime that is built from it and its models in the order
in which the map lists them. -/
structure Generation (host : Host κ) where
  config : Config
  runtime : BuiltRuntime κ
  built : buildRuntime host config = .ok runtime
  values : List (ResolvedModel (RuntimeBuilding.Connector κ))
  listed : ∀ resolved, resolved ∈ values ↔ ∃ name, runtime.connector.models name = some resolved

def Generation.reachable {host : Host κ} (g : Generation host) (net : Network κ) : Bool :=
  registryReachable ModelListing.Connector.name (Readiness.reachable net) g.values

theorem httpReachable_iff {net : Network κ} {client : κ} {url : String} :
    httpReachable net client url = true ↔ url ≠ "" ∧ net client url = true := by
  unfold httpReachable
  split_ifs with hurl
  · refine iff_of_false not_false ?_
    intro h
    exact h.1 (String.isEmpty_iff.mp hurl)
  · constructor
    · intro h
      exact ⟨fun heq => hurl (String.isEmpty_iff.mpr heq), h⟩
    · intro h
      exact h.2

theorem reachable_iff_answers {host : Host κ} {p : Providers}
    {table : String → Option (RuntimeBuilding.Connector κ)} (h : connectors host p = .ok table)
    {provider : String} {c : RuntimeBuilding.Connector κ} (hc : table provider = some c)
    (net : Network κ) : reachable net c = true ↔ Answers host p net provider := by
  obtain ⟨client, hclient, rfl⟩ := connectors_eq h
  have hurl : reachable net c = httpReachable net client (providerUrl p provider) := by
    rcases connectorTable_cases hc with ⟨rfl, rfl⟩ | ⟨rfl, rfl⟩ | ⟨rfl, rfl⟩ | ⟨rfl, rfl⟩
    · rfl
    · rfl
    · rfl
    · rfl
  rw [hurl, httpReachable_iff, Answers, hclient]
  constructor
  · intro hnet
    exact ⟨client, rfl, hnet⟩
  · intro hnet
    obtain ⟨client', hclient', hnet⟩ := hnet
    obtain rfl := Except.ok.inj hclient'
    exact hnet

section
variable {host : Host κ} {config : Config} {runtime : BuiltRuntime κ}
variable {table : String → Option (RuntimeBuilding.Connector κ)}

/-- A model that is registered is a configured one that no later one replaces. -/
theorem registered_iff (hnew : Registry.new table config.models = .ok runtime.connector)
    {resolved : ResolvedModel (RuntimeBuilding.Connector κ)} :
    (∃ name, runtime.connector.models name = some resolved) ↔
      ∃ m, lastNamed config.models m.name = some m ∧ resolveModel table m = .ok resolved := by
  simp only [Registry.new_models hnew]
  constructor
  · intro h
    obtain ⟨name, m, hlast, hresolve⟩ := h
    refine ⟨m, ?_, hresolve⟩
    rw [(lastNamed_mem hlast).2]
    exact hlast
  · intro h
    obtain ⟨m, hlast, hresolve⟩ := h
    exact ⟨m.name, m, hlast, hresolve⟩

theorem routes_ne_nil {m : ModelConfig} {resolved : ResolvedModel (RuntimeBuilding.Connector κ)}
    (h : resolveModel table m = .ok resolved) : resolved.routes ≠ [] := by
  intro hnil
  have hroutes := (resolveModel_eq_ok h).1
  rw [hnil, routesOf] at hroutes
  cases hroutes

/-- Some route of a registered model has an answering connector exactly if some route of
its configuration has an answering provider. -/
theorem probed_iff (htable : connectors host config.providers = .ok table) {m : ModelConfig}
    {resolved : ResolvedModel (RuntimeBuilding.Connector κ)}
    (h : resolveModel table m = .ok resolved) (net : Network κ) :
    (∃ r ∈ resolved.routes, reachable net r.connector = true) ↔
      ∃ r ∈ routesOf m, Answers host config.providers net r.provider := by
  have hroutes := (resolveModel_eq_ok h).1
  constructor
  · intro hex
    obtain ⟨r, hr, hprobe⟩ := hex
    obtain ⟨route, hroute, hconnector, -⟩ := exists_mem_of_forall₂ hroutes hr
    exact ⟨route, hroute, (reachable_iff_answers htable hconnector net).mp hprobe⟩
  · intro hex
    obtain ⟨route, hroute, hanswers⟩ := hex
    obtain ⟨r, hr, hconnector, -⟩ := exists_mem_of_forall₂ (List.Forall₂.flip hroutes) hroute
    exact ⟨r, hr, (reachable_iff_answers htable hconnector net).mpr hanswers⟩

end

/-- The verdict does not depend on the order of the models, nor on which connector of a
name is asked. -/
theorem Generation.reachable_iff {host : Host κ} (g : Generation host) (net : Network κ) :
    g.reachable net = true ↔ Serving host g.config net := by
  obtain ⟨table, htable, hnew, -⟩ := ModelListing.buildRuntime_parts g.built
  have hlisted {m : ResolvedModel (RuntimeBuilding.Connector κ)} := (g.listed m).trans
    (registered_iff hnew)
  unfold Generation.reachable
  rw [registryReachable_iff]
  · apply or_congr
    · constructor
      · intro hall
        by_contra hne
        obtain ⟨m, hm⟩ := List.exists_mem_of_ne_nil _ hne
        have hregistered := (Registry.new_registered hnew).mpr (List.mem_map.mpr ⟨m, hm, rfl⟩)
        obtain ⟨resolved, hresolved⟩ := Option.isSome_iff_exists.mp hregistered
        obtain ⟨m', -, hresolve⟩ := (registered_iff hnew).mp ⟨m.name, hresolved⟩
        exact routes_ne_nil hresolve (hall resolved ((g.listed resolved).mpr ⟨m.name, hresolved⟩))
      · intro hnil resolved hmem
        obtain ⟨m, hlast, -⟩ := hlisted.mp hmem
        have hmem := (lastNamed_mem hlast).1
        rw [hnil] at hmem
        cases hmem
    · constructor
      · intro hex
        obtain ⟨resolved, hmem, hprobed⟩ := hex
        obtain ⟨m, hlast, hresolve⟩ := hlisted.mp hmem
        exact ⟨m, hlast, (probed_iff htable hresolve net).mp hprobed⟩
      · intro hex
        obtain ⟨m, hlast, hanswers⟩ := hex
        have hregistered := (Registry.new_registered hnew).mpr
          (List.mem_map.mpr ⟨m, (lastNamed_mem hlast).1, rfl⟩)
        obtain ⟨resolved, hresolved⟩ := Option.isSome_iff_exists.mp hregistered
        obtain ⟨m', hlast', hresolve⟩ := (Registry.new_models hnew).mp hresolved
        obtain rfl := Option.some.inj (hlast.symm.trans hlast')
        exact ⟨resolved, (g.listed resolved).mpr ⟨m.name, hresolved⟩,
          (probed_iff htable hresolve net).mpr hanswers⟩
  · -- A connector is found under its own name.
    have hroute {m : ResolvedModel (RuntimeBuilding.Connector κ)} (hm : m ∈ g.values)
        {r : ResolvedRoute (RuntimeBuilding.Connector κ)} (hr : r ∈ m.routes) :
        ∃ provider, table provider = some r.connector := by
      obtain ⟨name, hname⟩ := (g.listed m).mp hm
      obtain ⟨provider, hprovider, -⟩ := configured_route hnew hname hr
      exact ⟨provider, hprovider⟩
    intro m hm r hr m' hm' r' hr' hname
    obtain ⟨provider, hprovider⟩ := hroute hm hr
    obtain ⟨provider', hprovider'⟩ := hroute hm' hr'
    rw [ModelListing.name_of_connectors htable hprovider,
      ModelListing.name_of_connectors htable hprovider'] at hname
    rw [hname, hprovider'] at hprovider
    rw [Option.some.inj hprovider]

/-- A probe that ended. -/
structure Verdict (host : Host κ) where
  generation : Generation host
  net : Network κ

/-- The current runtime, that of the probe under way, and the flag. The probes that ended
are kept beside, the last one first; no step reads them. -/
structure State (host : Host κ) where
  current : Generation host
  probing : Option (Generation host)
  ready : Bool
  verdicts : List (Verdict host)

def State.start {host : Host κ} (g : Generation host) : State host := ⟨g, none, false, []⟩

inductive Event (host : Host κ) where
  | begins
  | ends (net : Network κ)
  | reload (g : Generation host)

/-- The task begins a probe only after the one before has ended. -/
def next {host : Host κ} (s : State host) : Event host → State host
  | .begins =>
      match s.probing with
      | none => { s with probing := some s.current }
      | some _ => s
  | .ends net =>
      match s.probing with
      | some g => ⟨s.current, none, g.reachable net, ⟨g, net⟩ :: s.verdicts⟩
      | none => s
  | .reload g => { s with current := g }

section
variable {host : Host κ}

theorem next_begins {s : State host} (h : s.probing = none) :
    next s .begins = { s with probing := some s.current } := by
  rw [next, h]

theorem next_begins_busy {s : State host} {g : Generation host} (h : s.probing = some g) :
    next s .begins = s := by
  rw [next, h]

theorem next_ends {s : State host} {g : Generation host} (h : s.probing = some g)
    (net : Network κ) :
    next s (.ends net) = ⟨s.current, none, g.reachable net, ⟨g, net⟩ :: s.verdicts⟩ := by
  rw [next, h]

theorem next_ends_idle {s : State host} (h : s.probing = none) (net : Network κ) :
    next s (.ends net) = s := by
  rw [next, h]

/-- The probe under way has begun with the runtime of that moment, and it has not ended. -/
def Pending (g : Generation host) (es : List (Event host)) (probed : Generation host) : Prop :=
  ∃ es₁ es₂, es = es₁ ++ .begins :: es₂ ∧ probed = (run next (.start g) es₁).current ∧
    ∀ net, .ends net ∉ es₂

/-- A probe that ended has begun with the runtime of its beginning. -/
def Ended (g : Generation host) (es : List (Event host)) (v : Verdict host) : Prop :=
  ∃ es₁ es₂ es₃, es = es₁ ++ .begins :: (es₂ ++ .ends v.net :: es₃) ∧
    v.generation = (run next (.start g) es₁).current ∧ ∀ net, .ends net ∉ es₂

structure Probed (g : Generation host) (es : List (Event host)) (s : State host) : Prop where
  pending : ∀ probed, s.probing = some probed → Pending g es probed
  ended : ∀ v ∈ s.verdicts, Ended g es v
  flag : s.ready = true ↔ ∃ v, s.verdicts.head? = some v ∧ Serving host v.generation.config v.net

theorem Ended.snoc {g : Generation host} {es : List (Event host)} {v : Verdict host}
    (h : Ended g es v) (e : Event host) : Ended g (es ++ [e]) v := by
  obtain ⟨es₁, es₂, es₃, rfl, hgen, hnone⟩ := h
  exact ⟨es₁, es₂, es₃ ++ [e], by simp, hgen, hnone⟩

theorem Pending.snoc {g probed : Generation host} {es : List (Event host)}
    (h : Pending g es probed) {e : Event host} (he : ∀ net, e ≠ .ends net) :
    Pending g (es ++ [e]) probed := by
  obtain ⟨es₁, es₂, rfl, hgen, hnone⟩ := h
  refine ⟨es₁, es₂ ++ [e], by simp, hgen, ?_⟩
  intro net hmem
  rcases List.mem_append.mp hmem with hold | hnew
  · exact hnone net hold
  · exact he net (List.mem_singleton.mp hnew).symm

theorem Pending.ends {g probed : Generation host} {es : List (Event host)}
    (h : Pending g es probed) (net : Network κ) :
    Ended g (es ++ [.ends net]) ⟨probed, net⟩ := by
  obtain ⟨es₁, es₂, rfl, hgen, hnone⟩ := h
  exact ⟨es₁, es₂, [], by simp, hgen, hnone⟩

theorem probed_run (g : Generation host) (es : List (Event host)) :
    Probed g es (run next (.start g) es) := by
  induction es using List.reverseRecOn with
  | nil =>
      refine ⟨?_, ?_, iff_of_false Bool.false_ne_true ?_⟩
      · intro probed hprobed
        cases hprobed
      · intro v hv
        cases hv
      · intro hex
        obtain ⟨v, hv, -⟩ := hex
        cases hv
  | append_singleton es e ih =>
      have hended := fun v hv => (ih.ended v hv).snoc e
      rw [run_append, run_cons, run_nil]
      cases e with
      | begins =>
          cases hprobing : (run next (.start g) es).probing with
          | some probed =>
              rw [next_begins_busy hprobing]
              refine ⟨?_, hended, ih.flag⟩
              intro probed' hprobed
              apply (ih.pending probed' hprobed).snoc
              intro net heq
              cases heq
          | none =>
              rw [next_begins hprobing]
              refine ⟨?_, hended, ih.flag⟩
              intro probed hprobed
              obtain rfl := Option.some.inj hprobed
              exact ⟨es, [], rfl, rfl, fun net => List.not_mem_nil⟩
      | ends net =>
          cases hprobing : (run next (.start g) es).probing with
          | none =>
              rw [next_ends_idle hprobing]
              refine ⟨?_, hended, ih.flag⟩
              intro probed hprobed
              rw [hprobing] at hprobed
              cases hprobed
          | some probed =>
              rw [next_ends hprobing]
              refine ⟨?_, ?_, ?_⟩
              · intro probed' hprobed
                cases hprobed
              · intro v hv
                rcases List.mem_cons.mp hv with rfl | hold
                · exact (ih.pending probed hprobing).ends net
                · exact hended v hold
              · rw [Generation.reachable_iff]
                constructor
                · intro hserving
                  exact ⟨⟨probed, net⟩, rfl, hserving⟩
                · intro hex
                  obtain ⟨v, hv, hserving⟩ := hex
                  obtain rfl := Option.some.inj hv
                  exact hserving
      | reload g' =>
          refine ⟨?_, hended, ih.flag⟩
          intro probed hprobed
          apply (ih.pending probed hprobed).snoc
          intro net heq
          cases heq

/-- In every order of probes and reloads, `/admin/readyz` answers 200 exactly if a probe
has ended and the last one found that the configuration of its beginning has no models or
that a provider of one of its routes answered. -/
theorem readyz_tells_the_last_probe (g : Generation host) (es : List (Event host)) :
    let s := run next (.start g) es
    (AdminApi.readyz s.ready = .text 200 "ready" ↔
      ∃ v, s.verdicts.head? = some v ∧ Serving host v.generation.config v.net) ∧
    ∀ v ∈ s.verdicts, Ended g es v := by
  intro s
  have h := probed_run g es
  refine ⟨?_, h.ended⟩
  rw [← h.flag]
  change _ ↔ s.ready = true
  cases s.ready with
  | true => exact iff_of_true rfl rfl
  | false => exact iff_of_false nofun nofun

end

/-- A configuration without models. -/
def emptyGeneration : Generation sampleHost where
  config := {}
  runtime := emptyRuntime
  built := emptyRuntime_built
  values := []
  listed resolved := by
    refine iff_of_false List.not_mem_nil ?_
    intro h
    obtain ⟨name, h⟩ := h
    cases h

example : (run next (.start emptyGeneration) [.begins, .reload emptyGeneration]).ready = false ∧
    (run next (.start emptyGeneration) [.begins, .ends fun _ _ => false]).ready = true :=
  ⟨rfl, rfl⟩

end VaultplaneGateway.Readiness
