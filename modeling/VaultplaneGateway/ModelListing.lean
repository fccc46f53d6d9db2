import VaultplaneGateway.ProviderFailover
import VaultplaneGateway.RuntimeBuilding

/-!
# The listing of models and the registry

A runtime has a list of its models beside the registry that routes them. Both are built
from the configured models: the list has one entry for each, the registry one for each
name. Two endpoints serve the list. It tells what the registry does exactly if no name
is configured twice.
-/
namespace VaultplaneGateway.ModelListing
open WireFormats ProxyPipeline ConfigOverlay FallibleComputations ModelRegistry RuntimeBuilding
open ProviderFailover hiding Providers

variable {κ : Type}

def Connector.name : Connector κ → String
  | .openai _ => "openai"
  | .anthropic _ => "anthropic"
  | .azure _ => "azure"
  | .bedrock _ => "bedrock"

/-- The connector for a model that is not in the registry. -/
def fallbackConnector (registry : Registry κ) (model : String) : Option κ :=
  let provider := if (stripPrefix model "claude").isSome then "anthropic" else "openai"
  registry.connectors provider

/-- `direct` is a call without a timeout around it. -/
def Registry.chat (P : ProviderFailover.Providers κ)
    (direct : κ → ConnectorCall → Option (Except CoreError ChatResponse)) (registry : Registry κ)
    (request : ConnectorCall) : Dispatched κ :=
  match registry.models request.model with
  | some resolved => ProviderFailover.dispatch P resolved request.model request
  | none =>
      match fallbackConnector registry request.model with
      | some connector => ⟨direct connector request, [(connector, request)], []⟩
      | none => ⟨some (.error (.provider
          ("no provider configured for model '" ++ request.model ++ "'"))), [], []⟩

/-- `GET /v1/models`. -/
def listModels (runtime : BuiltRuntime κ) : Json :=
  .object [("data", .array (runtime.models.map fun m =>
      .object [("id", .string m.id), ("object", .string "model"), ("owned_by", .string m.provider)])),
    ("object", .string "list")]

/-- `GET /admin/models`. -/
def adminListModels (runtime : BuiltRuntime κ) : Json :=
  .object [("data", .array (runtime.models.map fun m =>
    .object [("id", .string m.id), ("provider", .string m.provider)]))]

/-- The names of a listing with the providers given for them. -/
def entries (providerField : String) (listing : Json) : List (Option String × Option String) :=
  match listing.get "data" with
  | some (.array items) => items.map fun item =>
      ((item.get "id").bind Json.asStr, (item.get providerField).bind Json.asStr)
  | _ => []

theorem entries_listModels (runtime : BuiltRuntime κ) :
    entries "owned_by" (listModels runtime) =
      runtime.models.map fun m => (some m.id, some m.provider) := by
  simp [entries, listModels, Json.get, Json.asStr]

theorem entries_adminListModels (runtime : BuiltRuntime κ) :
    entries "provider" (adminListModels runtime) =
      runtime.models.map fun m => (some m.id, some m.provider) := by
  simp [entries, adminListModels, Json.get, Json.asStr]

/-- Every name of the registry is listed once, with the provider that a request for it
goes to first, whatever the providers answer. -/
def Truthful (runtime : BuiltRuntime κ) (listed : List (Option String × Option String)) : Prop :=
  ∀ name, (runtime.connector.models name).isSome = true →
    (listed.filter fun e => e.1 == some name).length = 1 ∧
    ∀ e ∈ listed, e.1 = some name →
      ∀ ask direct (request : ConnectorCall), request.model = name →
        e.2 = ((Registry.chat ⟨Connector.name, ask⟩ direct runtime.connector request).calls.head?).map
          fun call => Connector.name call.1

/-- A connector is found under its own name. -/
theorem name_of_connectors {host : Host κ} {p : Providers} {table : String → Option (Connector κ)}
    (h : connectors host p = .ok table) {provider : String} {connector : Connector κ}
    (hconnector : table provider = some connector) : Connector.name connector = provider := by
  simp only [connectors, bind_eq_ok] at h
  obtain ⟨openai, -, anthropic, -, azure, -, bedrock, -, htable⟩ := h
  obtain rfl := Except.ok.inj htable
  unfold connectorTable at hconnector
  split_ifs at hconnector with h1 h2 h3 h4
  · rw [← Option.some.inj hconnector, h1]
    rfl
  · rw [← Option.some.inj hconnector, h2]
    rfl
  · rw [← Option.some.inj hconnector, h3]
    rfl
  · rw [← Option.some.inj hconnector, h4]
    rfl

/-- The first question of a dispatch goes to the first route. -/
theorem head_calls_tryRoutes (P : ProviderFailover.Providers κ) (resolved : ResolvedModel κ)
    (virtualModel : String) (attempt : String → ConnectorCall) (index : ℕ)
    (route : ResolvedRoute κ) (routes : List (ResolvedRoute κ)) :
    (tryRoutes P resolved virtualModel attempt index (route :: routes)).calls.head? =
      some (route.connector, attempt route.model) := by
  rw [tryRoutes]
  rcases P.ask index route.connector (attempt route.model) with _ | response | err | _
  · rfl
  · dsimp only
    split_ifs <;> rfl
  · dsimp only
    split_ifs <;> rfl
  · dsimp only
    split_ifs <;> rfl

/-- What a build leaves of the configured models. -/
theorem buildRuntime_parts {host : Host κ} {config : Config} {runtime : BuiltRuntime κ}
    (h : buildRuntime host config = .ok runtime) :
    ∃ table, connectors host config.providers = .ok table ∧
      Registry.new table config.models = .ok runtime.connector ∧
      runtime.models = config.models.map fun m => ⟨m.name, m.primary.provider⟩ := by
  simp only [buildRuntime, bind_eq_ok] at h
  obtain ⟨table, htable, registry, hregistry, cache, -, plugins, -, hruntime⟩ := h
  obtain rfl := Except.ok.inj hruntime
  exact ⟨table, htable, mapError_eq_ok.mp hregistry, rfl⟩

section
variable {host : Host κ} {config : Config} {runtime : BuiltRuntime κ}

/-- A request for a configured name goes to the primary provider of the last model of
that name. -/
theorem first_provider (h : buildRuntime host config = .ok runtime) {name : String}
    {m : ModelConfig} (hlast : lastNamed config.models name = some m)
    (ask : ℕ → Connector κ → ConnectorCall → Option RouteOutcome)
    (direct : Connector κ → ConnectorCall → Option (Except CoreError ChatResponse))
    {request : ConnectorCall} (hrequest : request.model = name) :
    ((Registry.chat ⟨Connector.name, ask⟩ direct runtime.connector request).calls.head?).map
      (fun call => Connector.name call.1) = some m.primary.provider := by
  obtain ⟨table, htable, hnew, -⟩ := buildRuntime_parts h
  have hregistered : (runtime.connector.models name).isSome = true := by
    rw [Registry.new_registered hnew, ← lastNamed_isSome, hlast]
    rfl
  obtain ⟨resolved, hresolved⟩ := Option.isSome_iff_exists.mp hregistered
  obtain ⟨m', hlast', hresolve⟩ := (Registry.new_models hnew).mp hresolved
  obtain rfl := Option.some.inj (hlast.symm.trans hlast')
  have hroutes := (resolveModel_eq_ok hresolve).1
  rw [Registry.chat, hrequest, hresolved]
  dsimp only
  rw [ProviderFailover.dispatch]
  cases hroute : resolved.routes with
  | nil =>
      rw [hroute] at hroutes
      cases hroutes
  | cons route routes =>
      rw [hroute] at hroutes
      obtain ⟨⟨hconnector, -⟩, -⟩ := List.forall₂_cons.mp hroutes
      rw [head_calls_tryRoutes, Option.map_some, name_of_connectors htable hconnector]

theorem count_listed (models : List ModelConfig) (name : String) :
    ((models.map fun m => (some m.name, some m.primary.provider)).filter
      fun e => e.1 == some name).length = (models.map ModelConfig.name).count name := by
  rw [← List.countP_eq_length_filter, List.countP_map, List.count, List.countP_map]
  congr 1

theorem truthful_iff_nodup (h : buildRuntime host config = .ok runtime) :
    Truthful runtime (runtime.models.map fun m => (some m.id, some m.provider)) ↔
      (config.models.map ModelConfig.name).Nodup := by
  obtain ⟨table, -, hnew, hmodels⟩ := buildRuntime_parts h
  unfold Truthful
  simp only [hmodels, List.map_map, Function.comp_def, Registry.new_registered hnew, count_listed]
  rw [List.nodup_iff_count_eq_one]
  constructor
  · intro htrue name hname
    exact (htrue name hname).1
  · intro hcount name hname
    refine ⟨hcount name hname, fun e he hename ask direct request hrequest => ?_⟩
    obtain ⟨m, hm, rfl⟩ := List.mem_map.mp he
    obtain ⟨m', hlast⟩ := Option.isSome_iff_exists.mp (lastNamed_isSome.mpr hname)
    obtain ⟨hm', hname'⟩ := lastNamed_mem hlast
    have hsame : m = m' := List.inj_on_of_nodup_map (List.nodup_iff_count_eq_one.mpr hcount) hm hm'
      ((Option.some.inj hename).trans hname'.symm)
    rw [first_provider h hlast ask direct hrequest, hsame]

/-- The listings of both endpoints agree with the routing exactly if no name is
configured twice. -/
theorem listings_agree_iff (h : buildRuntime host config = .ok runtime) :
    (Truthful runtime (entries "owned_by" (listModels runtime)) ↔
      (config.models.map ModelConfig.name).Nodup) ∧
    (Truthful runtime (entries "provider" (adminListModels runtime)) ↔
      (config.models.map ModelConfig.name).Nodup) := by
  rw [entries_listModels, entries_adminListModels]
  exact ⟨truthful_iff_nodup h, truthful_iff_nodup h⟩

end

/-- Two models, the second one with the name given. -/
def twoModels (name : String) : Config where
  models := [{ name := "smart", primary := ⟨"openai", "gpt-4o"⟩ },
    { name := name, primary := ⟨"anthropic", "claude-sonnet-4"⟩ }]

theorem listings_agree_two_names :
    ∃ runtime, buildRuntime sampleHost (twoModels "fast") = .ok runtime ∧
      Truthful runtime (entries "owned_by" (listModels runtime)) ∧
      Truthful runtime (entries "provider" (adminListModels runtime)) := by
  obtain ⟨runtime, h⟩ : Succeeds (buildRuntime sampleHost (twoModels "fast")) := ⟨_, rfl⟩
  have hnodup : ((twoModels "fast").models.map ModelConfig.name).Nodup := by decide
  exact ⟨runtime, h, (listings_agree_iff h).1.mpr hnodup, (listings_agree_iff h).2.mpr hnodup⟩

/-- A name that is configured twice is listed twice, first with a provider that no
request for it goes to. -/
theorem listing_of_repeated_name :
    ∃ runtime, buildRuntime sampleHost (twoModels "smart") = .ok runtime ∧
      entries "owned_by" (listModels runtime) =
        [(some "smart", some "openai"), (some "smart", some "anthropic")] ∧
      ¬ Truthful runtime (entries "owned_by" (listModels runtime)) ∧
      ¬ Truthful runtime (entries "provider" (adminListModels runtime)) := by
  obtain ⟨runtime, h⟩ : Succeeds (buildRuntime sampleHost (twoModels "smart")) := ⟨_, rfl⟩
  obtain ⟨-, -, -, hmodels⟩ := buildRuntime_parts h
  have hlisted : runtime.models.map (fun m => (some m.id, some m.provider)) =
      [(some "smart", some "openai"), (some "smart", some "anthropic")] := by
    rw [hmodels]
    rfl
  have hrepeated : ¬ ((twoModels "smart").models.map ModelConfig.name).Nodup := by decide
  refine ⟨runtime, h, ?_⟩
  rw [entries_listModels, entries_adminListModels]
  exact ⟨hlisted, mt (truthful_iff_nodup h).mp hrepeated, mt (truthful_iff_nodup h).mp hrepeated⟩

end VaultplaneGateway.ModelListing
