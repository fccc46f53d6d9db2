import VaultplaneGateway.ConfigOverlay
import VaultplaneGateway.FallibleComputations
import VaultplaneGateway.ProxyPipeline

/-!
# The model registry

A virtual model resolves to its primary route followed by its fallbacks, each with the
connector of the provider it names. Building a registry fails on the first route whose
provider has no connector; otherwise every configured model is resolved, and of two
models of one name the later one stands.
-/
namespace VaultplaneGateway.ModelRegistry
open ProxyPipeline ConfigOverlay FallibleComputations

variable {κ : Type}

/-- One attempt: a connector and the model to ask it for. -/
structure ResolvedRoute (κ : Type) where
  connector : κ
  model : String

/-- The failover policy of a virtual model. The statuses are a set in the source; only
membership is read. -/
structure ResolvedModel (κ : Type) where
  routes : List (ResolvedRoute κ)
  retryOn : UInt16 → Bool
  timeoutMs : UInt64

structure Registry (κ : Type) where
  connectors : String → Option κ
  models : String → Option (ResolvedModel κ)

/-- Primary first, then the fallbacks in order. -/
def routesOf (m : ModelConfig) : List Route := m.primary :: m.fallbacks

def resolveRoute (connectors : String → Option κ) (model : String) (route : Route) :
    Except CoreError (ResolvedRoute κ) :=
  match connectors route.provider with
  | some connector => .ok ⟨connector, route.model⟩
  | none => .error (.config
      ("model '" ++ model ++ "' references unknown provider '" ++ route.provider ++ "'"))

def resolveModel (connectors : String → Option κ) (m : ModelConfig) :
    Except CoreError (ResolvedModel κ) := do
  let routes ← (routesOf m).mapM (resolveRoute connectors m.name)
  pure ⟨routes, fun status => m.retryOn.contains status, m.timeoutMs⟩

def insertModel (connectors : String → Option κ) (resolved : String → Option (ResolvedModel κ))
    (m : ModelConfig) : Except CoreError (String → Option (ResolvedModel κ)) := do
  let model ← resolveModel connectors m
  pure (Function.update resolved m.name (some model))

def Registry.new (connectors : String → Option κ) (models : List ModelConfig) :
    Except CoreError (Registry κ) := do
  let resolved ← models.foldlM (insertModel connectors) fun _ => none
  pure ⟨connectors, resolved⟩

theorem resolveRoute_succeeds {connectors : String → Option κ} {model : String} {route : Route} :
    Succeeds (resolveRoute connectors model route) ↔ (connectors route.provider).isSome = true := by
  unfold resolveRoute
  cases connectors route.provider <;> simp

theorem insertModel_succeeds {connectors : String → Option κ}
    (resolved : String → Option (ResolvedModel κ)) (m : ModelConfig) :
    Succeeds (insertModel connectors resolved m) ↔
      ∀ r ∈ routesOf m, (connectors r.provider).isSome = true := by
  rw [insertModel, succeeds_bind_pure, resolveModel, succeeds_bind_pure, succeeds_mapM]
  simp only [resolveRoute_succeeds]

/-- A registry is built exactly when every route of every model names a provider that
has a connector. -/
theorem Registry.new_succeeds {connectors : String → Option κ} {models : List ModelConfig} :
    Succeeds (Registry.new connectors models) ↔
      ∀ m ∈ models, ∀ r ∈ routesOf m, (connectors r.provider).isSome = true := by
  rw [Registry.new, succeeds_bind_pure]
  exact succeeds_foldlM insertModel_succeeds _

/-- The configuration that a model of this name is resolved from. -/
def lastNamed (models : List ModelConfig) (name : String) : Option ModelConfig :=
  models.reverse.find? fun m => m.name == name

theorem lastNamed_cons (m : ModelConfig) (models : List ModelConfig) (name : String) :
    lastNamed (m :: models) name =
      (lastNamed models name).or (if m.name = name then some m else none) := by
  unfold lastNamed
  rw [List.reverse_cons, List.find?_append]
  by_cases hname : m.name = name
  · simp [hname]
  · simp [hname]

theorem lastNamed_mem {models : List ModelConfig} {name : String} {m : ModelConfig}
    (h : lastNamed models name = some m) : m ∈ models ∧ m.name = name :=
  ⟨List.mem_reverse.mp (List.mem_of_find?_eq_some h), by simpa using List.find?_some h⟩

theorem insertModel_eq_ok {connectors : String → Option κ} {m : ModelConfig}
    {resolved resolved' : String → Option (ResolvedModel κ)} :
    insertModel connectors resolved m = .ok resolved' ↔
      ∃ model, resolveModel connectors m = .ok model ∧
        resolved' = Function.update resolved m.name (some model) := by
  rw [insertModel, bind_eq_ok]
  constructor
  · rintro ⟨model, hmodel, h⟩
    cases h
    exact ⟨model, hmodel, rfl⟩
  · rintro ⟨model, hmodel, rfl⟩
    exact ⟨model, hmodel, rfl⟩

/-- Of the models of one name the last one stands; other names are as before. -/
theorem foldlM_insertModel {connectors : String → Option κ} {models : List ModelConfig}
    {initial final : String → Option (ResolvedModel κ)}
    (h : models.foldlM (insertModel connectors) initial = .ok final) (name : String) :
    final name = match lastNamed models name with
      | some m => (resolveModel connectors m).toOption
      | none => initial name := by
  induction models generalizing initial with
  | nil =>
      cases h
      rfl
  | cons m models ih =>
      rw [List.foldlM_cons] at h
      obtain ⟨resolved, hinsert, hrest⟩ := bind_eq_ok.mp h
      obtain ⟨model, hmodel, rfl⟩ := insertModel_eq_ok.mp hinsert
      rw [ih hrest, lastNamed_cons]
      cases lastNamed models name with
      | some m' => rfl
      | none =>
          by_cases hname : m.name = name
          · subst hname
            simp [hmodel, Except.toOption]
          · simp [hname, Function.update_of_ne (Ne.symm hname)]

theorem Registry.new_models {connectors : String → Option κ} {models : List ModelConfig}
    {registry : Registry κ} (h : Registry.new connectors models = .ok registry) {name : String}
    {resolved : ResolvedModel κ} :
    registry.models name = some resolved ↔
      ∃ m, lastNamed models name = some m ∧ resolveModel connectors m = .ok resolved := by
  obtain ⟨final, hfold, hnew⟩ := bind_eq_ok.mp h
  cases hnew
  dsimp only
  rw [foldlM_insertModel hfold]
  cases lastNamed models name with
  | none => simp
  | some m => cases hm : resolveModel connectors m <;> simp [Except.toOption, hm]

theorem lastNamed_isSome {models : List ModelConfig} {name : String} :
    (lastNamed models name).isSome = true ↔ name ∈ models.map ModelConfig.name := by
  rw [lastNamed, List.find?_isSome]
  simp

/-- The registry has exactly the configured names. -/
theorem Registry.new_registered {connectors : String → Option κ} {models : List ModelConfig}
    {registry : Registry κ} (h : Registry.new connectors models = .ok registry) {name : String} :
    (registry.models name).isSome = true ↔ name ∈ models.map ModelConfig.name := by
  have hall := Registry.new_succeeds.mp ⟨registry, h⟩
  rw [← lastNamed_isSome, Option.isSome_iff_exists, Option.isSome_iff_exists]
  constructor
  · rintro ⟨resolved, hresolved⟩
    obtain ⟨m, hlast, -⟩ := (Registry.new_models h).mp hresolved
    exact ⟨m, hlast⟩
  · rintro ⟨m, hlast⟩
    obtain ⟨_, hinsert⟩ :=
      (insertModel_succeeds (fun _ => none) m).mpr (hall m (lastNamed_mem hlast).1)
    obtain ⟨model, hmodel, -⟩ := insertModel_eq_ok.mp hinsert
    exact ⟨model, (Registry.new_models h).mpr ⟨m, hlast, hmodel⟩⟩

/-- The resolved routes are those of the configuration, in order. -/
theorem resolveModel_eq_ok {connectors : String → Option κ} {m : ModelConfig}
    {resolved : ResolvedModel κ} (h : resolveModel connectors m = .ok resolved) :
    List.Forall₂ (fun route r => connectors route.provider = some r.connector ∧
        r.model = route.model) (routesOf m) resolved.routes ∧
      (∀ status, resolved.retryOn status = m.retryOn.contains status) ∧
      resolved.timeoutMs = m.timeoutMs := by
  obtain ⟨routes, hroutes, hresolved⟩ := bind_eq_ok.mp h
  cases hresolved
  refine ⟨(mapM_eq_ok.mp hroutes).imp fun route r hr => ?_, fun _ => rfl, rfl⟩
  unfold resolveRoute at hr
  cases hconnector : connectors route.provider with
  | none =>
      rw [hconnector] at hr
      cases hr
  | some connector =>
      rw [hconnector] at hr
      cases hr
      exact ⟨rfl, rfl⟩

end VaultplaneGateway.ModelRegistry
