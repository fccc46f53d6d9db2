import VaultplaneGateway.ConfigOverlay
import VaultplaneGateway.FieldOverlays

/-!
# The laws of the configuration overlay

The fields of a configuration in a table, each with the place where a bundle gives it.
Applying a bundle takes every one of them from the bundle when present there and from the
base otherwise. The fields that are local to the node have no place in a bundle; models
and plugins always have one.
-/
namespace VaultplaneGateway.OverlayLaws
open KeyRecords StreamUsage ConfigOverlay FieldOverlays

abbrev ConfigField := Field Config Dto.GatewayConfig

def localFields : List ConfigField :=
  [⟨_, Config.listen, fun _ => none⟩, ⟨_, Config.auth, fun _ => none⟩,
    ⟨_, Config.controlPlane, fun _ => none⟩, ⟨_, Config.shutdown, fun _ => none⟩]

def openaiFields : List ConfigField :=
  [⟨_, fun c => c.providers.openai.baseUrl, fun b => b.providers.openai.bind (·.baseUrl)⟩,
    ⟨_, fun c => c.providers.openai.apiKeyEnv, fun b => b.providers.openai.bind (·.apiKeyEnv)⟩]

def anthropicFields : List ConfigField :=
  [⟨_, fun c => c.providers.anthropic.baseUrl, fun b => b.providers.anthropic.bind (·.baseUrl)⟩,
    ⟨_, fun c => c.providers.anthropic.apiKeyEnv,
      fun b => b.providers.anthropic.bind (·.apiKeyEnv)⟩]

def azureFields : List ConfigField :=
  [⟨_, fun c => c.providers.azure.baseUrl, fun b => b.providers.azure.bind (·.baseUrl)⟩,
    ⟨_, fun c => c.providers.azure.apiKeyEnv, fun b => b.providers.azure.bind (·.apiKeyEnv)⟩,
    ⟨_, fun c => c.providers.azure.apiVersion, fun b => b.providers.azure.bind (·.apiVersion)⟩]

def bedrockFields : List ConfigField :=
  [⟨_, fun c => c.providers.bedrock.region, fun b => b.providers.bedrock.bind (·.region)⟩,
    ⟨_, fun c => c.providers.bedrock.accessKeyEnv,
      fun b => b.providers.bedrock.bind (·.accessKeyEnv)⟩,
    ⟨_, fun c => c.providers.bedrock.secretKeyEnv,
      fun b => b.providers.bedrock.bind (·.secretKeyEnv)⟩,
    ⟨_, fun c => c.providers.bedrock.sessionTokenEnv,
      fun b => b.providers.bedrock.bind (·.sessionTokenEnv)⟩]

def cacheFields : List ConfigField :=
  [⟨_, fun c => c.cache.enabled, fun b => b.cache.bind (·.enabled)⟩,
    ⟨_, fun c => c.cache.sizeMb, fun b => b.cache.bind (·.sizeMb)⟩,
    ⟨_, fun c => c.cache.ttlSeconds, fun b => b.cache.bind (·.ttlSeconds)⟩]

def pricingField : ConfigField := ⟨_, Config.pricing, fun b => b.pricing.map mapPricing⟩

/-- Models and plugins, which every bundle gives. -/
def listFields : List ConfigField :=
  [⟨_, Config.models, fun b => some (b.models.map mapModel)⟩,
    ⟨_, Config.plugins, fun b => some (b.plugins.map mapPlugin)⟩]

/-- The fields of the provider blocks and of the cache block. -/
def blockFields : List ConfigField :=
  openaiFields ++ anthropicFields ++ azureFields ++ bedrockFields ++ cacheFields

def fields : List ConfigField := localFields ++ blockFields ++ pricingField :: listFields

theorem blockFields_overlay : ∀ f ∈ blockFields, Overlays applyConfig f := by
  simp only [blockFields, openaiFields, anthropicFields, azureFields, bedrockFields, cacheFields,
    List.cons_append, List.nil_append, List.forall_mem_cons, List.not_mem_nil, IsEmpty.forall_iff,
    implies_true, and_true, Overlays, applyConfig, applyProviders]
  refine ⟨?_, ?_, ?_, ?_, ?_, ?_, ?_, ?_, ?_, ?_, ?_, ?_, ?_, ?_⟩
  all_goals intro base b
  · cases b.providers.openai <;> rfl
  · cases b.providers.openai <;> rfl
  · cases b.providers.anthropic <;> rfl
  · cases b.providers.anthropic <;> rfl
  · cases b.providers.azure <;> rfl
  · cases b.providers.azure <;> rfl
  · cases b.providers.azure <;> rfl
  · cases b.providers.bedrock <;> rfl
  · cases b.providers.bedrock <;> rfl
  · cases b.providers.bedrock <;> rfl
  · cases b.providers.bedrock <;> rfl
  · cases b.cache <;> rfl
  · cases b.cache <;> rfl
  · cases b.cache <;> rfl

theorem fields_overlay : ∀ f ∈ fields, Overlays applyConfig f := by
  intro f hf
  simp only [fields, List.mem_append, List.mem_cons] at hf
  rcases hf with (hlocal | hblock) | rfl | hlist
  · simp only [localFields, List.mem_cons, List.not_mem_nil, or_false] at hlocal
    rcases hlocal with rfl | rfl | rfl | rfl
    all_goals exact fun _ _ => rfl
  · exact blockFields_overlay f hblock
  · exact fun _ _ => rfl
  · simp only [listFields, List.mem_cons, List.not_mem_nil, or_false] at hlist
    rcases hlist with rfl | rfl
    all_goals exact fun _ _ => rfl

/-- A configuration is determined by the fields of the table. -/
theorem fields_separate : Separates fields := by
  rintro ⟨listen, ⟨⟨_, _⟩, ⟨_, _⟩, ⟨_, _, _⟩, ⟨_, _, _, _⟩⟩, auth, models, pricing, ⟨_, _, _⟩, plugins,
    controlPlane, shutdown⟩ ⟨listen', ⟨⟨_, _⟩, ⟨_, _⟩, ⟨_, _, _⟩, ⟨_, _, _, _⟩⟩, auth', models',
    pricing', ⟨_, _, _⟩, plugins', controlPlane', shutdown'⟩ h
  simp only [fields, localFields, blockFields, openaiFields, anthropicFields, azureFields,
    bedrockFields, cacheFields, pricingField, listFields, List.cons_append, List.nil_append,
    List.forall_mem_cons, List.not_mem_nil, IsEmpty.forall_iff, implies_true, and_true] at h
  simp only [Config.mk.injEq, Providers.mk.injEq, OpenAiProvider.mk.injEq,
    AnthropicProvider.mk.injEq, AzureProvider.mk.injEq, BedrockProvider.mk.injEq,
    CacheConfig.mk.injEq]
  tauto

/-- The model has all that the bundle says of it, and defaults for what it omits. -/
structure CarriesModel (d : Dto.ModelConfig) (m : ModelConfig) : Prop where
  name : m.name = d.name
  routes : (m.primary :: m.fallbacks).map (fun r => (r.provider, r.model)) =
    (d.primary :: d.fallbacks).map fun r => (r.provider, r.model)
  retryOn : m.retryOn = d.retryOn.getD [429, 500, 502, 503, 504]
  timeoutMs : m.timeoutMs = d.timeoutMs.getD 30000

inductive CarriesPlugin : Dto.Plugin → PluginConfig → Prop
  | piiRedaction {d : Dto.PiiRedactionPlugin} {c : PiiRedactionConfig}
      (patterns : c.patterns = d.patterns.getD PiiPattern.all)
      (replacement : c.replacement = d.replacement.getD "[REDACTED]") :
      CarriesPlugin (.piiRedaction d) (.piiRedaction c)
  | wasm {d : Dto.WasmPlugin} {c : WasmPluginConfig} (name : c.name = d.name)
      (path : c.path = d.path) (hook : c.hook = d.hook)
      (budget : c.latencyBudgetMs = d.latencyBudgetMs.getD 5)
      (onTimeout : c.onTimeout = d.onTimeout.getD .failOpen)
      (bindRoutes : c.bindRoutes = d.bindRoutes) :
      CarriesPlugin (.wasm d) (.wasm c)

/-- The same providers with the same models and rates. -/
def CarriesPricing (d : Dto.Pricing) (p : Pricing) : Prop :=
  ∀ provider, (p.providers provider).isSome = (d.providers provider).isSome ∧
    ∀ model, ((p.providers provider).bind (· model)).map
        (fun rates => (rates.inputPer1kTokensUsd, rates.outputPer1kTokensUsd)) =
      ((d.providers provider).bind (· model)).map fun rates => (rates.inputPer1k, rates.outputPer1k)

theorem carriesModel_mapModel (d : Dto.ModelConfig) : CarriesModel d (mapModel d) where
  name := rfl
  routes := by simp [mapModel, mapRoute, Function.comp_def]
  retryOn := rfl
  timeoutMs := rfl

theorem carriesPlugin_mapPlugin (d : Dto.Plugin) : CarriesPlugin d (mapPlugin d) := by
  cases d with
  | piiRedaction p => exact .piiRedaction rfl rfl
  | wasm w => exact .wasm rfl rfl rfl rfl rfl rfl

theorem carriesPricing_mapPricing (d : Dto.Pricing) : CarriesPricing d (mapPricing d) := by
  intro provider
  simp only [mapPricing]
  cases d.providers provider with
  | none => exact ⟨rfl, fun _ => rfl⟩
  | some models => exact ⟨rfl, fun model => by simp [Function.comp_def]⟩

/-- For every base and every bundle: the local fields stay; models and plugins are those
of the bundle, in order and with all that it says of them; each field of the provider and
cache blocks comes from the bundle when present there and from the base otherwise, and so
does the pricing; and applying the bundle again changes nothing. -/
theorem applyConfig_overlay (base : Config) (b : Dto.GatewayConfig) :
    let c := applyConfig base b
    (c.listen = base.listen ∧ c.auth = base.auth ∧ c.controlPlane = base.controlPlane ∧
      c.shutdown = base.shutdown) ∧
    (List.Forall₂ CarriesModel b.models c.models ∧ List.Forall₂ CarriesPlugin b.plugins c.plugins) ∧
    (∀ f ∈ openaiFields ++ anthropicFields ++ azureFields ++ bedrockFields ++ cacheFields,
      f.read c = (f.given b).getD (f.read base)) ∧
    (match b.pricing with
      | some p => CarriesPricing p c.pricing
      | none => c.pricing = base.pricing) ∧
    applyConfig c b = c := by
  intro c
  refine ⟨⟨rfl, rfl, rfl, rfl⟩, ⟨?_, ?_⟩, fun f hf => blockFields_overlay f hf base b, ?_,
    apply_idempotent fields_overlay fields_separate base b⟩
  · exact List.forall₂_map_right_iff.mpr (List.forall₂_same.mpr fun d _ => carriesModel_mapModel d)
  · exact List.forall₂_map_right_iff.mpr (List.forall₂_same.mpr fun d _ => carriesPlugin_mapPlugin d)
  · have hpricing : c.pricing = (b.pricing.map mapPricing).getD base.pricing := rfl
    rw [hpricing]
    cases b.pricing with
    | none => rfl
    | some p => exact carriesPricing_mapPricing p

end VaultplaneGateway.OverlayLaws
