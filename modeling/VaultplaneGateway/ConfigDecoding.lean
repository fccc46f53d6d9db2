import VaultplaneGateway.ConfigOverlay
import VaultplaneGateway.DerivedDecoding

/-!
# Decoding a configuration

The derived decoders of the two configuration hierarchies: the bundle of the Control
Node, in camel case, and the configuration file, in snake case. Each has its own
field names, its own required fields and its own defaults. The file's decoder is that
of documents without the sections a bundle does not carry (`listen`, `auth`,
`control_plane`, `shutdown`), which take their defaults.

Prices are floating-point numbers in the source. What a JSON number denotes is a
parameter.
-/
namespace VaultplaneGateway.ConfigDecoding
open WireFormats ProxyPipeline StreamUsage DerivedDecoding ConfigOverlay

variable {τ : Type}

/-- The last entry of a repeated name wins. -/
def lookupLast (entries : List (String × τ)) (name : String) : Option τ :=
  (entries.reverse.find? fun e => e.1 == name).map Prod.snd

/-- A map: every member is read, also one that a later member replaces. -/
def mapOf (read : Json → Option τ) : Json → Option (String → Option τ)
  | .object members =>
      (members.mapM fun m => (read m.2).map fun x => (m.1, x)).map lookupLast
  | _ => none

/-- An enumeration tagged by its `type` member. The form as a sequence, which the
reader also accepts, is left out. -/
def tagged (read : String → Json → Option τ) : Json → Option τ
  | .object members =>
      match structField members "type" with
      | some (some (.string tag)) => read tag (.object members)
      | _ => none
  | _ => none

def float (rate : Number → ℚ) : Json → Option ℚ
  | .number n => some (rate n)
  | _ => none

def piiPattern : Json → Option PiiPattern
  | .string "ssn" => some .ssn
  | .string "credit_card" => some .creditCard
  | .string "phone_us" => some .phoneUs
  | .string "email" => some .email
  | _ => none

def failMode : Json → Option FailMode
  | .string "fail-open" => some .failOpen
  | .string "fail-closed" => some .failClosed
  | _ => none

namespace Bundle

def route (v : Json) : Option Dto.Route := do
  let f ← fieldsOf 2 v
  let provider ← f.required 0 "provider" Json.asStr
  let model ← f.required 1 "model" Json.asStr
  pure ⟨provider, model⟩

def modelConfig (v : Json) : Option Dto.ModelConfig := do
  let f ← fieldsOf 5 v
  let name ← f.required 0 "name" Json.asStr
  let primary ← f.required 1 "primary" route
  let fallbacks ← f.defaulted 2 "fallbacks" [] (vec route)
  let retryOn ← f.defaulted 3 "retryOn" none (nullable (vec u16))
  let timeoutMs ← f.defaulted 4 "timeoutMs" none (nullable Json.asU64)
  pure ⟨name, primary, fallbacks, retryOn, timeoutMs⟩

def providerConfig (v : Json) : Option Dto.ProviderConfig := do
  let f ← fieldsOf 2 v
  let baseUrl ← f.optional 0 "baseUrl" Json.asStr
  let apiKeyEnv ← f.optional 1 "apiKeyEnv" Json.asStr
  pure ⟨baseUrl, apiKeyEnv⟩

def azureProviderConfig (v : Json) : Option Dto.AzureProviderConfig := do
  let f ← fieldsOf 3 v
  let baseUrl ← f.optional 0 "baseUrl" Json.asStr
  let apiKeyEnv ← f.optional 1 "apiKeyEnv" Json.asStr
  let apiVersion ← f.optional 2 "apiVersion" Json.asStr
  pure ⟨baseUrl, apiKeyEnv, apiVersion⟩

def bedrockProviderConfig (v : Json) : Option Dto.BedrockProviderConfig := do
  let f ← fieldsOf 4 v
  let region ← f.optional 0 "region" Json.asStr
  let accessKeyEnv ← f.optional 1 "accessKeyEnv" Json.asStr
  let secretKeyEnv ← f.optional 2 "secretKeyEnv" Json.asStr
  let sessionTokenEnv ← f.optional 3 "sessionTokenEnv" Json.asStr
  pure ⟨region, accessKeyEnv, secretKeyEnv, sessionTokenEnv⟩

def providers (v : Json) : Option Dto.Providers := do
  let f ← fieldsOf 4 v
  let openai ← f.optional 0 "openai" providerConfig
  let anthropic ← f.optional 1 "anthropic" providerConfig
  let azure ← f.optional 2 "azure" azureProviderConfig
  let bedrock ← f.optional 3 "bedrock" bedrockProviderConfig
  pure ⟨openai, anthropic, azure, bedrock⟩

def modelPricing (rate : Number → ℚ) (v : Json) : Option Dto.ModelPricing := do
  let f ← fieldsOf 2 v
  let inputPer1k ← f.defaulted 0 "inputPer1k" 0 (float rate)
  let outputPer1k ← f.defaulted 1 "outputPer1k" 0 (float rate)
  pure ⟨inputPer1k, outputPer1k⟩

def pricing (rate : Number → ℚ) (v : Json) : Option Dto.Pricing := do
  let f ← fieldsOf 1 v
  let providers ← f.defaulted 0 "providers" (fun _ => none) (mapOf (mapOf (modelPricing rate)))
  pure ⟨providers⟩

def piiRedactionPlugin (v : Json) : Option Dto.PiiRedactionPlugin := do
  let f ← fieldsOf 2 v
  let patterns ← f.defaulted 0 "patterns" none (nullable (vec piiPattern))
  let replacement ← f.defaulted 1 "replacement" none (nullable Json.asStr)
  pure ⟨patterns, replacement⟩

def wasmPlugin (v : Json) : Option Dto.WasmPlugin := do
  let f ← fieldsOf 6 v
  let name ← f.required 0 "name" Json.asStr
  let path ← f.required 1 "path" Json.asStr
  let hook ← f.required 2 "hook" Json.asStr
  let latencyBudgetMs ← f.defaulted 3 "latencyBudgetMs" none (nullable u32)
  let onTimeout ← f.defaulted 4 "onTimeout" none (nullable failMode)
  let bindRoutes ← f.defaulted 5 "bindRoutes" [] (vec Json.asStr)
  pure ⟨name, path, hook, latencyBudgetMs, onTimeout, bindRoutes⟩

def plugin : Json → Option Dto.Plugin :=
  tagged fun tag v =>
    if tag = "pii_redaction" then (piiRedactionPlugin v).map .piiRedaction
    else if tag = "wasm" then (wasmPlugin v).map .wasm
    else none

def cacheConfig (v : Json) : Option Dto.CacheConfig := do
  let f ← fieldsOf 3 v
  let enabled ← f.optional 0 "enabled" boolean
  let sizeMb ← f.optional 1 "sizeMb" Json.asU64
  let ttlSeconds ← f.optional 2 "ttlSeconds" Json.asU64
  pure ⟨enabled, sizeMb, ttlSeconds⟩

def gatewayConfig (rate : Number → ℚ) (v : Json) : Option Dto.GatewayConfig := do
  let f ← fieldsOf 6 v
  let version ← f.required 0 "version" Json.asStr
  let models ← f.defaulted 1 "models" [] (vec modelConfig)
  let providers ← f.defaulted 2 "providers" ⟨none, none, none, none⟩ providers
  let pricing ← f.defaulted 3 "pricing" none (nullable (pricing rate))
  let plugins ← f.defaulted 4 "plugins" [] (vec plugin)
  let cache ← f.defaulted 5 "cache" none (nullable cacheConfig)
  pure ⟨version, models, providers, pricing, plugins, cache⟩

end Bundle

namespace File

def defaultRetryOn : List UInt16 := [429, 500, 502, 503, 504]

def defaultTimeoutMs : UInt64 := 30000

def defaultPluginHook : String := "inspect-request"

def defaultLatencyBudgetMs : UInt32 := 5

def defaultOnTimeout : FailMode := .failOpen

def defaultPiiPatterns : List PiiPattern := PiiPattern.all

def defaultRedactionReplacement : String := "[REDACTED]"

def route (v : Json) : Option Route := do
  let f ← fieldsOf 2 v
  let provider ← f.required 0 "provider" Json.asStr
  let model ← f.required 1 "model" Json.asStr
  pure ⟨provider, model⟩

def modelConfig (v : Json) : Option ModelConfig := do
  let f ← fieldsOf 5 v
  let name ← f.required 0 "name" Json.asStr
  let primary ← f.required 1 "primary" route
  let fallbacks ← f.defaulted 2 "fallbacks" [] (vec route)
  let retryOn ← f.defaulted 3 "retry_on" defaultRetryOn (vec u16)
  let timeoutMs ← f.defaulted 4 "timeout_ms" defaultTimeoutMs Json.asU64
  pure ⟨name, primary, fallbacks, retryOn, timeoutMs⟩

def openAiProvider (v : Json) : Option OpenAiProvider := do
  let d : OpenAiProvider := {}
  let f ← fieldsOf 2 v
  let baseUrl ← f.defaulted 0 "base_url" d.baseUrl Json.asStr
  let apiKeyEnv ← f.defaulted 1 "api_key_env" d.apiKeyEnv Json.asStr
  pure ⟨baseUrl, apiKeyEnv⟩

def anthropicProvider (v : Json) : Option AnthropicProvider := do
  let d : AnthropicProvider := {}
  let f ← fieldsOf 2 v
  let baseUrl ← f.defaulted 0 "base_url" d.baseUrl Json.asStr
  let apiKeyEnv ← f.defaulted 1 "api_key_env" d.apiKeyEnv Json.asStr
  pure ⟨baseUrl, apiKeyEnv⟩

def azureProvider (v : Json) : Option AzureProvider := do
  let d : AzureProvider := {}
  let f ← fieldsOf 3 v
  let baseUrl ← f.defaulted 0 "base_url" d.baseUrl Json.asStr
  let apiKeyEnv ← f.defaulted 1 "api_key_env" d.apiKeyEnv Json.asStr
  let apiVersion ← f.defaulted 2 "api_version" d.apiVersion Json.asStr
  pure ⟨baseUrl, apiKeyEnv, apiVersion⟩

def bedrockProvider (v : Json) : Option BedrockProvider := do
  let d : BedrockProvider := {}
  let f ← fieldsOf 4 v
  let region ← f.defaulted 0 "region" d.region Json.asStr
  let accessKeyEnv ← f.defaulted 1 "access_key_env" d.accessKeyEnv Json.asStr
  let secretKeyEnv ← f.defaulted 2 "secret_key_env" d.secretKeyEnv Json.asStr
  let sessionTokenEnv ← f.defaulted 3 "session_token_env" d.sessionTokenEnv Json.asStr
  pure ⟨region, accessKeyEnv, secretKeyEnv, sessionTokenEnv⟩

def providers (v : Json) : Option Providers := do
  let d : Providers := {}
  let f ← fieldsOf 4 v
  let openai ← f.defaulted 0 "openai" d.openai openAiProvider
  let anthropic ← f.defaulted 1 "anthropic" d.anthropic anthropicProvider
  let azure ← f.defaulted 2 "azure" d.azure azureProvider
  let bedrock ← f.defaulted 3 "bedrock" d.bedrock bedrockProvider
  pure ⟨openai, anthropic, azure, bedrock⟩

def modelPricing (rate : Number → ℚ) (v : Json) : Option ModelPricing := do
  let f ← fieldsOf 2 v
  let input ← f.required 0 "input_per_1k_tokens_usd" (float rate)
  let output ← f.required 1 "output_per_1k_tokens_usd" (float rate)
  pure ⟨input, output⟩

def pricing (rate : Number → ℚ) (v : Json) : Option Pricing := do
  let f ← fieldsOf 1 v
  let providers ← f.defaulted 0 "providers" (fun _ => none) (mapOf (mapOf (modelPricing rate)))
  pure ⟨providers⟩

def piiRedactionConfig (v : Json) : Option PiiRedactionConfig := do
  let f ← fieldsOf 2 v
  let patterns ← f.defaulted 0 "patterns" defaultPiiPatterns (vec piiPattern)
  let replacement ← f.defaulted 1 "replacement" defaultRedactionReplacement Json.asStr
  pure ⟨patterns, replacement⟩

def wasmPluginConfig (v : Json) : Option WasmPluginConfig := do
  let f ← fieldsOf 6 v
  let name ← f.required 0 "name" Json.asStr
  let path ← f.required 1 "path" Json.asStr
  let hook ← f.defaulted 2 "hook" defaultPluginHook Json.asStr
  let latencyBudgetMs ← f.defaulted 3 "latency_budget_ms" defaultLatencyBudgetMs u32
  let onTimeout ← f.defaulted 4 "on_timeout" defaultOnTimeout failMode
  let bindRoutes ← f.defaulted 5 "bind_routes" [] (vec Json.asStr)
  pure ⟨name, path, hook, latencyBudgetMs, onTimeout, bindRoutes⟩

def pluginConfig : Json → Option PluginConfig :=
  tagged fun tag v =>
    if tag = "pii_redaction" then (piiRedactionConfig v).map .piiRedaction
    else if tag = "wasm" then (wasmPluginConfig v).map .wasm
    else none

def cacheConfig (v : Json) : Option CacheConfig := do
  let d : CacheConfig := {}
  let f ← fieldsOf 3 v
  let enabled ← f.defaulted 0 "enabled" d.enabled boolean
  let sizeMb ← f.defaulted 1 "size_mb" d.sizeMb Json.asU64
  let ttlSeconds ← f.defaulted 2 "ttl_seconds" d.ttlSeconds Json.asU64
  pure ⟨enabled, sizeMb, ttlSeconds⟩

def config (rate : Number → ℚ) (v : Json) : Option Config := do
  let d : Config := {}
  let f ← fieldsOf 9 v
  let providers ← f.defaulted 1 "providers" d.providers providers
  let models ← f.defaulted 3 "models" d.models (vec modelConfig)
  let pricing ← f.defaulted 4 "pricing" d.pricing (pricing rate)
  let cache ← f.defaulted 5 "cache" d.cache cacheConfig
  let plugins ← f.defaulted 6 "plugins" d.plugins (vec pluginConfig)
  pure { d with
    providers := providers
    models := models
    pricing := pricing
    cache := cache
    plugins := plugins }

end File

end VaultplaneGateway.ConfigDecoding
