import VaultplaneGateway.StreamUsage

/-!
# Gateway configuration and the Control Node overlay

The gateway's own configuration, the bundle and the key set the Control Node
sends, and the mapping between them. A bundle replaces models and plugins as a
whole, provider and cache blocks field by field, and pricing if it has any;
everything local to the node stays as the base has it.

The default values of the structure fields are the defaults of the configuration
file. Maps of the source are functions to an optional value.
-/
namespace VaultplaneGateway.ConfigOverlay
open KeyRecords StreamUsage

structure TlsConfig where
  certPath : String
  keyPath : String
  clientCaPath : Option String := none
  deriving DecidableEq, Repr

structure Listen where
  address : String := "0.0.0.0:8080"
  adminAddress : String := "0.0.0.0:9091"
  tls : Option TlsConfig := none
  deriving DecidableEq, Repr

structure OpenAiProvider where
  baseUrl : String := "https://api.openai.com"
  apiKeyEnv : String := "OPENAI_API_KEY"
  deriving DecidableEq, Repr

structure AnthropicProvider where
  baseUrl : String := "https://api.anthropic.com"
  apiKeyEnv : String := "ANTHROPIC_API_KEY"
  deriving DecidableEq, Repr

structure AzureProvider where
  baseUrl : String := ""
  apiKeyEnv : String := "AZURE_OPENAI_API_KEY"
  apiVersion : String := "2024-10-21"
  deriving DecidableEq, Repr

structure BedrockProvider where
  region : String := "us-east-1"
  accessKeyEnv : String := "AWS_ACCESS_KEY_ID"
  secretKeyEnv : String := "AWS_SECRET_ACCESS_KEY"
  sessionTokenEnv : String := "AWS_SESSION_TOKEN"
  deriving DecidableEq, Repr

structure Providers where
  openai : OpenAiProvider := {}
  anthropic : AnthropicProvider := {}
  azure : AzureProvider := {}
  bedrock : BedrockProvider := {}
  deriving DecidableEq, Repr

structure Auth where
  adminTokenEnv : String := "VAULTPLANE_ADMIN_TOKEN"
  keys : List VirtualKey := []
  deriving DecidableEq, Repr

structure Route where
  provider : String
  model : String
  deriving DecidableEq, Repr

structure ModelConfig where
  name : String
  primary : Route
  fallbacks : List Route := []
  retryOn : List UInt16 := [429, 500, 502, 503, 504]
  timeoutMs : UInt64 := 30000
  deriving DecidableEq, Repr

structure CacheConfig where
  enabled : Bool := true
  sizeMb : UInt64 := 256
  ttlSeconds : UInt64 := 3600
  deriving DecidableEq, Repr

inductive FailMode where
  | failOpen | failClosed
  deriving DecidableEq, Repr

inductive PiiPattern where
  | ssn | creditCard | phoneUs | email
  deriving DecidableEq, Repr

def PiiPattern.all : List PiiPattern := [.ssn, .creditCard, .phoneUs, .email]

structure PiiRedactionConfig where
  patterns : List PiiPattern := PiiPattern.all
  replacement : String := "[REDACTED]"
  deriving DecidableEq, Repr

structure WasmPluginConfig where
  name : String
  path : String
  hook : String := "inspect-request"
  latencyBudgetMs : UInt32 := 5
  onTimeout : FailMode := .failOpen
  bindRoutes : List String := []
  deriving DecidableEq, Repr

inductive PluginConfig where
  | piiRedaction (config : PiiRedactionConfig)
  | wasm (config : WasmPluginConfig)
  deriving DecidableEq, Repr

inductive ControlPlaneMode where
  | file | api
  deriving DecidableEq, Repr

structure ControlPlane where
  mode : ControlPlaneMode := .file
  configDir : String := "/etc/vaultplane"
  endpoint : Option String := none
  tokenEnv : Option String := none
  pollIntervalSeconds : UInt64 := 30
  deriving DecidableEq, Repr

structure Shutdown where
  drainTimeoutSeconds : UInt64 := 30
  deriving DecidableEq, Repr

structure Config where
  listen : Listen := {}
  providers : Providers := {}
  auth : Auth := {}
  models : List ModelConfig := []
  pricing : Pricing := ⟨fun _ => none⟩
  cache : CacheConfig := {}
  plugins : List PluginConfig := []
  controlPlane : ControlPlane := {}
  shutdown : Shutdown := {}

namespace Dto

structure Route where
  provider : String
  model : String
  deriving DecidableEq, Repr

/-- An omitted `retryOn` and an empty one are different. -/
structure ModelConfig where
  name : String
  primary : Route
  fallbacks : List Route
  retryOn : Option (List UInt16)
  timeoutMs : Option UInt64
  deriving DecidableEq, Repr

structure ProviderConfig where
  baseUrl : Option String
  apiKeyEnv : Option String
  deriving DecidableEq, Repr

structure AzureProviderConfig where
  baseUrl : Option String
  apiKeyEnv : Option String
  apiVersion : Option String
  deriving DecidableEq, Repr

structure BedrockProviderConfig where
  region : Option String
  accessKeyEnv : Option String
  secretKeyEnv : Option String
  sessionTokenEnv : Option String
  deriving DecidableEq, Repr

structure Providers where
  openai : Option ProviderConfig
  anthropic : Option ProviderConfig
  azure : Option AzureProviderConfig
  bedrock : Option BedrockProviderConfig
  deriving DecidableEq, Repr

structure ModelPricing where
  inputPer1k : ℚ
  outputPer1k : ℚ
  deriving DecidableEq, Repr

structure Pricing where
  providers : String → Option (String → Option ModelPricing)

structure PiiRedactionPlugin where
  patterns : Option (List PiiPattern)
  replacement : Option String
  deriving DecidableEq, Repr

structure WasmPlugin where
  name : String
  path : String
  hook : String
  latencyBudgetMs : Option UInt32
  onTimeout : Option FailMode
  bindRoutes : List String
  deriving DecidableEq, Repr

inductive Plugin where
  | piiRedaction (plugin : PiiRedactionPlugin)
  | wasm (plugin : WasmPlugin)
  deriving DecidableEq, Repr

structure CacheConfig where
  enabled : Option Bool
  sizeMb : Option UInt64
  ttlSeconds : Option UInt64
  deriving DecidableEq, Repr

/-- The body of `GET /config`. -/
structure GatewayConfig where
  version : String
  models : List ModelConfig
  providers : Providers
  pricing : Option Pricing
  plugins : List Plugin
  cache : Option CacheConfig

inductive SpendPeriod where
  | day | week | month
  deriving DecidableEq, Repr

structure SpendLimit where
  amountUsd : ℚ
  period : SpendPeriod
  deriving DecidableEq, Repr

structure KeyScope where
  team : String
  app : String
  env : String
  allowedModels : List String
  deriving DecidableEq, Repr

structure KeyLimits where
  requestsPerSecond : Option UInt32
  spendLimit : Option SpendLimit
  deriving DecidableEq, Repr

/-- A key without its secret: only the digest is sent. -/
structure VirtualKey where
  id : String
  hashedKey : String
  scope : KeyScope
  limits : Option KeyLimits
  expiresAt : Option String
  deriving DecidableEq, Repr

/-- The body of `GET /keys`. -/
structure KeySet where
  version : String
  keys : List VirtualKey
  deriving DecidableEq, Repr

end Dto

def defaultRetryOn : List UInt16 := [429, 500, 502, 503, 504]

def defaultTimeoutMs : UInt64 := 30000

def defaultWasmLatencyBudgetMs : UInt32 := 5

def defaultPiiReplacement : String := "[REDACTED]"

def mapRoute (r : Dto.Route) : Route := ⟨r.provider, r.model⟩

def mapModel (m : Dto.ModelConfig) : ModelConfig where
  name := m.name
  primary := mapRoute m.primary
  fallbacks := m.fallbacks.map mapRoute
  retryOn := m.retryOn.getD defaultRetryOn
  timeoutMs := m.timeoutMs.getD defaultTimeoutMs

/-- A block the bundle omits keeps the base block, a field it omits the base
field. -/
def applyProviders (base : Providers) (p : Dto.Providers) : Providers where
  openai :=
    match p.openai with
    | some b => ⟨b.baseUrl.getD base.openai.baseUrl, b.apiKeyEnv.getD base.openai.apiKeyEnv⟩
    | none => base.openai
  anthropic :=
    match p.anthropic with
    | some b => ⟨b.baseUrl.getD base.anthropic.baseUrl, b.apiKeyEnv.getD base.anthropic.apiKeyEnv⟩
    | none => base.anthropic
  azure :=
    match p.azure with
    | some b => ⟨b.baseUrl.getD base.azure.baseUrl, b.apiKeyEnv.getD base.azure.apiKeyEnv,
        b.apiVersion.getD base.azure.apiVersion⟩
    | none => base.azure
  bedrock :=
    match p.bedrock with
    | some b => ⟨b.region.getD base.bedrock.region, b.accessKeyEnv.getD base.bedrock.accessKeyEnv,
        b.secretKeyEnv.getD base.bedrock.secretKeyEnv,
        b.sessionTokenEnv.getD base.bedrock.sessionTokenEnv⟩
    | none => base.bedrock

def mapPricing (p : Dto.Pricing) : Pricing where
  providers provider := (p.providers provider).map fun models model =>
    (models model).map fun rates => ⟨rates.inputPer1k, rates.outputPer1k⟩

def applyCache (base : CacheConfig) (c : Dto.CacheConfig) : CacheConfig where
  enabled := c.enabled.getD base.enabled
  sizeMb := c.sizeMb.getD base.sizeMb
  ttlSeconds := c.ttlSeconds.getD base.ttlSeconds

def mapPlugin : Dto.Plugin → PluginConfig
  | .piiRedaction p =>
      .piiRedaction ⟨p.patterns.getD PiiPattern.all, p.replacement.getD defaultPiiReplacement⟩
  | .wasm w =>
      .wasm ⟨w.name, w.path, w.hook, w.latencyBudgetMs.getD defaultWasmLatencyBudgetMs,
        w.onTimeout.getD .failOpen, w.bindRoutes⟩

def applyConfig (base : Config) (bundle : Dto.GatewayConfig) : Config :=
  { base with
    models := bundle.models.map mapModel
    providers := applyProviders base.providers bundle.providers
    pricing := (bundle.pricing.map mapPricing).getD base.pricing
    cache := (bundle.cache.map (applyCache base.cache)).getD base.cache
    plugins := bundle.plugins.map mapPlugin }

def mapSpend (s : Dto.SpendLimit) : SpendLimit where
  amountUsd := s.amountUsd
  period :=
    match s.period with
    | .day => .day
    | .week => .week
    | .month => .month

def mapKey (k : Dto.VirtualKey) : VirtualKey where
  id := k.id
  hash := k.hashedKey
  team := k.scope.team
  app := k.scope.app
  env := k.scope.env
  models := k.scope.allowedModels
  rateLimitRps := k.limits.bind fun l => l.requestsPerSecond
  spendLimit := k.limits.bind fun l => l.spendLimit.map mapSpend
  expiresAt := k.expiresAt

def toVirtualKeys (keys : List Dto.VirtualKey) : List VirtualKey := keys.map mapKey

end VaultplaneGateway.ConfigOverlay
