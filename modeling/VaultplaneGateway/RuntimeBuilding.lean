import VaultplaneGateway.ConfigDecoding
import VaultplaneGateway.ControlNodeClient
import VaultplaneGateway.ModelRegistry
import VaultplaneGateway.PiiRedaction

/-!
# From a configuration file to a runtime

A reload loads the configuration and builds a runtime from it; the `config validate`
command only loads. Loading layers the defaults, the file and the environment and
extracts a configuration, all in another crate. Building makes the four connectors,
resolves every route of every model, creates the cache and loads every plugin; each of
these can refuse a configuration that loads.
-/
namespace VaultplaneGateway.RuntimeBuilding
open WireFormats ProxyPipeline StreamUsage InlinePlugins ConfigOverlay ConfigDecoding
  ControlNodeClient FallibleComputations ModelRegistry PiiRedaction

variable {κ V : Type}

/-- The layering crate. A layer that cannot be read shows when the value is extracted. -/
structure Figment (V : Type) where
  defaults : Config → V
  yamlFile : String → V
  env : String → String → V
  merge : V → V → V
  extract : V → Except String Config

/-- `Config::load`: defaults, then the file if there is one, then the environment. -/
def load (lib : Figment V) (path : Option String) : Except CoreError Config :=
  let figment := lib.defaults {}
  let figment :=
    match path with
    | some p => lib.merge figment (lib.yamlFile p)
    | none => figment
  let figment := lib.merge figment (lib.env "VAULTPLANE_" "__")
  (lib.extract figment).mapError .config

def onOff (b : Bool) : String := if b then "enabled" else "disabled"

/-- The command answers with the lines it prints. -/
def configValidate (lib : Figment V) (path : String) : Except String (List String) := do
  let config ← (load lib (some path)).mapError fun e =>
    "failed to load configuration from " ++ path ++ ": " ++ e.text
  pure
    ["OK: " ++ path,
      "  proxy listen:  " ++ config.listen.address,
      "  admin listen:  " ++ config.listen.adminAddress,
      "  tls:           " ++ onOff config.listen.tls.isSome,
      "  models:        " ++ toString config.models.length,
      "  plugins:       " ++ toString config.plugins.length,
      "  file-loaded virtual keys: " ++ toString config.auth.keys.length,
      "  cache:         " ++ onOff config.cache.enabled]

/-- What the builder uses of its host and of other code: environment variables, the HTTP
client, the WebAssembly loader, the times to live the cache crate accepts, and the
bundled prices. The cache crate panics on the others. -/
structure Host (κ : Type) where
  var : String → Option String
  client : Except String κ
  loadWasm : String → String → UInt32 → FailMode → Except String Plugin
  ttlAccepted : UInt64 → Bool
  bundled : Pricing
  tables : CharTables
  serde : Serde

/-- An unset variable is warned about and read as empty. -/
def Host.readKey (host : Host κ) (var : String) : String := (host.var var).getD ""

def Host.optionalEnv (host : Host κ) (var : String) : Option String :=
  let value := host.readKey var
  if value.isEmpty then none else some value

def Host.httpClient (host : Host κ) : Except CoreError κ :=
  host.client.mapError fun e => .provider ("failed to build HTTP client: " ++ e)

/-- The connectors of OpenAI and Anthropic have the same fields and constructor. -/
structure KeyedConnector (κ : Type) where
  baseUrl : String
  apiKey : String
  client : κ

def KeyedConnector.new (host : Host κ) (baseUrl apiKey : String) :
    Except CoreError (KeyedConnector κ) := do
  let client ← host.httpClient
  pure ⟨trimSlashes baseUrl, apiKey, client⟩

def OpenAiConnector.new (host : Host κ) (baseUrl apiKey : String) :
    Except CoreError (KeyedConnector κ) :=
  KeyedConnector.new host baseUrl apiKey

def AnthropicConnector.new (host : Host κ) (baseUrl apiKey : String) :
    Except CoreError (KeyedConnector κ) :=
  KeyedConnector.new host baseUrl apiKey

structure AzureConnector (κ : Type) extends KeyedConnector κ where
  apiVersion : String

def AzureConnector.new (host : Host κ) (baseUrl apiKey apiVersion : String) :
    Except CoreError (AzureConnector κ) := do
  let client ← host.httpClient
  pure { baseUrl := trimSlashes baseUrl, apiKey := apiKey, apiVersion := apiVersion, client := client }

structure BedrockConnector (κ : Type) where
  endpoint : String
  host : String
  region : String
  accessKey : String
  secretKey : String
  sessionToken : Option String
  client : κ

def BedrockConnector.build (host : Host κ) (endpoint region accessKey secretKey : String)
    (sessionToken : Option String) : Except CoreError (BedrockConnector κ) := do
  let client ← host.httpClient
  let authority := ((stripPrefix endpoint "https://").or (stripPrefix endpoint "http://")).getD endpoint
  pure ⟨endpoint, authority, region, accessKey, secretKey, sessionToken, client⟩

def BedrockConnector.new (host : Host κ) (region accessKey secretKey : String)
    (sessionToken : Option String) : Except CoreError (BedrockConnector κ) :=
  BedrockConnector.build host ("https://bedrock-runtime." ++ region ++ ".amazonaws.com") region
    accessKey secretKey sessionToken

inductive Connector (κ : Type) where
  | openai (connector : KeyedConnector κ)
  | anthropic (connector : KeyedConnector κ)
  | azure (connector : AzureConnector κ)
  | bedrock (connector : BedrockConnector κ)

/-- A build ends with an error or unwinds from a panic. -/
inductive Failure where
  | error (text : String)
  | panic
  deriving DecidableEq, Repr

def Failure.context (note : String) : Failure → Failure
  | .error text => .error (note ++ ": " ++ text)
  | .panic => .panic

def failed (note : String) (e : CoreError) : Failure := .error (note ++ ": " ++ e.text)

def connectorTable (openai anthropic : KeyedConnector κ) (azure : AzureConnector κ)
    (bedrock : BedrockConnector κ) (provider : String) : Option (Connector κ) :=
  if provider = "openai" then some (.openai openai)
  else if provider = "anthropic" then some (.anthropic anthropic)
  else if provider = "azure" then some (.azure azure)
  else if provider = "bedrock" then some (.bedrock bedrock)
  else none

def connectors (host : Host κ) (p : Providers) :
    Except Failure (String → Option (Connector κ)) := do
  let openai ← (OpenAiConnector.new host p.openai.baseUrl
    (host.readKey p.openai.apiKeyEnv)).mapError (failed "failed to build OpenAI connector")
  let anthropic ← (AnthropicConnector.new host p.anthropic.baseUrl
    (host.readKey p.anthropic.apiKeyEnv)).mapError (failed "failed to build Anthropic connector")
  let azure ← (AzureConnector.new host p.azure.baseUrl (host.readKey p.azure.apiKeyEnv)
    p.azure.apiVersion).mapError (failed "failed to build Azure OpenAI connector")
  let bedrock ← (BedrockConnector.new host p.bedrock.region (host.readKey p.bedrock.accessKeyEnv)
    (host.readKey p.bedrock.secretKeyEnv) (host.optionalEnv p.bedrock.sessionTokenEnv)).mapError
      (failed "failed to build Bedrock connector")
  pure (connectorTable openai anthropic azure bedrock)

/-- An entry of the overrides replaces the entry of the table. -/
def overlaidWith (table overrides : Pricing) : Pricing where
  providers provider :=
    match overrides.providers provider with
    | none => table.providers provider
    | some models => some fun model =>
        (models model).or ((table.providers provider).bind fun entry => entry model)

/-- `u64::saturating_mul`. -/
def saturatingMul (m n : UInt64) : UInt64 :=
  if m.toNat * n.toNat < 2 ^ 64 then m * n else UInt64.ofNat (2 ^ 64 - 1)

structure CacheLimits where
  maxSizeBytes : UInt64
  ttlSeconds : UInt64

def buildCache (host : Host κ) (c : CacheConfig) : Except Failure (Option CacheLimits) :=
  if c.enabled then
    if host.ttlAccepted c.ttlSeconds then
      .ok (some ⟨saturatingMul c.sizeMb (1024 * 1024), c.ttlSeconds⟩)
    else .error .panic
  else .ok none

structure RegisteredModel where
  id : String
  provider : String
  deriving DecidableEq, Repr

def supportedHook : String := "inspect-request"

def buildPlugin (host : Host κ) : PluginConfig → Except Failure PluginEntry
  | .piiRedaction c =>
      let plugin := PiiRedactionPlugin.new host.tables c.patterns c.replacement
      .ok ⟨⟨"pii-redaction", plugin.inspectRequest host.serde host.tables⟩, []⟩
  | .wasm c =>
      if c.hook ≠ supportedHook then
        .error (.error ("wasm plugin '" ++ c.name ++ "' binds unsupported hook '" ++ c.hook ++
          "'; only 'inspect-request' is supported"))
      else do
        let plugin ← (host.loadWasm c.name c.path c.latencyBudgetMs c.onTimeout).mapError fun e =>
          .error ("failed to load wasm plugin '" ++ c.name ++ "': " ++ e)
        pure ⟨plugin, c.bindRoutes⟩

/-- The source's `Runtime`. -/
structure BuiltRuntime (κ : Type) where
  connector : Registry (Connector κ)
  pricing : Pricing
  cache : Option CacheLimits
  plugins : List PluginEntry
  models : List RegisteredModel

def buildRuntime (host : Host κ) (config : Config) : Except Failure (BuiltRuntime κ) := do
  let connectors ← connectors host config.providers
  let registry ← (Registry.new connectors config.models).mapError
    (failed "failed to build model registry")
  let cache ← buildCache host config.cache
  let plugins ← config.plugins.mapM (buildPlugin host)
  pure
    { connector := registry
      pricing := overlaidWith host.bundled config.pricing
      cache := cache
      plugins := plugins
      models := config.models.map fun m => ⟨m.name, m.primary.provider⟩ }

/-- A reload up to its certificates. -/
def rebuild (lib : Figment V) (host : Host κ) (path : Option String) :
    Except Failure (BuiltRuntime κ) := do
  let config ← (load lib path).mapError (failed "failed to load configuration")
  (buildRuntime host config).mapError (Failure.context "failed to build runtime from new config")

def providerNames : List String := ["openai", "anthropic", "azure", "bedrock"]

/-- What a configuration needs to be built beyond having loaded. -/
structure Buildable (host : Host κ) (config : Config) : Prop where
  client : Succeeds host.client
  routes : ∀ m ∈ config.models, ∀ r ∈ routesOf m, r.provider ∈ providerNames
  cache : config.cache.enabled = true → host.ttlAccepted config.cache.ttlSeconds = true
  hooks : ∀ c, PluginConfig.wasm c ∈ config.plugins → c.hook = supportedHook

theorem httpClient_succeeds {host : Host κ} : Succeeds host.httpClient ↔ Succeeds host.client :=
  succeeds_mapError

theorem connectors_succeeds {host : Host κ} {p : Providers} :
    Succeeds (connectors host p) ↔ Succeeds host.client := by
  have hkeyed : ∀ url key, Succeeds (KeyedConnector.new host url key) ↔ Succeeds host.client :=
    fun _ _ => succeeds_bind_pure.trans httpClient_succeeds
  have hazure : ∀ url key version,
      Succeeds (AzureConnector.new host url key version) ↔ Succeeds host.client :=
    fun _ _ _ => succeeds_bind_pure.trans httpClient_succeeds
  have hbedrock : ∀ region access secret session,
      Succeeds (BedrockConnector.new host region access secret session) ↔ Succeeds host.client :=
    fun _ _ _ _ => succeeds_bind_pure.trans httpClient_succeeds
  unfold connectors
  rw [succeeds_bind_and fun _ _ => succeeds_bind_and fun _ _ => succeeds_bind_and fun _ _ =>
    succeeds_bind_pure]
  simp only [succeeds_mapError, OpenAiConnector.new, AnthropicConnector.new, hkeyed, hazure,
    hbedrock, and_self]

/-- Four providers have a connector, however they are configured. -/
theorem connectors_known {host : Host κ} {p : Providers} {table : String → Option (Connector κ)}
    (h : connectors host p = .ok table) (provider : String) :
    (table provider).isSome = true ↔ provider ∈ providerNames := by
  simp only [connectors, bind_eq_ok] at h
  obtain ⟨openai, -, anthropic, -, azure, -, bedrock, -, htable⟩ := h
  obtain rfl := Except.ok.inj htable
  unfold connectorTable providerNames
  split_ifs <;> simp_all

theorem buildCache_succeeds {host : Host κ} {c : CacheConfig} :
    Succeeds (buildCache host c) ↔ (c.enabled = true → host.ttlAccepted c.ttlSeconds = true) := by
  unfold buildCache
  split_ifs <;> simp_all

theorem buildPlugin_succeeds {host : Host κ}
    (hwasm : ∀ name path budget mode, Succeeds (host.loadWasm name path budget mode))
    (p : PluginConfig) :
    Succeeds (buildPlugin host p) ↔ ∀ c, p = .wasm c → c.hook = supportedHook := by
  cases p with
  | piiRedaction c => simp [buildPlugin]
  | wasm c =>
      simp only [buildPlugin, PluginConfig.wasm.injEq, forall_eq']
      split_ifs with h
      · simpa using h
      · rw [succeeds_bind_pure, succeeds_mapError]
        exact iff_of_true (hwasm _ _ _ _) (not_not.mp h)

theorem buildRuntime_succeeds {host : Host κ} {config : Config}
    (hwasm : ∀ name path budget mode, Succeeds (host.loadWasm name path budget mode)) :
    Succeeds (buildRuntime host config) ↔ Buildable host config := by
  have hplugins : Succeeds (config.plugins.mapM (buildPlugin host)) ↔
      ∀ c, PluginConfig.wasm c ∈ config.plugins → c.hook = supportedHook := by
    rw [succeeds_mapM]
    constructor
    · intro h c hc
      exact (buildPlugin_succeeds hwasm _).mp (h _ hc) c rfl
    · rintro h p hp
      refine (buildPlugin_succeeds hwasm p).mpr ?_
      rintro c rfl
      exact h c hp
  have hregistry : ∀ table, connectors host config.providers = .ok table →
      (Succeeds (Registry.new table config.models) ↔
        ∀ m ∈ config.models, ∀ r ∈ routesOf m, r.provider ∈ providerNames) := by
    intro table htable
    simp only [Registry.new_succeeds, connectors_known htable]
  unfold buildRuntime
  rw [succeeds_bind_and fun table htable =>
    (succeeds_bind_and fun _ _ => succeeds_bind_and fun _ _ => succeeds_bind_pure).trans
      (and_congr_left' (succeeds_mapError.trans (hregistry table htable))),
    connectors_succeeds, buildCache_succeeds, hplugins]
  exact ⟨fun ⟨hclient, hroutes, hcache, hhooks⟩ => ⟨hclient, hroutes, hcache, hhooks⟩,
    fun h => ⟨h.client, h.routes, h.cache, h.hooks⟩⟩

theorem configValidate_succeeds (lib : Figment V) (path : String) :
    Succeeds (configValidate lib path) ↔ Succeeds (load lib (some path)) := by
  rw [configValidate, succeeds_bind_pure, succeeds_mapError]

theorem rebuild_succeeds (lib : Figment V) {host : Host κ}
    (hwasm : ∀ name path budget mode, Succeeds (host.loadWasm name path budget mode))
    (path : Option String) :
    Succeeds (rebuild lib host path) ↔
      ∃ config, load lib path = .ok config ∧ Buildable host config := by
  rw [rebuild, succeeds_bind]
  simp only [mapError_eq_ok, succeeds_mapError, buildRuntime_succeeds hwasm]

/-- The command predicts the reload exactly for the files that do not load and for those
that can also be built. -/
theorem validate_predicts_reload_iff (lib : Figment V) {host : Host κ}
    (hwasm : ∀ name path budget mode, Succeeds (host.loadWasm name path budget mode))
    (path : String) :
    (Succeeds (configValidate lib path) ↔ Succeeds (rebuild lib host (some path))) ↔
      ∀ config, load lib (some path) = .ok config → Buildable host config := by
  rw [configValidate_succeeds, rebuild_succeeds lib hwasm]
  constructor
  · intro h config hload
    obtain ⟨config', hload', hbuildable⟩ := h.mp ⟨config, hload⟩
    obtain rfl := Except.ok.inj (hload.symm.trans hload')
    exact hbuildable
  · intro h
    constructor
    · rintro ⟨config, hload⟩
      exact ⟨config, hload, h config hload⟩
    · rintro ⟨config, hload, -⟩
      exact ⟨config, hload⟩

section Sample

/-- Files are given as trees and the environment sets nothing. -/
def treeFigment (files : String → Json) : Figment Json where
  defaults _ := .object []
  yamlFile := files
  env _ _ := .object []
  merge
    | .object below, .object above =>
        .object (above ++ below.filter fun m => !above.any fun n => n.1 == m.1)
    | _, above => above
  extract v :=
    match File.config (fun _ => 0) v with
    | some config => .ok config
    | none => .error "invalid configuration"

/-- Every component loads, and a time to live may last a thousand years. -/
def sampleHost : Host Unit where
  var _ := none
  client := .ok ()
  loadWasm name _ _ _ := .ok ⟨name, fun _ => .pass⟩
  ttlAccepted seconds := decide (seconds.toNat ≤ 1000 * 365 * 24 * 3600)
  bundled := ⟨fun _ => none⟩
  tables := asciiTables
  serde := ⟨⟨id, fun _ => none, fun _ _ => none, fun _ => none⟩, Json.compact⟩

theorem sampleHost_loads (name path : String) (budget : UInt32) (mode : FailMode) :
    Succeeds (sampleHost.loadWasm name path budget mode) :=
  succeeds_ok _

/-- A runtime without models. -/
def emptyRuntime : BuiltRuntime Unit := (buildRuntime sampleHost {}).toOption.get rfl

theorem emptyRuntime_built : buildRuntime sampleHost {} = .ok emptyRuntime := rfl

/-- One model with a fallback and one plugin. -/
def sampleFile (fallback hook : String) : Json :=
  .object
    [("models", .array [.object
        [("name", .string "smart"),
          ("primary", .object [("provider", .string "openai"), ("model", .string "gpt-4o")]),
          ("fallbacks", .array [.object
            [("provider", .string fallback), ("model", .string "large")]])]]),
      ("plugins", .array [.object
        [("type", .string "wasm"), ("name", .string "guard"), ("path", .string "guard.wasm"),
          ("hook", .string hook)]])]

def sampleConfig (fallback hook : String) : Config where
  models := [{ name := "smart", primary := ⟨"openai", "gpt-4o"⟩, fallbacks := [⟨fallback, "large"⟩] }]
  plugins := [.wasm { name := "guard", path := "guard.wasm", hook := hook }]

theorem load_sample (fallback hook : String) :
    load (treeFigment fun _ => sampleFile fallback hook) (some "vp.yaml") =
      .ok (sampleConfig fallback hook) :=
  rfl

theorem sample_buildable : Buildable sampleHost (sampleConfig "anthropic" "inspect-request") where
  client := succeeds_ok _
  routes := by decide
  cache := by decide
  hooks := by simp [sampleConfig, supportedHook]

theorem validate_predicts_reload_sample :
    Succeeds (configValidate (treeFigment fun _ => sampleFile "anthropic" "inspect-request")
        "vp.yaml") ∧
      Succeeds (rebuild (treeFigment fun _ => sampleFile "anthropic" "inspect-request") sampleHost
        (some "vp.yaml")) := by
  have hvalid := (configValidate_succeeds (treeFigment fun _ =>
    sampleFile "anthropic" "inspect-request") "vp.yaml").mpr ⟨_, load_sample _ _⟩
  have hpredicts := (validate_predicts_reload_iff (treeFigment fun _ =>
    sampleFile "anthropic" "inspect-request") sampleHost_loads "vp.yaml").mpr (by
      intro config hload
      obtain rfl := Except.ok.inj ((load_sample _ _).symm.trans hload)
      exact sample_buildable)
  exact ⟨hvalid, hpredicts.mp hvalid⟩

/-- The command accepts a fallback to an unknown provider and an unsupported hook; the
reload refuses both. -/
theorem validate_accepts_unbuildable :
    (Succeeds (configValidate (treeFigment fun _ => sampleFile "mistral" "inspect-request")
        "vp.yaml") ∧
      rebuild (treeFigment fun _ => sampleFile "mistral" "inspect-request") sampleHost
        (some "vp.yaml") = .error (.error ("failed to build runtime from new config: " ++
          "failed to build model registry: configuration error: " ++
          "model 'smart' references unknown provider 'mistral'"))) ∧
    Succeeds (configValidate (treeFigment fun _ => sampleFile "anthropic" "inspect-response")
        "vp.yaml") ∧
      rebuild (treeFigment fun _ => sampleFile "anthropic" "inspect-response") sampleHost
        (some "vp.yaml") = .error (.error ("failed to build runtime from new config: " ++
          "wasm plugin 'guard' binds unsupported hook 'inspect-response'; " ++
          "only 'inspect-request' is supported")) := by
  refine ⟨⟨?_, by rfl⟩, ?_, by rfl⟩ <;>
    exact (configValidate_succeeds _ _).mpr ⟨_, load_sample _ _⟩

end Sample

end VaultplaneGateway.RuntimeBuilding
