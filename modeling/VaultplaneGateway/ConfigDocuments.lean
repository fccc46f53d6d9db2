import VaultplaneGateway.ConfigDecoding

/-!
# One document, two modes

A configuration document with any of its optional fields omitted, and the values that
write it: in camel case as the Control Node sends it, in snake case as the file has
it. Members may stand in any order, and members of other names are free.

Each decoder is described on documents: which it accepts and what it gives, whatever
value writes the document.
-/
namespace VaultplaneGateway.ConfigDocuments
open WireFormats ProxyPipeline StreamUsage DerivedDecoding ConfigOverlay ConfigDecoding

variable {τ σ : Type}

structure ModelDoc where
  name : String
  primary : Route
  fallbacks : Option (List Route)
  retryOn : Option (List UInt16)
  timeoutMs : Option UInt64

structure ProviderDoc where
  baseUrl : Option String
  apiKeyEnv : Option String

structure AzureDoc where
  baseUrl : Option String
  apiKeyEnv : Option String
  apiVersion : Option String

structure BedrockDoc where
  region : Option String
  accessKeyEnv : Option String
  secretKeyEnv : Option String
  sessionTokenEnv : Option String

structure ProvidersDoc where
  openai : Option ProviderDoc
  anthropic : Option ProviderDoc
  azure : Option AzureDoc
  bedrock : Option BedrockDoc

/-- The rates of one model, as the numbers stand in the text. -/
structure RatesDoc where
  input : Option Number
  output : Option Number

/-- Prices by provider, then by model, in the order of the text. -/
structure PricingDoc where
  providers : Option (List (String × List (String × RatesDoc)))

structure CacheDoc where
  enabled : Option Bool
  sizeMb : Option UInt64
  ttlSeconds : Option UInt64

structure PiiDoc where
  patterns : Option (List PiiPattern)
  replacement : Option String

structure WasmDoc where
  name : String
  path : String
  hook : Option String
  latencyBudgetMs : Option UInt32
  onTimeout : Option FailMode
  bindRoutes : Option (List String)

inductive PluginDoc where
  | pii (doc : PiiDoc)
  | wasm (doc : WasmDoc)

structure Document where
  models : Option (List ModelDoc)
  providers : Option ProvidersDoc
  pricing : Option PricingDoc
  cache : Option CacheDoc
  plugins : Option (List PluginDoc)

/-- The object has the member of that name once, with a value for `x`, or not at all
if `x` is omitted. -/
def Given (members : List (String × Json)) (name : String) (writes : Json → τ → Prop)
    (x : Option τ) : Prop :=
  ∃ v, structField members name = some v ∧ Option.Rel writes v x

def WritesString (v : Json) (s : String) : Prop := v = .string s

def WritesBool (v : Json) (b : Bool) : Prop := v = .bool b

def WritesU64 (v : Json) (n : UInt64) : Prop := v = .number (.unsigned n)

def WritesU32 (v : Json) (n : UInt32) : Prop := v = .number (.unsigned n.toUInt64)

def WritesU16 (v : Json) (n : UInt16) : Prop := v = .number (.unsigned n.toUInt64)

def WritesNumber (v : Json) (n : Number) : Prop := v = .number n

def WritesArray (writes : Json → τ → Prop) (v : Json) (xs : List τ) : Prop :=
  ∃ items, v = .array items ∧ List.Forall₂ writes items xs

def WritesMap (writes : Json → τ → Prop) (v : Json) (entries : List (String × τ)) : Prop :=
  ∃ members, v = .object members ∧
    List.Forall₂ (fun (m : String × Json) e => m.1 = e.1 ∧ writes m.2 e.2) members entries

def patternName : PiiPattern → String
  | .ssn => "ssn"
  | .creditCard => "credit_card"
  | .phoneUs => "phone_us"
  | .email => "email"

def WritesPattern (v : Json) (p : PiiPattern) : Prop := v = .string (patternName p)

def failModeName : FailMode → String
  | .failOpen => "fail-open"
  | .failClosed => "fail-closed"

def WritesFailMode (v : Json) (m : FailMode) : Prop := v = .string (failModeName m)

/-- The two spellings of the field names. -/
inductive Case where
  | camel | snake
  deriving DecidableEq

def Case.spell (c : Case) (camel snake : String) : String :=
  match c with
  | .camel => camel
  | .snake => snake

section Blocks

variable (c : Case)

def WritesRoute (v : Json) (r : Route) : Prop :=
  ∃ members, v = .object members ∧ Given members "provider" WritesString (some r.provider) ∧
    Given members "model" WritesString (some r.model)

def WritesModel (v : Json) (m : ModelDoc) : Prop :=
  ∃ members, v = .object members ∧ Given members "name" WritesString (some m.name) ∧
    Given members "primary" WritesRoute (some m.primary) ∧
    Given members "fallbacks" (WritesArray WritesRoute) m.fallbacks ∧
    Given members (c.spell "retryOn" "retry_on") (WritesArray WritesU16) m.retryOn ∧
    Given members (c.spell "timeoutMs" "timeout_ms") WritesU64 m.timeoutMs

def WritesProvider (v : Json) (p : ProviderDoc) : Prop :=
  ∃ members, v = .object members ∧
    Given members (c.spell "baseUrl" "base_url") WritesString p.baseUrl ∧
    Given members (c.spell "apiKeyEnv" "api_key_env") WritesString p.apiKeyEnv

def WritesAzure (v : Json) (p : AzureDoc) : Prop :=
  ∃ members, v = .object members ∧
    Given members (c.spell "baseUrl" "base_url") WritesString p.baseUrl ∧
    Given members (c.spell "apiKeyEnv" "api_key_env") WritesString p.apiKeyEnv ∧
    Given members (c.spell "apiVersion" "api_version") WritesString p.apiVersion

def WritesBedrock (v : Json) (p : BedrockDoc) : Prop :=
  ∃ members, v = .object members ∧ Given members "region" WritesString p.region ∧
    Given members (c.spell "accessKeyEnv" "access_key_env") WritesString p.accessKeyEnv ∧
    Given members (c.spell "secretKeyEnv" "secret_key_env") WritesString p.secretKeyEnv ∧
    Given members (c.spell "sessionTokenEnv" "session_token_env") WritesString p.sessionTokenEnv

def WritesProviders (v : Json) (p : ProvidersDoc) : Prop :=
  ∃ members, v = .object members ∧ Given members "openai" (WritesProvider c) p.openai ∧
    Given members "anthropic" (WritesProvider c) p.anthropic ∧
    Given members "azure" (WritesAzure c) p.azure ∧
    Given members "bedrock" (WritesBedrock c) p.bedrock

def WritesRates (v : Json) (r : RatesDoc) : Prop :=
  ∃ members, v = .object members ∧
    Given members (c.spell "inputPer1k" "input_per_1k_tokens_usd") WritesNumber r.input ∧
    Given members (c.spell "outputPer1k" "output_per_1k_tokens_usd") WritesNumber r.output

def WritesPricing (v : Json) (p : PricingDoc) : Prop :=
  ∃ members, v = .object members ∧
    Given members "providers" (WritesMap (WritesMap (WritesRates c))) p.providers

def WritesCache (v : Json) (d : CacheDoc) : Prop :=
  ∃ members, v = .object members ∧ Given members "enabled" WritesBool d.enabled ∧
    Given members (c.spell "sizeMb" "size_mb") WritesU64 d.sizeMb ∧
    Given members (c.spell "ttlSeconds" "ttl_seconds") WritesU64 d.ttlSeconds

/-- The tag and the other members stand side by side. -/
def WritesPlugin (v : Json) : PluginDoc → Prop
  | .pii p => ∃ members, v = .object members ∧
      Given members "type" WritesString (some "pii_redaction") ∧
      Given members "patterns" (WritesArray WritesPattern) p.patterns ∧
      Given members "replacement" WritesString p.replacement
  | .wasm w => ∃ members, v = .object members ∧
      Given members "type" WritesString (some "wasm") ∧
      Given members "name" WritesString (some w.name) ∧
      Given members "path" WritesString (some w.path) ∧
      Given members "hook" WritesString w.hook ∧
      Given members (c.spell "latencyBudgetMs" "latency_budget_ms") WritesU32 w.latencyBudgetMs ∧
      Given members (c.spell "onTimeout" "on_timeout") WritesFailMode w.onTimeout ∧
      Given members (c.spell "bindRoutes" "bind_routes") (WritesArray WritesString) w.bindRoutes

def WritesDocument (v : Json) (d : Document) : Prop :=
  ∃ members, v = .object members ∧ Given members "models" (WritesArray (WritesModel c)) d.models ∧
    Given members "providers" (WritesProviders c) d.providers ∧
    Given members "pricing" (WritesPricing c) d.pricing ∧
    Given members "cache" (WritesCache c) d.cache ∧
    Given members "plugins" (WritesArray (WritesPlugin c)) d.plugins

end Blocks

/-- A bundle also carries its version. -/
def WritesBundle (v : Json) (version : String) (d : Document) : Prop :=
  WritesDocument .camel v d ∧
    ∃ members, v = .object members ∧ Given members "version" WritesString (some version)

/-- On every value that writes `t` the reader answers `result t`. -/
def Reads (read : Json → Option σ) (writes : Json → τ → Prop) (result : τ → Option σ) : Prop :=
  ∀ v t, writes v t → read v = result t

section Readers

variable {members : List (String × Json)} {name : String} {writes : Json → τ → Prop}
  {x : Option τ} {read : Json → Option σ} {result : τ → Option σ} {f : τ → σ}

theorem Given.required (h : Given members name writes x) (hr : Reads read writes result) (i : ℕ) :
    (Fields.named members).required i name read = x.bind result := by
  obtain ⟨v, hv, hrel⟩ := h
  simp only [Fields.required, Fields.value, hv, Option.bind_eq_bind, Option.bind_some]
  cases hrel with
  | none => rfl
  | some hw => exact hr _ _ hw

theorem Given.defaulted (h : Given members name writes x) (hr : Reads read writes result) (i : ℕ)
    (default : σ) :
    (Fields.named members).defaulted i name default read = (x.map result).getD (some default) := by
  obtain ⟨v, hv, hrel⟩ := h
  simp only [Fields.defaulted, Fields.value, hv, Option.bind_eq_bind, Option.bind_some]
  cases hrel with
  | none => rfl
  | some hw => exact hr _ _ hw

theorem Given.total (h : Given members name writes x) (hr : Reads read writes fun t => some (f t))
    (i : ℕ) (default : σ) :
    (Fields.named members).defaulted i name default read = some ((x.map f).getD default) := by
  rw [h.defaulted hr]
  cases x <;> rfl

/-- A reader that refuses null reads an optional value as such. -/
theorem Reads.nullable (hr : Reads read writes fun t => some (f t)) (hnull : read .null = none) :
    Reads (nullable read) writes fun t => some (some (f t)) := by
  intro v t hw
  have hread := hr v t hw
  cases v with
  | null =>
      rw [hnull] at hread
      cases hread
  | _ => simp [DerivedDecoding.nullable, hread]

theorem Given.nullable (h : Given members name writes x)
    (hr : Reads read writes fun t => some (f t)) (hnull : read .null = none) (i : ℕ) :
    (Fields.named members).defaulted i name none (nullable read) = some (x.map f) := by
  rw [h.total (hr.nullable hnull)]
  cases x <;> rfl

theorem Given.optional (h : Given members name writes x)
    (hr : Reads read writes fun t => some (f t)) (hnull : read .null = none) (i : ℕ) :
    (Fields.named members).optional i name read = some (x.map f) := by
  obtain ⟨v, hv, hrel⟩ := h
  simp only [Fields.optional, Fields.value, hv, Option.bind_eq_bind, Option.bind_some]
  cases hrel with
  | none => rfl
  | @some v t hw =>
      have hread := hr _ _ hw
      cases v with
      | null =>
          rw [hnull] at hread
          cases hread
      | _ => simp [hread]

theorem reads_array (hr : Reads read writes result) :
    Reads (vec read) (WritesArray writes) fun xs => xs.mapM result := by
  rintro _ xs ⟨items, rfl, hall⟩
  change items.mapM read = xs.mapM result
  induction hall with
  | nil => rfl
  | cons hw _ ih => simp only [List.mapM_cons, hr _ _ hw, ih]

theorem reads_map (hr : Reads read writes result) :
    Reads (mapOf read) (WritesMap writes) fun es =>
      (es.mapM fun e => (result e.2).map fun y => (e.1, y)).map lookupLast := by
  rintro _ es ⟨members, rfl, hall⟩
  have hentries : members.mapM (fun m => (read m.2).map fun y => (m.1, y)) =
      es.mapM fun e => (result e.2).map fun y => (e.1, y) := by
    induction hall with
    | nil => rfl
    | cons hw _ ih => simp only [List.mapM_cons, hr _ _ hw.2, hw.1, ih]
  rw [mapOf, hentries]

end Readers

theorem mapM_all {f : τ → Option σ} {g : τ → σ} {xs : List τ} (h : ∀ x ∈ xs, f x = some (g x)) :
    xs.mapM f = some (xs.map g) := by
  induction xs with
  | nil => rfl
  | cons x xs ih =>
      obtain ⟨hx, hxs⟩ := List.forall_mem_cons.mp h
      simp [List.mapM_cons, hx, ih hxs]

theorem mapM_some (f : τ → σ) (xs : List τ) : (xs.mapM fun x => some (f x)) = some (xs.map f) :=
  mapM_all fun _ _ => rfl

theorem reads_list {read : Json → Option σ} {writes : Json → τ → Prop} {f : τ → σ}
    (hr : Reads read writes fun t => some (f t)) :
    Reads (vec read) (WritesArray writes) fun xs => some (xs.map f) := by
  intro v xs hw
  rw [reads_array hr v xs hw]
  exact mapM_some f xs

theorem reads_items {read : Json → Option τ} {writes : Json → τ → Prop}
    (hr : Reads read writes some) : Reads (vec read) (WritesArray writes) some := by
  intro v xs hw
  rw [reads_list hr v xs hw]
  exact congrArg some (List.map_id' xs)

theorem reads_string : Reads Json.asStr WritesString some := by
  rintro _ s rfl
  rfl

theorem reads_bool : Reads boolean WritesBool some := by
  rintro _ b rfl
  rfl

theorem reads_u64 : Reads Json.asU64 WritesU64 some := by
  rintro _ n rfl
  rfl

theorem reads_u32 : Reads u32 WritesU32 some := by
  rintro _ n rfl
  exact u32_count n

theorem reads_u16 : Reads u16 WritesU16 some := by
  rintro _ n rfl
  simpa [u16, Json.asU64] using n.toNat_lt

theorem reads_float (rate : Number → ℚ) :
    Reads (float rate) WritesNumber fun n => some (rate n) := by
  rintro _ n rfl
  rfl

theorem reads_pattern : Reads piiPattern WritesPattern some := by
  rintro _ p rfl
  cases p <;> rfl

theorem reads_failMode : Reads failMode WritesFailMode some := by
  rintro _ m rfl
  cases m <;> rfl

section Bundle

def routeDto (r : Route) : Dto.Route := ⟨r.provider, r.model⟩

def ModelDoc.toDto (m : ModelDoc) : Dto.ModelConfig :=
  ⟨m.name, routeDto m.primary, (m.fallbacks.map (List.map routeDto)).getD [], m.retryOn,
    m.timeoutMs⟩

def ProviderDoc.toDto (p : ProviderDoc) : Dto.ProviderConfig := ⟨p.baseUrl, p.apiKeyEnv⟩

def AzureDoc.toDto (p : AzureDoc) : Dto.AzureProviderConfig :=
  ⟨p.baseUrl, p.apiKeyEnv, p.apiVersion⟩

def BedrockDoc.toDto (p : BedrockDoc) : Dto.BedrockProviderConfig :=
  ⟨p.region, p.accessKeyEnv, p.secretKeyEnv, p.sessionTokenEnv⟩

def ProvidersDoc.toDto (p : ProvidersDoc) : Dto.Providers :=
  ⟨p.openai.map ProviderDoc.toDto, p.anthropic.map ProviderDoc.toDto, p.azure.map AzureDoc.toDto,
    p.bedrock.map BedrockDoc.toDto⟩

def RatesDoc.toDto (rate : Number → ℚ) (r : RatesDoc) : Dto.ModelPricing :=
  ⟨(r.input.map rate).getD 0, (r.output.map rate).getD 0⟩

def ratesTable (convert : RatesDoc → τ) (entries : List (String × List (String × RatesDoc))) :
    String → Option (String → Option τ) :=
  lookupLast (entries.map fun e => (e.1, lookupLast (e.2.map fun m => (m.1, convert m.2))))

def PricingDoc.toDto (rate : Number → ℚ) (p : PricingDoc) : Dto.Pricing :=
  ⟨ratesTable (RatesDoc.toDto rate) (p.providers.getD [])⟩

def CacheDoc.toDto (d : CacheDoc) : Dto.CacheConfig := ⟨d.enabled, d.sizeMb, d.ttlSeconds⟩

/-- A plugin without its hook is refused. -/
def PluginDoc.toDto : PluginDoc → Option Dto.Plugin
  | .pii p => some (.piiRedaction ⟨p.patterns, p.replacement⟩)
  | .wasm w => w.hook.map fun hook =>
      .wasm ⟨w.name, w.path, hook, w.latencyBudgetMs, w.onTimeout, w.bindRoutes.getD []⟩

def Document.toDto (rate : Number → ℚ) (version : String) (d : Document) :
    Option Dto.GatewayConfig :=
  ((d.plugins.getD []).mapM PluginDoc.toDto).map fun plugins =>
    ⟨version, (d.models.getD []).map ModelDoc.toDto,
      (d.providers.map ProvidersDoc.toDto).getD ⟨none, none, none, none⟩,
      d.pricing.map (PricingDoc.toDto rate), plugins, d.cache.map CacheDoc.toDto⟩

theorem bundle_route : Reads Bundle.route WritesRoute fun r => some (routeDto r) := by
  rintro _ r ⟨members, rfl, hprovider, hmodel⟩
  simp only [Bundle.route, fieldsOf, Option.bind_eq_bind, Option.bind_some,
    hprovider.required reads_string, hmodel.required reads_string]
  rfl

theorem bundle_model : Reads Bundle.modelConfig (WritesModel .camel) fun m => some m.toDto := by
  rintro _ m ⟨members, rfl, hname, hprimary, hfallbacks, hretry, htimeout⟩
  simp only [Case.spell] at hretry htimeout
  simp only [Bundle.modelConfig, fieldsOf, Option.bind_eq_bind, Option.bind_some,
    hname.required reads_string, hprimary.required bundle_route,
    hfallbacks.total (reads_list bundle_route), hretry.nullable (reads_items reads_u16) rfl,
    htimeout.nullable reads_u64 rfl, Option.map_id']
  rfl

theorem bundle_provider :
    Reads Bundle.providerConfig (WritesProvider .camel) fun p => some p.toDto := by
  rintro _ p ⟨members, rfl, hurl, hkey⟩
  simp only [Case.spell] at hurl hkey
  simp only [Bundle.providerConfig, fieldsOf, Option.bind_eq_bind, Option.bind_some,
    hurl.optional reads_string rfl, hkey.optional reads_string rfl, Option.map_id']
  rfl

theorem bundle_azure :
    Reads Bundle.azureProviderConfig (WritesAzure .camel) fun p => some p.toDto := by
  rintro _ p ⟨members, rfl, hurl, hkey, hversion⟩
  simp only [Case.spell] at hurl hkey hversion
  simp only [Bundle.azureProviderConfig, fieldsOf, Option.bind_eq_bind, Option.bind_some,
    hurl.optional reads_string rfl, hkey.optional reads_string rfl,
    hversion.optional reads_string rfl, Option.map_id']
  rfl

theorem bundle_bedrock :
    Reads Bundle.bedrockProviderConfig (WritesBedrock .camel) fun p => some p.toDto := by
  rintro _ p ⟨members, rfl, hregion, haccess, hsecret, hsession⟩
  simp only [Case.spell] at haccess hsecret hsession
  simp only [Bundle.bedrockProviderConfig, fieldsOf, Option.bind_eq_bind, Option.bind_some,
    hregion.optional reads_string rfl, haccess.optional reads_string rfl,
    hsecret.optional reads_string rfl, hsession.optional reads_string rfl, Option.map_id']
  rfl

theorem bundle_providers :
    Reads Bundle.providers (WritesProviders .camel) fun p => some p.toDto := by
  rintro _ p ⟨members, rfl, hopenai, hanthropic, hazure, hbedrock⟩
  simp only [Bundle.providers, fieldsOf, Option.bind_eq_bind, Option.bind_some,
    hopenai.optional bundle_provider rfl, hanthropic.optional bundle_provider rfl,
    hazure.optional bundle_azure rfl, hbedrock.optional bundle_bedrock rfl]
  rfl

theorem bundle_rates (rate : Number → ℚ) :
    Reads (Bundle.modelPricing rate) (WritesRates .camel) fun r => some (r.toDto rate) := by
  rintro _ r ⟨members, rfl, hinput, houtput⟩
  simp only [Case.spell] at hinput houtput
  simp only [Bundle.modelPricing, fieldsOf, Option.bind_eq_bind, Option.bind_some,
    hinput.total (reads_float rate), houtput.total (reads_float rate)]
  rfl

/-- A table of prices, if every price is read. -/
theorem reads_table {read : Json → Option σ} {writes : Json → RatesDoc → Prop}
    {convert : RatesDoc → σ} (hr : Reads read writes fun r => some (convert r)) :
    Reads (mapOf (mapOf read)) (WritesMap (WritesMap writes)) fun es =>
      some (ratesTable convert es) := by
  have hmodels : Reads (mapOf read) (WritesMap writes) fun ms =>
      some (lookupLast (ms.map fun m => (m.1, convert m.2))) := by
    intro v ms hw
    rw [reads_map hr v ms hw]
    simp only [Option.map_some, mapM_some]
  intro v es hw
  rw [reads_map hmodels v es hw]
  simp only [Option.map_some, mapM_some]
  rfl

theorem bundle_pricing (rate : Number → ℚ) :
    Reads (Bundle.pricing rate) (WritesPricing .camel) fun p => some (p.toDto rate) := by
  rintro _ p ⟨members, rfl, hproviders⟩
  simp only [Bundle.pricing, fieldsOf, Option.bind_eq_bind, Option.bind_some,
    hproviders.total (reads_table (bundle_rates rate))]
  cases hp : p.providers with
  | none => simp [PricingDoc.toDto, hp, ratesTable]; rfl
  | some es => simp [PricingDoc.toDto, hp]

theorem bundle_cache : Reads Bundle.cacheConfig (WritesCache .camel) fun d => some d.toDto := by
  rintro _ d ⟨members, rfl, henabled, hsize, httl⟩
  simp only [Case.spell] at hsize httl
  simp only [Bundle.cacheConfig, fieldsOf, Option.bind_eq_bind, Option.bind_some,
    henabled.optional reads_bool rfl, hsize.optional reads_u64 rfl, httl.optional reads_u64 rfl,
    Option.map_id']
  rfl

theorem bundle_plugin : Reads Bundle.plugin (WritesPlugin .camel) PluginDoc.toDto := by
  intro v p hw
  cases p with
  | pii p =>
      obtain ⟨members, rfl, ⟨_, htag, ⟨rfl⟩⟩, hpatterns, hreplacement⟩ := hw
      simp only [Bundle.plugin, tagged, htag, if_true, Bundle.piiRedactionPlugin, fieldsOf,
        Option.bind_eq_bind, Option.bind_some, hpatterns.nullable (reads_items reads_pattern) rfl,
        hreplacement.nullable reads_string rfl, Option.map_id']
      rfl
  | wasm w =>
      obtain ⟨members, rfl, ⟨_, htag, ⟨rfl⟩⟩, hname, hpath, hhook, hlatency, htimeout, hroutes⟩ := hw
      simp only [Case.spell] at hlatency htimeout hroutes
      simp only [Bundle.plugin, tagged, htag, Bundle.wasmPlugin, fieldsOf,
        Option.bind_eq_bind, Option.bind_some, hname.required reads_string,
        hpath.required reads_string, hhook.required reads_string,
        hlatency.nullable reads_u32 rfl, htimeout.nullable reads_failMode rfl,
        hroutes.total (reads_items reads_string), Option.map_id']
      cases hh : w.hook <;> simp [PluginDoc.toDto, hh]

theorem bundle_document (rate : Number → ℚ) {v : Json} {version : String} {d : Document}
    (h : WritesBundle v version d) : Bundle.gatewayConfig rate v = d.toDto rate version := by
  obtain ⟨⟨members, rfl, hmodels, hproviders, hpricing, hcache, hplugins⟩, members', heq, hversion⟩ := h
  obtain rfl := Json.object.inj heq
  simp only [Bundle.gatewayConfig, fieldsOf, Option.bind_eq_bind, Option.bind_some,
    hversion.required reads_string, hmodels.total (reads_list bundle_model),
    hproviders.total bundle_providers, hpricing.nullable (bundle_pricing rate) rfl,
    hplugins.defaulted (reads_array bundle_plugin), hcache.nullable bundle_cache rfl]
  obtain ⟨models, providers, pricing, cache, plugins⟩ := d
  cases plugins <;> cases models <;> simp [Document.toDto, Option.map_eq_bind]

end Bundle

section File

def ModelDoc.toFile (m : ModelDoc) : ModelConfig :=
  ⟨m.name, m.primary, m.fallbacks.getD [], m.retryOn.getD File.defaultRetryOn,
    m.timeoutMs.getD File.defaultTimeoutMs⟩

def ProviderDoc.toOpenAi (p : ProviderDoc) : OpenAiProvider :=
  let d : OpenAiProvider := {}
  ⟨p.baseUrl.getD d.baseUrl, p.apiKeyEnv.getD d.apiKeyEnv⟩

def ProviderDoc.toAnthropic (p : ProviderDoc) : AnthropicProvider :=
  let d : AnthropicProvider := {}
  ⟨p.baseUrl.getD d.baseUrl, p.apiKeyEnv.getD d.apiKeyEnv⟩

def AzureDoc.toFile (p : AzureDoc) : AzureProvider :=
  let d : AzureProvider := {}
  ⟨p.baseUrl.getD d.baseUrl, p.apiKeyEnv.getD d.apiKeyEnv, p.apiVersion.getD d.apiVersion⟩

def BedrockDoc.toFile (p : BedrockDoc) : BedrockProvider :=
  let d : BedrockProvider := {}
  ⟨p.region.getD d.region, p.accessKeyEnv.getD d.accessKeyEnv, p.secretKeyEnv.getD d.secretKeyEnv,
    p.sessionTokenEnv.getD d.sessionTokenEnv⟩

def ProvidersDoc.toFile (p : ProvidersDoc) : Providers :=
  let d : Providers := {}
  ⟨(p.openai.map ProviderDoc.toOpenAi).getD d.openai,
    (p.anthropic.map ProviderDoc.toAnthropic).getD d.anthropic,
    (p.azure.map AzureDoc.toFile).getD d.azure, (p.bedrock.map BedrockDoc.toFile).getD d.bedrock⟩

/-- A price without one of its rates is refused. -/
def RatesDoc.toFile (rate : Number → ℚ) (r : RatesDoc) : Option ModelPricing :=
  r.input.bind fun i => r.output.map fun o => ⟨rate i, rate o⟩

def modelsToFile (rate : Number → ℚ) (models : List (String × RatesDoc)) :
    Option (String → Option ModelPricing) :=
  (models.mapM fun (m : String × RatesDoc) =>
    (m.2.toFile rate).map fun y => (m.1, y)).map lookupLast

def PricingDoc.toFile (rate : Number → ℚ) (p : PricingDoc) : Option Pricing :=
  ((p.providers.getD []).mapM fun (e : String × List (String × RatesDoc)) =>
    (modelsToFile rate e.2).map fun y => (e.1, y)).map fun es => ⟨lookupLast es⟩

def CacheDoc.toFile (d : CacheDoc) : CacheConfig :=
  let b : CacheConfig := {}
  ⟨d.enabled.getD b.enabled, d.sizeMb.getD b.sizeMb, d.ttlSeconds.getD b.ttlSeconds⟩

def PluginDoc.toFile : PluginDoc → PluginConfig
  | .pii p => .piiRedaction ⟨p.patterns.getD File.defaultPiiPatterns,
      p.replacement.getD File.defaultRedactionReplacement⟩
  | .wasm w => .wasm ⟨w.name, w.path, w.hook.getD File.defaultPluginHook,
      w.latencyBudgetMs.getD File.defaultLatencyBudgetMs, w.onTimeout.getD File.defaultOnTimeout,
      w.bindRoutes.getD []⟩

def Document.toFile (rate : Number → ℚ) (d : Document) : Option Config :=
  let b : Config := {}
  ((d.pricing.map (PricingDoc.toFile rate)).getD (some b.pricing)).map fun pricing =>
    { b with
      models := (d.models.getD []).map ModelDoc.toFile
      providers := (d.providers.map ProvidersDoc.toFile).getD b.providers
      pricing := pricing
      cache := (d.cache.map CacheDoc.toFile).getD b.cache
      plugins := (d.plugins.getD []).map PluginDoc.toFile }

theorem file_route : Reads File.route WritesRoute some := by
  rintro _ r ⟨members, rfl, hprovider, hmodel⟩
  simp only [File.route, fieldsOf, Option.bind_eq_bind, Option.bind_some,
    hprovider.required reads_string, hmodel.required reads_string]
  rfl

theorem file_model : Reads File.modelConfig (WritesModel .snake) fun m => some m.toFile := by
  rintro _ m ⟨members, rfl, hname, hprimary, hfallbacks, hretry, htimeout⟩
  simp only [Case.spell] at hretry htimeout
  simp only [File.modelConfig, fieldsOf, Option.bind_eq_bind, Option.bind_some,
    hname.required reads_string, hprimary.required file_route,
    hfallbacks.total (reads_items file_route), hretry.total (reads_items reads_u16),
    htimeout.total reads_u64, Option.map_id']
  rfl

theorem file_openai :
    Reads File.openAiProvider (WritesProvider .snake) fun p => some p.toOpenAi := by
  rintro _ p ⟨members, rfl, hurl, hkey⟩
  simp only [Case.spell] at hurl hkey
  simp only [File.openAiProvider, fieldsOf, Option.bind_eq_bind, Option.bind_some,
    hurl.total reads_string, hkey.total reads_string, Option.map_id']
  rfl

theorem file_anthropic :
    Reads File.anthropicProvider (WritesProvider .snake) fun p => some p.toAnthropic := by
  rintro _ p ⟨members, rfl, hurl, hkey⟩
  simp only [Case.spell] at hurl hkey
  simp only [File.anthropicProvider, fieldsOf, Option.bind_eq_bind, Option.bind_some,
    hurl.total reads_string, hkey.total reads_string, Option.map_id']
  rfl

theorem file_azure : Reads File.azureProvider (WritesAzure .snake) fun p => some p.toFile := by
  rintro _ p ⟨members, rfl, hurl, hkey, hversion⟩
  simp only [Case.spell] at hurl hkey hversion
  simp only [File.azureProvider, fieldsOf, Option.bind_eq_bind, Option.bind_some,
    hurl.total reads_string, hkey.total reads_string, hversion.total reads_string, Option.map_id']
  rfl

theorem file_bedrock :
    Reads File.bedrockProvider (WritesBedrock .snake) fun p => some p.toFile := by
  rintro _ p ⟨members, rfl, hregion, haccess, hsecret, hsession⟩
  simp only [Case.spell] at haccess hsecret hsession
  simp only [File.bedrockProvider, fieldsOf, Option.bind_eq_bind, Option.bind_some,
    hregion.total reads_string, haccess.total reads_string, hsecret.total reads_string,
    hsession.total reads_string, Option.map_id']
  rfl

theorem file_providers :
    Reads File.providers (WritesProviders .snake) fun p => some p.toFile := by
  rintro _ p ⟨members, rfl, hopenai, hanthropic, hazure, hbedrock⟩
  simp only [File.providers, fieldsOf, Option.bind_eq_bind, Option.bind_some,
    hopenai.total file_openai, hanthropic.total file_anthropic, hazure.total file_azure,
    hbedrock.total file_bedrock]
  rfl

theorem file_rates (rate : Number → ℚ) :
    Reads (File.modelPricing rate) (WritesRates .snake) fun r => r.toFile rate := by
  rintro _ r ⟨members, rfl, hinput, houtput⟩
  simp only [Case.spell] at hinput houtput
  simp only [File.modelPricing, fieldsOf, Option.bind_eq_bind, Option.bind_some,
    hinput.required (reads_float rate), houtput.required (reads_float rate)]
  cases hi : r.input <;> cases ho : r.output <;> simp [RatesDoc.toFile, hi, ho]

theorem file_pricing (rate : Number → ℚ) :
    Reads (File.pricing rate) (WritesPricing .snake) fun p => p.toFile rate := by
  rintro _ p ⟨members, rfl, hproviders⟩
  have hmodels : Reads (mapOf (File.modelPricing rate)) (WritesMap (WritesRates .snake))
      (modelsToFile rate) := reads_map (file_rates rate)
  simp only [File.pricing, fieldsOf, Option.bind_eq_bind, Option.bind_some,
    hproviders.defaulted (reads_map hmodels)]
  cases hp : p.providers with
  | none => simp [PricingDoc.toFile, hp]; rfl
  | some es =>
      simp only [PricingDoc.toFile, hp, Option.map_some, Option.getD_some]
      cases es.mapM fun e => (modelsToFile rate e.2).map fun y => (e.1, y) <;> rfl

theorem file_cache : Reads File.cacheConfig (WritesCache .snake) fun d => some d.toFile := by
  rintro _ d ⟨members, rfl, henabled, hsize, httl⟩
  simp only [Case.spell] at hsize httl
  simp only [File.cacheConfig, fieldsOf, Option.bind_eq_bind, Option.bind_some,
    henabled.total reads_bool, hsize.total reads_u64, httl.total reads_u64, Option.map_id']
  rfl

theorem file_plugin :
    Reads File.pluginConfig (WritesPlugin .snake) fun p => some p.toFile := by
  intro v p hw
  cases p with
  | pii p =>
      obtain ⟨members, rfl, ⟨_, htag, ⟨rfl⟩⟩, hpatterns, hreplacement⟩ := hw
      simp only [File.pluginConfig, tagged, htag, if_true, File.piiRedactionConfig, fieldsOf,
        Option.bind_eq_bind, Option.bind_some, hpatterns.total (reads_items reads_pattern),
        hreplacement.total reads_string, Option.map_id']
      rfl
  | wasm w =>
      obtain ⟨members, rfl, ⟨_, htag, ⟨rfl⟩⟩, hname, hpath, hhook, hlatency, htimeout, hroutes⟩ := hw
      simp only [Case.spell] at hlatency htimeout hroutes
      simp only [File.pluginConfig, tagged, htag, File.wasmPluginConfig, fieldsOf,
        Option.bind_eq_bind, Option.bind_some, hname.required reads_string,
        hpath.required reads_string, hhook.total reads_string, hlatency.total reads_u32,
        htimeout.total reads_failMode, hroutes.total (reads_items reads_string), Option.map_id']
      rfl

theorem file_document (rate : Number → ℚ) {v : Json} {d : Document}
    (h : WritesDocument .snake v d) : File.config rate v = d.toFile rate := by
  obtain ⟨members, rfl, hmodels, hproviders, hpricing, hcache, hplugins⟩ := h
  simp only [File.config, fieldsOf, Option.bind_eq_bind, Option.bind_some,
    hmodels.total (reads_list file_model), hproviders.total file_providers,
    hpricing.defaulted (file_pricing rate), hplugins.total (reads_list file_plugin),
    hcache.total file_cache]
  obtain ⟨models, providers, pricing, cache, plugins⟩ := d
  cases models <;> cases plugins <;> simp [Document.toFile, Option.map_eq_bind]

end File

end VaultplaneGateway.ConfigDocuments
