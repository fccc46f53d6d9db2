import VaultplaneGateway.ConfigDocuments

/-!
# The two modes compared

What the bundle of a document gives over the default configuration, against what its
file gives. They differ in two places. The bundle requires the hook of a WebAssembly
plugin, for which the file has a default; the file requires both rates of a price, for
which the bundle has a default.
-/
namespace VaultplaneGateway.ConfigModes
open WireFormats ProxyPipeline StreamUsage DerivedDecoding ConfigOverlay ConfigDecoding
  ConfigDocuments

variable {τ σ : Type}

/-- Every WebAssembly plugin has a hook. -/
def HooksGiven (d : Document) : Prop :=
  ∀ w, PluginDoc.wasm w ∈ d.plugins.getD [] → w.hook.isSome = true

/-- Every price has both rates. -/
def RatesGiven (d : Document) : Prop :=
  ∀ p ∈ d.pricing, ∀ e ∈ p.providers.getD [], ∀ m ∈ e.2,
    m.2.input.isSome = true ∧ m.2.output.isSome = true

theorem mapM_eq_none {f : τ → Option σ} {xs : List τ} (h : ∃ x ∈ xs, f x = none) :
    xs.mapM f = none := by
  induction xs with
  | nil =>
      obtain ⟨x, hx, -⟩ := h
      cases hx
  | cons x xs ih =>
      cases hf : f x with
      | none => simp [List.mapM_cons, hf]
      | some y =>
          obtain ⟨z, hz, hnone⟩ := h
          rcases List.mem_cons.mp hz with rfl | hz
          · rw [hf] at hnone
            cases hnone
          · simp [List.mapM_cons, hf, ih ⟨z, hz, hnone⟩]

theorem mapM_eq_some {ρ : Type} {f : τ → Option σ} {g : σ → ρ} {h : τ → ρ} {xs : List τ}
    (hall : ∀ x ∈ xs, (f x).map g = some (h x)) : (xs.mapM f).map (List.map g) = some (xs.map h) := by
  induction xs with
  | nil => rfl
  | cons x xs ih =>
      obtain ⟨hx, hxs⟩ := List.forall_mem_cons.mp hall
      obtain ⟨y, hy, hgy⟩ := Option.map_eq_some_iff.mp hx
      obtain ⟨ys, hys, hgys⟩ := Option.map_eq_some_iff.mp (ih hxs)
      simp [List.mapM_cons, hy, hys, hgy, hgys]

theorem lookupLast_map (f : τ → σ) (es : List (String × τ)) (name : String) :
    lookupLast (es.map fun e => (e.1, f e.2)) name = (lookupLast es name).map f := by
  unfold lookupLast
  rw [← List.map_reverse, List.find?_map, Option.map_map, Option.map_map]
  rfl

/-- With their hooks given, the plugins of the bundle are those of the file. -/
theorem plugins_agree_of_hooks {plugins : List PluginDoc}
    (h : ∀ w, PluginDoc.wasm w ∈ plugins → w.hook.isSome = true) :
    (plugins.mapM PluginDoc.toDto).map (List.map mapPlugin) = some (plugins.map PluginDoc.toFile) := by
  refine mapM_eq_some fun p hp => ?_
  cases p with
  | pii p => rfl
  | wasm w =>
      obtain ⟨hook, hhook⟩ := Option.isSome_iff_exists.mp (h w hp)
      simp only [PluginDoc.toDto, PluginDoc.toFile, hhook]
      rfl

theorem plugins_refused {plugins : List PluginDoc}
    (h : ¬ ∀ w, PluginDoc.wasm w ∈ plugins → w.hook.isSome = true) :
    plugins.mapM PluginDoc.toDto = none := by
  push Not at h
  obtain ⟨w, hw, hhook⟩ := h
  refine mapM_eq_none ⟨.wasm w, hw, ?_⟩
  rw [PluginDoc.toDto, Option.not_isSome_iff_eq_none.mp hhook]
  rfl

def ratesOf (r : Dto.ModelPricing) : ModelPricing := ⟨r.inputPer1k, r.outputPer1k⟩

theorem ratesTable_map (convert : RatesDoc → τ) (f : τ → σ)
    (entries : List (String × List (String × RatesDoc))) (provider : String) :
    ratesTable (fun r => f (convert r)) entries provider =
      (ratesTable convert entries provider).map fun models model => (models model).map f := by
  have hmodels : ∀ models : List (String × RatesDoc),
      lookupLast (models.map fun m => (m.1, f (convert m.2))) =
        fun model => (lookupLast (models.map fun m => (m.1, convert m.2)) model).map f := by
    intro models
    funext model
    rw [← lookupLast_map f, List.map_map]
    rfl
  unfold ratesTable
  simp only [hmodels]
  rw [← lookupLast_map, List.map_map]
  rfl

theorem rates_agree (rate : Number → ℚ) {r : RatesDoc}
    (h : r.input.isSome = true ∧ r.output.isSome = true) :
    r.toFile rate = some (ratesOf (r.toDto rate)) := by
  obtain ⟨i, hi⟩ := Option.isSome_iff_exists.mp h.1
  obtain ⟨o, ho⟩ := Option.isSome_iff_exists.mp h.2
  simp [RatesDoc.toFile, RatesDoc.toDto, ratesOf, hi, ho]

theorem rates_refused (rate : Number → ℚ) {r : RatesDoc}
    (h : ¬ (r.input.isSome = true ∧ r.output.isSome = true)) : r.toFile rate = none := by
  unfold RatesDoc.toFile
  cases hi : r.input with
  | none => rfl
  | some i =>
      cases ho : r.output with
      | none => rfl
      | some o => simp [hi, ho] at h

/-- With their rates given, the prices of the file are those of the bundle. -/
theorem pricing_agrees_of_rates (rate : Number → ℚ) {p : PricingDoc}
    (h : ∀ e ∈ p.providers.getD [], ∀ m ∈ e.2, m.2.input.isSome = true ∧ m.2.output.isSome = true) :
    p.toFile rate = some (mapPricing (p.toDto rate)) := by
  have hmodels : ∀ e ∈ p.providers.getD [], modelsToFile rate e.2 =
      some (lookupLast (e.2.map fun m => (m.1, ratesOf (m.2.toDto rate)))) := by
    intro e he
    have hall : ∀ m ∈ e.2, ((m.2.toFile rate).map fun y => (m.1, y)) =
        some (m.1, ratesOf (m.2.toDto rate)) := by
      intro m hm
      rw [rates_agree rate (h e he m hm)]
      rfl
    rw [modelsToFile, mapM_all hall]
    rfl
  have hproviders : ∀ e ∈ p.providers.getD [],
      ((modelsToFile rate e.2).map fun y => (e.1, y)) =
        some (e.1, lookupLast (e.2.map fun m => (m.1, ratesOf (m.2.toDto rate)))) := by
    intro e he
    rw [hmodels e he]
    rfl
  rw [PricingDoc.toFile, mapM_all hproviders, Option.map_some, Option.some_inj]
  exact congrArg Pricing.mk (funext (ratesTable_map (RatesDoc.toDto rate) ratesOf _))

theorem pricing_refused (rate : Number → ℚ) {p : PricingDoc}
    (h : ¬ ∀ e ∈ p.providers.getD [], ∀ m ∈ e.2,
      m.2.input.isSome = true ∧ m.2.output.isSome = true) : p.toFile rate = none := by
  push Not at h
  obtain ⟨e, he, m, hm, hrates⟩ := h
  have hmodel : ((m.2.toFile rate).map fun y => (m.1, y)) = none := by
    rw [rates_refused rate fun both => hrates both.1 both.2]
    rfl
  have hmodels : modelsToFile rate e.2 = none := by
    rw [modelsToFile, mapM_eq_none ⟨m, hm, hmodel⟩]
    rfl
  rw [PricingDoc.toFile, mapM_eq_none ⟨e, he, by rw [hmodels]; rfl⟩]
  rfl

/-- The blocks a bundle distributes. -/
def distributed (c : Config) :
    List ModelConfig × Providers × Pricing × CacheConfig × List PluginConfig :=
  (c.models, c.providers, c.pricing, c.cache, c.plugins)

/-- What a document means where every hook and every rate is given: an omitted field has
the default of the file, an omitted block the default block. -/
def blocks (rate : Number → ℚ) (d : Document) :
    List ModelConfig × Providers × Pricing × CacheConfig × List PluginConfig :=
  let b : Config := {}
  ((d.models.getD []).map ModelDoc.toFile, (d.providers.map ProvidersDoc.toFile).getD b.providers,
    (d.pricing.map fun p => mapPricing (p.toDto rate)).getD b.pricing,
    (d.cache.map CacheDoc.toFile).getD b.cache, (d.plugins.getD []).map PluginDoc.toFile)

theorem models_agree (m : ModelDoc) : mapModel m.toDto = m.toFile := by
  obtain ⟨name, primary, fallbacks, retryOn, timeoutMs⟩ := m
  cases fallbacks with
  | none => rfl
  | some routes =>
      have hroutes : (routes.map routeDto).map mapRoute = routes := by
        rw [List.map_map]
        exact List.map_id routes
      simp only [mapModel, ModelDoc.toDto, ModelDoc.toFile, Option.map_some, Option.getD_some,
        hroutes]
      rfl

theorem providers_agree (p : ProvidersDoc) :
    applyProviders ({} : Config).providers p.toDto = p.toFile := by
  obtain ⟨openai, anthropic, azure, bedrock⟩ := p
  cases openai <;> cases anthropic <;> cases azure <;> cases bedrock <;> rfl

/-- The bundle is accepted exactly when every hook is given, whatever rates are omitted. -/
theorem bundle_gives (rate : Number → ℚ) (version : String) (d : Document) [Decidable (HooksGiven d)] :
    (d.toDto rate version).map (fun b => distributed (applyConfig {} b)) =
      if HooksGiven d then some (blocks rate d) else none := by
  split
  · next h =>
      have hplugins := plugins_agree_of_hooks h
      obtain ⟨plugins, hread, hmapped⟩ := Option.map_eq_some_iff.mp hplugins
      rw [Document.toDto, hread]
      obtain ⟨models, providers, pricing, cache, plugins'⟩ := d
      have hmodels : ((models.getD []).map ModelDoc.toDto).map mapModel =
          (models.getD []).map ModelDoc.toFile := by
        rw [List.map_map]
        exact List.map_congr_left fun m _ => models_agree m
      have hproviders : applyProviders ({} : Config).providers
          ((providers.map ProvidersDoc.toDto).getD ⟨none, none, none, none⟩) =
            (providers.map ProvidersDoc.toFile).getD ({} : Config).providers := by
        cases providers with
        | none => rfl
        | some p => exact providers_agree p
      have hpricing : ((pricing.map (PricingDoc.toDto rate)).map mapPricing).getD
          ({} : Config).pricing =
            (pricing.map fun p => mapPricing (p.toDto rate)).getD ({} : Config).pricing := by
        cases pricing <;> rfl
      have hcache : ((cache.map CacheDoc.toDto).map (applyCache ({} : Config).cache)).getD
          ({} : Config).cache = (cache.map CacheDoc.toFile).getD ({} : Config).cache := by
        cases cache <;> rfl
      simp only [Option.map_some, applyConfig, distributed, blocks, hmodels, hproviders,
        hpricing, hcache, hmapped]
  · next h =>
      rw [Document.toDto, plugins_refused h]
      rfl

/-- The file is accepted exactly when every rate is given, whatever hooks are omitted. -/
theorem file_gives (rate : Number → ℚ) (d : Document) [Decidable (RatesGiven d)] :
    (d.toFile rate).map distributed = if RatesGiven d then some (blocks rate d) else none := by
  obtain ⟨models, providers, pricing, cache, plugins⟩ := d
  cases pricing with
  | none =>
      have h : RatesGiven ⟨models, providers, none, cache, plugins⟩ := by
        rintro p ⟨⟩
      rw [if_pos h]
      rfl
  | some p =>
      split
      · next h =>
          simp only [Document.toFile, Option.map_some, Option.getD_some,
            pricing_agrees_of_rates rate (h p rfl)]
          rfl
      · next h =>
          have hrates : p.toFile rate = none := by
            refine pricing_refused rate fun hall => h ?_
            rintro q ⟨⟩
            exact hall
          simp only [Document.toFile, Option.map_some, Option.getD_some, hrates]
          rfl

/-- The two modes agree on a document exactly when it gives every hook and every rate,
or omits both a hook and a rate, so that neither accepts it. -/
theorem modes_agree_iff (rate : Number → ℚ) {v w : Json} {version : String} {d : Document}
    (hv : WritesBundle v version d) (hw : WritesDocument .snake w d) :
    (Bundle.gatewayConfig rate v).map (fun b => distributed (applyConfig {} b)) =
        (File.config rate w).map distributed ↔
      (HooksGiven d ↔ RatesGiven d) := by
  classical
  rw [bundle_document rate hv, file_document rate hw, bundle_gives, file_gives]
  by_cases hhooks : HooksGiven d <;> by_cases hrates : RatesGiven d <;> simp [hhooks, hrates]

section Guard

/-- One plugin, whose hook is as given, and one price, whose output rate is as given. -/
def guarded (hook : Option String) (output : Option Number) : Document where
  models := some []
  providers := none
  pricing := some ⟨some [("openai", [("gpt-4o", ⟨some (.unsigned 3), output⟩)])]⟩
  cache := none
  plugins := some [.wasm ⟨"guard", "guard.wasm", hook, some 20, none, none⟩]

/-- The members of an optional field. -/
def member (name : String) (value : Option Json) : List (String × Json) :=
  (value.map fun v => (name, v)).toList

def guardedForm (c : Case) (hook : Option String) (output : Option Number) : Json :=
  .object
    [("version", .string "7"), ("models", .array []),
      ("pricing", .object [("providers", .object [("openai", .object [("gpt-4o", .object
        ((c.spell "inputPer1k" "input_per_1k_tokens_usd", .number (.unsigned 3)) ::
          member (c.spell "outputPer1k" "output_per_1k_tokens_usd") (output.map .number)))])])]),
      ("plugins", .array [.object
        ([("type", .string "wasm"), ("name", .string "guard"), ("path", .string "guard.wasm"),
          (c.spell "latencyBudgetMs" "latency_budget_ms", .number (.unsigned 20))] ++
            member "hook" (hook.map .string))])]

theorem given_some {members : List (String × Json)} {name : String} {writes : Json → τ → Prop}
    {v : Json} {t : τ} (hfield : structField members name = some (some v)) (hw : writes v t) :
    Given members name writes (some t) :=
  ⟨some v, hfield, .some hw⟩

theorem given_none {members : List (String × Json)} {name : String} {writes : Json → τ → Prop}
    (hfield : structField members name = some none) : Given members name writes none :=
  ⟨none, hfield, .none⟩

theorem given_member {members : List (String × Json)} {name : String} {writes : Json → τ → Prop}
    {wrap : τ → Json} (x : Option τ) (hfield : structField members name = some (x.map wrap))
    (hw : ∀ t, writes (wrap t) t) : Given members name writes x := by
  refine ⟨_, hfield, ?_⟩
  cases x with
  | none => exact .none
  | some t => exact .some (hw t)

theorem guardedForm_writes (c : Case) (hook : Option String) (output : Option Number) :
    WritesDocument c (guardedForm c hook output) (guarded hook output) := by
  refine ⟨_, rfl, given_some rfl ⟨_, rfl, .nil⟩, given_none rfl, given_some rfl ?_,
    given_none rfl, given_some rfl ⟨_, rfl, .cons ?_ .nil⟩⟩
  · refine ⟨_, rfl, given_some rfl ⟨_, rfl, .cons ⟨rfl, _, rfl, .cons ⟨rfl, ?_⟩ .nil⟩ .nil⟩⟩
    refine ⟨_, rfl, given_some ?_ rfl, given_member output ?_ fun _ => rfl⟩ <;>
      cases c <;> cases output <;> rfl
  · refine ⟨_, rfl, given_some ?_ rfl, given_some ?_ rfl, given_some ?_ rfl,
      given_member hook ?_ fun _ => rfl, given_some ?_ rfl, given_none ?_, given_none ?_⟩ <;>
      cases c <;> cases hook <;> rfl

theorem guardedForm_bundle (hook : Option String) (output : Option Number) :
    WritesBundle (guardedForm .camel hook output) "7" (guarded hook output) :=
  ⟨guardedForm_writes .camel hook output, _, rfl, given_some rfl rfl⟩

/-- Whole dollars. -/
def dollars : Number → ℚ
  | .unsigned n => n.toNat
  | _ => 0

theorem modes_agree_iff_guarded :
    HooksGiven (guarded (some "inspect-request") (some (.unsigned 4))) ∧
      RatesGiven (guarded (some "inspect-request") (some (.unsigned 4))) ∧
      (Bundle.gatewayConfig dollars
          (guardedForm .camel (some "inspect-request") (some (.unsigned 4)))).map
            (fun b => distributed (applyConfig {} b)) =
        (File.config dollars
          (guardedForm .snake (some "inspect-request") (some (.unsigned 4)))).map distributed := by
  have hhooks : HooksGiven (guarded (some "inspect-request") (some (.unsigned 4))) := by
    simp [HooksGiven, guarded]
  have hrates : RatesGiven (guarded (some "inspect-request") (some (.unsigned 4))) := by
    simp [RatesGiven, guarded]
  refine ⟨hhooks, hrates, ?_⟩
  have hiff := modes_agree_iff dollars (guardedForm_bundle (some "inspect-request")
    (some (.unsigned 4))) (guardedForm_writes .snake (some "inspect-request") (some (.unsigned 4)))
  exact hiff.mpr ⟨fun _ => hrates, fun _ => hhooks⟩

/-- A plugin without its hook is refused in the bundle alone, a price without its
output rate in the file alone. -/
theorem omissions_divide_modes :
    (WritesBundle (guardedForm .camel none (some (.unsigned 4))) "7"
        (guarded none (some (.unsigned 4))) ∧
      WritesDocument .snake (guardedForm .snake none (some (.unsigned 4)))
        (guarded none (some (.unsigned 4))) ∧
      (Bundle.gatewayConfig dollars (guardedForm .camel none (some (.unsigned 4)))).isSome = false ∧
      (File.config dollars (guardedForm .snake none (some (.unsigned 4)))).isSome = true) ∧
    WritesBundle (guardedForm .camel (some "inspect-request") none) "7"
        (guarded (some "inspect-request") none) ∧
      WritesDocument .snake (guardedForm .snake (some "inspect-request") none)
        (guarded (some "inspect-request") none) ∧
      (Bundle.gatewayConfig dollars
        (guardedForm .camel (some "inspect-request") none)).isSome = true ∧
      (File.config dollars (guardedForm .snake (some "inspect-request") none)).isSome = false :=
  ⟨⟨guardedForm_bundle _ _, guardedForm_writes _ _ _, rfl, rfl⟩,
    guardedForm_bundle _ _, guardedForm_writes _ _ _, rfl, rfl⟩

end Guard

end VaultplaneGateway.ConfigModes
