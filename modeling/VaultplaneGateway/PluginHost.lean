import VaultplaneGateway.CacheProvenance
import VaultplaneGateway.GateOrder
import VaultplaneGateway.RuntimeBuilding

/-!
# The plugin host

A WebAssembly plugin is loaded once and runs in a store of its own for every request,
under a deadline that is counted in ticks. The engine is another crate: it compiles and
links a component, makes an instance and calls it, and each of these may fail. A plugin
that fails to evaluate a request lets it through unchanged or blocks it, as its
configuration says; a plugin that fails to load is no plugin.

The chain of a runtime is then described by the configuration alone: which plugins have
seen a request that is let through, and which one has blocked it.
-/
namespace VaultplaneGateway.PluginHost
open WireFormats InlinePlugins ProxyPipeline ConfigOverlay RuntimeBuilding PiiRedaction
open FallibleComputations

variable {κ C I P N : Type}

/-- An action of the plugin interface. -/
inductive Action where
  | pass
  | modify (request : PluginRequest)
  | reject (info : RejectInfo)
  deriving DecidableEq, Repr

/-- The engine, from a source to a component, a linked component, one that has the
contract, and an instance of it. A call is made under a limit of memory and a deadline. -/
structure Engine (C I P N : Type) where
  fetchRemote : String → Except String Bytes
  fromBinary : Bytes → Except String C
  fromFile : String → Except String C
  addToLinker : Except String Unit
  instantiatePre : C → Except String I
  pluginPre : I → Except String P
  instantiate : ℕ → UInt64 → P → Except String N
  callInspectRequest : N → PluginRequest → Except String Action

def isHttpUrl (source : String) : Bool :=
  (stripPrefix source "http://").isSome || (stripPrefix source "https://").isSome

def defaultMemoryBytes : ℕ := 64 * 1024 * 1024

def failClosedStatus : UInt16 := 403

structure WasmPlugin (P : Type) where
  name : String
  pre : P
  budgetTicks : UInt64
  onTimeout : FailMode
  memoryBytes : ℕ

/-- An error with its context in front. -/
def withContext {ε : Type} (x : Except String ε) (note : String) : Except String ε :=
  x.mapError fun e => note ++ ": " ++ e

def component (engine : Engine C I P N) (name source : String) : Except String C :=
  if isHttpUrl source then do
    let bytes ← withContext (engine.fetchRemote source)
      ("failed to download wasm plugin '" ++ name ++ "' from " ++ source)
    withContext (engine.fromBinary bytes)
      ("wasm plugin '" ++ name ++ "' downloaded from " ++ source ++ " is invalid")
  else
    let path := (stripPrefix source "file://").getD source
    withContext (engine.fromFile path)
      ("failed to load wasm plugin '" ++ name ++ "' from " ++ path)

/-- A budget below a millisecond still has a tick. -/
def ticksOf (latencyBudgetMs : UInt32) : UInt64 := max latencyBudgetMs.toUInt64 1

def WasmPlugin.load (engine : Engine C I P N) (name source : String) (latencyBudgetMs : UInt32)
    (onTimeout : FailMode) : Except String (WasmPlugin P) := do
  let component ← component engine name source
  let _ ← withContext engine.addToLinker "failed to add WASI to the plugin linker"
  let instancePre ← withContext (engine.instantiatePre component)
    ("wasm plugin '" ++ name ++ "' failed to link")
  let pre ← withContext (engine.pluginPre instancePre)
    ("wasm plugin '" ++ name ++ "' does not implement the inspect contract")
  pure ⟨name, pre, ticksOf latencyBudgetMs, onTimeout, defaultMemoryBytes⟩

def blocked (name : String) : RejectInfo :=
  ⟨"request blocked: plugin '" ++ name ++ "' could not evaluate it", failClosedStatus⟩

def WasmPlugin.circuitBreak (p : WasmPlugin P) : Decision :=
  match p.onTimeout with
  | .failOpen => .pass
  | .failClosed => .reject (blocked p.name)

def mapAction : Action → Decision
  | .pass => .pass
  | .modify request => .modify request
  | .reject info => .reject info

def WasmPlugin.run (engine : Engine C I P N) (p : WasmPlugin P) (request : PluginRequest) : Decision :=
  match engine.instantiate p.memoryBytes p.budgetTicks p.pre with
  | .error _ => p.circuitBreak
  | .ok plugin =>
      match engine.callInspectRequest plugin request with
      | .ok action => mapAction action
      | .error _ => p.circuitBreak

/-- What the builder of a runtime uses of the host. -/
def loadWasm (engine : Engine C I P N) (name source : String) (latencyBudgetMs : UInt32)
    (onTimeout : FailMode) : Except String Plugin := do
  let plugin ← WasmPlugin.load engine name source latencyBudgetMs onTimeout
  pure ⟨plugin.name, plugin.run engine⟩

/-- An evaluation of the component: an action, or the text of what went wrong. -/
def evaluate (engine : Engine C I P N) (c : WasmPluginConfig) (pre : P) (request : PluginRequest) :
    Except String Action := do
  let plugin ← engine.instantiate defaultMemoryBytes (ticksOf c.latencyBudgetMs) pre
  engine.callInspectRequest plugin request

/-- The component that the configuration names. -/
def Loaded (engine : Engine C I P N) (c : WasmPluginConfig) (pre : P) : Prop :=
  ∃ compiled linked, component engine c.name c.path = .ok compiled ∧
    engine.addToLinker = .ok () ∧ engine.instantiatePre compiled = .ok linked ∧
    engine.pluginPre linked = .ok pre

/-- The plugin runs for requests of this model. -/
def bound (model : String) : PluginConfig → Prop
  | .piiRedaction _ => True
  | .wasm c => c.bindRoutes = [] ∨ model ∈ c.bindRoutes

def nameOf : PluginConfig → String
  | .piiRedaction _ => "pii-redaction"
  | .wasm c => c.name

section
variable (host : Host κ) (engine : Engine C I P N) (path model : String)

/-- The plugin lets a body through and leaves a body. -/
inductive Inspects : PluginConfig → Bytes → Bytes → Prop
  | unchanged (c : PiiRedactionConfig) (body : Bytes)
      (h : (PiiRedactionPlugin.new host.tables c.patterns c.replacement).inspectRequest host.serde
        host.tables (pluginRequest path body) = .pass) : Inspects (.piiRedaction c) body body
  | redacts (c : PiiRedactionConfig) (body : Bytes) (updated : PluginRequest)
      (h : (PiiRedactionPlugin.new host.tables c.patterns c.replacement).inspectRequest host.serde
        host.tables (pluginRequest path body) = .modify updated) :
      Inspects (.piiRedaction c) body updated.body
  | passes (c : WasmPluginConfig) (body : Bytes) (pre : P) (hpre : Loaded engine c pre)
      (h : evaluate engine c pre (pluginRequest path body) = .ok .pass) : Inspects (.wasm c) body body
  | modifies (c : WasmPluginConfig) (body : Bytes) (pre : P) (hpre : Loaded engine c pre)
      (updated : PluginRequest)
      (h : evaluate engine c pre (pluginRequest path body) = .ok (.modify updated)) :
      Inspects (.wasm c) body updated.body
  | failsOpen (c : WasmPluginConfig) (body : Bytes) (pre : P) (hpre : Loaded engine c pre)
      (e : String) (h : evaluate engine c pre (pluginRequest path body) = .error e)
      (hopen : c.onTimeout = .failOpen) : Inspects (.wasm c) body body

/-- The plugin blocks a body. -/
inductive Blocks : PluginConfig → Bytes → RejectInfo → Prop
  | rejects (c : WasmPluginConfig) (body : Bytes) (pre : P) (hpre : Loaded engine c pre)
      (info : RejectInfo)
      (h : evaluate engine c pre (pluginRequest path body) = .ok (.reject info)) :
      Blocks (.wasm c) body info
  | failsClosed (c : WasmPluginConfig) (body : Bytes) (pre : P) (hpre : Loaded engine c pre)
      (e : String) (h : evaluate engine c pre (pluginRequest path body) = .error e)
      (hclosed : c.onTimeout = .failClosed) : Blocks (.wasm c) body (blocked c.name)

/-- Every plugin that is bound to the model lets the body through, each the body that the
one before it left. -/
inductive Inspected : List PluginConfig → Bytes → Bytes → Prop
  | nil (body : Bytes) : Inspected [] body body
  | unbound {p : PluginConfig} {rest : List PluginConfig} {body result : Bytes}
      (h : ¬ bound model p) (hrest : Inspected rest body result) : Inspected (p :: rest) body result
  | inspects {p : PluginConfig} {rest : List PluginConfig} {body left result : Bytes}
      (h : bound model p) (hp : Inspects host engine path p body left)
      (hrest : Inspected rest left result) : Inspected (p :: rest) body result

/-- A plugin that is bound to the model blocks the body that those before it left. -/
inductive Blocked : List PluginConfig → Bytes → PluginRejection → Prop
  | here {p : PluginConfig} {rest : List PluginConfig} {body : Bytes} {info : RejectInfo}
      (h : bound model p) (hp : Blocks engine path p body info) :
      Blocked (p :: rest) body ⟨nameOf p, info⟩
  | unbound {p : PluginConfig} {rest : List PluginConfig} {body : Bytes} {r : PluginRejection}
      (h : ¬ bound model p) (hrest : Blocked rest body r) : Blocked (p :: rest) body r
  | later {p : PluginConfig} {rest : List PluginConfig} {body left : Bytes} {r : PluginRejection}
      (h : bound model p) (hp : Inspects host engine path p body left)
      (hrest : Blocked rest left r) : Blocked (p :: rest) body r

end

theorem withContext_eq_ok {ε : Type} {x : Except String ε} {note : String} {a : ε} :
    withContext x note = .ok a ↔ x = .ok a :=
  mapError_eq_ok

/-- Loading gives the plugin of the component that the configuration names. -/
theorem load_eq_ok {engine : Engine C I P N} {c : WasmPluginConfig} {plugin : WasmPlugin P} :
    WasmPlugin.load engine c.name c.path c.latencyBudgetMs c.onTimeout = .ok plugin ↔
      ∃ pre, Loaded engine c pre ∧ plugin =
        ⟨c.name, pre, ticksOf c.latencyBudgetMs, c.onTimeout, defaultMemoryBytes⟩ := by
  simp only [WasmPlugin.load, bind_eq_ok, withContext_eq_ok, Loaded]
  constructor
  · intro h
    obtain ⟨compiled, hcompiled, _, hlinker, linked, hlinked, pre, hpre, hplugin⟩ := h
    exact ⟨pre, ⟨compiled, linked, hcompiled, hlinker, hlinked, hpre⟩, (Except.ok.inj hplugin).symm⟩
  · intro h
    obtain ⟨pre, ⟨compiled, linked, hcompiled, hlinker, hlinked, hpre⟩, rfl⟩ := h
    exact ⟨compiled, hcompiled, (), hlinker, linked, hlinked, pre, hpre, rfl⟩

theorem loaded_unique {engine : Engine C I P N} {c : WasmPluginConfig} {pre pre' : P}
    (h : Loaded engine c pre) (h' : Loaded engine c pre') : pre' = pre := by
  obtain ⟨compiled, linked, hcompiled, -, hlinked, hpre⟩ := h
  obtain ⟨compiled', linked', hcompiled', -, hlinked', hpre'⟩ := h'
  obtain rfl := Except.ok.inj (hcompiled.symm.trans hcompiled')
  obtain rfl := Except.ok.inj (hlinked.symm.trans hlinked')
  exact Except.ok.inj (hpre'.symm.trans hpre)

theorem run_eq (engine : Engine C I P N) (c : WasmPluginConfig) (pre : P) (request : PluginRequest) :
    (⟨c.name, pre, ticksOf c.latencyBudgetMs, c.onTimeout, defaultMemoryBytes⟩ :
        WasmPlugin P).run engine request =
      match evaluate engine c pre request, c.onTimeout with
      | .ok action, _ => mapAction action
      | .error _, .failOpen => .pass
      | .error _, .failClosed => .reject (blocked c.name) := by
  simp only [WasmPlugin.run, evaluate]
  cases engine.instantiate defaultMemoryBytes (ticksOf c.latencyBudgetMs) pre with
  | error e => cases c.onTimeout <;> rfl
  | ok plugin =>
      cases hcall : engine.callInspectRequest plugin request with
      | error e => cases c.onTimeout <;> simp [hcall, bind, Except.bind, WasmPlugin.circuitBreak]
      | ok action => cases c.onTimeout <;> simp [hcall, bind, Except.bind]

/-- The entry that is built for a plugin of the configuration. -/
theorem buildPlugin_cases {host : Host κ} {engine : Engine C I P N}
    (hload : host.loadWasm = loadWasm engine) {p : PluginConfig} {entry : PluginEntry}
    (h : buildPlugin host p = .ok entry) :
    (∃ c, p = .piiRedaction c ∧ entry = ⟨⟨"pii-redaction",
      (PiiRedactionPlugin.new host.tables c.patterns c.replacement).inspectRequest host.serde
        host.tables⟩, []⟩) ∨
    ∃ c pre, p = .wasm c ∧ Loaded engine c pre ∧ entry = ⟨⟨c.name,
      (⟨c.name, pre, ticksOf c.latencyBudgetMs, c.onTimeout, defaultMemoryBytes⟩ :
        WasmPlugin P).run engine⟩, c.bindRoutes⟩ := by
  cases p with
  | piiRedaction c => exact .inl ⟨c, rfl, (Except.ok.inj h).symm⟩
  | wasm c =>
      simp only [buildPlugin] at h
      split_ifs at h
      obtain ⟨plugin, hplugin, hentry⟩ := bind_eq_ok.mp h
      rw [mapError_eq_ok, hload] at hplugin
      obtain ⟨wasm, hwasm, hplugin⟩ := bind_eq_ok.mp hplugin
      obtain ⟨pre, hpre, rfl⟩ := load_eq_ok.mp hwasm
      cases hplugin
      cases hentry
      exact .inr ⟨c, pre, rfl, hpre, rfl⟩

section
variable {host : Host κ} {engine : Engine C I P N} {path model : String} {p : PluginConfig}
variable {entry : PluginEntry}

theorem appliesTo_iff (hload : host.loadWasm = loadWasm engine) (h : buildPlugin host p = .ok entry) :
    entry.appliesTo model = true ↔ bound model p := by
  rcases buildPlugin_cases hload h with ⟨c, rfl, rfl⟩ | ⟨c, pre, rfl, -, rfl⟩
  · exact iff_of_true rfl trivial
  · rw [PluginEntry.appliesTo, Bool.or_eq_true, List.isEmpty_iff, List.any_eq_true, bound]
    simp only [beq_iff_eq, exists_eq_right]

theorem name_eq (hload : host.loadWasm = loadWasm engine) (h : buildPlugin host p = .ok entry) :
    entry.plugin.name = nameOf p := by
  rcases buildPlugin_cases hload h with ⟨c, rfl, rfl⟩ | ⟨c, pre, rfl, -, rfl⟩
  · rfl
  · rfl

theorem inspects_iff (hload : host.loadWasm = loadWasm engine) (h : buildPlugin host p = .ok entry)
    {body left : Bytes} :
    Inspects host engine path p body left ↔
      (entry.plugin.inspectRequest (pluginRequest path body) = .pass ∧ left = body) ∨
      ∃ updated, entry.plugin.inspectRequest (pluginRequest path body) = .modify updated ∧
        left = updated.body := by
  rcases buildPlugin_cases hload h with ⟨c, rfl, rfl⟩ | ⟨c, pre, rfl, hpre, rfl⟩
  · constructor
    · intro hp
      cases hp with
      | unchanged c body hpass => exact .inl ⟨hpass, rfl⟩
      | redacts c body updated hmodify => exact .inr ⟨updated, hmodify, rfl⟩
    · intro hp
      rcases hp with ⟨hpass, rfl⟩ | ⟨updated, hmodify, rfl⟩
      · exact .unchanged c left hpass
      · exact .redacts c body updated hmodify
  · dsimp only
    rw [run_eq]
    constructor
    · intro hp
      cases hp with
      | passes c body pre' hpre' heval =>
          rw [loaded_unique hpre hpre'] at heval
          rw [heval]
          exact .inl ⟨rfl, rfl⟩
      | modifies c body pre' hpre' updated heval =>
          rw [loaded_unique hpre hpre'] at heval
          rw [heval]
          exact .inr ⟨updated, rfl, rfl⟩
      | failsOpen c body pre' hpre' e heval hopen =>
          rw [loaded_unique hpre hpre'] at heval
          rw [heval, hopen]
          exact .inl ⟨rfl, rfl⟩
    · intro hp
      cases heval : evaluate engine c pre (pluginRequest path body) with
      | error e =>
          rw [heval] at hp
          cases hmode : c.onTimeout with
          | failOpen =>
              rw [hmode] at hp
              rcases hp with ⟨-, rfl⟩ | ⟨updated, hmodify, -⟩
              · exact .failsOpen c left pre hpre e heval hmode
              · cases hmodify
          | failClosed =>
              rw [hmode] at hp
              rcases hp with ⟨hpass, -⟩ | ⟨updated, hmodify, -⟩
              · cases hpass
              · cases hmodify
      | ok action =>
          rw [heval] at hp
          cases action with
          | pass =>
              rcases hp with ⟨-, rfl⟩ | ⟨updated, hmodify, -⟩
              · exact .passes c left pre hpre heval
              · cases hmodify
          | modify request =>
              rcases hp with ⟨hpass, -⟩ | ⟨updated, hmodify, rfl⟩
              · cases hpass
              · obtain rfl := Decision.modify.inj hmodify
                exact .modifies c body pre hpre request heval
          | reject info =>
              rcases hp with ⟨hpass, -⟩ | ⟨updated, hmodify, -⟩
              · cases hpass
              · cases hmodify

/-- The built-in plugin does not reject. -/
theorem pii_ne_reject (lib : Serde) (tables : CharTables) (plugin : PiiRedactionPlugin)
    (request : PluginRequest) (info : RejectInfo) :
    plugin.inspectRequest lib tables request ≠ .reject info := by
  intro h
  unfold PiiRedactionPlugin.inspectRequest at h
  split at h
  · cases h
  · dsimp only at h
    split_ifs at h

theorem blocks_iff (hload : host.loadWasm = loadWasm engine) (h : buildPlugin host p = .ok entry)
    {body : Bytes} {info : RejectInfo} :
    Blocks engine path p body info ↔
      entry.plugin.inspectRequest (pluginRequest path body) = .reject info := by
  rcases buildPlugin_cases hload h with ⟨c, rfl, rfl⟩ | ⟨c, pre, rfl, hpre, rfl⟩
  · constructor
    · intro hp
      cases hp
    · intro hp
      exact (pii_ne_reject _ _ _ _ _ hp).elim
  · dsimp only
    rw [run_eq]
    constructor
    · intro hp
      cases hp with
      | rejects c body pre' hpre' info heval =>
          rw [loaded_unique hpre hpre'] at heval
          rw [heval]
          rfl
      | failsClosed c body pre' hpre' e heval hclosed =>
          rw [loaded_unique hpre hpre'] at heval
          rw [heval, hclosed]
    · intro hp
      cases heval : evaluate engine c pre (pluginRequest path body) with
      | error e =>
          rw [heval] at hp
          cases hmode : c.onTimeout with
          | failOpen =>
              rw [hmode] at hp
              cases hp
          | failClosed =>
              rw [hmode] at hp
              obtain rfl := Decision.reject.inj hp
              exact .failsClosed c body pre hpre e heval hmode
      | ok action =>
          rw [heval] at hp
          cases action with
          | pass => cases hp
          | modify request => cases hp
          | reject info' =>
              obtain rfl := Decision.reject.inj hp
              exact .rejects c body pre hpre info' heval

end

section
variable {host : Host κ} {engine : Engine C I P N} {path model : String}
variable {plugins : List PluginConfig} {entries : List PluginEntry}

/-- A plugin that is bound lets the chain go on with the body that it left. -/
theorem runPlugins_bound {entry : PluginEntry} {rest : List PluginEntry} {body left : Bytes}
    (happ : entry.appliesTo model = true)
    (hleft : (entry.plugin.inspectRequest (pluginRequest path body) = .pass ∧ left = body) ∨
      ∃ updated, entry.plugin.inspectRequest (pluginRequest path body) = .modify updated ∧
        left = updated.body) :
    runPlugins (entry :: rest) path model body = runPlugins rest path model left := by
  rw [runPlugins, if_pos happ]
  rcases hleft with ⟨hpass, rfl⟩ | ⟨updated, hmodify, rfl⟩
  · rw [hpass]
  · rw [hmodify]

theorem runPlugins_of_inspected (hload : host.loadWasm = loadWasm engine)
    (h : List.Forall₂ (fun p entry => buildPlugin host p = .ok entry) plugins entries)
    {body result : Bytes} (hp : Inspected host engine path model plugins body result) :
    runPlugins entries path model body = .ok result := by
  induction hp generalizing entries with
  | nil body =>
      cases h
      rfl
  | unbound hb _ ih =>
      cases h with
      | cons hbuild hrest =>
          rw [runPlugins, if_neg (mt (appliesTo_iff hload hbuild).mp hb)]
          exact ih hrest
  | inspects hb hp _ ih =>
      cases h with
      | cons hbuild hrest =>
          rw [runPlugins_bound ((appliesTo_iff hload hbuild).mpr hb) ((inspects_iff hload hbuild).mp hp)]
          exact ih hrest

theorem runPlugins_of_blocked (hload : host.loadWasm = loadWasm engine)
    (h : List.Forall₂ (fun p entry => buildPlugin host p = .ok entry) plugins entries)
    {body : Bytes} {r : PluginRejection} (hp : Blocked host engine path model plugins body r) :
    runPlugins entries path model body = .error r := by
  induction hp generalizing entries with
  | here hb hp =>
      cases h with
      | cons hbuild hrest =>
          rw [runPlugins, if_pos ((appliesTo_iff hload hbuild).mpr hb), (blocks_iff hload hbuild).mp hp,
            name_eq hload hbuild]
  | unbound hb _ ih =>
      cases h with
      | cons hbuild hrest =>
          rw [runPlugins, if_neg (mt (appliesTo_iff hload hbuild).mp hb)]
          exact ih hrest
  | later hb hp _ ih =>
      cases h with
      | cons hbuild hrest =>
          rw [runPlugins_bound ((appliesTo_iff hload hbuild).mpr hb) ((inspects_iff hload hbuild).mp hp)]
          exact ih hrest

/-- A body is let through by every plugin that is bound, or blocked by one of them. -/
theorem inspected_or_blocked (hload : host.loadWasm = loadWasm engine)
    (h : List.Forall₂ (fun p entry => buildPlugin host p = .ok entry) plugins entries)
    (body : Bytes) :
    (∃ result, Inspected host engine path model plugins body result) ∨
      ∃ r, Blocked host engine path model plugins body r := by
  induction h generalizing body with
  | nil => exact .inl ⟨body, .nil body⟩
  | @cons p entry rest entries hbuild _ ih =>
      by_cases hb : bound model p
      · -- What the plugin decides says which of the two rules applies, and with which body.
        have go_on : ∀ left, Inspects host engine path p body left →
            (∃ result, Inspected host engine path model (p :: rest) body result) ∨
              ∃ r, Blocked host engine path model (p :: rest) body r := by
          intro left hleft
          rcases ih left with ⟨result, hresult⟩ | ⟨r, hr⟩
          · exact .inl ⟨result, .inspects hb hleft hresult⟩
          · exact .inr ⟨r, .later hb hleft hr⟩
        cases hdecision : entry.plugin.inspectRequest (pluginRequest path body) with
        | pass => exact go_on body ((inspects_iff hload hbuild).mpr (.inl ⟨hdecision, rfl⟩))
        | modify updated =>
            exact go_on updated.body ((inspects_iff hload hbuild).mpr (.inr ⟨updated, hdecision, rfl⟩))
        | reject info => exact .inr ⟨_, .here hb ((blocks_iff hload hbuild).mpr hdecision)⟩
      · rcases ih body with ⟨result, hresult⟩ | ⟨r, hr⟩
        · exact .inl ⟨result, .unbound hb hresult⟩
        · exact .inr ⟨r, .unbound hb hr⟩

/-- The chain lets a body through exactly if every plugin that is bound does. -/
theorem runPlugins_ok_iff (hload : host.loadWasm = loadWasm engine)
    (h : List.Forall₂ (fun p entry => buildPlugin host p = .ok entry) plugins entries)
    {body result : Bytes} :
    runPlugins entries path model body = .ok result ↔
      Inspected host engine path model plugins body result := by
  constructor
  · intro hok
    rcases inspected_or_blocked hload h body with ⟨left, hleft⟩ | ⟨r, hr⟩
    · have hrun := runPlugins_of_inspected hload h hleft
      obtain rfl := Except.ok.inj (hrun.symm.trans hok)
      exact hleft
    · have hrun := runPlugins_of_blocked hload h hr
      cases hrun.symm.trans hok
  · intro hp
    exact runPlugins_of_inspected hload h hp

end

/-- The plugins of a runtime are built from those of its configuration, in their order. -/
theorem plugins_of_buildRuntime {host : Host κ} {config : Config} {runtime : BuiltRuntime κ}
    (h : buildRuntime host config = .ok runtime) :
    List.Forall₂ (fun p entry => buildPlugin host p = .ok entry) config.plugins runtime.plugins := by
  simp only [buildRuntime, bind_eq_ok] at h
  obtain ⟨_, -, _, -, _, -, plugins, hplugins, hruntime⟩ := h
  cases hruntime
  exact mapM_eq_ok.mp hplugins

section
variable {host : Host κ} {engine : Engine C I P N} {config : Config} {runtime : BuiltRuntime κ}
variable {rt : ProxyPipeline.Runtime}

/-- A configured component is loaded, or there is no runtime. -/
theorem loaded_of_mem (hload : host.loadWasm = loadWasm engine)
    (hbuild : buildRuntime host config = .ok runtime) {c : WasmPluginConfig}
    (hc : .wasm c ∈ config.plugins) : ∃ pre, Loaded engine c pre := by
  obtain ⟨entry, -, hentry⟩ :=
    exists_mem_of_forall₂ (plugins_of_buildRuntime hbuild).flip hc
  rcases buildPlugin_cases hload hentry with ⟨_, hc, -⟩ | ⟨_, pre, hc, hpre, -⟩
  · cases hc
  · cases hc
    exact ⟨pre, hpre⟩

/-- The gate of the plugins answers if it is the only one that refuses. -/
theorem refusal_of_others {lib : Externals} {g : Gateway} {req : Request} {c : Clocks}
    {rejection : PluginRejection} {r : Response}
    (hrun : runPlugins rt.plugins req.endpoint.path (requestMeta lib req).virtualModel req.body =
      .error rejection)
    (hothers : ∀ gate, gate ≠ .pluginsAccept → GateOrder.refusal lib rt g req c gate = none)
    (hfind : GateOrder.Gate.order.findSome? (GateOrder.refusal lib rt g req c) = some r) :
    r = GateOrder.pluginRefusal rejection := by
  obtain ⟨gate, -, hgate⟩ := List.exists_of_findSome?_eq_some hfind
  by_cases hplugins : gate = .pluginsAccept
  · subst hplugins
    rw [GateOrder.refusal] at hgate
    split at hgate
    · rw [GateOrder.keyRefusal, hrun] at hgate
      exact (Option.some.inj hgate).symm
    · cases hgate
  · rw [hothers gate hplugins] at hgate
    cases hgate

/-- Every component of the configuration is loaded. What reaches a provider, and what is
answered from the cache, was let through by every plugin that is bound to the model, in the
order of the configuration; a plugin that could not evaluate it lets it through only if it
is configured to. A body that one of them blocks reaches nobody and costs nothing, and the
client is told by the plugin unless another gate refuses first. -/
theorem nothing_passes_uninspected (hload : host.loadWasm = loadWasm engine)
    (hbuild : buildRuntime host config = .ok runtime) (hplugins : rt.plugins = runtime.plugins)
    (lib : Externals) (connector : ProxyPipeline.Connector) (g : Gateway) (req : Request)
    (c : Clocks) :
    let o := serve lib rt connector g req c
    let path := req.endpoint.path
    let model := (requestMeta lib req).virtualModel
    (∀ w, .wasm w ∈ config.plugins → ∃ pre, Loaded engine w pre) ∧
    (∀ call ∈ o.calls, Inspected host engine path model config.plugins req.body call.body) ∧
    (o.reply.response.cache = some .hit →
      ∃ body, Inspected host engine path model config.plugins req.body body) ∧
    ∀ r, Blocked host engine path model config.plugins req.body r →
      o.calls = [] ∧ o.gateway.tracker = g.tracker ∧ o.gateway.cache = g.cache ∧
      ((∀ gate, gate ≠ .pluginsAccept → GateOrder.refusal lib rt g req c gate = none) →
        o.reply.response = GateOrder.pluginRefusal r) := by
  intro o path model
  have hentries : List.Forall₂ (fun p entry => buildPlugin host p = .ok entry) config.plugins
      rt.plugins := by
    rw [hplugins]
    exact plugins_of_buildRuntime hbuild
  refine ⟨fun w hw => loaded_of_mem hload hbuild hw, ?_⟩
  rcases GateOrder.serve_cases lib rt g req c connector with
    ⟨r, limiter, hfind, hlabel, heq⟩ | ⟨hfind, key, body, limiter, hclear, heq⟩
  · have ho : o = ⟨{ g with limiter := limiter }, ⟨r, none⟩, []⟩ := heq
    rw [ho]
    refine ⟨?_, ?_, ?_⟩
    · intro call hcall
      cases hcall
    · intro hhit
      rw [hlabel] at hhit
      cases hhit
    · intro rejection hblocked
      have hrun := runPlugins_of_blocked hload hentries hblocked
      refine ⟨rfl, rfl, rfl, fun hothers => ?_⟩
      exact refusal_of_others hrun hothers hfind
  · have hinspected := (runPlugins_ok_iff hload hentries).mp hclear.pluginsAccept
    refine ⟨?_, fun _ => ⟨body, hinspected⟩, ?_⟩
    · intro call hcall
      rw [show o = _ from heq] at hcall
      rcases GateOrder.dispatch_calls lib rt { g with limiter := limiter } connector
        (GateOrder.prepared lib req key body) c.answered with h | h
      · rw [h] at hcall
        cases hcall
      · rw [h] at hcall
        rw [List.mem_singleton.mp hcall]
        exact hinspected
    · intro rejection hblocked
      have hrun := runPlugins_of_blocked hload hentries hblocked
      cases hrun.symm.trans hclear.pluginsAccept

end

section Sample

/-- Every component compiles, and none survives its first instruction. -/
def trappingEngine : Engine Unit Unit Unit Unit where
  fetchRemote _ := .ok []
  fromBinary _ := .ok ()
  fromFile _ := .ok ()
  addToLinker := .ok ()
  instantiatePre _ := .ok ()
  pluginPre _ := .ok ()
  instantiate _ _ _ := .ok ()
  callInspectRequest _ _ := .error "wasm trap: interrupt"

def trappingHost : Host Unit := { sampleHost with loadWasm := loadWasm trappingEngine }

def guard : WasmPluginConfig :=
  { name := "guard", path := "file:///plugins/guard.wasm", onTimeout := .failClosed }

def guardedRuntime : BuiltRuntime Unit :=
  (buildRuntime trappingHost { plugins := [.wasm guard] }).toOption.get rfl

theorem guard_blocks (path : String) (body : Bytes) :
    Blocks trappingEngine path (.wasm guard) body (blocked "guard") :=
  .failsClosed guard body () ⟨(), (), rfl, rfl, rfl, rfl⟩ "wasm trap: interrupt" rfl rfl

def guarded : ProxyPipeline.Runtime := ⟨⟨fun _ => none⟩, false, guardedRuntime.plugins⟩

/-- No key and no body, in a gateway that has served nothing. -/
def guardedRequest : Outcome :=
  serve sampleHost.serde.toExternals guarded
    (fun _ => .error (.provider "unreachable")) CacheProvenance.emptyGateway ⟨.chat, [], []⟩
    ⟨⟨0, 0⟩, ⟨0, 0⟩, ⟨0, 0⟩⟩

/-- A guard that traps keeps a request from the provider. -/
theorem guard_traps :
    guardedRequest.calls = [] ∧ guardedRequest.reply.response =
      error 403 "request blocked: plugin 'guard' could not evaluate it" := by
  have hload : trappingHost.loadWasm = loadWasm trappingEngine := rfl
  have hbuild : buildRuntime trappingHost { plugins := [.wasm guard] } = .ok guardedRuntime := rfl
  have hplugins : guarded.plugins = guardedRuntime.plugins := rfl
  have h := nothing_passes_uninspected hload hbuild hplugins sampleHost.serde.toExternals
    (fun _ => .error (.provider "unreachable")) CacheProvenance.emptyGateway ⟨.chat, [], []⟩
    ⟨⟨0, 0⟩, ⟨0, 0⟩, ⟨0, 0⟩⟩
  have hblocked := h.2.2.2 _ (.here (.inl rfl) (guard_blocks _ _))
  refine ⟨hblocked.1, hblocked.2.2.2 ?_⟩
  intro gate hgate
  cases gate with
  | pluginsAccept => exact (hgate rfl).elim
  | authenticated => rfl
  | unexpired => rfl
  | withinRate => rfl
  | bodyFits => rfl
  | modelAllowed => rfl
  | withinBudget => rfl

end Sample

end VaultplaneGateway.PluginHost
