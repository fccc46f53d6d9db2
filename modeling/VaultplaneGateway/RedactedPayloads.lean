import VaultplaneGateway.PluginHost
import VaultplaneGateway.SharedConversations

/-!
# What the providers are shown

With the redaction plugin at the end of the chain, no pattern of its configuration is left
in the texts of the messages that the connectors hand to their HTTP clients. On the way
there a body is read and written several times: by the plugin, and by the connector that
puts the model of the route into it or translates it. Of the JSON library it is only known
that it reads a text back from where it was written, and that a derived decoder meets the
value that the value reader gives. A translation joins the system messages by line feeds,
and no pattern reaches over one.

The plugin reads a value and looks for the texts by name. It passes a body that is read as
no value, and the translating connectors decode structs, which need no value and may be
sequences as well. So what is posted is known for bodies that are read as a value and, for
these connectors, name their fields.
-/
namespace VaultplaneGateway.RedactedPayloads
open WireFormats InlinePlugins ProxyPipeline ConfigOverlay RuntimeBuilding PiiRedaction
open BoundedPatterns ProviderConnectors ProviderCalls DerivedDecoding SharedConversations

variable {κ : Type}

inductive Step where
  | member (name : String)
  | item (index : ℕ)
  deriving DecidableEq, Repr

def enter (v : Json) : Step → Option Json
  | .member name => v.get name
  | .item index =>
      match v with
      | .array items => items[index]?
      | _ => none

/-- The value at a place. -/
def locate (v : Json) : List Step → Option Json
  | [] => some v
  | step :: place => (enter v step).bind fun w => locate w place

/-- A text is read back from where it was written. -/
def Rereads (lib : Serde) : Prop :=
  ∀ v w, lib.fromSlice (asBytes (lib.toText v)) = some w →
    ∀ place s, locate w place = some (.string s) → locate v place = some (.string s)

def contentPlace (index : ℕ) : List Step := [.member "messages", .item index, .member "content"]

def systemPlace : List Step := [.member "system"]

theorem locate_content {v : Json} {index : ℕ} {w : Json} :
    locate v (contentPlace index) = some w ↔
      ∃ items message, v.get "messages" = some (.array items) ∧ items[index]? = some message ∧
        message.get "content" = some w := by
  simp only [contentPlace, locate, enter, Option.bind_eq_some_iff, Option.some.injEq]
  constructor
  · intro h
    obtain ⟨messages, hmessages, message, hmessage, content, hcontent, rfl⟩ := h
    cases messages with
    | array items => exact ⟨items, message, hmessages, hmessage, hcontent⟩
    | _ => cases hmessage
  · intro h
    obtain ⟨items, message, hitems, hmessage, hcontent⟩ := h
    exact ⟨.array items, hitems, message, hmessage, w, hcontent, rfl⟩

/-- No pattern of the list is left in the text. -/
def Redacted (tables : CharTables) (patterns : List PiiPattern) (s : String) : Prop :=
  ∀ pattern ∈ patterns, ∃ p, compile tables (regex pattern) = some p ∧
    ¬ Occurs tables.word p s.toList

section
variable {tables : CharTables} {patterns : List PiiPattern}

theorem redacted_redact (s : String) :
    Redacted tables patterns ((PiiRedactionPlugin.new tables patterns "[REDACTED]").redact tables s) := by
  intro pattern hpattern
  obtain ⟨p, hcompile, -⟩ := compile_regex tables pattern
  refine ⟨p, hcompile, ?_⟩
  rw [PiiRedactionPlugin.redact_toList, show (PiiRedactionPlugin.new tables patterns
    "[REDACTED]").replacement = "[REDACTED]" from rfl, expand_marker]
  apply sweep_free
  · intro q hq
    obtain ⟨other, -, hother⟩ := List.mem_filterMap.mp hq
    obtain ⟨q', hother', hforeign⟩ := compile_regex tables other
    rw [hother] at hother'
    rwa [Option.some.inj hother']
  · exact List.mem_filterMap.mpr ⟨pattern, hpattern, hcompile⟩

theorem redacted_empty : Redacted tables patterns "" := by
  intro pattern _
  obtain ⟨p, hcompile, -⟩ := compile_regex tables pattern
  exact ⟨p, hcompile, not_occurs_nil tables.word p⟩

/-- No piece of an expression takes a line feed. -/
def lineForeign (repeats : List Repeat) : Bool :=
  repeats.all fun r => !r.letters.accepts asciiTables '\n'

theorem regex_lineForeign (pattern : PiiPattern) :
    (parseExpression (regex pattern)).all lineForeign = true := by
  cases pattern <;> decide +kernel

theorem accepts_line {pattern : PiiPattern} {p : Pattern Char}
    (h : compile tables (regex pattern) = some p) : ∀ q ∈ p.pieces, q.accepts '\n' = false := by
  obtain ⟨repeats, hparse, hp⟩ := Option.bind_eq_some_iff.mp h
  have hforeign : lineForeign repeats = true := by
    have := regex_lineForeign pattern
    rwa [hparse] at this
  split_ifs at hp
  obtain rfl := Option.some.inj hp
  intro q hq
  obtain ⟨r, hr, rfl⟩ := List.mem_map.mp hq
  have hrejects := List.all_eq_true.mp hforeign r hr
  rw [Bool.not_eq_true'] at hrejects
  rw [← hrejects]
  exact accepts_ascii tables r.letters (by decide)

/-- Lines that are redacted make a text that is. -/
theorem redacted_join (hline : tables.word '\n' = false) {s t : String}
    (hs : Redacted tables patterns s) (ht : Redacted tables patterns t) :
    Redacted tables patterns (s ++ "\n" ++ t) := by
  intro pattern hpattern
  obtain ⟨p, hcompile, hfree⟩ := hs pattern hpattern
  obtain ⟨p', hcompile', hfree'⟩ := ht pattern hpattern
  obtain rfl := Option.some.inj (hcompile.symm.trans hcompile')
  refine ⟨p, hcompile, fun hoccurs => ?_⟩
  have htext : (s ++ "\n" ++ t).toList = s.toList ++ '\n' :: t.toList := by
    simp [String.toList_append]
  rw [htext] at hoccurs
  rcases occurs_separator hline (accepts_line hcompile) hoccurs with h | h
  · exact hfree h
  · exact hfree' h

end

section
variable {lib : Serde} {tables : CharTables} {patterns : List PiiPattern}

/-- The texts of the messages are redacted. -/
def RedactedValue (tables : CharTables) (patterns : List PiiPattern) (v : Json) : Prop :=
  ∀ index s, locate v (contentPlace index) = some (.string s) → Redacted tables patterns s

/-- The value of a body is redacted, if it has one. -/
def RedactedBody (lib : Serde) (tables : CharTables) (patterns : List PiiPattern) (body : Bytes) :
    Prop :=
  ∀ v, lib.fromSlice body = some v → RedactedValue tables patterns v

theorem locate_mapContents {f : String → String} {v : Json} {index : ℕ} {s : String}
    (h : locate (mapContents f v) (contentPlace index) = some (.string s)) :
    ∃ t, s = f t := by
  obtain ⟨items, message, hitems, hmessage, hcontent⟩ := locate_content.mp h
  rw [mapContents, get_mapMember, Option.map_eq_some_iff] at hitems
  obtain ⟨messages, -, hmessages⟩ := hitems
  rw [if_pos rfl] at hmessages
  cases messages with
  | array originals =>
      obtain rfl := Json.array.inj hmessages
      rw [List.getElem?_map, Option.map_eq_some_iff] at hmessage
      obtain ⟨original, -, rfl⟩ := hmessage
      rw [get_mapMember, Option.map_eq_some_iff] at hcontent
      obtain ⟨content, -, hcontent⟩ := hcontent
      rw [if_pos rfl] at hcontent
      cases content with
      | string t => exact ⟨t, (Json.string.inj hcontent).symm⟩
      | _ => cases hcontent
  | _ => cases hmessages

theorem fixed_of_contentChanges {f : String → String} {v : Json} {index : ℕ} {s : String}
    (hchanges : contentChanges f v = false)
    (h : locate v (contentPlace index) = some (.string s)) : f s = s := by
  obtain ⟨items, message, hitems, hmessage, hcontent⟩ := locate_content.mp h
  rw [contentChanges, hitems] at hchanges
  have hmem := List.mem_of_getElem? hmessage
  have hsame := List.any_eq_false.mp hchanges message hmem
  rw [hcontent] at hsame
  simpa using hsame

/-- What the plugin lets through is redacted. -/
theorem redactedBody_of_inspected (hlib : Rereads lib) {path : String} {body left : Bytes}
    (h : (PiiRedactionPlugin.new tables patterns "[REDACTED]").inspectRequest lib tables
        (pluginRequest path body) = .pass ∧ left = body ∨
      ∃ updated, (PiiRedactionPlugin.new tables patterns "[REDACTED]").inspectRequest lib tables
        (pluginRequest path body) = .modify updated ∧ left = updated.body) :
    RedactedBody lib tables patterns left := by
  intro v hv index s hs
  simp only [PiiRedactionPlugin.inspectRequest, modify_contents (redactContent_eq tables _),
    pluginRequest] at h
  cases hread : lib.fromSlice body with
  | none =>
      rw [hread] at h
      rcases h with ⟨-, rfl⟩ | ⟨updated, hmodify, -⟩
      · rw [hv] at hread
        cases hread
      · cases hmodify
  | some value =>
      rw [hread] at h
      dsimp only at h
      split_ifs at h with hchanges
      · rcases h with ⟨hpass, -⟩ | ⟨updated, hmodify, rfl⟩
        · cases hpass
        · obtain rfl := Decision.modify.inj hmodify
          obtain ⟨t, rfl⟩ := locate_mapContents (hlib _ v hv _ s hs)
          exact redacted_redact t
      · rcases h with ⟨-, rfl⟩ | ⟨updated, hmodify, -⟩
        · obtain rfl := Option.some.inj (hread.symm.trans hv)
          rw [← fixed_of_contentChanges (Bool.eq_false_iff.mpr hchanges) hs]
          exact redacted_redact s
        · cases hmodify

/-- Putting a model into a value leaves the messages as they are. -/
theorem redactedValue_insertMember {members : List (String × Json)}
    (h : RedactedValue tables patterns (.object members)) (model : Json) :
    RedactedValue tables patterns (.object (OpenAiForwarding.insertMember "model" model members)) := by
  intro index s hs
  obtain ⟨items, message, hitems, hmessage, hcontent⟩ := locate_content.mp hs
  rw [OpenAiForwarding.get_insertMember, if_neg (by decide)] at hitems
  exact h index s (locate_content.mpr ⟨items, message, hitems, hmessage, hcontent⟩)

/-- The messages that are decoded have the texts of the body. -/
theorem redacted_decoded {v : Json} (hnamed : Named v) (h : RedactedValue tables patterns v)
    {request : OpenAiRequest} (hdecode : OpenAiRequest.decode v = some request) :
    ∀ m ∈ request.messages, Redacted tables patterns m.content := by
  intro m hm
  rw [← (decode_named hnamed hdecode).1, messagesOf] at hm
  split at hm
  · rename_i items hitems
    obtain ⟨message, hmessage, rfl⟩ := List.mem_map.mp hm
    obtain ⟨index, hindex⟩ := List.mem_iff_getElem?.mp hmessage
    rw [said]
    cases hcontent : (message.get "content").bind Json.asStr with
    | none => exact redacted_empty
    | some s =>
        obtain ⟨w, hget, hstr⟩ := Option.bind_eq_some_iff.mp hcontent
        cases w with
        | string t =>
            cases hstr
            exact h index s (locate_content.mpr ⟨items, message, hitems, hindex, hget⟩)
        | _ => cases hstr
  · cases hm

/-- What the hoisting keeps of the messages: an invariant of its loop. -/
theorem redacted_hoistSystem (hline : tables.word '\n' = false) {messages : List Message}
    (h : ∀ m ∈ messages, Redacted tables patterns m.content) :
    Redacted tables patterns (hoistSystem messages).1 ∧
      ∀ m ∈ (hoistSystem messages).2, Redacted tables patterns m.content := by
  unfold hoistSystem
  refine List.foldlRecOn messages _ (motive := fun acc : String × List Message =>
    Redacted tables patterns acc.1 ∧ ∀ m ∈ acc.2, Redacted tables patterns m.content)
    ⟨redacted_empty, fun m hm => by cases hm⟩ ?_
  intro acc hacc m hm
  split_ifs with hrole hempty
  · refine ⟨?_, hacc.2⟩
    rw [String.isEmpty_iff.mp hempty, String.empty_append]
    exact h m hm
  · exact ⟨redacted_join hline hacc.1 (h m hm), hacc.2⟩
  · refine ⟨hacc.1, ?_⟩
    intro m' hm'
    rcases List.mem_append.mp hm' with hm' | hm'
    · exact hacc.2 m' hm'
    · rw [List.mem_singleton.mp hm']
      exact h m hm

theorem redacted_parts (hline : tables.word '\n' = false) {a : Ambient} {body : Bytes} {v : Json}
    (hv : lib.fromSliceAs .openAiRequest body = some v) (hnamed : Named v)
    (h : RedactedValue tables patterns v) {parts : ChatMessages}
    (hparse : parseOpenaiMessages lib.toExternals a body = .ok parts) :
    (∀ m ∈ parts.messages, Redacted tables patterns m.content) ∧
      ∀ s ∈ parts.system, Redacted tables patterns s := by
  unfold parseOpenaiMessages at hparse
  split at hparse
  · cases hparse
  · rename_i request hrequest
    rw [hv, Option.bind_some] at hrequest
    obtain ⟨hsystem, hmessages⟩ :=
      redacted_hoistSystem hline (redacted_decoded hnamed h hrequest)
    cases hparse
    refine ⟨hmessages, ?_⟩
    intro s hs
    dsimp only at hs
    split_ifs at hs
    · cases hs
    · cases hs
      exact hsystem

end

/-- Where a provider finds the texts of a conversation. -/
inductive Shown : RuntimeBuilding.Connector κ → List Step → Prop
  | content (c : RuntimeBuilding.Connector κ) (index : ℕ) : Shown c (contentPlace index)
  | anthropic (c : KeyedConnector κ) : Shown (.anthropic c) systemPlace
  | bedrock (c : BedrockConnector κ) : Shown (.bedrock c) systemPlace

/-- The texts of a payload are those of its messages and the system text. -/
theorem text_of_payload {v : Json} {messages : List Message} {system : Option String}
    (h : v.get "messages" = some (.array (messages.map messageJson)) ∧
      v.get "system" = system.map .string)
    {c : RuntimeBuilding.Connector κ} {place : List Step} (hplace : Shown c place) {s : String}
    (hs : locate v place = some (.string s)) : s ∈ system ∨ ∃ m ∈ messages, s = m.content := by
  have hsystem (hs : locate v systemPlace = some (.string s)) : s ∈ system := by
    rw [systemPlace, locate, enter, h.2] at hs
    cases system with
    | none => cases hs
    | some t =>
        cases hs
        rfl
  cases hplace with
  | content c index =>
      right
      obtain ⟨items, message, hitems, hmessage, hcontent⟩ := locate_content.mp hs
      rw [h.1] at hitems
      cases hitems
      rw [List.getElem?_map, Option.map_eq_some_iff] at hmessage
      obtain ⟨m, hm, rfl⟩ := hmessage
      cases hcontent
      exact ⟨m, List.mem_of_getElem? hm, rfl⟩
  | anthropic c => exact .inl (hsystem hs)
  | bedrock c => exact .inl (hsystem hs)

section
variable {env : Surroundings κ} {tables : CharTables} {patterns : List PiiPattern}

/-- The texts that a provider finds in the payload are redacted. -/
def RedactedPayload (tables : CharTables) (patterns : List PiiPattern)
    (c : RuntimeBuilding.Connector κ) (payload : Json) : Prop :=
  ∀ place, Shown c place → ∀ s, locate payload place = some (.string s) →
    Redacted tables patterns s

/-- What a call posts has the texts of its body. -/
theorem redacted_posted (hline : tables.word '\n' = false) {request : ConnectorCall} {v : Json}
    (hv : env.serde.fromSlice request.body = some v)
    (hdecoded : env.serde.fromSliceAs .openAiRequest request.body = some v)
    (h : RedactedValue tables patterns v) {c : RuntimeBuilding.Connector κ}
    (hnamed : translates c = true → Named v) {q : HttpRequest} (hq : q ∈ posted env request c) :
    ∃ payload, (q.body = asBytes (env.serde.toText payload) ∨ q.body = request.body ∧ payload = v) ∧
      RedactedPayload tables patterns c payload := by
  -- A translated payload, of either schema.
  have htranslated {payload : Json} {parts : ChatMessages} (hnamed : Named v)
      (hparse : parseOpenaiMessages env.serde.toExternals env.ambient request.body = .ok parts)
      (hget : payload.get "messages" = some (.array (parts.messages.map messageJson)) ∧
        payload.get "system" = parts.system.map .string) :
      RedactedPayload tables patterns c payload := by
    intro place hplace s hs
    obtain ⟨hmessages, hsystem⟩ := redacted_parts hline hdecoded hnamed h hparse
    rcases text_of_payload hget hplace hs with hs | ⟨m, hm, rfl⟩
    · exact hsystem s hs
    · exact hmessages m hm
  cases c with
  | openai c =>
      obtain rfl := List.mem_singleton.mp hq
      have hsame : ∀ w, RedactedValue tables patterns w →
          RedactedPayload tables patterns (.openai c) w := by
        intro w hw place hplace s hs
        cases hplace with
        | content _ index => exact hw index s hs
      change ∃ payload, (OpenAiForwarding.rewriteModel env.serde request.body request.model = _ ∨
        OpenAiForwarding.rewriteModel env.serde request.body request.model = _ ∧ _) ∧ _
      rw [OpenAiForwarding.rewriteModel, hv]
      cases v with
      | object members => exact ⟨_, .inl rfl, hsame _ (redactedValue_insertMember h _)⟩
      | _ => exact ⟨_, .inr ⟨rfl, rfl⟩, hsame _ h⟩
  | azure c =>
      obtain rfl := List.mem_singleton.mp hq
      refine ⟨v, .inr ⟨rfl, rfl⟩, fun place hplace s hs => ?_⟩
      cases hplace with
      | content _ index => exact h index s hs
  | anthropic c =>
      simp only [posted] at hq
      split at hq
      · rename_i parts _ hparse
        obtain rfl := List.mem_singleton.mp hq
        exact ⟨_, .inl rfl, htranslated (hnamed rfl) hparse (get_anthropicJson _)⟩
      · cases hq
  | bedrock c =>
      simp only [posted] at hq
      split at hq
      · rename_i parts _ _ hparse
        obtain rfl := List.mem_singleton.mp hq
        exact ⟨_, .inl rfl, htranslated (hnamed rfl) hparse (get_bedrockJson _)⟩
      · cases hq

end

/-- A chain ends with what its last plugin leaves of what the others left. -/
theorem runPlugins_snoc {entries : List PluginEntry} {entry : PluginEntry} {path model : String}
    {body result : Bytes} (happ : entry.appliesTo model = true)
    (h : runPlugins (entries ++ [entry]) path model body = .ok result) :
    ∃ left, entry.plugin.inspectRequest (pluginRequest path left) = .pass ∧ result = left ∨
      ∃ updated, entry.plugin.inspectRequest (pluginRequest path left) = .modify updated ∧
        result = updated.body := by
  induction entries generalizing body with
  | nil =>
      rw [List.nil_append, runPlugins, if_pos happ] at h
      refine ⟨body, ?_⟩
      cases hdecision : entry.plugin.inspectRequest (pluginRequest path body) with
      | pass =>
          rw [hdecision] at h
          exact .inl ⟨rfl, (Except.ok.inj h).symm⟩
      | modify updated =>
          rw [hdecision] at h
          exact .inr ⟨updated, rfl, (Except.ok.inj h).symm⟩
      | reject info =>
          rw [hdecision] at h
          cases h
  | cons first rest ih =>
      rw [List.cons_append, runPlugins] at h
      split_ifs at h
      · split at h
        · exact ih h
        · exact ih h
        · cases h
      · exact ih h

section
variable {host : Host κ} {env : Surroundings κ} {config : Config} {runtime : BuiltRuntime κ}
variable {earlier : List PluginConfig} {c : PiiRedactionConfig} {rt : ProxyPipeline.Runtime}

/-- What the chain of the runtime lets through is redacted. -/
theorem redactedBody_of_runPlugins (hlib : Rereads host.serde)
    (hbuild : buildRuntime host config = .ok runtime)
    (hlast : config.plugins = earlier ++ [.piiRedaction c]) (hmarker : c.replacement = "[REDACTED]")
    {path model : String} {body result : Bytes}
    (h : runPlugins runtime.plugins path model body = .ok result) :
    RedactedBody host.serde host.tables c.patterns result := by
  have hentries := (PluginHost.plugins_of_buildRuntime hbuild).flip
  rw [hlast] at hentries
  have hend := List.forall₂_drop_append _ _ _ hentries
  rw [← List.take_append_drop earlier.length runtime.plugins] at h
  generalize List.drop earlier.length runtime.plugins = rest at h hend
  cases hend with
  | cons hentry hnil =>
      cases hnil
      cases hentry
      obtain ⟨left, hleft⟩ := runPlugins_snoc rfl h
      rw [hmarker] at hleft
      exact redactedBody_of_inspected hlib hleft

/-- The redaction plugin with the default replacement is the last of the chain. For every
request, in every state of the gateway and however the providers behave: if the body that
the gates let through is read as a value, then in all that the connectors hand to their
HTTP clients for it, on whichever route and attempt, no pattern of the plugin is left in a
text of the conversation. For the connectors that translate, the body has to name its
fields and those of its messages. -/
theorem posted_texts_are_redacted (hlib : Rereads env.serde) (hagrees : env.serde.Agrees)
    (hserde : host.serde = env.serde) (hline : host.tables.word '\n' = false)
    (hbuild : buildRuntime host config = .ok runtime)
    (hlast : config.plugins = earlier ++ [.piiRedaction c]) (hmarker : c.replacement = "[REDACTED]")
    (hplugins : rt.plugins = runtime.plugins) (connector : ProxyPipeline.Connector) (g : Gateway)
    (req : Request) (clocks : Clocks)
    (slow : ℕ → RuntimeBuilding.Connector κ → ConnectorCall → Bool) :
    ∀ call ∈ (ProxyPipeline.serve env.serde.toExternals rt connector g req clocks).calls,
    ∀ v, env.serde.fromSlice call.body = some v →
    ∀ asked ∈ (ProviderCalls.serve env slow runtime.connector call).calls,
    (translates asked.1 = true → Named v) → ∀ q ∈ posted env asked.2 asked.1,
      ∃ payload, (q.body = asBytes (env.serde.toText payload) ∨
          q.body = call.body ∧ payload = v) ∧
        RedactedPayload host.tables c.patterns asked.1 payload := by
  intro call hcall v hv asked hasked hnamed q hq
  have hbody : RedactedBody env.serde host.tables c.patterns call.body := by
    rw [← hserde]
    rcases GateOrder.serve_cases env.serde.toExternals rt g req clocks connector with
      ⟨r, limiter, -, -, heq⟩ | ⟨-, key, body, limiter, hclear, heq⟩
    · rw [heq] at hcall
      cases hcall
    · rw [heq] at hcall
      rcases GateOrder.dispatch_calls env.serde.toExternals rt { g with limiter := limiter } connector
        (GateOrder.prepared env.serde.toExternals req key body) clocks.answered with h | h
      · rw [h] at hcall
        cases hcall
      · rw [h] at hcall
        rw [List.mem_singleton.mp hcall]
        have hrun := hclear.pluginsAccept
        rw [hplugins] at hrun
        exact redactedBody_of_runPlugins (hserde ▸ hlib) hbuild hlast hmarker hrun
  obtain ⟨table, htable, hnew, -⟩ := ModelListing.buildRuntime_parts hbuild
  have hsame := (configured_of_mem_calls env slow hnew hasked).body
  have hredacted := hbody v hv
  rw [← hsame] at hv ⊢
  exact redacted_posted hline hv (hagrees .openAiRequest _ v hv) hredacted hnamed hq

end

section Sample

theorem plainSerde_rereads : Rereads plainSerde := by
  intro v w hw place s hs
  by_cases hplain : JsonReading.plain 127 v = true
  · have hread : plainSerde.fromSlice (asBytes (plainSerde.toText v)) = some v := by
      rw [show plainSerde.toText v = v.compact from if_pos hplain]
      exact JsonReading.readJson_compact hplain
    rw [hread] at hw
    rwa [Option.some.inj hw]
  · rw [show plainSerde.toText v = "" from if_neg hplain] at hw
    cases hw

theorem plainSerde_agrees : plainSerde.Agrees := fun _ _ _ h => h

def redactingHost : Host Unit := { sampleHost with serde := plainSerde }

def redactingConfig : Config := { plugins := [.piiRedaction {}] }

def redactingRuntime : BuiltRuntime Unit :=
  (buildRuntime redactingHost redactingConfig).toOption.get rfl

def redactingRt : ProxyPipeline.Runtime := ⟨⟨fun _ => none⟩, false, redactingRuntime.plugins⟩

def messageText (message : String) : String :=
  "\x7b\"messages\":[" ++ message ++ "],\"model\":\"gpt\"\x7d"

/-- The calls for a body with this message. -/
def sampleCalls (message : String) : List ConnectorCall :=
  (ProxyPipeline.serve plainSerde.toExternals redactingRt (fun _ => .error (.provider "unreachable"))
    CacheProvenance.emptyGateway ⟨.chat, [], asBytes (messageText message)⟩
    ⟨⟨0, 0⟩, ⟨0, 0⟩, ⟨0, 0⟩⟩).calls

/-- What is posted for them. -/
def samplePosts (message : String) : List Bytes :=
  (sampleCalls message).flatMap fun call =>
    (ProviderCalls.serve plainSurroundings (fun _ _ _ => false) redactingRuntime.connector
      call).calls.flatMap fun asked => (posted plainSurroundings asked.2 asked.1).map HttpRequest.body

def ssnMessage (text : String) : String :=
  "\x7b\"content\":\"ssn " ++ text ++ "\",\"role\":\"user\"\x7d"

/-- A message that names its fields is redacted before it is posted. -/
theorem ssn_is_not_posted :
    samplePosts (ssnMessage "123-45-6789") = [asBytes (messageText (ssnMessage "[REDACTED]"))] ∧
    ∀ call ∈ sampleCalls (ssnMessage "123-45-6789"),
    ∀ v, plainSerde.fromSlice call.body = some v →
    ∀ asked ∈ (ProviderCalls.serve plainSurroundings (fun _ _ _ => false) redactingRuntime.connector
      call).calls,
    (translates asked.1 = true → Named v) → ∀ q ∈ posted plainSurroundings asked.2 asked.1,
      ∃ payload, (q.body = asBytes (plainSerde.toText payload) ∨
          q.body = call.body ∧ payload = v) ∧
        RedactedPayload asciiTables PiiPattern.all asked.1 payload := by
  refine ⟨by decide +kernel, ?_⟩
  have hserde : redactingHost.serde = plainSurroundings.serde := rfl
  have hbuild : buildRuntime redactingHost redactingConfig = .ok redactingRuntime := rfl
  have hlast : redactingConfig.plugins = [] ++ [.piiRedaction {}] := rfl
  have hplugins : redactingRt.plugins = redactingRuntime.plugins := rfl
  exact posted_texts_are_redacted plainSerde_rereads plainSerde_agrees hserde (by decide) hbuild hlast
    rfl hplugins _ _ _ _ _

/-- A message that is a sequence is posted as it came, and a translating connector would
decode it. -/
example : samplePosts "[\"user\",\"123-45-6789\"]" =
      [asBytes (messageText "[\"user\",\"123-45-6789\"]")] ∧
    decodeMessage (.array [.string "user", .string "123-45-6789"]) =
      some ⟨"user", "123-45-6789"⟩ := by
  decide +kernel

end Sample

end VaultplaneGateway.RedactedPayloads
