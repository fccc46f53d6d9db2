import VaultplaneGateway.JsonReading
import VaultplaneGateway.ProviderCalls

/-!
# The conversation on every route

A request goes to one provider after the other until one answers, and each of them is told
the same conversation in its own schema. Two connectors forward the body, with every member
but the model as it was. The two that translate take the system messages out, join them by
line feeds and send the other messages in their order; the limit of the answer gets a
default, which the schema needs. What a conversation says is defined on the values, by the
names of their members, and not by the loop of the translation.

The connectors that forward read a value, if they read at all; those that translate decode
a struct. A body that only the decoder reads is forwarded as it came.
-/
namespace VaultplaneGateway.SharedConversations
open WireFormats ProxyPipeline ConfigOverlay RuntimeBuilding ProviderConnectors ProviderCalls
open DerivedDecoding

variable {κ : Type}

structure Conversation where
  system : String
  messages : List Message
  deriving DecidableEq, Repr

def isSystem (m : Message) : Bool := m.role == "system"

def systemTexts (messages : List Message) : List String :=
  (messages.filter isSystem).map Message.content

/-- Lines that are joined. Empty ones before the first text are left out. -/
def joined (texts : List String) : String := "\n".intercalate (texts.dropWhile String.isEmpty)

def conversation (messages : List Message) : Conversation :=
  ⟨joined (systemTexts messages), messages.filter fun m => !isSystem m⟩

/-- A message by the names of its members. A text that is not there is empty. -/
def said (v : Json) : Message :=
  ⟨((v.get "role").bind Json.asStr).getD "", ((v.get "content").bind Json.asStr).getD ""⟩

def messagesOf (v : Json) : List Message :=
  match v.get "messages" with
  | some (.array items) => items.map said
  | _ => []

/-- The connector builds a body of its own schema. -/
def translates : RuntimeBuilding.Connector κ → Bool
  | .anthropic _ => true
  | .bedrock _ => true
  | _ => false

/-- What a provider is told by a payload of the schema of the translating connectors. -/
def heard (payload : Json) : Conversation :=
  ⟨((payload.get "system").bind Json.asStr).getD "", messagesOf payload⟩

def limitOf (v : Json) : Option UInt32 := (v.get "max_tokens").bind u32

/-- A body names its fields, and so do its messages. -/
def Named (v : Json) : Prop :=
  (∃ members, v = .object members) ∧
    ∀ items, v.get "messages" = some (.array items) → ∀ message ∈ items,
      ∃ members, message = .object members

/-- What a connector sends for a body: the body itself, or its value with all members but the
model as they were, or the conversation that its decoder meets there. -/
inductive Sends (lib : Serde) (body : Bytes) : RuntimeBuilding.Connector κ → Bytes → Prop
  | unchanged {c : RuntimeBuilding.Connector κ} (forwards : translates c = false) :
      Sends lib body c body
  | rewritten {c : RuntimeBuilding.Connector κ} {v payload : Json} (forwards : translates c = false)
      (read : lib.fromSlice body = some v)
      (others : ∀ name ≠ "model", payload.get name = v.get name) :
      Sends lib body c (asBytes (lib.toText payload))
  | translated {c : RuntimeBuilding.Connector κ} {v payload : Json} (hc : translates c = true)
      (decoded : lib.fromSliceAs .openAiRequest body = some v)
      (told : Named v → heard payload = conversation (messagesOf v) ∧
        limitOf payload = some ((limitOf v).getD defaultMaxTokens)) :
      Sends lib body c (asBytes (lib.toText payload))

/-- One more line. -/
def appendLine (text line : String) : String := text ++ "\n" ++ line

theorem intercalate_cons (text : String) (texts : List String) :
    "\n".intercalate (text :: texts) = texts.foldl appendLine text := by
  rw [String.intercalate]
  induction texts generalizing text with
  | nil => rfl
  | cons line texts ih => exact ih (text ++ "\n" ++ line)

/-- The loop from a state in the middle: a system text that is not empty is continued, one
that is empty has not begun. -/
theorem hoist_foldl (messages others : List Message) (system : String) :
    messages.foldl (fun acc message =>
        if message.role == "system" then
          ((if acc.1.isEmpty then acc.1 else acc.1 ++ "\n") ++ message.content, acc.2)
        else (acc.1, acc.2 ++ [message])) (system, others) =
      (if system.isEmpty then joined (systemTexts messages)
        else (systemTexts messages).foldl appendLine system,
      others ++ messages.filter fun m => !isSystem m) := by
  induction messages generalizing system others with
  | nil =>
      by_cases hempty : system.isEmpty = true
      · simp [systemTexts, joined, String.isEmpty_iff.mp hempty]
      · simp [systemTexts, hempty]
  | cons m messages ih =>
      rw [List.foldl_cons]
      by_cases hm : isSystem m = true
      · rw [if_pos (show (m.role == "system") = true from hm)]
        have htexts : systemTexts (m :: messages) = m.content :: systemTexts messages := by
          simp [systemTexts, hm]
        have hothers : (m :: messages).filter (fun m => !isSystem m) =
            messages.filter fun m => !isSystem m := by
          simp [hm]
        rw [ih, htexts, hothers]
        by_cases hempty : system.isEmpty = true
        · rw [if_pos hempty, if_pos hempty, String.isEmpty_iff.mp hempty, String.empty_append, joined,
            joined]
          by_cases hcontent : m.content.isEmpty = true
          · rw [if_pos hcontent, List.dropWhile_cons_of_pos hcontent]
          · rw [if_neg hcontent, List.dropWhile_cons_of_neg hcontent, intercalate_cons]
        · have hnonempty : ¬ (system ++ "\n" ++ m.content).isEmpty = true := by
            rw [String.isEmpty_iff]
            simp
          rw [if_neg hempty, if_neg hempty, if_neg hnonempty, List.foldl_cons, appendLine]
      · rw [if_neg (show ¬ (m.role == "system") = true from hm)]
        have htexts : systemTexts (m :: messages) = systemTexts messages := by
          simp [systemTexts, hm]
        rw [ih, htexts, List.append_assoc]
        simp [hm]

theorem hoistSystem_eq (messages : List Message) :
    hoistSystem messages = ((conversation messages).system, (conversation messages).messages) :=
  hoist_foldl messages [] ""

section
variable {members : List (String × Json)} {name : String}

/-- A field that a struct takes is the member of its name. -/
theorem get_of_structField {members : List (String × Json)} {name : String} {v : Json}
    (h : structField members name = some (some v)) : (Json.object members).get name = some v := by
  unfold structField at h
  split at h
  · cases h
  · rename_i m hfilter
    cases h
    have hreverse : members.reverse.filter (fun m => m.1 == name) = [m] := by
      rw [List.filter_reverse, hfilter, List.reverse_singleton]
    rw [Json.get, ← List.head?_filter, hreverse]
    rfl
  · cases h

theorem get_of_absent (h : structField members name = some none) :
    (Json.object members).get name = none := by
  unfold structField at h
  split at h
  · rename_i hfilter
    have hreverse : members.reverse.filter (fun m => m.1 == name) = [] := by
      rw [List.filter_reverse, hfilter, List.reverse_nil]
    rw [Json.get, ← List.head?_filter, hreverse]
    rfl
  · cases h
  · cases h

/-- A decoded field is the member of its name, or its default if there is none. -/
theorem defaulted_named {τ : Type} {index : ℕ} {default x : τ} {read : Json → Option τ}
    (h : (Fields.named members).defaulted index name default read = some x) :
    (∃ v, (Json.object members).get name = some v ∧ read v = some x) ∨
      (Json.object members).get name = none ∧ x = default := by
  simp only [Fields.defaulted, Fields.value, Option.bind_eq_bind, Option.bind_eq_some_iff] at h
  obtain ⟨field, hfield, hread⟩ := h
  cases field with
  | none => exact .inr ⟨get_of_absent hfield, (Option.some.inj hread).symm⟩
  | some v => exact .inl ⟨v, get_of_structField hfield, hread⟩

theorem said_of_decoded {m : Message} (h : decodeMessage (.object members) = some m) :
    said (.object members) = m := by
  simp only [decodeMessage, fieldsOf, Option.bind_eq_bind, Option.bind_some,
    Option.bind_eq_some_iff] at h
  obtain ⟨role, hrole, content, hcontent, hm⟩ := h
  cases hm
  simp only [Fields.required, Fields.value, Option.bind_eq_bind, Option.bind_eq_some_iff] at hrole
  obtain ⟨_, hfield, v, rfl, hv⟩ := hrole
  have hsaid : ((Json.object members).get "content").bind Json.asStr = some content ∨
      ((Json.object members).get "content").bind Json.asStr = none ∧ content = "" := by
    rcases defaulted_named hcontent with ⟨v, hget, hread⟩ | ⟨hget, hdefault⟩
    · rw [hget]
      exact .inl hread
    · rw [hget]
      exact .inr ⟨rfl, hdefault⟩
  rw [said, get_of_structField hfield, Option.bind_some, hv]
  rcases hsaid with hsome | ⟨hnone, rfl⟩
  · rw [hsome]
    rfl
  · rw [hnone]
    rfl

theorem map_of_mapM {α β : Type} {f : α → Option β} {g : α → β} {xs : List α} {ys : List β}
    (h : xs.mapM f = some ys) (hg : ∀ x ∈ xs, ∀ y, f x = some y → g x = y) : xs.map g = ys := by
  induction xs generalizing ys with
  | nil =>
      cases h
      rfl
  | cons x xs ih =>
      simp only [List.mapM_cons, Option.bind_eq_bind, Option.bind_eq_some_iff] at h
      obtain ⟨y, hy, ys', hys, heq⟩ := h
      cases heq
      obtain ⟨hx, hxs⟩ := List.forall_mem_cons.mp hg
      rw [List.map_cons, hx y hy, ih hys hxs]

theorem u32_of_nullable {v : Json} {n : Option UInt32} (h : nullable u32 v = some n) : u32 v = n := by
  cases v with
  | null =>
      cases h
      rfl
  | number k =>
      change Option.map some (u32 (.number k)) = some n at h
      obtain ⟨m, hm, rfl⟩ := Option.map_eq_some_iff.mp h
      exact hm
  | _ => cases h

/-- The messages and the limit that are decoded are those of the value. -/
theorem decode_named {v : Json} (hnamed : Named v) {request : OpenAiRequest}
    (hdecode : OpenAiRequest.decode v = some request) :
    messagesOf v = request.messages ∧ limitOf v = request.maxTokens := by
  obtain ⟨⟨members, rfl⟩, hitems⟩ := hnamed
  simp only [OpenAiRequest.decode, fieldsOf, Option.bind_eq_bind, Option.bind_some,
    Option.bind_eq_some_iff] at hdecode
  obtain ⟨messages, hmessages, maxTokens, hmaxTokens, _, -, hrequest⟩ := hdecode
  cases hrequest
  constructor
  · rcases defaulted_named hmessages with ⟨w, hget, hread⟩ | ⟨hget, rfl⟩
    · cases w with
      | array items =>
          rw [messagesOf, hget]
          refine map_of_mapM hread fun item hitem m hm => ?_
          obtain ⟨fields, rfl⟩ := hitems items hget item hitem
          exact said_of_decoded hm
      | _ => cases hread
    · rw [messagesOf, hget]
  · rcases defaulted_named hmaxTokens with ⟨w, hget, hread⟩ | ⟨hget, rfl⟩
    · rw [limitOf, hget, Option.bind_some]
      exact u32_of_nullable hread
    · rw [limitOf, hget]
      rfl

end

theorem messagesOf_payload {v : Json} {messages : List Message}
    (h : v.get "messages" = some (.array (messages.map messageJson))) : messagesOf v = messages := by
  rw [messagesOf, h]
  dsimp only
  rw [List.map_map]
  exact List.map_id'' (fun _ => rfl) messages

section
variable {float : Number → Number}

theorem get_anthropicJson (r : AnthropicRequest) :
    (anthropicJson float r).get "messages" = some (.array (r.messages.map messageJson)) ∧
      (anthropicJson float r).get "system" = r.system.map .string := by
  obtain ⟨model, messages, maxTokens, system, temperature, stream⟩ := r
  cases system <;> cases temperature <;> cases stream <;> exact ⟨rfl, rfl⟩

theorem get_bedrockJson (r : BedrockRequest) :
    (bedrockJson float r).get "messages" = some (.array (r.messages.map messageJson)) ∧
      (bedrockJson float r).get "system" = r.system.map .string := by
  obtain ⟨version, messages, maxTokens, system, temperature⟩ := r
  cases system <;> cases temperature <;> exact ⟨rfl, rfl⟩

theorem limit_anthropicJson (r : AnthropicRequest) :
    (anthropicJson float r).get "max_tokens" = some (count r.maxTokens) := by
  obtain ⟨model, messages, maxTokens, system, temperature, stream⟩ := r
  cases system <;> cases temperature <;> cases stream <;> rfl

theorem limit_bedrockJson (r : BedrockRequest) :
    (bedrockJson float r).get "max_tokens" = some (count r.maxTokens) := by
  obtain ⟨version, messages, maxTokens, system, temperature⟩ := r
  cases system <;> cases temperature <;> rfl

end

section
variable {env : Surroundings κ} {request : ConnectorCall}

/-- What a translated payload says. -/
theorem sends_translated {c : RuntimeBuilding.Connector κ} (hc : translates c = true)
    {parts : ChatMessages}
    (hparse : parseOpenaiMessages env.serde.toExternals env.ambient request.body = .ok parts)
    {payload : Json}
    (hget : payload.get "messages" = some (.array (parts.messages.map messageJson)) ∧
      payload.get "system" = parts.system.map .string)
    (hlimit : payload.get "max_tokens" = some (count parts.maxTokens)) :
    Sends env.serde request.body c (asBytes (env.serde.toText payload)) := by
  unfold parseOpenaiMessages at hparse
  split at hparse
  · cases hparse
  · rename_i decoded hdecoded
    obtain ⟨v, hv, hdecode⟩ := Option.bind_eq_some_iff.mp hdecoded
    refine .translated hc hv fun hnamed => ?_
    obtain ⟨hmessages, hmaxTokens⟩ := decode_named hnamed hdecode
    cases hparse
    rw [hmessages, hmaxTokens]
    dsimp only at hget hlimit
    rw [hoistSystem_eq] at hget
    constructor
    · rw [heard, messagesOf_payload hget.1, hget.2]
      by_cases hempty : (conversation decoded.messages).system.isEmpty = true
      · rw [if_pos hempty]
        have hsystem := String.isEmpty_iff.mp hempty
        exact congrArg (fun t => Conversation.mk t _) hsystem.symm
      · rw [if_neg hempty]
        rfl
    · rw [limitOf, hlimit, Option.bind_some, u32_count]

/-- Only an object gets the model of the route. -/
theorem sends_rewriteModel {c : RuntimeBuilding.Connector κ} (hc : translates c = false)
    (lib : Serde) (body : Bytes) (model : String) :
    Sends lib body c (OpenAiForwarding.rewriteModel lib body model) := by
  unfold OpenAiForwarding.rewriteModel
  split
  · rename_i members hread
    refine .rewritten hc hread fun name hname => ?_
    rw [OpenAiForwarding.get_insertMember, if_neg hname]
  · exact .unchanged hc

theorem sends_of_mem_posted {c : RuntimeBuilding.Connector κ} {q : HttpRequest}
    (hq : q ∈ posted env request c) : Sends env.serde request.body c q.body := by
  cases c with
  | openai c =>
      obtain rfl := List.mem_singleton.mp hq
      exact sends_rewriteModel rfl env.serde request.body request.model
  | azure c =>
      obtain rfl := List.mem_singleton.mp hq
      exact .unchanged rfl
  | anthropic c =>
      simp only [posted] at hq
      split at hq
      · rename_i parts _ hparse
        obtain rfl := List.mem_singleton.mp hq
        exact sends_translated rfl hparse (get_anthropicJson _) (limit_anthropicJson _)
      · cases hq
  | bedrock c =>
      simp only [posted] at hq
      split at hq
      · rename_i parts _ _ hparse
        obtain rfl := List.mem_singleton.mp hq
        exact sends_translated rfl hparse (get_bedrockJson _) (limit_bedrockJson _)
      · cases hq

end

section
variable {host : Host κ} {config : Config} {runtime : BuiltRuntime κ}

/-- For every configuration that builds, every request and every behaviour of the
providers: on whichever route and attempt a connector is called, what it hands to its HTTP
client is the body itself, or its value with all members but the model unchanged, or, for
a connector that translates, the conversation of the body, all of it and nothing else,
with the limit of the body or the default. For the last the body has to name its fields
and those of its messages. -/
theorem every_route_hears_the_conversation (env : Surroundings κ)
    (slow : ℕ → RuntimeBuilding.Connector κ → ConnectorCall → Bool)
    (h : buildRuntime host config = .ok runtime) (request : ConnectorCall) :
    ∀ asked ∈ (ProviderCalls.serve env slow runtime.connector request).calls,
    ∀ q ∈ posted env asked.2 asked.1, Sends env.serde request.body asked.1 q.body := by
  intro asked hasked q hq
  obtain ⟨table, -, hnew, -⟩ := ModelListing.buildRuntime_parts h
  rw [← (configured_of_mem_calls env slow hnew hasked).body]
  exact sends_of_mem_posted hq

end

section Sample

/-- Plain values are written and read; others are not written. -/
def plainSerde : Serde where
  sha256 := id
  fromSlice := JsonReading.readJson
  fromSliceAs _ := JsonReading.readJson
  parseRfc3339 _ := none
  toText v := if JsonReading.plain 127 v then v.compact else ""

def plainSurroundings : Surroundings Unit := { sampleSurroundings with serde := plainSerde }

/-- A model with a fallback of another schema. -/
def fallbackConfig : Config where
  models :=
    [{ name := "chat", primary := ⟨"openai", "gpt-4o"⟩, fallbacks := [⟨"anthropic", "claude-3"⟩] }]

def messageValue (role content : String) : Json :=
  .object [("content", .string content), ("role", .string role)]

def briefValue : Json :=
  .object [("messages", .array [messageValue "system" "Be brief.", messageValue "user" "hi"]),
    ("model", .string "chat")]

def briefBody : Bytes := asBytes briefValue.compact

theorem plainSerde_brief : plainSerde.fromSlice briefBody = some briefValue :=
  JsonReading.readJson_compact (show JsonReading.plain 127 briefValue = true by decide +kernel)

theorem brief_named : Named briefValue := by
  refine ⟨⟨_, rfl⟩, ?_⟩
  intro items hitems message hmessage
  have hget : briefValue.get "messages" =
      some (.array [messageValue "system" "Be brief.", messageValue "user" "hi"]) := rfl
  obtain rfl := Json.array.inj (Option.some.inj (hget.symm.trans hitems))
  simp only [List.mem_cons, List.not_mem_nil, or_false] at hmessage
  rcases hmessage with rfl | rfl
  · exact ⟨_, rfl⟩
  · exact ⟨_, rfl⟩

/-- The network is down: both providers are asked, the first in the words of the body and
the second in its own. -/
theorem fallback_hears_the_conversation :
    ∃ runtime, buildRuntime sampleHost fallbackConfig = .ok runtime ∧
      let calls := (ProviderCalls.serve plainSurroundings (fun _ _ _ => false) runtime.connector
        ⟨.chat, "chat", false, briefBody⟩).calls
      calls.map (fun asked => ModelListing.Connector.name asked.1) = ["openai", "anthropic"] ∧
      ∀ asked ∈ calls, translates asked.1 = true → ∀ q ∈ posted plainSurroundings asked.2 asked.1,
        ∃ payload, q.body = asBytes (plainSerde.toText payload) ∧
          heard payload = ⟨"Be brief.", [⟨"user", "hi"⟩]⟩ := by
  obtain ⟨runtime, h⟩ : FallibleComputations.Succeeds (buildRuntime sampleHost fallbackConfig) :=
    ⟨_, rfl⟩
  refine ⟨runtime, h, ?_, ?_⟩
  · obtain rfl := Except.ok.inj h
    decide +kernel
  · intro asked hasked htranslates q hq
    have hsends := every_route_hears_the_conversation plainSurroundings _ h
      ⟨.chat, "chat", false, briefBody⟩ asked hasked q hq
    generalize q.body = sent at hsends ⊢
    cases hsends with
    | unchanged forwards => cases htranslates.symm.trans forwards
    | rewritten forwards => cases htranslates.symm.trans forwards
    | translated _ decoded told =>
        obtain rfl := Option.some.inj (plainSerde_brief.symm.trans decoded)
        exact ⟨_, rfl, (told brief_named).1⟩

end Sample

end VaultplaneGateway.SharedConversations
