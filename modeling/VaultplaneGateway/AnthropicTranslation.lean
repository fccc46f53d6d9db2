import VaultplaneGateway.DerivedDecoding

/-!
# From the Anthropic schema to the OpenAI schema

Two translations of one reply. A buffered message is decoded as a whole and written
as one completion; a stream is translated event by event, with the token counts
kept in between. The first goes through derived decoders, the second looks single
fields up in a JSON value.

Values are built with their members in the order of the writer's map, by name. Sums
of token counts are 32-bit sums; a checked build stops where one overflows.
-/
namespace VaultplaneGateway.AnthropicTranslation
open WireFormats ProxyPipeline ResponseCaching StreamUsage DerivedDecoding

structure AnthropicContentBlock where
  kind : String
  text : String
  deriving DecidableEq, Repr

def AnthropicContentBlock.decode (v : Json) : Option AnthropicContentBlock := do
  let f ← fieldsOf 2 v
  let kind ← f.required 0 "type" Json.asStr
  let text ← f.defaulted 1 "text" "" Json.asStr
  pure ⟨kind, text⟩

structure AnthropicUsage where
  inputTokens : UInt32
  outputTokens : UInt32
  deriving DecidableEq, Repr

def AnthropicUsage.decode (v : Json) : Option AnthropicUsage := do
  let f ← fieldsOf 2 v
  let inputTokens ← f.defaulted 0 "input_tokens" 0 u32
  let outputTokens ← f.defaulted 1 "output_tokens" 0 u32
  pure ⟨inputTokens, outputTokens⟩

structure AnthropicResponse where
  id : String
  model : String
  content : List AnthropicContentBlock
  stopReason : Option String
  usage : Option AnthropicUsage
  deriving DecidableEq, Repr

def AnthropicResponse.decode (v : Json) : Option AnthropicResponse := do
  let f ← fieldsOf 5 v
  let id ← f.defaulted 0 "id" "" Json.asStr
  let model ← f.defaulted 1 "model" "" Json.asStr
  let content ← f.defaulted 2 "content" [] (vec AnthropicContentBlock.decode)
  let stopReason ← f.defaulted 3 "stop_reason" none (nullable Json.asStr)
  let usage ← f.defaulted 4 "usage" none (nullable AnthropicUsage.decode)
  pure ⟨id, model, content, stopReason, usage⟩

def mapFinishReason (stopReason : String) : String :=
  if stopReason = "max_tokens" then "length" else "stop"

/-- The `usage` object of a reply. -/
def usageValue (promptTokens completionTokens : UInt32) : Json :=
  .object [("completion_tokens", count completionTokens), ("prompt_tokens", count promptTokens),
    ("total_tokens", count (promptTokens + completionTokens))]

/-- The text blocks of a message, joined. -/
def joinedText (blocks : List AnthropicContentBlock) : String :=
  String.join ((blocks.filter fun b => b.kind == "text").map AnthropicContentBlock.text)

/-- The completion as a value, before it is encoded, and its usage. `none` is the
provider error for a body that does not decode. -/
def toOpenaiResponse (lib : Externals) (created : UInt64) (body : Bytes) : Option (Json × Usage) := do
  let response ← (lib.fromSliceAs .anthropicResponse body).bind AnthropicResponse.decode
  let upstream := response.usage.getD ⟨0, 0⟩
  let usage : Usage := ⟨upstream.inputTokens, upstream.outputTokens⟩
  let openai := Json.object
    [("choices", .array [.object
        [("finish_reason", .string (mapFinishReason (response.stopReason.getD ""))),
          ("index", .number (.unsigned 0)),
          ("message", .object
            [("content", .string (joinedText response.content)), ("role", .string "assistant")])]]),
      ("created", .number (.unsigned created)),
      ("id", .string response.id),
      ("model", .string response.model),
      ("object", .string "chat.completion"),
      ("usage", usageValue usage.promptTokens usage.completionTokens)]
  pure (openai, usage)

structure AnthropicTransform where
  chatId : String
  created : UInt64
  model : String
  inputTokens : UInt32
  outputTokens : UInt32
  deriving DecidableEq, Repr

/-- The random bytes and the time are given. -/
def AnthropicTransform.new (idBytes : Bytes) (created : UInt64) (model : String) :
    AnthropicTransform where
  chatId := "chatcmpl-" ++ hexEncode idBytes
  created := created
  model := model
  inputTokens := 0
  outputTokens := 0

namespace AnthropicTransform

/-- A chunk as a value; `render` gives its bytes. -/
def chunk (t : AnthropicTransform) (delta : Json) (finishReason : Option String) : Json :=
  .object
    [("choices", .array [.object
        [("delta", delta),
          ("finish_reason", (finishReason.map Json.string).getD .null),
          ("index", .number (.unsigned 0))]]),
      ("created", .number (.unsigned t.created)),
      ("id", .string t.chatId),
      ("model", .string t.model),
      ("object", .string "chat.completion.chunk")]

def usageChunk (t : AnthropicTransform) : Json :=
  .object
    [("choices", .array []),
      ("created", .number (.unsigned t.created)),
      ("id", .string t.chatId),
      ("model", .string t.model),
      ("object", .string "chat.completion.chunk"),
      ("usage", usageValue t.inputTokens t.outputTokens)]

/-- The branches of `process`, by the name of the event. -/
inductive Kind where
  | messageStart | contentBlockDelta | messageDelta | other
  deriving DecidableEq, Repr

def kindOf (event : SseEvent) : Kind :=
  let name := event.event.getD ""
  if name = "message_start" then .messageStart
  else if name = "content_block_delta" then .contentBlockDelta
  else if name = "message_delta" then .messageDelta
  else .other

/-- One event. Counts are cut to 32 bits. -/
def process (lib : Externals) (t : AnthropicTransform) (event : SseEvent) :
    AnthropicTransform × List Json :=
  match lib.fromSlice (asBytes event.data) with
  | none => (t, [])
  | some data =>
      match kindOf event with
      | .messageStart =>
          let model := (data.path ["message", "model"]).bind Json.asStr
          let tokens := (data.path ["message", "usage", "input_tokens"]).bind Json.asU64
          let t := { t with
            model := model.getD t.model
            inputTokens := (tokens.map UInt64.toUInt32).getD t.inputTokens }
          (t, [t.chunk (.object [("role", .string "assistant")]) none])
      | .contentBlockDelta =>
          if (data.path ["delta", "type"]).bind Json.asStr = some "text_delta" then
            match (data.path ["delta", "text"]).bind Json.asStr with
            | some text => (t, [t.chunk (.object [("content", .string text)]) none])
            | none => (t, [])
          else (t, [])
      | .messageDelta =>
          let stopReason := (data.path ["delta", "stop_reason"]).bind Json.asStr
          let tokens := (data.path ["usage", "output_tokens"]).bind Json.asU64
          let t := { t with outputTokens := (tokens.map UInt64.toUInt32).getD t.outputTokens }
          (t, [t.chunk (.object []) (stopReason.map mapFinishReason), t.usageChunk])
      | .other => (t, [])

/-- Several events, one after the other. -/
def processAll (lib : Externals) : AnthropicTransform → List SseEvent →
    AnthropicTransform × List Json
  | t, [] => (t, [])
  | t, event :: events =>
      let r := t.process lib event
      let rest := processAll lib r.1 events
      (rest.1, r.2 ++ rest.2)

theorem processAll_append (lib : Externals) (t : AnthropicTransform) (es fs : List SseEvent) :
    t.processAll lib (es ++ fs) =
      ((processAll lib (t.processAll lib es).1 fs).1,
        (t.processAll lib es).2 ++ (processAll lib (t.processAll lib es).1 fs).2) := by
  induction es generalizing t with
  | nil => rfl
  | cons e es ih => simp only [List.cons_append, processAll, ih, List.append_assoc]

end AnthropicTransform

end VaultplaneGateway.AnthropicTranslation
