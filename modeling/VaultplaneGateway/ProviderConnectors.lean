import VaultplaneGateway.StreamedCharges

/-!
# The connectors of the Anthropic schema

Two connectors translate between the OpenAI schema and the Anthropic one: that of the
Anthropic API and that of Bedrock. They share the translation of the request and of a
buffered reply. A connector is given by its HTTP client, as the function from what is
posted to what comes back; addresses, headers, signatures and the encoding of the posted
value are inside it. The text of a JSON error, the random id of a stream and the clock
are given as well.

A call returns a response or an error, or panics, which is `none`.
-/
namespace VaultplaneGateway.ProviderConnectors
open WireFormats ProxyPipeline ResponseCaching StreamUsage DerivedDecoding AnthropicTranslation
open AnthropicStreaming UsageTee

/-- What a call takes from its surroundings besides the answer of the upstream. -/
structure Ambient where
  decodeError : Bytes → String
  idBytes : Bytes
  created : UInt64

structure Message where
  role : String
  content : String
  deriving DecidableEq, Repr

/-- The temperature is kept as the number it was read from. -/
structure ChatMessages where
  system : Option String
  messages : List Message
  maxTokens : UInt32
  temperature : Option Number
  deriving DecidableEq, Repr

structure OpenAiRequest where
  messages : List Message
  maxTokens : Option UInt32
  temperature : Option Number
  deriving DecidableEq, Repr

def defaultMaxTokens : UInt32 := 4096

/-- An incoming message has the two fields of an outgoing one. -/
def decodeMessage (v : Json) : Option Message := do
  let f ← fieldsOf 2 v
  let role ← f.required 0 "role" Json.asStr
  let content ← f.defaulted 1 "content" "" Json.asStr
  pure ⟨role, content⟩

def asNumber : Json → Option Number
  | .number n => some n
  | _ => none

def OpenAiRequest.decode (v : Json) : Option OpenAiRequest := do
  let f ← fieldsOf 3 v
  let messages ← f.defaulted 0 "messages" [] (vec decodeMessage)
  let maxTokens ← f.defaulted 1 "max_tokens" none (nullable u32)
  let temperature ← f.defaulted 2 "temperature" none (nullable asNumber)
  pure ⟨messages, maxTokens, temperature⟩

/-- System messages are joined by line feeds; an empty text so far takes none. -/
def hoistSystem (messages : List Message) : String × List Message :=
  messages.foldl (fun acc message =>
    if message.role == "system" then
      ((if acc.1.isEmpty then acc.1 else acc.1 ++ "\n") ++ message.content, acc.2)
    else (acc.1, acc.2 ++ [message])) ("", [])

def parseOpenaiMessages (lib : Externals) (a : Ambient) (body : Bytes) :
    Except CoreError ChatMessages :=
  match (lib.fromSliceAs .openAiRequest body).bind OpenAiRequest.decode with
  | none => .error (.provider ("invalid chat request: " ++ a.decodeError body))
  | some request =>
      let hoisted := hoistSystem request.messages
      .ok ⟨if hoisted.1.isEmpty then none else some hoisted.1, hoisted.2,
        request.maxTokens.getD defaultMaxTokens, request.temperature⟩

structure AnthropicRequest where
  model : String
  messages : List Message
  maxTokens : UInt32
  system : Option String
  temperature : Option Number
  stream : Option Bool
  deriving DecidableEq, Repr

structure BedrockRequest where
  anthropicVersion : String
  messages : List Message
  maxTokens : UInt32
  system : Option String
  temperature : Option Number
  deriving DecidableEq, Repr

/-- `&text[..n]`: the characters of the first `n` bytes. It panics unless a character
ends there. -/
def sliceTo : ℕ → List Char → Option (List Char)
  | 0, _ => some []
  | _ + 1, [] => none
  | n + 1, c :: cs =>
      if c.utf8Size ≤ n + 1 then (sliceTo (n + 1 - c.utf8Size) cs).map (c :: ·) else none

/-- The message of an Anthropic error body and its type, if it has one. -/
def parsedError (lib : Externals) (body : Bytes) : Option (String × Option String) := do
  let value ← lib.fromSlice body
  let error ← value.get "error"
  let message ← (← error.get "message").asStr
  pure (message, (error.get "type").bind Json.asStr)

/-- The text of a body of another shape, cut to 512 bytes. -/
def fallbackMessage (body : Bytes) : Option String :=
  let text := (fromUtf8 body).getD "upstream returned a non-JSON error"
  if 512 < text.utf8ByteSize then (sliceTo 512 text.toList).map String.ofList else some text

def openaiEnvelope (message : String) (kind : Option String) : Json :=
  .object [("error", .object
    (("message", .string message) :: (kind.map fun k => ("type", Json.string k)).toList))]

/-- The envelope as a value; `none` if the call panics. -/
def errorEnvelope (lib : Externals) (body : Bytes) : Option Json :=
  match parsedError lib body with
  | some (message, kind) => some (openaiEnvelope message kind)
  | none => (fallbackMessage body).map fun message => openaiEnvelope message none

/-- Writing a value that was built here does not fail. -/
def toOpenaiError (lib : Serde) (body : Bytes) : Option Bytes :=
  (errorEnvelope lib.toExternals body).map fun v => asBytes (lib.toText v)

/-- The head of an upstream answer, and its body as it arrives. -/
structure HttpResponse where
  status : UInt16
  chunks : BodyStream

/-- `AnthropicConnector`: the answer of the upstream to what is posted, or the text of
the error of sending it. -/
structure AnthropicConnector where
  send : AnthropicRequest → Except String HttpResponse

/-- `BedrockConnector`. The model stands in the path of the request. -/
structure BedrockConnector where
  send : String → BedrockRequest → Except String HttpResponse

/-- What a client reads from the adapter over these chunks. -/
def adapterBody (lib : Serde) (t : AnthropicTransform) (chunks : BodyStream) : BodyStream :=
  due lib t [] (chunks.map (fun chunk => .ready (some chunk)) ++ [.ready none])

/-- Nothing is due after the end of the upstream. -/
theorem due_end (lib : Serde) (t : AnthropicTransform) (seen : Bytes) (polls rest : List Poll) :
    due lib t seen (polls ++ .ready none :: rest) = due lib t seen (polls ++ [.ready none]) := by
  induction polls generalizing t seen with
  | nil => rfl
  | cons polled polls ih =>
      rcases polled with _ | _ | e | chunk
      · exact ih t seen
      · rfl
      · exact congrArg (Except.error e :: ·) (ih t seen)
      · simp only [List.cons_append, due, ih]

/-- Polling the adapter over these chunks comes to an end, and then that body has been
read. -/
theorem adapterBody_polled (lib : Serde) (t : AnthropicTransform) (chunks : BodyStream) :
    ∃ n, .ready none ∈ StreamedCharges.answers (calls lib n (.new t)
        (chunks.map (fun chunk => .ready (some chunk)) ++ [.ready none])).history ∧
      items (calls lib n (.new t)
        (chunks.map (fun chunk => .ready (some chunk)) ++ [.ready none])).history =
          adapterBody lib t chunks := by
  obtain ⟨n, hn⟩ := StreamedCharges.exists_drained lib (.new t)
    (chunks.map (fun chunk => Poll.ready (some chunk)) ++ [.ready none]) (.inr (by simp))
  obtain ⟨k, hk⟩ := StreamedCharges.items_drained hn
  refine ⟨n, hn, ?_⟩
  rw [hk, List.append_assoc, List.singleton_append, due_end]
  rfl

/-- A whole body in the OpenAI schema, with its usage. -/
def translated (lib : Serde) (a : Ambient) (body : Bytes) : Except CoreError (Bytes × Usage) :=
  match toOpenaiResponse lib.toExternals a.created body with
  | none => .error (.provider ("invalid Anthropic response: " ++ a.decodeError body))
  | some (v, usage) => .ok (asBytes (lib.toText v), usage)

def singleChunk (body : Bytes) : BodyStream := [.ok body]

/-- `AnthropicConnector::chat`. -/
def AnthropicConnector.chat (lib : Serde) (a : Ambient) (c : AnthropicConnector)
    (request : ConnectorCall) : Option (Except CoreError ChatResponse) :=
  match parseOpenaiMessages lib.toExternals a request.body with
  | .error err => some (.error err)
  | .ok parts =>
      match c.send ⟨request.model, parts.messages, parts.maxTokens, parts.system,
          parts.temperature, if request.stream then some true else none⟩ with
      | .error e => some (.error (.provider ("request to Anthropic failed: " ++ e)))
      | .ok response =>
          if request.stream && response.status == 200 then
            some (.ok ⟨200, some "text/event-stream",
              adapterBody lib (.new a.idBytes a.created request.model) response.chunks,
              "anthropic", request.model, none, 1⟩)
          else
            match collectBody response.chunks with
            | .error e => some (.error (.provider ("reading Anthropic response failed: " ++ e)))
            | .ok body =>
                if response.status == 200 then
                  some ((translated lib a body).map fun r =>
                    ⟨200, some "application/json", singleChunk r.1, "anthropic", request.model,
                      some r.2, 1⟩)
                else
                  (toOpenaiError lib body).map fun rewritten =>
                    .ok ⟨response.status, some "application/json", singleChunk rewritten,
                      "anthropic", request.model, none, 1⟩

/-- The answer to a request for a stream. -/
def streamingUnsupported : Json :=
  openaiEnvelope "streaming is not yet supported for the Bedrock provider" none

def bedrockAnthropicVersion : String := "bedrock-2023-05-31"

/-- `BedrockConnector::chat`. The body of an error is handed on as it is. -/
def BedrockConnector.chat (lib : Serde) (a : Ambient) (c : BedrockConnector)
    (request : ConnectorCall) : Option (Except CoreError ChatResponse) :=
  if request.stream then
    some (.ok ⟨501, some "application/json",
      singleChunk (asBytes (lib.toText streamingUnsupported)), "bedrock", request.model, none, 1⟩)
  else
    match parseOpenaiMessages lib.toExternals a request.body with
    | .error err => some (.error err)
    | .ok parts =>
        match c.send request.model ⟨bedrockAnthropicVersion, parts.messages, parts.maxTokens,
            parts.system, parts.temperature⟩ with
        | .error e => some (.error (.provider ("request to Bedrock failed: " ++ e)))
        | .ok response =>
            match collectBody response.chunks with
            | .error e => some (.error (.provider ("reading Bedrock response failed: " ++ e)))
            | .ok body =>
                if response.status == 200 then
                  some ((translated lib a body).map fun r =>
                    ⟨200, some "application/json", singleChunk r.1, "bedrock", request.model,
                      some r.2, 1⟩)
                else
                  some (.ok ⟨response.status, some "application/json", singleChunk body,
                    "bedrock", request.model, none, 1⟩)

end VaultplaneGateway.ProviderConnectors
