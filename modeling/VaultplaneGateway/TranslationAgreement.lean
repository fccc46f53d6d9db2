import VaultplaneGateway.AnthropicTranslation

/-!
# The streamed reply and the buffered reply agree

A message of the Anthropic API, as the value of a response body and as a stream of
events. Both are described by the fields a client reads, wherever they stand and
whatever else is there: a value carries a message, an event means one part of it or
nothing. The texts of a block may be cut into any number of deltas, and events
without a meaning may come anywhere.

The two translations of the same message then say the same: the same text, the same
finish reason, the same token counts.
-/
namespace VaultplaneGateway.TranslationAgreement
open WireFormats ProxyPipeline ResponseCaching StreamUsage DerivedDecoding AnthropicTranslation

/-- A content block of any kind. -/
structure Block where
  kind : String
  text : Option String
  deriving DecidableEq, Repr

structure Message where
  id : String
  model : String
  content : List Block
  stopReason : String
  inputTokens : UInt32
  outputTokens : UInt32
  deriving DecidableEq, Repr

/-- The texts of the text blocks. -/
def Message.texts (m : Message) : List String :=
  (m.content.filter fun b => b.kind == "text").map fun b => b.text.getD ""

/-- The object has the member of that name once. -/
def Member (members : List (String × Json)) (name : String) (v : Json) : Prop :=
  structField members name = some (some v)

/-- The value of a content block. Members of other names are free. -/
inductive CarriesBlock : Json → Block → Prop
  | mk {members : List (String × Json)} {b : Block} (kind : Member members "type" (.string b.kind))
      (text : structField members "text" = some (b.text.map Json.string)) :
      CarriesBlock (.object members) b

/-- The value of a message. -/
inductive Carries : Json → Message → Prop
  | mk {members usage : List (String × Json)} {blocks : List Json} {m : Message}
      (id : Member members "id" (.string m.id)) (model : Member members "model" (.string m.model))
      (content : Member members "content" (.array blocks))
      (each : List.Forall₂ CarriesBlock blocks m.content)
      (stopReason : Member members "stop_reason" (.string m.stopReason))
      (counts : Member members "usage" (.object usage))
      (inputTokens : Member usage "input_tokens" (count m.inputTokens))
      (outputTokens : Member usage "output_tokens" (count m.outputTokens)) :
      Carries (.object members) m

def Block.decoded (b : Block) : AnthropicContentBlock := ⟨b.kind, b.text.getD ""⟩

theorem decode_block {v : Json} {b : Block} (h : CarriesBlock v b) :
    AnthropicContentBlock.decode v = some b.decoded := by
  obtain ⟨kind, text⟩ := h
  simp only [AnthropicContentBlock.decode, fieldsOf, Option.bind_eq_bind, Option.bind_some,
    Fields.required, Fields.defaulted, Fields.value, show structField _ "type" = _ from kind, text]
  cases hb : b.text <;> simp [Json.asStr, Block.decoded, hb]

theorem decode_blocks {blocks : List Json} {bs : List Block}
    (h : List.Forall₂ CarriesBlock blocks bs) :
    blocks.mapM AnthropicContentBlock.decode = some (bs.map Block.decoded) := by
  induction h with
  | nil => rfl
  | cons hb _ ih => simp [List.mapM_cons, decode_block hb, ih]

/-- The derived decoder accepts every message. -/
theorem decode_message {v : Json} {m : Message} (h : Carries v m) :
    AnthropicResponse.decode v = some ⟨m.id, m.model, m.content.map Block.decoded,
      some m.stopReason, some ⟨m.inputTokens, m.outputTokens⟩⟩ := by
  obtain @⟨members, usage, blocks, _, id, model, content, each, stopReason, counts, inputTokens,
    outputTokens⟩ := h
  unfold Member at id model content stopReason counts inputTokens outputTokens
  have husage : AnthropicUsage.decode (.object usage) = some ⟨m.inputTokens, m.outputTokens⟩ := by
    simp only [AnthropicUsage.decode, fieldsOf, Option.bind_eq_bind, Option.bind_some,
      Fields.defaulted, Fields.value, inputTokens, outputTokens, u32_count]
    rfl
  simp only [AnthropicResponse.decode, fieldsOf, Option.bind_eq_bind, Option.bind_some,
    Fields.defaulted, Fields.value, id, model, content, stopReason, counts, vec,
    decode_blocks each, nullable, husage, Json.asStr, Option.map_some]
  rfl

theorem joinedText_decoded (m : Message) :
    joinedText (m.content.map Block.decoded) = String.join m.texts := by
  unfold joinedText Message.texts
  rw [List.filter_map, List.map_map]
  rfl

/-- What an event says about the message. -/
inductive Part where
  | start (inputTokens : UInt32)
  | text (content : String)
  | delta (stopReason : Option String) (outputTokens : UInt32)
  | ignorable
  deriving DecidableEq, Repr

/-- The event with its data, and the part it stands for. Pings, block boundaries,
`message_stop` and unknown events are ignorable whatever their data, and so are
deltas that are no text. -/
inductive Means (lib : Externals) : SseEvent → Part → Prop
  | start {e : SseEvent} {v : Json} {n : UInt32} (name : e.event = some "message_start")
      (data : lib.fromSlice (asBytes e.data) = some v)
      (tokens : v.path ["message", "usage", "input_tokens"] = some (count n)) :
      Means lib e (.start n)
  | text {e : SseEvent} {v : Json} {content : String} (name : e.event = some "content_block_delta")
      (data : lib.fromSlice (asBytes e.data) = some v)
      (kind : v.path ["delta", "type"] = some (.string "text_delta"))
      (text : v.path ["delta", "text"] = some (.string content)) :
      Means lib e (.text content)
  | otherDelta {e : SseEvent} {v : Json} {kind : String}
      (name : e.event = some "content_block_delta")
      (data : lib.fromSlice (asBytes e.data) = some v)
      (type : v.path ["delta", "type"] = some (.string kind)) (other : kind ≠ "text_delta") :
      Means lib e .ignorable
  | delta {e : SseEvent} {v : Json} {stopReason : Option String} {n : UInt32}
      (name : e.event = some "message_delta")
      (data : lib.fromSlice (asBytes e.data) = some v)
      (reason : (v.path ["delta", "stop_reason"]).bind Json.asStr = stopReason)
      (tokens : v.path ["usage", "output_tokens"] = some (count n)) :
      Means lib e (.delta stopReason n)
  | other {e : SseEvent}
      (name : e.event.getD "" ∉ ["message_start", "content_block_delta", "message_delta"]) :
      Means lib e .ignorable

/-- The chunks a part is translated to, and the counts afterwards. Only the model
name may change beside them. -/
def Translated (t t' : AnthropicTransform) (chunks : List Json) : Part → Prop
  | .start n => t'.inputTokens = n ∧ t'.outputTokens = t.outputTokens ∧
      chunks = [t'.chunk (.object [("role", .string "assistant")]) none]
  | .text content => t' = t ∧ chunks = [t.chunk (.object [("content", .string content)]) none]
  | .delta stopReason n => t'.inputTokens = t.inputTokens ∧ t'.outputTokens = n ∧
      chunks = [t'.chunk (.object []) (stopReason.map mapFinishReason), t'.usageChunk]
  | .ignorable => t' = t ∧ chunks = []

theorem toUInt32_count (n : UInt32) : n.toUInt64.toUInt32 = n := by
  simp

theorem process_means {lib : Externals} {e : SseEvent} {p : Part} (h : Means lib e p)
    (t : AnthropicTransform) : Translated t (t.process lib e).1 (t.process lib e).2 p := by
  cases h with
  | start name data tokens =>
      simp only [AnthropicTransform.process, data, AnthropicTransform.kindOf, name, tokens,
        Option.getD_some, if_true, Option.bind_some, asU64_count, Option.map_some, toUInt32_count]
      exact ⟨rfl, rfl, rfl⟩
  | text name data kind text =>
      simp only [AnthropicTransform.process, data, AnthropicTransform.kindOf, name, kind, text,
        Option.getD_some, Option.bind_some, Json.asStr, if_true]
      exact ⟨rfl, rfl⟩
  | otherDelta name data type other =>
      simp only [AnthropicTransform.process, data, AnthropicTransform.kindOf, name, type,
        Option.getD_some, Option.bind_some, Json.asStr, Option.some.injEq, other, if_false]
      exact ⟨rfl, rfl⟩
  | delta name data reason tokens =>
      simp only [AnthropicTransform.process, data, AnthropicTransform.kindOf, name, tokens, reason,
        Option.getD_some, Option.bind_some, asU64_count, Option.map_some, toUInt32_count]
      exact ⟨rfl, rfl, rfl⟩
  | other name =>
      simp only [List.mem_cons, List.not_mem_nil, or_false, not_or] at name
      unfold AnthropicTransform.process AnthropicTransform.kindOf
      simp only [name.1, name.2.1, name.2.2, if_false]
      split
      · exact ⟨rfl, rfl⟩
      · exact ⟨rfl, rfl⟩

def firstChoice (v : Json) : Option Json :=
  match v.get "choices" with
  | some (.array (choice :: _)) => some choice
  | _ => none

/-- `choices[0].delta.content`. -/
def deltaContent (v : Json) : Option String :=
  (firstChoice v).bind fun c => (c.path ["delta", "content"]).bind Json.asStr

/-- `choices[0].message.content`. -/
def messageContent (v : Json) : Option String :=
  (firstChoice v).bind fun c => (c.path ["message", "content"]).bind Json.asStr

/-- `choices[0].finish_reason`, unless it is null. -/
def finishReason (v : Json) : Option String :=
  (firstChoice v).bind fun c => (c.get "finish_reason").bind Json.asStr

/-- The prompt, completion and total counts of the `usage` object. -/
def usageCounts (v : Json) : Option (ℕ × ℕ × ℕ) := do
  let prompt ← (← v.path ["usage", "prompt_tokens"]).asU64
  let completion ← (← v.path ["usage", "completion_tokens"]).asU64
  let total ← (← v.path ["usage", "total_tokens"]).asU64
  pure (prompt.toNat, completion.toNat, total.toNat)

/-- The counts a usage object is written with. -/
def writtenCounts (promptTokens completionTokens : UInt32) : ℕ × ℕ × ℕ :=
  (promptTokens.toNat, completionTokens.toNat, (promptTokens + completionTokens).toNat)

/-- What the parts say, without the transform. -/
def contents (parts : List Part) : List String :=
  parts.filterMap fun
    | .text content => some content
    | _ => none

def reasons (parts : List Part) : List String :=
  parts.filterMap fun
    | .delta stopReason _ => stopReason.map mapFinishReason
    | _ => none

/-- The counts reported after each delta, from the prompt count so far. -/
def countsFrom (inputTokens : UInt32) : List Part → List (ℕ × ℕ × ℕ)
  | [] => []
  | .start n :: parts => countsFrom n parts
  | .delta _ n :: parts => writtenCounts inputTokens n :: countsFrom inputTokens parts
  | .text _ :: parts => countsFrom inputTokens parts
  | .ignorable :: parts => countsFrom inputTokens parts

section Chunks

variable (t : AnthropicTransform)

@[simp] theorem deltaContent_chunk (delta : Json) (reason : Option String) :
    deltaContent (t.chunk delta reason) = (delta.get "content").bind Json.asStr := by
  simp [deltaContent, firstChoice, AnthropicTransform.chunk, Json.get, Json.path]

@[simp] theorem finishReason_chunk (delta : Json) (reason : Option String) :
    finishReason (t.chunk delta reason) = reason := by
  cases reason <;> rfl

@[simp] theorem usageCounts_chunk (delta : Json) (reason : Option String) :
    usageCounts (t.chunk delta reason) = none := rfl

@[simp] theorem deltaContent_usageChunk : deltaContent t.usageChunk = none := rfl

@[simp] theorem finishReason_usageChunk : finishReason t.usageChunk = none := rfl

@[simp] theorem usageCounts_usageChunk :
    usageCounts t.usageChunk = some (writtenCounts t.inputTokens t.outputTokens) := by
  simp [usageCounts, AnthropicTransform.usageChunk, usageValue, Json.path, Json.get, writtenCounts]

end Chunks

/-- The chunks of a stream say what its parts say. -/
theorem processAll_parts {lib : Externals} {events : List SseEvent} {parts : List Part}
    (h : List.Forall₂ (Means lib) events parts) (t : AnthropicTransform) :
    (t.processAll lib events).2.filterMap deltaContent = contents parts ∧
      (t.processAll lib events).2.filterMap finishReason = reasons parts ∧
      (t.processAll lib events).2.filterMap usageCounts = countsFrom t.inputTokens parts := by
  induction h generalizing t with
  | nil => exact ⟨rfl, rfl, rfl⟩
  | @cons e p es ps hmeans _ ih =>
      obtain ⟨hcontent, hreason, hcounts⟩ := ih (t.process lib e).1
      have htr := process_means hmeans t
      simp only [AnthropicTransform.processAll, List.filterMap_append, hcontent, hreason, hcounts]
      cases p with
      | start n =>
          obtain ⟨hin, -, hchunks⟩ := htr
          simp [hchunks, hin, contents, reasons, countsFrom, Json.get]
      | text content =>
          obtain ⟨heq, hchunks⟩ := htr
          simp [hchunks, heq, contents, reasons, countsFrom, Json.get, Json.asStr]
      | delta stopReason n =>
          obtain ⟨hin, hout, hchunks⟩ := htr
          cases stopReason <;>
            simp [hchunks, hin, hout, contents, reasons, countsFrom, Json.get, List.filterMap_cons]
      | ignorable =>
          obtain ⟨heq, hchunks⟩ := htr
          simp [hchunks, heq, contents, reasons, countsFrom]

/-- The parts with a meaning: the start, the texts of the blocks cut in any way,
the final delta. -/
def meaningful (parts : List Part) : List Part := parts.filter fun p => p != .ignorable

theorem filterMap_meaningful {τ : Type} {f : Part → Option τ} (h : f .ignorable = none)
    (parts : List Part) : (meaningful parts).filterMap f = parts.filterMap f := by
  unfold meaningful
  rw [List.filterMap_filter]
  refine List.filterMap_congr fun p _ => ?_
  cases p with
  | ignorable => exact h.symm
  | _ => rfl

theorem contents_meaningful (parts : List Part) : contents (meaningful parts) = contents parts :=
  filterMap_meaningful rfl parts

theorem reasons_meaningful (parts : List Part) : reasons (meaningful parts) = reasons parts :=
  filterMap_meaningful rfl parts

theorem countsFrom_meaningful (n : UInt32) (parts : List Part) :
    countsFrom n (meaningful parts) = countsFrom n parts := by
  induction parts generalizing n with
  | nil => rfl
  | cons p parts ih =>
      unfold meaningful at ih ⊢
      cases p with
      | ignorable => exact ih n
      | start k => exact ih k
      | text content => exact ih n
      | delta stopReason k => exact congrArg (writtenCounts n k :: ·) (ih n)

/-- An event sequence for a message: the start with the input count, each text
block in any number of deltas, one final delta with stop reason and output count,
and anything ignorable in between. -/
def StreamOf (lib : Externals) (m : Message) (events : List SseEvent) : Prop :=
  ∃ (parts : List Part) (cuts : List (List String)), List.Forall₂ (Means lib) events parts ∧
    cuts.map String.join = m.texts ∧
    meaningful parts = .start m.inputTokens ::
      (cuts.flatten.map Part.text ++ [.delta (some m.stopReason) m.outputTokens])

theorem join_flatten (cuts : List (List String)) :
    String.join cuts.flatten = String.join (cuts.map String.join) := by
  induction cuts with
  | nil => rfl
  | cons cut cuts ih => simp [String.join_append, String.join_cons, ih]

theorem contents_texts (texts : List String) (rest : List Part) :
    contents (texts.map Part.text ++ rest) = texts ++ contents rest := by
  unfold contents
  rw [List.filterMap_append, List.filterMap_map]
  congr 1
  exact List.filterMap_some

theorem reasons_texts (texts : List String) (rest : List Part) :
    reasons (texts.map Part.text ++ rest) = reasons rest := by
  unfold reasons
  rw [List.filterMap_append, List.filterMap_map]
  exact congrArg (· ++ _) (List.filterMap_eq_nil_iff.mpr fun _ _ => rfl)

theorem countsFrom_texts (n : UInt32) (texts : List String) (rest : List Part) :
    countsFrom n (texts.map Part.text ++ rest) = countsFrom n rest := by
  induction texts with
  | nil => rfl
  | cons text texts ih => simpa [countsFrom] using ih

/-- The buffered translation of a message. -/
theorem toOpenaiResponse_message {lib : Externals} {body : Bytes} {v : Json} {m : Message}
    (hbody : lib.fromSliceAs .anthropicResponse body = some v) (hm : Carries v m) (created : UInt64) :
    ∃ reply, toOpenaiResponse lib created body =
        some (reply, ⟨m.inputTokens, m.outputTokens⟩) ∧
      messageContent reply = some (String.join m.texts) ∧
      finishReason reply = some (mapFinishReason m.stopReason) ∧
      usageCounts reply = some (writtenCounts m.inputTokens m.outputTokens) := by
  refine ⟨_, by
    simp only [toOpenaiResponse, hbody, Option.bind_eq_bind, Option.bind_some, decode_message hm]
    rfl, ?_, rfl, ?_⟩
  · rw [← joinedText_decoded]
    rfl
  · simp [usageCounts, usageValue, Json.path, Json.get, writtenCounts]

/-- For a message, the buffered translation succeeds, and the chunks of every event
sequence for it have the same text, the same only finish reason and one usage with
the same counts. -/
theorem streamed_reply_agrees {lib : Externals} {body : Bytes} {v : Json} {m : Message}
    (hbody : lib.fromSliceAs .anthropicResponse body = some v) (hm : Carries v m)
    (hsum : m.inputTokens.toNat + m.outputTokens.toNat < 2 ^ 32) {events : List SseEvent}
    (hevents : StreamOf lib m events) (created : UInt64) (t : AnthropicTransform) :
    ∃ reply usage, toOpenaiResponse lib created body = some (reply, usage) ∧
      messageContent reply =
        some (String.join ((t.processAll lib events).2.filterMap deltaContent)) ∧
      (∃ reason, finishReason reply = some reason ∧
        (t.processAll lib events).2.filterMap finishReason = [reason]) ∧
      usageCounts reply = some (m.inputTokens.toNat, m.outputTokens.toNat,
        m.inputTokens.toNat + m.outputTokens.toNat) ∧
      (t.processAll lib events).2.filterMap usageCounts = (usageCounts reply).toList := by
  obtain ⟨parts, cuts, hmeans, hcuts, hparts⟩ := hevents
  obtain ⟨hcontent, hreason, hcounts⟩ := processAll_parts hmeans t
  rw [← contents_meaningful, hparts] at hcontent
  rw [← reasons_meaningful, hparts] at hreason
  rw [← countsFrom_meaningful, hparts] at hcounts
  have htotal : writtenCounts m.inputTokens m.outputTokens = (m.inputTokens.toNat,
      m.outputTokens.toNat, m.inputTokens.toNat + m.outputTokens.toNat) := by
    rw [writtenCounts, UInt32.toNat_add, Nat.mod_eq_of_lt hsum]
  obtain ⟨reply, htranslate, hmessage, hfinish, husage⟩ :=
    toOpenaiResponse_message hbody hm created
  refine ⟨reply, _, htranslate, ?_, ⟨_, hfinish, ?_⟩, ?_, ?_⟩
  · rw [hmessage, hcontent, ← hcuts, ← join_flatten]
    change _ = some (String.join (contents (cuts.flatten.map Part.text ++ _)))
    rw [contents_texts]
    simp [contents]
  · rw [hreason]
    change reasons (cuts.flatten.map Part.text ++ _) = _
    rw [reasons_texts]
    rfl
  · rw [husage, htotal]
  · rw [husage, hcounts]
    change countsFrom m.inputTokens (cuts.flatten.map Part.text ++ _) = _
    rw [countsFrom_texts]
    rfl

/-- A reader that knows the texts of a table. -/
def tableReader (table : List (String × Json)) : Externals where
  sha256 _ := []
  fromSlice b := (table.find? fun e => asBytes e.1 == b).map Prod.snd
  fromSliceAs _ b := (table.find? fun e => asBytes e.1 == b).map Prod.snd
  parseRfc3339 _ := none

theorem tableReader_reads {table : List (String × Json)} (h : (table.map Prod.fst).Nodup)
    {text : String} {v : Json} (hm : (text, v) ∈ table) :
    (tableReader table).fromSlice (asBytes text) = some v := by
  induction table with
  | nil => cases hm
  | cons e table ih =>
      obtain ⟨hnot, hrest⟩ := List.nodup_cons.mp h
      change ((e :: table).find? _).map Prod.snd = _
      rcases List.mem_cons.mp hm with rfl | hm
      · rw [List.find?_cons, beq_self_eq_true]
        rfl
      · have hne : asBytes e.1 ≠ asBytes text := by
          intro he
          rw [asBytes_injective he] at hnot
          exact hnot (List.mem_map_of_mem hm)
        rw [List.find?_cons_of_neg (by simpa using hne)]
        exact ih hrest hm

def greeting : Message where
  id := "msg_1"
  model := "claude"
  content := [⟨"text", some "Hello"⟩, ⟨"tool_use", none⟩]
  stopReason := "max_tokens"
  inputTokens := 10
  outputTokens := 5

def greetingText : String :=
  "\x7b\"id\":\"msg_1\",\"model\":\"claude\",\"content\":[\x7b\"type\":\"text\",\"text\":\"Hello\"\x7d," ++
    "\x7b\"type\":\"tool_use\"\x7d],\"stop_reason\":\"max_tokens\"," ++
    "\"usage\":\x7b\"input_tokens\":10,\"output_tokens\":5\x7d\x7d"

def greetingValue : Json :=
  .object [("id", .string "msg_1"), ("model", .string "claude"),
    ("content", .array [.object [("type", .string "text"), ("text", .string "Hello")],
      .object [("type", .string "tool_use")]]),
    ("stop_reason", .string "max_tokens"),
    ("usage", .object [("input_tokens", count 10), ("output_tokens", count 5)])]

def startText : String := "\x7b\"message\":\x7b\"usage\":\x7b\"input_tokens\":10\x7d\x7d\x7d"
def helText : String := "\x7b\"delta\":\x7b\"type\":\"text_delta\",\"text\":\"Hel\"\x7d\x7d"
def loText : String := "\x7b\"delta\":\x7b\"type\":\"text_delta\",\"text\":\"lo\"\x7d\x7d"
def stopText : String := "\x7b\"delta\":\x7b\"stop_reason\":\"max_tokens\"\x7d,\"usage\":\x7b\"output_tokens\":5\x7d\x7d"

def textDelta (s : String) : Json :=
  .object [("delta", .object [("type", .string "text_delta"), ("text", .string s)])]

def greetingReader : Externals := tableReader
  [(greetingText, greetingValue),
    (startText, .object [("message", .object [("usage", .object [("input_tokens", count 10)])])]),
    (helText, textDelta "Hel"), (loText, textDelta "lo"),
    (stopText, .object [("delta", .object [("stop_reason", .string "max_tokens")]),
      ("usage", .object [("output_tokens", count 5)])])]

def greetingEvents : List SseEvent :=
  [⟨some "message_start", startText⟩, ⟨some "content_block_delta", helText⟩, ⟨some "ping", ""⟩,
    ⟨some "content_block_delta", loText⟩, ⟨some "message_delta", stopText⟩,
    ⟨some "message_stop", ""⟩]

theorem greeting_carries : Carries greetingValue greeting :=
  .mk rfl rfl rfl (.cons (.mk rfl rfl) (.cons (.mk rfl rfl) .nil)) rfl rfl rfl rfl

theorem greeting_stream : StreamOf greetingReader greeting greetingEvents :=
  ⟨[.start 10, .text "Hel", .ignorable, .text "lo", .delta (some "max_tokens") 5, .ignorable],
    [["Hel", "lo"]],
    .cons (.start rfl rfl rfl) (.cons (.text rfl rfl rfl rfl) (.cons (.other (by decide))
      (.cons (.text rfl rfl rfl rfl) (.cons (.delta rfl rfl rfl rfl)
        (.cons (.other (by decide)) .nil))))),
    by decide, by decide⟩

theorem streamed_reply_agrees_greeting :
    let chunks := ((AnthropicTransform.new [7] 0 "claude").processAll greetingReader
      greetingEvents).2
    ∃ reply usage, toOpenaiResponse greetingReader 0 (asBytes greetingText) = some (reply, usage) ∧
      messageContent reply = some (String.join (chunks.filterMap deltaContent)) ∧
      (∃ reason, finishReason reply = some reason ∧ chunks.filterMap finishReason = [reason]) ∧
      usageCounts reply = some (10, 5, 15) ∧
      chunks.filterMap usageCounts = (usageCounts reply).toList :=
  streamed_reply_agrees rfl greeting_carries (by decide) greeting_stream 0
    (AnthropicTransform.new [7] 0 "claude")

end VaultplaneGateway.TranslationAgreement
