import VaultplaneGateway.ChunkedParsing
import VaultplaneGateway.StreamedCharges

/-!
# The adapter's output read back

The adapter writes each chunk as a line of JSON between `data: ` and a blank line, and the
text in a chunk is what the model said. Nothing but the escapes of the JSON writer keeps
that text from looking like the end of an event or the start of another one.

The values the transform builds are plain, so each is written on one line and read back.
The parser then finds as many events as the adapter has written, and no others.
-/
namespace VaultplaneGateway.AdapterRoundTrip
open WireFormats StreamUsage EventStreams ChunkedParsing UsageTee JsonReading DerivedDecoding
open AnthropicTranslation AnthropicStreaming AnthropicStreamAdapter StreamedCharges

/-- What is known of the JSON library: it writes compact texts, and reads them unless values are
nested too deep. -/
structure Lawful (lib : Serde) : Prop where
  writes : ∀ v, plain 127 v = true → lib.toText v = v.compact
  reads : ∀ v, plain 127 v = true → lib.fromSlice (asBytes v.compact) = some v

/-- The chunks of a stream are plain values if what they say is one. -/
theorem chunk_plain (t : AnthropicTransform) {delta : Json} (reason : Option String)
    (h : plain 124 delta = true) : plain 127 (t.chunk delta reason) = true := by
  have hnames : ["choices", "created", "id", "model", "object"].Pairwise (· < ·) := by decide
  have hchoice : ["delta", "finish_reason", "index"].Pairwise (· < ·) := by decide
  cases reason <;>
    simp only [AnthropicTransform.chunk, plain, List.map_cons, List.map_nil, List.all_cons,
      List.all_nil, Option.map_none, Option.map_some, Option.getD_none, Option.getD_some,
      decide_eq_true hnames, decide_eq_true hchoice, h, Bool.and_self]

theorem usageChunk_plain (t : AnthropicTransform) : plain 127 t.usageChunk = true := by
  have hnames : ["choices", "created", "id", "model", "object", "usage"].Pairwise (· < ·) := by
    decide
  have husage : ["completion_tokens", "prompt_tokens", "total_tokens"].Pairwise (· < ·) := by decide
  simp only [AnthropicTransform.usageChunk, usageValue, count, plain, List.map_cons, List.map_nil,
    List.all_cons, List.all_nil, decide_eq_true hnames, decide_eq_true husage, Bool.and_self]

/-- Whatever the upstream says, the transform builds plain values. -/
theorem process_plain (lib : Externals) (t : AnthropicTransform) (event : SseEvent) :
    ∀ v ∈ (t.process lib event).2, plain 127 v = true := by
  intro v hv
  unfold AnthropicTransform.process at hv
  split at hv
  · cases hv
  · split at hv
    · rw [List.mem_singleton.mp hv]
      exact chunk_plain _ none rfl
    · split_ifs at hv
      · split at hv
        · rw [List.mem_singleton.mp hv]
          exact chunk_plain _ none rfl
        · cases hv
      · cases hv
    · rcases List.mem_cons.mp hv with rfl | hv
      · exact chunk_plain _ _ rfl
      · rw [List.mem_singleton.mp hv]
        exact usageChunk_plain _
    · cases hv

theorem processAll_plain (lib : Externals) (t : AnthropicTransform) (events : List SseEvent) :
    ∀ v ∈ (t.processAll lib events).2, plain 127 v = true := by
  induction events generalizing t with
  | nil =>
      intro v hv
      cases hv
  | cons event events ih =>
      intro v hv
      rcases List.mem_append.mp hv with hv | hv
      · exact process_plain lib t event v hv
      · exact ih _ v hv

/-- Nothing of a written chunk stays in the parser. -/
theorem undrawn_rendered {lib : Serde} {vs : List Json}
    (h : ∀ v ∈ vs, '\n' ∉ (lib.toText v).toList) (rest : Bytes) :
    undrawn (vs.flatMap (render lib) ++ rest) = undrawn rest := by
  induction vs with
  | nil => rfl
  | cons v vs ih =>
      rw [List.flatMap_cons, List.append_assoc, render,
        (events_of_draw_some (drawEvent_dataLine (h v List.mem_cons_self) _)).2,
        ih fun w hw => h w (List.mem_cons_of_mem v hw)]

theorem undrawn_doneMarker : undrawn doneMarker = [] := by
  have h := (events_of_draw_some (drawEvent_dataLine (show '\n' ∉ "[DONE]".toList by decide) [])).2
  rw [List.append_nil] at h
  exact h.trans (events_of_draw_none rfl).2

/-- For every upstream, however its bytes are cut and whatever they say, the client's polling ends,
and what it was given is one chunk for each value that the transform built, then the marker. A
parser that is fed these bytes in any pieces finds one event for each chunk, without a name, whose
data are read as the value, then the marker, and has nothing left. -/
theorem adapter_output_parses_back {lib : Serde} (hlib : Lawful lib) (t : AnthropicTransform)
    {body : List Poll} (hbody : .ready none ∉ body) (rest : List Poll) :
    let vs := (t.processAll lib.toExternals (events (chunkBytes body))).2
    let session := fun n => calls lib n (new t) (body ++ .ready none :: rest)
    (∃ n, .ready none ∈ answers (session n).history) ∧
      ∀ n, .ready none ∈ answers (session n).history →
        chunksOf (items (session n).history) = vs.map (render lib) ++ [doneMarker] ∧
        ∀ pieces : List Bytes, pieces.flatten = (chunksOf (items (session n).history)).flatten →
          ∃ found : List SseEvent,
            SseParser.new.feedChunks pieces = (found ++ [⟨none, "[DONE]"⟩], SseParser.new) ∧
              found.map (fun e => (e.event, lib.fromSlice (asBytes e.data))) =
                vs.map fun v => (none, some v) := by
  intro vs session
  have hplain : ∀ v ∈ vs, plain 127 v = true := processAll_plain lib.toExternals t _
  have hline : ∀ v ∈ vs, '\n' ∉ (lib.toText v).toList := by
    intro v hv
    rw [hlib.writes v (hplain v hv)]
    exact compact_oneLine (hplain v hv)
  refine ⟨exists_drained lib (new t) _ (.inr ?_), fun n hdrained => ?_⟩
  · exact List.mem_append_right _ List.mem_cons_self
  obtain ⟨k, hitems⟩ := items_drained hdrained
  have hchunks : chunksOf (items (session n).history) = vs.map (render lib) ++ [doneMarker] := by
    rw [hitems, List.append_assoc, List.cons_append, due_chunks lib t [] body _ hbody,
      show undrawn [] = [] from (events_of_draw_none rfl).2, List.nil_append]
  refine ⟨hchunks, fun pieces hpieces => ?_⟩
  have hbytes : pieces.flatten = vs.flatMap (render lib) ++ doneMarker := by
    rw [hpieces, hchunks, List.flatten_append, List.flatMap_def, List.flatten_singleton]
  refine ⟨vs.map fun v => ⟨none, lib.toText v⟩, ?_, ?_⟩
  · rw [SseParser.feedChunks_new, hbytes, events_rendered hline, events_doneMarker,
      undrawn_rendered hline, undrawn_doneMarker]
    rfl
  · rw [List.map_map]
    refine List.map_congr_left fun v hv => ?_
    rw [Function.comp_apply, hlib.writes v (hplain v hv), hlib.reads v (hplain v hv)]

def jsonLib : Serde where
  sha256 := id
  fromSlice := readJson
  fromSliceAs _ := readJson
  parseRfc3339 _ := none
  toText := Json.compact

theorem jsonLib_lawful : Lawful jsonLib := ⟨fun _ _ => rfl, fun _ h => readJson_compact h⟩

/-- The model says an end marker and an event of its own. -/
def forgedText : String := "\n\ndata: [DONE]\n\nevent: message_delta\r\ndata: \x7b\x7d\n\n"

def forgedData : Json :=
  .object [("delta", .object [("text", .string forgedText), ("type", .string "text_delta")])]

def forgedBody : List Poll :=
  [.pending, .ready (some (.ok (asBytes ("event: " ++ "content_block_delta" ++ "\n" ++
    ("data: " ++ forgedData.compact) ++ "\n\n"))))]

def forgedTransform : AnthropicTransform := .new [7] 0 "claude"

def forgedChunk : Json := forgedTransform.chunk (.object [("content", .string forgedText)]) none

theorem forged_values :
    (forgedTransform.processAll jsonLib.toExternals (events (chunkBytes forgedBody))).2 =
      [forgedChunk] := by
  have hplain : plain 127 forgedData = true := by decide
  have hevents : events (chunkBytes forgedBody) =
      [⟨some "content_block_delta", forgedData.compact⟩] := by
    have hbytes : chunkBytes forgedBody = asBytes ("event: " ++ "content_block_delta" ++ "\n" ++
        ("data: " ++ forgedData.compact) ++ "\n\n") ++ [] := rfl
    have htrim : trim (" " ++ "content_block_delta") = "content_block_delta" := by decide
    rw [hbytes, events_named (by decide) (by decide) (compact_oneLine hplain), htrim,
      (events_of_draw_none (b := []) rfl).1]
  have hread : jsonLib.fromSlice (asBytes forgedData.compact) = some forgedData :=
    jsonLib_lawful.reads forgedData hplain
  rw [hevents]
  simp only [AnthropicTransform.processAll, AnthropicTransform.process, hread, List.append_nil]
  rfl

/-- It comes back as the text of one event. -/
theorem forged_text_stays_text :
    Lawful jsonLib ∧ ∃ n, ∀ pieces : List Bytes,
      pieces.flatten = (chunksOf (items (calls jsonLib n (new forgedTransform)
        (forgedBody ++ [.ready none])).history)).flatten →
        ∃ found : List SseEvent,
          SseParser.new.feedChunks pieces = (found ++ [⟨none, "[DONE]"⟩], SseParser.new) ∧
            found.map (fun e => (e.event, jsonLib.fromSlice (asBytes e.data))) =
              [(none, some forgedChunk)] := by
  have hbody : .ready none ∉ forgedBody := by simp [forgedBody]
  obtain ⟨⟨n, hdrained⟩, hread⟩ :=
    adapter_output_parses_back jsonLib_lawful forgedTransform hbody []
  refine ⟨jsonLib_lawful, n, fun pieces hpieces => ?_⟩
  obtain ⟨found, hfound, hvalues⟩ := (hread n hdrained).2 pieces hpieces
  rw [forged_values] at hvalues
  exact ⟨found, hfound, hvalues⟩

end VaultplaneGateway.AdapterRoundTrip
