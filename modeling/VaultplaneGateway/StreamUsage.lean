import VaultplaneGateway.ResponseCaching
import VaultplaneGateway.SpendTracking

/-!
# Request cost and the streaming usage observer

A streamed reply is charged while it is forwarded. The observer feeds every
chunk to an event parser until one event carries a `usage` object, charges that
usage once, and passes all chunks on unchanged. Chunk results are supplied as a
finite list; each poll consumes one of them at its own clock reading.
-/
namespace VaultplaneGateway.StreamUsage
open WireFormats KeyRecords SpendTracking ResponseCaching

structure ModelPricing where
  inputPer1kTokensUsd : ℚ
  outputPer1kTokensUsd : ℚ
  deriving DecidableEq, Repr

/-- Prices by provider, then by upstream model. -/
structure Pricing where
  providers : String → Option (String → Option ModelPricing)

/-- `cost::compute`: no entry for the pair means no cost. -/
def compute (pricing : Pricing) (provider model : String) (usage : Usage) : Option ℚ := do
  let modelPricing ← (← pricing.providers provider) model
  let input := (usage.promptTokens.toNat : ℚ) / 1000 * modelPricing.inputPer1kTokensUsd
  let output := (usage.completionTokens.toNat : ℚ) / 1000 * modelPricing.outputPer1kTokensUsd
  pure (input + output)

structure SseEvent where
  event : Option String
  data : String
  deriving DecidableEq, Repr

/-- Position of the first blank line. -/
def blankLine : Bytes → Option ℕ
  | a :: b :: rest =>
      if a = 10 ∧ b = 10 then some 0 else (blankLine (b :: rest)).map (· + 1)
  | _ => none

/-- `std::str::from_utf8`. -/
def fromUtf8 (b : Bytes) : Option String := String.fromUTF8? ⟨b.toArray⟩

/-- `char::is_whitespace`: the Unicode White_Space characters. -/
def isWhitespace (c : Char) : Bool :=
  (9 ≤ c.toNat && c.toNat ≤ 13) || (0x2000 ≤ c.toNat && c.toNat ≤ 0x200A) ||
    [0x20, 0x85, 0xA0, 0x1680, 0x2028, 0x2029, 0x202F, 0x205F, 0x3000].contains c.toNat

/-- `str::trim`. -/
def trim (s : String) : String :=
  String.ofList ((s.toList.dropWhile isWhitespace).reverse.dropWhile isWhitespace).reverse

/-- Text cut after every line feed, as `split_inclusive` does. -/
def splitInclusive : List Char → List (List Char)
  | [] => []
  | c :: cs =>
      if c = '\n' then [c] :: splitInclusive cs
      else
        match splitInclusive cs with
        | [] => [[c]]
        | line :: lines => (c :: line) :: lines

/-- The terminator of a line is removed: a line feed, and a carriage return
directly before it. A line without a line feed is kept as it is. -/
def chomp (line : List Char) : List Char :=
  if line.getLast? = some '\n' then
    let line := line.dropLast
    if line.getLast? = some '\r' then line.dropLast else line
  else line

/-- `str::lines`. -/
def lines (s : String) : List String :=
  (splitInclusive s.toList).map fun line => String.ofList (chomp line)

/-- One line of an event block; comments and unknown fields change nothing. -/
def parseLine (e : SseEvent) (line : String) : SseEvent :=
  match stripPrefix line "event:" with
  | some rest => { e with event := some (trim rest) }
  | none =>
      match stripPrefix line "data:" with
      | some rest =>
          let data := if e.data.isEmpty then e.data else e.data ++ "\n"
          { e with data := data ++ (stripPrefix rest " ").getD rest }
      | none => e

def parse (text : String) : SseEvent := (lines text).foldl parseLine ⟨none, ""⟩

/-- An undecodable block leaves the buffer as it is. -/
def nextEvent (buffer : Bytes) : Bytes × Option SseEvent :=
  match blankLine buffer with
  | none => (buffer, none)
  | some pos =>
      match fromUtf8 (buffer.take pos) with
      | none => (buffer, none)
      | some text => (buffer.drop (pos + 2), some (parse text))

/-- The usage object of one event payload. Both counts must be present; each is
truncated to 32 bits. -/
def parseChunkUsage (lib : Externals) (data : String) : Option Usage :=
  if trim data = "[DONE]" then none
  else do
    let value ← lib.fromSlice (asBytes data)
    let usage ← value.get "usage"
    let promptTokens ← (← usage.get "prompt_tokens").asU64
    let completionTokens ← (← usage.get "completion_tokens").asU64
    pure ⟨promptTokens.toUInt32, completionTokens.toUInt32⟩

/-- Chunks still to come, each a byte string or the text of a read error. -/
abbrev BodyStream := List (Except String Bytes)

structure UsageObservingStream where
  inner : BodyStream
  buffer : Bytes
  keyId : String
  spendLimit : Option SpendLimit
  provider : String
  model : String
  foundUsage : Bool

/-- A new observer has seen nothing. -/
def UsageObservingStream.new (inner : BodyStream) (keyId : String)
    (spendLimit : Option SpendLimit) (provider model : String) : UsageObservingStream where
  inner := inner
  buffer := []
  keyId := keyId
  spendLimit := spendLimit
  provider := provider
  model := model
  foundUsage := false

/-- The event loop of one poll: events are drawn until one carries a usage. Each
drawn event takes at least two bytes, so the buffer length is enough fuel. -/
def drawUsage (lib : Externals) : ℕ → Bytes → Bytes × Option Usage
  | 0, buffer => (buffer, none)
  | fuel + 1, buffer =>
      match nextEvent buffer with
      | (rest, none) => (rest, none)
      | (rest, some event) =>
          match parseChunkUsage lib event.data with
          | some usage => (rest, some usage)
          | none => drawUsage lib fuel rest

/-- The charge for a usage: none without a price or without a limit. -/
def chargeUsage (pricing : Pricing) (tracker : SpendTracker) (keyId : String)
    (spendLimit : Option SpendLimit) (provider model : String) (usage : Usage) (now : ℕ) :
    SpendTracker :=
  match compute pricing provider model usage, spendLimit with
  | some cost, some limit => tracker.record keyId limit.period cost now
  | _, _ => tracker

/-- One poll of the observer. The polled item is returned unchanged. -/
def UsageObservingStream.pollNext (lib : Externals) (pricing : Pricing)
    (o : UsageObservingStream) (tracker : SpendTracker) (now : ℕ) :
    (UsageObservingStream × SpendTracker) × Option (Except String Bytes) :=
  match o.inner with
  | [] => ((o, tracker), none)
  | item :: inner =>
      let o := { o with inner := inner }
      match item, o.foundUsage with
      | .ok chunk, false =>
          let buffer := o.buffer ++ chunk
          match drawUsage lib buffer.length buffer with
          | (rest, some usage) =>
              (({ o with buffer := rest, foundUsage := true },
                chargeUsage pricing tracker o.keyId o.spendLimit o.provider o.model usage now),
                some item)
          | (rest, none) => (({ o with buffer := rest }, tracker), some item)
      | _, _ => ((o, tracker), some item)

/-- A charge touches the entry of its own key only. -/
theorem chargeUsage_entries_ne (pricing : Pricing) (tracker : SpendTracker) {k k' : String}
    (h : k' ≠ k) (limit : Option SpendLimit) (provider model : String) (usage : Usage)
    (now : ℕ) :
    (chargeUsage pricing tracker k limit provider model usage now).entries k' =
      tracker.entries k' := by
  unfold chargeUsage
  split
  · exact SpendTracker.record_entry_ne tracker h _ _ now
  · rfl

/-- A charge reads the entry of its own key only. -/
theorem chargeUsage_entries_congr (pricing : Pricing) {t t' : SpendTracker} {k : String}
    (h : t.entries k = t'.entries k) (limit : Option SpendLimit) (provider model : String)
    (usage : Usage) (now : ℕ) :
    (chargeUsage pricing t k limit provider model usage now).entries k =
      (chargeUsage pricing t' k limit provider model usage now).entries k := by
  unfold chargeUsage
  split
  · rw [SpendTracker.record_entry, SpendTracker.record_entry, SpendTracker.held,
      SpendTracker.held, h]
  · exact h

/-- What a poll does: it forwards one item, and charges the observer's own key
if the item completes the first usage. -/
theorem UsageObservingStream.pollNext_cases (lib : Externals) (pricing : Pricing)
    (o : UsageObservingStream) (now : ℕ) :
    (∃ (o' : UsageObservingStream) (item : Option (Except String Bytes)), o'.keyId = o.keyId ∧
      ∀ tracker, o.pollNext lib pricing tracker now = ((o', tracker), item)) ∨
    (∃ (o' : UsageObservingStream) (usage : Usage) (item : Option (Except String Bytes)),
      o'.keyId = o.keyId ∧ ∀ tracker, o.pollNext lib pricing tracker now =
        ((o', chargeUsage pricing tracker o.keyId o.spendLimit o.provider o.model usage now),
          item)) := by
  unfold pollNext
  split
  · exact .inl ⟨o, none, rfl, fun _ => rfl⟩
  · rename_i item inner hinner
    dsimp only
    split
    · rename_i chunk hfound
      cases hdraw : drawUsage lib (o.buffer ++ chunk).length (o.buffer ++ chunk) with
      | mk rest usage =>
          cases usage with
          | none =>
              exact .inl ⟨{ o with inner := inner, buffer := rest }, some (.ok chunk), rfl,
                fun _ => rfl⟩
          | some usage =>
              exact .inr ⟨{ o with inner := inner, buffer := rest, foundUsage := true }, usage,
                some (.ok chunk), rfl, fun _ => rfl⟩
    · exact .inl ⟨{ o with inner := inner }, _, rfl, fun _ => rfl⟩

end VaultplaneGateway.StreamUsage
