import VaultplaneGateway.BufferedDecoding
import VaultplaneGateway.StreamUsage

/-!
# Event streams

The event parser as a decoder of a growing buffer. The events of a byte string
are those of its complete blocks, one after the other, up to the first block that
is not UTF-8: the parser leaves that block in its buffer and draws nothing after
it. Chunk boundaries play no part in this description, and the decoder laws say
that they play none in the parser.

The second half reads back what is written as one block: a data line without a
line break, alone as the gateway writes it or after the line with the event's name
as the upstream does, is one event with that line as its data.
-/
namespace VaultplaneGateway.EventStreams
open WireFormats BufferedDecoding StreamUsage

theorem blankLine_append {b : Bytes} {pos : ℕ} (h : blankLine b = some pos) (more : Bytes) :
    blankLine (b ++ more) = some pos := by
  induction b generalizing pos with
  | nil => cases h
  | cons x xs ih =>
      cases xs with
      | nil => cases h
      | cons y ys =>
          simp only [List.cons_append, blankLine] at h ih ⊢
          split_ifs at h ⊢
          · exact h
          · obtain ⟨p, hp, rfl⟩ := Option.map_eq_some_iff.mp h
            rw [ih hp]
            rfl

theorem blankLine_lt {b : Bytes} {pos : ℕ} (h : blankLine b = some pos) : pos + 2 ≤ b.length := by
  induction b generalizing pos with
  | nil => cases h
  | cons x xs ih =>
      cases xs with
      | nil => cases h
      | cons y ys =>
          simp only [blankLine] at h ih
          split_ifs at h
          · rw [← Option.some.inj h]
            simp
          · obtain ⟨p, hp, rfl⟩ := Option.map_eq_some_iff.mp h
            have := ih hp
            simp only [List.length_cons] at this ⊢
            omega

/-- The bytes before the first blank line, and those after it. -/
def nextBlock (b : Bytes) : Option (Bytes × Bytes) :=
  (blankLine b).map fun pos => (b.take pos, b.drop (pos + 2))

theorem nextBlock_append {b block rest : Bytes} (more : Bytes)
    (h : nextBlock b = some (block, rest)) : nextBlock (b ++ more) = some (block, rest ++ more) := by
  obtain ⟨pos, hpos, heq⟩ := Option.map_eq_some_iff.mp h
  obtain ⟨rfl, rfl⟩ := Prod.mk.inj heq
  have hlt := blankLine_lt hpos
  rw [nextBlock, blankLine_append hpos, Option.map_some,
    List.take_append_of_le_length (by omega), List.drop_append_of_le_length hlt]

theorem nextBlock_lt {b block rest : Bytes} (h : nextBlock b = some (block, rest)) :
    rest.length < b.length := by
  obtain ⟨pos, hpos, heq⟩ := Option.map_eq_some_iff.mp h
  obtain ⟨-, rfl⟩ := Prod.mk.inj heq
  have hlt := blankLine_lt hpos
  rw [List.length_drop]
  omega

def blockDecoder : Decoder UInt8 Bytes := ⟨nextBlock, nextBlock_lt, nextBlock_append⟩

/-- The complete blocks of a byte string. -/
def blocks (b : Bytes) : List Bytes := (blockDecoder.drain b).1

/-- What one block says; nothing if it is not UTF-8. -/
def readBlock (block : Bytes) : Option SseEvent := (fromUtf8 block).map parse

/-- The parser draws a block and reads it, or stays where it is. -/
def drawEvent (b : Bytes) : Option (SseEvent × Bytes) :=
  (nextEvent b).2.map fun e => (e, (nextEvent b).1)

theorem drawEvent_eq (b : Bytes) :
    drawEvent b = (nextBlock b).bind fun r => (readBlock r.1).map fun e => (e, r.2) := by
  unfold drawEvent nextEvent nextBlock readBlock
  cases blankLine b with
  | none => rfl
  | some pos =>
      dsimp only [Option.map_some, Option.bind_some]
      cases fromUtf8 (b.take pos) <;> rfl

theorem drawEvent_some {b rest : Bytes} {e : SseEvent} :
    drawEvent b = some (e, rest) ↔
      ∃ block, nextBlock b = some (block, rest) ∧ readBlock block = some e := by
  rw [drawEvent_eq]
  constructor
  · intro h
    obtain ⟨⟨block, rest'⟩, hblock, hread⟩ := Option.bind_eq_some_iff.mp h
    obtain ⟨e', he, heq⟩ := Option.map_eq_some_iff.mp hread
    obtain ⟨rfl, rfl⟩ := Prod.mk.inj heq
    exact ⟨block, hblock, he⟩
  · rintro ⟨block, hblock, hread⟩
    rw [hblock, Option.bind_some, hread, Option.map_some]

def eventDecoder : Decoder UInt8 SseEvent where
  next := drawEvent
  shrinks h := by
    obtain ⟨block, hblock, -⟩ := drawEvent_some.mp h
    exact nextBlock_lt hblock
  stable more h := by
    obtain ⟨block, hblock, hread⟩ := drawEvent_some.mp h
    exact drawEvent_some.mpr ⟨block, nextBlock_append more hblock, hread⟩

/-- The events of a byte string: its blocks up to the first that cannot be read. -/
def events (b : Bytes) : List SseEvent :=
  ((blocks b).takeWhile fun block => (readBlock block).isSome).filterMap readBlock

theorem events_of_none {b : Bytes} (h : nextBlock b = none) : events b = [] := by
  rw [events, blocks, blockDecoder.drain_of_none h]
  rfl

theorem events_of_some {b block rest : Bytes} (h : nextBlock b = some (block, rest)) :
    events b = match readBlock block with
      | some e => e :: events rest
      | none => [] := by
  rw [events, blocks, blockDecoder.drain_of_some h]
  cases hr : readBlock block with
  | none => simp [hr]
  | some e => simp [hr, events, blocks]

/-- Draining the parser gives the events of the bytes it was fed. -/
theorem drain_events (b : Bytes) : (eventDecoder.drain b).1 = events b := by
  induction b using blockDecoder.drain_induction with
  | hnone b h =>
      have hdraw : drawEvent b = none := by rw [drawEvent_eq, show nextBlock b = none from h]; rfl
      rw [eventDecoder.drain_of_none hdraw, events_of_none h]
  | hsome b block rest h ih =>
      rw [events_of_some h]
      cases hr : readBlock block with
      | none =>
          have hdraw : drawEvent b = none := by
            rw [drawEvent_eq, show nextBlock b = some (block, rest) from h, Option.bind_some, hr]
            rfl
          rw [eventDecoder.drain_of_none hdraw]
      | some e =>
          rw [eventDecoder.drain_of_some (drawEvent_some.mpr ⟨block, h, hr⟩), ih]

/-- The bytes the parser holds back after it was fed `b`. -/
def undrawn (b : Bytes) : Bytes := (eventDecoder.drain b).2

theorem events_of_draw_none {b : Bytes} (h : drawEvent b = none) : events b = [] ∧ undrawn b = b := by
  rw [← drain_events, undrawn, eventDecoder.drain_of_none h]
  exact ⟨rfl, rfl⟩

theorem events_of_draw_some {b rest : Bytes} {e : SseEvent} (h : drawEvent b = some (e, rest)) :
    events b = e :: events rest ∧ undrawn b = undrawn rest := by
  rw [← drain_events, undrawn, eventDecoder.drain_of_some h, drain_events]
  exact ⟨rfl, rfl⟩

theorem nextEvent_eq (b : Bytes) :
    nextEvent b = match drawEvent b with
      | some (e, rest) => (rest, some e)
      | none => (b, none) := by
  unfold drawEvent nextEvent
  cases blankLine b with
  | none => rfl
  | some pos =>
      dsimp only
      cases fromUtf8 (b.take pos) <;> rfl

/-- More input adds events; it changes none. -/
theorem events_append (b more : Bytes) : events (b ++ more) = events b ++ events (undrawn b ++ more) := by
  rw [← drain_events, eventDecoder.drain_append, drain_events, drain_events]
  rfl

theorem undrawn_append (b more : Bytes) : undrawn (b ++ more) = undrawn (undrawn b ++ more) := by
  rw [undrawn, eventDecoder.drain_append]
  rfl

theorem fromUtf8_asBytes (s : String) : fromUtf8 (asBytes s) = some s := by
  have hbytes : (⟨(asBytes s).toArray⟩ : ByteArray) = s.toByteArray := by simp [asBytes]
  unfold fromUtf8 String.fromUTF8?
  rw [hbytes, dif_pos s.isValidUTF8]
  rfl

theorem asBytes_append (s t : String) : asBytes (s ++ t) = asBytes s ++ asBytes t := by
  simp [asBytes]

/-- Only a line feed is encoded with the byte 10. -/
theorem lineFeed_of_mem {c : Char} (h : (10 : UInt8) ∈ String.utf8EncodeChar c) : c = '\n' := by
  have hbyte : ∀ n : ℕ, (10 : UInt8) = UInt8.ofNat n → n % 256 = 10 := by
    intro n hn
    have := congrArg UInt8.toNat hn
    simpa using this.symm
  unfold String.utf8EncodeChar at h
  dsimp only at h
  split_ifs at h with h1 h2 h3
  · have hv := hbyte _ (List.mem_singleton.mp h)
    have : c.val.toNat = 10 := by omega
    exact Char.ext (UInt32.toNat_inj.mp this)
  -- every byte of a longer encoding is at least 128
  · simp only [List.mem_cons, List.not_mem_nil, or_false] at h
    rcases h with h | h <;> have := hbyte _ h <;> omega
  · simp only [List.mem_cons, List.not_mem_nil, or_false] at h
    rcases h with h | h | h <;> have := hbyte _ h <;> omega
  · simp only [List.mem_cons, List.not_mem_nil, or_false] at h
    rcases h with h | h | h | h <;> have := hbyte _ h <;> omega

theorem lineFeed_asBytes {s : String} (h : '\n' ∉ s.toList) : (10 : UInt8) ∉ asBytes s := by
  intro hm
  have hs : asBytes s = s.toList.flatMap String.utf8EncodeChar := by
    rw [← asBytes_ofList, String.ofList_toList]
  rw [hs] at hm
  obtain ⟨c, hc, hb⟩ := List.mem_flatMap.mp hm
  exact h (lineFeed_of_mem hb ▸ hc)

theorem blankLine_of_line {line : Bytes} (h : (10 : UInt8) ∉ line) (rest : Bytes) :
    blankLine (line ++ 10 :: 10 :: rest) = some line.length := by
  induction line with
  | nil => rfl
  | cons b line ih =>
      have hb : b ≠ 10 := fun he => h (he ▸ List.mem_cons_self)
      have hline := ih fun hm => h (List.mem_cons_of_mem b hm)
      obtain ⟨c, cs, hcs⟩ : ∃ c cs, line ++ 10 :: 10 :: rest = c :: cs := by
        cases line <;> exact ⟨_, _, rfl⟩
      rw [List.cons_append, hcs, blankLine, if_neg (fun he => hb he.1), ← hcs, hline]
      rfl

theorem nextBlock_of_line {line : Bytes} (h : (10 : UInt8) ∉ line) (rest : Bytes) :
    nextBlock (line ++ 10 :: 10 :: rest) = some (line, rest) := by
  simp [nextBlock, blankLine_of_line h]

theorem splitInclusive_of_line {cs : List Char} (h : '\n' ∉ cs) (hne : cs ≠ []) :
    splitInclusive cs = [cs] := by
  induction cs with
  | nil => exact (hne rfl).elim
  | cons c cs ih =>
      have hc : c ≠ '\n' := fun he => h (he ▸ List.mem_cons_self)
      rw [splitInclusive, if_neg hc]
      cases cs with
      | nil => rfl
      | cons d ds => rw [ih (fun hm => h (List.mem_cons_of_mem c hm)) (by simp)]

theorem lines_of_line {s : String} (h : '\n' ∉ s.toList) (hne : s.toList ≠ []) : lines s = [s] := by
  have hlast : s.toList.getLast? ≠ some '\n' := fun he => h (List.mem_of_getLast? he)
  rw [lines, splitInclusive_of_line h hne, List.map_singleton, chomp, if_neg hlast,
    String.ofList_toList]

/-- A name line gives the event its name. -/
theorem parseLine_event (e : SseEvent) (name : String) :
    parseLine e ("event: " ++ name) = { e with event := some (trim (" " ++ name)) } := by
  have hevent : stripPrefix ("event: " ++ name) "event:" = some (" " ++ name) :=
    stripPrefix_append "event:" (" " ++ name)
  rw [parseLine, hevent]

/-- A data line adds to the data, behind a line feed if there are any. -/
theorem parseLine_data (e : SseEvent) (text : String) :
    parseLine e ("data: " ++ text) =
      { e with data := (if e.data.isEmpty then e.data else e.data ++ "\n") ++ text } := by
  have hevent : stripPrefix ("data: " ++ text) "event:" = none := by
    simp [stripPrefix]
  have hdata : stripPrefix ("data: " ++ text) "data:" = some (" " ++ text) :=
    stripPrefix_append "data:" (" " ++ text)
  rw [parseLine, hevent, hdata]
  dsimp only
  rw [stripPrefix_append, Option.getD_some]

/-- A block of one data line is one event without a name. -/
theorem parse_dataLine {s : String} (h : '\n' ∉ s.toList) : parse ("data: " ++ s) = ⟨none, s⟩ := by
  have hline : '\n' ∉ ("data: " ++ s).toList := by
    simpa using h
  rw [parse, lines_of_line hline (by simp), List.foldl_cons, List.foldl_nil, parseLine_data]
  exact congrArg _ String.empty_append

theorem drawEvent_dataLine {s : String} (h : '\n' ∉ s.toList) (rest : Bytes) :
    drawEvent (asBytes ("data: " ++ s ++ "\n\n") ++ rest) = some (⟨none, s⟩, rest) := by
  have hline : '\n' ∉ ("data: " ++ s).toList := by
    simpa using h
  have hbytes : asBytes ("data: " ++ s ++ "\n\n") ++ rest =
      asBytes ("data: " ++ s) ++ 10 :: 10 :: rest := by
    rw [asBytes_append, List.append_assoc]
    rfl
  refine drawEvent_some.mpr ⟨asBytes ("data: " ++ s), ?_, ?_⟩
  · rw [hbytes, nextBlock_of_line (lineFeed_asBytes hline)]
  · rw [readBlock, fromUtf8_asBytes, Option.map_some, parse_dataLine h]

theorem events_dataLine {s : String} (h : '\n' ∉ s.toList) (rest : Bytes) :
    events (asBytes ("data: " ++ s ++ "\n\n") ++ rest) = ⟨none, s⟩ :: events rest :=
  (events_of_draw_some (drawEvent_dataLine h rest)).1

/-- A line in front of a block belongs to the block. -/
theorem nextBlock_line {line : Bytes} (hline : (10 : UInt8) ∉ line) {b : UInt8} (hb : b ≠ 10)
    {bs block rest : Bytes} (h : nextBlock (b :: bs) = some (block, rest)) :
    nextBlock (line ++ 10 :: b :: bs) = some (line ++ 10 :: block, rest) := by
  obtain ⟨pos, hpos, heq⟩ := Option.map_eq_some_iff.mp h
  obtain ⟨rfl, rfl⟩ := Prod.mk.inj heq
  have hblank : blankLine (line ++ 10 :: b :: bs) = some (line.length + (pos + 1)) := by
    induction line with
    | nil =>
        rw [List.nil_append, blankLine, if_neg (fun he => hb he.2), hpos, List.length_nil,
          Nat.zero_add]
        rfl
    | cons a line ih =>
        have ha : a ≠ 10 := fun he => hline (he ▸ List.mem_cons_self)
        have hrest := ih fun hm => hline (List.mem_cons_of_mem a hm)
        obtain ⟨c, cs, hcs⟩ : ∃ c cs, line ++ 10 :: b :: bs = c :: cs := by
          cases line <;> exact ⟨_, _, rfl⟩
        rw [List.cons_append, hcs, blankLine, if_neg (fun he => ha he.1), ← hcs, hrest,
          Option.map_some, List.length_cons, Nat.add_right_comm]
  rw [nextBlock, hblank, Option.map_some, List.take_length_add_append, List.take_succ_cons,
    Nat.add_assoc, List.drop_length_add_append, Nat.add_right_comm, List.drop_succ_cons]

theorem nextBlock_of_lines {first second : Bytes} (hfirst : (10 : UInt8) ∉ first)
    (hsecond : (10 : UInt8) ∉ second) (hne : second ≠ []) (rest : Bytes) :
    nextBlock (first ++ 10 :: (second ++ 10 :: 10 :: rest)) = some (first ++ 10 :: second, rest) := by
  have hblock := nextBlock_of_line hsecond rest
  obtain ⟨b, bs, rfl⟩ := List.exists_cons_of_ne_nil hne
  have hb : b ≠ 10 := fun he => hsecond (he ▸ List.mem_cons_self)
  exact nextBlock_line hfirst hb hblock

theorem splitInclusive_line {line : List Char} (h : '\n' ∉ line) (rest : List Char) :
    splitInclusive (line ++ '\n' :: rest) = (line ++ ['\n']) :: splitInclusive rest := by
  induction line with
  | nil => rw [List.nil_append, splitInclusive, if_pos rfl, List.nil_append]
  | cons c line ih =>
      have hc : c ≠ '\n' := fun he => h (he ▸ List.mem_cons_self)
      rw [List.cons_append, splitInclusive, if_neg hc, ih fun hm => h (List.mem_cons_of_mem c hm)]
      rfl

/-- A line in front of a text is one of its lines, without what ends it. -/
theorem lines_line {line : String} (h : '\n' ∉ line.toList) (rest : String) :
    lines (line ++ "\n" ++ rest) =
      String.ofList (chomp (line.toList ++ ['\n'])) :: lines rest := by
  have htext : (line ++ "\n" ++ rest).toList = line.toList ++ '\n' :: rest.toList := by
    simp
  rw [lines, htext, splitInclusive_line h, List.map_cons]
  rfl

theorem chomp_line {line : List Char} (h : '\r' ∉ line) : chomp (line ++ ['\n']) = line := by
  have hlast : line.getLast? ≠ some '\r' := fun he => h (List.mem_of_getLast? he)
  simp [chomp, hlast]

/-- Neither a line feed nor a carriage return. -/
def OneLine (s : String) : Prop := '\n' ∉ s.toList ∧ '\r' ∉ s.toList

/-- Lines that are written one after the other are found again. -/
theorem lines_join {ls : List String} (h : ∀ l ∈ ls, OneLine l) :
    lines (String.join (ls.map fun l => l ++ "\n")) = ls := by
  induction ls with
  | nil => rfl
  | cons l ls ih =>
      obtain ⟨hfeed, hreturn⟩ := h l List.mem_cons_self
      have hrest := ih fun k hk => h k (List.mem_cons_of_mem l hk)
      rw [List.map_cons, String.join_cons, lines_line hfeed, chomp_line hreturn,
        String.ofList_toList, hrest]

/-- A name line and a data line. -/
theorem parse_named {name data : String} (hname : '\n' ∉ name.toList)
    (hreturn : '\r' ∉ name.toList) (hdata : '\n' ∉ data.toList) :
    parse ("event: " ++ name ++ "\n" ++ ("data: " ++ data)) = ⟨some (trim (" " ++ name)), data⟩ := by
  have hfirst : '\n' ∉ ("event: " ++ name).toList := by
    simpa using hname
  have hchomp : '\r' ∉ ("event: " ++ name).toList := by
    simpa using hreturn
  have hsecond : '\n' ∉ ("data: " ++ data).toList := by
    simpa using hdata
  have hlines : lines ("event: " ++ name ++ "\n" ++ ("data: " ++ data)) =
      ["event: " ++ name, "data: " ++ data] := by
    rw [lines_line hfirst, chomp_line hchomp, String.ofList_toList,
      lines_of_line hsecond (by simp)]
  rw [parse, hlines, List.foldl_cons, List.foldl_cons, List.foldl_nil, parseLine_event,
    parseLine_data]
  exact congrArg _ String.empty_append

theorem events_named {name data : String} (hname : '\n' ∉ name.toList)
    (hreturn : '\r' ∉ name.toList) (hdata : '\n' ∉ data.toList) (rest : Bytes) :
    events (asBytes ("event: " ++ name ++ "\n" ++ ("data: " ++ data) ++ "\n\n") ++ rest) =
      ⟨some (trim (" " ++ name)), data⟩ :: events rest := by
  have hfirst : '\n' ∉ ("event: " ++ name).toList := by
    simpa using hname
  have hsecond : '\n' ∉ ("data: " ++ data).toList := by
    simpa using hdata
  have hne : asBytes ("data: " ++ data) ≠ [] := by
    rw [asBytes_append]
    exact List.append_ne_nil_of_left_ne_nil (by decide) _
  have hblock : asBytes ("event: " ++ name) ++ 10 :: asBytes ("data: " ++ data) =
      asBytes ("event: " ++ name ++ "\n" ++ ("data: " ++ data)) := by
    rw [asBytes_append ("event: " ++ name ++ "\n"), asBytes_append ("event: " ++ name),
      List.append_assoc]
    rfl
  have hbytes : asBytes ("event: " ++ name ++ "\n" ++ ("data: " ++ data) ++ "\n\n") ++ rest =
      asBytes ("event: " ++ name) ++ 10 :: (asBytes ("data: " ++ data) ++ 10 :: 10 :: rest) := by
    rw [asBytes_append _ "\n\n", ← hblock, List.append_assoc, List.append_assoc]
    rfl
  rw [hbytes, events_of_some (nextBlock_of_lines (lineFeed_asBytes hfirst)
    (lineFeed_asBytes hsecond) hne rest), hblock, readBlock, fromUtf8_asBytes, Option.map_some,
    parse_named hname hreturn hdata]

end VaultplaneGateway.EventStreams
