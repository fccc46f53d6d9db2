import VaultplaneGateway.EventStreams
import Mathlib.Data.List.TakeWhile

/-!
# The event parser on a chunked stream

A parser is fed the chunks of a stream one by one and drained after each. Neither the
events nor the bytes it holds back depend on where the stream is cut, because the
first blank line of a buffer stays the first when more bytes arrive.

A block that is not UTF-8 is not removed from the buffer. Every valid block is
delivered, and no complete block is left behind, exactly for the streams without such
a block; behind one the parser delivers nothing, whatever it is fed, and keeps all of
it.
-/
namespace VaultplaneGateway.ChunkedParsing
open WireFormats StreamUsage BufferedDecoding EventStreams

structure SseParser where
  buffer : Bytes
  deriving DecidableEq, Repr

namespace SseParser

def new : SseParser := ⟨[]⟩

def feed (p : SseParser) (bytes : Bytes) : SseParser := ⟨p.buffer ++ bytes⟩

def nextEvent (p : SseParser) : SseParser × Option SseEvent :=
  let r := StreamUsage.nextEvent p.buffer
  (⟨r.1⟩, r.2)

theorem nextEvent_some {p rest : SseParser} {e : SseEvent} :
    p.nextEvent = (rest, some e) ↔ drawEvent p.buffer = some (e, rest.buffer) := by
  obtain ⟨b⟩ := p
  obtain ⟨r⟩ := rest
  simp only [nextEvent, nextEvent_eq]
  cases drawEvent b with
  | none => simp
  | some x => simp [Prod.ext_iff, and_comm]

theorem nextEvent_none {p rest : SseParser} :
    p.nextEvent = (rest, none) ↔ drawEvent p.buffer = none ∧ rest = p := by
  obtain ⟨b⟩ := p
  obtain ⟨r⟩ := rest
  simp only [nextEvent, nextEvent_eq]
  cases drawEvent b with
  | none => simp [eq_comm]
  | some x => simp

/-- `while let Some(event) = parser.next_event()`. -/
def drain (p : SseParser) : List SseEvent × SseParser :=
  match _h : p.nextEvent with
  | (rest, some event) =>
      let r := rest.drain
      (event :: r.1, r.2)
  | (rest, none) => ([], rest)
termination_by p.buffer.length
decreasing_by exact eventDecoder.shrinks (nextEvent_some.mp _h)

/-- The chunks one by one, draining after each. -/
def feedChunks : SseParser → List Bytes → List SseEvent × SseParser
  | p, [] => ([], p)
  | p, chunk :: chunks =>
      let r := (p.feed chunk).drain
      let rest := r.2.feedChunks chunks
      (r.1 ++ rest.1, rest.2)

theorem drain_of_some {p rest : SseParser} {e : SseEvent} (h : p.nextEvent = (rest, some e)) :
    p.drain = (e :: rest.drain.1, rest.drain.2) := by
  rw [drain]
  split
  · rename_i heq
    cases h.symm.trans heq
    rfl
  · rename_i heq
    cases h.symm.trans heq

theorem drain_of_none {p rest : SseParser} (h : p.nextEvent = (rest, none)) :
    p.drain = ([], rest) := by
  rw [drain]
  split
  · rename_i heq
    cases h.symm.trans heq
  · rename_i heq
    cases h.symm.trans heq
    rfl

/-- The loop draws what the decoder draws. -/
theorem drain_eq (p : SseParser) : p.drain = (events p.buffer, ⟨undrawn p.buffer⟩) := by
  obtain ⟨b⟩ := p
  induction b using eventDecoder.drain_induction with
  | hnone b h =>
      obtain ⟨hevents, hundrawn⟩ := events_of_draw_none h
      rw [drain_of_none (nextEvent_none.mpr ⟨h, rfl⟩), hevents, hundrawn]
  | hsome b e rest h ih =>
      obtain ⟨hevents, hundrawn⟩ := events_of_draw_some h
      have hnext : (⟨b⟩ : SseParser).nextEvent = (⟨rest⟩, some e) := nextEvent_some.mpr h
      rw [drain_of_some hnext, ih, hevents, hundrawn]

/-- A drained parser that is fed more chunks holds what it would hold after one feed
of everything, and the events it gives are those still missing. -/
theorem feedChunks_eq (seen : Bytes) (chunks : List Bytes) :
    (⟨undrawn seen⟩ : SseParser).feedChunks chunks =
      (events (undrawn seen ++ chunks.flatten), ⟨undrawn (seen ++ chunks.flatten)⟩) := by
  induction chunks generalizing seen with
  | nil =>
      have hseen : events (undrawn seen) = [] := by
        have happ := events_append seen []
        rwa [List.append_nil, List.append_nil, List.self_eq_append_right] at happ
      simp [feedChunks, hseen]
  | cons chunk chunks ih =>
      have hfeed : ((⟨undrawn seen⟩ : SseParser).feed chunk).drain =
          (events (undrawn seen ++ chunk), ⟨undrawn (seen ++ chunk)⟩) := by
        rw [drain_eq, feed, ← undrawn_append]
      have hrest : undrawn (seen ++ chunk) ++ chunks.flatten =
          undrawn (undrawn seen ++ chunk) ++ chunks.flatten := by
        rw [← undrawn_append]
      simp only [feedChunks, hfeed, ih, List.flatten_cons]
      rw [hrest, ← events_append, List.append_assoc, List.append_assoc]

theorem feedChunks_new (chunks : List Bytes) :
    new.feedChunks chunks = (events chunks.flatten, ⟨undrawn chunks.flatten⟩) :=
  feedChunks_eq [] chunks

end SseParser

/-- However a byte sequence is cut into chunks, the parser gives the same events and
keeps the same bytes as if it were fed the whole sequence at once. -/
theorem chunks_do_not_matter (chunks : List Bytes) :
    SseParser.new.feedChunks chunks = (SseParser.new.feed chunks.flatten).drain := by
  rw [SseParser.feedChunks_new, SseParser.drain_eq]
  rfl

/-- The buffer holds no complete block any more exactly if every block could be read. -/
theorem undrawn_incomplete_iff (b : Bytes) :
    nextBlock (undrawn b) = none ↔ ∀ block ∈ blocks b, (fromUtf8 block).isSome := by
  induction b using blockDecoder.drain_induction with
  | hnone b h =>
      have hdraw : drawEvent b = none := by rw [drawEvent_eq, show nextBlock b = none from h]; rfl
      rw [(events_of_draw_none hdraw).2, blocks, blockDecoder.drain_of_none h]
      simp [show nextBlock b = none from h]
  | hsome b block rest h ih =>
      have hblocks : blocks b = block :: blocks rest := by
        rw [blocks, blockDecoder.drain_of_some h]
        rfl
      rw [hblocks, List.forall_mem_cons]
      cases hread : fromUtf8 block with
      | none =>
          have hdraw : drawEvent b = none := by
            rw [drawEvent_eq, show nextBlock b = some (block, rest) from h, Option.bind_some,
              readBlock, hread]
            rfl
          rw [(events_of_draw_none hdraw).2, show nextBlock b = some (block, rest) from h]
          simp
      | some text =>
          have hdraw : drawEvent b = some (parse text, rest) :=
            drawEvent_some.mpr ⟨block, h, by rw [readBlock, hread]; rfl⟩
          rw [(events_of_draw_some hdraw).2, ih]
          simp

/-- Without an unreadable block the events are those of all blocks. -/
theorem events_of_readable {b : Bytes} (h : ∀ block ∈ blocks b, (fromUtf8 block).isSome) :
    events b = (blocks b).filterMap readBlock := by
  rw [events, List.takeWhile_eq_self_iff.mpr]
  intro block hblock
  rw [readBlock, Option.isSome_map]
  exact h block hblock

/-- Every block of the stream that is UTF-8 is delivered, in order and once, and no
complete block is left in the buffer. -/
def Delivered (stream : Bytes) (r : List SseEvent × SseParser) : Prop :=
  r.1 = (blocks stream).filterMap readBlock ∧ nextBlock r.2.buffer = none

/-- The parser delivers a stream, cut in any way, exactly if all its complete blocks
are UTF-8. -/
theorem delivered_iff_readable (chunks : List Bytes) :
    Delivered chunks.flatten (SseParser.new.feedChunks chunks) ↔
      ∀ block ∈ blocks chunks.flatten, (fromUtf8 block).isSome := by
  have hstart : SseParser.new = ⟨undrawn []⟩ := rfl
  rw [hstart, SseParser.feedChunks_eq]
  constructor
  · intro h
    exact (undrawn_incomplete_iff _).mp h.2
  · intro h
    exact ⟨events_of_readable h, (undrawn_incomplete_iff _).mpr h⟩

/-- An unreadable block at the front of the buffer silences the parser for good. -/
theorem feedChunks_of_unreadable {b block rest : Bytes} (hblock : nextBlock b = some (block, rest))
    (hread : fromUtf8 block = none) (chunks : List Bytes) :
    (⟨b⟩ : SseParser).feedChunks chunks = ([], ⟨b ++ chunks.flatten⟩) := by
  induction chunks generalizing b rest with
  | nil => simp [SseParser.feedChunks]
  | cons chunk chunks ih =>
      have hmore := nextBlock_append chunk hblock
      have hdraw : drawEvent (b ++ chunk) = none := by
        rw [drawEvent_eq, hmore, Option.bind_some, readBlock, hread]
        rfl
      obtain ⟨hevents, hundrawn⟩ := events_of_draw_none hdraw
      simp only [SseParser.feedChunks, SseParser.feed, SseParser.drain_eq, hevents, hundrawn,
        ih hmore, List.flatten_cons, List.append_assoc, List.nil_append]

/-- A block of one stray byte, then an event. -/
def strayByte : List Bytes := [[255, 10, 10], asBytes "data: a\n\n"]

/-- The event after the stray byte is never delivered and both blocks stay. -/
theorem stray_byte_silences :
    blocks strayByte.flatten = [[255], asBytes "data: a"] ∧
      readBlock (asBytes "data: a") = some ⟨none, "a"⟩ ∧
      SseParser.new.feedChunks strayByte = ([], ⟨strayByte.flatten⟩) ∧
      ¬ Delivered strayByte.flatten (SseParser.new.feedChunks strayByte) := by
  have hblock : nextBlock strayByte.flatten = some ([255], asBytes "data: a\n\n") := by
    decide +kernel
  have hread : fromUtf8 [255] = none := by
    decide +kernel
  have hsilent : SseParser.new.feedChunks strayByte = ([], ⟨strayByte.flatten⟩) := by
    have hdraw : drawEvent strayByte.flatten = none := by
      rw [drawEvent_eq, hblock, Option.bind_some, readBlock, hread]
      rfl
    obtain ⟨hevents, hundrawn⟩ := events_of_draw_none hdraw
    have hstart : SseParser.new = ⟨undrawn []⟩ := rfl
    rw [hstart, SseParser.feedChunks_eq, List.nil_append, hundrawn]
    exact congrArg (·, _) hevents
  refine ⟨by decide +kernel, by decide +kernel, hsilent, ?_⟩
  intro h
  rw [hsilent] at h
  exact absurd (hblock.symm.trans h.2) (by simp)

end VaultplaneGateway.ChunkedParsing
