import VaultplaneGateway.TranslationAgreement
import VaultplaneGateway.UsageTee

/-!
# The Anthropic stream adapter

The adapter answers a poll from its queue as long as the queue has something, then
with the end marker, then with the end; only in between, while the upstream has not
ended, does it ask the upstream, as often as it takes. A call can be interrupted by
a pending answer between any two chunks.

The upstream is the finite list of its answers; past the list it is pending. Every
question to the upstream, with the queue at that moment, and every answer to the
caller is kept in a history. What the adapter has answered and still holds is what
the upstream's answers so far call for, in order: the translations of the events
that each chunk completed, each error in its place, and the end marker after the
upstream's end.
-/
namespace VaultplaneGateway.AnthropicStreaming
open WireFormats StreamUsage EventStreams UsageTee AnthropicTranslation

/-- The bytes of one event with the value as its data. -/
def render (lib : Serde) (v : Json) : Bytes := asBytes ("data: " ++ lib.toText v ++ "\n\n")

def doneMarker : Bytes := asBytes "data: [DONE]\n\n"

/-- The inner stream is a separate list of answers; the parser is its buffer. -/
structure AnthropicStreamAdapter where
  buffer : Bytes
  transform : AnthropicTransform
  pending : List Bytes
  upstreamDone : Bool
  emittedDone : Bool

namespace AnthropicStreamAdapter

def new (transform : AnthropicTransform) : AnthropicStreamAdapter where
  buffer := []
  transform := transform
  pending := []
  upstreamDone := false
  emittedDone := false

/-- A chunk: all events that are now complete are translated into the queue. -/
def receive (lib : Serde) (a : AnthropicStreamAdapter) (chunk : Bytes) : AnthropicStreamAdapter :=
  let drawn := eventDecoder.drain (a.buffer ++ chunk)
  let translated := a.transform.processAll lib.toExternals drawn.1
  { a with
    buffer := drawn.2
    transform := translated.1
    pending := a.pending ++ translated.2.map (render lib) }

/-- The front of the loop: an answer, or the need to ask the inner stream. -/
def turn (a : AnthropicStreamAdapter) : Option (AnthropicStreamAdapter × Poll) :=
  match a.pending with
  | out :: rest => some ({ a with pending := rest }, .ready (some (.ok out)))
  | [] =>
      if a.upstreamDone then
        if a.emittedDone then some (a, .ready none)
        else some ({ a with emittedDone := true }, .ready (some (.ok doneMarker)))
      else none

/-- The back of the loop: an answer of the inner stream ends the call or is taken
in. -/
def hear (lib : Serde) (a : AnthropicStreamAdapter) : Poll → AnthropicStreamAdapter × Option Poll
  | .pending => (a, some .pending)
  | .ready (some (.error e)) => (a, some (.ready (some (.error e))))
  | .ready (some (.ok chunk)) => (a.receive lib chunk, none)
  | .ready none => ({ a with upstreamDone := true }, none)

/-- What one call did: the questions to the inner stream, each with the queue at
that moment, and the answer. -/
structure Called where
  adapter : AnthropicStreamAdapter
  inner : List Poll
  asked : List (List Bytes × Poll)
  answer : Poll

/-- `poll_next`. -/
def pollNext (lib : Serde) (a : AnthropicStreamAdapter) (inner : List Poll) : Called :=
  match a.turn with
  | some (a', answer) => ⟨a', inner, [], answer⟩
  | none =>
      match inner with
      | [] => ⟨a, [], [(a.pending, .pending)], .pending⟩
      | polled :: inner =>
          match a.hear lib polled with
          | (a', some answer) => ⟨a', inner, [(a.pending, polled)], answer⟩
          | (a', none) =>
              let c := pollNext lib a' inner
              { c with asked := (a.pending, polled) :: c.asked }

end AnthropicStreamAdapter

open AnthropicStreamAdapter

inductive Action where
  | asked (queue : List Bytes) (polled : Poll)
  | answered (answer : Poll)

/-- The adapter after some calls, the answers still to come, and the history. -/
structure Session where
  adapter : AnthropicStreamAdapter
  inner : List Poll
  history : List Action

/-- The questions of a call, then its answer. -/
def actions (c : Called) : List Action :=
  c.asked.map (fun q => .asked q.1 q.2) ++ [.answered c.answer]

/-- `n` calls. -/
def calls (lib : Serde) : ℕ → AnthropicStreamAdapter → List Poll → Session
  | 0, a, inner => ⟨a, inner, []⟩
  | n + 1, a, inner =>
      let c := a.pollNext lib inner
      let s := calls lib n c.adapter c.inner
      { s with history := actions c ++ s.history }

/-- The answers of the upstream, in the order in which it was asked. -/
def heard (h : List Action) : List Poll :=
  h.filterMap fun
    | .asked _ polled => some polled
    | .answered _ => none

/-- The items among the answers to the caller. -/
def items (h : List Action) : List (Except String Bytes) :=
  h.filterMap fun
    | .answered (.ready item) => item
    | _ => none

/-- The events that a chunk completes after the bytes `seen`. -/
def completed (seen chunk : Bytes) : List SseEvent :=
  (events (seen ++ chunk)).drop (events seen).length

/-- The items that the upstream's answers call for. -/
def due (lib : Serde) (t : AnthropicTransform) (seen : Bytes) :
    List Poll → List (Except String Bytes)
  | [] => []
  | .pending :: polls => due lib t seen polls
  | .ready (some (.error e)) :: polls => .error e :: due lib t seen polls
  | .ready (some (.ok chunk)) :: polls =>
      let r := t.processAll lib.toExternals (completed seen chunk)
      r.2.map (fun v => .ok (render lib v)) ++ due lib r.1 (seen ++ chunk) polls
  | .ready none :: _ => [.ok doneMarker]

/-- What the adapter holds ready: its queue, and the end marker if that is next. -/
def AnthropicStreamAdapter.held (a : AnthropicStreamAdapter) : List (Except String Bytes) :=
  a.pending.map .ok ++ if a.upstreamDone && !a.emittedDone then [.ok doneMarker] else []

/-- What the adapter will answer if the upstream answers `polls`, with `seen` the
bytes received so far. -/
def owed (lib : Serde) (a : AnthropicStreamAdapter) (seen : Bytes) (polls : List Poll) :
    List (Except String Bytes) :=
  a.held ++ if a.upstreamDone then [] else due lib a.transform seen polls

theorem completed_eq (seen chunk : Bytes) : completed seen chunk = events (undrawn seen ++ chunk) := by
  rw [completed, events_append, List.drop_left]

/-- The adapter has received the bytes `seen`, and the marker comes after the end. -/
structure Received (a : AnthropicStreamAdapter) (seen : Bytes) : Prop where
  buffer : a.buffer = undrawn seen
  marker : a.emittedDone = true → a.upstreamDone = true

theorem turn_none {a : AnthropicStreamAdapter} (h : a.turn = none) :
    a.pending = [] ∧ a.upstreamDone = false := by
  unfold turn at h
  split at h
  · cases h
  · rename_i hpending
    split_ifs at h with hdone
    exact ⟨hpending, by simpa using hdone⟩

/-- An answer from the queue is the first thing the adapter held. -/
theorem turn_some {a a' : AnthropicStreamAdapter} {answer : Poll} {seen : Bytes}
    (ha : Received a seen) (h : a.turn = some (a', answer)) :
    Received a' seen ∧ a'.upstreamDone = a.upstreamDone ∧
      ∀ lib polls, owed lib a seen polls =
        items [.answered answer] ++ owed lib a' seen polls := by
  unfold turn at h
  split at h
  · rename_i out rest hpending
    obtain ⟨rfl, rfl⟩ := Prod.mk.inj (Option.some.inj h)
    refine ⟨⟨ha.buffer, ha.marker⟩, rfl, fun lib polls => ?_⟩
    simp [owed, held, hpending, items]
  · rename_i hpending
    split_ifs at h with hdone hemitted
    · obtain ⟨rfl, rfl⟩ := Prod.mk.inj (Option.some.inj h)
      exact ⟨ha, rfl, fun lib polls => rfl⟩
    · obtain ⟨rfl, rfl⟩ := Prod.mk.inj (Option.some.inj h)
      refine ⟨⟨ha.buffer, fun _ => hdone⟩, rfl, fun lib polls => ?_⟩
      simp [owed, held, hpending, hdone, hemitted, items]

/-- An answer of the upstream is handed on or turned into what it calls for. -/
theorem hear_owed (lib : Serde) {a : AnthropicStreamAdapter} {seen : Bytes} (ha : Received a seen)
    (hpending : a.pending = []) (hdone : a.upstreamDone = false) (polled : Poll) :
    Received (a.hear lib polled).1 (seen ++ chunkBytes [polled]) ∧
      ∀ polls, owed lib a seen (polled :: polls) =
        items ((a.hear lib polled).2.map Action.answered).toList ++
          owed lib (a.hear lib polled).1 (seen ++ chunkBytes [polled]) polls := by
  have hemitted : a.emittedDone = false := by
    by_contra he
    have := ha.marker (by simpa using he)
    rw [hdone] at this
    cases this
  match polled with
  | .pending =>
      refine ⟨by simpa [chunkBytes, hear] using ha, fun polls => ?_⟩
      simp [owed, held, hear, hpending, hdone, due, items, chunkBytes]
  | .ready (some (.error e)) =>
      refine ⟨by simpa [chunkBytes, hear] using ha, fun polls => ?_⟩
      simp [owed, held, hear, hpending, hdone, due, items, chunkBytes]
  | .ready none =>
      refine ⟨⟨by simpa [chunkBytes, hear] using ha.buffer, fun _ => rfl⟩, fun polls => ?_⟩
      simp [owed, held, hear, hpending, hdone, hemitted, due, items]
  | .ready (some (.ok chunk)) =>
      have hbytes : chunkBytes [.ready (some (.ok chunk))] = chunk := List.append_nil chunk
      rw [hbytes]
      have hdrawn : (eventDecoder.drain (a.buffer ++ chunk)).1 = completed seen chunk := by
        rw [drain_events, completed_eq, ha.buffer]
      refine ⟨⟨?_, ha.marker⟩, fun polls => ?_⟩
      · rw [undrawn_append, ← ha.buffer]
        rfl
      · simp [owed, held, hear, receive, hpending, hdone, due, items, hdrawn, Function.comp_def]

/-- The four ways a call can go, the last with a smaller call inside. -/
theorem pollNext_induction (lib : Serde) {P : AnthropicStreamAdapter → List Poll → Called → Prop}
    (turned : ∀ a inner a' answer, a.turn = some (a', answer) → P a inner ⟨a', inner, [], answer⟩)
    (idle : ∀ a, a.turn = none → P a [] ⟨a, [], [(a.pending, .pending)], .pending⟩)
    (handed : ∀ a polled inner a' answer, a.turn = none → a.hear lib polled = (a', some answer) →
      P a (polled :: inner) ⟨a', inner, [(a.pending, polled)], answer⟩)
    (taken : ∀ a polled inner a', a.turn = none → a.hear lib polled = (a', none) →
      P a' inner (a'.pollNext lib inner) → P a (polled :: inner)
        { a'.pollNext lib inner with
          asked := (a.pending, polled) :: (a'.pollNext lib inner).asked })
    (a : AnthropicStreamAdapter) (inner : List Poll) : P a inner (a.pollNext lib inner) := by
  induction inner generalizing a with
  | nil =>
      unfold pollNext
      cases hturn : a.turn with
      | some r => exact turned a [] r.1 r.2 hturn
      | none => exact idle a hturn
  | cons polled inner ih =>
      unfold pollNext
      cases hturn : a.turn with
      | some r => exact turned a _ r.1 r.2 hturn
      | none =>
          rcases hhear : a.hear lib polled with ⟨a', _ | answer⟩
          · simp only [hhear]
            exact taken a polled inner a' hturn hhear (ih a')
          · simp only [hhear]
            exact handed a polled inner a' answer hturn hhear

/-- Conservation: whatever the upstream answers from here on, a call moves what is
owed from the adapter to the caller. -/
theorem pollNext_owed (lib : Serde) {a : AnthropicStreamAdapter} {seen : Bytes}
    (ha : Received a seen) (inner : List Poll) :
    let c := a.pollNext lib inner
    let seen' := seen ++ chunkBytes (c.asked.map Prod.snd)
    Received c.adapter seen' ∧
      ∀ polls, owed lib a seen (c.asked.map Prod.snd ++ polls) =
        items [.answered c.answer] ++ owed lib c.adapter seen' polls := by
  induction a, inner using pollNext_induction lib generalizing seen with
  | turned a inner a' answer hturn =>
      obtain ⟨hr, -, howed⟩ := turn_some ha hturn
      simpa [chunkBytes] using ⟨hr, howed lib⟩
  | idle a hturn =>
      obtain ⟨hpending, hdone⟩ := turn_none hturn
      exact hear_owed lib ha hpending hdone .pending
  | handed a polled inner a' answer hturn hhear =>
      obtain ⟨hpending, hdone⟩ := turn_none hturn
      have hheard := hear_owed lib ha hpending hdone polled
      rw [hhear] at hheard
      exact hheard
  | taken a polled inner a' hturn hhear ih =>
      obtain ⟨hpending, hdone⟩ := turn_none hturn
      have hheard := hear_owed lib ha hpending hdone polled
      rw [hhear] at hheard
      obtain ⟨hrest, hrestowed⟩ := ih hheard.1
      simp only [List.map_cons]
      rw [chunkBytes_cons polled, ← List.append_assoc]
      refine ⟨hrest, fun polls => ?_⟩
      rw [List.cons_append, hheard.2]
      exact hrestowed polls

/-- The inner stream is asked with an empty queue only. -/
theorem pollNext_queue (lib : Serde) (a : AnthropicStreamAdapter) (inner : List Poll) :
    ∀ q ∈ (a.pollNext lib inner).asked, q.1 = [] := by
  induction a, inner using pollNext_induction lib with
  | turned a inner a' answer hturn => simp
  | idle a hturn => simpa using (turn_none hturn).1
  | handed a polled inner a' answer hturn hhear => simpa using (turn_none hturn).1
  | taken a polled inner a' hturn hhear ih =>
      intro q hq
      rcases List.mem_cons.mp hq with rfl | hq
      · exact (turn_none hturn).1
      · exact ih q hq

/-- The questions of a call take answers off the front of the list; past its end
they are pending. -/
theorem pollNext_inner (lib : Serde) (a : AnthropicStreamAdapter) (inner : List Poll) :
    ∃ k, (a.pollNext lib inner).asked.map Prod.snd ++ (a.pollNext lib inner).inner =
      inner ++ List.replicate k .pending := by
  induction a, inner using pollNext_induction lib with
  | turned a inner a' answer hturn => exact ⟨0, by simp⟩
  | idle a hturn => exact ⟨1, rfl⟩
  | handed a polled inner a' answer hturn hhear => exact ⟨0, by simp⟩
  | taken a polled inner a' hturn hhear ih =>
      obtain ⟨k, hk⟩ := ih
      exact ⟨k, by simp [hk]⟩

/-- The end is the last answer. -/
def EndsLast (polls : List Poll) : Prop := ∀ pre post, polls = pre ++ .ready none :: post → post = []

theorem endsLast_cons {polled : Poll} {polls : List Poll} (h : EndsLast polls)
    (hend : polled = .ready none → polls = []) : EndsLast (polled :: polls) := by
  intro pre post heq
  cases pre with
  | nil =>
      obtain ⟨rfl, rfl⟩ := List.cons.inj heq
      exact hend rfl
  | cons p pre => exact h pre post (List.cons.inj heq).2

theorem endsLast_append {polls more : List Poll} (h : EndsLast polls) (hmore : EndsLast more)
    (hend : .ready none ∈ polls → more = []) : EndsLast (polls ++ more) := by
  induction polls with
  | nil => exact hmore
  | cons p polls ih =>
      have htail : EndsLast polls := fun pre post heq => h (p :: pre) post (by rw [heq]; rfl)
      refine endsLast_cons (ih htail fun hm => hend (List.mem_cons_of_mem p hm)) ?_
      rintro rfl
      rw [h [] polls rfl, hend List.mem_cons_self]
      rfl

/-- The answers other than the end that a finished adapter has left. -/
def AnthropicStreamAdapter.waiting (a : AnthropicStreamAdapter) : ℕ :=
  a.pending.length + if a.emittedDone then 0 else 1

theorem held_of_waiting {a : AnthropicStreamAdapter} (h : a.waiting = 0) : a.held = [] := by
  obtain ⟨hpending, hemitted⟩ := Nat.add_eq_zero_iff.mp h
  have hdone : a.emittedDone = true := by
    by_contra he
    rw [if_neg he] at hemitted
    cases hemitted
  simp [held, List.length_eq_zero_iff.mp hpending, hdone]

/-- After its end the upstream is not asked again, and every call takes one of the
answers that are left; then comes the end, for ever. -/
theorem pollNext_done (lib : Serde) {a : AnthropicStreamAdapter} (h : a.upstreamDone = true)
    (inner : List Poll) :
    let c := a.pollNext lib inner
    c.asked = [] ∧ c.adapter.upstreamDone = true ∧ c.adapter.waiting = a.waiting - 1 ∧
      (a.waiting = 0 → c.answer = .ready none) := by
  have hpoll : ∀ a' answer, a.turn = some (a', answer) →
      a.pollNext lib inner = ⟨a', inner, [], answer⟩ := by
    intro a' answer hturn
    cases inner <;> simp [pollNext, hturn]
  cases hpending : a.pending with
  | cons out rest =>
      rw [hpoll { a with pending := rest } (.ready (some (.ok out))) (by simp [turn, hpending])]
      refine ⟨rfl, h, ?_, fun hw => ?_⟩
      · simp [waiting, hpending]
      · simp [waiting, hpending] at hw
  | nil =>
      cases hemitted : a.emittedDone with
      | true =>
          rw [hpoll a (.ready none) (by simp [turn, hpending, h, hemitted])]
          exact ⟨rfl, h, by simp [waiting, hpending, hemitted], fun _ => rfl⟩
      | false =>
          rw [hpoll { a with emittedDone := true } (.ready (some (.ok doneMarker)))
            (by simp [turn, hpending, h, hemitted])]
          refine ⟨rfl, h, by simp [waiting, hpending, hemitted], fun hw => ?_⟩
          simp [waiting, hpending, hemitted] at hw

theorem pollNext_ends (lib : Serde) (a : AnthropicStreamAdapter) (inner : List Poll) :
    EndsLast ((a.pollNext lib inner).asked.map Prod.snd) ∧
      (.ready none ∈ (a.pollNext lib inner).asked.map Prod.snd →
        (a.pollNext lib inner).adapter.upstreamDone = true) := by
  induction a, inner using pollNext_induction lib with
  | turned a inner a' answer hturn => exact ⟨by simp [EndsLast], by simp⟩
  | idle a hturn => exact ⟨endsLast_cons (by simp [EndsLast]) (by simp), by simp⟩
  | handed a polled inner a' answer hturn hhear =>
      have hne : polled ≠ .ready none := by
        rintro rfl
        cases hhear
      exact ⟨endsLast_cons (by simp [EndsLast]) (fun he => (hne he).elim),
        fun hm => (hne (List.mem_singleton.mp hm).symm).elim⟩
  | taken a polled inner a' hturn hhear ih =>
      have hend : polled = .ready none → (a'.pollNext lib inner).asked = [] ∧
          (a'.pollNext lib inner).adapter.upstreamDone = true := by
        rintro rfl
        have ha' : a'.upstreamDone = true := by rw [← (Prod.mk.inj hhear).1]
        obtain ⟨hasked, hdone, -⟩ := pollNext_done lib ha' inner
        exact ⟨hasked, hdone⟩
      refine ⟨endsLast_cons ih.1 fun he => ?_, fun hm => ?_⟩
      · rw [(hend he).1]
        rfl
      · rcases List.mem_cons.mp hm with he | hm
        · exact (hend he.symm).2
        · exact ih.2 hm

theorem heard_append (h k : List Action) : heard (h ++ k) = heard h ++ heard k :=
  List.filterMap_append

theorem items_append (h k : List Action) : items (h ++ k) = items h ++ items k :=
  List.filterMap_append

theorem heard_actions (c : Called) : heard (actions c) = c.asked.map Prod.snd := by
  simp [heard, actions, List.filterMap_map]

theorem items_actions (c : Called) : items (actions c) = items [.answered c.answer] := by
  simp [items, actions, List.filterMap_map]

theorem calls_add (lib : Serde) (n m : ℕ) (a : AnthropicStreamAdapter) (inner : List Poll) :
    calls lib (n + m) a inner =
      let s := calls lib n a inner
      let s' := calls lib m s.adapter s.inner
      { s' with history := s.history ++ s'.history } := by
  induction n generalizing a inner with
  | zero => simp [calls]
  | succ n ih =>
      rw [Nat.add_right_comm]
      simp [calls, ih]

/-- Conservation over a session. -/
theorem calls_owed (lib : Serde) (n : ℕ) {a : AnthropicStreamAdapter} {seen : Bytes}
    (ha : Received a seen) (inner : List Poll) :
    let s := calls lib n a inner
    ∀ polls, owed lib a seen (heard s.history ++ polls) =
      items s.history ++ owed lib s.adapter (seen ++ chunkBytes (heard s.history)) polls := by
  induction n generalizing a seen inner with
  | zero => simp [calls, heard, items, chunkBytes]
  | succ n ih =>
      obtain ⟨hreceived, howed⟩ := pollNext_owed lib ha inner
      intro s polls
      have hrest := ih hreceived (a.pollNext lib inner).inner polls
      simp only [s, calls, heard_append, items_append, heard_actions, items_actions,
        chunkBytes_append, List.append_assoc, howed]
      rw [List.append_assoc] at hrest
      rw [hrest]

theorem calls_queue (lib : Serde) (n : ℕ) (a : AnthropicStreamAdapter) (inner : List Poll) :
    ∀ queue polled, .asked queue polled ∈ (calls lib n a inner).history → queue = [] := by
  induction n generalizing a inner with
  | zero => simp [calls]
  | succ n ih =>
      intro queue polled hm
      rcases List.mem_append.mp hm with hm | hm
      · have hasked : (queue, polled) ∈ (a.pollNext lib inner).asked := by
          simpa [actions] using hm
        exact pollNext_queue lib a inner _ hasked
      · exact ih _ _ queue polled hm

theorem calls_inner (lib : Serde) (n : ℕ) (a : AnthropicStreamAdapter) (inner : List Poll) :
    ∃ k, heard (calls lib n a inner).history ++ (calls lib n a inner).inner =
      inner ++ List.replicate k .pending := by
  induction n generalizing a inner with
  | zero => exact ⟨0, by simp [calls, heard]⟩
  | succ n ih =>
      obtain ⟨k, hk⟩ := pollNext_inner lib a inner
      obtain ⟨j, hj⟩ := ih (a.pollNext lib inner).adapter (a.pollNext lib inner).inner
      refine ⟨k + j, ?_⟩
      simp only [calls, heard_append, heard_actions, List.append_assoc, hj]
      rw [← List.append_assoc, hk, List.append_assoc, List.replicate_add]

/-- A finished adapter asks nothing and comes closer to its end with every call. -/
theorem calls_done (lib : Serde) (n : ℕ) {a : AnthropicStreamAdapter} (h : a.upstreamDone = true)
    (inner : List Poll) :
    heard (calls lib n a inner).history = [] ∧
      (calls lib n a inner).adapter.upstreamDone = true ∧
      (calls lib n a inner).adapter.waiting = a.waiting - n := by
  induction n generalizing a inner with
  | zero => exact ⟨rfl, h, rfl⟩
  | succ n ih =>
      obtain ⟨hasked, hdone, hwaiting, -⟩ := pollNext_done lib h inner
      obtain ⟨hheard, hdone', hwaiting'⟩ := ih hdone (a.pollNext lib inner).inner
      refine ⟨?_, hdone', ?_⟩
      · simp [calls, heard_append, heard_actions, hasked, hheard]
      · simp only [calls, hwaiting', hwaiting]
        omega

theorem calls_ends (lib : Serde) (n : ℕ) (a : AnthropicStreamAdapter) (inner : List Poll) :
    EndsLast (heard (calls lib n a inner).history) ∧
      (.ready none ∈ heard (calls lib n a inner).history →
        (calls lib n a inner).adapter.upstreamDone = true) := by
  induction n generalizing a inner with
  | zero => exact ⟨by simp [EndsLast, calls, heard], by simp [calls, heard]⟩
  | succ n ih =>
      obtain ⟨hlast, hdone⟩ := pollNext_ends lib a inner
      obtain ⟨hlast', hdone'⟩ := ih (a.pollNext lib inner).adapter (a.pollNext lib inner).inner
      simp only [calls, heard_append, heard_actions]
      refine ⟨endsLast_append hlast hlast' fun hm => (calls_done lib n (hdone hm) _).1, fun hm => ?_⟩
      rcases List.mem_append.mp hm with hm | hm
      · exact (calls_done lib n (hdone hm) _).2.1
      · exact hdone' hm

theorem owed_nil (lib : Serde) (a : AnthropicStreamAdapter) (seen : Bytes) :
    owed lib a seen [] = a.held := by
  simp [owed, due]

theorem new_received (t : AnthropicTransform) : Received (new t) [] := ⟨rfl, fun h => by cases h⟩

theorem owed_new (lib : Serde) (t : AnthropicTransform) (polls : List Poll) :
    owed lib (new t) [] polls = due lib t [] polls := rfl

/-- Nothing is lost, reordered or duplicated. -/
theorem calls_due (lib : Serde) (t : AnthropicTransform) (inner : List Poll) (n : ℕ) :
    let s := calls lib n (new t) inner
    items s.history ++ s.adapter.held = due lib t [] (heard s.history) := by
  intro s
  have howed := calls_owed lib n (new_received t) inner []
  rw [List.append_nil, owed_new, owed_nil] at howed
  exact howed.symm

end VaultplaneGateway.AnthropicStreaming
