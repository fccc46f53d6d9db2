import VaultplaneGateway.EventStreams

/-!
# The usage observer as a tee

The observer is polled by the client's connection and polls the upstream body.
Whatever the body answers, in whatever order, is handed on; only the bytes of its
chunks are looked at, up to the first usage. Here the upstream body is the list of
its answers to successive polls, so pending polls, read errors and polls past the
end are all covered, and every call of the spend tracker is kept in a list.

What is charged is described without the observer: it is the first usage among the
events of all the bytes.
-/
namespace VaultplaneGateway.UsageTee
open WireFormats KeyRecords SpendTracking ResponseCaching StreamUsage EventStreams

/-- The answer to one poll of a body stream. -/
inductive Poll where
  | pending
  | ready (item : Option (Except String Bytes))
  deriving DecidableEq

/-- The bytes of all chunks. -/
def chunkBytes : List Poll → Bytes
  | [] => []
  | .ready (some (.ok chunk)) :: polls => chunk ++ chunkBytes polls
  | _ :: polls => chunkBytes polls

/-- One call of `SpendTracker::record`. -/
structure RecordCall where
  keyId : String
  period : Period
  cost : ℚ
  deriving DecidableEq, Repr

/-- The call made for a usage; none without a price or without a limit. -/
def recordCall (pricing : Pricing) (keyId : String) (spendLimit : Option SpendLimit)
    (provider model : String) (usage : Usage) : Option RecordCall :=
  match compute pricing provider model usage, spendLimit with
  | some cost, some limit => some ⟨keyId, limit.period, cost⟩
  | _, _ => none

theorem chargeUsage_eq (pricing : Pricing) (tracker : SpendTracker) (keyId : String)
    (limit : Option SpendLimit) (provider model : String) (usage : Usage) (now : ℕ) :
    chargeUsage pricing tracker keyId limit provider model usage now =
      match recordCall pricing keyId limit provider model usage with
      | some c => tracker.record c.keyId c.period c.cost now
      | none => tracker := by
  unfold chargeUsage recordCall
  cases compute pricing provider model usage with
  | none => rfl
  | some cost => cases limit <;> rfl

/-- `poll_next` after the inner stream has answered: the state and the usage that
this answer completed. -/
def observe (lib : Externals) (o : UsageObservingStream) : Poll → UsageObservingStream × Option Usage
  | .ready (some (.ok chunk)) =>
      if o.foundUsage then (o, none)
      else
        let buffer := o.buffer ++ chunk
        match drawUsage lib buffer.length buffer with
        | (rest, some usage) => ({ o with buffer := rest, foundUsage := true }, some usage)
        | (rest, none) => ({ o with buffer := rest }, none)
  | _ => (o, none)

/-- Over a body that is never pending this is the observer of a list of chunks. -/
theorem pollNext_eq_observe (lib : Externals) (pricing : Pricing) (o : UsageObservingStream)
    (tracker : SpendTracker) (now : ℕ) :
    o.pollNext lib pricing tracker now =
      match o.inner with
      | [] => ((o, tracker), none)
      | item :: inner =>
          let r := observe lib { o with inner := inner } (.ready (some item))
          ((r.1, match r.2 with
            | some usage =>
                chargeUsage pricing tracker o.keyId o.spendLimit o.provider o.model usage now
            | none => tracker), some item) := by
  unfold UsageObservingStream.pollNext observe
  cases o.inner with
  | nil => rfl
  | cons item inner =>
      cases item with
      | error e => rfl
      | ok chunk =>
          cases hfound : o.foundUsage with
          | true => simp
          | false =>
              simp only [Bool.false_eq_true, if_false]
              rcases drawUsage lib (o.buffer ++ chunk).length (o.buffer ++ chunk) with
                ⟨rest, _ | usage⟩ <;> rfl

/-- The observer after some polls, what it answered to them, and the calls it made. -/
structure Watched where
  observer : UsageObservingStream
  yielded : List Poll
  records : List RecordCall

def watch (lib : Externals) (pricing : Pricing) (o : UsageObservingStream) : List Poll → Watched
  | [] => ⟨o, [], []⟩
  | polled :: polls =>
      let r := observe lib o polled
      let w := watch lib pricing r.1 polls
      ⟨w.observer, polled :: w.yielded,
        (r.2.bind (recordCall pricing o.keyId o.spendLimit o.provider o.model)).toList ++ w.records⟩

/-- The first usage among the events of a byte string. -/
def firstUsage (lib : Externals) (b : Bytes) : Option Usage :=
  (events b).findSome? fun e => parseChunkUsage lib e.data

theorem firstUsage_append (lib : Externals) (b more : Bytes) :
    firstUsage lib (b ++ more) = (firstUsage lib b).or (firstUsage lib (undrawn b ++ more)) := by
  rw [firstUsage, events_append, List.findSome?_append]
  rfl

/-- One pass of the event loop finds the first usage of its buffer; if there is
none it has drawn everything. -/
theorem drawUsage_eq (lib : Externals) {fuel : ℕ} {b : Bytes} (h : b.length ≤ fuel) :
    (drawUsage lib fuel b).2 = firstUsage lib b ∧
      (firstUsage lib b = none → (drawUsage lib fuel b).1 = undrawn b) := by
  induction fuel generalizing b with
  | zero =>
      obtain rfl := List.length_eq_zero_iff.mp (Nat.le_zero.mp h)
      obtain ⟨hev, hun⟩ := events_of_draw_none (show drawEvent [] = none from rfl)
      rw [firstUsage, hev, hun]
      exact ⟨rfl, fun _ => rfl⟩
  | succ fuel ih =>
      unfold drawUsage
      rw [nextEvent_eq]
      cases hdraw : drawEvent b with
      | none =>
          obtain ⟨hev, hun⟩ := events_of_draw_none hdraw
          rw [firstUsage, hev, hun]
          exact ⟨rfl, fun _ => rfl⟩
      | some r =>
          obtain ⟨e, rest⟩ := r
          obtain ⟨hev, hun⟩ := events_of_draw_some hdraw
          have hlt : rest.length < b.length := eventDecoder.shrinks hdraw
          rw [firstUsage, hev, hun, List.findSome?_cons]
          dsimp only
          cases hu : parseChunkUsage lib e.data with
          | some usage => exact ⟨rfl, fun hnone => by cases hnone⟩
          | none => exact ih (by omega)

/-- The observer has seen the bytes `seen`. -/
structure Seen (lib : Externals) (o : UsageObservingStream) (seen : Bytes) : Prop where
  found : o.foundUsage = (firstUsage lib seen).isSome
  held : o.foundUsage = false → o.buffer = undrawn seen

/-- A poll brings the observer from the bytes seen so far to those with the new
chunk, and reports the usage that the chunk completes, if it is the first. -/
theorem observe_seen {lib : Externals} {o : UsageObservingStream} {seen : Bytes}
    (h : Seen lib o seen) (polled : Poll) :
    Seen lib (observe lib o polled).1 (seen ++ chunkBytes [polled]) ∧
      (observe lib o polled).2 =
        if (firstUsage lib seen).isSome then none
        else firstUsage lib (seen ++ chunkBytes [polled]) := by
  have hskip : ∀ p : Poll, chunkBytes [p] = [] → observe lib o p = (o, none) →
      Seen lib (observe lib o p).1 (seen ++ chunkBytes [p]) ∧
        (observe lib o p).2 = if (firstUsage lib seen).isSome then none
          else firstUsage lib (seen ++ chunkBytes [p]) := by
    intro p hp ho
    rw [hp, ho, List.append_nil]
    refine ⟨h, ?_⟩
    cases firstUsage lib seen <;> rfl
  match polled with
  | .pending => exact hskip _ rfl rfl
  | .ready none => exact hskip _ rfl rfl
  | .ready (some (.error e)) => exact hskip _ rfl rfl
  | .ready (some (.ok chunk)) =>
      have hbytes : chunkBytes [.ready (some (.ok chunk))] = chunk := List.append_nil chunk
      rw [hbytes]
      cases hfound : o.foundUsage with
      | true =>
          -- the first usage was found before: the chunk is not looked at
          have hfirst := h.found
          rw [hfound] at hfirst
          obtain ⟨usage, husage⟩ := Option.isSome_iff_exists.mp hfirst.symm
          simp only [observe, hfound, if_true, husage, Option.isSome_some]
          refine ⟨⟨?_, fun hf => ?_⟩, trivial⟩
          · rw [hfound, firstUsage_append, husage]
            rfl
          · rw [hfound] at hf
            cases hf
      | false =>
          have hfirst := h.found
          rw [hfound] at hfirst
          have hnone : firstUsage lib seen = none := Option.isNone_iff_eq_none.mp (by
            simpa using hfirst.symm)
          obtain ⟨hdraw, hrest⟩ := drawUsage_eq lib (Nat.le_refl (o.buffer ++ chunk).length)
          have happ : firstUsage lib (seen ++ chunk) = firstUsage lib (o.buffer ++ chunk) := by
            rw [firstUsage_append, hnone, h.held hfound]
            rfl
          simp only [observe, hfound, Bool.false_eq_true, if_false, hnone, Option.isSome_none, happ]
          rcases hd : drawUsage lib (o.buffer ++ chunk).length (o.buffer ++ chunk) with
            ⟨rest, _ | usage⟩
          · rw [hd] at hdraw hrest
            refine ⟨⟨?_, fun _ => ?_⟩, hdraw⟩
            · rw [happ, ← hdraw]
              rfl
            · rw [undrawn_append, ← h.held hfound]
              exact hrest hdraw.symm
          · rw [hd] at hdraw
            refine ⟨⟨?_, fun hf => by cases hf⟩, hdraw⟩
            rw [happ, ← hdraw]
            rfl

/-- An observer keeps charging for the key, limit and prices it was built with. -/
theorem observe_keeps (lib : Externals) (o : UsageObservingStream) (polled : Poll) :
    (observe lib o polled).1.keyId = o.keyId ∧ (observe lib o polled).1.spendLimit = o.spendLimit ∧
      (observe lib o polled).1.provider = o.provider ∧
      (observe lib o polled).1.model = o.model := by
  unfold observe
  split
  · split_ifs
    · exact ⟨rfl, rfl, rfl, rfl⟩
    · dsimp only
      split <;> exact ⟨rfl, rfl, rfl, rfl⟩
  · exact ⟨rfl, rfl, rfl, rfl⟩

theorem chunkBytes_cons (polled : Poll) (polls : List Poll) :
    chunkBytes (polled :: polls) = chunkBytes [polled] ++ chunkBytes polls := by
  match polled with
  | .pending => rfl
  | .ready none => rfl
  | .ready (some (.error e)) => rfl
  | .ready (some (.ok chunk)) => simp [chunkBytes]

theorem chunkBytes_append (polls more : List Poll) :
    chunkBytes (polls ++ more) = chunkBytes polls ++ chunkBytes more := by
  induction polls with
  | nil => rfl
  | cons polled polls ih =>
      rw [List.cons_append, chunkBytes_cons, ih, chunkBytes_cons polled polls, List.append_assoc]

/-- From an observer that has seen some bytes, the calls of a whole run. -/
theorem watch_records {lib : Externals} {pricing : Pricing} {o : UsageObservingStream}
    {seen : Bytes} (h : Seen lib o seen) (polls : List Poll) :
    (watch lib pricing o polls).records =
      if (firstUsage lib seen).isSome then []
      else ((firstUsage lib (seen ++ chunkBytes polls)).bind
        (recordCall pricing o.keyId o.spendLimit o.provider o.model)).toList := by
  induction polls generalizing o seen with
  | nil =>
      rw [show chunkBytes [] = [] from rfl, List.append_nil]
      cases firstUsage lib seen <;> rfl
  | cons polled polls ih =>
      obtain ⟨hseen, hfound⟩ := observe_seen h polled
      obtain ⟨hkey, hlimit, hprovider, hmodel⟩ := observe_keeps lib o polled
      simp only [watch, ih hseen, hfound, hkey, hlimit, hprovider, hmodel]
      rw [chunkBytes_cons polled polls, ← List.append_assoc]
      cases hfirst : firstUsage lib seen with
      | some usage =>
          rw [firstUsage_append lib seen (chunkBytes [polled]), hfirst]
          rfl
      | none =>
          cases hnow : firstUsage lib (seen ++ chunkBytes [polled]) with
          | none => simp
          | some usage =>
              simp only [Option.isSome_none, Bool.false_eq_true, if_false, Option.bind_some,
                Option.isSome_some, if_true, List.append_nil]
              rw [firstUsage_append, hnow]
              rfl

theorem watch_yielded (lib : Externals) (pricing : Pricing) (o : UsageObservingStream)
    (polls : List Poll) : (watch lib pricing o polls).yielded = polls := by
  induction polls generalizing o with
  | nil => rfl
  | cons polled polls ih => simp only [watch, ih]

theorem new_seen (lib : Externals) (inner : BodyStream) (keyId : String)
    (limit : Option SpendLimit) (provider model : String) :
    Seen lib (UsageObservingStream.new inner keyId limit provider model) [] where
  found := rfl
  held _ := rfl

theorem new_records (lib : Externals) (pricing : Pricing) (inner : BodyStream) (keyId : String)
    (limit : Option SpendLimit) (provider model : String) (polls : List Poll) :
    (watch lib pricing (.new inner keyId limit provider model) polls).records =
      ((firstUsage lib (chunkBytes polls)).bind
        (recordCall pricing keyId limit provider model)).toList :=
  watch_records (new_seen lib inner keyId limit provider model) polls

end VaultplaneGateway.UsageTee
