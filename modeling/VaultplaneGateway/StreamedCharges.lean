import Mathlib.Algebra.Order.Field.Rat
import Mathlib.Tactic.NormNum
import VaultplaneGateway.AnthropicStreaming
import VaultplaneGateway.JsonReading

/-!
# What a streamed reply costs

The adapter and the observer in a row: the observer is polled by the client and
polls the adapter, the adapter polls the upstream. Once the client has seen the end,
the observer has seen the translation of every event of the upstream's bytes, then
the end marker, however these bytes were cut.

The transform writes a usage chunk after every `message_delta` and the observer
stops at the first. The charge is that of the first delta; it is the charge of the
message only if that delta already has the final count, or if output is free.
-/
namespace VaultplaneGateway.StreamedCharges
open WireFormats KeyRecords ResponseCaching StreamUsage EventStreams UsageTee DerivedDecoding
open AnthropicTranslation TranslationAgreement AnthropicStreaming AnthropicStreamAdapter JsonReading

/-- What the adapter answered, in order: the answers the observer receives. -/
def answers (h : List Action) : List Poll :=
  h.filterMap fun
    | .answered answer => some answer
    | .asked _ _ => none

/-- The bytes of the items that are no errors. -/
def itemBytes (xs : List (Except String Bytes)) : Bytes :=
  xs.flatMap fun
    | .ok bytes => bytes
    | .error _ => []

/-- The chunks among some items. -/
def chunksOf (xs : List (Except String Bytes)) : List Bytes :=
  xs.filterMap fun
    | .ok bytes => some bytes
    | .error _ => none

theorem answers_append (h k : List Action) : answers (h ++ k) = answers h ++ answers k :=
  List.filterMap_append

theorem answers_actions (c : Called) : answers (actions c) = [c.answer] := by
  simp [answers, actions, List.filterMap_map]

theorem itemBytes_append (xs ys : List (Except String Bytes)) :
    itemBytes (xs ++ ys) = itemBytes xs ++ itemBytes ys :=
  List.flatMap_append

theorem chunkBytes_answers (h : List Action) : chunkBytes (answers h) = itemBytes (items h) := by
  induction h with
  | nil => rfl
  | cons action h ih =>
      rw [← List.singleton_append, answers_append, chunkBytes_append, items_append,
        itemBytes_append, ih]
      congr 1
      match action with
      | .asked _ _ => rfl
      | .answered .pending => rfl
      | .answered (.ready none) => rfl
      | .answered (.ready (some (.error _))) => rfl
      | .answered (.ready (some (.ok _))) => rfl

/-- The end is answered by an adapter that has nothing left. -/
theorem pollNext_end (lib : Serde) (a : AnthropicStreamAdapter) (inner : List Poll) :
    (a.pollNext lib inner).answer = .ready none →
      (a.pollNext lib inner).adapter.upstreamDone = true ∧
        (a.pollNext lib inner).adapter.waiting = 0 := by
  induction a, inner using pollNext_induction lib with
  | turned a inner a' answer hturn =>
      rintro rfl
      unfold turn at hturn
      split at hturn
      · cases hturn
      · rename_i hpending
        split_ifs at hturn with hdone hemitted
        · obtain ⟨rfl, -⟩ := Prod.mk.inj (Option.some.inj hturn)
          exact ⟨hdone, by simp [waiting, hpending, hemitted]⟩
        · cases hturn
  | idle a hturn => intro h; cases h
  | handed a polled inner a' answer hturn hhear =>
      rintro rfl
      rcases polled with _ | _ | _ | _ <;> cases hhear
  | taken a polled inner a' hturn hhear ih => exact ih

theorem calls_drained (lib : Serde) (n : ℕ) (a : AnthropicStreamAdapter) (inner : List Poll)
    (h : .ready none ∈ answers (calls lib n a inner).history) :
    (calls lib n a inner).adapter.upstreamDone = true ∧
      (calls lib n a inner).adapter.waiting = 0 := by
  induction n generalizing a inner with
  | zero => cases h
  | succ n ih =>
      simp only [calls, answers_append, answers_actions, List.mem_append, List.mem_singleton] at h
      rcases h with h | h
      · obtain ⟨hdone, hwaiting⟩ := pollNext_end lib a inner h.symm
        obtain ⟨-, hdone', hwaiting'⟩ := calls_done lib n hdone (a.pollNext lib inner).inner
        exact ⟨hdone', by rw [calls, hwaiting', hwaiting, Nat.zero_sub]⟩
      · exact ih _ _ h

/-- A call answers the end, takes an answer of the upstream or hands on one of its
own, as long as the upstream has not ended or will. -/
theorem pollNext_progress (lib : Serde) (a : AnthropicStreamAdapter) (inner : List Poll) :
    (a.upstreamDone = true ∨ .ready none ∈ inner) →
      ((a.pollNext lib inner).adapter.upstreamDone = true ∨
        .ready none ∈ (a.pollNext lib inner).inner) ∧
      ((a.pollNext lib inner).answer = .ready none ∨
        (a.pollNext lib inner).inner.length < inner.length ∨
        (a.pollNext lib inner).inner = inner ∧
          (a.pollNext lib inner).adapter.waiting < a.waiting) := by
  induction a, inner using pollNext_induction lib with
  | turned a inner a' answer hturn =>
      intro h
      unfold turn at hturn
      split at hturn
      · rename_i out rest hpending
        obtain ⟨rfl, rfl⟩ := Prod.mk.inj (Option.some.inj hturn)
        exact ⟨h, .inr (.inr ⟨rfl, by simp [waiting, hpending]⟩)⟩
      · rename_i hpending
        split_ifs at hturn with hdone hemitted
        · obtain ⟨rfl, rfl⟩ := Prod.mk.inj (Option.some.inj hturn)
          exact ⟨h, .inl rfl⟩
        · obtain ⟨rfl, rfl⟩ := Prod.mk.inj (Option.some.inj hturn)
          exact ⟨h, .inr (.inr ⟨rfl, by simp [waiting, hpending, hemitted]⟩)⟩
  | idle a hturn =>
      intro h
      rw [(turn_none hturn).2] at h
      simp at h
  | handed a polled inner a' answer hturn hhear =>
      intro h
      rw [(turn_none hturn).2] at h
      have hne : polled ≠ .ready none := by
        rintro rfl
        cases hhear
      have hmem : .ready none ∈ inner := by
        simpa [hne.symm] using h
      exact ⟨.inr hmem, .inr (.inl (Nat.lt_succ_self _))⟩
  | taken a polled inner a' hturn hhear ih =>
      intro h
      rw [(turn_none hturn).2] at h
      have hnext : a'.upstreamDone = true ∨ .ready none ∈ inner := by
        by_cases hend : polled = .ready none
        · rw [hend] at hhear
          exact .inl (by rw [← (Prod.mk.inj hhear).1])
        · exact .inr (by simpa [Ne.symm hend] using h)
      obtain ⟨hkeep, hstep⟩ := ih hnext
      refine ⟨hkeep, ?_⟩
      rcases hstep with hend | hshort | ⟨hsame, -⟩
      · exact .inl hend
      · exact .inr (.inl (hshort.trans (Nat.lt_succ_self _)))
      · exact .inr (.inl (by rw [hsame]; exact Nat.lt_succ_self _))

/-- If the upstream ends, so does the client's polling. -/
theorem exists_drained (lib : Serde) (a : AnthropicStreamAdapter) (inner : List Poll)
    (h : a.upstreamDone = true ∨ .ready none ∈ inner) :
    ∃ n, .ready none ∈ answers (calls lib n a inner).history := by
  obtain ⟨hnext, hstep⟩ := pollNext_progress lib a inner h
  by_cases hend : (a.pollNext lib inner).answer = .ready none
  · refine ⟨1, ?_⟩
    simp [calls, answers_actions, hend]
  · obtain ⟨n, hn⟩ := exists_drained lib _ _ hnext
    refine ⟨n + 1, ?_⟩
    simp only [calls, answers_append]
    exact List.mem_append_right _ hn
termination_by (inner.length, a.waiting)
decreasing_by
  rcases hstep with he | hshort | ⟨hsame, hless⟩
  · exact (hend he).elim
  · exact Prod.Lex.left _ _ hshort
  · rw [hsame]
    exact Prod.Lex.right _ hless

/-- Once the end was answered, everything that was due has been. -/
theorem items_drained {lib : Serde} {t : AnthropicTransform} {inner : List Poll} {n : ℕ}
    (h : .ready none ∈ answers (calls lib n (new t) inner).history) :
    ∃ k, items (calls lib n (new t) inner).history =
      due lib t [] (inner ++ List.replicate k .pending) := by
  obtain ⟨hdone, hwaiting⟩ := calls_drained lib n (new t) inner h
  obtain ⟨k, hk⟩ := calls_inner lib n (new t) inner
  have howed := calls_owed lib n (new_received t) inner (calls lib n (new t) inner).inner
  rw [hk, owed_new] at howed
  refine ⟨k, ?_⟩
  rw [howed, owed, held_of_waiting hwaiting, if_pos hdone, List.append_nil, List.append_nil]

theorem events_undrawn (b : Bytes) : events (undrawn b) = [] := by
  have h := events_append b []
  rw [List.append_nil, List.append_nil] at h
  exact List.self_eq_append_right.mp h

/-- The chunks due before the upstream's end: the events of all its bytes, translated one after the
other, and the marker. -/
theorem due_chunks (lib : Serde) (t : AnthropicTransform) (seen : Bytes) (body rest : List Poll)
    (h : .ready none ∉ body) :
    chunksOf (due lib t seen (body ++ .ready none :: rest)) =
      (t.processAll lib.toExternals (events (undrawn seen ++ chunkBytes body))).2.map
        (render lib) ++ [doneMarker] := by
  induction body generalizing t seen with
  | nil =>
      rw [show chunkBytes [] = [] from rfl, List.append_nil, events_undrawn]
      rfl
  | cons polled body ih =>
      have hbody : .ready none ∉ body := fun hm => h (List.mem_cons_of_mem polled hm)
      rcases polled with _ | _ | e | chunk
      · exact ih t seen hbody
      · exact (h List.mem_cons_self).elim
      · exact ih t seen hbody
      · have hchunk : ∀ vs : List Json,
            chunksOf (vs.map fun v => .ok (render lib v)) = vs.map (render lib) := by
          intro vs
          simp [chunksOf, List.filterMap_map]
        have happend : ∀ xs ys, chunksOf (xs ++ ys) = chunksOf xs ++ chunksOf ys :=
          fun xs ys => List.filterMap_append
        simp only [List.cons_append, due, happend, hchunk, ih _ _ hbody, chunkBytes]
        rw [← List.append_assoc (undrawn seen), events_append (undrawn seen ++ chunk),
          AnthropicTransform.processAll_append, List.map_append, ← undrawn_append,
          completed_eq, List.append_assoc]

theorem flatten_chunksOf (xs : List (Except String Bytes)) :
    (chunksOf xs).flatten = itemBytes xs := by
  induction xs with
  | nil => rfl
  | cons x xs ih =>
      cases x with
      | error e => exact ih
      | ok bytes => exact congrArg (bytes ++ ·) ih

theorem due_bytes (lib : Serde) (t : AnthropicTransform) (seen : Bytes) (body rest : List Poll)
    (h : .ready none ∉ body) :
    itemBytes (due lib t seen (body ++ .ready none :: rest)) =
      (t.processAll lib.toExternals (events (undrawn seen ++ chunkBytes body))).2.flatMap
        (render lib) ++ doneMarker := by
  rw [← flatten_chunksOf, due_chunks lib t seen body rest h, List.flatten_append,
    List.flatMap_def, List.flatten_singleton]

/-- The usage object of a chunk that was read. -/
def chunkUsage (v : Json) : Option Usage := do
  let usage ← v.get "usage"
  let promptTokens ← (← usage.get "prompt_tokens").asU64
  let completionTokens ← (← usage.get "completion_tokens").asU64
  pure ⟨promptTokens.toUInt32, completionTokens.toUInt32⟩

/-- What the JSON writer does with an object: one line of text that starts with a
brace and is read as the object again. -/
structure Writes (lib : Serde) (v : Json) : Prop where
  reads : lib.fromSlice (asBytes (lib.toText v)) = some v
  oneLine : '\n' ∉ (lib.toText v).toList
  brace : (lib.toText v).toList.head? = some '\x7b'

theorem trim_ne_done {s : String} (h : s.toList.head? = some '\x7b') : trim s ≠ "[DONE]" := by
  obtain ⟨cs, hcs⟩ := List.head?_eq_some_iff.mp h
  intro heq
  have hlist : (((s.toList.dropWhile isWhitespace).reverse.dropWhile isWhitespace).reverse) =
      "[DONE]".toList := by
    rw [← heq, trim, String.toList_ofList]
  have hdrop : s.toList.dropWhile isWhitespace = '\x7b' :: cs := by
    rw [hcs, List.dropWhile_cons_of_neg (by decide)]
  rw [hdrop] at hlist
  -- trimming the end keeps a front that is no blank
  have hpre : (((('\x7b' :: cs).reverse.dropWhile isWhitespace).reverse)) <+: '\x7b' :: cs := by
    rw [← List.reverse_suffix, List.reverse_reverse]
    exact List.dropWhile_suffix _
  rw [hlist] at hpre
  obtain ⟨more, hmore⟩ := hpre
  cases (List.cons.inj hmore).1

theorem parseChunkUsage_written {lib : Serde} {v : Json} (h : Writes lib v) :
    parseChunkUsage lib.toExternals (lib.toText v) = chunkUsage v := by
  rw [parseChunkUsage, if_neg (trim_ne_done h.brace), h.reads]
  rfl

theorem events_rendered {lib : Serde} {vs : List Json}
    (h : ∀ v ∈ vs, '\n' ∉ (lib.toText v).toList) (rest : Bytes) :
    events (vs.flatMap (render lib) ++ rest) =
      vs.map (fun v => ⟨none, lib.toText v⟩) ++ events rest := by
  induction vs with
  | nil => rfl
  | cons v vs ih =>
      rw [List.flatMap_cons, List.append_assoc, render,
        events_dataLine (h v List.mem_cons_self),
        ih fun w hw => h w (List.mem_cons_of_mem v hw)]
      rfl

theorem events_doneMarker : events doneMarker = [⟨none, "[DONE]"⟩] := by
  have h := events_dataLine (show '\n' ∉ "[DONE]".toList by decide) []
  rw [List.append_nil] at h
  rw [show doneMarker = asBytes ("data: " ++ "[DONE]" ++ "\n\n") from rfl, h]
  congr 1

/-- The observer finds the first usage among the chunks that were written. -/
theorem firstUsage_rendered {lib : Serde} {vs : List Json} (h : ∀ v ∈ vs, Writes lib v) :
    firstUsage lib.toExternals (vs.flatMap (render lib) ++ doneMarker) =
      vs.findSome? chunkUsage := by
  have hdone : parseChunkUsage lib.toExternals "[DONE]" = none := if_pos (by decide)
  rw [firstUsage, events_rendered fun v hv => (h v hv).oneLine, events_doneMarker,
    List.findSome?_append, List.findSome?_map]
  simp only [List.findSome?_cons, hdone, List.findSome?_nil, Option.or_none]
  rw [← List.head?_filterMap, ← List.head?_filterMap]
  have hchunks : vs.filterMap ((fun e => parseChunkUsage lib.toExternals e.data) ∘
      fun v => (⟨none, lib.toText v⟩ : SseEvent)) = vs.filterMap chunkUsage := by
    refine List.filterMap_congr fun v hv => ?_
    rw [Function.comp_apply, parseChunkUsage_written (h v hv)]
  rw [hchunks]

@[simp] theorem chunkUsage_chunk (t : AnthropicTransform) (delta : Json) (reason : Option String) :
    chunkUsage (t.chunk delta reason) = none := rfl

@[simp] theorem chunkUsage_usageChunk (t : AnthropicTransform) :
    chunkUsage t.usageChunk = some ⟨t.inputTokens, t.outputTokens⟩ := by
  simp [chunkUsage, AnthropicTransform.usageChunk, usageValue, Json.get]

/-- The usages reported after each delta, from the prompt count so far. -/
def usagesFrom (inputTokens : UInt32) : List Part → List Usage
  | [] => []
  | .start n :: parts => usagesFrom n parts
  | .delta _ n :: parts => ⟨inputTokens, n⟩ :: usagesFrom inputTokens parts
  | .text _ :: parts => usagesFrom inputTokens parts
  | .ignorable :: parts => usagesFrom inputTokens parts

theorem processAll_usages {lib : Externals} {events : List SseEvent} {parts : List Part}
    (h : List.Forall₂ (Means lib) events parts) (t : AnthropicTransform) :
    (t.processAll lib events).2.filterMap chunkUsage = usagesFrom t.inputTokens parts := by
  induction h generalizing t with
  | nil => rfl
  | @cons e p es ps hmeans _ ih =>
      have htr := process_means hmeans t
      simp only [AnthropicTransform.processAll, List.filterMap_append, ih]
      cases p with
      | start n =>
          obtain ⟨hin, -, hchunks⟩ := htr
          simp [hchunks, hin, usagesFrom]
      | text content =>
          obtain ⟨heq, hchunks⟩ := htr
          simp [hchunks, heq, usagesFrom]
      | delta stopReason n =>
          obtain ⟨hin, hout, hchunks⟩ := htr
          simp [hchunks, hin, hout, usagesFrom, List.filterMap_cons]
      | ignorable =>
          obtain ⟨heq, hchunks⟩ := htr
          simp [hchunks, heq, usagesFrom]

theorem usagesFrom_meaningful (n : UInt32) (parts : List Part) :
    usagesFrom n (meaningful parts) = usagesFrom n parts := by
  induction parts generalizing n with
  | nil => rfl
  | cons p parts ih =>
      unfold meaningful at ih ⊢
      cases p with
      | ignorable => exact ih n
      | start k => exact ih k
      | text content => exact ih n
      | delta stopReason k => exact congrArg (⟨n, k⟩ :: ·) (ih n)

theorem usagesFrom_texts (n : UInt32) (texts : List String) (rest : List Part) :
    usagesFrom n (texts.map Part.text ++ rest) = usagesFrom n rest := by
  induction texts with
  | nil => rfl
  | cons text texts ih => simpa [usagesFrom] using ih

theorem usagesFrom_deltas (n : UInt32) (deltas : List (Option String × UInt32)) :
    usagesFrom n (deltas.map fun d => .delta d.1 d.2) = deltas.map fun d => ⟨n, d.2⟩ := by
  induction deltas with
  | nil => rfl
  | cons d deltas ih => simp [usagesFrom, ih]

/-- An event sequence for a message with one or more deltas at its end. The output
counts are cumulative: they only grow, and the last one is the message's. -/
structure GrowingStream (lib : Externals) (m : Message) (deltas : List (Option String × UInt32))
    (events : List SseEvent) : Prop where
  shape : ∃ (parts : List Part) (cuts : List (List String)),
    List.Forall₂ (Means lib) events parts ∧ cuts.map String.join = m.texts ∧
      meaningful parts = .start m.inputTokens ::
        (cuts.flatten.map Part.text ++ deltas.map fun d => .delta d.1 d.2)
  cumulative : (deltas.map Prod.snd).Pairwise (· ≤ ·)
  stopReason : (deltas.filterMap Prod.fst).getLast? = some m.stopReason
  outputTokens : (deltas.map Prod.snd).getLast? = some m.outputTokens

theorem processAll_firstUsage {lib : Externals} {m : Message}
    {deltas : List (Option String × UInt32)} {events : List SseEvent}
    (h : GrowingStream lib m deltas events) (t : AnthropicTransform) :
    (t.processAll lib events).2.findSome? chunkUsage =
      deltas.head?.map fun d => ⟨m.inputTokens, d.2⟩ := by
  obtain ⟨parts, cuts, hmeans, -, hparts⟩ := h.shape
  have husages := processAll_usages hmeans t
  rw [← usagesFrom_meaningful, hparts] at husages
  change _ = usagesFrom m.inputTokens (cuts.flatten.map Part.text ++ _) at husages
  rw [usagesFrom_texts, usagesFrom_deltas] at husages
  rw [← List.head?_filterMap, husages, List.head?_map]

/-- Over a drained adapter the observer makes one call, for the first delta. -/
theorem streamed_records {lib : Serde} {pricing : Pricing} {keyId provider model : String}
    {limit : SpendLimit} {t : AnthropicTransform} {body rest : List Poll} {n : ℕ} {m : Message}
    {deltas : List (Option String × UInt32)} (hbody : .ready none ∉ body)
    (hstream : GrowingStream lib.toExternals m deltas (events (chunkBytes body)))
    (hwrites : ∀ v ∈ (t.processAll lib.toExternals (events (chunkBytes body))).2, Writes lib v)
    (hdrained : .ready none ∈ answers (calls lib n (new t) (body ++ .ready none :: rest)).history) :
    (watch lib.toExternals pricing (.new [] keyId (some limit) provider model)
      (answers (calls lib n (new t) (body ++ .ready none :: rest)).history)).records =
        ((deltas.head?.map fun d => ⟨m.inputTokens, d.2⟩).bind
          (recordCall pricing keyId (some limit) provider model)).toList := by
  obtain ⟨k, hitems⟩ := items_drained hdrained
  rw [new_records, chunkBytes_answers, hitems, List.append_assoc, List.cons_append,
    due_bytes lib t [] body _ hbody]
  rw [show undrawn [] = [] from (events_of_draw_none rfl).2, List.nil_append,
    firstUsage_rendered hwrites, processAll_firstUsage hstream]

/-- The cost of a usage at a given price. -/
def costAt (price : ModelPricing) (usage : Usage) : ℚ :=
  (usage.promptTokens.toNat : ℚ) / 1000 * price.inputPer1kTokensUsd +
    (usage.completionTokens.toNat : ℚ) / 1000 * price.outputPer1kTokensUsd

theorem compute_priced {pricing : Pricing} {provider model : String} {price : ModelPricing}
    (h : (pricing.providers provider).bind (· model) = some price) (usage : Usage) :
    compute pricing provider model usage = some (costAt price usage) := by
  obtain ⟨models, hmodels, hprice⟩ := Option.bind_eq_some_iff.mp h
  simp only [compute, hmodels, hprice, Option.bind_eq_bind, Option.bind_some]
  rfl

theorem costAt_eq_iff (price : ModelPricing) (input o o' : UInt32) :
    costAt price ⟨input, o⟩ = costAt price ⟨input, o'⟩ ↔
      o = o' ∨ price.outputPer1kTokensUsd = 0 := by
  unfold costAt
  rw [add_right_inj, mul_eq_mul_right_iff, div_left_inj' (by norm_num), Nat.cast_inj,
    UInt32.toNat_inj]

/-- The money recorded for a key and a period. -/
def recorded (keyId : String) (period : Period) (records : List RecordCall) : ℚ :=
  ((records.filter fun r => r.keyId == keyId && r.period == period).map RecordCall.cost).sum

/-- For a priced model and a key with a limit, over any cut of a stream into chunks
and any pauses: what is recorded once the client has drained the reply is the cost
of the message if and only if the first delta already reports the final output count
or output is free. A buffered reply with the same message has the message's usage. -/
theorem streamed_charge_iff {lib : Serde} {pricing : Pricing} {keyId provider model : String}
    {limit : SpendLimit} {price : ModelPricing} {t : AnthropicTransform} {body rest : List Poll}
    {n : ℕ} {m : Message} {deltas : List (Option String × UInt32)}
    (hprice : (pricing.providers provider).bind (· model) = some price)
    (hbody : .ready none ∉ body)
    (hstream : GrowingStream lib.toExternals m deltas (events (chunkBytes body)))
    (hwrites : ∀ v ∈ (t.processAll lib.toExternals (events (chunkBytes body))).2, Writes lib v)
    (hdrained : .ready none ∈ answers (calls lib n (new t) (body ++ .ready none :: rest)).history) :
    let observer := UsageObservingStream.new [] keyId (some limit) provider model
    let records := (watch lib.toExternals pricing observer
      (answers (calls lib n (new t) (body ++ .ready none :: rest)).history)).records
    (compute pricing provider model ⟨m.inputTokens, m.outputTokens⟩ =
        some (recorded keyId limit.period records) ↔
      (deltas.map Prod.snd).head? = some m.outputTokens ∨ price.outputPer1kTokensUsd = 0) ∧
    ∀ created reply v, lib.fromSliceAs .anthropicResponse reply = some v → Carries v m →
      ∃ openai, toOpenaiResponse lib.toExternals created reply =
        some (openai, ⟨m.inputTokens, m.outputTokens⟩) := by
  intro observer records
  refine ⟨?_, fun created reply v hreply hcarries => ?_⟩
  · obtain ⟨⟨reason, first⟩, hfirst⟩ : ∃ d, deltas.head? = some d := by
      cases deltas with
      | nil => cases hstream.outputTokens
      | cons d deltas => exact ⟨d, rfl⟩
    have hrecords : records =
        [⟨keyId, limit.period, costAt price ⟨m.inputTokens, first⟩⟩] := by
      rw [show records = _ from streamed_records hbody hstream hwrites hdrained, hfirst,
        Option.map_some, Option.bind_some]
      simp only [recordCall, compute_priced hprice]
      rfl
    rw [compute_priced hprice, hrecords, List.head?_map, hfirst, Option.map_some]
    simp only [recorded, List.filter_cons, beq_self_eq_true, Bool.and_self, if_true,
      List.filter_nil, List.map_cons, List.map_nil, List.sum_cons, List.sum_nil, add_zero,
      Option.some.injEq]
    rw [costAt_eq_iff]
    exact or_congr_left eq_comm
  · obtain ⟨openai, hopenai, -⟩ := toOpenaiResponse_message hreply hcarries created
    exact ⟨openai, hopenai⟩

theorem compact_brace (members : List (String × Json)) :
    (Json.object members).compact.toList.head? = some '\x7b' := by
  simp [Json.compact]

def growing : Message where
  id := "msg_1"
  model := "claude"
  content := [⟨"text", some "Hi"⟩]
  stopReason := "end_turn"
  inputTokens := 10
  outputTokens := 5

def growingTransform : AnthropicTransform := .new [7] 0 "claude"

/-- The data of the four events, and what is read. -/
def growingData : List (String × Json) :=
  [("\x7b\"message\":\x7b\"usage\":\x7b\"input_tokens\":10\x7d\x7d\x7d",
      .object [("message", .object [("usage", .object [("input_tokens", count 10)])])]),
    ("\x7b\"delta\":\x7b\"type\":\"text_delta\",\"text\":\"Hi\"\x7d\x7d", textDelta "Hi"),
    ("\x7b\"delta\":\x7b\"stop_reason\":null\x7d,\"usage\":\x7b\"output_tokens\":1\x7d\x7d",
      .object [("delta", .object [("stop_reason", .null)]),
        ("usage", .object [("output_tokens", count 1)])]),
    ("\x7b\"delta\":\x7b\"stop_reason\":\"end_turn\"\x7d,\"usage\":\x7b\"output_tokens\":5\x7d\x7d",
      .object [("delta", .object [("stop_reason", .string "end_turn")]),
        ("usage", .object [("output_tokens", count 5)])])]

/-- The chunks the transform writes for them. -/
def growingChunks : List Json :=
  let t := { growingTransform with inputTokens := 10 }
  [t.chunk (.object [("role", .string "assistant")]) none,
    t.chunk (.object [("content", .string "Hi")]) none,
    t.chunk (.object []) none, { t with outputTokens := 1 }.usageChunk,
    t.chunk (.object []) (some "stop"), { t with outputTokens := 5 }.usageChunk]

def growingTable : List (String × Json) := growingData ++ growingChunks.map fun v => (v.compact, v)

def growingLib : Serde where
  toExternals := tableReader growingTable
  toText := Json.compact

theorem growingTable_nodup : (growingTable.map Prod.fst).Nodup := by decide +kernel

theorem growing_reads {e : String × Json} (h : e ∈ growingTable) :
    growingLib.fromSlice (asBytes e.1) = some e.2 :=
  tableReader_reads growingTable_nodup h

theorem growing_writes : ∀ v ∈ growingChunks, Writes growingLib v := by
  intro v hv
  have hreads := growing_reads (List.mem_append_right growingData (List.mem_map_of_mem hv))
  have hall : growingChunks.all (plain 127) = true := by decide +kernel
  have hline := compact_oneLine (List.all_eq_true.mp hall v hv)
  simp only [growingChunks, List.mem_cons, List.not_mem_nil, or_false] at hv
  rcases hv with rfl | rfl | rfl | rfl | rfl | rfl
  all_goals exact ⟨hreads, hline, compact_brace _⟩

def growingNames : List String :=
  ["message_start", "content_block_delta", "message_delta", "message_delta"]

def growingEvents : List SseEvent :=
  List.zipWith (fun name e => ⟨some name, e.1⟩) growingNames growingData

/-- The bytes of the reply. -/
def growingBytes : Bytes :=
  (List.zipWith (fun name e => asBytes ("event: " ++ name ++ "\n" ++ ("data: " ++ e.1) ++ "\n\n"))
    growingNames growingData).flatten

/-- They arrive in two chunks, cut inside the first event, with a pause between. -/
def growingBody : List Poll :=
  [.ready (some (.ok (growingBytes.take 30))), .pending,
    .ready (some (.ok (growingBytes.drop 30)))]

theorem growing_events : events (chunkBytes growingBody) = growingEvents := by
  have hbytes : chunkBytes growingBody = growingBytes := by
    simp [growingBody, chunkBytes]
  rw [hbytes]
  simp only [growingBytes, growingNames, growingData, List.zipWith_cons_cons, List.zipWith_nil_left,
    List.flatten_cons, List.flatten_nil]
  rw [events_named (by decide) (by decide) (by decide), events_named (by decide) (by decide)
    (by decide), events_named (by decide) (by decide) (by decide), events_named (by decide)
    (by decide) (by decide)]
  rfl

theorem growing_stream : GrowingStream growingLib.toExternals growing
    [(none, 1), (some "end_turn", 5)] growingEvents where
  shape := by
    have hreads := fun e (he : e ∈ growingData) =>
      growing_reads (List.mem_append_left (growingChunks.map fun v => (v.compact, v)) he)
    simp only [growingData, List.forall_mem_cons] at hreads
    obtain ⟨hstart, htext, hfirst, hlast, -⟩ := hreads
    exact ⟨[.start 10, .text "Hi", .delta none 1, .delta (some "end_turn") 5], [["Hi"]],
      .cons (.start rfl hstart rfl) (.cons (.text rfl htext rfl rfl)
        (.cons (.delta rfl hfirst rfl rfl) (.cons (.delta rfl hlast rfl rfl) .nil))),
      by decide, by decide⟩
  cumulative := by decide
  stopReason := rfl
  outputTokens := rfl

theorem growing_chunks :
    (growingTransform.processAll growingLib.toExternals growingEvents).2 = growingChunks := rfl

def growingPrice : ModelPricing := ⟨1, 2⟩

def growingPricing : Pricing := ⟨fun _ => some fun _ => some growingPrice⟩

theorem growing_priced :
    (growingPricing.providers "anthropic").bind (· "claude") = some growingPrice := rfl

theorem growing_streamed : GrowingStream growingLib.toExternals growing
    [(none, 1), (some "end_turn", 5)] (events (chunkBytes growingBody)) := by
  rw [growing_events]
  exact growing_stream

theorem growing_written : ∀ v ∈ (growingTransform.processAll growingLib.toExternals
    (events (chunkBytes growingBody))).2, Writes growingLib v := by
  rw [growing_events, growing_chunks]
  exact growing_writes

theorem streamed_charge_iff_growing : ∃ n,
    let history := (calls growingLib n (new growingTransform) (growingBody ++ [.ready none])).history
    let observer := UsageObservingStream.new [] "key" (some ⟨100, .day⟩) "anthropic" "claude"
    let records := (watch growingLib.toExternals growingPricing observer (answers history)).records
    .ready none ∈ answers history ∧
      (compute growingPricing "anthropic" "claude" ⟨10, 5⟩ = some (recorded "key" .day records) ↔
        some (1 : UInt32) = some 5 ∨ growingPrice.outputPer1kTokensUsd = 0) := by
  obtain ⟨n, hn⟩ := exists_drained growingLib (new growingTransform) (growingBody ++ [.ready none])
    (.inr (by simp))
  have hiff := @streamed_charge_iff growingLib growingPricing "key" "anthropic" "claude"
    ⟨100, .day⟩ growingPrice growingTransform growingBody [] n growing _ growing_priced
    (by simp [growingBody]) growing_streamed growing_written hn
  exact ⟨n, hn, hiff.1⟩

/-- The reply costs 20 thousandths and is charged 12. -/
theorem growing_undercharged : ∃ n,
    let history := (calls growingLib n (new growingTransform) (growingBody ++ [.ready none])).history
    let observer := UsageObservingStream.new [] "key" (some ⟨100, .day⟩) "anthropic" "claude"
    let records := (watch growingLib.toExternals growingPricing observer (answers history)).records
    GrowingStream growingLib.toExternals growing [(none, 1), (some "end_turn", 5)]
        (events (chunkBytes growingBody)) ∧
      .ready none ∈ answers history ∧
      compute growingPricing "anthropic" "claude"
        ⟨growing.inputTokens, growing.outputTokens⟩ = some (20 / 1000) ∧
      recorded "key" .day records = 12 / 1000 := by
  obtain ⟨n, hn⟩ := exists_drained growingLib (new growingTransform) (growingBody ++ [.ready none])
    (.inr (by simp))
  have hrecords := @streamed_records growingLib growingPricing "key" "anthropic" "claude"
    ⟨100, .day⟩ growingTransform growingBody [] n growing _ (by simp [growingBody])
    growing_streamed growing_written hn
  have hcost : costAt growingPrice ⟨10, 5⟩ = 20 / 1000 := by decide +kernel
  have hfirst : costAt growingPrice ⟨10, 1⟩ = 12 / 1000 := by decide +kernel
  refine ⟨n, growing_streamed, hn, ?_, ?_⟩
  · rw [compute_priced growing_priced, ← hcost]
    rfl
  · simp only [hrecords, List.head?_cons, Option.map_some, Option.bind_some, recordCall,
      compute_priced growing_priced, ← hfirst]
    simp [recorded, growing]

end VaultplaneGateway.StreamedCharges
