import VaultplaneGateway.OpenAiForwarding

/-!
# Token counts of upstream replies

Counts arrive as JSON numbers of up to 64 bits and are kept in 32. Two extractors and the
stream translation cut a count, the decoder of a buffered Anthropic message refuses one
that is too large, and totals are sums of 32 bits. A reply is reported as it was counted
exactly if nothing is cut and no total overflows, or if nothing is reported.

The two extractors of OpenAI usage also differ in what they ask for: only the one for
stream events needs a completion count.
-/
namespace VaultplaneGateway.TokenCounts
open WireFormats ProxyPipeline ResponseCaching StreamUsage DerivedDecoding AnthropicTranslation
open TranslationAgreement OpenAiForwarding

/-- The count that stands at a path of a value. -/
def countAt (v : Json) (path : List String) : Option UInt64 := (v.path path).bind Json.asU64

theorem parseOpenaiUsage_eq (lib : Externals) (body : Bytes) :
    parseOpenaiUsage lib body = (lib.fromSlice body).bind fun v =>
      (countAt v ["usage", "prompt_tokens"]).map fun prompt =>
        ⟨prompt.toUInt32, ((countAt v ["usage", "completion_tokens"]).map UInt64.toUInt32).getD 0⟩ := by
  unfold parseOpenaiUsage countAt
  cases lib.fromSlice body with
  | none => rfl
  | some v =>
      cases husage : v.get "usage" with
      | none => simp [Json.path, husage]
      | some usage =>
          simp only [Json.path, husage, Option.bind_eq_bind, Option.bind_some, Option.bind_fun_some,
            Option.pure_def]
          cases hprompt : usage.get "prompt_tokens" with
          | none => simp
          | some prompt =>
              cases hcount : prompt.asU64 <;> simp [hcount]

theorem parseChunkUsage_eq {lib : Externals} {data : String} (hdone : trim data ≠ "[DONE]") :
    parseChunkUsage lib data = (lib.fromSlice (asBytes data)).bind fun v =>
      (countAt v ["usage", "prompt_tokens"]).bind fun prompt =>
        (countAt v ["usage", "completion_tokens"]).map fun completion =>
          ⟨prompt.toUInt32, completion.toUInt32⟩ := by
  unfold parseChunkUsage countAt
  rw [if_neg hdone]
  cases lib.fromSlice (asBytes data) with
  | none => rfl
  | some v =>
      cases husage : v.get "usage" with
      | none => simp [Json.path, husage]
      | some usage =>
          simp only [Json.path, husage, Option.bind_eq_bind, Option.bind_some, Option.bind_fun_some,
            Option.pure_def]
          cases hprompt : usage.get "prompt_tokens" with
          | none => simp
          | some prompt =>
              cases hcount : prompt.asU64 with
              | none => simp [hcount]
              | some n =>
                  cases hcompletion : usage.get "completion_tokens" with
                  | none => simp [hcount]
                  | some completion =>
                      cases hcount' : completion.asU64 <;> simp [hcount, hcount']

/-- For every text and the value that it is read as: the extractors agree exactly if the
value has no prompt count or has a completion count as well. -/
theorem extractors_agree_iff {lib : Externals}
    (hdone : ∀ data, trim data = "[DONE]" → lib.fromSlice (asBytes data) = none) {text : String}
    {v : Json} (hread : lib.fromSlice (asBytes text) = some v) :
    parseOpenaiUsage lib (asBytes text) = parseChunkUsage lib text ↔
      ((countAt v ["usage", "prompt_tokens"]).isSome = true →
        (countAt v ["usage", "completion_tokens"]).isSome = true) := by
  have htext : trim text ≠ "[DONE]" := by
    intro h
    rw [hdone text h] at hread
    cases hread
  rw [parseOpenaiUsage_eq, parseChunkUsage_eq htext, hread, Option.bind_some, Option.bind_some]
  cases countAt v ["usage", "prompt_tokens"] with
  | none => simp
  | some prompt => cases countAt v ["usage", "completion_tokens"] <;> simp

theorem toNat_cut (n : UInt64) : n.toUInt32.toNat = n.toNat % 2 ^ 32 := by
  simp

theorem cut_exact_iff (n : UInt64) : n.toUInt32.toNat = n.toNat ↔ n.toNat < 2 ^ 32 := by
  rw [toNat_cut]
  exact ⟨fun h => h ▸ Nat.mod_lt _ (by decide), Nat.mod_eq_of_lt⟩

/-- What is reported is what was counted. -/
def Unaltered (reported : Option Usage) (prompt completion : UInt64) : Prop :=
  ∀ u, reported = some u →
    u.promptTokens.toNat = prompt.toNat ∧ u.completionTokens.toNat = completion.toNat

theorem unaltered_cut_iff (prompt completion : UInt64) :
    Unaltered (some ⟨prompt.toUInt32, completion.toUInt32⟩) prompt completion ↔
      prompt.toNat < 2 ^ 32 ∧ completion.toNat < 2 ^ 32 := by
  unfold Unaltered
  simp only [Option.some.injEq, forall_eq', cut_exact_iff]

section
variable {lib : Externals} {v : Json} {prompt completion : UInt64}

theorem parseOpenaiUsage_unaltered_iff {body : Bytes} (hread : lib.fromSlice body = some v)
    (hprompt : countAt v ["usage", "prompt_tokens"] = some prompt)
    (hcompletion : countAt v ["usage", "completion_tokens"] = some completion) :
    Unaltered (parseOpenaiUsage lib body) prompt completion ↔
      prompt.toNat < 2 ^ 32 ∧ completion.toNat < 2 ^ 32 := by
  rw [← unaltered_cut_iff, parseOpenaiUsage_eq, hread, Option.bind_some, hprompt, hcompletion]
  rfl

/-- The answer to an embeddings request has no count of a completion. -/
theorem parseOpenaiUsage_promptOnly_iff {body : Bytes} (hread : lib.fromSlice body = some v)
    (hprompt : countAt v ["usage", "prompt_tokens"] = some prompt)
    (habsent : countAt v ["usage", "completion_tokens"] = none) :
    Unaltered (parseOpenaiUsage lib body) prompt 0 ↔ prompt.toNat < 2 ^ 32 := by
  have hcut := unaltered_cut_iff prompt 0
  rw [and_iff_left (by decide)] at hcut
  rw [← hcut, parseOpenaiUsage_eq, hread, Option.bind_some, hprompt, habsent]
  rfl

theorem parseChunkUsage_unaltered_iff {data : String}
    (hread : lib.fromSlice (asBytes data) = some v)
    (hprompt : countAt v ["usage", "prompt_tokens"] = some prompt)
    (hcompletion : countAt v ["usage", "completion_tokens"] = some completion) :
    Unaltered (parseChunkUsage lib data) prompt completion ↔
      trim data = "[DONE]" ∨ prompt.toNat < 2 ^ 32 ∧ completion.toNat < 2 ^ 32 := by
  by_cases hdone : trim data = "[DONE]"
  · refine iff_of_true ?_ (.inl hdone)
    intro u hu
    rw [parseChunkUsage, if_pos hdone] at hu
    cases hu
  · rw [parseChunkUsage_eq hdone, hread, Option.bind_some, hprompt, hcompletion,
      or_iff_right hdone, ← unaltered_cut_iff]
    rfl

end

/-- A field that a derived decoder finds is the one that a lookup finds. -/
theorem get_of_structField {members : List (String × Json)} {name : String} {o : Option Json}
    (h : structField members name = some o) : (Json.object members).get name = o := by
  have hget : (Json.object members).get name =
      ((members.filter fun m => m.1 == name).reverse.head?).map Prod.snd := by
    rw [Json.get, ← List.filter_reverse, List.head?_filter]
  rw [hget]
  unfold structField at h
  split at h
  · rename_i hfilter
    rw [hfilter, ← Option.some.inj h]
    rfl
  · rename_i m hfilter
    rw [hfilter, ← Option.some.inj h]
    rfl
  · cases h

theorem u32_eq_some {v : Json} {n : UInt32} {m : UInt64} (h : u32 v = some n)
    (hcount : v.asU64 = some m) : n.toNat = m.toNat := by
  simp only [u32, hcount, Option.bind_eq_bind, Option.bind_some] at h
  split_ifs at h with hlt
  rw [← Option.some.inj h, toNat_cut, Nat.mod_eq_of_lt hlt]

/-- A count of a decoded struct is the count that stands in the object. -/
theorem count_of_defaulted {members : List (String × Json)} {index : ℕ} {name : String}
    {n : UInt32} {m : UInt64} (h : (Fields.named members).defaulted index name 0 u32 = some n)
    (hcount : ((Json.object members).get name).bind Json.asU64 = some m) :
    n.toNat = m.toNat := by
  cases hfield : structField members name with
  | none => simp [Fields.defaulted, Fields.value, hfield] at h
  | some o =>
      rw [get_of_structField hfield] at hcount
      obtain ⟨v, rfl, hv⟩ := Option.bind_eq_some_iff.mp hcount
      refine u32_eq_some (v := v) ?_ hv
      simpa [Fields.defaulted, Fields.value, hfield] using h

theorem decode_usage_counts {members : List (String × Json)} {usage : AnthropicUsage}
    {input output : UInt64} (h : AnthropicUsage.decode (.object members) = some usage)
    (hinput : ((Json.object members).get "input_tokens").bind Json.asU64 = some input)
    (houtput : ((Json.object members).get "output_tokens").bind Json.asU64 = some output) :
    usage.inputTokens.toNat = input.toNat ∧ usage.outputTokens.toNat = output.toNat := by
  simp only [AnthropicUsage.decode, fieldsOf, Option.bind_eq_bind, Option.bind_some,
    Option.bind_eq_some_iff] at h
  obtain ⟨n, hn, m, hm, hpair⟩ := h
  obtain rfl := Option.some.inj hpair
  exact ⟨count_of_defaulted hn hinput, count_of_defaulted hm houtput⟩

/-- A message that decodes has the counts that stand in it. -/
theorem decode_counts {v : Json} {response : AnthropicResponse} {input output : UInt64}
    (h : AnthropicResponse.decode v = some response)
    (hinput : countAt v ["usage", "input_tokens"] = some input)
    (houtput : countAt v ["usage", "output_tokens"] = some output) :
    ∃ usage, response.usage = some usage ∧ usage.inputTokens.toNat = input.toNat ∧
      usage.outputTokens.toNat = output.toNat := by
  cases v with
  | object members =>
      simp only [AnthropicResponse.decode, fieldsOf, Option.bind_eq_bind, Option.bind_some,
        Option.bind_eq_some_iff] at h
      obtain ⟨_, -, _, -, _, -, _, -, decoded, hdecoded, hresponse⟩ := h
      cases hfield : structField members "usage" with
      | none => simp [Fields.defaulted, Fields.value, hfield] at hdecoded
      | some o =>
          simp only [countAt, Json.path, get_of_structField hfield] at hinput houtput
          cases o with
          | none => cases hinput
          | some u =>
              cases u with
              | object members =>
                  simp only [Option.bind_some, Option.bind_fun_some] at hinput houtput
                  simp only [Fields.defaulted, Fields.value, hfield, Option.bind_eq_bind,
                    Option.bind_some, nullable, Option.map_eq_some_iff] at hdecoded
                  obtain ⟨usage, husage, rfl⟩ := hdecoded
                  obtain rfl := Option.some.inj hresponse
                  exact ⟨usage, rfl, decode_usage_counts husage hinput houtput⟩
              | _ => cases hinput
  | _ => cases hinput

theorem usageCounts_usageValue {v : Json} (prompt completion : UInt32)
    (h : v.get "usage" = some (usageValue prompt completion)) :
    usageCounts v = some (writtenCounts prompt completion) := by
  have hpath : ∀ name, v.path ["usage", name] = (usageValue prompt completion).get name := by
    intro name
    simp only [Json.path, h, Option.bind_some, Option.bind_fun_some]
  rw [usageCounts, hpath, hpath, hpath]
  simp [usageValue, Json.get, writtenCounts]

/-- The written counts are the counted ones exactly if their sum is one of 32 bits. -/
theorem writtenCounts_exact_iff {prompt completion : UInt32} {p c : ℕ}
    (hprompt : prompt.toNat = p % 2 ^ 32) (hcompletion : completion.toNat = c % 2 ^ 32) :
    writtenCounts prompt completion = (p, c, p + c) ↔ p + c < 2 ^ 32 := by
  unfold writtenCounts
  rw [UInt32.toNat_add, hprompt, hcompletion]
  simp only [Prod.mk.injEq]
  omega

/-- A translated message reports the counts that stand in it and their sum. -/
theorem toOpenaiResponse_unaltered_iff {lib : Externals} {body : Bytes} {v : Json}
    {input output : UInt64} (hread : lib.fromSliceAs .anthropicResponse body = some v)
    (hinput : countAt v ["usage", "input_tokens"] = some input)
    (houtput : countAt v ["usage", "output_tokens"] = some output) (created : UInt64) :
    (∀ reply usage, toOpenaiResponse lib created body = some (reply, usage) →
      Unaltered (some usage) input output ∧
        usageCounts reply = some (input.toNat, output.toNat, input.toNat + output.toNat)) ↔
    AnthropicResponse.decode v = none ∨ input.toNat + output.toNat < 2 ^ 32 := by
  unfold toOpenaiResponse
  rw [hread, Option.bind_some]
  cases hdecode : AnthropicResponse.decode v with
  | none => simp
  | some response =>
      obtain ⟨upstream, husage, hprompt, hcompletion⟩ := decode_counts hdecode hinput houtput
      have hlt := upstream.inputTokens.toNat_lt
      have hlt' := upstream.outputTokens.toNat_lt
      have hexact := writtenCounts_exact_iff (p := input.toNat) (c := output.toNat)
        (hprompt.trans (Nat.mod_eq_of_lt (by omega)).symm)
        (hcompletion.trans (Nat.mod_eq_of_lt (by omega)).symm)
      simp only [Option.bind_eq_bind, Option.bind_some, husage, Option.getD_some, Option.pure_def,
        Option.some.injEq, Prod.mk.injEq, reduceCtorEq, false_or]
      rw [← hexact]
      constructor
      · intro h
        have hcounts := (h _ _ ⟨rfl, rfl⟩).2
        rw [usageCounts_usageValue upstream.inputTokens upstream.outputTokens
          (by simp [Json.get])] at hcounts
        exact Option.some.inj hcounts
      · rintro h reply usage ⟨rfl, rfl⟩
        refine ⟨?_, ?_⟩
        · intro u hu
          obtain rfl := Option.some.inj hu
          exact ⟨hprompt, hcompletion⟩
        · rw [usageCounts_usageValue upstream.inputTokens upstream.outputTokens
            (by simp [Json.get]), h]

/-- A count of more than 32 bits is refused by the decoder. -/
theorem decode_eq_none_of_large {v : Json} {input output : UInt64}
    (hinput : countAt v ["usage", "input_tokens"] = some input)
    (houtput : countAt v ["usage", "output_tokens"] = some output)
    (hlarge : 2 ^ 32 ≤ input.toNat ∨ 2 ^ 32 ≤ output.toNat) :
    AnthropicResponse.decode v = none := by
  cases hdecode : AnthropicResponse.decode v with
  | none => rfl
  | some response =>
      obtain ⟨usage, -, hprompt, hcompletion⟩ := decode_counts hdecode hinput houtput
      have := usage.inputTokens.toNat_lt
      have := usage.outputTokens.toNat_lt
      omega

/-- The counts of a stream so far, as the events gave them. -/
structure Tally where
  input : ℕ
  output : ℕ
  deriving DecidableEq, Repr

def Tally.after (lib : Externals) (n : Tally) (event : SseEvent) : Tally :=
  match lib.fromSlice (asBytes event.data) with
  | none => n
  | some data =>
      match AnthropicTransform.kindOf event with
      | .messageStart => { n with
          input := ((countAt data ["message", "usage", "input_tokens"]).map UInt64.toNat).getD n.input }
      | .messageDelta => { n with
          output := ((countAt data ["usage", "output_tokens"]).map UInt64.toNat).getD n.output }
      | _ => n

def tally (lib : Externals) (events : List SseEvent) : Tally :=
  events.foldl (Tally.after lib) ⟨0, 0⟩

/-- The transform has the tally, each count cut to 32 bits. -/
def Holds (t : AnthropicTransform) (n : Tally) : Prop :=
  t.inputTokens.toNat = n.input % 2 ^ 32 ∧ t.outputTokens.toNat = n.output % 2 ^ 32

/-- A new count replaces the old one on both sides. -/
theorem cut_getD {o : Option UInt64} {old : UInt32} {n : ℕ} (h : old.toNat = n % 2 ^ 32) :
    ((o.map UInt64.toUInt32).getD old).toNat = ((o.map UInt64.toNat).getD n) % 2 ^ 32 := by
  cases o with
  | none => exact h
  | some m => exact toNat_cut m

theorem holds_process (lib : Externals) {t : AnthropicTransform} {n : Tally} (h : Holds t n)
    (event : SseEvent) : Holds (t.process lib event).1 (n.after lib event) := by
  obtain ⟨hinput, houtput⟩ := h
  unfold AnthropicTransform.process Tally.after
  cases lib.fromSlice (asBytes event.data) with
  | none => exact ⟨hinput, houtput⟩
  | some data =>
      cases AnthropicTransform.kindOf event with
      | messageStart => exact ⟨cut_getD hinput, houtput⟩
      | messageDelta => exact ⟨hinput, cut_getD houtput⟩
      | contentBlockDelta =>
          dsimp only
          split_ifs
          · split <;> exact ⟨hinput, houtput⟩
          · exact ⟨hinput, houtput⟩
      | other => exact ⟨hinput, houtput⟩

theorem holds_processAll {lib : Externals} {t : AnthropicTransform} {n : Tally} (h : Holds t n)
    (events : List SseEvent) :
    Holds (t.processAll lib events).1 (events.foldl (Tally.after lib) n) := by
  induction events generalizing t n with
  | nil => exact h
  | cons event events ih => exact ih (holds_process lib h event)

/-- The event is one after which usage is reported. -/
def Reports (lib : Externals) (event : SseEvent) : Prop :=
  AnthropicTransform.kindOf event = .messageDelta ∧
    (lib.fromSlice (asBytes event.data)).isSome = true

/-- The counts among the chunks of one event. -/
theorem usageCounts_process (lib : Externals) (t : AnthropicTransform) (event : SseEvent) :
    (Reports lib event ∧ (t.process lib event).2.filterMap usageCounts =
        [writtenCounts (t.process lib event).1.inputTokens (t.process lib event).1.outputTokens]) ∨
      (¬ Reports lib event ∧ (t.process lib event).2.filterMap usageCounts = []) := by
  unfold Reports AnthropicTransform.process
  cases lib.fromSlice (asBytes event.data) with
  | none => exact .inr ⟨by simp, rfl⟩
  | some data =>
      cases AnthropicTransform.kindOf event with
      | messageStart => exact .inr ⟨by simp, by simp⟩
      | messageDelta => exact .inl ⟨by simp, by simp [List.filterMap_cons]⟩
      | contentBlockDelta =>
          refine .inr ⟨by simp, ?_⟩
          dsimp only
          split_ifs
          · split <;> simp
          · rfl
      | other => exact .inr ⟨by simp, rfl⟩

section
variable {lib : Externals} {t : AnthropicTransform} {n : Tally}

/-- No count was lost, exactly if both counts are of 32 bits. -/
theorem kept_iff (h : Holds t n) :
    (t.inputTokens.toNat = n.input ∧ t.outputTokens.toNat = n.output) ↔
      n.input < 2 ^ 32 ∧ n.output < 2 ^ 32 := by
  obtain ⟨hinput, houtput⟩ := h
  rw [hinput, houtput]
  omega

/-- An event reports the tally exactly if the total is of 32 bits, or nothing. -/
theorem process_reports_iff (h : Holds t n) (event : SseEvent) :
    (∀ chunk ∈ (t.process lib event).2, ∀ counts, usageCounts chunk = some counts →
      counts = ((n.after lib event).input, (n.after lib event).output,
        (n.after lib event).input + (n.after lib event).output)) ↔
    (Reports lib event →
      (n.after lib event).input + (n.after lib event).output < 2 ^ 32) := by
  obtain ⟨hinput, houtput⟩ := holds_process lib h event
  have hall : (∀ chunk ∈ (t.process lib event).2, ∀ counts, usageCounts chunk = some counts →
      counts = ((n.after lib event).input, (n.after lib event).output,
        (n.after lib event).input + (n.after lib event).output)) ↔
      ∀ counts ∈ (t.process lib event).2.filterMap usageCounts,
        counts = ((n.after lib event).input, (n.after lib event).output,
          (n.after lib event).input + (n.after lib event).output) := by
    simp only [List.mem_filterMap]
    exact ⟨fun h counts ⟨chunk, hchunk, hcounts⟩ => h chunk hchunk counts hcounts,
      fun h chunk hchunk counts hcounts => h counts ⟨chunk, hchunk, hcounts⟩⟩
  rw [hall]
  rcases usageCounts_process lib t event with ⟨hreports, hcounts⟩ | ⟨hsilent, hcounts⟩
  · rw [hcounts, List.forall_mem_singleton, writtenCounts_exact_iff hinput houtput]
    simp [hreports]
  · rw [hcounts]
    simp [hsilent]

end

/-- For all bodies and streams whose usage has counts of up to 64 bits, each of the four
ways to report it gives what was counted, or nothing, exactly under the condition stated:
the extractors if both counts, or the only one, are of 32 bits, a translated message if it
does not decode or the total is of 32 bits, and an event of a stream if it reports nothing
or the total so far is of 32 bits. A message with a larger count does not decode. In a
stream a count is lost exactly if one is larger. -/
theorem counts_unaltered_iff (lib : Externals) :
    (∀ body v prompt completion, lib.fromSlice body = some v →
      countAt v ["usage", "prompt_tokens"] = some prompt →
      countAt v ["usage", "completion_tokens"] = some completion →
      (Unaltered (parseOpenaiUsage lib body) prompt completion ↔
        prompt.toNat < 2 ^ 32 ∧ completion.toNat < 2 ^ 32)) ∧
    (∀ body v prompt, lib.fromSlice body = some v →
      countAt v ["usage", "prompt_tokens"] = some prompt →
      countAt v ["usage", "completion_tokens"] = none →
      (Unaltered (parseOpenaiUsage lib body) prompt 0 ↔ prompt.toNat < 2 ^ 32)) ∧
    (∀ data v prompt completion, lib.fromSlice (asBytes data) = some v →
      countAt v ["usage", "prompt_tokens"] = some prompt →
      countAt v ["usage", "completion_tokens"] = some completion →
      (Unaltered (parseChunkUsage lib data) prompt completion ↔
        trim data = "[DONE]" ∨ prompt.toNat < 2 ^ 32 ∧ completion.toNat < 2 ^ 32)) ∧
    (∀ body v input output created, lib.fromSliceAs .anthropicResponse body = some v →
      countAt v ["usage", "input_tokens"] = some input →
      countAt v ["usage", "output_tokens"] = some output →
      ((∀ reply usage, toOpenaiResponse lib created body = some (reply, usage) →
        Unaltered (some usage) input output ∧
          usageCounts reply = some (input.toNat, output.toNat, input.toNat + output.toNat)) ↔
        AnthropicResponse.decode v = none ∨ input.toNat + output.toNat < 2 ^ 32) ∧
      (2 ^ 32 ≤ input.toNat ∨ 2 ^ 32 ≤ output.toNat → AnthropicResponse.decode v = none)) ∧
    ∀ idBytes created model events event,
      let t := ((AnthropicTransform.new idBytes created model).processAll lib events).1
      let n := tally lib events
      let n' := n.after lib event
      ((t.inputTokens.toNat = n.input ∧ t.outputTokens.toNat = n.output) ↔
        n.input < 2 ^ 32 ∧ n.output < 2 ^ 32) ∧
      ((∀ chunk ∈ (t.process lib event).2, ∀ counts, usageCounts chunk = some counts →
        counts = (n'.input, n'.output, n'.input + n'.output)) ↔
        (Reports lib event → n'.input + n'.output < 2 ^ 32)) := by
  refine ⟨fun body v prompt completion => parseOpenaiUsage_unaltered_iff,
    fun body v prompt => parseOpenaiUsage_promptOnly_iff,
    fun data v prompt completion => parseChunkUsage_unaltered_iff,
    fun body v input output created hread hinput houtput =>
      ⟨toOpenaiResponse_unaltered_iff hread hinput houtput created,
        decode_eq_none_of_large hinput houtput⟩, ?_⟩
  intro idBytes created model events event t n n'
  have hnew : Holds (AnthropicTransform.new idBytes created model) ⟨0, 0⟩ := ⟨rfl, rfl⟩
  have hholds : Holds t n := holds_processAll hnew events
  exact ⟨kept_iff hholds, process_reports_iff hholds event⟩

def usageBody (usage : List (String × Json)) : Json := .object [("usage", .object usage)]

/-- More prompt tokens than 32 bits can hold. -/
def largeUsage : Json :=
  usageBody [("completion_tokens", .number (.unsigned 1)),
    ("prompt_tokens", .number (.unsigned 4294967299))]

def completeUsage : Json :=
  usageBody [("completion_tokens", .number (.unsigned 2)),
    ("prompt_tokens", .number (.unsigned 7))]

/-- An object with a prompt count alone. -/
def promptOnly : Json := usageBody [("prompt_tokens", .number (.unsigned 7))]

def usageLib : Externals :=
  tableReader ([largeUsage, completeUsage, promptOnly].map fun v => (v.compact, v))

theorem usageLib_reads {v : Json} (h : v ∈ [largeUsage, completeUsage, promptOnly]) :
    usageLib.fromSlice (asBytes v.compact) = some v :=
  tableReader_reads (by decide +kernel) (List.mem_map.mpr ⟨v, h, rfl⟩)

/-- A prompt of 4294967299 tokens is reported as one of three, from a body and from a
stream event alike. -/
theorem large_count_reported_small :
    parseOpenaiUsage usageLib (asBytes largeUsage.compact) = some ⟨3, 1⟩ ∧
      parseChunkUsage usageLib largeUsage.compact = some ⟨3, 1⟩ ∧
      countAt largeUsage ["usage", "prompt_tokens"] = some 4294967299 ∧
      ¬ Unaltered (parseOpenaiUsage usageLib (asBytes largeUsage.compact)) 4294967299 1 := by
  have hbody : parseOpenaiUsage usageLib (asBytes largeUsage.compact) = some ⟨3, 1⟩ := by
    rw [parseOpenaiUsage_eq, usageLib_reads List.mem_cons_self]
    decide +kernel
  have hchunk : parseChunkUsage usageLib largeUsage.compact = some ⟨3, 1⟩ := by
    rw [parseChunkUsage_eq (by decide +kernel), usageLib_reads List.mem_cons_self]
    decide +kernel
  refine ⟨hbody, hchunk, by decide +kernel, fun h => ?_⟩
  exact absurd (h _ hbody).1 (by decide +kernel)

theorem usageLib_done (data : String) (h : trim data = "[DONE]") :
    usageLib.fromSlice (asBytes data) = none := by
  have hnone : ([largeUsage, completeUsage, promptOnly].map fun v => (v.compact, v)).find?
      (fun e => asBytes e.1 == asBytes data) = none := by
    rw [List.find?_eq_none]
    intro e he hbytes
    obtain ⟨v, hv, rfl⟩ := List.mem_map.mp he
    obtain rfl := asBytes_injective (eq_of_beq hbytes)
    refine StreamedCharges.trim_ne_done ?_ h
    simp only [List.mem_cons, List.not_mem_nil, or_false] at hv
    rcases hv with rfl | rfl | rfl
    all_goals exact StreamedCharges.compact_brace _
  rw [usageLib, tableReader]
  dsimp only
  rw [hnone]
  rfl

theorem extractors_agree_iff_complete :
    parseOpenaiUsage usageLib (asBytes completeUsage.compact) =
      parseChunkUsage usageLib completeUsage.compact :=
  (extractors_agree_iff usageLib_done
    (usageLib_reads (List.mem_cons_of_mem _ List.mem_cons_self))).mpr (by decide +kernel)

/-- Without a completion count the body has usage and the event has none. -/
theorem prompt_count_alone :
    parseOpenaiUsage usageLib (asBytes promptOnly.compact) = some ⟨7, 0⟩ ∧
      parseChunkUsage usageLib promptOnly.compact = none := by
  have hread : usageLib.fromSlice (asBytes promptOnly.compact) = some promptOnly :=
    usageLib_reads (by simp)
  constructor
  · rw [parseOpenaiUsage_eq, hread]
    decide +kernel
  · rw [parseChunkUsage_eq (by decide +kernel), hread]
    decide +kernel

end VaultplaneGateway.TokenCounts
