import Mathlib.Algebra.Order.Floor.Ring
import Mathlib.Data.Rat.Floor
import VaultplaneGateway.ProviderCalls
import VaultplaneGateway.TransitionRuns
import VaultplaneGateway.UsageTee

/-!
# The cost counter

What the handlers report of a completed request: a count, a duration and, if a cost is
known by then, that cost in cents. The cost is rounded to whole cents before it is
added, one request at a time, and a streamed reply is reported before its usage has
been seen. Costs are exact rationals here, floating-point numbers in the source.

The counter moves by the cost of a request only if that cost is a whole number of cents
known when the request completes. A run of such requests keeps the counter equal to the
money; every other request adds an error of its own, and errors add up.
-/
namespace VaultplaneGateway.CostMetrics
open WireFormats KeyRecords SpendTracking StreamUsage ProxyPipeline TransitionRuns EventStreams UsageTee

/-- The series of the metrics recorder that a completed request touches, by label. -/
structure Recorder where
  requestsTotal : String × String × UInt16 → UInt64
  requestDurationSeconds : String × String × CacheLabel → List ℚ
  costCentsTotal : String × String → UInt64

def Recorder.empty : Recorder := ⟨fun _ => 0, fun _ => [], fun _ => 0⟩

/-- `f64::round`: half away from zero. -/
def round (q : ℚ) : ℤ := if 0 ≤ q then ⌊q + 1 / 2⌋ else ⌈q - 1 / 2⌉

/-- `as u64` saturates at both ends. -/
def asU64 (i : ℤ) : UInt64 := UInt64.ofNat (min i.toNat (2 ^ 64 - 1))

/-- The cents a reported cost adds; one that is not positive adds none. -/
def addedCents : Option ℚ → UInt64
  | some cost => if 0 < cost then asU64 (round (cost * 100)) else 0
  | none => 0

/-- Counters are 64 bits wide and wrap. -/
def recordCompletion (m : Recorder) (provider model : String) (status : UInt16)
    (cacheLabel : CacheLabel) (durationSeconds : ℚ) (costUsd : Option ℚ) : Recorder where
  requestsTotal := Function.update m.requestsTotal (provider, model, status)
    (m.requestsTotal (provider, model, status) + 1)
  requestDurationSeconds := Function.update m.requestDurationSeconds (provider, model, cacheLabel)
    (m.requestDurationSeconds (provider, model, cacheLabel) ++ [durationSeconds])
  costCentsTotal :=
    let cents := addedCents costUsd
    if 0 < cents then
      Function.update m.costCentsTotal (provider, model) (m.costCentsTotal (provider, model) + cents)
    else m.costCentsTotal

/-- A reply of an upstream: the prices of the snapshot it was requested under, how its
body was read if it is streamed, and how long it took. The usage of a streamed reply is
open. -/
structure Served where
  pricing : Pricing
  upstream : ChatResponse
  stream : Bool
  polls : List Poll
  durationSeconds : ℚ
  unreported : stream = true → upstream.usage = none

/-- Such a reply is what a registry of connectors gives to a call. -/
def Served.ofCall {κ : Type} {env : ProviderCalls.Surroundings κ}
    {slow : ℕ → RuntimeBuilding.Connector κ → ConnectorCall → Bool}
    {registry : ModelRegistry.Registry (RuntimeBuilding.Connector κ)} (pricing : Pricing)
    (call : ConnectorCall) {upstream : ChatResponse}
    (h : (ProviderCalls.serve env slow registry call).result = some (.ok upstream))
    (polls : List Poll) (durationSeconds : ℚ) : Served where
  pricing := pricing
  upstream := upstream
  stream := ProviderCalls.streams call
  polls := polls
  durationSeconds := durationSeconds
  unreported := ProviderCalls.unreported_serve h

/-- The cost a handler knows when it reports: that of the usage the connector extracted. -/
def Served.costForMetrics (r : Served) : Option ℚ :=
  r.upstream.usage.bind (compute r.pricing r.upstream.provider r.upstream.model)

/-- The cost of a request: for a streamed one that of the first usage its observer sees. -/
def Served.cost (lib : Externals) (r : Served) : Option ℚ :=
  if r.stream then
    (firstUsage lib (chunkBytes r.polls)).bind (compute r.pricing r.upstream.provider r.upstream.model)
  else r.costForMetrics

def Served.label (r : Served) : String × String := (r.upstream.provider, r.upstream.model)

/-- Both handlers report the same way. -/
def complete (m : Recorder) (r : Served) : Recorder :=
  recordCompletion m r.upstream.provider r.upstream.model r.upstream.status .miss r.durationSeconds
    r.costForMetrics

/-- The cost of a streamed request is the one its observer charges to a limited key. -/
theorem streamed_cost_charged (lib : Externals) {r : Served} (h : r.stream = true)
    (keyId : String) (limit : SpendLimit) :
    (watch lib r.pricing (.new r.upstream.body keyId (some limit) r.upstream.provider
        r.upstream.model) r.polls).records =
      ((r.cost lib).map fun c => ⟨keyId, limit.period, c⟩).toList := by
  rw [new_records, Served.cost, if_pos h]
  cases firstUsage lib (chunkBytes r.polls) with
  | none => rfl
  | some usage =>
      simp only [Option.bind_some, recordCall]
      cases compute r.pricing r.upstream.provider r.upstream.model usage <;> rfl

theorem complete_cents (m : Recorder) (r : Served) (label : String × String) :
    (complete m r).costCentsTotal label =
      if label = r.label then m.costCentsTotal label + addedCents r.costForMetrics
      else m.costCentsTotal label := by
  unfold complete recordCompletion Served.label
  simp only
  split_ifs with hpos hlabel hlabel
  · rw [hlabel, Function.update_self]
  · rw [Function.update_of_ne hlabel]
  · have hzero : addedCents r.costForMetrics = 0 := UInt64.le_zero_iff.mp (UInt64.not_lt.mp hpos)
    rw [hzero, UInt64.add_zero]
  · rfl

theorem round_natCast (n : ℕ) : round (n : ℚ) = n := by
  have hfloor : ⌊(n : ℚ) + 1 / 2⌋ = (n : ℤ) := by
    rw [Int.floor_eq_iff]
    constructor <;> push_cast <;> linarith
  rw [round, if_pos (Nat.cast_nonneg n), hfloor]

theorem asU64_natCast {n : ℕ} (h : n < 2 ^ 64) : (asU64 n).toNat = n := by
  have hmin : min n (2 ^ 64 - 1) = n := min_eq_left (Nat.le_sub_one_of_lt h)
  rw [asU64, Int.toNat_natCast, hmin, UInt64.toNat_ofNat_of_lt' h]

theorem addedCents_whole {c : ℚ} {n : ℕ} (h : c * 100 = n) (hn : n < 2 ^ 64) :
    (addedCents (some c)).toNat = n := by
  simp only [addedCents]
  split_ifs with hc
  · rw [h, round_natCast, asU64_natCast hn]
  · have hzero : (n : ℚ) ≤ 0 := by linarith
    have hn0 : n = 0 := Nat.le_zero.mp (by exact_mod_cast hzero)
    rw [hn0]
    rfl

theorem costForMetrics_of_stream {r : Served} (h : r.stream = true) : r.costForMetrics = none := by
  rw [Served.costForMetrics, r.unreported h]
  rfl

/-- A streamed call leaves the cost counter where it is. -/
theorem ofCall_cents {κ : Type} {env : ProviderCalls.Surroundings κ}
    {slow : ℕ → RuntimeBuilding.Connector κ → ConnectorCall → Bool}
    {registry : ModelRegistry.Registry (RuntimeBuilding.Connector κ)} (m : Recorder)
    (pricing : Pricing) {call : ConnectorCall} (hstreams : ProviderCalls.streams call = true)
    {upstream : ChatResponse}
    (h : (ProviderCalls.serve env slow registry call).result = some (.ok upstream))
    (polls : List Poll) (durationSeconds : ℚ) :
    (complete m (.ofCall pricing call h polls durationSeconds)).costCentsTotal =
      m.costCentsTotal := by
  funext label
  rw [complete_cents, costForMetrics_of_stream hstreams]
  split_ifs
  · exact UInt64.add_zero _
  · rfl

/-- What a request must be for the counter to move by its cost: free, or buffered and
of a whole number of cents for which the counter has room. -/
def Exact (lib : Externals) (m : Recorder) (r : Served) : Prop :=
  ∀ c, r.cost lib = some c → c ≠ 0 →
    r.stream = false ∧ ∃ n : ℕ, c * 100 = n ∧ (m.costCentsTotal r.label).toNat + n < 2 ^ 64

theorem costForMetrics_of_buffered (lib : Externals) {r : Served} (h : r.stream = false) :
    r.costForMetrics = r.cost lib := by
  rw [Served.cost, h]
  rfl

/-- A free request adds nothing. -/
theorem addedCents_of_free {lib : Externals} {r : Served} (h : (r.cost lib).getD 0 = 0) :
    addedCents r.costForMetrics = 0 := by
  cases hs : r.stream with
  | true =>
      rw [costForMetrics_of_stream hs]
      rfl
  | false =>
      rw [costForMetrics_of_buffered lib hs]
      cases hc : r.cost lib with
      | none => rfl
      | some c =>
          rw [hc, Option.getD_some] at h
          simp [addedCents, h]

theorem Exact.whole {lib : Externals} {m : Recorder} {r : Served} (h : Exact lib m r) :
    ∃ n : ℕ, (addedCents r.costForMetrics).toNat = n ∧
      (m.costCentsTotal r.label).toNat + n < 2 ^ 64 ∧ 100 * (r.cost lib).getD 0 = n := by
  by_cases hfree : (r.cost lib).getD 0 = 0
  · refine ⟨0, ?_, (m.costCentsTotal r.label).toNat_lt, ?_⟩
    · rw [addedCents_of_free hfree]
      rfl
    · rw [hfree]
      simp
  · cases hc : r.cost lib with
    | none => simp [hc] at hfree
    | some c =>
        rw [hc, Option.getD_some] at hfree
        obtain ⟨hs, n, hn, hroom⟩ := h c hc hfree
        refine ⟨n, ?_, hroom, ?_⟩
        · rw [costForMetrics_of_buffered lib hs, hc]
          exact addedCents_whole hn (Nat.lt_of_le_of_lt (Nat.le_add_left n _) hroom)
        · rw [Option.getD_some, mul_comm, hn]

/-- A reading below the range that grows by `q` grows by a natural number. -/
theorem whole_of_grows {a b k : ℕ} {q : ℚ} (hq : 0 ≤ q) (hb : b < k) (h : (b : ℚ) = a + q) :
    ∃ n : ℕ, q = n ∧ a + n < k := by
  have hle : a ≤ b := by
    have : (a : ℚ) ≤ b := by linarith
    exact_mod_cast this
  obtain ⟨n, rfl⟩ := Nat.exists_eq_add_of_le hle
  refine ⟨n, ?_, hb⟩
  push_cast at h
  linarith

/-- The counter moves by the cost of a request exactly if the request meets the
condition. -/
theorem moves_iff_exact {lib : Externals} {m : Recorder} {r : Served}
    (hcost : ∀ c, r.cost lib = some c → 0 ≤ c) :
    (((complete m r).costCentsTotal r.label).toNat : ℚ) =
        (m.costCentsTotal r.label).toNat + 100 * (r.cost lib).getD 0 ↔
      Exact lib m r := by
  constructor
  · intro hmoves c hc hne
    rw [hc, Option.getD_some] at hmoves
    obtain ⟨n, hn, hroom⟩ := whole_of_grows (by linarith [hcost c hc])
      ((complete m r).costCentsTotal r.label).toNat_lt hmoves
    refine ⟨?_, n, by rw [mul_comm, hn], hroom⟩
    cases hs : r.stream with
    | false => rfl
    | true =>
        -- A streamed request is reported without its cost.
        rw [complete_cents, if_pos rfl, costForMetrics_of_stream hs, addedCents, UInt64.add_zero]
          at hmoves
        exact (hne (by linarith)).elim
  · intro h
    obtain ⟨n, hadded, hroom, hwhole⟩ := h.whole
    rw [complete_cents, if_pos rfl, UInt64.toNat_add, hadded, Nat.mod_eq_of_lt hroom, hwhole]
    push_cast
    rfl

/-- What the requests of a label cost. -/
def total (lib : Externals) (rs : List Served) (label : String × String) : ℚ :=
  (rs.map fun r => if label = r.label then (r.cost lib).getD 0 else 0).sum

/-- Every request of the run meets the condition in the state it completes in. -/
def AllExact (lib : Externals) (m : Recorder) (rs : List Served) : Prop :=
  ∀ before r after, rs = before ++ r :: after → Exact lib (run complete m before) r

theorem AllExact.cents {lib : Externals} {m : Recorder} {rs : List Served}
    (hcost : ∀ r ∈ rs, ∀ c, r.cost lib = some c → 0 ≤ c) (h : AllExact lib m rs)
    (label : String × String) :
    (((run complete m rs).costCentsTotal label).toNat : ℚ) =
      (m.costCentsTotal label).toNat + 100 * total lib rs label := by
  induction rs generalizing m with
  | nil => simp [total]
  | cons r rs ih =>
      have hfirst : Exact lib m r := h [] r rs rfl
      have hrest : AllExact lib (complete m r) rs := by
        rintro before r' after rfl
        exact h (r :: before) r' after rfl
      have hr := (moves_iff_exact (hcost r List.mem_cons_self)).mpr hfirst
      rw [run_cons, ih (fun r' hr' => hcost r' (List.mem_cons_of_mem r hr')) hrest]
      by_cases hlabel : label = r.label
      · rw [hlabel, hr]
        simp only [total, List.map_cons, List.sum_cons, if_true]
        ring
      · rw [complete_cents, if_neg hlabel]
        simp [total, hlabel]

/-- In a run of such requests the counter agrees with the money in every state reached. -/
theorem counter_tracks_cost (lib : Externals) {rs : List Served}
    (hcost : ∀ r ∈ rs, ∀ c, r.cost lib = some c → 0 ≤ c) (h : AllExact lib .empty rs)
    {done rest : List Served} (hrun : rs = done ++ rest) (label : String × String) :
    |(((run complete .empty done).costCentsTotal label).toNat : ℚ) -
        100 * total lib done label| ≤ 1 := by
  subst hrun
  have hdone : AllExact lib .empty done := by
    rintro before r after rfl
    exact h before r (after ++ rest) (by simp)
  have hcents := hdone.cents (fun r hr => hcost r (List.mem_append_left rest hr)) label
  have hempty : ((Recorder.empty.costCentsTotal label).toNat : ℚ) = 0 := by
    simp [Recorder.empty]
  rw [hcents, hempty, zero_add, sub_self, abs_zero]
  exact zero_le_one

/-- The error of a request adds up over its repetitions. -/
theorem repeated_drift (lib : Externals) (r : Served) (n : ℕ)
    (hroom : n * (addedCents r.costForMetrics).toNat < 2 ^ 64) :
    (((run complete .empty (List.replicate n r)).costCentsTotal r.label).toNat : ℚ) -
        100 * total lib (List.replicate n r) r.label =
      n * ((addedCents r.costForMetrics).toNat - 100 * (r.cost lib).getD 0) := by
  have hcents : ((run complete .empty (List.replicate n r)).costCentsTotal r.label).toNat =
      n * (addedCents r.costForMetrics).toNat := by
    induction n with
    | zero => simp [Recorder.empty]
    | succ n ih =>
        rw [Nat.succ_mul] at hroom ⊢
        rw [List.replicate_succ', run_append, run_cons, run_nil, complete_cents, if_pos rfl,
          UInt64.toNat_add, ih (by omega), Nat.mod_eq_of_lt hroom]
  rw [hcents, total, List.map_replicate, if_pos rfl, List.sum_replicate, nsmul_eq_mul]
  push_cast
  ring

section Pennies

/-- One dollar per thousand tokens. -/
def pennyPricing : Pricing where
  providers provider := if provider = "openai" then
    some fun model => if model = "gpt-4o" then some ⟨1, 1⟩ else none
    else none

/-- A buffered reply to a prompt of that many tokens. -/
def buffered (tokens : UInt32) : Served where
  pricing := pennyPricing
  upstream := ⟨200, some "application/json", [], "openai", "gpt-4o", some ⟨tokens, 0⟩, 1⟩
  stream := false
  polls := []
  durationSeconds := 1
  unreported := by simp

/-- The last chunk of a stream: a usage of twenty tokens. -/
def usageChunk : Json :=
  .object [("choices", .array []), ("usage", .object
    [("prompt_tokens", .number (.unsigned 20)), ("completion_tokens", .number (.unsigned 0))])]

/-- The only text that is read is that of the chunk. -/
def usageReader : Externals where
  sha256 := id
  fromSlice b := if b = asBytes usageChunk.compact then some usageChunk else none
  fromSliceAs _ _ := none
  parseRfc3339 _ := none

/-- A streamed reply whose one event carries the usage. -/
def streamed : Served where
  pricing := pennyPricing
  upstream := ⟨200, some "text/event-stream", [], "openai", "gpt-4o", none, 1⟩
  stream := true
  polls := [.ready (some (.ok (asBytes ("data: " ++ usageChunk.compact ++ "\n\n"))))]
  durationSeconds := 1
  unreported _ := rfl

theorem buffered_cost {tokens : UInt32} {n : ℕ} (h : tokens.toNat = n) :
    (buffered tokens).cost usageReader = some ((n : ℚ) / 1000) := by
  simp [Served.cost, Served.costForMetrics, buffered, compute, pennyPricing, h]

theorem streamed_cost : streamed.cost usageReader = some (1 / 50) := by
  have husage : firstUsage usageReader (chunkBytes streamed.polls) = some ⟨20, 0⟩ := by
    decide +kernel
  have htokens : UInt32.toNat 20 = 20 := rfl
  rw [Served.cost, if_pos (show streamed.stream = true from rfl), husage]
  simp only [Option.bind_some, streamed, compute, pennyPricing, if_true]
  norm_num [htokens]

theorem buffered_exact : AllExact usageReader .empty [buffered 30] := by
  intro before r after hsplit
  cases before with
  | nil =>
      obtain ⟨rfl, -⟩ := List.cons.inj hsplit
      intro c hc hne
      rw [buffered_cost (n := 30) rfl] at hc
      obtain rfl := Option.some.inj hc
      exact ⟨rfl, 3, by norm_num, by decide⟩
  | cons r' before =>
      obtain ⟨-, hnil⟩ := List.cons.inj hsplit
      simp at hnil

theorem counter_tracks_cost_buffered :
    AllExact usageReader .empty [buffered 30] ∧
      |(((run complete .empty [buffered 30]).costCentsTotal ("openai", "gpt-4o")).toNat : ℚ) -
        100 * total usageReader [buffered 30] ("openai", "gpt-4o")| ≤ 1 := by
  refine ⟨buffered_exact, counter_tracks_cost usageReader ?_ buffered_exact
    (List.append_nil _).symm ("openai", "gpt-4o")⟩
  intro r hr c hc
  rw [List.mem_singleton.mp hr, buffered_cost (n := 30) rfl] at hc
  obtain rfl := Option.some.inj hc
  positivity

/-- Three requests of four tenths of a cent each are all rounded away, and a streamed
request of two cents is not counted. -/
theorem pennies_lost :
    ¬ |(((run complete .empty (List.replicate 3 (buffered 4))).costCentsTotal
        ("openai", "gpt-4o")).toNat : ℚ) -
        100 * total usageReader (List.replicate 3 (buffered 4)) ("openai", "gpt-4o")| ≤ 1 ∧
    ¬ |(((run complete .empty (List.replicate 1 streamed)).costCentsTotal
        ("openai", "gpt-4o")).toNat : ℚ) -
        100 * total usageReader (List.replicate 1 streamed) ("openai", "gpt-4o")| ≤ 1 := by
  have hlabels : (buffered 4).label = ("openai", "gpt-4o") ∧ streamed.label = ("openai", "gpt-4o") :=
    ⟨rfl, rfl⟩
  constructor
  · have hround : round (2 / 5) = 0 := by
      rw [round, if_pos (by norm_num), Int.floor_eq_zero_iff]
      constructor <;> norm_num
    have hadded : addedCents (buffered 4).costForMetrics = 0 := by
      rw [costForMetrics_of_buffered usageReader rfl, buffered_cost (n := 4) rfl]
      norm_num [addedCents, hround]
      rfl
    have hdrift := repeated_drift usageReader (buffered 4) 3 (by rw [hadded]; decide)
    rw [hadded, buffered_cost (n := 4) rfl, hlabels.1] at hdrift
    rw [hdrift]
    norm_num
  · have hdrift := repeated_drift usageReader streamed 1 (by decide)
    rw [costForMetrics_of_stream rfl, streamed_cost, hlabels.2] at hdrift
    rw [hdrift]
    norm_num [addedCents]

end Pennies

end VaultplaneGateway.CostMetrics
