import VaultplaneGateway.RateLimiting
import Mathlib.Data.List.Chain

/-!
# The rate limiter as a window condition

A key that is always checked at one rate is held to exactly that rate. A call is
granted if and only if no window of calls that ends with it would, counting the call,
exceed the rate's allowance for the window. What follows: no stretch of time sees more
than its allowance, calls spaced by a token's refill time are never refused, and the
balance stays between zero and the capacity.
-/
namespace VaultplaneGateway.RateWindows
open TokenBucketLaw RateLimiting

/-- The limiter after a list of calls. -/
def after (l : RateLimiter) : List Call → RateLimiter
  | [] => l
  | c :: cs => after (l.check c.keyId c.rps c.now).1 cs

/-- Every bucket holds between nothing and its capacity. -/
def Bounded (l : RateLimiter) : Prop :=
  ∀ k b, l.buckets k = some b → 0 ≤ b.available ∧ b.available ≤ b.capacity

/-- Every bucket was built for some rate. -/
def Built (l : RateLimiter) : Prop :=
  ∀ k b, l.buckets k = some b → ∃ rps, TokenBucket.Serves b rps

theorem check_built {l : RateLimiter} (h : Built l) (k : String) (rps : UInt32) (now : ℚ) :
    Built (l.check k rps now).1 := by
  intro k' b hb
  by_cases hk : k' = k
  · subst hk
    rw [RateLimiter.check_buckets_self] at hb
    rw [← Option.some.inj hb]
    cases hold : l.buckets k' with
    | none => exact ⟨rps, TokenBucket.tryConsume_serves (TokenBucket.new_serves rps now) now⟩
    | some b₀ =>
        obtain ⟨r, hr⟩ := h k' b₀ hold
        exact ⟨r, TokenBucket.tryConsume_serves hr now⟩
  · rw [RateLimiter.check_buckets_ne l hk] at hb
    exact h k' b hb

theorem after_built {l : RateLimiter} (h : Built l) (cs : List Call) : Built (after l cs) := by
  induction cs generalizing l with
  | nil => exact h
  | cons c cs ih => exact ih (check_built h c.keyId c.rps c.now)

theorem after_bounded (cs : List Call) : Bounded (after RateLimiter.empty cs) := by
  have hbuilt : Built RateLimiter.empty := by
    intro k b hb
    cases hb
  intro k b hb
  obtain ⟨rps, hr⟩ := after_built hbuilt cs k b hb
  exact ⟨hr.sound.level_nonneg, hr.sound.level_le⟩

/-- Call `j` at `now`, counted with the calls granted before it, stays within the
allowance of every window that ends with it. -/
def WithinRate (r : UInt32) (es : List (Call × Bool)) (j : ℕ) (now : ℚ) : Prop :=
  ∀ i first, i ≤ j → es[i]? = some first →
    (granted ((es.take j).drop i) : ℚ) + 1 ≤ r.toNat + r.toNat * (now - first.1.now)

/-- The calls from `start` on for `T` seconds. -/
def during (start T : ℚ) (es : List (Call × Bool)) : List (Call × Bool) :=
  es.filter fun e => decide (start ≤ e.1.now ∧ e.1.now ≤ start + T)

section FullBucket

variable {b : TokenBucket} {r : UInt32} {cs : List Call}

theorem granted_iff_withinRate (hb : b.Serves r) (hfull : b.available = b.capacity)
    (hmono : (b.lastRefill :: cs.map Call.now).Pairwise (· ≤ ·)) {j : ℕ} {e : Call × Bool}
    (hj : (answersFrom (some b) cs)[j]? = some e) :
    e.2 = true ↔ WithinRate r (answersFrom (some b) cs) j e.1.now := by
  have htimes := map_now_answersFrom (some b) cs
  have hanswers := answersFrom_some b cs
  generalize answersFrom (some b) cs = es at hj htimes hanswers ⊢
  have htime : (cs.map Call.now)[j]? = some e.1.now := by
    rw [← htimes, List.getElem?_map, hj]
    rfl
  have hanswer : (b.toBucket.answers (cs.map Call.now))[j]? = some e.2 := by
    rw [← hanswers, List.getElem?_map, hj]
    rfl
  have hlaw := Bucket.answers_iff_windows (b := b.toBucket) hfull hb.sound.rate_nonneg hmono htime
  rw [hanswer, Option.some.injEq, show b.toBucket.capacity = r.toNat from hb.capacity_eq,
    show b.toBucket.rate = r.toNat from hb.refill_eq] at hlaw
  rw [hlaw, WithinRate]
  have hcount : ∀ i, (((b.toBucket.answers (cs.map Call.now)).take j).drop i).count true =
      granted ((es.take j).drop i) := by
    intro i
    rw [granted_eq_count, List.map_drop, List.map_take, hanswers]
  constructor
  · intro h i first hi hfirst
    rw [← hcount]
    apply h i first.1.now hi
    rw [← htimes, List.getElem?_map, hfirst]
    rfl
  · intro h i u hi hu
    rw [← htimes, List.getElem?_map] at hu
    obtain ⟨first, hfirst, rfl⟩ := Option.map_eq_some_iff.mp hu
    rw [hcount]
    exact h i first hi hfirst

theorem granted_during_le (hb : b.Serves r) (hmono : Chronological cs) (start : ℚ) {T : ℚ}
    (hT : 0 ≤ T) :
    (granted (during start T (answersFrom (some b) cs)) : ℚ) ≤ r.toNat + r.toNat * T := by
  have hlaw := Bucket.grantsWithin_le hb.sound (cs.map Call.now)
    (le_add_of_nonneg_right hT : start ≤ start + T) (List.pairwise_map.mpr hmono)
  rw [show b.toBucket.capacity = r.toNat from hb.capacity_eq,
    show b.toBucket.rate = r.toNat from hb.refill_eq, add_sub_cancel_left] at hlaw
  have hcount : granted (during start T (answersFrom (some b) cs)) =
      b.toBucket.grantsWithin (cs.map Call.now) start (start + T) := by
    have hzip : (answersFrom (some b) cs).map (fun e => (e.1.now, e.2)) =
        (cs.map Call.now).zip (b.toBucket.answers (cs.map Call.now)) := by
      rw [← answersFrom_some, ← map_now_answersFrom (some b) cs, List.zip_map']
    rw [Bucket.grantsWithin, ← hzip, List.countP_map, granted, during, List.countP_filter]
    rfl
  rw [hcount]
  exact hlaw

/-- The first call finds the bucket full, the others find the token they waited for. -/
theorem granted_of_spaced {c : Call} (hone : 1 ≤ r) (hmono : Chronological (c :: cs))
    (hgap : ((c :: cs).map Call.now).IsChain fun s t => 1 / (r.toNat : ℚ) ≤ t - s) :
    ∀ e ∈ answersFrom (some (TokenBucket.new r c.now)) (c :: cs), e.2 = true := by
  have hr : (1 : ℚ) ≤ r.toNat := Nat.one_le_cast.mpr (UInt32.le_iff_toNat_le.mp hone)
  have hpos : (0 : ℚ) < r.toNat := lt_of_lt_of_le one_pos hr
  let b := (TokenBucket.new r c.now).toBucket
  have hsound : b.Sound := (TokenBucket.new_serves r c.now).sound
  have hfirst : (b.offer c.now).2 = true := by
    have hlast : b.last ≤ c.now := le_rfl
    rw [Bucket.offer_granted_iff, Bucket.refill_level hlast, le_min_iff]
    have hgain : 0 ≤ b.rate * (c.now - b.last) :=
      mul_nonneg hsound.rate_nonneg (sub_nonneg.mpr hlast)
    exact ⟨le_add_of_le_of_nonneg hr hgain, hr⟩
  have hrest : ∀ a ∈ (b.offer c.now).1.answers (cs.map Call.now), a = true := by
    apply Bucket.answers_of_spaced (Bucket.offer_sound hsound c.now)
    · rw [Bucket.offer_capacity]
      exact hr
    · rw [Bucket.offer_last, Bucket.offer_rate]
      refine List.IsChain.imp ?_ hgap
      intro s t hst
      rwa [div_le_iff₀ hpos, mul_comm] at hst
    · rw [Bucket.offer_last]
      exact List.pairwise_map.mpr hmono
  intro e he
  have hmem : e.2 ∈ b.answers ((c :: cs).map Call.now) := by
    rw [← answersFrom_some]
    exact List.mem_map_of_mem he
  rcases List.mem_cons.mp hmem with heq | hmem
  · rw [heq, hfirst]
  · exact hrest _ hmem

end FullBucket

/-- The calls of a key with one rate: the first builds the bucket, and all are answered
by it. -/
theorem answersOf_one_rate {k : String} {r : UInt32} {cs : List Call}
    (hrate : ∀ c ∈ cs, c.keyId = k → c.rps = r) {c : Call} {ds : List Call}
    (hcalls : cs.filter (fun c => c.keyId == k) = c :: ds) :
    answersOf k cs = answersFrom (some (TokenBucket.new r c.now)) (c :: ds) := by
  have hc : c ∈ cs.filter fun c => c.keyId == k := hcalls ▸ List.mem_cons_self
  obtain ⟨hmem, hkey⟩ := List.mem_filter.mp hc
  have hr : c.rps = r := hrate c hmem (beq_iff_eq.mp hkey)
  rw [answersOf_eq, hcalls]
  simp only [answersFrom, Option.getD_none, Option.getD_some, hr]

/-- For a key checked at one rate, a call is granted exactly if it is within the rate.
Every stretch of `T` seconds sees at most `r + r * T` of the key's calls granted, calls
at least `1 / r` apart are all granted, and every balance stays in its bounds. -/
theorem bucket_enforces_rate (k : String) (r : UInt32) (hone : 1 ≤ r) (cs : List Call)
    (hmono : Chronological cs) (hrate : ∀ c ∈ cs, c.keyId = k → c.rps = r) :
    (∀ j e, (answersOf k cs)[j]? = some e →
        (e.2 = true ↔ WithinRate r (answersOf k cs) j e.1.now)) ∧
      (∀ start T, 0 ≤ T →
        (granted (during start T (answersOf k cs)) : ℚ) ≤ r.toNat + r.toNat * T) ∧
      (((answersOf k cs).IsChain fun e f => 1 / (r.toNat : ℚ) ≤ f.1.now - e.1.now) →
        ∀ e ∈ answersOf k cs, e.2 = true) ∧
      Bounded (after RateLimiter.empty cs) := by
  have hkeep : Chronological (cs.filter fun c => c.keyId == k) := hmono.sublist List.filter_sublist
  cases hcalls : cs.filter (fun c => c.keyId == k) with
  | nil =>
      have hnil : answersOf k cs = [] := by
        rw [answersOf_eq, hcalls]
        rfl
      rw [hnil]
      refine ⟨by simp, ?_, by simp, after_bounded cs⟩
      intro start T hT
      have hr : (0 : ℚ) ≤ r.toNat := Nat.cast_nonneg _
      simpa [during, granted] using add_nonneg hr (mul_nonneg hr hT)
  | cons c ds =>
      rw [hcalls] at hkeep
      have hbucket := TokenBucket.new_serves r c.now
      rw [answersOf_one_rate hrate hcalls]
      refine ⟨?_, ?_, ?_, after_bounded cs⟩
      · intro j e hj
        refine granted_iff_withinRate hbucket rfl ?_ hj
        have htimes : ((c :: ds).map Call.now).Pairwise (· ≤ ·) := List.pairwise_map.mpr hkeep
        refine List.pairwise_cons.mpr ⟨?_, htimes⟩
        intro t ht
        rcases List.mem_cons.mp ht with rfl | ht
        · exact le_rfl
        · exact (List.pairwise_cons.mp htimes).1 t ht
      · intro start T hT
        exact granted_during_le hbucket hkeep start hT
      · intro hgap
        apply granted_of_spaced hone hkeep
        rw [← map_now_answersFrom (some (TokenBucket.new r c.now)) (c :: ds)]
        exact (List.isChain_map _).mpr hgap

/-- Four calls at rate two: the third at one instant is refused, a second later there are
tokens again. -/
theorem bucket_enforces_rate_burst :
    let cs : List Call := [⟨"vp_k", 2, 0⟩, ⟨"vp_k", 2, 0⟩, ⟨"vp_k", 2, 0⟩, ⟨"vp_k", 2, 1⟩]
    (answersOf "vp_k" cs).map Prod.snd = [true, true, false, true] ∧
      (granted (during 0 1 (answersOf "vp_k" cs)) : ℚ) ≤ 2 + 2 * 1 :=
  ⟨by decide +kernel,
    (bucket_enforces_rate "vp_k" 2 (by decide) [⟨"vp_k", 2, 0⟩, ⟨"vp_k", 2, 0⟩, ⟨"vp_k", 2, 0⟩,
      ⟨"vp_k", 2, 1⟩] (by simp [Chronological]) (by simp)).2.1 0 1 zero_le_one⟩

end VaultplaneGateway.RateWindows
