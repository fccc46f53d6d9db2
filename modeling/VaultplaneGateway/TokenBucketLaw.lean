import Mathlib.Algebra.Order.Field.Basic
import Mathlib.Data.List.Pairwise
import Mathlib.Tactic.Linarith

/-!
# Token buckets over an ordered field

A bucket gains `rate` tokens per unit of time up to its capacity and pays one
token per granted offer. Time is an arbitrary ordered field; a clock reading
before the last refill adds nothing. The law is the usual window bound: a
sequence of offers whose times span `T` is granted at most `capacity + rate * T`
times, whatever the bucket did before. It is attained by a full bucket, which
grants a burst of its whole capacity at one instant.

The converse holds for a bucket that starts full: an offer is refused only if some
earlier window, counting the offer, would exceed the bound. The balance is the least
slack over all window starts.
-/
namespace VaultplaneGateway.TokenBucketLaw

variable {K : Type*} [Field K] [LinearOrder K]

structure Bucket (K : Type*) where
  capacity : K
  rate : K
  level : K
  last : K

namespace Bucket

/-- Tokens never run negative, never exceed the capacity, and never leak. -/
structure Sound (b : Bucket K) : Prop where
  rate_nonneg : 0 ≤ b.rate
  level_nonneg : 0 ≤ b.level
  level_le : b.level ≤ b.capacity

def refill (b : Bucket K) (now : K) : Bucket K :=
  { b with level := min (b.level + max 0 (now - b.last) * b.rate) b.capacity, last := now }

def offer (b : Bucket K) (now : K) : Bucket K × Bool :=
  if 1 ≤ (b.refill now).level then
    ({ b.refill now with level := (b.refill now).level - 1 }, true)
  else (b.refill now, false)

@[simp] theorem offer_capacity (b : Bucket K) (now : K) :
    (b.offer now).1.capacity = b.capacity := by
  unfold offer
  split_ifs <;> rfl

@[simp] theorem offer_rate (b : Bucket K) (now : K) : (b.offer now).1.rate = b.rate := by
  unfold offer
  split_ifs <;> rfl

@[simp] theorem offer_last (b : Bucket K) (now : K) : (b.offer now).1.last = now := by
  unfold offer
  split_ifs <;> rfl

/-- The answers of a bucket to offers at the given times, in order. -/
def answers (b : Bucket K) : List K → List Bool
  | [] => []
  | t :: ts => (b.offer t).2 :: (b.offer t).1.answers ts

def grants (b : Bucket K) (ts : List K) : ℕ := (b.answers ts).count true

/-- What one offer grants and what it leaves are paid for by the refilled level. -/
theorem offer_level (b : Bucket K) (now : K) :
    ((b.offer now).2.toNat : K) + (b.offer now).1.level = (b.refill now).level := by
  unfold offer
  split_ifs <;> simp

theorem offer_granted_iff (b : Bucket K) (now : K) :
    (b.offer now).2 = true ↔ 1 ≤ (b.refill now).level := by
  unfold offer
  split_ifs with h <;> simp [h]

theorem grants_cons (b : Bucket K) (t : K) (ts : List K) :
    b.grants (t :: ts) = (b.offer t).2.toNat + (b.offer t).1.grants ts := by
  unfold grants
  simp only [answers, List.count_cons, beq_true]
  cases (b.offer t).2 <;> simp [Nat.add_comm]

/-- The bucket after offers at the given times. -/
def after (b : Bucket K) : List K → Bucket K
  | [] => b
  | t :: ts => (b.offer t).1.after ts

theorem answers_take (b : Bucket K) (ts : List K) (j : ℕ) :
    (b.answers ts).take j = b.answers (ts.take j) := by
  induction ts generalizing b j with
  | nil => simp [answers]
  | cons t ts ih =>
      cases j with
      | zero => rfl
      | succ j => simp only [answers, List.take_succ_cons, ih]

theorem getElem?_answers (b : Bucket K) (ts : List K) (j : ℕ) :
    (b.answers ts)[j]? = ts[j]?.map fun t => ((b.after (ts.take j)).offer t).2 := by
  induction ts generalizing b j with
  | nil => simp [answers]
  | cons t ts ih =>
      cases j with
      | zero => rfl
      | succ j => simp only [answers, List.getElem?_cons_succ, List.take_succ_cons, after, ih]

/-- The grants at times from `lo` to `hi`. -/
def grantsWithin (b : Bucket K) (ts : List K) (lo hi : K) : ℕ :=
  (ts.zip (b.answers ts)).countP fun e => e.2 && decide (lo ≤ e.1 ∧ e.1 ≤ hi)

theorem grantsWithin_cons (b : Bucket K) (t : K) (ts : List K) (lo hi : K) :
    b.grantsWithin (t :: ts) lo hi =
      (b.offer t).1.grantsWithin ts lo hi +
        if lo ≤ t ∧ t ≤ hi then (b.offer t).2.toNat else 0 := by
  unfold grantsWithin
  rw [answers, List.zip_cons_cons, List.countP_cons]
  by_cases h : lo ≤ t ∧ t ≤ hi <;> cases (b.offer t).2 <;> simp [h]

theorem grantsWithin_of_late {b : Bucket K} {ts : List K} {lo hi : K} (h : ∀ t ∈ ts, hi < t) :
    b.grantsWithin ts lo hi = 0 := by
  apply List.countP_eq_zero.mpr
  intro e he
  have hlate : ¬ e.1 ≤ hi := not_le.mpr (h e.1 (List.of_mem_zip he).1)
  simp [hlate]

variable [IsStrictOrderedRing K]

theorem refill_sound {b : Bucket K} (hb : b.Sound) (now : K) : (b.refill now).Sound where
  rate_nonneg := hb.rate_nonneg
  level_nonneg := by
    have hgain : 0 ≤ max 0 (now - b.last) * b.rate :=
      mul_nonneg (le_max_left _ _) hb.rate_nonneg
    exact le_min (add_nonneg hb.level_nonneg hgain) (hb.level_nonneg.trans hb.level_le)
  level_le := min_le_right _ _

theorem offer_sound {b : Bucket K} (hb : b.Sound) (now : K) : (b.offer now).1.Sound := by
  have hr := refill_sound hb now
  unfold offer
  split_ifs with h
  · exact ⟨hr.rate_nonneg, sub_nonneg.mpr h, (sub_le_self _ zero_le_one).trans hr.level_le⟩
  · exact hr

theorem refill_level_le {b : Bucket K} (now : K) (hnow : b.last ≤ now) :
    (b.refill now).level ≤ b.level + b.rate * (now - b.last) := by
  have h : max 0 (now - b.last) = now - b.last := max_eq_right (sub_nonneg.mpr hnow)
  calc (b.refill now).level ≤ b.level + max 0 (now - b.last) * b.rate := min_le_left _ _
    _ = b.level + b.rate * (now - b.last) := by rw [h, mul_comm]

/-- The level after the last refill and the later gain pay for every grant. -/
theorem grants_le_level {b : Bucket K} (hb : b.Sound) (ts : List K) (T : K)
    (hmono : (b.last :: ts).Pairwise (· ≤ ·)) (hT : ∀ t ∈ b.last :: ts, t ≤ T) :
    (b.grants ts : K) ≤ b.level + b.rate * (T - b.last) := by
  induction ts generalizing b with
  | nil =>
      have hgap : 0 ≤ T - b.last := sub_nonneg.mpr (hT _ (by simp))
      have hgain := mul_nonneg hb.rate_nonneg hgap
      simpa [grants, answers] using add_nonneg hb.level_nonneg hgain
  | cons t ts ih =>
      have hbt : b.last ≤ t := (List.pairwise_cons.mp hmono).1 t (by simp)
      have htail := (List.pairwise_cons.mp hmono).2
      have hrest := ih (offer_sound hb t) (by simpa using htail)
        (by simpa using fun u hu => hT u (List.mem_cons_of_mem _ hu))
      simp only [offer_rate, offer_last] at hrest
      have hpaid := offer_level b t
      have hfill := refill_level_le t hbt
      rw [grants_cons, Nat.cast_add]
      linarith [mul_sub b.rate T t, mul_sub b.rate T b.last, mul_sub b.rate t b.last]

/-- The window bound: the first offer of the window finds at most a full bucket. -/
theorem grants_le_capacity {b : Bucket K} (hb : b.Sound) (t : K) (ts : List K) (T : K)
    (hmono : (t :: ts).Pairwise (· ≤ ·)) (hT : ∀ u ∈ t :: ts, u ≤ T) :
    (b.grants (t :: ts) : K) ≤ b.capacity + b.rate * (T - t) := by
  have hrest := grants_le_level (offer_sound hb t) ts T (by simpa using hmono)
    (by simpa using hT)
  simp only [offer_rate, offer_last] at hrest
  have hpaid := offer_level b t
  have hfull := (refill_sound hb t).level_le
  rw [grants_cons, Nat.cast_add]
  have hcap : (b.refill t).capacity = b.capacity := rfl
  linarith

/-- A burst at one instant is granted while a whole token is left, so a bucket
that has refilled grants its entire capacity at once. -/
theorem grants_replicate {b : Bucket K} (t : K) (n : ℕ) (hn : (n : K) ≤ (b.refill t).level) :
    b.grants (List.replicate n t) = n := by
  induction n generalizing b with
  | zero => rfl
  | succ n ih =>
      rw [Nat.cast_succ] at hn
      have hone : 1 ≤ (b.refill t).level := by linarith [(Nat.cast_nonneg n : (0 : K) ≤ n)]
      have hoff : b.offer t = ({ b.refill t with level := (b.refill t).level - 1 }, true) :=
        if_pos hone
      -- A second refill at the same instant adds nothing.
      have hlevel : ((b.offer t).1.refill t).level = (b.refill t).level - 1 := by
        have hcap : (b.refill t).level ≤ b.capacity := min_le_right _ _
        rw [hoff]
        change min ((b.refill t).level - 1 + max 0 (t - t) * b.rate) b.capacity = _
        rw [sub_self, max_self, zero_mul, add_zero]
        exact min_eq_left (by linarith)
      have hrest := ih (b := (b.offer t).1) (by rw [hlevel]; linarith)
      rw [List.replicate_succ, grants_cons, hrest, hoff, Bool.toNat_true, Nat.add_comm]

theorem refill_level {b : Bucket K} {t : K} (h : b.last ≤ t) :
    (b.refill t).level = min (b.level + b.rate * (t - b.last)) b.capacity := by
  have hgap : max 0 (t - b.last) = t - b.last := max_eq_right (sub_nonneg.mpr h)
  simp only [refill, hgap, mul_comm b.rate]

/-- What a later window asks of the balance left by an offer, asked of the two bounds
on that balance. -/
theorem tail_fits_iff {b : Bucket K} {s : K} (hs : b.last ≤ s) (ts : List K) (x t : K) :
    x + (b.offer s).1.grants ts ≤ (b.offer s).1.level + b.rate * (t - s) ↔
      x + b.grants (s :: ts) ≤ b.level + b.rate * (t - b.last) ∧
        x + b.grants (s :: ts) ≤ b.capacity + b.rate * (t - s) := by
  have hpaid := offer_level b s
  have hsplit : x + (b.offer s).1.grants ts ≤ (b.offer s).1.level + b.rate * (t - s) ↔
      x + b.grants (s :: ts) - b.rate * (t - s) ≤ (b.refill s).level := by
    rw [grants_cons, Nat.cast_add]
    constructor <;> intro h <;> linarith
  have htime : b.rate * (s - b.last) + b.rate * (t - s) = b.rate * (t - b.last) := by
    rw [← mul_add, add_comm, sub_add_sub_cancel]
  rw [hsplit, refill_level hs, le_min_iff]
  constructor
  · rintro ⟨h₁, h₂⟩
    exact ⟨by linarith, by linarith⟩
  · rintro ⟨h₁, h₂⟩
    exact ⟨by linarith, by linarith⟩

/-- After any offers the refilled level is at least `x` exactly if `x` and the grants
of every window that ends now fit under that window's bound. The window that starts
with the bucket has the initial level in place of the capacity. -/
theorem le_refill_after_iff (b : Bucket K) (ts : List K) (x t : K)
    (hmono : (b.last :: ts ++ [t]).Pairwise (· ≤ ·)) :
    x ≤ ((b.after ts).refill t).level ↔
      x ≤ b.capacity ∧ x + b.grants ts ≤ b.level + b.rate * (t - b.last) ∧
        ∀ i u, ts[i]? = some u →
          x + (((b.answers ts).drop i).count true : K) ≤ b.capacity + b.rate * (t - u) := by
  induction ts generalizing b with
  | nil =>
      have hlast : b.last ≤ t := (List.pairwise_cons.mp hmono).1 t (by simp)
      simp only [after, refill_level hlast, le_min_iff, grants, answers, List.count_nil,
        Nat.cast_zero, add_zero, List.getElem?_nil, reduceCtorEq, false_implies, implies_true,
        and_true]
      exact and_comm
  | cons s ts ih =>
      have hs : b.last ≤ s := (List.pairwise_cons.mp hmono).1 s (by simp)
      have hrest := ih (b.offer s).1 (by simpa using (List.pairwise_cons.mp hmono).2)
      simp only [offer_capacity, offer_rate, offer_last] at hrest
      rw [after, hrest, tail_fits_iff hs]
      constructor
      · rintro ⟨hx, ⟨hfirst, hzero⟩, hlater⟩
        refine ⟨hx, hfirst, ?_⟩
        intro i u hu
        cases i with
        | zero =>
            obtain rfl : s = u := by simpa using hu
            exact hzero
        | succ i => exact hlater i u (by simpa using hu)
      · rintro ⟨hx, hfirst, hall⟩
        exact ⟨hx, ⟨hfirst, hall 0 s rfl⟩, fun i u hu => hall (i + 1) u (by simpa using hu)⟩

/-- In a bucket that starts full the window of the first offer is at least as tight as
the one that starts with the bucket. -/
theorem first_window_fits {b : Bucket K} (hfull : b.level = b.capacity) (hrate : 0 ≤ b.rate)
    {ts : List K} {x t : K} (hmono : (b.last :: ts ++ [t]).Pairwise (· ≤ ·)) (hx : x ≤ b.capacity)
    (hall : ∀ i u, ts[i]? = some u →
      x + (((b.answers ts).drop i).count true : K) ≤ b.capacity + b.rate * (t - u)) :
    x + b.grants ts ≤ b.level + b.rate * (t - b.last) := by
  have hlast : ∀ u ∈ ts ++ [t], b.last ≤ u := (List.pairwise_cons.mp hmono).1
  rw [hfull, grants]
  cases ts with
  | nil =>
      have hwait : 0 ≤ b.rate * (t - b.last) :=
        mul_nonneg hrate (sub_nonneg.mpr (hlast t (by simp)))
      simp only [answers, List.count_nil, Nat.cast_zero]
      linarith
  | cons s ts =>
      have hs := hall 0 s rfl
      have hgain : b.rate * (t - s) ≤ b.rate * (t - b.last) :=
        mul_le_mul_of_nonneg_left (sub_le_sub_left (hlast s (by simp)) t) hrate
      rw [List.drop_zero] at hs
      linarith

/-- A bucket that starts full answers offer `j` by the windows that end with it: it is
granted exactly if no window, counting the offer, exceeds its bound. -/
theorem answers_iff_windows {b : Bucket K} (hfull : b.level = b.capacity) (hrate : 0 ≤ b.rate)
    {ts : List K} (hmono : (b.last :: ts).Pairwise (· ≤ ·)) {j : ℕ} {t : K}
    (hj : ts[j]? = some t) :
    (b.answers ts)[j]? = some true ↔
      ∀ i u, i ≤ j → ts[i]? = some u →
        ((((b.answers ts).take j).drop i).count true : K) + 1 ≤ b.capacity + b.rate * (t - u) := by
  have hpre : (b.last :: ts.take j ++ [t]).Pairwise (· ≤ ·) := by
    have hcut : ts.take j ++ [t] = ts.take (j + 1) := by
      rw [List.take_add_one, hj]
      rfl
    rw [List.cons_append, hcut]
    exact hmono.sublist ((List.take_sublist _ _).cons_cons _)
  have hgrant : (b.answers ts)[j]? = some true ↔ 1 ≤ ((b.after (ts.take j)).refill t).level := by
    rw [getElem?_answers, hj, ← offer_granted_iff]
    simp
  have hnil : (b.answers (ts.take j)).drop j = [] := by
    rw [← answers_take, List.drop_take_self]
  rw [hgrant, le_refill_after_iff _ _ _ _ hpre, answers_take]
  constructor
  · rintro ⟨hone, -, hall⟩ i u hi hu
    rw [add_comm]
    rcases Nat.lt_or_eq_of_le hi with hlt | rfl
    · exact hall i u (by rw [List.getElem?_take_of_lt hlt, hu])
    · obtain rfl : t = u := Option.some.inj (hj.symm.trans hu)
      simpa [hnil] using hone
  · intro hall
    have hone : 1 ≤ b.capacity := by simpa [hnil] using hall j t le_rfl hj
    have hwindows : ∀ i u, (ts.take j)[i]? = some u →
        1 + (((b.answers (ts.take j)).drop i).count true : K) ≤ b.capacity + b.rate * (t - u) := by
      intro i u hu
      rw [List.getElem?_take] at hu
      split_ifs at hu with hlt
      rw [add_comm]
      exact hall i u hlt.le hu
    exact ⟨hone, first_window_fits hfull hrate hpre hone hwindows, hwindows⟩

/-- From any bucket on, the level and the gain until `hi` pay for the grants until then. -/
theorem grantsWithin_le_level {b : Bucket K} (hb : b.Sound) (ts : List K) (lo hi : K)
    (hmono : (b.last :: ts).Pairwise (· ≤ ·)) (hhi : b.last ≤ hi) :
    (b.grantsWithin ts lo hi : K) ≤ b.level + b.rate * (hi - b.last) := by
  induction ts generalizing b with
  | nil =>
      have hgain := mul_nonneg hb.rate_nonneg (sub_nonneg.mpr hhi)
      simpa [grantsWithin] using add_nonneg hb.level_nonneg hgain
  | cons t ts ih =>
      have hbt : b.last ≤ t := (List.pairwise_cons.mp hmono).1 t (by simp)
      have htail := (List.pairwise_cons.mp hmono).2
      rcases le_or_gt t hi with ht | ht
      · have hrest := ih (offer_sound hb t) (by simpa using htail) (by simpa using ht)
        simp only [offer_rate, offer_last] at hrest
        have hpaid := offer_level b t
        have hfill := refill_level_le t hbt
        have hcount : ((if lo ≤ t ∧ t ≤ hi then (b.offer t).2.toNat else 0 : ℕ) : K) ≤
            ((b.offer t).2.toNat : K) := by
          rw [Nat.cast_le]
          split_ifs <;> omega
        rw [grantsWithin_cons, Nat.cast_add]
        linarith [mul_sub b.rate hi t, mul_sub b.rate hi b.last, mul_sub b.rate t b.last]
      · have hlate : ∀ u ∈ t :: ts, hi < u := by
          intro u hu
          rcases List.mem_cons.mp hu with rfl | hu
          · exact ht
          · exact ht.trans_le ((List.pairwise_cons.mp htail).1 u hu)
        have hgain := mul_nonneg hb.rate_nonneg (sub_nonneg.mpr hhi)
        simpa [grantsWithin_of_late hlate] using add_nonneg hb.level_nonneg hgain

/-- A window of `hi - lo` seconds, wherever it lies, sees no more than a full bucket and
its gain. -/
theorem grantsWithin_le {b : Bucket K} (hb : b.Sound) (ts : List K) {lo hi : K} (hlo : lo ≤ hi)
    (hmono : ts.Pairwise (· ≤ ·)) :
    (b.grantsWithin ts lo hi : K) ≤ b.capacity + b.rate * (hi - lo) := by
  have hbound : 0 ≤ b.capacity + b.rate * (hi - lo) :=
    add_nonneg (hb.level_nonneg.trans hb.level_le)
      (mul_nonneg hb.rate_nonneg (sub_nonneg.mpr hlo))
  induction ts generalizing b with
  | nil => simpa [grantsWithin] using hbound
  | cons t ts ih =>
      have htail := (List.pairwise_cons.mp hmono).2
      by_cases hin : lo ≤ t ∧ t ≤ hi
      · have hrest := grantsWithin_le_level (offer_sound hb t) ts lo hi (by simpa using hmono)
          (by simpa using hin.2)
        simp only [offer_rate, offer_last] at hrest
        have hpaid := offer_level b t
        have hfull : (b.refill t).level ≤ b.capacity := (refill_sound hb t).level_le
        have hlate : b.rate * (hi - t) ≤ b.rate * (hi - lo) :=
          mul_le_mul_of_nonneg_left (sub_le_sub_left hin.1 hi) hb.rate_nonneg
        rw [grantsWithin_cons, if_pos hin, Nat.cast_add]
        linarith
      · have hrest := ih (offer_sound hb t) htail (by simpa using hbound)
        rw [grantsWithin_cons, if_neg hin, add_zero]
        simpa using hrest

/-- Offers that leave the bucket time to gain a token are all granted. -/
theorem answers_of_spaced {b : Bucket K} (hb : b.Sound) (hone : 1 ≤ b.capacity) {ts : List K}
    (hgap : (b.last :: ts).IsChain fun s t => 1 ≤ b.rate * (t - s))
    (hmono : (b.last :: ts).Pairwise (· ≤ ·)) : ∀ a ∈ b.answers ts, a = true := by
  induction ts generalizing b with
  | nil => simp [answers]
  | cons t ts ih =>
      obtain ⟨hfirst, hrest⟩ := List.isChain_cons_cons.mp hgap
      have hbt : b.last ≤ t := (List.pairwise_cons.mp hmono).1 t (by simp)
      have hgrant : (b.offer t).2 = true := by
        rw [offer_granted_iff, refill_level hbt, le_min_iff]
        exact ⟨by linarith [hb.level_nonneg], hone⟩
      intro a ha
      rcases List.mem_cons.mp ha with rfl | ha
      · exact hgrant
      · exact ih (offer_sound hb t) (by simpa using hone) (by simpa using hrest)
          (by simpa using (List.pairwise_cons.mp hmono).2) a ha

end Bucket

end VaultplaneGateway.TokenBucketLaw
