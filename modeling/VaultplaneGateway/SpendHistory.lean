import VaultplaneGateway.EpochCounters
import VaultplaneGateway.PeriodTokens
import VaultplaneGateway.TransitionRuns

/-!
# The spend tracker against the history of its calls

The tracker keeps one slot per key and resets it when it is next charged. A key that is
used with one kind of period, by day or by month, is nevertheless reported the sum of
what was charged to it in the current period since it was last forgotten. The slot is a
counter with the period tokens as epochs: tokens do not go back when the clock does not,
and equal tokens are equal periods.
-/
namespace VaultplaneGateway.SpendHistory
open KeyRecords CivilCalendar SpendTracking PeriodTokens EpochCounters TransitionRuns

/-- A call of the tracker at an instant. -/
inductive Op where
  | record (keyId : String) (period : Period) (cost : ℚ) (now : ℕ)
  | forget (keyId : String) (now : ℕ)
  | preCheck (keyId : String) (limit : SpendLimit) (now : ℕ)
  deriving DecidableEq, Repr

def Op.keyId : Op → String
  | .record k _ _ _ => k
  | .forget k _ => k
  | .preCheck k _ _ => k

def Op.now : Op → ℕ
  | .record _ _ _ t => t
  | .forget _ t => t
  | .preCheck _ _ t => t

/-- The period a call is made with. -/
def Op.period : Op → Option Period
  | .record _ p _ _ => some p
  | .forget _ _ => none
  | .preCheck _ limit _ => some limit.period

/-- The gate only reads. -/
def step (s : SpendTracker) : Op → SpendTracker
  | .record k p c t => s.record k p c t
  | .forget k _ => s.forget k
  | .preCheck _ _ _ => s

def Op.forgets (k : String) : Op → Bool
  | .forget k' _ => k' == k
  | _ => false

/-- The charge a call makes to `k`, with its instant. -/
def Op.charge (k : String) : Op → Option (ℕ × ℚ)
  | .record k' _ c t => if k' = k then some (t, c) else none
  | _ => none

/-- The charges to `k` after the last call that forgot it, oldest first. -/
def charges (k : String) (ops : List Op) : List (ℕ × ℚ) :=
  (ops.rtakeWhile fun op => !op.forgets k).filterMap (Op.charge k)

/-- The sum of the charges of the period that `now` lies in. -/
def spentIn (p : Period) (now : ℕ) (cs : List (ℕ × ℚ)) : ℚ :=
  ((cs.filter fun c => SamePeriod p c.1 now).map Prod.snd).sum

theorem charges_concat_forget {k : String} {op : Op} (h : op.forgets k = true) (ops : List Op) :
    charges k (ops ++ [op]) = [] := by
  rw [charges, List.rtakeWhile_concat_neg _ _ _ (by simp [h])]
  rfl

theorem charges_concat {k : String} {op : Op} (h : op.forgets k = false) (ops : List Op) :
    charges k (ops ++ [op]) = charges k ops ++ (op.charge k).toList := by
  rw [charges, List.rtakeWhile_concat_pos _ _ _ (by simp [h]), List.filterMap_append, charges]
  cases hc : op.charge k <;> simp [hc]

theorem Op.now_of_charge {k : String} {op : Op} {c : ℕ × ℚ} (h : op.charge k = some c) :
    op.now = c.1 := by
  cases op with
  | record k' p cost t =>
      simp only [Op.charge] at h
      split_ifs at h
      rw [← Option.some.inj h]
      rfl
  | forget k' t => cases h
  | preCheck k' limit t => cases h

/-- A charge that counts was made by a call of the history, at the charge's instant. -/
theorem now_of_mem_charges {k : String} {ops : List Op} {c : ℕ × ℚ} (h : c ∈ charges k ops) :
    ∃ op ∈ ops, op.now = c.1 := by
  obtain ⟨op, hop, hc⟩ := List.mem_filterMap.mp h
  exact ⟨op, (List.rtakeWhile_suffix _ _).subset hop, Op.now_of_charge hc⟩

/-- Calls for other keys neither charge nor forget `k`. -/
theorem charges_filter (k : String) (ops : List Op) :
    charges k (ops.filter fun op => op.keyId == k) = charges k ops := by
  induction ops using List.reverseRecOn with
  | nil => rfl
  | append_singleton ops op ih =>
      rw [List.filter_append]
      by_cases hk : op.keyId = k
      · have hkeep : [op].filter (fun op => op.keyId == k) = [op] := by simp [hk]
        rw [hkeep]
        cases hf : op.forgets k with
        | true => rw [charges_concat_forget hf, charges_concat_forget hf]
        | false => rw [charges_concat hf, charges_concat hf, ih]
      · have hdrop : [op].filter (fun op => op.keyId == k) = [] := by simp [hk]
        have hforgets : op.forgets k = false := by
          cases op with
          | forget k' t => exact beq_eq_false_iff_ne.mpr hk
          | record k' p c t => rfl
          | preCheck k' limit t => rfl
        have hcharge : op.charge k = none := by
          cases op with
          | record k' p c t => exact if_neg hk
          | forget k' t => rfl
          | preCheck k' limit t => rfl
        rw [hdrop, List.append_nil, ih, charges_concat hforgets, hcharge]
        simp

def toSlot (s : SpendState) : Slot ℕ ℚ := ⟨s.periodToken, s.cumulativeUsd⟩

theorem currentUsd_reading (s : SpendTracker) (k : String) (p : Period) (now : ℕ) :
    s.currentUsd k p now = reading ((s.entries k).map toSlot) (currentPeriodToken p now) := by
  unfold SpendTracker.currentUsd reading toSlot
  cases s.entries k <;> rfl

/-- A charge to the key is an addition to its slot. -/
theorem record_slot (s : SpendTracker) (k : String) (p : Period) (c : ℚ) (now : ℕ) :
    ((s.record k p c now).entries k).map toSlot =
      add ((s.entries k).map toSlot) (currentPeriodToken p now, c) := by
  rw [SpendTracker.record_entry, ← SpendTracker.currentUsd_eq, currentUsd_reading]
  rfl

/-- The log of the counter: charges by the token of their instant. -/
def tokenLog (p : Period) (cs : List (ℕ × ℚ)) : List (ℕ × ℚ) :=
  cs.map fun c => (currentPeriodToken p c.1, c.2)

/-- What the calls leave in the key's slot is what its charges add up to. -/
theorem run_slot {k : String} {p : Period} (ops : List Op)
    (hperiod : ∀ op ∈ ops, op.keyId = k → ∀ q ∈ op.period, q = p) :
    ((run step SpendTracker.empty ops).entries k).map toSlot = slotOf (tokenLog p (charges k ops)) := by
  induction ops using List.reverseRecOn with
  | nil => rfl
  | append_singleton ops op ih =>
      have hslot := ih fun op' hop => hperiod op' (List.mem_append_left _ hop)
      rw [run_append, run_cons, run_nil]
      cases op with
      | record k' q c t =>
          rw [charges_concat rfl]
          by_cases hk : k' = k
          · subst hk
            obtain rfl : q = p := hperiod (.record k' q c t) (by simp) rfl q rfl
            have hcharge : (Op.record k' q c t).charge k' = some (t, c) := if_pos rfl
            rw [step, record_slot, hslot, ← slotOf_concat, hcharge]
            simp [tokenLog]
          · have hcharge : (Op.record k' q c t).charge k = none := if_neg hk
            rw [step, SpendTracker.record_entry_ne _ (Ne.symm hk), hslot, hcharge]
            simp
      | forget k' t =>
          by_cases hk : k' = k
          · subst hk
            rw [charges_concat_forget (by simp [Op.forgets])]
            simp [step, SpendTracker.forget, tokenLog, slotOf]
          · have hforgets : (Op.forget k' t).forgets k = false := beq_eq_false_iff_ne.mpr hk
            rw [charges_concat hforgets]
            simpa [step, SpendTracker.forget, Ne.symm hk, Op.charge] using hslot
      | preCheck k' limit t =>
          rw [charges_concat rfl]
          simpa [step, Op.charge] using hslot

/-- The charges of a history in order are in order. -/
theorem charges_sorted (k : String) {ops : List Op} (hmono : ops.Pairwise fun a b => a.now ≤ b.now) :
    (charges k ops).Pairwise fun c d => c.1 ≤ d.1 := by
  have hsuffix := hmono.sublist (List.rtakeWhile_suffix (fun op => !op.forgets k) ops).sublist
  refine List.Pairwise.filterMap _ ?_ hsuffix
  intro a b hab c hc d hd
  rw [← Op.now_of_charge hc, ← Op.now_of_charge hd]
  exact hab

/-- Tokens of days and months do not go back. -/
theorem token_mono {p : Period} (hp : p ≠ .week) : Monotone (currentPeriodToken p) := by
  intro a b h
  have hday : utcDay a ≤ utcDay b := Nat.div_le_div_right (Nat.div_le_div_right h)
  cases p with
  | day => exact hday
  | week => exact (hp rfl).elim
  | month =>
      have hmonth := monthIndex_mono hday
      have hyear := yearIndex_mono hday
      have h₁ := one_le_month (utcDay a)
      have h₂ := month_le (utcDay a)
      have h₃ := one_le_month (utcDay b)
      have h₄ := month_le (utcDay b)
      simp only [currentPeriodToken, year]
      unfold monthIndex at hmonth
      omega

/-- Summing by token is summing by period. -/
theorem total_tokenLog {p : Period} (hp : p ≠ .week) (now : ℕ) (cs : List (ℕ × ℚ)) :
    total (currentPeriodToken p now) (tokenLog p cs) = spentIn p now cs := by
  unfold total tokenLog spentIn
  rw [List.filter_map, List.map_map]
  have hfilter : ((fun x : ℕ × ℚ => decide (x.1 = currentPeriodToken p now)) ∘
      fun c : ℕ × ℚ => (currentPeriodToken p c.1, c.2)) =
      fun c => decide (SamePeriod p c.1 now) := by
    funext c
    simp only [Function.comp_apply, token_eq_iff_of_ne_week hp]
  rw [hfilter]
  rfl

/-- The slot reports the charges of the current period. -/
theorem currentUsd_run {k : String} {p : Period} (hp : p ≠ .week) {ops : List Op}
    (hmono : ops.Pairwise fun a b => a.now ≤ b.now)
    (hperiod : ∀ op ∈ ops, op.keyId = k → ∀ q ∈ op.period, q = p) {now : ℕ}
    (hnow : ∀ op ∈ ops, op.now ≤ now) :
    (run step SpendTracker.empty ops).currentUsd k p now = spentIn p now (charges k ops) := by
  have hlog : (tokenLog p (charges k ops)).Pairwise fun x y => x.1 ≤ y.1 := by
    refine List.pairwise_map.mpr ((charges_sorted k hmono).imp ?_)
    intro c d hcd
    exact token_mono hp hcd
  have hlate : ∀ x ∈ tokenLog p (charges k ops), x.1 ≤ currentPeriodToken p now := by
    intro x hx
    obtain ⟨c, hc, rfl⟩ := List.mem_map.mp hx
    obtain ⟨op, hop, heq⟩ := now_of_mem_charges hc
    exact token_mono hp (heq ▸ hnow op hop)
  rw [currentUsd_reading, run_slot ops hperiod, reading_slotOf _ hlog hlate, total_tokenLog hp]

/-- After any calls in order, a key that is used with one period, by day or by month, is
reported what was charged to it in the current period since it was last forgotten. The
calls for other keys might as well not have been made. -/
theorem spend_accumulates_exactly (k : String) (p : Period) (hp : p ≠ .week) (ops : List Op)
    (hmono : ops.Pairwise fun a b => a.now ≤ b.now)
    (hperiod : ∀ op ∈ ops, op.keyId = k → ∀ q ∈ op.period, q = p) (now : ℕ)
    (hnow : ∀ op ∈ ops, op.now ≤ now) :
    (run step SpendTracker.empty ops).currentUsd k p now = spentIn p now (charges k ops) ∧
      (run step SpendTracker.empty (ops.filter fun op => op.keyId == k)).currentUsd k p now =
        spentIn p now (charges k ops) := by
  refine ⟨currentUsd_run hp hmono hperiod hnow, ?_⟩
  rw [← charges_filter]
  apply currentUsd_run hp (hmono.sublist List.filter_sublist)
  · intro op hop
    exact hperiod op (List.mem_filter.mp hop).1
  · intro op hop
    exact hnow op (List.mem_filter.mp hop).1

/-- Noon UTC on 2024-03-14. -/
def march14 : ℕ := march13 + 86400000000000

/-- Two charges on one day around a charge to another key; the day after, one more. -/
def twoDays : List Op :=
  [.record "vp_k" .day 3 march13, .record "vp_other" .week 7 march13,
    .preCheck "vp_k" ⟨10, .day⟩ march13, .record "vp_k" .day 2 march13,
    .record "vp_k" .day 1 march14]

theorem spend_accumulates_two_days :
    (run step SpendTracker.empty twoDays).currentUsd "vp_k" .day march14 = 1 ∧
      spentIn .day march13 (charges "vp_k" (twoDays.take 4)) = 5 := by
  have h := spend_accumulates_exactly "vp_k" .day (by decide) twoDays (by decide +kernel)
    (by decide +kernel) march14 (by decide +kernel)
  exact ⟨h.1.trans (by decide +kernel), by decide +kernel⟩

end VaultplaneGateway.SpendHistory
