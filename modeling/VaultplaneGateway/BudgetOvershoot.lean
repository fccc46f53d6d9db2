import VaultplaneGateway.PeriodTokens
import VaultplaneGateway.TransitionRuns
import Mathlib.Data.Finset.Card
import Mathlib.Algebra.BigOperators.Group.List.Basic
import Mathlib.Algebra.Order.BigOperators.Group.List

/-!
# Budget overshoot under concurrent requests

The spend gate and the charge are two atomic steps of the tracker with the whole
upstream call between them. One key with a fixed limit is followed through any
interleaving of these steps: requests of the key pass the gate, are charged at
most once or end without a charge, and requests of other keys are charged at any
time. The clock never runs backwards and at most `maxInFlight` requests of the
key are between their two steps.

The recorded total of a calendar period exceeds the limit by at most the cost of
the requests that were in flight. The tracker sees the calendar only through its
tokens. Day and month tokens identify days and months; a week token combines the
calendar year with the ISO week number, so the days of one ISO week on either
side of a New Year bear different tokens and two weeks of one year can share
one. For weekly limits the result therefore asks that the tokens of the instants
at which the tracker was used identify their weeks.
-/
namespace VaultplaneGateway.BudgetOvershoot
open KeyRecords SpendTracking CivilCalendar TransitionRuns

/-- The calendar period of an instant, numbered in order. -/
def periodIndex (p : Period) (now : ℕ) : ℕ :=
  match p with
  | .day => utcDay now
  | .week => weekIndex (utcDay now)
  | .month => monthIndex (utcDay now)

theorem utcDay_mono : Monotone utcDay :=
  fun _ _ h => Nat.div_le_div_right (Nat.div_le_div_right h)

theorem periodIndex_mono (p : Period) : Monotone (periodIndex p) := by
  intro a b h
  cases p with
  | day => exact utcDay_mono h
  | week => exact weekIndex_mono (utcDay_mono h)
  | month => exact monthIndex_mono (utcDay_mono h)

/-- Tokens of these instants are equal exactly within one calendar period. -/
def Identifies (p : Period) (ts : Set ℕ) : Prop :=
  ∀ a ∈ ts, ∀ b ∈ ts, currentPeriodToken p a = currentPeriodToken p b ↔
    periodIndex p a = periodIndex p b

/-- Only week tokens ever fail to identify their period. -/
theorem identifies_of_ne_week {p : Period} (hp : p ≠ .week) (ts : Set ℕ) :
    Identifies p ts := by
  intro a _ b _
  cases p with
  | day => rfl
  | week => exact (hp rfl).elim
  | month => exact (PeriodTokens.monthToken_eq_iff a b).trans (monthIndex_eq_iff _ _).symm

/-- The fixed data of one key: its limit, the largest cost of a request and the
number of its requests between gate and charge. -/
structure Budget where
  keyId : String
  limit : SpendLimit
  maxCost : ℚ
  maxInFlight : ℕ
  limit_nonneg : 0 ≤ limit.amountUsd
  maxCost_nonneg : 0 ≤ maxCost

/-- The most the key can have spent in a period. -/
def Budget.ceiling (B : Budget) : ℚ := B.limit.amountUsd + B.maxInFlight * B.maxCost

/-- A request passes the gate, is charged, or ends uncharged; `other` is a charge
to another key. -/
inductive Event where
  | preCheck (rid now : ℕ)
  | record (rid now : ℕ) (cost : ℚ)
  | finish (rid : ℕ)
  | other (keyId : String) (period : Period) (cost : ℚ) (now : ℕ)
  deriving DecidableEq, Repr

/-- The charges of the key, newest first, are kept beside the tracker. -/
structure State where
  tracker : SpendTracker
  inFlight : Finset ℕ
  clock : ℕ
  charges : List (ℕ × ℚ)

def initial : State := ⟨SpendTracker.empty, ∅, 0, []⟩

def next (B : Budget) (s : State) : Event → State
  | .preCheck rid now =>
      if s.tracker.preCheck B.keyId B.limit now then
        { s with inFlight := insert rid s.inFlight, clock := now }
      else { s with clock := now }
  | .record rid now cost =>
      { tracker := s.tracker.record B.keyId B.limit.period cost now
        inFlight := s.inFlight.erase rid
        clock := now
        charges := (now, cost) :: s.charges }
  | .finish rid => { s with inFlight := s.inFlight.erase rid }
  | .other keyId period cost now =>
      { s with tracker := s.tracker.record keyId period cost now }

/-- The clock moves forward, costs stay in range, only a request in flight is
charged or ends, and the gate admits no more than `maxInFlight` at a time. -/
def Enabled (B : Budget) (s : State) : Event → Prop
  | .preCheck rid now => s.clock ≤ now ∧ rid ∉ s.inFlight ∧
      (next B s (.preCheck rid now)).inFlight.card ≤ B.maxInFlight
  | .record rid now cost => s.clock ≤ now ∧ rid ∈ s.inFlight ∧ 0 ≤ cost ∧ cost ≤ B.maxCost
  | .finish rid => rid ∈ s.inFlight
  | .other keyId _ _ _ => keyId ≠ B.keyId

instance (B : Budget) (s : State) (e : Event) : Decidable (Enabled B s e) :=
  match e with
  | .preCheck _ _ => inferInstanceAs (Decidable (_ ∧ _ ∧ _))
  | .record _ _ _ => inferInstanceAs (Decidable (_ ∧ _ ∧ _ ∧ _))
  | .finish _ => inferInstanceAs (Decidable (_ ∈ _))
  | .other _ _ _ _ => inferInstanceAs (Decidable (_ ≠ _))

def Legal (B : Budget) : State → List Event → Prop
  | _, [] => True
  | s, e :: es => Enabled B s e ∧ Legal B (next B s e) es

instance instDecidableLegal (B : Budget) : (s : State) → (es : List Event) →
    Decidable (Legal B s es)
  | _, [] => inferInstanceAs (Decidable True)
  | s, e :: es =>
      have := instDecidableLegal B (next B s e) es
      inferInstanceAs (Decidable (_ ∧ _))

/-- The instants at which the key's requests used the tracker. -/
def instants : List Event → List ℕ
  | [] => []
  | .preCheck _ now :: es => now :: instants es
  | .record _ now _ :: es => now :: instants es
  | .finish _ :: es => instants es
  | .other _ _ _ _ :: es => instants es

/-- The costs charged in the calendar period of `now`. -/
def chargesIn (p : Period) (now : ℕ) (charges : List (ℕ × ℚ)) : List (ℕ × ℚ) :=
  charges.filter fun c => periodIndex p c.1 = periodIndex p now

def recordedTotal (p : Period) (now : ℕ) (charges : List (ℕ × ℚ)) : ℚ :=
  ((chargesIn p now charges).map Prod.snd).sum

theorem chargesIn_congr {p : Period} {a b : ℕ} (h : periodIndex p a = periodIndex p b)
    (charges : List (ℕ × ℚ)) : chargesIn p a charges = chargesIn p b charges := by
  unfold chargesIn
  rw [h]

theorem recordedTotal_cons (p : Period) (now : ℕ) (c : ℚ) (charges : List (ℕ × ℚ)) :
    recordedTotal p now ((now, c) :: charges) = recordedTotal p now charges + c := by
  simp [recordedTotal, chargesIn, add_comm]

/-- What a state knows of its history. The entry bears the token of the newest
charge and the total of that charge's calendar period. -/
structure Ledger (B : Budget) (ts : Set ℕ) (s : State) : Prop where
  known : ∀ c ∈ s.charges, c.1 ∈ ts
  past : ∀ c ∈ s.charges, c.1 ≤ s.clock
  newest : ∀ c ∈ s.charges.head?, ∀ d ∈ s.charges, d.1 ≤ c.1
  entry : s.tracker.entries B.keyId = s.charges.head?.map fun c =>
    ⟨currentPeriodToken B.limit.period c.1, recordedTotal B.limit.period c.1 s.charges⟩

/-- The tracker holds, for any instant not before the clock, exactly the total
of that instant's calendar period, and nothing when the period has no charge. -/
theorem Ledger.held_eq {B : Budget} {ts : Set ℕ} {s : State} (h : Ledger B ts s)
    (hid : Identifies B.limit.period ts) {now : ℕ} (hnow : s.clock ≤ now) (hts : now ∈ ts) :
    s.tracker.held B.keyId B.limit.period now =
      if chargesIn B.limit.period now s.charges = [] then none
      else some (recordedTotal B.limit.period now s.charges) := by
  unfold SpendTracker.held
  rw [h.entry]
  cases hc : s.charges with
  | nil => simp [chargesIn]
  | cons c cs =>
      have hmem : c ∈ s.charges := by simp [hc]
      simp only [List.head?_cons, Option.map_some, Option.bind_some]
      by_cases hp : periodIndex B.limit.period c.1 = periodIndex B.limit.period now
      · have hne : chargesIn B.limit.period now (c :: cs) ≠ [] := by simp [chargesIn, hp]
        rw [if_pos ((hid _ (h.known c hmem) _ hts).mpr hp), if_neg hne, recordedTotal,
          chargesIn_congr hp]
        rfl
      · -- A charge in the period of `now` would put the newest charge there too.
        have hnil : chargesIn B.limit.period now (c :: cs) = [] := by
          apply List.filter_eq_nil_iff.mpr
          intro d hd hd'
          have hd' : periodIndex B.limit.period d.1 = periodIndex B.limit.period now := by
            simpa using hd'
          have h₁ := h.newest c (by simp [hc]) d (hc ▸ hd)
          have h₂ := (h.past c hmem).trans hnow
          have h₃ := periodIndex_mono B.limit.period h₁
          have h₄ := periodIndex_mono B.limit.period h₂
          omega
        rw [if_neg (fun ht => hp ((hid _ (h.known c hmem) _ hts).mp ht)), if_pos hnil]

theorem Ledger.held_getD {B : Budget} {ts : Set ℕ} {s : State} (h : Ledger B ts s)
    (hid : Identifies B.limit.period ts) {now : ℕ} (hnow : s.clock ≤ now) (hts : now ∈ ts) :
    (s.tracker.held B.keyId B.limit.period now).getD 0 =
      recordedTotal B.limit.period now s.charges := by
  rw [h.held_eq hid hnow hts]
  split_ifs with hnil
  · simp [recordedTotal, hnil]
  · rfl

theorem Ledger.record {B : Budget} {ts : Set ℕ} {s : State} (h : Ledger B ts s)
    (hid : Identifies B.limit.period ts) {rid now : ℕ} {cost : ℚ} (hnow : s.clock ≤ now)
    (hts : now ∈ ts) : Ledger B ts (next B s (.record rid now cost)) where
  known := by
    intro c hc
    rcases List.mem_cons.mp hc with rfl | hc
    · exact hts
    · exact h.known c hc
  past := by
    intro c hc
    rcases List.mem_cons.mp hc with rfl | hc
    · exact le_rfl
    · exact (h.past c hc).trans hnow
  newest := by
    intro c hc d hd
    cases hc
    rcases List.mem_cons.mp hd with rfl | hd
    · exact le_rfl
    · exact (h.past d hd).trans hnow
  entry := by
    change (s.tracker.record B.keyId B.limit.period cost now).entries B.keyId = _
    rw [SpendTracker.record_entry, h.held_getD hid hnow hts, ← recordedTotal_cons]
    rfl

/-- Steps that leave the key's entry and charges alone keep the ledger. -/
theorem Ledger.of_same {B : Budget} {ts : Set ℕ} {s t : State} (h : Ledger B ts s)
    (he : t.tracker.entries B.keyId = s.tracker.entries B.keyId)
    (hc : t.charges = s.charges) (hclock : s.clock ≤ t.clock) : Ledger B ts t where
  known := hc ▸ h.known
  past c hm := (h.past c (hc ▸ hm)).trans hclock
  newest := hc ▸ h.newest
  entry := by rw [he, hc, h.entry]

/-- Either the current period is still below the limit, or every request in
flight, charged at the largest cost, still fits under the ceiling. -/
def Covered (B : Budget) (s : State) : Prop :=
  recordedTotal B.limit.period s.clock s.charges < B.limit.amountUsd ∨
    recordedTotal B.limit.period s.clock s.charges + s.inFlight.card * B.maxCost ≤ B.ceiling

structure Inv (B : Budget) (ts : Set ℕ) (s : State) : Prop where
  ledger : Ledger B ts s
  few : s.inFlight.card ≤ B.maxInFlight
  covered : Covered B s

theorem cost_le {B : Budget} {m n : ℕ} (h : m ≤ n) :
    (m : ℚ) * B.maxCost ≤ n * B.maxCost :=
  mul_le_mul_of_nonneg_right (Nat.cast_le.mpr h) B.maxCost_nonneg

/-- No charge can lie in a later calendar period than the clock's. -/
theorem Ledger.total_of_later {B : Budget} {ts : Set ℕ} {s : State} (h : Ledger B ts s)
    {now : ℕ} (hnow : s.clock ≤ now) :
    recordedTotal B.limit.period now s.charges =
        recordedTotal B.limit.period s.clock s.charges ∨
      chargesIn B.limit.period now s.charges = [] := by
  by_cases hp : periodIndex B.limit.period s.clock = periodIndex B.limit.period now
  · exact .inl (by rw [recordedTotal, recordedTotal, chargesIn_congr hp])
  · right
    apply List.filter_eq_nil_iff.mpr
    intro c hc hc'
    have hc' : periodIndex B.limit.period c.1 = periodIndex B.limit.period now := by
      simpa using hc'
    have h₁ := periodIndex_mono B.limit.period (h.past c hc)
    have h₂ := periodIndex_mono B.limit.period hnow
    omega

/-- Moving the clock can only empty the current period. -/
theorem Inv.covered_at {B : Budget} {ts : Set ℕ} {s : State} (h : Inv B ts s) {now : ℕ}
    (hnow : s.clock ≤ now) :
    recordedTotal B.limit.period now s.charges < B.limit.amountUsd ∨
      recordedTotal B.limit.period now s.charges + s.inFlight.card * B.maxCost ≤ B.ceiling := by
  rcases h.ledger.total_of_later hnow with hsame | hnil
  · rw [hsame]
    exact h.covered
  · right
    have hz : recordedTotal B.limit.period now s.charges = 0 := by simp [recordedTotal, hnil]
    have hcost := cost_le (B := B) h.few
    have hL := B.limit_nonneg
    rw [hz, Budget.ceiling]
    linarith

/-- The gate answers from the recorded total of the current calendar period. -/
theorem Inv.preCheck_iff {B : Budget} {ts : Set ℕ} {s : State} (h : Inv B ts s)
    (hid : Identifies B.limit.period ts) {now : ℕ} (hnow : s.clock ≤ now) (hts : now ∈ ts) :
    s.tracker.preCheck B.keyId B.limit now = true ↔
      chargesIn B.limit.period now s.charges = [] ∨
        recordedTotal B.limit.period now s.charges < B.limit.amountUsd := by
  rw [SpendTracker.preCheck_eq, h.ledger.held_eq hid hnow hts]
  split_ifs with hnil
  · simp [hnil]
  · simp [hnil]

theorem Inv.preCheck {B : Budget} {ts : Set ℕ} {s : State} (h : Inv B ts s)
    (hid : Identifies B.limit.period ts) {rid now : ℕ}
    (hen : Enabled B s (.preCheck rid now)) (hts : now ∈ ts) :
    Inv B ts (next B s (.preCheck rid now)) := by
  obtain ⟨hnow, hfresh, hfew⟩ := hen
  have hcov := h.covered_at hnow
  simp only [next] at hfew ⊢
  split_ifs at hfew ⊢ with hgate
  · refine ⟨h.ledger.of_same rfl rfl hnow, hfew, ?_⟩
    rcases (h.preCheck_iff hid hnow hts).mp hgate with hnil | hlt
    · right
      have hz : recordedTotal B.limit.period now s.charges = 0 := by simp [recordedTotal, hnil]
      have hcost := cost_le (B := B) hfew
      have hL := B.limit_nonneg
      change recordedTotal B.limit.period now s.charges + _ ≤ B.ceiling
      rw [hz, Budget.ceiling]
      linarith
    · exact .inl hlt
  · exact ⟨h.ledger.of_same rfl rfl hnow, h.few, hcov⟩

theorem Inv.record {B : Budget} {ts : Set ℕ} {s : State} (h : Inv B ts s)
    (hid : Identifies B.limit.period ts) {rid now : ℕ} {cost : ℚ}
    (hen : Enabled B s (.record rid now cost)) (hts : now ∈ ts) :
    Inv B ts (next B s (.record rid now cost)) := by
  obtain ⟨hnow, hmem, hcost₀, hcost⟩ := hen
  have hcard : (s.inFlight.erase rid).card + 1 = s.inFlight.card :=
    Finset.card_erase_add_one hmem
  refine ⟨h.ledger.record hid hnow hts, ?_, ?_⟩
  · change (s.inFlight.erase rid).card ≤ B.maxInFlight
    have := h.few
    omega
  · right
    change recordedTotal B.limit.period now ((now, cost) :: s.charges) +
      ((s.inFlight.erase rid).card : ℚ) * B.maxCost ≤ B.ceiling
    rw [recordedTotal_cons]
    -- The request that is charged gives up its own share of the ceiling.
    have hshare : ((s.inFlight.erase rid).card : ℚ) * B.maxCost + B.maxCost =
        s.inFlight.card * B.maxCost := by
      rw [← hcard, Nat.cast_succ, add_one_mul]
    rcases h.covered_at hnow with hlt | hle
    · have hfew := cost_le (B := B) h.few
      rw [Budget.ceiling]
      linarith
    · linarith

theorem Inv.step {B : Budget} {ts : Set ℕ} {s : State} (h : Inv B ts s)
    (hid : Identifies B.limit.period ts) (e : Event) (hen : Enabled B s e)
    (hts : ∀ t ∈ instants [e], t ∈ ts) : Inv B ts (next B s e) := by
  cases e with
  | preCheck rid now => exact h.preCheck hid hen (hts now (by simp [instants]))
  | record rid now cost => exact h.record hid hen (hts now (by simp [instants]))
  | finish rid =>
      have hcard : (s.inFlight.erase rid).card ≤ s.inFlight.card :=
        Finset.card_le_card (Finset.erase_subset _ _)
      refine ⟨h.ledger.of_same rfl rfl le_rfl, hcard.trans h.few, ?_⟩
      rcases h.covered with hlt | hle
      · exact .inl hlt
      · right
        have := cost_le (B := B) hcard
        change recordedTotal B.limit.period s.clock s.charges +
          ((s.inFlight.erase rid).card : ℚ) * B.maxCost ≤ B.ceiling
        linarith
  | other keyId period cost now =>
      refine ⟨h.ledger.of_same ?_ rfl le_rfl, h.few, h.covered⟩
      exact SpendTracker.record_entry_ne s.tracker (Ne.symm hen) period cost now

theorem initial_inv (B : Budget) (ts : Set ℕ) : Inv B ts initial where
  ledger := ⟨by simp [initial], by simp [initial], by simp [initial], rfl⟩
  few := Nat.zero_le _
  covered := by
    right
    have h := cost_le (B := B) (Nat.zero_le B.maxInFlight)
    have hL := B.limit_nonneg
    simp only [initial, recordedTotal, chargesIn, List.filter_nil, List.map_nil, List.sum_nil,
      Finset.card_empty, Budget.ceiling] at h ⊢
    linarith

theorem instants_cons (e : Event) (es : List Event) :
    instants (e :: es) = instants [e] ++ instants es := by
  cases e <;> rfl

/-- The invariant holds after every legal run whose instants have identifying
tokens. -/
theorem run_inv {B : Budget} {ts : Set ℕ} (hid : Identifies B.limit.period ts)
    (es : List Event) (s : State) (h : Inv B ts s) (hlegal : Legal B s es)
    (hts : ∀ t ∈ instants es, t ∈ ts) : Inv B ts (run (next B) s es) := by
  induction es generalizing s with
  | nil => exact h
  | cons e es ih =>
      rw [instants_cons] at hts
      rw [run_cons]
      apply ih _ _ hlegal.2
      · intro t ht
        exact hts t (List.mem_append_right _ ht)
      · exact h.step hid e hlegal.1 fun t ht => hts t (List.mem_append_left _ ht)

/-- After any interleaving, at any instant not before its last step, the tracker
holds the recorded total of the calendar period, that total is at most the
ceiling, and a request that finds a charge and a total at or above the limit is
not admitted. Weekly limits need the tokens in use to identify their weeks. -/
theorem overshoot_le_in_flight (B : Budget) (es : List Event) (hlegal : Legal B initial es)
    (now : ℕ) (hnow : (run (next B) initial es).clock ≤ now)
    (hweek : B.limit.period = .week → Identifies .week {t | t = now ∨ t ∈ instants es}) :
    let s := run (next B) initial es
    s.tracker.currentUsd B.keyId B.limit.period now =
        recordedTotal B.limit.period now s.charges ∧
      s.tracker.currentUsd B.keyId B.limit.period now ≤
        B.limit.amountUsd + B.maxInFlight * B.maxCost ∧
      ∀ rid, chargesIn B.limit.period now s.charges ≠ [] →
        B.limit.amountUsd ≤ recordedTotal B.limit.period now s.charges →
        (next B s (.preCheck rid now)).inFlight = s.inFlight := by
  intro s
  have hid : Identifies B.limit.period {t | t = now ∨ t ∈ instants es} := by
    by_cases hp : B.limit.period = .week
    · rw [hp]
      exact hweek hp
    · exact identifies_of_ne_week hp _
  have hinv : Inv B {t | t = now ∨ t ∈ instants es} s :=
    run_inv hid es initial (initial_inv B _) hlegal fun t ht => .inr ht
  have htotal : s.tracker.currentUsd B.keyId B.limit.period now =
      recordedTotal B.limit.period now s.charges := by
    rw [SpendTracker.currentUsd_eq]
    exact hinv.ledger.held_getD hid hnow (.inl rfl)
  refine ⟨htotal, ?_, ?_⟩
  · rw [htotal]
    have hzero : 0 ≤ (s.inFlight.card : ℚ) * B.maxCost :=
      mul_nonneg (Nat.cast_nonneg _) B.maxCost_nonneg
    have hfew := cost_le (B := B) hinv.few
    rcases hinv.covered_at hnow with hlt | hle
    · linarith
    · rw [Budget.ceiling] at hle
      linarith
  · intro rid hne hle
    have hshut : s.tracker.preCheck B.keyId B.limit now = false := by
      apply Bool.eq_false_iff.mpr
      intro hopen
      rcases (hinv.preCheck_iff hid hnow (.inl rfl)).mp hopen with hnil | hlt
      · exact hne hnil
      · exact absurd hle (not_le.mpr hlt)
    simp [next, hshut]

/-- A weekly limit of one dollar, requests of at most one dollar, one at a time. -/
def weeklyDollar : Budget where
  keyId := "vp_k"
  limit := ⟨1, .week⟩
  maxCost := 1
  maxInFlight := 1
  limit_nonneg := by decide +kernel
  maxCost_nonneg := by decide +kernel

/-- Noon UTC on the Tuesdays 2024-01-02, 2024-01-09 and 2024-12-31, and on the
Wednesday 2025-01-01. -/
def january2 : ℕ := 1704196800000000000
def january9 : ℕ := 1704801600000000000
def december31 : ℕ := 1735646400000000000
def newYear : ℕ := 1735732800000000000

/-- One dollar is spent on the last Tuesday of the year. -/
def yearEnd : List Event := [.preCheck 0 december31, .record 0 december31 1]

/-- A dollar and a half is spent in the first week of 2024. A request admitted in
the second week is charged on the last day of the year, whose ISO week number is
one again. -/
def longRequest : List Event :=
  [.preCheck 0 january2, .record 0 january2 (1 / 2), .preCheck 1 january2,
    .record 1 january2 1, .preCheck 2 january9, .record 2 december31 1]

/-- Both halves of the bound fail for week tokens. On New Year's Day a request is
admitted although the limit was spent the day before, in the same ISO week; and
the total held under a token that has come back exceeds the ceiling. -/
theorem week_tokens_break_budget :
    (Legal weeklyDollar initial yearEnd ∧
      weekIndex (utcDay december31) = weekIndex (utcDay newYear) ∧
      recordedTotal .week newYear (run (next weeklyDollar) initial yearEnd).charges = 1 ∧
      (next weeklyDollar (run (next weeklyDollar) initial yearEnd)
        (.preCheck 1 newYear)).inFlight = {1}) ∧
    Legal weeklyDollar initial longRequest ∧
      ¬ (run (next weeklyDollar) initial longRequest).tracker.currentUsd "vp_k" .week
        december31 ≤ weeklyDollar.limit.amountUsd +
          weeklyDollar.maxInFlight * weeklyDollar.maxCost := by
  decide +kernel

/-- Two Tuesday requests within one January week, charged half a dollar each:
the tokens identify the weeks and the bound applies. -/
theorem overshoot_le_in_flight_january :
    let es : List Event := [.preCheck 0 january2, .record 0 january2 (1 / 2)]
    let s := run (next weeklyDollar) initial es
    s.tracker.currentUsd "vp_k" .week january9 = recordedTotal .week january9 s.charges ∧
      s.tracker.currentUsd "vp_k" .week january9 ≤ (1 : ℚ) + (1 : ℕ) * 1 ∧
      ∀ rid, chargesIn .week january9 s.charges ≠ [] →
        1 ≤ recordedTotal .week january9 s.charges →
        (next weeklyDollar s (.preCheck rid january9)).inFlight = s.inFlight :=
  overshoot_le_in_flight weeklyDollar [.preCheck 0 january2, .record 0 january2 (1 / 2)]
    (by decide +kernel) january9 (by decide +kernel) fun _ => by
      have hinst : ∀ t, t = january9 ∨ t ∈ instants [.preCheck 0 january2,
          .record 0 january2 (1 / 2)] → t = january9 ∨ t = january2 := by
        intro t ht
        simpa [instants] using ht
      intro a ha b hb
      rcases hinst a ha with rfl | rfl <;> rcases hinst b hb with rfl | rfl <;> decide +kernel

end VaultplaneGateway.BudgetOvershoot
