import VaultplaneGateway.CivilCalendar
import VaultplaneGateway.KeyRecords
import Mathlib.Algebra.Order.Ring.Rat
import Mathlib.Tactic.Linarith

/-!
# The per-key spend tracker

A key has one entry: an integer token for the period the entry was last charged
in, and the dollars charged since the token last changed. The entry does not say
which kind of period the token encodes. Charging under another kind of period
replaces the token and drops the total, and the totals of two kinds of period
are confused whenever their tokens coincide.

Wall-clock instants are nanoseconds since the Unix epoch. The date type ends
with the year 9999, so no token wraps around its 64 bits.
-/
namespace VaultplaneGateway.SpendTracking
open KeyRecords CivilCalendar

/-- The UTC day of an instant, counted from 1970-01-01. -/
def utcDay (now : ℕ) : ℕ := now / 1000000000 / 86400

def currentPeriodToken (period : Period) (now : ℕ) : ℕ :=
  match period with
  | .day => utcDay now
  | .week => year (utcDay now) * 100 + isoWeek (utcDay now)
  | .month => year (utcDay now) * 100 + month (utcDay now)

structure SpendState where
  periodToken : ℕ
  cumulativeUsd : ℚ
  deriving DecidableEq, Repr

structure SpendTracker where
  entries : String → Option SpendState

namespace SpendTracker

def empty : SpendTracker := ⟨fun _ => none⟩

def preCheck (s : SpendTracker) (keyId : String) (limit : SpendLimit) (now : ℕ) : Bool :=
  match s.entries keyId with
  | some state =>
      if state.periodToken = currentPeriodToken limit.period now then
        state.cumulativeUsd < limit.amountUsd
      else true
  | none => true

def record (s : SpendTracker) (keyId : String) (period : Period) (cost : ℚ) (now : ℕ) :
    SpendTracker :=
  let token := currentPeriodToken period now
  let state := (s.entries keyId).getD ⟨token, 0⟩
  let state := if state.periodToken ≠ token then ⟨token, 0⟩ else state
  ⟨Function.update s.entries keyId
    (some { state with cumulativeUsd := state.cumulativeUsd + cost })⟩

def forget (s : SpendTracker) (keyId : String) : SpendTracker :=
  ⟨Function.update s.entries keyId none⟩

def currentUsd (s : SpendTracker) (keyId : String) (period : Period) (now : ℕ) : ℚ :=
  match s.entries keyId with
  | some state =>
      if state.periodToken = currentPeriodToken period now then state.cumulativeUsd else 0
  | none => 0

/-- The total an observer of `period` finds, when the entry bears its token. -/
def held (s : SpendTracker) (keyId : String) (period : Period) (now : ℕ) : Option ℚ :=
  (s.entries keyId).bind fun state =>
    if state.periodToken = currentPeriodToken period now then some state.cumulativeUsd else none

theorem preCheck_eq (s : SpendTracker) (k : String) (limit : SpendLimit) (now : ℕ) :
    s.preCheck k limit now = (s.held k limit.period now).all (· < limit.amountUsd) := by
  unfold preCheck held
  cases s.entries k with
  | none => rfl
  | some state =>
      simp only [Option.bind_some]
      split_ifs <;> rfl

theorem currentUsd_eq (s : SpendTracker) (k : String) (p : Period) (now : ℕ) :
    s.currentUsd k p now = (s.held k p now).getD 0 := by
  unfold currentUsd held
  cases s.entries k with
  | none => rfl
  | some state =>
      simp only [Option.bind_some]
      split_ifs <;> rfl

/-- A charge leaves the entry with the token of its own period, on top of what
the entry already held under that token. -/
theorem record_entry (s : SpendTracker) (k : String) (p : Period) (c : ℚ) (now : ℕ) :
    (s.record k p c now).entries k =
      some ⟨currentPeriodToken p now, (s.held k p now).getD 0 + c⟩ := by
  unfold record held
  cases s.entries k with
  | none => simp
  | some state =>
      by_cases h : state.periodToken = currentPeriodToken p now
      · simp [h]
      · simp [h]

theorem record_entry_ne (s : SpendTracker) {k k' : String} (h : k' ≠ k) (p : Period) (c : ℚ)
    (now : ℕ) : (s.record k p c now).entries k' = s.entries k' := by
  simp [record, h]

theorem held_record (s : SpendTracker) (k : String) (p q : Period) (c : ℚ) (now later : ℕ) :
    (s.record k p c now).held k q later =
      if currentPeriodToken p now = currentPeriodToken q later then
        some ((s.held k p now).getD 0 + c)
      else none := by
  unfold held
  rw [record_entry]
  rfl

theorem held_congr {s : SpendTracker} {p q : Period} {now later : ℕ} (k : String)
    (h : currentPeriodToken p now = currentPeriodToken q later) :
    s.held k p now = s.held k q later := by
  unfold held
  rw [h]

end SpendTracker

/-- A charge for `p` is invisible to every observer of period `q`: the reported
total and the gate for every amount answer as before. -/
def Unobserved (s : SpendTracker) (k : String) (p q : Period) (c : ℚ) (now : ℕ) : Prop :=
  (s.record k p c now).currentUsd k q now = s.currentUsd k q now ∧
    ∀ amount, (s.record k p c now).preCheck k ⟨amount, q⟩ now = s.preCheck k ⟨amount, q⟩ now

/-- Invisible to every amount means that what is held is unchanged: a held total
is found out by the amount equal to it. -/
theorem unobserved_iff_held (s : SpendTracker) (k : String) (p q : Period) (c : ℚ) (now : ℕ) :
    Unobserved s k p q c now ↔ (s.record k p c now).held k q now = s.held k q now := by
  unfold Unobserved
  simp only [SpendTracker.preCheck_eq, SpendTracker.currentUsd_eq]
  constructor
  · rintro ⟨husd, hgate⟩
    cases ha : (s.record k p c now).held k q now with
    | none =>
        cases hb : s.held k q now with
        | none => rfl
        | some y =>
            have := hgate y
            simp [ha, hb] at this
    | some x =>
        cases hb : s.held k q now with
        | none =>
            have := hgate x
            simp [ha, hb] at this
        | some y =>
            rw [ha, hb] at husd
            exact congrArg some husd
  · intro h
    rw [h]
    exact ⟨rfl, fun _ => rfl⟩

/-- The exact condition. Either the tokens of the two periods differ at the
instant of the charge and the entry does not bear the token of `q`, or the
tokens coincide, the entry already bears them, and nothing is charged. -/
theorem record_unobserved_iff (s : SpendTracker) (k : String) (p q : Period) (c : ℚ) (now : ℕ) :
    Unobserved s k p q c now ↔
      (currentPeriodToken p now ≠ currentPeriodToken q now ∧ s.held k q now = none) ∨
        (currentPeriodToken p now = currentPeriodToken q now ∧
          (s.held k q now).isSome ∧ c = 0) := by
  rw [unobserved_iff_held, SpendTracker.held_record]
  by_cases ht : currentPeriodToken p now = currentPeriodToken q now
  · rw [if_pos ht, SpendTracker.held_congr k ht]
    cases s.held k q now with
    | none => simp [ht]
    | some y => simp [ht]
  · rw [if_neg ht]
    constructor
    · intro h
      exact .inl ⟨ht, h.symm⟩
    · rintro (⟨-, h⟩ | ⟨h, -⟩)
      · exact h.symm
      · exact (ht h).elim

/-- Noon UTC on 2024-03-13, a Wednesday. -/
def march13 : ℕ := 1710331200000000000

/-- Five dollars are recorded for the week. -/
def weekSpent : SpendTracker := SpendTracker.empty.record "vp_k" .week 5 march13

/-- Five dollars of the week are gone after one dollar is charged for the day: a
weekly limit of five dollars, exhausted before, admits again. -/
theorem week_total_dropped_by_day_charge :
    ¬ Unobserved weekSpent "vp_k" .day .week 1 march13 ∧
      weekSpent.currentUsd "vp_k" .week march13 = 5 ∧
      (weekSpent.record "vp_k" .day 1 march13).currentUsd "vp_k" .week march13 = 0 ∧
      weekSpent.preCheck "vp_k" ⟨5, .week⟩ march13 = false ∧
      (weekSpent.record "vp_k" .day 1 march13).preCheck "vp_k" ⟨5, .week⟩ march13 = true :=
  ⟨fun h => absurd h.1 (by decide +kernel), by decide +kernel, by decide +kernel,
    by decide +kernel, by decide +kernel⟩

end VaultplaneGateway.SpendTracking
