import VaultplaneGateway.SpendTracking

/-!
# Period tokens and calendar periods

The tracker compares periods by integer tokens. A day token is the day, a month token
the year and the month. A week token is the ISO week number with the calendar year,
where the number goes with the year of the week's Thursday; the two years differ on
the days of a week that reaches over New Year. Such a token can be shared by the first
and the last days of one calendar year and can change within one week, and these are
the only failures.
-/
namespace VaultplaneGateway.PeriodTokens
open KeyRecords CivilCalendar SpendTracking

/-- Both instants lie in one UTC day, in one week from Monday to Sunday, or in one month
of one year. -/
def SamePeriod (p : Period) (a b : ℕ) : Prop :=
  match p with
  | .day => year (utcDay a) = year (utcDay b) ∧ dayOfYear (utcDay a) = dayOfYear (utcDay b)
  | .week => weekIndex (utcDay a) = weekIndex (utcDay b)
  | .month => year (utcDay a) = year (utcDay b) ∧ month (utcDay a) = month (utcDay b)

instance (p : Period) (a b : ℕ) : Decidable (SamePeriod p a b) :=
  match p with
  | .day => inferInstanceAs (Decidable (_ ∧ _))
  | .week => inferInstanceAs (Decidable (_ = _))
  | .month => inferInstanceAs (Decidable (_ ∧ _))

theorem monthToken_eq_iff (a b : ℕ) :
    currentPeriodToken .month a = currentPeriodToken .month b ↔
      year (utcDay a) = year (utcDay b) ∧ month (utcDay a) = month (utcDay b) := by
  have h₁ := month_le (utcDay a)
  have h₂ := month_le (utcDay b)
  simp only [currentPeriodToken]
  omega

theorem weekToken_eq_iff (a b : ℕ) :
    currentPeriodToken .week a = currentPeriodToken .week b ↔
      year (utcDay a) = year (utcDay b) ∧ isoWeek (utcDay a) = isoWeek (utcDay b) := by
  have h₁ := isoWeek_le (utcDay a)
  have h₂ := isoWeek_le (utcDay b)
  simp only [currentPeriodToken]
  omega

/-- Day and month tokens identify their periods. -/
theorem token_eq_iff_of_ne_week {p : Period} (hp : p ≠ .week) (a b : ℕ) :
    currentPeriodToken p a = currentPeriodToken p b ↔ SamePeriod p a b := by
  cases p with
  | day => exact eq_iff_year_dayOfYear _ _
  | week => exact (hp rfl).elim
  | month => exact monthToken_eq_iff a b

/-- Of two days with one ISO week number, calendar years and ISO years agree together
unless exactly one of the days strays and the two share one of the years. -/
theorem years_agree_iff {a b : ℕ} (hweek : isoWeek a = isoWeek b) :
    (year a = year b ↔ isoYear a = isoYear b) ↔
      (year a = year b ∨ isoYear a = isoYear b → (Strays a ↔ Strays b)) := by
  by_cases ha : Strays a
  · by_cases hb : Strays b
    · -- the shared week number says that both stray in the same direction
      rcases strays_cases ha with ⟨ha₁, ha₂⟩ | ⟨ha₁, ha₂⟩ <;>
        rcases strays_cases hb with ⟨hb₁, hb₂⟩ | ⟨hb₁, hb₂⟩ <;>
        simp only [ha, hb, iff_true, implies_true] <;> omega
    · have hb' : isoYear b = year b := not_not.mp hb
      rcases strays_cases ha with ⟨-, ha₂⟩ | ⟨-, ha₂⟩ <;>
        simp only [ha, hb, iff_false, not_true, imp_false, not_or] <;> omega
  · have ha' : isoYear a = year a := not_not.mp ha
    by_cases hb : Strays b
    · rcases strays_cases hb with ⟨-, hb₂⟩ | ⟨-, hb₂⟩ <;>
        simp only [ha, hb, iff_true, imp_false, not_or] <;> omega
    · have hb' : isoYear b = year b := not_not.mp hb
      simp only [ha, hb, ha', hb', implies_true]

/-- When the tokens of two instants tell whether they share a period. -/
theorem token_identifies_iff (p : Period) (a b : ℕ) :
    (currentPeriodToken p a = currentPeriodToken p b ↔ SamePeriod p a b) ↔
      (p = .week → isoWeek (utcDay a) = isoWeek (utcDay b) →
        year (utcDay a) = year (utcDay b) ∨ isoYear (utcDay a) = isoYear (utcDay b) →
          (Strays (utcDay a) ↔ Strays (utcDay b))) := by
  by_cases hp : p = .week
  · subst hp
    have hsame : SamePeriod .week a b ↔
        isoYear (utcDay a) = isoYear (utcDay b) ∧ isoWeek (utcDay a) = isoWeek (utcDay b) :=
      weekIndex_eq_iff _ _
    rw [weekToken_eq_iff, hsame]
    by_cases hweek : isoWeek (utcDay a) = isoWeek (utcDay b)
    · simpa [hweek] using years_agree_iff hweek
    · simp [hweek]
  · exact iff_of_true (token_eq_iff_of_ne_week hp a b) fun h => (hp h).elim

/-- Noon UTC on 2024-01-01, a Monday, on the Tuesday 2024-12-31 and the day after. -/
def firstMonday : ℕ := 1704110400000000000
def lastTuesday : ℕ := 1735646400000000000
def nextWednesday : ℕ := 1735732800000000000

/-- Tuesday and Wednesday of the week over New Year have different tokens. The Tuesday
has the token of the first week of its own year. -/
theorem week_token_at_new_year :
    (SamePeriod .week lastTuesday nextWednesday ∧
      ¬ (currentPeriodToken .week lastTuesday = currentPeriodToken .week nextWednesday ↔
        SamePeriod .week lastTuesday nextWednesday)) ∧
    currentPeriodToken .week firstMonday = currentPeriodToken .week lastTuesday ∧
      ¬ (currentPeriodToken .week firstMonday = currentPeriodToken .week lastTuesday ↔
        SamePeriod .week firstMonday lastTuesday) := by
  decide +kernel

end VaultplaneGateway.PeriodTokens
