import Mathlib.Order.Monotone.Basic
import Mathlib.Data.Nat.Find

/-!
# Gregorian years, months and ISO weeks of a day number

Days are counted from 1970-01-01. A year is the largest one whose first day is
not after the given day, a month the largest one whose first day in that year is
not after it; both searches run over a short range, so the functions evaluate.
An ISO week runs from Monday to Sunday and belongs to the year of its Thursday.

A calendar period is an interval of days, so a clock that never runs backwards never
returns to one. An ISO week is named by its number and the year of its Thursday, not
by the calendar year of its days: around New Year a few days of a week lie in another
calendar year.
-/
namespace VaultplaneGateway.CivilCalendar

/-- Days from 1970-01-01 to the first day of year `1970 + n`. -/
def daysBeforeYear (n : ℕ) : ℕ :=
  365 * n + ((1969 + n) / 4 - (1969 + n) / 100 + (1969 + n) / 400 - 477)

theorem daysBeforeYear_lt_succ (n : ℕ) : daysBeforeYear n < daysBeforeYear (n + 1) := by
  unfold daysBeforeYear
  omega

theorem daysBeforeYear_strictMono : StrictMono daysBeforeYear :=
  strictMono_nat_of_lt_succ daysBeforeYear_lt_succ

theorem le_daysBeforeYear (n : ℕ) : 365 * n ≤ daysBeforeYear n := by
  unfold daysBeforeYear
  omega

/-- Years since 1970. A year has at least 365 days, which bounds the search. -/
def yearIndex (day : ℕ) : ℕ := Nat.findGreatest (fun n => daysBeforeYear n ≤ day) (day / 365)

theorem daysBeforeYear_yearIndex_le (day : ℕ) : daysBeforeYear (yearIndex day) ≤ day :=
  Nat.findGreatest_spec (P := fun n => daysBeforeYear n ≤ day) (Nat.zero_le (day / 365))
    (Nat.zero_le day)

theorem lt_daysBeforeYear_succ (day : ℕ) : day < daysBeforeYear (yearIndex day + 1) := by
  by_contra h
  have hd : daysBeforeYear (yearIndex day + 1) ≤ day := Nat.le_of_not_lt h
  have hb : yearIndex day + 1 ≤ day / 365 := by
    have := le_daysBeforeYear (yearIndex day + 1)
    omega
  have := Nat.le_findGreatest (P := fun n => daysBeforeYear n ≤ day) hb hd
  unfold yearIndex at this
  omega

theorem yearIndex_mono : Monotone yearIndex := by
  intro a b hab
  by_contra h
  have hlt : yearIndex b + 1 ≤ yearIndex a := Nat.lt_of_not_le h
  have h₁ := daysBeforeYear_strictMono.monotone hlt
  have h₂ := lt_daysBeforeYear_succ b
  have h₃ := daysBeforeYear_yearIndex_le a
  omega

/-- The calendar year of a day. -/
def year (day : ℕ) : ℕ := 1970 + yearIndex day

/-- Zero-based position of a day in its year. -/
def dayOfYear (day : ℕ) : ℕ := day - daysBeforeYear (yearIndex day)

def leapYear (y : ℕ) : Bool := y % 4 = 0 ∧ (y % 100 ≠ 0 ∨ y % 400 = 0)

/-- First zero-based day of each month, January first. -/
def monthStarts (leap : Bool) : List ℕ :=
  if leap then [0, 31, 60, 91, 121, 152, 182, 213, 244, 274, 305, 335]
  else [0, 31, 59, 90, 120, 151, 181, 212, 243, 273, 304, 334]

/-- The number of months that have begun by a day of the year. -/
def monthOfDay (leap : Bool) (d : ℕ) : ℕ := (monthStarts leap).countP (· ≤ d)

theorem monthOfDay_mono (leap : Bool) : Monotone (monthOfDay leap) := by
  intro a b hab
  apply List.countP_mono_left
  intro s _ hs
  simp only [decide_eq_true_eq] at hs ⊢
  omega

theorem one_le_monthOfDay (leap : Bool) (d : ℕ) : 1 ≤ monthOfDay leap d := by
  have h := monthOfDay_mono leap (Nat.zero_le d)
  have h0 : monthOfDay leap 0 = 1 := by cases leap <;> rfl
  omega

theorem monthOfDay_le (leap : Bool) (d : ℕ) : monthOfDay leap d ≤ 12 := by
  have h : (monthStarts leap).length = 12 := by cases leap <;> rfl
  exact h ▸ List.countP_le_length

/-- The calendar month of a day, from 1 to 12. -/
def month (day : ℕ) : ℕ := monthOfDay (leapYear (year day)) (dayOfYear day)

theorem one_le_month (day : ℕ) : 1 ≤ month day := one_le_monthOfDay _ _

theorem month_le (day : ℕ) : month day ≤ 12 := monthOfDay_le _ _

/-- Months since January 1970. -/
def monthIndex (day : ℕ) : ℕ := 12 * yearIndex day + (month day - 1)

theorem monthIndex_mono : Monotone monthIndex := by
  intro a b hab
  unfold monthIndex
  rcases Nat.lt_or_eq_of_le (yearIndex_mono hab) with hy | hy
  · have h₁ := month_le a
    omega
  · -- Within one year the month depends on the position of the day alone.
    have hm : month a ≤ month b := by
      unfold month year dayOfYear
      rw [hy]
      exact monthOfDay_mono _ (Nat.sub_le_sub_right hab _)
    omega

theorem monthIndex_eq_iff (a b : ℕ) :
    monthIndex a = monthIndex b ↔ year a = year b ∧ month a = month b := by
  have h₁ := one_le_month a
  have h₂ := month_le a
  have h₃ := one_le_month b
  have h₄ := month_le b
  unfold monthIndex year
  omega

/-- Monday-to-Sunday weeks. The first is that of 1970-01-01, a Thursday. -/
def weekIndex (day : ℕ) : ℕ := (day + 3) / 7

theorem weekIndex_mono : Monotone weekIndex :=
  fun _ _ h => Nat.div_le_div_right (Nat.add_le_add_right h 3)

/-- The Thursday of the ISO week of a day. -/
def thursday (day : ℕ) : ℕ := 7 * weekIndex day

/-- ISO 8601 week number: full weeks before the week's Thursday in its year. -/
def isoWeek (day : ℕ) : ℕ := dayOfYear (thursday day) / 7 + 1

/-- The year an ISO week belongs to. -/
def isoYear (day : ℕ) : ℕ := year (thursday day)

theorem yearIndex_eq {day n : ℕ} (h₁ : daysBeforeYear n ≤ day) (h₂ : day < daysBeforeYear (n + 1)) :
    yearIndex day = n := by
  have h₃ := daysBeforeYear_yearIndex_le day
  have h₄ := lt_daysBeforeYear_succ day
  have h₅ := daysBeforeYear_strictMono.lt_iff_lt.mp (h₁.trans_lt h₄)
  have h₆ := daysBeforeYear_strictMono.lt_iff_lt.mp (h₃.trans_lt h₂)
  omega

theorem daysBeforeYear_add_dayOfYear (day : ℕ) :
    daysBeforeYear (yearIndex day) + dayOfYear day = day := by
  have := daysBeforeYear_yearIndex_le day
  unfold dayOfYear
  omega

/-- A day is known by its year and its place in it. -/
theorem eq_iff_year_dayOfYear (a b : ℕ) :
    a = b ↔ year a = year b ∧ dayOfYear a = dayOfYear b := by
  constructor
  · rintro rfl
    exact ⟨rfl, rfl⟩
  · rintro ⟨hyear, hday⟩
    have hindex : yearIndex a = yearIndex b := by
      unfold year at hyear
      omega
    have ha := daysBeforeYear_add_dayOfYear a
    have hb := daysBeforeYear_add_dayOfYear b
    rw [hindex] at ha
    omega

/-- An ISO week is known by its year and its number. -/
theorem weekIndex_eq_iff (a b : ℕ) :
    weekIndex a = weekIndex b ↔ isoYear a = isoYear b ∧ isoWeek a = isoWeek b := by
  constructor
  · intro h
    unfold isoYear isoWeek thursday
    rw [h]
    exact ⟨rfl, rfl⟩
  · rintro ⟨hyear, hweek⟩
    have hindex : yearIndex (thursday a) = yearIndex (thursday b) := by
      unfold isoYear year at hyear
      omega
    have ha := daysBeforeYear_add_dayOfYear (thursday a)
    have hb := daysBeforeYear_add_dayOfYear (thursday b)
    rw [hindex] at ha
    -- two Thursdays of one year less than a week apart
    unfold isoWeek at hweek
    have hthursday : thursday a = 7 * weekIndex a := rfl
    have hthursday' : thursday b = 7 * weekIndex b := rfl
    omega

theorem daysBeforeYear_step (n : ℕ) :
    daysBeforeYear n + 365 ≤ daysBeforeYear (n + 1) ∧
      daysBeforeYear (n + 1) ≤ daysBeforeYear n + 366 := by
  unfold daysBeforeYear
  omega

theorem isoWeek_le (day : ℕ) : isoWeek day ≤ 53 := by
  have h₁ := lt_daysBeforeYear_succ (thursday day)
  have h₂ := daysBeforeYear_add_dayOfYear (thursday day)
  have h₃ := (daysBeforeYear_step (yearIndex (thursday day))).2
  unfold isoWeek
  omega

/-- The day's ISO week belongs to another calendar year than the day. -/
def Strays (day : ℕ) : Prop := isoYear day ≠ year day

instance (day : ℕ) : Decidable (Strays day) := inferInstanceAs (Decidable (_ ≠ _))

/-- A day strays into the first week of the next year or the last of the year before. -/
theorem strays_cases {day : ℕ} (h : Strays day) :
    (isoWeek day = 1 ∧ isoYear day = year day + 1) ∨
      (52 ≤ isoWeek day ∧ isoYear day + 1 = year day) := by
  have hnear : thursday day ≤ day + 3 ∧ day ≤ thursday day + 3 := by
    unfold thursday weekIndex
    omega
  have hd₁ := daysBeforeYear_yearIndex_le day
  have hd₂ := lt_daysBeforeYear_succ day
  have ht := daysBeforeYear_add_dayOfYear (thursday day)
  unfold Strays isoYear year at h
  rcases Nat.lt_or_gt_of_ne (fun he => h (congrArg _ he)) with hlt | hgt
  · right
    obtain ⟨n, hn⟩ : ∃ n, yearIndex day = n + 1 := ⟨yearIndex day - 1, by omega⟩
    rw [hn] at hd₁
    have hstep := daysBeforeYear_step n
    have hlate : thursday day < daysBeforeYear (n + 1) := by
      by_contra hge
      have := yearIndex_mono (Nat.le_of_not_lt hge)
      rw [yearIndex_eq (n := n + 1) le_rfl (daysBeforeYear_lt_succ _)] at this
      omega
    have hyear : yearIndex (thursday day) = n := yearIndex_eq (by omega) hlate
    rw [hyear] at ht
    unfold isoWeek isoYear year
    omega
  · left
    have hstep := daysBeforeYear_step (yearIndex day + 1)
    have hearly : daysBeforeYear (yearIndex day + 1) ≤ thursday day :=
      (daysBeforeYear_strictMono.monotone hgt).trans (daysBeforeYear_yearIndex_le _)
    have hyear : yearIndex (thursday day) = yearIndex day + 1 := yearIndex_eq hearly (by omega)
    rw [hyear] at ht
    unfold isoWeek isoYear year
    omega

example : (year 19723, month 19723, isoWeek 19723) = (2024, 1, 1) := by decide

end VaultplaneGateway.CivilCalendar
