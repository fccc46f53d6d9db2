import Mathlib.Algebra.Order.Ring.Int
import VaultplaneGateway.CivilCalendar
import VaultplaneGateway.SignatureV4

/-!
# The date of a signature

The signer turns a day number into a date by a chain of divisions: eras of 400 years,
years that begin in March, months of the 153-day pattern. What a date stands for is
stated apart, by adding up the lengths of the years and months before it, and a written
date is read back digit by digit.

The year of an era is found by a quotient that grows with the day, so it is right for all
days of a year if it is right for the first and the last, and there are 400 years.
-/
namespace VaultplaneGateway.SigningDates
open CivilCalendar SignatureV4

/-- A date of the Gregorian calendar with a time of day. -/
structure CivilTime where
  year : ℕ
  month : ℕ
  day : ℕ
  hour : ℕ
  minute : ℕ
  second : ℕ
  deriving DecidableEq, Repr

def yearLength (y : ℕ) : ℕ := if leapYear y then 366 else 365

def monthLength (leap : Bool) (m : ℕ) : ℕ :=
  [31, if leap then 29 else 28, 31, 30, 31, 30, 31, 31, 30, 31, 30, 31].getD (m - 1) 0

/-- Days from 1970-01-01 to the first of a month. -/
def daysBefore (y m : ℕ) : ℕ :=
  ((List.range (y - 1970)).map fun n => yearLength (1970 + n)).sum +
    ((List.range (m - 1)).map fun k => monthLength (leapYear y) (k + 1)).sum

/-- The date exists. -/
def ValidDate (y m d : ℕ) : Prop :=
  1970 ≤ y ∧ 1 ≤ m ∧ m ≤ 12 ∧ 1 ≤ d ∧ d ≤ monthLength (leapYear y) m

namespace CivilTime

def Valid (t : CivilTime) : Prop :=
  ValidDate t.year t.month t.day ∧ t.hour < 24 ∧ t.minute < 60 ∧ t.second < 60

/-- Seconds from 1970-01-01T00:00:00. -/
def seconds (t : CivilTime) : ℕ :=
  (daysBefore t.year t.month + (t.day - 1)) * 86400 + t.hour * 3600 + t.minute * 60 + t.second

end CivilTime

def number (digits : List Char) : ℕ := Nat.ofDigitChars 10 digits 0

/-- What a text of the form `YYYYMMDDTHHMMSSZ` says; the year may have more digits. -/
def readAmzDate (text : String) : Option CivilTime :=
  let date := text.toList.takeWhile (· != 'T')
  let time := text.toList.drop (date.length + 1)
  if 8 ≤ date.length ∧ date.all Char.isDigit ∧ time.length = 7 ∧ time.dropLast.all Char.isDigit ∧
      time.getLast? = some 'Z' then
    let n := date.length
    some ⟨number (date.take (n - 4)), number ((date.drop (n - 4)).take 2),
      number (date.drop (n - 2)), number (time.take 2), number ((time.drop 2).take 2),
      number ((time.drop 4).take 2)⟩
  else none

/-- Days from 0000-03-01 to the first of March of a year. -/
def marchDays (y : ℕ) : ℕ := 365 * y + y / 4 - y / 100 + y / 400

/-- The quotient by which the signer finds a year of its era. -/
def yearOfEra (doe : ℕ) : ℕ := (doe - doe / 1460 + doe / 36524 - doe / 146096) / 365

theorem yearOfEra_mono {a b : ℕ} (h : a ≤ b) : yearOfEra a ≤ yearOfEra b := by
  unfold yearOfEra
  refine Nat.div_le_div_right ?_
  have hfours : a - a / 1460 ≤ b - b / 1460 := by omega
  have hcenturies : a / 36524 ≤ b / 36524 := Nat.div_le_div_right h
  have ha : a / 146096 = a / 36524 / 4 := by rw [Nat.div_div_eq_div_mul]
  have hb : b / 146096 = b / 36524 / 4 := by rw [Nat.div_div_eq_div_mul]
  omega

theorem yearOfEra_ends :
    ∀ y < 400, yearOfEra (marchDays y) = y ∧ yearOfEra (marchDays (y + 1) - 1) = y := by
  decide +kernel

theorem exists_year {n doe : ℕ} (h : doe < marchDays n) :
    ∃ y < n, marchDays y ≤ doe ∧ doe < marchDays (y + 1) := by
  induction n with
  | zero => exact absurd h (Nat.not_lt_zero _)
  | succ n ih =>
      by_cases hn : doe < marchDays n
      · obtain ⟨y, hy, hbounds⟩ := ih hn
        exact ⟨y, by omega, hbounds⟩
      · exact ⟨n, Nat.lt_succ_self n, Nat.le_of_not_lt hn, h⟩

/-- The quotient is the year in which the day lies. -/
theorem yearOfEra_spec {doe : ℕ} (h : doe < 146097) :
    yearOfEra doe < 400 ∧ marchDays (yearOfEra doe) ≤ doe ∧
      doe < marchDays (yearOfEra doe + 1) := by
  have hera : doe < marchDays 400 := h
  obtain ⟨y, hy, hle, hlt⟩ := exists_year hera
  obtain ⟨hfirst, hlast⟩ := yearOfEra_ends y hy
  have hyear : yearOfEra doe = y := by
    have hlower := yearOfEra_mono hle
    have hupper := yearOfEra_mono (Nat.le_sub_one_of_lt hlt)
    omega
  rw [hyear]
  exact ⟨hy, hle, hlt⟩

theorem marchDays_era (y era : ℕ) : marchDays (y + era * 400) = marchDays y + era * 146097 := by
  unfold marchDays
  omega

/-- The year from March to February in which a day lies, and its place in that year. -/
def marchYear (days : ℕ) : ℕ × ℕ :=
  let z := days + 719468
  let era := z / 146097
  let doe := z - era * 146097
  let yoe := yearOfEra doe
  (yoe + era * 400, doe - (365 * yoe + yoe / 4 - yoe / 100))

/-- The month and the day of it, from the place of a day in such a year. -/
def marchMonth (doy : ℕ) : ℕ × ℕ :=
  let mp := (5 * doy + 2) / 153
  (if mp < 10 then mp + 3 else mp - 9, doy - (153 * mp + 2) / 5 + 1)

theorem civilFromDays_eq (days : ℕ) :
    civilFromDays days =
      (if (marchMonth (marchYear days).2).1 ≤ 2 then (marchYear days).1 + 1
        else (marchYear days).1, marchMonth (marchYear days).2) := rfl

theorem marchYear_spec (days : ℕ) :
    marchDays (marchYear days).1 + (marchYear days).2 = days + 719468 ∧
      days + 719468 < marchDays ((marchYear days).1 + 1) := by
  have hdoe : days + 719468 - (days + 719468) / 146097 * 146097 < 146097 := by omega
  obtain ⟨hyoe, hle, hlt⟩ := yearOfEra_spec hdoe
  unfold marchYear
  dsimp only
  generalize hera : (days + 719468) / 146097 = era at hyoe hle hlt ⊢
  generalize hd : days + 719468 - era * 146097 = doe at hyoe hle hlt ⊢
  generalize yearOfEra doe = yoe at hyoe hle hlt ⊢
  have hnext : yoe + era * 400 + 1 = yoe + 1 + era * 400 := by omega
  have hstart : marchDays yoe = 365 * yoe + yoe / 4 - yoe / 100 := by
    unfold marchDays
    omega
  rw [hnext, marchDays_era, marchDays_era]
  omega

theorem toNat_leapYear (y : ℕ) :
    (leapYear y).toNat = 1 ∧ y % 4 = 0 ∧ (y % 100 ≠ 0 ∨ y % 400 = 0) ∨
      (leapYear y).toNat = 0 ∧ ¬ (y % 4 = 0 ∧ (y % 100 ≠ 0 ∨ y % 400 = 0)) := by
  by_cases h : y % 4 = 0 ∧ (y % 100 ≠ 0 ∨ y % 400 = 0)
  · exact .inl ⟨by simp [leapYear, h], h⟩
  · exact .inr ⟨by simp [leapYear, h], h⟩

theorem yearLength_eq (y : ℕ) : yearLength y = 365 + (leapYear y).toNat := by
  unfold yearLength
  cases leapYear y <;> rfl

theorem daysBeforeYear_succ (n : ℕ) :
    daysBeforeYear (n + 1) = daysBeforeYear n + yearLength (1970 + n) := by
  have hleap := toNat_leapYear (1970 + n)
  rw [yearLength_eq]
  unfold daysBeforeYear
  omega

theorem sum_yearLength (n : ℕ) :
    ((List.range n).map fun k => yearLength (1970 + k)).sum = daysBeforeYear n := by
  induction n with
  | zero => decide
  | succ n ih =>
      rw [List.range_succ, List.map_append, List.sum_append, ih, daysBeforeYear_succ,
        List.map_singleton, List.sum_singleton]

/-- New Year comes 306 days after the first of March before it. -/
theorem marchDays_before (n : ℕ) : marchDays (1969 + n) + 306 = daysBeforeYear n + 719468 := by
  unfold marchDays daysBeforeYear
  omega

theorem marchDays_after (n : ℕ) :
    marchDays (1970 + n) = daysBeforeYear n + 59 + (leapYear (1970 + n)).toNat + 719468 := by
  have hnext := marchDays_before (n + 1)
  have hyear : 1969 + (n + 1) = 1970 + n := by omega
  rw [hyear, daysBeforeYear_succ, yearLength_eq] at hnext
  omega

theorem marchDays_strictMono : StrictMono marchDays := by
  refine strictMono_nat_of_lt_succ fun y => ?_
  unfold marchDays
  omega

/-- The epoch lies in the year that began in March 1969. -/
theorem epoch_le_marchYear (days : ℕ) : 1969 ≤ (marchYear days).1 := by
  obtain ⟨-, hnext⟩ := marchYear_spec days
  by_contra h
  have hmono := marchDays_strictMono.monotone (show (marchYear days).1 + 1 ≤ 1969 by omega)
  have hstart : marchDays 1969 = 719162 := rfl
  omega

/-- Months start where the 153-day pattern has them, and end before its next one does,
February apart. -/
theorem month_pattern :
    ∀ mp < 12, ∀ leap : Bool,
      let m := if mp < 10 then mp + 3 else mp - 9
      let start := ((List.range (m - 1)).map fun k => monthLength leap (k + 1)).sum
      start = (if mp < 10 then (153 * mp + 2) / 5 + 59 + leap.toNat else (153 * mp + 2) / 5 - 306) ∧
        monthLength leap m =
          if mp < 11 then (153 * (mp + 1) + 2) / 5 - (153 * mp + 2) / 5 else 28 + leap.toNat := by
  decide

/-- The date of a day exists and is as many days after 1970-01-01. -/
theorem civilFromDays_spec (days : ℕ) :
    ValidDate (civilFromDays days).1 (civilFromDays days).2.1 (civilFromDays days).2.2 ∧
      daysBefore (civilFromDays days).1 (civilFromDays days).2.1 +
        ((civilFromDays days).2.2 - 1) = days := by
  obtain ⟨hday, hnext⟩ := marchYear_spec days
  obtain ⟨n, hn⟩ := Nat.exists_eq_add_of_le (epoch_le_marchYear days)
  rw [civilFromDays_eq, hn]
  rw [hn] at hday hnext
  generalize (marchYear days).2 = doy at hday ⊢
  have hyear := marchDays_before n
  have hlater := marchDays_before (n + 1)
  have hlength := daysBeforeYear_succ n
  rw [yearLength_eq] at hlength
  have hleap := Bool.toNat_lt (leapYear (1970 + n))
  have hnumber : 1969 + n + 1 = 1969 + (n + 1) := by omega
  rw [hnumber] at hnext
  have hmp : (5 * doy + 2) / 153 < 12 := by omega
  unfold marchMonth ValidDate daysBefore
  dsimp only
  rw [sum_yearLength]
  generalize hm : (5 * doy + 2) / 153 = mp at hmp ⊢
  by_cases hmarch : mp < 10
  · have hle : ¬ mp + 3 ≤ 2 := by omega
    have hlast : mp < 11 := by omega
    obtain ⟨k, rfl⟩ : ∃ k, n = k + 1 := by
      refine ⟨n - 1, ?_⟩
      by_contra h
      obtain rfl : n = 0 := by omega
      have hzero : daysBeforeYear 0 = 0 := by decide
      omega
    have hafter := marchDays_after k
    have hyear : 1969 + (k + 1) = 1970 + k := by omega
    obtain ⟨hstart, hlength⟩ := month_pattern mp hmp (leapYear (1970 + k))
    simp only [if_pos hmarch, if_neg hle, if_pos hlast, hyear,
      Nat.add_sub_cancel_left] at hstart hlength hday ⊢
    rw [hstart, hlength]
    omega
  · have hle : mp - 9 ≤ 2 := by omega
    obtain ⟨hstart, hlength⟩ := month_pattern mp hmp (leapYear (1970 + n))
    have hyear : 1969 + n + 1 = 1970 + n := by omega
    simp only [if_neg hmarch, if_pos hle, hyear, Nat.add_sub_cancel_left] at hstart hlength ⊢
    rw [hstart, hlength]
    -- the last day of February is the last of a leap year that began in March
    by_cases hlast : mp < 11
    · rw [if_pos hlast]
      omega
    · rw [if_neg hlast]
      omega

/-- A month ends no later than the next one of the year starts, and than the year ends. -/
theorem month_ends :
    ∀ leap : Bool, ∀ m < 12,
      ((List.range m).map fun k => monthLength leap (k + 1)).sum + monthLength leap (m + 1) ≤
          365 + leap.toNat ∧
        ∀ m' < 12, m < m' →
          ((List.range m).map fun k => monthLength leap (k + 1)).sum + monthLength leap (m + 1) ≤
            ((List.range m').map fun k => monthLength leap (k + 1)).sum := by
  decide

/-- Dates that exist lie in the order of their years and months. -/
theorem daysBefore_lt {y m d y' m' : ℕ} (h : ValidDate y m d) (h' : 1970 ≤ y' ∧ 1 ≤ m' ∧ m' ≤ 12)
    (hlt : y < y' ∨ y = y' ∧ m < m') : daysBefore y m + (d - 1) < daysBefore y' m' := by
  obtain ⟨hy, hm, hm12, hd, hlength⟩ := h
  obtain ⟨hyear, hnext⟩ := month_ends (leapYear y) (m - 1) (by omega)
  rw [Nat.sub_add_cancel hm] at hyear hnext
  unfold daysBefore
  rw [sum_yearLength, sum_yearLength]
  rcases hlt with hlt | ⟨rfl, hlt⟩
  · have hstep := daysBeforeYear_succ (y - 1970)
    rw [yearLength_eq, Nat.add_sub_cancel' hy] at hstep
    have hmono := daysBeforeYear_strictMono.monotone (show y - 1970 + 1 ≤ y' - 1970 by omega)
    omega
  · have hmonths := hnext (m' - 1) (by omega) (by omega)
    omega

/-- The signer's date is the only one that is so many days after 1970-01-01. -/
theorem civilFromDays_daysBefore {y m d : ℕ} (h : ValidDate y m d) :
    civilFromDays (daysBefore y m + (d - 1)) = (y, m, d) := by
  obtain ⟨hvalid, hdays⟩ := civilFromDays_spec (daysBefore y m + (d - 1))
  generalize civilFromDays (daysBefore y m + (d - 1)) = date at hvalid hdays ⊢
  obtain ⟨y', m', d'⟩ := date
  dsimp only at hvalid hdays
  have hle : ¬ (y < y' ∨ y = y' ∧ m < m') := fun hlt => by
    have := daysBefore_lt h ⟨hvalid.1, hvalid.2.1, hvalid.2.2.1⟩ hlt
    omega
  have hge : ¬ (y' < y ∨ y' = y ∧ m' < m) := fun hlt => by
    have := daysBefore_lt hvalid ⟨h.1, h.2.1, h.2.2.1⟩ hlt
    omega
  obtain rfl : y' = y := by omega
  obtain rfl : m' = m := by omega
  obtain rfl : d' = d := by
    have hd := h.2.2.2.1
    have hd' := hvalid.2.2.2.1
    omega
  rfl

theorem toList_padded (width n : ℕ) :
    (padded width n).toList =
      List.replicate (width - (Nat.toDigits 10 n).length) '0' ++ Nat.toDigits 10 n :=
  String.toList_ofList

theorem isDigit_padded (width n : ℕ) : (padded width n).toList.all Char.isDigit = true := by
  rw [toList_padded, List.all_append, Bool.and_eq_true, List.all_eq_true, List.all_eq_true]
  constructor
  · intro c hc
    rw [List.eq_of_mem_replicate hc]
    decide
  · intro c hc
    exact Nat.isDigit_of_mem_toDigits (by decide) (by decide) hc

theorem number_padded (width n : ℕ) : number (padded width n).toList = n := by
  rw [number, toList_padded, Nat.ofDigitChars_append, Nat.ofDigitChars_replicate_zero,
    Nat.mul_zero, Nat.ofDigitChars_ten_toDigits]

theorem le_length_padded (width n : ℕ) : width ≤ (padded width n).toList.length := by
  rw [toList_padded, List.length_append, List.length_replicate]
  omega

theorem length_padded {width n : ℕ} (hwidth : 0 < width) (h : n < 10 ^ width) :
    (padded width n).toList.length = width := by
  have hdigits := (Nat.length_toDigits_le_iff (by decide) hwidth).mpr h
  rw [toList_padded, List.length_append, List.length_replicate]
  omega

/-- A text put together from digits is taken apart at the same places. -/
theorem readAmzDate_digits {y mo d h mi s : List Char} (hyear : 4 ≤ y.length)
    (hmonth : mo.length = 2) (hday : d.length = 2) (hhour : h.length = 2) (hminute : mi.length = 2)
    (hsecond : s.length = 2) (hdate : (y ++ mo ++ d).all Char.isDigit = true)
    (htime : (h ++ mi ++ s).all Char.isDigit = true) :
    (y ++ mo ++ d ++ 'T' :: (h ++ mi ++ s ++ ['Z'])).takeWhile (· != 'T') = y ++ mo ++ d ∧
      readAmzDate (String.ofList (y ++ mo ++ d ++ 'T' :: (h ++ mi ++ s ++ ['Z']))) =
        some ⟨number y, number mo, number d, number h, number mi, number s⟩ := by
  have hno : ∀ c ∈ y ++ mo ++ d, (c != 'T') = true := by
    intro c hc
    have hdigit := List.all_eq_true.mp hdate c hc
    rw [bne_iff_ne]
    rintro rfl
    exact absurd hdigit (by decide)
  have htake : (y ++ mo ++ d ++ 'T' :: (h ++ mi ++ s ++ ['Z'])).takeWhile (· != 'T') =
      y ++ mo ++ d := by
    rw [List.takeWhile_append_of_pos hno, List.takeWhile_cons_of_neg (by decide), List.append_nil]
  refine ⟨htake, ?_⟩
  have hdrop : (y ++ mo ++ d ++ 'T' :: (h ++ mi ++ s ++ ['Z'])).drop ((y ++ mo ++ d).length + 1) =
      h ++ mi ++ s ++ ['Z'] := by
    rw [List.drop_append, List.drop_eq_nil_of_le (Nat.le_succ _), Nat.add_sub_cancel_left]
    rfl
  have hlength : (y ++ mo ++ d).length = y.length + 4 := by
    simp only [List.length_append]
    omega
  unfold readAmzDate
  simp only [String.toList_ofList, htake, hdrop]
  rw [if_pos ⟨by omega, hdate, by simp only [List.length_append, List.length_singleton]; omega,
    by rw [List.dropLast_concat]; exact htime, List.getLast?_concat⟩]
  simp only [hlength]
  have hy : y.length + 4 - 4 = y.length := by omega
  have hym : y.length + 4 - 2 = (y ++ mo).length := by
    rw [List.length_append]
    omega
  have hhm : 4 = (h ++ mi).length := by
    rw [List.length_append]
    omega
  rw [hy, hym, List.drop_left]
  simp only [List.append_assoc, List.take_left, List.drop_left]
  rw [← hmonth, List.take_left, hmonth, ← hhour, List.take_left, List.drop_left, hhour, ← hminute,
    List.take_left, hminute, hhm, ← List.append_assoc, List.drop_left, ← hsecond, List.take_left]

/-- The time that is written for a count of seconds. -/
def timeOf (secs : ℕ) : CivilTime :=
  let date := civilFromDays (secs / 86400)
  ⟨date.1, date.2.1, date.2.2, secs % 86400 / 3600, secs % 86400 % 3600 / 60, secs % 86400 % 60⟩

theorem monthLength_le (leap : Bool) (m : ℕ) : monthLength leap m ≤ 31 := by
  have hall : ∀ leap : Bool, ∀ m ≤ 12, monthLength leap m ≤ 31 := by decide
  by_cases hm : m ≤ 12
  · exact hall leap m hm
  · rw [monthLength, List.getD_eq_getElem?_getD, List.getElem?_eq_none]
    · exact Nat.zero_le 31
    · simp only [List.length_cons, List.length_nil]
      omega

theorem timeOf_valid (secs : ℕ) : (timeOf secs).Valid ∧ (timeOf secs).seconds = secs := by
  obtain ⟨hvalid, hdays⟩ := civilFromDays_spec (secs / 86400)
  refine ⟨⟨hvalid, ?_, ?_, ?_⟩, ?_⟩
  · change secs % 86400 / 3600 < 24
    omega
  · change secs % 86400 % 3600 / 60 < 60
    omega
  · change secs % 86400 % 60 < 60
    omega
  · unfold CivilTime.seconds timeOf
    dsimp only
    rw [hdays]
    omega

/-- The text says this time, and the stamp is its date. -/
theorem readAmzDate_formatAmzDate (secs : UInt64) :
    readAmzDate (formatAmzDate secs).1 = some (timeOf secs.toNat) ∧
      (formatAmzDate secs).2.toList = (formatAmzDate secs).1.toList.takeWhile (· != 'T') := by
  obtain ⟨⟨⟨-, -, hmonth, -, hday⟩, hhour, hminute, hsecond⟩, -⟩ := timeOf_valid secs.toNat
  have hlength := monthLength_le (leapYear (timeOf secs.toNat).year) (timeOf secs.toNat).month
  generalize ht : timeOf secs.toNat = t at hmonth hday hhour hminute hsecond hlength ⊢
  have htext : (formatAmzDate secs).1 = String.ofList ((padded 4 t.year).toList ++
      (padded 2 t.month).toList ++ (padded 2 t.day).toList ++ 'T' :: ((padded 2 t.hour).toList ++
        (padded 2 t.minute).toList ++ (padded 2 t.second).toList ++ ['Z'])) := by
    rw [← ht]
    apply String.toList_inj.mp
    simp [formatAmzDate, timeOf]
  have hstamp : (formatAmzDate secs).2.toList = (padded 4 t.year).toList ++
      (padded 2 t.month).toList ++ (padded 2 t.day).toList := by
    rw [← ht]
    simp [formatAmzDate, timeOf]
  have hread := readAmzDate_digits (le_length_padded 4 t.year)
    (length_padded (by decide) (show t.month < 10 ^ 2 by omega))
    (length_padded (by decide) (show t.day < 10 ^ 2 by omega))
    (length_padded (by decide) (show t.hour < 10 ^ 2 by omega))
    (length_padded (by decide) (show t.minute < 10 ^ 2 by omega))
    (length_padded (by decide) (show t.second < 10 ^ 2 by omega))
    (by simp only [List.all_append, isDigit_padded, Bool.and_self])
    (by simp only [List.all_append, isDigit_padded, Bool.and_self])
  simp only [number_padded] at hread
  rw [htext, hstamp, hread.2, String.toList_ofList, hread.1]
  exact ⟨rfl, rfl⟩

/-- The result of an operation on signed 64-bit numbers, or nothing if it overflows. -/
def i64 (n : ℤ) : Option ℤ := if -2 ^ 63 ≤ n ∧ n < 2 ^ 63 then some n else none

/-- A cast to 32 bits without a sign. -/
def asU32 (n : ℤ) : ℤ := n % 2 ^ 32

/-- The dividend of the era; a quotient cuts towards zero. -/
def eraStart64 (z : ℤ) : Option ℤ := if 0 ≤ z then some z else i64 (z - 146096)

/-- The era of a shifted day, and the day's place in it. -/
def eraOf64 (z : ℤ) : Option (ℤ × ℤ) := do
  let shifted ← eraStart64 z
  let start ← i64 (shifted.tdiv 146097 * 146097)
  let doe ← i64 (z - start)
  pure (shifted.tdiv 146097, doe)

/-- The year of the era, and the day's place in it. -/
def yearOf64 (doe : ℤ) : Option (ℤ × ℤ) := do
  let a ← i64 (doe - doe.tdiv 1460)
  let b ← i64 (a + doe.tdiv 36524)
  let c ← i64 (b - doe.tdiv 146096)
  let d ← i64 (365 * c.tdiv 365)
  let e ← i64 (d + (c.tdiv 365).tdiv 4)
  let f ← i64 (e - (c.tdiv 365).tdiv 100)
  let doy ← i64 (doe - f)
  pure (c.tdiv 365, doy)

def monthNumber64 (mp : ℤ) : Option ℤ := if mp < 10 then i64 (mp + 3) else i64 (mp - 9)

/-- The month of the year, and the day of it. -/
def monthOf64 (doy : ℤ) : Option (ℤ × ℤ) := do
  let a ← i64 (5 * doy)
  let b ← i64 (a + 2)
  let c ← i64 (153 * b.tdiv 153)
  let d ← i64 (c + 2)
  let e ← i64 (doy - d.tdiv 5)
  let day ← i64 (e + 1)
  let month ← monthNumber64 (b.tdiv 153)
  pure (asU32 month, asU32 day)

def yearNumber64 (year month : ℤ) : Option ℤ := if month ≤ 2 then i64 (year + 1) else some year

/-- `civil_from_days` with every operation checked. -/
def civilFromDays64 (z : ℤ) : Option (ℤ × ℤ × ℤ) := do
  let z ← i64 (z + 719468)
  let (era, doe) ← eraOf64 z
  let (yoe, doy) ← yearOf64 doe
  let a ← i64 (era * 400)
  let year ← i64 (yoe + a)
  let (month, day) ← monthOf64 doy
  let year ← yearNumber64 year month
  pure (year, month, day)

theorem i64_eq {a : ℤ} {n : ℕ} (h : a = n) (hn : n < 2 ^ 63) : i64 a = some (n : ℤ) := by
  rw [h]
  exact if_pos ⟨by omega, by exact_mod_cast hn⟩

theorem bind_of_some {α β : Type} {x : Option α} {a : α} {f : α → Option β} (h : x = some a) :
    (x >>= f) = f a := by
  rw [h]
  rfl

theorem asU32_cast {n : ℕ} (h : n < 2 ^ 32) : asU32 (n : ℤ) = n := by
  unfold asU32
  omega

theorem eraOf64_eq {z : ℕ} (h : z < 2 ^ 63) :
    eraOf64 z = some (((z / 146097 : ℕ) : ℤ), ((z - z / 146097 * 146097 : ℕ) : ℤ)) := by
  have hsign : eraStart64 z = some (z : ℤ) := if_pos (Int.natCast_nonneg z)
  have hera : (z : ℤ).tdiv 146097 = ((z / 146097 : ℕ) : ℤ) := (Int.ofNat_tdiv z 146097).symm
  have hstart : i64 (((z / 146097 : ℕ) : ℤ) * 146097) = some ((z / 146097 * 146097 : ℕ) : ℤ) :=
    i64_eq (by omega) (by omega)
  have hdoe : i64 ((z : ℤ) - ((z / 146097 * 146097 : ℕ) : ℤ)) =
      some ((z - z / 146097 * 146097 : ℕ) : ℤ) := i64_eq (by omega) (by omega)
  unfold eraOf64
  rw [bind_of_some hsign, hera, bind_of_some hstart, bind_of_some hdoe, Option.pure_def]

theorem yearOf64_eq {doe : ℕ} (h : doe < 146097) :
    yearOf64 doe = some ((yearOfEra doe : ℤ),
      ((doe - (365 * yearOfEra doe + yearOfEra doe / 4 - yearOfEra doe / 100) : ℕ) : ℤ)) := by
  obtain ⟨hyear, hle, -⟩ := yearOfEra_spec h
  have hfours : (doe : ℤ).tdiv 1460 = ((doe / 1460 : ℕ) : ℤ) := (Int.ofNat_tdiv doe 1460).symm
  have hcenturies : (doe : ℤ).tdiv 36524 = ((doe / 36524 : ℕ) : ℤ) :=
    (Int.ofNat_tdiv doe 36524).symm
  have hlast : (doe : ℤ).tdiv 146096 = ((doe / 146096 : ℕ) : ℤ) :=
    (Int.ofNat_tdiv doe 146096).symm
  have ha : i64 ((doe : ℤ) - ((doe / 1460 : ℕ) : ℤ)) = some ((doe - doe / 1460 : ℕ) : ℤ) :=
    i64_eq (by omega) (by omega)
  have hb : i64 (((doe - doe / 1460 : ℕ) : ℤ) + ((doe / 36524 : ℕ) : ℤ)) =
      some ((doe - doe / 1460 + doe / 36524 : ℕ) : ℤ) := i64_eq (by omega) (by omega)
  have hc : i64 (((doe - doe / 1460 + doe / 36524 : ℕ) : ℤ) - ((doe / 146096 : ℕ) : ℤ)) =
      some ((doe - doe / 1460 + doe / 36524 - doe / 146096 : ℕ) : ℤ) :=
    i64_eq (by omega) (by omega)
  have hyoe : ((doe - doe / 1460 + doe / 36524 - doe / 146096 : ℕ) : ℤ).tdiv 365 =
      (yearOfEra doe : ℤ) := (Int.ofNat_tdiv _ 365).symm
  generalize yearOfEra doe = yoe at hyear hle hyoe ⊢
  have hquarter : (yoe : ℤ).tdiv 4 = ((yoe / 4 : ℕ) : ℤ) := (Int.ofNat_tdiv yoe 4).symm
  have hcentury : (yoe : ℤ).tdiv 100 = ((yoe / 100 : ℕ) : ℤ) := (Int.ofNat_tdiv yoe 100).symm
  have hd : i64 (365 * (yoe : ℤ)) = some ((365 * yoe : ℕ) : ℤ) := i64_eq (by omega) (by omega)
  have he : i64 (((365 * yoe : ℕ) : ℤ) + ((yoe / 4 : ℕ) : ℤ)) =
      some ((365 * yoe + yoe / 4 : ℕ) : ℤ) := i64_eq (by omega) (by omega)
  have hf : i64 (((365 * yoe + yoe / 4 : ℕ) : ℤ) - ((yoe / 100 : ℕ) : ℤ)) =
      some ((365 * yoe + yoe / 4 - yoe / 100 : ℕ) : ℤ) := i64_eq (by omega) (by omega)
  have hdoy : i64 ((doe : ℤ) - ((365 * yoe + yoe / 4 - yoe / 100 : ℕ) : ℤ)) =
      some ((doe - (365 * yoe + yoe / 4 - yoe / 100) : ℕ) : ℤ) := by
    unfold marchDays at hle
    exact i64_eq (by omega) (by omega)
  unfold yearOf64
  rw [hfours, bind_of_some ha, hcenturies, bind_of_some hb, hlast, bind_of_some hc, hyoe,
    bind_of_some hd, hquarter, bind_of_some he, hcentury, bind_of_some hf, bind_of_some hdoy,
    Option.pure_def]

theorem monthOf64_eq {doy : ℕ} (h : doy < 366) :
    monthOf64 doy = some (((marchMonth doy).1 : ℤ), ((marchMonth doy).2 : ℤ)) := by
  have ha : i64 (5 * (doy : ℤ)) = some ((5 * doy : ℕ) : ℤ) := i64_eq (by omega) (by omega)
  have hb : i64 (((5 * doy : ℕ) : ℤ) + 2) = some ((5 * doy + 2 : ℕ) : ℤ) :=
    i64_eq (by omega) (by omega)
  have hmp : ((5 * doy + 2 : ℕ) : ℤ).tdiv 153 = (((5 * doy + 2) / 153 : ℕ) : ℤ) :=
    (Int.ofNat_tdiv _ 153).symm
  have hle : (153 * ((5 * doy + 2) / 153) + 2) / 5 ≤ doy := by omega
  have hlt : (5 * doy + 2) / 153 < 12 := by omega
  unfold marchMonth
  dsimp only
  generalize (5 * doy + 2) / 153 = mp at hmp hle hlt ⊢
  have hc : i64 (153 * (mp : ℤ)) = some ((153 * mp : ℕ) : ℤ) := i64_eq (by omega) (by omega)
  have hd : i64 (((153 * mp : ℕ) : ℤ) + 2) = some ((153 * mp + 2 : ℕ) : ℤ) :=
    i64_eq (by omega) (by omega)
  have hdiv : ((153 * mp + 2 : ℕ) : ℤ).tdiv 5 = (((153 * mp + 2) / 5 : ℕ) : ℤ) :=
    (Int.ofNat_tdiv _ 5).symm
  have he : i64 ((doy : ℤ) - (((153 * mp + 2) / 5 : ℕ) : ℤ)) =
      some ((doy - (153 * mp + 2) / 5 : ℕ) : ℤ) := i64_eq (by omega) (by omega)
  have hday : i64 (((doy - (153 * mp + 2) / 5 : ℕ) : ℤ) + 1) =
      some ((doy - (153 * mp + 2) / 5 + 1 : ℕ) : ℤ) := i64_eq (by omega) (by omega)
  have hmonth : monthNumber64 (mp : ℤ) = some ((if mp < 10 then mp + 3 else mp - 9 : ℕ) : ℤ) := by
    unfold monthNumber64
    split_ifs <;> exact i64_eq (by omega) (by omega)
  have hmonth32 : asU32 ((if mp < 10 then mp + 3 else mp - 9 : ℕ) : ℤ) =
      ((if mp < 10 then mp + 3 else mp - 9 : ℕ) : ℤ) := asU32_cast (by split_ifs <;> omega)
  have hday32 : asU32 ((doy - (153 * mp + 2) / 5 + 1 : ℕ) : ℤ) =
      ((doy - (153 * mp + 2) / 5 + 1 : ℕ) : ℤ) := asU32_cast (by omega)
  unfold monthOf64
  rw [bind_of_some ha, bind_of_some hb, hmp, bind_of_some hc, bind_of_some hd, hdiv,
    bind_of_some he, bind_of_some hday, bind_of_some hmonth, hmonth32, hday32, Option.pure_def]

theorem marchYear_snd_lt (days : ℕ) : (marchYear days).2 < 366 := by
  obtain ⟨hday, hnext⟩ := marchYear_spec days
  have hlength : marchDays ((marchYear days).1 + 1) ≤ marchDays (marchYear days).1 + 366 := by
    unfold marchDays
    omega
  omega

theorem marchYear_fst_le (days : ℕ) : 365 * (marchYear days).1 ≤ days + 719468 := by
  have hday := (marchYear_spec days).1
  unfold marchDays at hday
  omega

/-- Nothing overflows if the shift of the day does not. -/
theorem civilFromDays64_eq {days : ℕ} (h : days + 719468 < 2 ^ 63) :
    civilFromDays64 days = some (((civilFromDays days).1 : ℤ), ((civilFromDays days).2.1 : ℤ),
      ((civilFromDays days).2.2 : ℤ)) := by
  have hdoe : days + 719468 - (days + 719468) / 146097 * 146097 < 146097 := by omega
  have hyoe := (yearOfEra_spec hdoe).1
  have hdoy := marchYear_snd_lt days
  have hyearOf := yearOf64_eq hdoe
  have hmonthOf := monthOf64_eq hdoy
  have hshift : i64 ((days : ℤ) + 719468) = some ((days + 719468 : ℕ) : ℤ) :=
    i64_eq (by omega) h
  have heraOf := eraOf64_eq h
  have hera : i64 (((days + 719468) / 146097 : ℕ) * 400 : ℤ) =
      some (((days + 719468) / 146097 * 400 : ℕ) : ℤ) := i64_eq (by omega) (by omega)
  have hyear : i64 ((yearOfEra (days + 719468 - (days + 719468) / 146097 * 146097) : ℤ) +
      (((days + 719468) / 146097 * 400 : ℕ) : ℤ)) = some ((marchYear days).1 : ℤ) :=
    i64_eq (by unfold marchYear; dsimp only; omega) (by unfold marchYear; dsimp only; omega)
  have hnumber : yearNumber64 ((marchYear days).1 : ℤ) ((marchMonth (marchYear days).2).1 : ℤ) =
      some (((if (marchMonth (marchYear days).2).1 ≤ 2 then (marchYear days).1 + 1
        else (marchYear days).1 : ℕ)) : ℤ) := by
    have hle := marchYear_fst_le days
    unfold yearNumber64
    split_ifs with hcast hmonth hmonth
    · exact i64_eq (by omega) (by omega)
    · omega
    · omega
    · rfl
  unfold civilFromDays64
  rw [bind_of_some hshift, bind_of_some heraOf]
  dsimp only
  rw [bind_of_some hyearOf]
  dsimp only
  rw [bind_of_some hera, bind_of_some hyear]
  change (monthOf64 ((marchYear days).2 : ℤ) >>= _) = _
  rw [bind_of_some hmonthOf]
  dsimp only
  rw [bind_of_some hnumber, civilFromDays_eq, Option.pure_def]

theorem civilFromDays64_overflow {days : ℕ} (h : 2 ^ 63 ≤ days + 719468) :
    civilFromDays64 days = none := by
  have hshift : i64 ((days : ℤ) + 719468) = none := if_neg (by omega)
  unfold civilFromDays64
  rw [hshift]
  rfl

/-- Every count of seconds is written as the date and time that it is. No day of such a count
overflows; in general a day overflows only in the shift to March of the year 0. -/
theorem signing_date_is_right :
    (∀ secs : UInt64, ∃ t : CivilTime, readAmzDate (formatAmzDate secs).1 = some t ∧ t.Valid ∧
        t.seconds = secs.toNat ∧
        (formatAmzDate secs).2.toList = (formatAmzDate secs).1.toList.takeWhile (· != 'T') ∧
        civilFromDays64 ((secs.toNat / 86400 : ℕ) : ℤ) =
          some ((t.year : ℤ), (t.month : ℤ), (t.day : ℤ))) ∧
      (∀ days : ℕ, ∃ y m d : ℕ, civilFromDays days = (y, m, d) ∧ ValidDate y m d ∧
        daysBefore y m + (d - 1) = days ∧
        civilFromDays64 days =
          if days + 719468 < 2 ^ 63 then some ((y : ℤ), (m : ℤ), (d : ℤ)) else none) ∧
      ∀ y m d : ℕ, ValidDate y m d → civilFromDays (daysBefore y m + (d - 1)) = (y, m, d) := by
  refine ⟨?_, ?_, fun y m d h => civilFromDays_daysBefore h⟩
  · intro secs
    obtain ⟨hread, hstamp⟩ := readAmzDate_formatAmzDate secs
    obtain ⟨hvalid, hseconds⟩ := timeOf_valid secs.toNat
    have hlt := secs.toNat_lt
    exact ⟨timeOf secs.toNat, hread, hvalid, hseconds, hstamp, civilFromDays64_eq (by omega)⟩
  · intro days
    obtain ⟨hvalid, hdays⟩ := civilFromDays_spec days
    refine ⟨(civilFromDays days).1, (civilFromDays days).2.1, (civilFromDays days).2.2, rfl, hvalid,
      hdays, ?_⟩
    split_ifs with h
    · exact civilFromDays64_eq h
    · exact civilFromDays64_overflow (Nat.le_of_not_lt h)

/-- The leap day of 2000, a century with one. -/
theorem leap_day_is_right :
    ValidDate 2000 2 29 ∧ civilFromDays (daysBefore 2000 2 + 28) = (2000, 2, 29) := by
  have hvalid : ValidDate 2000 2 29 := ⟨by decide, by decide, by decide, by decide, by decide⟩
  exact ⟨hvalid, signing_date_is_right.2.2 2000 2 29 hvalid⟩

/-- The last day of 64 bits overflows. -/
theorem last_day_overflows :
    ¬ ∀ days : ℕ, days < 2 ^ 63 → (civilFromDays64 days).isSome := by
  intro h
  have hsome := h (2 ^ 63 - 1) (by decide)
  rw [civilFromDays64_overflow (by decide)] at hsome
  exact absurd hsome (by decide)

end VaultplaneGateway.SigningDates
