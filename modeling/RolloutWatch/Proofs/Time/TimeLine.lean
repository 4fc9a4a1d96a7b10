import RolloutWatch.Proofs.Time.Order
import RolloutWatch.Proofs.Time.RowText
import Mathlib.Algebra.Order.SuccPred
import Mathlib.Data.Prod.Lex

/-!
The line of time. An instant is a day, counted from the first one of the year 0, a second of that
day and nanoseconds. A leap second lasts longer than others: the nanoseconds of the second before
it go on past its end. Calendar fields are compared from the year down, and that is the order on
this line. Fields that are written at an offset from universal time are moved along it.
-/

namespace RolloutWatch

namespace Calendar

def daysInYear (year : Int) : Nat :=
  if isLeapYear year then 366 else 365

/-- The days from the start of the year 0 to the start of a year: 365 for each year, and one for
each year that is divided by 4, but not by 100, unless by 400. -/
def daysBeforeYear (year : Int) : Int :=
  365 * year + (year + 3) / 4 - (year + 99) / 100 + (year + 399) / 400

def daysInMonths (year : Int) : Nat → Nat
  | 0 => 0
  | n + 1 => daysInMonths year n + daysInMonth year (n + 1)

theorem daysBeforeYear_succ (year : Int) :
    daysBeforeYear (year + 1) = daysBeforeYear year + daysInYear year := by
  unfold daysBeforeYear daysInYear isLeapYear
  by_cases four : year % 4 = 0 <;> by_cases hundred : year % 100 = 0 <;>
    by_cases fourHundred : year % 400 = 0 <;>
    simp only [four, hundred, fourHundred, ne_eq, not_true_eq_false, not_false_eq_true,
      decide_true, decide_false, Bool.or_true, Bool.or_false, Bool.and_true, Bool.and_false,
      Bool.false_eq_true, if_true, if_false] <;>
    push_cast <;>
    omega

theorem daysBeforeYear_le {year later : Int} (le : year ≤ later) :
    daysBeforeYear year ≤ daysBeforeYear later := by
  refine monotone_int_of_le_succ (fun year => ?_) le
  rw [daysBeforeYear_succ]
  omega

theorem one_le_daysInMonth (year : Int) (month : Nat) : 1 ≤ daysInMonth year month := by
  unfold daysInMonth
  split
  · split <;> omega
  all_goals omega

theorem daysInMonths_monotone (year : Int) : Monotone (daysInMonths year) :=
  monotone_nat_of_le_succ fun _ => Nat.le_add_right _ _

theorem daysInMonths_twelve (year : Int) : daysInMonths year 12 = daysInYear year := by
  unfold daysInYear
  cases leap : isLeapYear year <;> simp [daysInMonths, daysInMonth, leap]

end Calendar

namespace Civil

open Calendar

/-- The number of the day, where the first day of the year 0 is the day 0. -/
def dayNumber (c : Civil) : Int :=
  daysBeforeYear c.year + (daysInMonths c.year (c.month - 1) + (c.day - 1) : Nat)

/-- The seconds since midnight. A leap second belongs to the second before it. -/
def secondOfDay (c : Civil) : Nat :=
  (c.hour * 60 + c.minute) * 60 + min c.second 59

def nanoOfSecond (c : Civil) : Nat :=
  if c.second = 60 then 1000000000 + c.nano else c.nano

/-! ### Days -/

theorem day_le_daysInMonths {c : Civil} (valid : c.Valid) :
    daysInMonths c.year (c.month - 1) + (c.day - 1) < daysInMonths c.year c.month := by
  obtain ⟨-, ⟨january, -⟩, ⟨first, last⟩, -⟩ := valid
  obtain ⟨before, month⟩ : ∃ before, c.month = before + 1 := ⟨c.month - 1, by omega⟩
  rw [month] at last ⊢
  rw [daysInMonths, Nat.add_sub_cancel]
  omega

theorem dayNumber_lt_year {c : Civil} (valid : c.Valid) :
    c.dayNumber < daysBeforeYear (c.year + 1) := by
  have inMonths := day_le_daysInMonths valid
  have inYear := daysInMonths_monotone c.year valid.2.1.2
  rw [daysInMonths_twelve] at inYear
  rw [daysBeforeYear_succ]
  unfold dayNumber
  omega

/-- A date that is earlier by its fields has the smaller number. -/
theorem dayNumber_lt {c d : Civil} (valid : c.Valid)
    (earlier : c.year < d.year ∨
      c.year = d.year ∧ (c.month < d.month ∨ c.month = d.month ∧ c.day < d.day)) :
    c.dayNumber < d.dayNumber := by
  obtain year | ⟨sameYear, month | ⟨sameMonth, day⟩⟩ := earlier
  · have ends := dayNumber_lt_year valid
    have starts := daysBeforeYear_le (Int.add_one_le_of_lt year)
    have later : daysBeforeYear d.year ≤ d.dayNumber := Int.le_add_of_nonneg_right (by omega)
    omega
  · have ends := day_le_daysInMonths valid
    have starts := daysInMonths_monotone c.year (Nat.le_sub_one_of_lt month)
    unfold dayNumber
    rw [← sameYear]
    omega
  · have first := valid.2.2.1.1
    unfold dayNumber
    rw [sameYear, sameMonth]
    omega

theorem dayNumber_nextDay {c : Civil} (valid : c.Valid) :
    c.nextDay.dayNumber = c.dayNumber + 1 := by
  obtain ⟨-, ⟨january, december⟩, ⟨first, last⟩, -⟩ := valid
  obtain ⟨before, month⟩ : ∃ before, c.month = before + 1 := ⟨c.month - 1, by omega⟩
  unfold nextDay
  split
  · unfold dayNumber
    simp only
    omega
  · have lastDay : c.day = daysInMonth c.year c.month := by omega
    have months : daysInMonths c.year c.month =
        daysInMonths c.year (c.month - 1) + daysInMonth c.year c.month := by
      rw [month, daysInMonths, Nat.add_sub_cancel]
    split
    · unfold dayNumber
      simp only [Nat.add_sub_cancel]
      omega
    · have lastMonth : c.month = 12 := by omega
      have year := daysInMonths_twelve c.year
      have zero : daysInMonths (c.year + 1) 0 = 0 := rfl
      rw [lastMonth] at months lastDay
      unfold dayNumber
      simp only [lastMonth, daysBeforeYear_succ, Nat.sub_self, zero] at months ⊢
      omega

theorem dayNumber_previousDay {c : Civil} (valid : c.Valid) :
    c.previousDay.dayNumber = c.dayNumber - 1 := by
  obtain ⟨-, ⟨january, december⟩, ⟨first, last⟩, -⟩ := valid
  unfold previousDay
  split
  · unfold dayNumber
    simp only
    omega
  · have firstDay : c.day = 1 := by omega
    split
    · obtain ⟨before, month⟩ : ∃ before, c.month = before + 2 := ⟨c.month - 2, by omega⟩
      have months : daysInMonths c.year (c.month - 1) =
          daysInMonths c.year (c.month - 1 - 1) + daysInMonth c.year (c.month - 1) := by
        rw [month]
        rfl
      have some := one_le_daysInMonth c.year (c.month - 1)
      unfold dayNumber
      simp only
      omega
    · have firstMonth : c.month = 1 := by omega
      have year := daysBeforeYear_succ (c.year - 1)
      rw [Int.sub_add_cancel] at year
      have months : daysInYear (c.year - 1) = daysInMonths (c.year - 1) (12 - 1) + 31 :=
        (daysInMonths_twelve (c.year - 1)).symm
      have zero : daysInMonths c.year 0 = 0 := rfl
      unfold dayNumber
      simp only [firstMonth, firstDay, Nat.sub_self, zero]
      omega

/-! ### Offsets from universal time -/

/-- The minutes since the start of the year 0. -/
def minuteNumber (c : Civil) : Int :=
  c.dayNumber * 1440 + (c.hour * 60 + c.minute : Nat)

theorem minuteNumber_of_minutes (c : Civil) {minutes : Int} (start : 0 ≤ minutes) :
    minuteNumber { c with hour := minutes.toNat / 60, minute := minutes.toNat % 60 } =
      c.dayNumber * 1440 + minutes := by
  have day : dayNumber { c with hour := minutes.toNat / 60, minute := minutes.toNat % 60 } =
      c.dayNumber := rfl
  unfold minuteNumber
  rw [day]
  simp only
  omega

/-- Fields that are written at an offset of less than a day are moved by so many minutes, into the
day before or the day after if need be. -/
theorem minuteNumber_toUniversal {c : Civil} (valid : c.Valid) {offsetMinutes : Int}
    (least : -1440 < offsetMinutes) (most : offsetMinutes < 1440) :
    (c.toUniversal offsetMinutes).minuteNumber = c.minuteNumber - offsetMinutes := by
  have before := dayNumber_previousDay valid
  have after := dayNumber_nextDay valid
  obtain ⟨-, -, -, hours, minutes, -⟩ := valid
  have own : c.minuteNumber = c.dayNumber * 1440 + ((c.hour : Int) * 60 + c.minute) := by
    unfold minuteNumber
    push_cast
    rfl
  unfold toUniversal
  simp only
  split
  · rw [minuteNumber_of_minutes _ (by omega), before, own]
    omega
  · split
    · rw [minuteNumber_of_minutes _ (by omega), after, own]
      omega
    · simp only
      rw [minuteNumber_of_minutes _ (by omega), own]
      omega

/-! ### The order of fields -/

theorem key_lt_key {c d : Civil} :
    c.key < d.key ↔
      (c.year < d.year ∨
        c.year = d.year ∧ (c.month < d.month ∨ c.month = d.month ∧ c.day < d.day)) ∨
      (c.year = d.year ∧ c.month = d.month ∧ c.day = d.day) ∧
        (c.hour < d.hour ∨ c.hour = d.hour ∧ (c.minute < d.minute ∨ c.minute = d.minute ∧
          (c.second < d.second ∨ c.second = d.second ∧ c.nano < d.nano))) := by
  unfold key
  simp only [List.cons_lt_cons_iff, Nat.cast_lt, Nat.cast_inj, List.lt_irrefl, and_false, or_false]
  tauto

/-- A time of day that is earlier by its fields is earlier by seconds, or by nanoseconds. Only
when a leap second follows its own second are the seconds the same. -/
theorem timeOfDay_lt {c d : Civil} (cValid : c.Valid) (dValid : d.Valid)
    (earlier : c.hour < d.hour ∨ c.hour = d.hour ∧ (c.minute < d.minute ∨ c.minute = d.minute ∧
      (c.second < d.second ∨ c.second = d.second ∧ c.nano < d.nano))) :
    c.secondOfDay < d.secondOfDay ∨
      c.secondOfDay = d.secondOfDay ∧ c.nanoOfSecond < d.nanoOfSecond := by
  obtain ⟨-, -, -, -, cMinute, cSecond, cNano⟩ := cValid
  obtain ⟨-, -, -, -, dMinute, dSecond, dNano⟩ := dValid
  unfold secondOfDay nanoOfSecond
  obtain hour | ⟨sameHour, minute | ⟨sameMinute, second | ⟨sameSecond, nano⟩⟩⟩ := earlier
  · left
    omega
  · left
    omega
  · by_cases leap : d.second = 60
    · rw [if_pos leap, if_neg (by omega)]
      omega
    · left
      omega
  · right
    rw [sameHour, sameMinute, sameSecond]
    refine ⟨rfl, ?_⟩
    split <;> omega

end Civil

namespace Instant

/-- The place on the line of time: the day, the second of the day and the nanoseconds, compared
in this order. The days are numbered one after the other, by `Civil.dayNumber_nextDay`. -/
def moment (t : Instant) : Int ×ₗ (Nat ×ₗ Nat) :=
  toLex (t.civil.dayNumber, toLex (t.civil.secondOfDay, t.civil.nanoOfSecond))

-- From the start of the year 0 to the start of 1970 there are 719528 days.
example : epoch.moment = toLex (719528, toLex (0, 0)) := by decide

theorem moment_lt_of_before {t u : Instant} (earlier : t.before u = true) :
    t.moment < u.moment := by
  unfold moment
  rw [Prod.Lex.toLex_lt_toLex, Prod.Lex.toLex_lt_toLex]
  obtain date | ⟨⟨year, month, day⟩, time⟩ := Civil.key_lt_key.mp (of_decide_eq_true earlier)
  · exact .inl (Civil.dayNumber_lt t.valid date)
  · refine .inr ⟨?_, Civil.timeOfDay_lt t.valid u.valid time⟩
    unfold Civil.dayNumber
    simp only [year, month, day]

/-- Instants are ordered by their fields as they are on the line of time. -/
theorem before_iff_moment_lt {t u : Instant} : t.before u = true ↔ t.moment < u.moment := by
  refine ⟨moment_lt_of_before, fun earlier => ?_⟩
  rcases lt_trichotomy t.civil.key u.civil.key with before | same | after
  · exact decide_eq_true before
  · rw [key_injective same] at earlier
    exact absurd earlier (lt_irrefl _)
  · exact absurd earlier (lt_asymm (moment_lt_of_before (decide_eq_true after)))

theorem moment_injective {t u : Instant} (same : t.moment = u.moment) : t = u := by
  apply eq_of_not_before <;>
    rw [← Bool.not_eq_true, before_iff_moment_lt, same] <;>
    exact lt_irrefl _

end Instant

end RolloutWatch
