import Mathlib.Data.Nat.Init
import Mathlib.Tactic.IntervalCases
import StackMachine.Calendar

/-!
The Gregorian calendar, carried back and forth without end, and the date of a day number.

The calendar is told by the lengths of its years and months alone: they say which dates there are,
which date comes next, and how many days lie before a date. The main statement says that
`Date.ofDays`, with its divisions by the lengths of four years, of a century and of an era, finds
the one date with so many days before it.
-/

namespace StackMachine.Calendar

/-! ## 1. The calendar -/

/-- Every fourth year is a leap year, but of the full centuries only every fourth one. -/
def isLeap (year : Nat) : Bool := year % 4 = 0 && (year % 100 ≠ 0 || year % 400 = 0)

def yearLength (year : Nat) : Nat := if isLeap year then 366 else 365

def monthLength (year month : Nat) : Nat :=
  if month = 2 then if isLeap year then 29 else 28
  else if month = 4 ∨ month = 6 ∨ month = 9 ∨ month = 11 then 30
  else 31

/-- Days of the years before `year`, from the year zero on. -/
def daysOfYears : (year : Nat) → Nat
  | 0 => 0
  | year + 1 => daysOfYears year + yearLength year

/-- Days of the first months of a year. -/
def daysOfMonths (year : Nat) : (months : Nat) → Nat
  | 0 => 0
  | months + 1 => daysOfMonths year months + monthLength year (months + 1)

namespace Date

/-- The calendar has such a date. -/
structure Valid (date : Date) : Prop where
  month_pos : 1 ≤ date.month
  month_le : date.month ≤ 12
  day_pos : 1 ≤ date.day
  day_le : date.day ≤ monthLength date.year date.month

/-- The date that follows in the calendar. -/
def next (date : Date) : Date :=
  if date.day < monthLength date.year date.month then { date with day := date.day + 1 }
  else if date.month < 12 then { date with month := date.month + 1, day := 1 }
  else ⟨date.year + 1, 1, 1⟩

/-- The number of a day, where 1 January of the year zero has number one. -/
def dayCount (date : Date) : Nat :=
  daysOfYears date.year + daysOfMonths date.year (date.month - 1) + date.day

def epoch : Date := ⟨1970, 1, 1⟩

end Date

/-! ## 2. From one date to the next -/

theorem isLeap_iff (year : Nat) :
    isLeap year = true ↔ year % 4 = 0 ∧ (year % 100 ≠ 0 ∨ year % 400 = 0) := by
  simp [isLeap]

theorem yearLength_cases (year : Nat) :
    (year % 4 = 0 ∧ (year % 100 ≠ 0 ∨ year % 400 = 0)) ∧ yearLength year = 366 ∨
      ¬ (year % 4 = 0 ∧ (year % 100 ≠ 0 ∨ year % 400 = 0)) ∧ yearLength year = 365 := by
  rw [yearLength, ← isLeap_iff]
  by_cases h : isLeap year = true
  · exact .inl ⟨h, if_pos h⟩
  · exact .inr ⟨h, if_neg h⟩

theorem monthLength_february (year : Nat) : monthLength year 2 + 337 = yearLength year := by
  rw [monthLength, yearLength, if_pos rfl]
  split <;> rfl

theorem monthLength_pos (year month : Nat) : 1 ≤ monthLength year month := by
  unfold monthLength
  split_ifs <;> decide

theorem monthLength_le (year month : Nat) : monthLength year month ≤ 31 := by
  unfold monthLength
  split_ifs <;> decide

theorem daysOfMonths_eleven (year : Nat) : daysOfMonths year 11 + 31 = yearLength year := by
  have hfebruary := monthLength_february year
  show 0 + 31 + monthLength year 2 + 31 + 30 + 31 + 30 + 31 + 31 + 30 + 31 + 30 + 31 =
      yearLength year
  omega

namespace Date

variable {date : Date}

theorem Valid.next (h : date.Valid) : date.next.Valid := by
  obtain ⟨hmonth, hmonth', hday, hday'⟩ := h
  unfold Date.next
  split_ifs with hlater hdecember
  · exact ⟨hmonth, hmonth', Nat.le_add_left 1 _, hlater⟩
  · exact ⟨Nat.le_add_left 1 _, hdecember, Nat.le_refl 1, monthLength_pos _ _⟩
  · exact ⟨Nat.le_refl 1, show 1 ≤ 12 by decide, Nat.le_refl 1, monthLength_pos _ _⟩

theorem Valid.dayCount_next (h : date.Valid) : date.next.dayCount = date.dayCount + 1 := by
  obtain ⟨hmonth, hmonth', hday, hday'⟩ := h
  unfold Date.next
  split_ifs with hlater hdecember
  · rfl
  · have hmonths : daysOfMonths date.year date.month =
        daysOfMonths date.year (date.month - 1) + monthLength date.year date.month := by
      rw [show date.month = date.month - 1 + 1 by omega]
      rfl
    show daysOfYears date.year + daysOfMonths date.year date.month + 1 = date.dayCount + 1
    rw [dayCount]
    omega
  · have hlast : date.month = 12 := by omega
    rw [hlast] at hlater hday'
    have hdecember : monthLength date.year 12 = 31 := rfl
    have hmonths := daysOfMonths_eleven date.year
    show daysOfYears date.year + yearLength date.year + 0 + 1 = date.dayCount + 1
    rw [dayCount, hlast]
    show _ = daysOfYears date.year + daysOfMonths date.year 11 + date.day + 1
    omega

/-- The calendar goes on for any number of days. -/
theorem exists_dayCount (n : Nat) :
    ∃ date : Date, date.Valid ∧ date.dayCount = epoch.dayCount + n := by
  induction n with
  | zero => exact ⟨epoch, ⟨by decide, by decide, by decide, by decide⟩, (Nat.add_zero _).symm⟩
  | succ n ih =>
    obtain ⟨date, hvalid, hcount⟩ := ih
    exact ⟨date.next, hvalid.next, by rw [hvalid.dayCount_next, hcount, Nat.add_assoc]⟩

end Date

/-! ## 3. Counting from March -/

/-- The date of a day of a month, when years and months start in March and days and months are
counted from zero. -/
def ofMarch (year month day : Nat) : Date :=
  let civilMonth := if month < 10 then month + 3 else month - 9
  { year := if civilMonth ≤ 2 then year + 1 else year
    month := civilMonth
    day := day + 1 }

/-- Days from 1 March of the year zero to 1 March of `year`. -/
def daysBeforeMarch (year : Nat) : Nat := 365 * year + year / 4 + year / 400 - year / 100

/-- The leap rule as a sum: a day more for every fourth year, one less for a century, one more for
every fourth of these. -/
theorem yearLength_add (year : Nat) :
    yearLength year + (if 100 ∣ year then 1 else 0) =
      365 + (if 4 ∣ year then 1 else 0) + (if 400 ∣ year then 1 else 0) := by
  simp only [yearLength, isLeap_iff]
  split_ifs <;> omega

-- The leap day of a year that starts in March is in February of the next civil year.
theorem daysBeforeMarch_succ (year : Nat) :
    daysBeforeMarch (year + 1) = daysBeforeMarch year + yearLength (year + 1) := by
  have hlength := yearLength_add (year + 1)
  have hcenturies : year / 100 ≤ year / 4 := Nat.div_le_div_left (by decide) (by decide)
  rw [daysBeforeMarch, daysBeforeMarch, Nat.succ_div, Nat.succ_div, Nat.succ_div]
  omega

theorem le_daysBeforeMarch (year : Nat) : year ≤ daysBeforeMarch year := by
  rw [daysBeforeMarch]
  omega

theorem daysOfYears_succ (year : Nat) : daysOfYears (year + 1) = daysBeforeMarch year + 366 := by
  induction year with
  | zero => rfl
  | succ year ih =>
    rw [daysOfYears, ih, daysBeforeMarch_succ]
    omega

theorem daysBeforeMonth_succ (year : Nat) {month : Nat} (h : month < 10) :
    daysBeforeMonth (month + 1) = daysBeforeMonth month + monthLength year (month + 3) := by
  interval_cases month <;> rfl

theorem daysOfMonths_march (year : Nat) {month : Nat} (h : month < 10) :
    daysOfMonths year (month + 2) + 306 = yearLength year + daysBeforeMonth month := by
  induction month with
  | zero =>
    show 0 + 31 + monthLength year 2 + 306 = yearLength year + 0
    have hfebruary := monthLength_february year
    omega
  | succ month ih =>
    have hmonths := ih (by omega)
    rw [daysBeforeMonth_succ year (by omega)]
    show daysOfMonths year (month + 2) + monthLength year (month + 3) + 306 = _
    omega

theorem ofMarch_of_lt (year day : Nat) {month : Nat} (h : month < 10) :
    ofMarch year month day = ⟨year, month + 3, day + 1⟩ := by
  simp only [ofMarch, if_pos h, if_neg (show ¬ month + 3 ≤ 2 by omega)]

theorem dayCount_ofMarch (year day : Nat) {month : Nat} (h : month < 12) :
    (ofMarch year month day).dayCount =
      daysBeforeMarch year + (daysBeforeMonth month + day) + 61 := by
  have hyears := daysOfYears_succ year
  obtain hmonth | rfl | rfl : month < 10 ∨ month = 10 ∨ month = 11 := by omega
  · have hmonths := daysOfMonths_march year hmonth
    rw [daysOfYears] at hyears
    rw [ofMarch_of_lt year day hmonth]
    show daysOfYears year + daysOfMonths year (month + 2) + (day + 1) = _
    omega
  · show daysOfYears (year + 1) + 0 + (day + 1) = daysBeforeMarch year + (306 + day) + 61
    omega
  · show daysOfYears (year + 1) + (0 + 31) + (day + 1) = daysBeforeMarch year + (337 + day) + 61
    omega

/-- In March years a day falls into the month that starts last before it. -/
theorem monthOfYear_eq_iff {dayOfYear month : Nat} :
    monthOfYear dayOfYear = month ↔
      daysBeforeMonth month ≤ dayOfYear ∧ dayOfYear < daysBeforeMonth (month + 1) := by
  rw [monthOfYear, daysBeforeMonth, daysBeforeMonth]
  omega

/-- A day of a month of a March year lies in that month and in that year. -/
theorem day_lt_of_valid {year month day : Nat} (hmonth : month < 12)
    (h : (ofMarch year month day).Valid) :
    daysBeforeMonth month + day < daysBeforeMonth (month + 1) ∧
    daysBeforeMonth month + day < yearLength (year + 1) := by
  have hyear := yearLength_cases (year + 1)
  have hday := h.day_le
  obtain hmonth | rfl | rfl : month < 10 ∨ month = 10 ∨ month = 11 := by omega
  · rw [ofMarch_of_lt year day hmonth] at hday
    have hnext := daysBeforeMonth_succ year hmonth
    have hlast : daysBeforeMonth (month + 1) ≤ 306 := by
      rw [daysBeforeMonth]
      omega
    have hday' : day + 1 ≤ monthLength year (month + 3) := hday
    omega
  · have hday' : day + 1 ≤ 31 := hday
    show 306 + day < 337 ∧ 306 + day < yearLength (year + 1)
    omega
  · have hday' : day + 1 ≤ monthLength (year + 1) 2 := hday
    have hfebruary := monthLength_february (year + 1)
    show 337 + day < 367 ∧ 337 + day < yearLength (year + 1)
    omega

theorem exists_ofMarch {date : Date} (h : date.Valid) (hyear : 3 ≤ date.month ∨ 1 ≤ date.year) :
    ∃ year month day, month < 12 ∧ date = ofMarch year month day := by
  obtain ⟨year, month, day⟩ := date
  obtain ⟨hmonth : 1 ≤ month, hmonth' : month ≤ 12, hday : 1 ≤ day, -⟩ := h
  obtain ⟨day, rfl⟩ := Nat.exists_eq_add_of_le' hday
  by_cases hmarch : 3 ≤ month
  · obtain ⟨month, rfl⟩ := Nat.exists_eq_add_of_le' hmarch
    exact ⟨year, month, day, by omega, (ofMarch_of_lt year day (by omega)).symm⟩
  · obtain ⟨year, rfl⟩ := Nat.exists_eq_add_of_le' (hyear.resolve_left hmarch)
    obtain rfl | rfl : month = 1 ∨ month = 2 := by omega
    · exact ⟨year, 10, day, by decide, rfl⟩
    · exact ⟨year, 11, day, by decide, rfl⟩

theorem dayCount_epoch : Date.epoch.dayCount = epochDay + 61 := by
  have hyears : daysOfYears 1970 = daysBeforeMarch 1969 + 366 := daysOfYears_succ 1969
  rw [Date.dayCount, Date.epoch, hyears]
  rfl

/-! ## 4. Eras, years and months of a day -/

section

variable {year day dayOfEra : Nat}

theorem yearLength_mod (year : Nat) : yearLength (year % 400 + 1) = yearLength (year + 1) := by
  have hfourth : (year % 400 + 1) % 4 = (year + 1) % 4 := by omega
  have hcentury : (year % 400 + 1) % 100 = (year + 1) % 100 := by omega
  have hera : (year % 400 + 1) % 400 = (year + 1) % 400 := by omega
  rw [yearLength, yearLength, isLeap, isLeap, hfourth, hcentury, hera]

theorem daysBeforeMarch_eq (year : Nat) :
    daysBeforeMarch year = daysPerEra * (year / 400) + daysBeforeYear (year % 400) := by
  have hfourths : year / 4 = 100 * (year / 400) + year % 400 / 4 := by omega
  have hcenturies : year / 100 = 4 * (year / 400) + year % 400 / 100 := by omega
  rw [daysBeforeMarch, daysBeforeYear, daysPerEra, hfourths, hcenturies]
  omega

theorem lt_daysPerEra (hyear : year < 400) (hday : day < yearLength (year + 1)) :
    daysBeforeYear year + day < daysPerEra := by
  have hlength := yearLength_cases (year + 1)
  rw [daysBeforeYear, daysPerEra]
  omega

/-- Eras are split off exactly. -/
theorem era_of_day (hday : day < yearLength (year + 1)) :
    (daysBeforeMarch year + day) / daysPerEra = year / 400 ∧
      (daysBeforeMarch year + day) % daysPerEra = daysBeforeYear (year % 400) + day := by
  rw [← yearLength_mod] at hday
  have hlt := lt_daysPerEra (Nat.mod_lt year (by decide)) hday
  rw [daysBeforeMarch_eq, Nat.add_assoc, Nat.mul_add_div (by decide), Nat.mul_add_mod,
    Nat.div_eq_of_lt hlt, Nat.mod_eq_of_lt hlt, Nat.add_zero]
  exact ⟨rfl, rfl⟩

-- Four years have 1461 days, so the quotient by 1460 may be one ahead, but never on the first day
-- of a year.
theorem fourths_of_day (hyear : year < 400) (hday : day < yearLength (year + 1))
    (hera : dayOfEra = daysBeforeYear year + day) :
    dayOfEra / 1460 = year / 4 ∧ day < 365 ∨
      dayOfEra / 1460 = year / 4 + 1 ∧ 0 < day ∧ day ≤ 365 := by
  have hlength := yearLength_cases (year + 1)
  rw [daysBeforeYear] at hera
  omega

-- A century has 36524 days; only the leap day at the end of the era comes after all of its four
-- centuries.
theorem centuries_of_day (hyear : year < 400) (hday : day < yearLength (year + 1))
    (hera : dayOfEra = daysBeforeYear year + day) :
    dayOfEra / 36524 = year / 100 + dayOfEra / 146096 := by
  have hlength := yearLength_cases (year + 1)
  have hcentury :
      dayOfEra = 36524 * (year / 100) + (365 * (year % 100) + year % 100 / 4 + day) := by
    rw [hera, daysBeforeYear]
    omega
  have hrest : 365 * (year % 100) + year % 100 / 4 + day < 36524 ∨ year = 399 ∧ day = 365 := by
    omega
  clear hera
  obtain hrest | ⟨rfl, rfl⟩ := hrest
  · generalize 365 * (year % 100) + year % 100 / 4 + day = rest at hcentury hrest
    omega
  · omega

theorem yearOfEra_of_day (hyear : year < 400) (hday : day < yearLength (year + 1))
    (hera : dayOfEra = daysBeforeYear year + day) : yearOfEra dayOfEra = year := by
  have hfourths := fourths_of_day hyear hday hera
  rw [yearOfEra, centuries_of_day hyear hday hera]
  rw [daysBeforeYear] at hera
  -- what is left of the day behind the whole years does not fill a year
  have hdays : dayOfEra - dayOfEra / 1460 + (year / 100 + dayOfEra / 146096) - dayOfEra / 146096 =
      365 * year + (year / 4 + day - dayOfEra / 1460) := by omega
  have hrest : year / 4 + day - dayOfEra / 1460 < 365 := by omega
  rw [hdays, Nat.mul_add_div (by decide), Nat.div_eq_of_lt hrest, Nat.add_zero]

theorem dayOfYear_of_day (hyear : year < 400) (hday : day < yearLength (year + 1)) :
    dayOfYear (daysBeforeYear year + day) = day := by
  rw [dayOfYear, yearOfEra_of_day hyear hday rfl, Nat.add_sub_cancel_left]

/-- The date is found from the March year and the day in it. -/
theorem ofDays_eq_ofMarch {n : Nat} (hday : day < yearLength (year + 1))
    (h : n + epochDay = daysBeforeMarch year + day) :
    Date.ofDays n = ofMarch year (monthOfYear day) (day - daysBeforeMonth (monthOfYear day)) := by
  obtain ⟨hera, hdayOfEra⟩ := era_of_day hday
  have hmod : year % 400 < 400 := Nat.mod_lt year (by decide)
  rw [← yearLength_mod] at hday
  show ofMarch (yearOfEra ((n + epochDay) % daysPerEra) + 400 * ((n + epochDay) / daysPerEra))
    (monthOfYear (dayOfYear ((n + epochDay) % daysPerEra)))
    (dayOfYear ((n + epochDay) % daysPerEra) -
      daysBeforeMonth (monthOfYear (dayOfYear ((n + epochDay) % daysPerEra)))) = _
  rw [h, hera, hdayOfEra, yearOfEra_of_day hmod hday rfl, dayOfYear_of_day hmod hday,
    Nat.mod_add_div]

end

/-! ## 5. The date of a day number -/

namespace Date

variable {date : Date} {n : Nat}

theorem Valid.dayCount_le (h : date.Valid) (hyear : date.year = 0) (hmonth : date.month ≤ 2) :
    date.dayCount ≤ 60 := by
  obtain ⟨year, month, day⟩ := date
  obtain ⟨hmonth' : 1 ≤ month, -, -, hday : day ≤ monthLength year month⟩ := h
  obtain rfl : year = 0 := hyear
  obtain rfl | rfl : month = 1 ∨ month = 2 := Nat.le_and_le_add_one_iff.1 ⟨hmonth', hmonth⟩
  · have hday' : day ≤ 31 := hday
    show 0 + 0 + day ≤ 60
    omega
  · have hday' : day ≤ 29 := hday
    show 0 + (0 + 31) + day ≤ 60
    omega

/-- A date of the calendar, from the epoch on, is a day of a March year. -/
theorem Valid.exists_march (h : date.Valid) (hcount : date.dayCount = epoch.dayCount + n) :
    ∃ year month day, date = ofMarch year month day ∧
      n + epochDay = daysBeforeMarch year + (daysBeforeMonth month + day) ∧
      daysBeforeMonth month + day < daysBeforeMonth (month + 1) ∧
      daysBeforeMonth month + day < yearLength (year + 1) := by
  rw [dayCount_epoch, epochDay] at hcount
  have hyear : 3 ≤ date.month ∨ 1 ≤ date.year := by
    by_contra hfirst
    have hfew := h.dayCount_le (by omega) (by omega)
    omega
  obtain ⟨year, month, day, hmonth, rfl⟩ := exists_ofMarch h hyear
  rw [dayCount_ofMarch year day hmonth] at hcount
  refine ⟨year, month, day, rfl, ?_, day_lt_of_valid hmonth h⟩
  rw [epochDay]
  omega

theorem exists_dayOfYear (n : Nat) :
    ∃ year day, n + epochDay = daysBeforeMarch year + day ∧ day < yearLength (year + 1) := by
  obtain ⟨date, hvalid, hcount⟩ := exists_dayCount n
  obtain ⟨year, month, day, -, hn, -, hyear⟩ := hvalid.exists_march hcount
  exact ⟨year, daysBeforeMonth month + day, hn, hyear⟩

theorem Valid.eq_ofDays (h : date.Valid) (hcount : date.dayCount = epoch.dayCount + n) :
    date = Date.ofDays n := by
  obtain ⟨year, month, day, rfl, hn, hmonth, hyear⟩ := h.exists_march hcount
  have hmonth' : monthOfYear (daysBeforeMonth month + day) = month :=
    monthOfYear_eq_iff.2 ⟨Nat.le_add_right _ _, hmonth⟩
  rw [ofDays_eq_ofMarch hyear hn, hmonth', Nat.add_sub_cancel_left]

/-- The calendar has one date with so many days between the epoch and it, and it is the one that is
found. -/
theorem valid_and_dayCount_iff :
    date.Valid ∧ date.dayCount = epoch.dayCount + n ↔ date = Date.ofDays n := by
  constructor
  · rintro ⟨hvalid, hcount⟩
    exact hvalid.eq_ofDays hcount
  · rintro rfl
    obtain ⟨date, hvalid, hcount⟩ := exists_dayCount n
    rw [← hvalid.eq_ofDays hcount]
    exact ⟨hvalid, hcount⟩

theorem ofDays_succ (n : Nat) : Date.ofDays (n + 1) = (Date.ofDays n).next := by
  obtain ⟨hvalid, hcount⟩ := valid_and_dayCount_iff.2 (rfl : Date.ofDays n = Date.ofDays n)
  symm
  rw [← valid_and_dayCount_iff, hvalid.dayCount_next, hcount, Nat.add_assoc]
  exact ⟨hvalid.next, rfl⟩

example : Date.ofDays 11016 = ⟨2000, 2, 29⟩ ∧ Date.ofDays 11017 = ⟨2000, 3, 1⟩ := by decide

end Date

end StackMachine.Calendar
