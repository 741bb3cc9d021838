import StackMachine.Proofs.Gregorian

/-!
The date of a day number in integers of fixed width: days and years as signed words of 64 bits, and
everything inside of an era as counts of 32 bits. Every sum, difference and product is compared with
the exact one.

The main statement says that none of them differs, for every number of days in a clock of seconds,
and that the result is the date that the calendar has for the day.
-/

namespace StackMachine.Calendar.FixedWidth

/-! ## 1. Checked operations -/

/-- The exact value of an operation has no place in the type of its result. -/
structure Overflow where
  value : Int
deriving DecidableEq, Repr

/-- The result of an operation, if it stands for the exact value. -/
def exactly {α : Type} (read : α → Int) (result : α) (value : Int) : Except Overflow α :=
  if read result = value then .ok result else .error ⟨value⟩

abbrev readCount (a : UInt32) : Int := a.toNat

namespace Count

def add (a b : UInt32) : Except Overflow UInt32 :=
  exactly readCount (a + b) (readCount a + readCount b)

def sub (a b : UInt32) : Except Overflow UInt32 :=
  exactly readCount (a - b) (readCount a - readCount b)

def mul (a b : UInt32) : Except Overflow UInt32 :=
  exactly readCount (a * b) (readCount a * readCount b)

end Count

namespace Signed

def add (a b : Int64) : Except Overflow Int64 := exactly Int64.toInt (a + b) (a.toInt + b.toInt)

def mul (a b : Int64) : Except Overflow Int64 := exactly Int64.toInt (a * b) (a.toInt * b.toInt)

end Signed

/-! ## 2. The conversion -/

-- Quotient and remainder are the Euclidean ones, which always fit.
def era (fromMarch : Int64) : Int64 := Int64.ofInt (fromMarch.toInt / 146097)

def dayOfEra (fromMarch : Int64) : UInt32 :=
  (Int64.ofInt (fromMarch.toInt % 146097)).toUInt64.toUInt32

def yearOfEra (dayOfEra : UInt32) : Except Overflow UInt32 := do
  let days ← Count.sub dayOfEra (dayOfEra / 1460)
  let days ← Count.add days (dayOfEra / 36524)
  let days ← Count.sub days (dayOfEra / 146096)
  return days / 365

def dayOfYear (dayOfEra yearOfEra : UInt32) : Except Overflow UInt32 := do
  let days ← Count.mul 365 yearOfEra
  let days ← Count.add days (yearOfEra / 4)
  let days ← Count.sub days (yearOfEra / 100)
  Count.sub dayOfEra days

def monthOfYear (dayOfYear : UInt32) : Except Overflow UInt32 := do
  let fifths ← Count.mul 5 dayOfYear
  let fifths ← Count.add fifths 2
  return fifths / 153

def dayOfMonth (dayOfYear monthOfYear : UInt32) : Except Overflow UInt32 := do
  let fifths ← Count.mul 153 monthOfYear
  let fifths ← Count.add fifths 2
  let day ← Count.sub dayOfYear (fifths / 5)
  Count.add day 1

/-- Months counted from January and from one on. -/
def civilMonth (monthOfYear : UInt32) : Except Overflow UInt32 :=
  if monthOfYear < 10 then Count.add monthOfYear 3 else Count.sub monthOfYear 9

/-- The year of a month, where January and February belong to the year that starts with them. -/
def civilYear (year : Int64) (month : UInt32) : Except Overflow Int64 :=
  if month ≤ 2 then Signed.add year 1 else .ok year

/-- The year in which a day falls when years start in March, and the day of that year. -/
def marchDay (days : UInt64) : Except Overflow (Int64 × UInt32) := do
  let fromMarch ← Signed.add days.toInt64 719468
  let yearOfEra ← yearOfEra (dayOfEra fromMarch)
  let years ← Signed.mul (era fromMarch) 400
  let year ← Signed.add yearOfEra.toUInt64.toInt64 years
  let dayOfYear ← dayOfYear (dayOfEra fromMarch) yearOfEra
  return (year, dayOfYear)

/-- Year, month and day of the date. The year is cut to 32 bits. -/
def civil (year : Int64) (dayOfYear : UInt32) : Except Overflow (UInt32 × UInt32 × UInt32) := do
  let monthOfYear ← monthOfYear dayOfYear
  let day ← dayOfMonth dayOfYear monthOfYear
  let month ← civilMonth monthOfYear
  let year ← civilYear year month
  return (year.toUInt64.toUInt32, month, day)

/-- The date `days` days after 1 January 1970. -/
def ofDays (days : UInt64) : Except Overflow (UInt32 × UInt32 × UInt32) := do
  let (year, dayOfYear) ← marchDay days
  civil year dayOfYear

/-! ## 3. Operations that are exact

Words are written as words of natural numbers here, so that an operation that fits is the one on the
numbers. -/

theorem bind_eq {α β : Type} {x : Except Overflow α} {a : α} (h : x = .ok a)
    (f : α → Except Overflow β) :
    (x >>= f) = f a := by
  rw [h]
  rfl

section

variable {m n : Nat}

theorem readCount_ofNat (h : n < UInt32.size) : readCount (.ofNat n) = n :=
  congrArg Int.ofNat (UInt32.toNat_ofNat_of_lt' h)

theorem count_add (h : m + n < UInt32.size) :
    Count.add (.ofNat m) (.ofNat n) = .ok (.ofNat (m + n)) := by
  rw [Count.add, ← UInt32.ofNat_add, exactly, if_pos]
  rw [readCount_ofNat h, readCount_ofNat (by omega), readCount_ofNat (by omega), Int.natCast_add]

theorem count_sub (hm : m < UInt32.size) (h : n ≤ m) :
    Count.sub (.ofNat m) (.ofNat n) = .ok (.ofNat (m - n)) := by
  rw [Count.sub, ← UInt32.ofNat_sub h, exactly, if_pos]
  rw [readCount_ofNat (by omega), readCount_ofNat hm, readCount_ofNat (by omega), Int.natCast_sub h]

theorem count_mul (hm : m < UInt32.size) (hn : n < UInt32.size) (h : m * n < UInt32.size) :
    Count.mul (.ofNat m) (.ofNat n) = .ok (.ofNat (m * n)) := by
  rw [Count.mul, ← UInt32.ofNat_mul, exactly, if_pos]
  rw [readCount_ofNat h, readCount_ofNat hm, readCount_ofNat hn, Int.natCast_mul]

theorem toInt_ofNat (h : n < Int64.size / 2) : (Int64.ofNat n).toInt = n :=
  Int64.toInt_ofNat_of_lt h

theorem signed_add (h : m + n < Int64.size / 2) :
    Signed.add (.ofNat m) (.ofNat n) = .ok (.ofNat (m + n)) := by
  rw [Signed.add, ← Int64.ofNat_add, exactly, if_pos]
  rw [toInt_ofNat h, toInt_ofNat (by omega), toInt_ofNat (by omega), Int.natCast_add]

theorem signed_mul (hm : m < Int64.size / 2) (hn : n < Int64.size / 2)
    (h : m * n < Int64.size / 2) :
    Signed.mul (.ofNat m) (.ofNat n) = .ok (.ofNat (m * n)) := by
  rw [Signed.mul, ← Int64.ofNat_mul, exactly, if_pos]
  rw [toInt_ofNat h, toInt_ofNat hm, toInt_ofNat hn, Int.natCast_mul]

end

/-! ## 4. The parts of the conversion

Each part is its namesake on numbers, for every argument that occurs. -/

theorem size_count : UInt32.size = 4294967296 := rfl

section

variable {n day month year : Nat}

theorem era_ofNat (h : n < Int64.size / 2) : era (.ofNat n) = .ofNat (n / daysPerEra) := by
  rw [era, toInt_ofNat h]
  exact Int64.ofInt_eq_ofNat

theorem dayOfEra_ofNat (h : n < Int64.size / 2) :
    dayOfEra (.ofNat n) = .ofNat (n % daysPerEra) := by
  have hday : Int64.ofInt ((n : Int) % 146097) = .ofNat (n % daysPerEra) := Int64.ofInt_eq_ofNat
  rw [dayOfEra, toInt_ofNat h, hday]
  exact UInt64.toUInt32_ofNat' _

theorem yearOfEra_ofNat (h : n < daysPerEra) :
    yearOfEra (.ofNat n) = .ok (.ofNat (Calendar.yearOfEra n)) := by
  have hn : n < UInt32.size := Nat.lt_trans h (by decide)
  have hfourths : UInt32.ofNat n / 1460 = .ofNat (n / 1460) :=
    (UInt32.ofNat_div hn (by decide)).symm
  have hcenturies : UInt32.ofNat n / 36524 = .ofNat (n / 36524) :=
    (UInt32.ofNat_div hn (by decide)).symm
  have hera : UInt32.ofNat n / 146096 = .ofNat (n / 146096) :=
    (UInt32.ofNat_div hn (by decide)).symm
  have hsize := size_count
  rw [daysPerEra] at h
  rw [yearOfEra, hfourths, hcenturies, hera, bind_eq (count_sub hn (by omega)),
    bind_eq (count_add (by omega)), bind_eq (count_sub (by omega) (by omega))]
  exact congrArg Except.ok (UInt32.ofNat_div (by omega) (by decide)).symm

theorem dayOfYear_ofNat (hn : n < daysPerEra) (hyear : year < 400) (h : daysBeforeYear year ≤ n) :
    dayOfYear (.ofNat n) (.ofNat year) = .ok (.ofNat (n - daysBeforeYear year)) := by
  have hsize := size_count
  have hfourths : UInt32.ofNat year / 4 = .ofNat (year / 4) :=
    (UInt32.ofNat_div (by omega) (by decide)).symm
  have hcenturies : UInt32.ofNat year / 100 = .ofNat (year / 100) :=
    (UInt32.ofNat_div (by omega) (by decide)).symm
  have hyears : Count.mul 365 (.ofNat year) = .ok (.ofNat (365 * year)) :=
    count_mul (m := 365) (by decide) (by omega) (by omega)
  rw [dayOfYear, bind_eq hyears, hfourths, hcenturies, bind_eq (count_add (by omega)),
    bind_eq (count_sub (by omega) (by omega))]
  exact count_sub (Nat.lt_trans hn (by decide)) h

theorem monthOfYear_ofNat (h : day < 366) :
    monthOfYear (.ofNat day) = .ok (.ofNat (Calendar.monthOfYear day)) := by
  have hsize := size_count
  have hfifths : Count.mul 5 (.ofNat day) = .ok (.ofNat (5 * day)) :=
    count_mul (m := 5) (by decide) (by omega) (by omega)
  have hround : Count.add (.ofNat (5 * day)) 2 = .ok (.ofNat (5 * day + 2)) :=
    count_add (n := 2) (by omega)
  rw [monthOfYear, bind_eq hfifths, bind_eq hround]
  exact congrArg Except.ok (UInt32.ofNat_div (by omega) (by decide)).symm

theorem dayOfMonth_ofNat (hday : day < 366) (hmonth : month < 12)
    (h : daysBeforeMonth month ≤ day) :
    dayOfMonth (.ofNat day) (.ofNat month) = .ok (.ofNat (day - daysBeforeMonth month + 1)) := by
  have hsize := size_count
  have hfifths : Count.mul 153 (.ofNat month) = .ok (.ofNat (153 * month)) :=
    count_mul (m := 153) (by decide) (by omega) (by omega)
  have hround : Count.add (.ofNat (153 * month)) 2 = .ok (.ofNat (153 * month + 2)) :=
    count_add (n := 2) (by omega)
  have hdays : UInt32.ofNat (153 * month + 2) / 5 = .ofNat (daysBeforeMonth month) :=
    (UInt32.ofNat_div (by omega) (by decide)).symm
  rw [dayOfMonth, bind_eq hfifths, bind_eq hround, hdays, bind_eq (count_sub (by omega) h)]
  exact count_add (n := 1) (by omega)

theorem civilMonth_ofNat (year day : Nat) (h : month < 12) :
    civilMonth (.ofNat month) = .ok (.ofNat (ofMarch year month day).month) := by
  have hsize := size_count
  have hlater : UInt32.ofNat month < 10 ↔ month < 10 :=
    UInt32.ofNat_lt_iff_lt (by omega) (by decide)
  by_cases hmonth : month < 10
  · rw [civilMonth, if_pos (hlater.2 hmonth), ofMarch_of_lt year day hmonth]
    exact count_add (n := 3) (by omega)
  · have hcivil : (ofMarch year month day).month = month - 9 := if_neg hmonth
    rw [civilMonth, if_neg (mt hlater.1 hmonth), hcivil]
    exact count_sub (n := 9) (by omega) (by omega)

theorem civilYear_ofNat (day : Nat) (hyear : year + 1 < Int64.size / 2) (h : month < 12) :
    civilYear (.ofNat year) (.ofNat (ofMarch year month day).month) =
      .ok (.ofNat (ofMarch year month day).year) := by
  have hmonth : (ofMarch year month day).month < UInt32.size := by
    show (if month < 10 then month + 3 else month - 9) < 4294967296
    split <;> omega
  have hearly :
      UInt32.ofNat (ofMarch year month day).month ≤ 2 ↔ (ofMarch year month day).month ≤ 2 :=
    UInt32.ofNat_le_iff_le hmonth (by decide)
  by_cases hcivil : (ofMarch year month day).month ≤ 2
  · have hnext : (ofMarch year month day).year = year + 1 := if_pos hcivil
    rw [civilYear, if_pos (hearly.2 hcivil), hnext]
    exact signed_add (n := 1) hyear
  · have hsame : (ofMarch year month day).year = year := if_neg hcivil
    rw [civilYear, if_neg (mt hearly.1 hcivil), hsame]

end

/-! ## 5. The conversion as a whole -/

theorem signed_year {year : Nat} (h : year < Int64.size / 2) :
    Signed.mul (.ofNat (year / 400)) 400 = .ok (.ofNat (year / 400 * 400)) ∧
      Signed.add (UInt32.ofNat (year % 400)).toUInt64.toInt64 (.ofNat (year / 400 * 400)) =
        .ok (.ofNat year) := by
  have hyear : (UInt32.ofNat (year % 400)).toUInt64.toInt64 = .ofNat (year % 400) := by
    rw [UInt32.toUInt64_ofNat' (by rw [size_count]; omega)]
    rfl
  have hsum : year % 400 + year / 400 * 400 = year := Nat.mod_add_div' year 400
  constructor
  · exact signed_mul (n := 400) (by omega) (by decide) (by omega)
  · rw [hyear, signed_add (by omega), hsum]

/-- The March year and the day in it come out, since a day number is made up from them in one way
only. -/
theorem marchDay_eq {days : UInt64} {year day : Nat} (hday : day < yearLength (year + 1))
    (hdays : days.toNat + epochDay = daysBeforeMarch year + day)
    (hsmall : days.toNat + epochDay < Int64.size / 2) :
    marchDay days = .ok (.ofNat year, .ofNat day) := by
  have hstart : Signed.add days.toInt64 719468 = .ok (.ofNat (days.toNat + epochDay)) := by
    have hwide : days.toInt64 = .ofNat days.toNat := by
      rw [← UInt64.toInt64_ofNat', UInt64.ofNat_toNat]
    rw [hwide]
    exact signed_add hsmall
  have hyear := le_daysBeforeMarch year
  obtain ⟨hyears, hsum⟩ := signed_year (show year < Int64.size / 2 by omega)
  obtain ⟨hera, hdayOfEra⟩ := era_of_day hday
  rw [← yearLength_mod] at hday
  have hmod : year % 400 < 400 := Nat.mod_lt year (by decide)
  have hlt := lt_daysPerEra hmod hday
  rw [marchDay, bind_eq hstart, era_ofNat hsmall, dayOfEra_ofNat hsmall, hdays, hera, hdayOfEra,
    bind_eq (yearOfEra_ofNat hlt), yearOfEra_of_day hmod hday rfl, bind_eq hyears, bind_eq hsum,
    bind_eq (dayOfYear_ofNat hlt hmod (Nat.le_add_right _ _)), Nat.add_sub_cancel_left]
  rfl

/-- The civil date of a day of a March year. No month starts behind the days that fall into it. -/
theorem civil_eq {year day : Nat} (hyear : year + 1 < Int64.size / 2) (hday : day < 366) :
    let date :=
      ofMarch year (Calendar.monthOfYear day) (day - daysBeforeMonth (Calendar.monthOfYear day))
    civil (.ofNat year) (.ofNat day) =
        .ok (.ofNat date.year, .ofNat date.month, .ofNat date.day) := by
  obtain ⟨hmonth, -⟩ :=
    monthOfYear_eq_iff.1 (rfl : Calendar.monthOfYear day = Calendar.monthOfYear day)
  have hlast : Calendar.monthOfYear day < 12 := by
    rw [Calendar.monthOfYear]
    omega
  intro date
  rw [civil, bind_eq (monthOfYear_ofNat hday), bind_eq (dayOfMonth_ofNat hday hlast hmonth),
    bind_eq (civilMonth_ofNat year (day - daysBeforeMonth (Calendar.monthOfYear day)) hlast),
    bind_eq (civilYear_ofNat _ hyear hlast)]
  exact congrArg (fun year => Except.ok (year, _, _)) (UInt64.toUInt32_ofNat' date.year)

/-- The conversion in words finds the date that `Date.ofDays` finds in numbers. -/
theorem ofDays_eq {days : UInt64} (h : days.toNat ≤ (UInt64.size - 1) / 86400) :
    let date := Date.ofDays days.toNat
    ofDays days = .ok (.ofNat date.year, .ofNat date.month, .ofNat date.day) := by
  obtain ⟨year, day, hdays, hday⟩ := Date.exists_dayOfYear days.toNat
  have hlast : (UInt64.size - 1) / 86400 + epochDay + 1 < Int64.size / 2 := by decide
  have hyear := le_daysBeforeMarch year
  have hlength := yearLength_cases (year + 1)
  intro date
  -- both are made from the same March year and day
  have hdate : date = _ := ofDays_eq_ofMarch hday hdays
  rw [ofDays, bind_eq (marchDay_eq hday hdays (by omega)), hdate]
  exact civil_eq (by omega) (by omega)

/-- The date of a day number is exact: for every number of days in a clock of 64-bit seconds no sum,
difference or product of the conversion leaves its type, the result is a date of the calendar, up to
the 32 bits of the year, no other date of the calendar lies so many days after 1 January 1970, and
the day after has the date that follows. -/
theorem ofDays_exact (days : UInt64) (h : days.toNat ≤ (UInt64.size - 1) / 86400) :
    let date := Date.ofDays days.toNat
    (∃ year month day : UInt32, ofDays days = .ok (year, month, day) ∧
      year.toNat = date.year % UInt32.size ∧ month.toNat = date.month ∧ day.toNat = date.day) ∧
    (∀ other : Date, other.Valid ∧ other.dayCount = Date.epoch.dayCount + days.toNat ↔
      other = date) ∧
    Date.ofDays (days.toNat + 1) = date.next := by
  intro date
  obtain ⟨hvalid, -⟩ := Date.valid_and_dayCount_iff.2 (rfl : date = Date.ofDays days.toNat)
  have hmonth : date.month < UInt32.size := Nat.lt_of_le_of_lt hvalid.month_le (by decide)
  have hday : date.day < UInt32.size :=
    Nat.lt_of_le_of_lt (Nat.le_trans hvalid.day_le (monthLength_le _ _)) (by decide)
  refine ⟨⟨_, _, _, ofDays_eq h, ?_, ?_, ?_⟩, fun _ => Date.valid_and_dayCount_iff,
    Date.ofDays_succ _⟩
  · exact UInt32.toNat_ofNat'
  · exact UInt32.toNat_ofNat_of_lt' hmonth
  · exact UInt32.toNat_ofNat_of_lt' hday

/-- The last day of the clock, in a year that does not fit into 32 bits. -/
theorem ofDays_exact_last_day :
    Date.ofDays 213503982334601 = ⟨584554051223, 11, 9⟩ ∧
    (∃ year month day : UInt32, ofDays 213503982334601 = .ok (year, month, day) ∧
      year.toNat = 584554051223 % UInt32.size ∧ month.toNat = 11 ∧ day.toNat = 9) ∧
    ∀ other : Date, other.Valid ∧ other.dayCount = Date.epoch.dayCount + 213503982334601 ↔
      other = ⟨584554051223, 11, 9⟩ := by
  have hdate : Date.ofDays 213503982334601 = ⟨584554051223, 11, 9⟩ := by decide
  obtain ⟨hresult, hunique, -⟩ := ofDays_exact 213503982334601 (by decide)
  rw [show (213503982334601 : UInt64).toNat = 213503982334601 from rfl, hdate] at hresult hunique
  exact ⟨hdate, hresult, hunique⟩

end StackMachine.Calendar.FixedWidth
