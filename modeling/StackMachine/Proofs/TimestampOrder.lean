import Mathlib.Data.List.Forall2
import Mathlib.Data.String.Basic
import Mathlib.Order.Monotone.Basic
import StackMachine.Proofs.Gregorian

/-!
Timestamps sort as texts in the order of the times that they tell.

A timestamp is a row of numbers, each with a fixed number of digits. Numerals of one width sort as
their numbers do, so a timestamp sorts by its numbers, the first of them first. In this order the
calendar moves on from every date to the next.
-/

namespace StackMachine.Calendar

open Decimal

/-! ## 1. Times and forms -/

/-- A reading of the clock from the start of 1970 to the end of the year 9999. -/
structure Instant.FourDigitYear (t : Instant) : Prop where
  seconds_nonneg : 0 ≤ t.seconds
  seconds_lt : t.seconds < 253402300800
  nanos_lt : t.nanos < 1000000000

/-- Milliseconds since the start of 1970, rounded down. -/
def Instant.millis (t : Instant) : Int := (t.seconds * 1000000000 + t.nanos) / 1000000

/-- Where the form has a zero, the text has a digit; elsewhere the two agree. -/
def HasForm (form text : List Char) : Prop :=
  List.Forall₂ (fun f c => if f = '0' then c.isDigit = true else c = f) form text

/-! ## 2. Numerals of one width -/

theorem toList_zeroPadded (width n : Nat) :
    (zeroPadded width n).toList =
      List.replicate (width - (Nat.toDigits 10 n).length) '0' ++ Nat.toDigits 10 n := by
  rw [zeroPadded, padLeft, String.toList_ofList, ofNat, String.toList_ofList]

theorem length_zeroPadded {width n : Nat} (hwidth : 0 < width) (hn : n < 10 ^ width) :
    (zeroPadded width n).toList.length = width := by
  have hdigits := (Nat.length_toDigits_le_iff (by decide) hwidth).2 hn
  rw [toList_zeroPadded, List.length_append, List.length_replicate]
  omega

theorem isDigit_of_mem_zeroPadded {width n : Nat} {c : Char} (h : c ∈ (zeroPadded width n).toList) :
    c.isDigit = true := by
  rw [toList_zeroPadded] at h
  rcases List.mem_append.1 h with h | h
  · rw [List.eq_of_mem_replicate h]
    rfl
  · exact Nat.isDigit_of_mem_toDigits (by decide) (by decide) h

theorem zeroPadded_succ {width : Nat} (hwidth : 0 < width) (n : Nat) :
    (zeroPadded (width + 1) n).toList =
      (zeroPadded width (n / 10)).toList ++ [Nat.digitChar (n % 10)] := by
  rw [toList_zeroPadded, toList_zeroPadded]
  by_cases hn : n < 10
  · -- one digit behind zeros, of which the quotient writes the last as its own digit
    have hzeros : List.replicate (width - 1) '0' ++ ['0'] = List.replicate width '0' := by
      rw [← List.replicate_succ', Nat.sub_add_cancel hwidth]
    rw [Nat.toDigits_of_lt_base hn, Nat.div_eq_of_lt hn, Nat.mod_eq_of_lt hn]
    show List.replicate width '0' ++ [Nat.digitChar n] =
        List.replicate (width - 1) '0' ++ ['0'] ++ [Nat.digitChar n]
    rw [hzeros]
  · rw [Nat.toDigits_of_base_le (by decide) (Nat.le_of_not_lt hn), List.length_append,
      List.length_singleton, Nat.add_sub_add_right, List.append_assoc]

theorem digitChar_lt {m n : Nat} (h : m < n) (hn : n < 10) : Nat.digitChar m < Nat.digitChar n := by
  show (Nat.digitChar m).toNat < (Nat.digitChar n).toNat
  rw [Nat.toNat_digitChar_of_lt_ten hn, Nat.toNat_digitChar_of_lt_ten (Nat.lt_trans h hn)]
  omega

theorem append_lt_append {a b : List Char} (hlength : a.length = b.length) (h : a < b)
    (a' b' : List Char) :
    a ++ a' < b ++ b' := by
  induction a generalizing b with
  | nil =>
    rw [List.eq_nil_of_length_eq_zero hlength.symm] at h
    exact absurd h (lt_irrefl _)
  | cons c a ih =>
    obtain ⟨d, b, rfl⟩ := List.exists_cons_of_length_eq_add_one hlength.symm
    rw [List.cons_append, List.cons_append, List.cons_lt_cons_iff]
    rcases List.cons_lt_cons_iff.1 h with hlt | ⟨heq, hlt⟩
    · exact .inl hlt
    · exact .inr ⟨heq, ih (Nat.succ.inj hlength) hlt⟩

/-- Numerals of one width sort as their numbers do: the last digit decides only where the others
agree. -/
theorem zeroPadded_lt {width m n : Nat} (hwidth : 0 < width) (hn : n < 10 ^ width) (h : m < n) :
    (zeroPadded width m).toList < (zeroPadded width n).toList := by
  induction width, hwidth using Nat.le_induction generalizing m n with
  | base =>
    rw [pow_one] at hn
    rw [toList_zeroPadded, toList_zeroPadded, Nat.toDigits_of_lt_base hn,
      Nat.toDigits_of_lt_base (Nat.lt_trans h hn)]
    exact List.cons_lt_cons_iff.2 (.inl (digitChar_lt h hn))
  | succ width hwidth ih =>
    have hquotient : n / 10 < 10 ^ width := by
      rw [pow_succ] at hn
      omega
    rw [zeroPadded_succ hwidth, zeroPadded_succ hwidth]
    obtain hlt | heq : m / 10 < n / 10 ∨ m / 10 = n / 10 := by omega
    · apply append_lt_append
      · rw [length_zeroPadded hwidth (Nat.lt_trans hlt hquotient),
          length_zeroPadded hwidth hquotient]
      · exact ih hquotient hlt
    · rw [heq]
      exact List.append_left_lt (List.cons_lt_cons_iff.2
        (.inl (digitChar_lt (by omega) (by omega))))

/-! ## 3. Rows of numbers -/

/-- Numbers in a row. Each column has a width and a text behind its number. -/
def row : List (Nat × String) → List Nat → List Char
  | (width, stop) :: columns, n :: ns =>
      (zeroPadded width n).toList ++ (stop.toList ++ row columns ns)
  | _, _ => []

/-- Every number fits the width of its column. -/
def Fit (columns : List (Nat × String)) (ns : List Nat) : Prop :=
  List.Forall₂ (fun column n => 0 < column.1 ∧ n < 10 ^ column.1) columns ns

def formOf (columns : List (Nat × String)) : List Char :=
  columns.flatMap fun column => List.replicate column.1 '0' ++ column.2.toList

section

variable {columns : List (Nat × String)} {ns ns' : List Nat}

theorem row_lt (h : Fit columns ns) (h' : Fit columns ns') (hlt : ns < ns') :
    row columns ns < row columns ns' := by
  induction h generalizing ns' with
  | nil =>
    cases h'
    exact absurd hlt (lt_irrefl _)
  | cons hn _ ih =>
    cases h' with
    | cons hn' hns' =>
      rcases List.cons_lt_cons_iff.1 hlt with hfirst | ⟨rfl, hrest⟩
      · apply append_lt_append
        · rw [length_zeroPadded hn.1 hn.2, length_zeroPadded hn'.1 hn'.2]
        · exact zeroPadded_lt hn.1 hn'.2 hfirst
      · exact List.append_left_lt (List.append_left_lt (ih hns' hrest))

theorem HasForm.append {form form' text text' : List Char} (h : HasForm form text)
    (h' : HasForm form' text') :
    HasForm (form ++ form') (text ++ text') := by
  induction h with
  | nil => exact h'
  | cons hc _ ih => exact .cons hc ih

theorem hasForm_self (text : List Char) : HasForm text text := by
  refine List.forall₂_same.2 fun c _ => ?_
  split
  · next hzero =>
    rw [hzero]
    rfl
  · rfl

theorem hasForm_digits {text : List Char} (h : ∀ c ∈ text, c.isDigit = true) :
    HasForm (List.replicate text.length '0') text := by
  induction text with
  | nil => exact .nil
  | cons c text ih =>
    obtain ⟨hc, htext⟩ := List.forall_mem_cons.1 h
    exact .cons (by rwa [if_pos rfl]) (ih htext)

theorem hasForm_row (h : Fit columns ns) : HasForm (formOf columns) (row columns ns) := by
  induction h with
  | nil => exact .nil
  | @cons column n columns ns hn _ ih =>
    have hdigits : HasForm (List.replicate (zeroPadded column.1 n).toList.length '0')
        (zeroPadded column.1 n).toList :=
      hasForm_digits fun _ => isDigit_of_mem_zeroPadded
    rw [length_zeroPadded hn.1 hn.2] at hdigits
    rw [formOf, List.flatMap_cons, List.append_assoc]
    exact hdigits.append ((hasForm_self column.2.toList).append ih)

end

/-! ## 4. Dates in order -/

/-- The numbers of a date, the most significant first. -/
def Date.parts (date : Date) : List Nat := [date.year, date.month, date.day]

theorem Date.parts_lt_next (date : Date) : date.parts < date.next.parts := by
  unfold Date.next
  split_ifs <;> simp [Date.parts, List.cons_lt_cons_iff]

theorem strictMono_parts_ofDays : StrictMono fun days => (Date.ofDays days).parts := by
  apply strictMono_nat_of_lt_succ
  intro days
  rw [Date.ofDays_succ]
  exact Date.parts_lt_next _

theorem year_ofDays_le {days : Nat} (h : days ≤ 2932896) : (Date.ofDays days).year ≤ 9999 := by
  have hlast : (Date.ofDays 2932896).parts = [9999, 12, 31] := by decide
  have hle := strictMono_parts_ofDays.monotone h
  rw [hlast] at hle
  rcases hle.lt_or_eq with hlt | heq
  · exact List.head_le_of_lt hlt
  · exact Nat.le_of_eq (List.cons.inj heq).1

/-! ## 5. Timestamps -/

/-- The numbers of a timestamp. -/
def readings (seconds millis : Nat) : List Nat :=
  (Date.ofDays (seconds / 86400)).parts ++
    [seconds / 3600 % 24, seconds / 60 % 60, seconds % 60, millis]

def timestampColumns : List (Nat × String) :=
  [(4, "-"), (2, "-"), (2, " "), (2, ":"), (2, ":"), (2, "."), (3, "")]

theorem readings_lt {s s' m m' : Nat} (hm : m < 1000) (hm' : m' < 1000)
    (h : s * 1000 + m < s' * 1000 + m') :
    readings s m < readings s' m' := by
  obtain hday | hday : s / 86400 < s' / 86400 ∨ s / 86400 = s' / 86400 := by omega
  · have hdate := strictMono_parts_ofDays hday
    simp only [Date.parts, List.cons_lt_cons_iff, List.not_lt_nil, and_false, or_false] at hdate
    simp only [readings, Date.parts, List.cons_append, List.cons_lt_cons_iff]
    omega
  · rw [readings, readings, hday]
    apply List.append_left_lt
    simp only [List.cons_lt_cons_iff, List.not_lt_nil, and_false, or_false]
    omega

variable {t t₁ t₂ : Instant}

theorem fit_readings (h : t.FourDigitYear) :
    Fit timestampColumns (readings t.seconds.toNat (t.nanos / 1000000)) := by
  have hseconds := h.seconds_lt
  have hnanos := h.nanos_lt
  have hyear := year_ofDays_le (show t.seconds.toNat / 86400 ≤ 2932896 by omega)
  obtain ⟨hvalid, -⟩ :=
    Date.valid_and_dayCount_iff.2 (rfl : Date.ofDays (t.seconds.toNat / 86400) = _)
  have hmonth := hvalid.month_le
  have hday := Nat.le_trans hvalid.day_le (monthLength_le _ _)
  refine .cons ⟨by decide, ?_⟩ (.cons ⟨by decide, ?_⟩ (.cons ⟨by decide, ?_⟩ (.cons ⟨by decide, ?_⟩
    (.cons ⟨by decide, ?_⟩ (.cons ⟨by decide, ?_⟩ (.cons ⟨by decide, ?_⟩ .nil))))))
  all_goals
    norm_num
    omega

theorem toNat_toUInt32 {year : Nat} (h : year ≤ 9999) : year.toUInt32.toNat = year :=
  UInt32.toNat_ofNat_of_lt' (Nat.lt_of_le_of_lt h (by decide))

theorem toList_timestamp (h : t.FourDigitYear) :
    t.timestamp.toList = row timestampColumns (readings t.seconds.toNat (t.nanos / 1000000)) := by
  have hsince : t.sinceEpoch = (t.seconds.toNat, t.nanos) := if_neg (Int.not_lt.2 h.seconds_nonneg)
  have hseconds := h.seconds_lt
  have hyear := toNat_toUInt32 (year_ofDays_le (show t.seconds.toNat / 86400 ≤ 2932896 by omega))
  have htext (text : String) : toString text = text := rfl
  rw [Instant.timestamp, hsince]
  dsimp only
  rw [hyear]
  simp only [htext, readings, Date.parts, timestampColumns, row, String.toList_append,
    String.toList_empty, List.cons_append, List.nil_append, List.append_assoc, List.append_nil]

theorem millis_eq (h : t.FourDigitYear) :
    t.millis = (t.seconds.toNat * 1000 + t.nanos / 1000000 : Nat) := by
  have hseconds := h.seconds_nonneg
  rw [Instant.millis]
  omega

theorem timestamp_lt (h₁ : t₁.FourDigitYear) (h₂ : t₂.FourDigitYear) (h : t₁.millis < t₂.millis) :
    t₁.timestamp < t₂.timestamp := by
  have hnanos₁ := h₁.nanos_lt
  have hnanos₂ := h₂.nanos_lt
  rw [millis_eq h₁, millis_eq h₂] at h
  rw [String.lt_iff_toList_lt, toList_timestamp h₁, toList_timestamp h₂]
  exact row_lt (fit_readings h₁) (fit_readings h₂) (readings_lt (by omega) (by omega) (by omega))

theorem timestamp_eq (h₁ : t₁.FourDigitYear) (h₂ : t₂.FourDigitYear) (h : t₁.millis = t₂.millis) :
    t₁.timestamp = t₂.timestamp := by
  have hnanos₁ := h₁.nanos_lt
  have hnanos₂ := h₂.nanos_lt
  rw [millis_eq h₁, millis_eq h₂] at h
  have hseconds : t₁.seconds.toNat = t₂.seconds.toNat := by omega
  have hmillis : t₁.nanos / 1000000 = t₂.nanos / 1000000 := by omega
  apply String.toList_inj.1
  rw [toList_timestamp h₁, toList_timestamp h₂, hseconds, hmillis]

theorem hasForm_timestamp (h : t.FourDigitYear) :
    HasForm "0000-00-00 00:00:00.000".toList t.timestamp.toList := by
  have hform : "0000-00-00 00:00:00.000".toList = formOf timestampColumns := by decide
  rw [hform, toList_timestamp h]
  exact hasForm_row (fit_readings h)

/-- Timestamps sort by time: two timestamps of the years 1970 to 9999 have one form and length, and
as texts they compare as their times do in whole milliseconds. -/
theorem timestamps_sort_by_time (h₁ : t₁.FourDigitYear) (h₂ : t₂.FourDigitYear) :
    HasForm "0000-00-00 00:00:00.000".toList t₁.timestamp.toList ∧
      HasForm "0000-00-00 00:00:00.000".toList t₂.timestamp.toList ∧
      t₁.timestamp.length = t₂.timestamp.length ∧
      compare t₁.timestamp t₂.timestamp = compare t₁.millis t₂.millis := by
  have hform₁ := hasForm_timestamp h₁
  have hform₂ := hasForm_timestamp h₂
  refine ⟨hform₁, hform₂, ?_, ?_⟩
  · rw [← String.length_toList, ← String.length_toList]
    exact hform₁.length_eq.symm.trans hform₂.length_eq
  · rcases lt_trichotomy t₁.millis t₂.millis with hlt | heq | hgt
    · rw [compare_lt_iff_lt.2 hlt, compare_lt_iff_lt.2 (timestamp_lt h₁ h₂ hlt)]
    · rw [compare_eq_iff_eq.2 heq, compare_eq_iff_eq.2 (timestamp_eq h₁ h₂ heq)]
    · rw [compare_gt_iff_gt.2 hgt, compare_gt_iff_gt.2 (timestamp_lt h₂ h₁ hgt)]

/-- The last millisecond of a leap day comes before the first of March. -/
theorem timestamps_sort_by_time_leap_day :
    let before : Instant := ⟨951868799, 999999999⟩
    let after : Instant := ⟨951868800, 0⟩
    before.FourDigitYear ∧ after.FourDigitYear ∧
      before.timestamp = "2000-02-29 23:59:59.999" ∧ after.timestamp = "2000-03-01 00:00:00.000" ∧
      compare before.timestamp after.timestamp = .lt := by
  intro before after
  have hbefore : before.FourDigitYear := ⟨by decide, by decide, by decide⟩
  have hafter : after.FourDigitYear := ⟨by decide, by decide, by decide⟩
  refine ⟨hbefore, hafter, by decide +kernel, by decide +kernel, ?_⟩
  rw [(timestamps_sort_by_time hbefore hafter).2.2.2]
  decide

end StackMachine.Calendar
