/-!
Decimal numerals: the text of a number, and the numerals accepted as operands and limits.
-/

namespace StackMachine.Decimal

/-! ## 1. Writing -/

/-- Decimal digits without leading zeros; zero is written `0`. -/
def ofNat (n : Nat) : String := String.ofList (Nat.toDigits 10 n)

/-- A negative number is a minus sign and the digits of its absolute value. -/
def ofInt : Int → String
  | .ofNat n => ofNat n
  | .negSucc n => String.ofList ('-' :: Nat.toDigits 10 (n + 1))

/-- `text` with enough copies of `fill` in front to be at least `width` characters long. -/
def padLeft (fill : Char) (width : Nat) (text : String) : String :=
  String.ofList (List.replicate (width - text.toList.length) fill ++ text.toList)

/-- `text` with enough copies of `fill` behind to be at least `width` characters long. -/
def padRight (fill : Char) (width : Nat) (text : String) : String :=
  String.ofList (text.toList ++ List.replicate (width - text.toList.length) fill)

/-- At least `width` digits, with leading zeros. -/
def zeroPadded (width n : Nat) : String := padLeft '0' width (ofNat n)

/-! ## 2. Reading -/

/-- One or more ASCII digits, most significant first. -/
def digits? (cs : List Char) : Option Nat :=
  if !cs.isEmpty && cs.all Char.isDigit then some (Nat.ofDigitChars 10 cs 0) else none

/-- Digits after an optional plus sign. -/
def unsigned? : List Char → Option Nat
  | '+' :: cs => digits? cs
  | cs => digits? cs

/-- Digits after an optional sign. -/
def signed? : List Char → Option Int
  | '-' :: cs => (digits? cs).map fun n => -Int.ofNat n
  | cs => (unsigned? cs).map Int.ofNat

theorem digits?_toDigits (n : Nat) : digits? (Nat.toDigits 10 n) = some n := by
  have hne : Nat.toDigits 10 n ≠ [] := Nat.toDigits_ne_nil
  have hall : (Nat.toDigits 10 n).all Char.isDigit = true :=
    List.all_eq_true.2 fun c hc => Nat.isDigit_of_mem_toDigits (by decide) (by decide) hc
  simp [digits?, hne, hall]

theorem ne_sign_of_mem_toDigits {c : Char} {n : Nat} (h : c ∈ Nat.toDigits 10 n) :
    c ≠ '+' ∧ c ≠ '-' := by
  have hc := Nat.isDigit_of_mem_toDigits (by decide) (by decide) h
  constructor <;> (rintro rfl; simp [Char.isDigit] at hc)

/-- What is written is read back. -/
theorem signed?_ofInt (i : Int) : signed? (ofInt i).toList = some i := by
  cases i with
  | ofNat n =>
    have h := digits?_toDigits n
    simp only [ofInt, ofNat, String.toList_ofList]
    match hd : Nat.toDigits 10 n with
    | [] => simp [hd, digits?] at h
    | c :: cs =>
      have ⟨hplus, hminus⟩ := ne_sign_of_mem_toDigits (c := c) (n := n) (by simp [hd])
      rw [hd] at h
      simp [signed?, unsigned?, hplus, hminus, h]
  | negSucc n => simp [ofInt, signed?, digits?_toDigits, Int.negSucc_eq]

/-- The largest count of 64 bits. -/
def maxCount : Nat := 0xffffffffffffffff

/-- A count of at most 64 bits. -/
def count? (text : String) : Option Nat := (unsigned? text.toList).filter (· ≤ maxCount)

end StackMachine.Decimal
