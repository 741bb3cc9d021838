import StackMachine.Decimal

/-!
Double precision quotients and their text with a fixed number of decimals.

A number here is zero or a positive number in the normal range of binary64, which holds everything
that a timing table computes. All rounding is to the nearest, and a tie goes to the even neighbour.
-/

namespace StackMachine.Timing

/-- The integer nearest to a quotient; of two equally near ones the even. -/
def roundDiv (num den : Nat) : Nat :=
  let q := num / den
  let r := num % den
  if 2 * r < den then q
  else if den < 2 * r then q + 1
  else if q % 2 = 0 then q
  else q + 1

/-- The number `significand * 2 ^ exponent`. -/
structure Binary64 where
  significand : Nat
  exponent : Int
deriving DecidableEq, Repr

namespace Binary64

def isZero (x : Binary64) : Bool := x.significand == 0

/-- Numerator and denominator of a number. -/
def ratio (x : Binary64) : Nat × Nat :=
  if 0 ≤ x.exponent then (x.significand <<< x.exponent.toNat, 1)
  else (x.significand, 1 <<< (-x.exponent).toNat)

/-- Numerator and denominator of the quotient `num / den`, divided by `2 ^ exponent`. -/
def scale (num den : Nat) (exponent : Int) : Nat × Nat :=
  if 0 ≤ exponent then (num, den <<< exponent.toNat) else (num <<< (-exponent).toNat, den)

/-- The number nearest to `num / den`: the exponent is the one that leaves 53 binary digits before
the point. -/
def nearest (num den : Nat) : Binary64 :=
  if num = 0 then ⟨0, 0⟩
  else
    let low : Int := Int.ofNat num.log2 - Int.ofNat den.log2 - 53
    let (n, d) := scale num den low
    let exponent := if n / d < 1 <<< 53 then low else low + 1
    let (n, d) := scale num den exponent
    ⟨roundDiv n d, exponent⟩

def ofNat (n : Nat) : Binary64 := nearest n 1

/-- The quotient of two numbers, of which the second is not zero. -/
def div (x y : Binary64) : Binary64 :=
  let (xn, xd) := x.ratio
  let (yn, yd) := y.ratio
  nearest (xn * yd) (xd * yn)

/-- The numeral with `places` decimals that is nearest to the number. -/
def fixed (places : Nat) (x : Binary64) : String :=
  let (num, den) := x.ratio
  let unit := Nat.pow 10 places
  let units := roundDiv (num * unit) den
  let whole := Decimal.ofNat (units / unit)
  let decimals := Decimal.zeroPadded places (units % unit)
  s!"{whole}.{decimals}"

end Binary64
end StackMachine.Timing
