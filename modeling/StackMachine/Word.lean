import StackMachine.Decimal

/-!
Machine words: 64-bit two's complement integers. Addition, subtraction and multiplication wrap
modulo `2 ^ 64`; division truncates towards zero, and the one quotient that does not fit, `-2 ^ 63 /
-1`, wraps to `-2 ^ 63`.
-/

namespace StackMachine

/-- A stack value, an operand or an instruction pointer. -/
abbrev Word := Int64

namespace Word

/-- The word of a comparison: one for true, zero for false. -/
def ofBool (b : Bool) : Word := if b then 1 else 0

/-- The signed decimal numeral of a word. -/
def text (w : Word) : String := Decimal.ofInt w.toInt

/-- Reads a signed decimal numeral; a number that needs more than 64 bits is refused. -/
def read? (s : String) : Option Word :=
  match Decimal.signed? s.toList with
  | some i =>
    if Int64.minValue.toInt ≤ i ∧ i ≤ Int64.maxValue.toInt then some (Int64.ofInt i) else none
  | none => none

/-- The list position that a word denotes; a negative word denotes none. -/
def index? (w : Word) : Option Nat :=
  if 0 ≤ w.toInt then some w.toInt.toNat else none

theorem read?_text (w : Word) : read? w.text = some w := by
  have hrange : Int64.minValue.toInt ≤ w.toInt ∧ w.toInt ≤ Int64.maxValue.toInt :=
    ⟨Int64.minValue_le_toInt w, Int64.toInt_le w⟩
  simp only [read?, text, Decimal.signed?_ofInt]
  rw [if_pos hrange, Int64.ofInt_toInt]

end Word
end StackMachine
