import StackMachine.Fault

/-!
Instruction records: an opcode tag and one operand. A record may carry a tag that names no
operation, and an operand that its operation does not use.
-/

namespace StackMachine

structure Instruction where
  tag : UInt32
  operand : Word
deriving DecidableEq, Repr

namespace Instruction

/-- Size in bytes of the binary form of a record. -/
def recordSize : Nat := 12

def of (op : Opcode) (operand : Word) : Instruction := ⟨op.tag, operand⟩

/-- A record whose operand is not used is written with operand zero. -/
def bare (op : Opcode) : Instruction := of op 0

/-- The operation named by the tag. -/
def opcode? (i : Instruction) : Option Opcode := Opcode.ofTag? i.tag

/-- One line of a listing: the mnemonic, with the operand if the operation takes one. -/
def text (i : Instruction) : String :=
  match i.opcode? with
  | some op => if op.takesOperand then s!"{op.mnemonic} {i.operand.text}" else op.mnemonic
  | none => s!"<illegal {Decimal.ofNat i.tag.toNat}>"

end Instruction

namespace Codec

/-- The tag, then the operand. A failed read may already have taken the tag. -/
instance : Wire Instruction where
  encode sink i out := Wire.encode sink i.operand (Wire.encode sink i.tag out)
  decode := do
    let tag ← Wire.decode
    let operand ← Wire.decode
    return ⟨tag, operand⟩

end Codec
end StackMachine
