import StackMachine.Word

/-!
The instruction set: twelve operations, each with a numeric tag, a mnemonic and at most one operand.
-/

namespace StackMachine

/-- What an operand stands for: a value, or a position in the program. -/
inductive OperandKind where
  | immediate
  | address
deriving DecidableEq, Repr

inductive Opcode where
  | nop
  | push
  | dup
  | plus
  | minus
  | mult
  | div
  | jmp
  | eq
  | jmpIf
  | halt
  | printDebug
deriving DecidableEq, Repr

namespace Opcode

/-- Every operation, in the order of the tags. -/
def all : List Opcode :=
  [nop, push, dup, plus, minus, mult, div, jmp, eq, jmpIf, halt, printDebug]

/-- The number that stands for the operation in a program image. -/
def tag : Opcode → UInt32
  | nop => 0
  | push => 1
  | dup => 2
  | plus => 3
  | minus => 4
  | mult => 5
  | div => 6
  | jmp => 7
  | eq => 8
  | jmpIf => 9
  | halt => 10
  | printDebug => 11

/-- The name that stands for the operation in assembly source. -/
def mnemonic : Opcode → String
  | nop => "NOP"
  | push => "PUSH"
  | dup => "DUP"
  | plus => "PLUS"
  | minus => "MINUS"
  | mult => "MULT"
  | div => "DIV"
  | jmp => "JMP"
  | eq => "EQ"
  | jmpIf => "JMP_IF"
  | halt => "HALT"
  | printDebug => "PRINT_DEBUG"

def operandKind : Opcode → Option OperandKind
  | push => some .immediate
  | dup => some .immediate
  | jmp => some .address
  | jmpIf => some .address
  | _ => none

def takesOperand (op : Opcode) : Bool := op.operandKind.isSome

/-- Number of operands written after the mnemonic. -/
def arity (op : Opcode) : Nat := if op.takesOperand then 1 else 0

def ofTag? (tag : UInt32) : Option Opcode := all.find? (·.tag == tag)

def ofMnemonic? (name : String) : Option Opcode := all.find? (·.mnemonic == name)

@[simp] theorem ofTag?_tag (op : Opcode) : ofTag? op.tag = some op := by cases op <;> rfl

@[simp] theorem ofMnemonic?_mnemonic (op : Opcode) : ofMnemonic? op.mnemonic = some op := by
  cases op <;> decide

theorem ofTag?_eq_some_iff {t : UInt32} {op : Opcode} : ofTag? t = some op ↔ op.tag = t := by
  constructor
  · intro h
    simpa using List.find?_some h
  · rintro rfl
    exact ofTag?_tag op

theorem ofMnemonic?_eq_some_iff {name : String} {op : Opcode} :
    ofMnemonic? name = some op ↔ op.mnemonic = name := by
  constructor
  · intro h
    simpa using List.find?_some h
  · rintro rfl
    exact ofMnemonic?_mnemonic op

end Opcode
end StackMachine
