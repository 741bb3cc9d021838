import StackMachine.Codec
import StackMachine.Opcode

/-!
Why an operation stops: a `Fault` is the fault of the input (a program, a source text, a file), a
`Breach` is a broken promise between parts of the library. Both stop an operation as a `Trap`.
-/

namespace StackMachine

/-- What is wrong with a program, a source text, a file or the debug output. -/
inductive Fault where
  | stackOverflow (capacity : Nat)
  | stackUnderflow (required available : Nat)
  | illegalInstruction (tag : UInt32) (ip : Word)
  | illegalAccess (ip : Word) (programSize : Nat)
  | illegalOperand (opcode : Opcode) (operand : Word)
  | divByZero
  | budgetExceeded (limit : Nat)
  | debugOutput (reason : String)
  | io (path reason : String)
  | misalignedImage (size recordSize : Nat)
  | programTooLarge (count capacity : Nat)
  | decode (cause : Codec.DecodeError)
  | unknownMnemonic (name : String)
  | arityMismatch (mnemonic : String) (expected actual : Nat)
  | invalidOperand (token : String)
  | duplicateLabel (label : String)
  | undefinedLabel (label : String)
  /-- A fault of the assembly source, at a line and a byte column that both count from one. -/
  | located (line offset : Nat) (message : String)
deriving DecidableEq, Repr

namespace Fault

open Decimal in
def message : Fault → String
  | stackOverflow capacity => s!"stack overflow: capacity of {ofNat capacity} values reached"
  | stackUnderflow required available =>
      s!"stack underflow: needed {ofNat required} value(s), found {ofNat available}"
  | illegalInstruction tag ip =>
      s!"illegal instruction: unknown opcode tag {ofNat tag.toNat} at ip {ip.text}"
  | illegalAccess ip programSize =>
      s!"illegal instruction access: ip {ip.text} outside program of {ofNat programSize} instruction(s)"
  | illegalOperand opcode operand => s!"illegal operand {operand.text} for {opcode.mnemonic}"
  | divByZero => "division by zero"
  | budgetExceeded limit => s!"step budget of {ofNat limit} exhausted before HALT"
  | debugOutput reason => s!"debug output failed: {reason}"
  | io path reason => s!"io error on {path}: {reason}"
  | misalignedImage size recordSize =>
      s!"program size {ofNat size} is not a multiple of the {ofNat recordSize}-byte record size"
  | programTooLarge count capacity =>
      s!"program of {ofNat count} instructions does not fit the {ofNat capacity}-instruction store"
  | decode cause => s!"decoding error: {cause.message}"
  | unknownMnemonic name => s!"unknown instruction: {name}"
  | arityMismatch mnemonic expected actual =>
      s!"{mnemonic} expects {ofNat expected} operand(s), got {ofNat actual}"
  | invalidOperand token => s!"invalid operand: {token}"
  | duplicateLabel label => s!"duplicate label: {label}"
  | undefinedLabel label => s!"undefined label: {label}"
  | located line offset message => s!"line {ofNat line}:{ofNat offset}: {message}"

/-- The name under which a fault is reported; all faults of the source share one. -/
def code : Fault → String
  | stackOverflow .. => "STACK_OVERFLOW"
  | stackUnderflow .. => "STACK_UNDERFLOW"
  | illegalInstruction .. => "ILLEGAL_INSTRUCTION"
  | illegalAccess .. => "ILLEGAL_INST_ACCESS"
  | illegalOperand .. => "ILLEGAL_OPERAND"
  | divByZero => "DIV_BY_ZERO"
  | budgetExceeded .. => "BUDGET_EXCEEDED"
  | debugOutput .. => "DEBUG_OUTPUT"
  | io .. => "IO"
  | misalignedImage .. => "MISALIGNED_PROGRAM"
  | programTooLarge .. => "PROGRAM_TOO_LARGE"
  | decode .. => "DECODE"
  | unknownMnemonic .. => "ASSEMBLY"
  | arityMismatch .. => "ASSEMBLY"
  | invalidOperand .. => "ASSEMBLY"
  | duplicateLabel .. => "ASSEMBLY"
  | undefinedLabel .. => "ASSEMBLY"
  | located .. => "ASSEMBLY"

/-- Whether the fault comes from executing an instruction. An exhausted budget does not. -/
def isEngineFault : Fault → Bool
  | stackOverflow .. => true
  | stackUnderflow .. => true
  | illegalInstruction .. => true
  | illegalAccess .. => true
  | illegalOperand .. => true
  | divByZero => true
  | debugOutput .. => true
  | _ => false

end Fault

/-- A promise between parts of the library that was not kept. -/
inductive Breach where
  /-- A program built in memory has to stay below the capacity of the store. -/
  | programOverfull (count capacity : Nat)
  /-- A slot is addressed that the stack does not have. -/
  | slotOutOfRange (index size : Nat)
  /-- A live entry is addressed below the bottom of the stack. -/
  | entryOutOfRange (depth len : Nat)
  /-- The dividend is divided by zero. -/
  | zeroDivisor
  /-- The average of no measurements is asked for. -/
  | noIterations
deriving DecidableEq, Repr

open Decimal in
def Breach.message : Breach → String
  | programOverfull count capacity =>
      s!"program of {ofNat count} instructions does not fit capacity {ofNat capacity}"
  | slotOutOfRange index size => s!"slot {ofNat index} outside a stack of {ofNat size} slots"
  | entryOutOfRange depth len =>
      s!"entry {ofNat depth} below the top of a stack of {ofNat len} values"
  | zeroDivisor => "quotient by zero"
  | noIterations => "average of no iterations"

/-- What stops an operation. -/
inductive Trap where
  | fault (cause : Fault)
  | breach (cause : Breach)
deriving DecidableEq, Repr

end StackMachine
