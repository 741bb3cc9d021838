import StackMachine.Assembly.Labels
import StackMachine.Assembly.Token
import StackMachine.Instruction

/-!
Statements: the lines of a source that stand for an instruction, with the label definition in front
taken away.
-/

namespace StackMachine.Assembly

/-- A fault of the source, placed at a line and a column. -/
def located (line : Nat) (token : Token) (cause : Fault) : Fault :=
  .located line token.offset cause.message

structure Statement where
  /-- Number of the source line, from one. -/
  line : Nat
  head : Token
  operands : List Token
deriving DecidableEq, Repr

/-- An immediate is a number; an address is a number or a label. -/
def readOperand (labels : Labels) (kind : OperandKind) (text : String) : Except Fault Word :=
  match Word.read? text with
  | some w => .ok w
  | none =>
    match kind with
    | .immediate => .error (.invalidOperand text)
    | .address =>
      if isIdentifier text then
        match labels.resolve text with
        | .ok index => .ok (Int64.ofNat index)
        | .error cause => .error cause
      else
        .error (.invalidOperand text)

/-- The instruction that a statement stands for. A mnemonic that is unknown or has the wrong number
of operands is reported at the mnemonic, an operand at the operand. -/
def Statement.instruction (labels : Labels) (s : Statement) : Except Fault Instruction :=
  match Opcode.ofMnemonic? s.head.text with
  | none => .error (located s.line s.head (.unknownMnemonic s.head.text))
  | some op =>
    match op.operandKind, s.operands with
    | none, [] => .ok (.bare op)
    | some kind, [token] =>
      match readOperand labels kind token.text with
      | .ok w => .ok (.of op w)
      | .error cause => .error (located s.line token cause)
    | _, operands =>
      .error (located s.line s.head (.arityMismatch s.head.text op.arity operands.length))

end StackMachine.Assembly
