import Mathlib.Data.List.Forall2
import StackMachine.Assembly.Source

/-!
The grammar of assembly sources and the meaning of a source, said without the assembler: what the
tokens of a line are, which of them define labels, what an instruction may look like, and which
record it stands for.
-/

namespace StackMachine.Grammar

/-! ## 1. Rows and tokens -/

def dropReturn (row : List Char) : List Char :=
  if row.getLast? = some '\r' then row.dropLast else row

/-- What stands before each line feed, without a carriage return right before it, and what follows
the last line feed unless that is empty. -/
def rows (cs : List Char) : List (List Char) :=
  (cs.splitOn '\n').dropLast.map dropReturn ++ (cs.splitOn '\n').getLast?.toList.filter (· ≠ [])

def isSeparator (c : Char) : Bool := Text.isBlank c || c == ','

def pieces (cs : List Char) : List (List Char) := (cs.splitOnP isSeparator).filter (· ≠ [])

/-- The tokens of a line: the pieces of what stands before the comment. -/
def tokens (line : String) : List String :=
  (pieces (line.toList.takeWhile (· ≠ '#'))).map String.ofList

def IsIdentifier (name : String) : Prop :=
  ∃ c cs, name.toList = c :: cs ∧ (c.isAlpha = true ∨ c = '_') ∧
    ∀ d ∈ cs, d.isAlphanum = true ∨ d = '_'

inductive IsNumeral : List Char → Int → Prop
  | plain (ds : List Char) (hne : ds ≠ []) (hds : ∀ d ∈ ds, d.isDigit = true) :
      IsNumeral ds (Nat.ofDigitChars 10 ds 0)
  | plus (ds : List Char) (hne : ds ≠ []) (hds : ∀ d ∈ ds, d.isDigit = true) :
      IsNumeral ('+' :: ds) (Nat.ofDigitChars 10 ds 0)
  | minus (ds : List Char) (hne : ds ≠ []) (hds : ∀ d ∈ ds, d.isDigit = true) :
      IsNumeral ('-' :: ds) (-(Nat.ofDigitChars 10 ds 0 : Int))

/-- The token is a numeral of a number that fits a word. -/
def Spells (token : String) (w : Word) : Prop := IsNumeral token.toList w.toInt

/-! ## 2. Lines -/

/-- A line of a source: the label that it defines, and the tokens that remain. -/
structure Line where
  label : Option String
  body : List String
deriving DecidableEq

/-- A first token of more than one byte that ends in a colon defines a label. -/
def Line.ofTokens : List String → Line
  | [] => ⟨none, []⟩
  | token :: rest =>
    if 1 < token.utf8ByteSize ∧ token.toList.getLast? = some ':' then
      ⟨some (String.ofList token.toList.dropLast), rest⟩
    else
      ⟨none, token :: rest⟩

def lineOf (text : String) : Line := .ofTokens (tokens text)

def lines (source : String) : List Line :=
  (rows source.toList).map fun row => lineOf (String.ofList row)

def labels (ls : List Line) : List String := ls.filterMap Line.label

/-- The token lists of the lines that carry an instruction, in order. -/
def statements (ls : List Line) : List (List String) := (ls.map Line.body).filter (· ≠ [])

/-! ## 3. Sources -/

/-- The label is defined on a line with `n` instructions before it. -/
def Address (ls : List Line) (name : String) (n : Nat) : Prop :=
  ∃ before line later, ls = before ++ line :: later ∧ line.label = some name ∧
    n = (statements before).length

def IsOperand (ls : List Line) (token : String) : OperandKind → Prop
  | .immediate => ∃ w, Spells token w
  | .address => (∃ w, Spells token w) ∨ token ∈ labels ls

/-- A mnemonic and exactly as many operands as its operation takes, each of the right kind. -/
def IsStatement (ls : List Line) (ts : List String) : Prop :=
  ∃ (op : Opcode) (operands : List String), ts = op.mnemonic :: operands ∧
    operands.length = op.arity ∧
    ∀ token ∈ operands, ∀ kind ∈ op.operandKind, IsOperand ls token kind

structure Grammatical (ls : List Line) : Prop where
  identifiers : ∀ name ∈ labels ls, IsIdentifier name
  distinct : (labels ls).Nodup
  fits : (statements ls).length ≤ 1023
  wellFormed : ∀ ts ∈ statements ls, IsStatement ls ts

/-- The record that an instruction stands for. -/
inductive Denotes (ls : List Line) : List String → Instruction → Prop
  | bare (op : Opcode) (hkind : op.operandKind = none) : Denotes ls [op.mnemonic] ⟨op.tag, 0⟩
  | number (op : Opcode) (kind : OperandKind) (hkind : op.operandKind = some kind) (token : String)
      (w : Word)
      (hw : Spells token w) : Denotes ls [op.mnemonic, token] ⟨op.tag, w⟩
  | label (op : Opcode) (hkind : op.operandKind = some .address) (token : String) (n : Nat)
      (hn : Address ls token n) : Denotes ls [op.mnemonic, token] ⟨op.tag, Int64.ofNat n⟩

end StackMachine.Grammar
