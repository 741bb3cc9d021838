import StackMachine.Codec
import StackMachine.Text.Escaped

/-!
Quoted text: a text between double quotes, with escapes for quotes, backslashes and what cannot be
shown. A single quote stands for itself.
-/

namespace StackMachine.Text

/-! ## 1. UTF-8 -/

/-- The text that the bytes spell in UTF-8. -/
def decode? (input : Bytes) : Option String := String.fromUTF8? input.toByteArray

def encode (text : String) : Bytes := text.toUTF8.toList

/-- Cuts bytes into characters and the bytes that belong to none. -/
def pieces : Bytes → List (Except UInt8 Char)
  | [] => []
  | b :: bs =>
    match (b :: bs.take 3).toByteArray.utf8DecodeChar? 0 with
    | some c => .ok c :: pieces (bs.drop (c.utf8Size - 1))
    | none => .error b :: pieces bs
termination_by input => input.length
decreasing_by
  · simp only [List.length_drop, List.length_cons]
    omega
  · simp only [List.length_cons]
    omega

/-! ## 2. Escapes -/

def hexDigits (n : Nat) : List Char := Nat.toDigits 16 n

/-- A character inside quotes. -/
def escape (c : Char) : List Char :=
  if c = '"' then ['\\', '"']
  else if c = '\\' then ['\\', '\\']
  else if c = '\n' then ['\\', 'n']
  else if c = '\t' then ['\\', 't']
  else if c = '\r' then ['\\', 'r']
  else if c.toNat = 0 then ['\\', '0']
  else if isEscaped c then ['\\', 'u', '\x7b'] ++ hexDigits c.toNat ++ ['\x7d']
  else [c]

/-- A byte outside every character: two capital hexadecimal digits. -/
def escapeByte (b : UInt8) : List Char :=
  ['\\', 'x'] ++ (hexDigits (b.toNat / 16) ++ hexDigits (b.toNat % 16)).map Char.toUpper

/-- Bytes in quotes, as text where they spell one. -/
def quoteBytes (input : Bytes) : String :=
  let body := (pieces input).flatMap fun
    | .ok c => escape c
    | .error b => escapeByte b
  String.ofList ('"' :: body ++ ['"'])

/-- The body of a string literal. A zero character in front of an octal digit is written with two
digits, so that the digit is not read as part of the escape. -/
def literalBody : List Char → List Char
  | [] => []
  | c :: cs =>
    let body := literalBody cs
    match cs with
    | d :: _ =>
        if c.toNat = 0 ∧ '0' ≤ d ∧ d ≤ '7' then ['\\', 'x', '0', '0'] ++ body else escape c ++ body
    | [] => escape c

/-- A string literal. -/
def quote (text : String) : String := String.ofList ('"' :: literalBody text.toList ++ ['"'])

end StackMachine.Text
