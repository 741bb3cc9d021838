import StackMachine.Derive.Generics
import StackMachine.Derive.Message

/-!
Code that shows the errors of an enum: every variant declares a message with an `error` attribute,
and the generated code writes that message with the fields of the variant filled in.
-/

namespace StackMachine.Derive

open Code

/-- A literal, as far as messages depend on it. -/
inductive Literal where
  | text (value : String)
  | other
deriving DecidableEq, Repr

/-- The literal that arguments spell. The truth values are names, and the sign of a number is a
token of its own. -/
def literal? : List Argument → Option Literal
  | [.str value] => some (.text value)
  | [.literal _] => some .other
  | [.ident name] => if name = "true" ∨ name = "false" then some .other else none
  | [.punct sign, .literal number] =>
    if sign = "-" ∧ number.toList.head?.any Char.isDigit then some .other else none
  | _ => none

/-- The message of a variant: of its attributes named `error` only the first counts. -/
def Variant.message (v : Variant) : Except Rejection String :=
  match v.attributes.find? (·.path == "error") with
  | none => .error (.missingMessage v.name)
  | some a =>
    match a.form with
    | .list arguments =>
      match literal? arguments with
      | some (.text message) => .ok message
      | some .other => .error .notAString
      | none => .error .notALiteral
    | _ => .error .notAList

inductive PatternForm where
  | unit
  | tuple
  | named
deriving DecidableEq, Repr

/-- One arm of the generated match: it binds the fields of a variant and writes a message with
them. -/
structure Arm where
  variant : String
  form : PatternForm
  bindings : List String
  message : String
deriving DecidableEq, Repr

def Variant.arm (v : Variant) : Except Rejection Arm :=
  match v.message with
  | .error r => .error r
  | .ok message =>
    match v.fields with
    | .unit => .ok ⟨v.name, .unit, [], message⟩
    | .tuple count =>
        .ok ⟨v.name, .tuple, (List.range count).map fieldName, namePlaceholders message count⟩
    | .named names => .ok ⟨v.name, .named, names, message⟩

/-- The arms of all variants, or the first rejection. -/
def arms : List Variant → Except Rejection (List Arm)
  | [] => .ok []
  | v :: rest =>
    match v.arm with
    | .error r => .error r
    | .ok arm =>
      match arms rest with
      | .error r => .error r
      | .ok others => .ok (arm :: others)

/-- Generated code that shows errors. -/
structure DisplayImpl where
  header : Header
  arms : List Arm
deriving DecidableEq, Repr

def deriveDisplay (item : Item) : Except Rejection DisplayImpl :=
  match item.body with
  | .enum variants =>
    match arms variants with
    | .ok arms => .ok ⟨item.header, arms⟩
    | .error r => .error r
  | _ => .error .notAnEnum

/-- The parameter of the generated function that receives the text. -/
def formatter : String := "f"

/-- The bindings of an arm, between commas. -/
def Arm.pattern (arm : Arm) : Code :=
  let names := commaSeparated (arm.bindings.map fun name => [name])
  match arm.form with
  | .unit => []
  | .tuple => parens names
  | .named => braces names

/-- The arguments behind the message: every field under its own name. -/
def Arm.arguments (arm : Arm) : Code :=
  match arm.form with
  | .unit => []
  | _ => [","] ++ commaSeparated (arm.bindings.map fun name => [name, "=", name])

def Arm.code (arm : Arm) : Code :=
  path ["Self", arm.variant] ++ arm.pattern ++ ["=", ">", "write", "!"] ++
    parens ([formatter, ",", Text.quote arm.message] ++ arm.arguments) ++ [","]

def DisplayImpl.code (d : DisplayImpl) : Code :=
  let body := words "match self" ++ braces (d.arms.flatMap Arm.code)
  let signature := words "fn fmt" ++
    parens (words "& self ," ++ [formatter] ++ words ": & mut" ++
        rootPath ["std", "fmt", "Formatter"] ++ angles ["'_"]) ++
      words "- >" ++ rootPath ["std", "fmt", "Result"]
  d.header.implementation (rootPath ["std", "fmt", "Display"]) (signature ++ braces body) ++
    d.header.implementation (rootPath ["std", "error", "Error"]) []

/-- The code for an item: implementations, or the error that rejects the item. -/
def displayCode (item : Item) : Code :=
  match deriveDisplay item with
  | .ok d => d.code
  | .error r => r.code

end StackMachine.Derive
