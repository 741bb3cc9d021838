/-!
Type declarations of Rust, as far as generated code depends on them: names, generic parameters,
fields and the attributes of variants. Field types never show up in generated code and are left out.
-/

namespace StackMachine.Derive

inductive Fields where
  | unit
  | tuple (count : Nat)
  | named (names : List String)
deriving DecidableEq, Repr

/-- A token in the argument of an attribute. -/
inductive Argument where
  /-- A string literal, by its value. -/
  | str (value : String)
  /-- A literal of another kind: a number, a truth value, a character, bytes. -/
  | literal (token : String)
  | ident (token : String)
  | punct (token : String)
deriving DecidableEq, Repr

inductive AttributeForm where
  /-- The attribute is only its path. -/
  | path
  /-- The path is followed by an equals sign and a value. -/
  | value (argument : Argument)
  /-- The path is followed by tokens in parentheses. -/
  | list (arguments : List Argument)
deriving DecidableEq, Repr

structure Attribute where
  path : String
  form : AttributeForm
deriving DecidableEq, Repr

structure Variant where
  name : String
  attributes : List Attribute
  fields : Fields
deriving DecidableEq, Repr

/-- A generic parameter, without its default. -/
inductive Parameter where
  | lifetime (name : String)
  | type (name : String) (bounds : List String)
  | const (name : String) (kind : String)
deriving DecidableEq, Repr

def Parameter.isLifetime : Parameter → Bool
  | lifetime _ => true
  | _ => false

/-- Name of the type for which code is generated, with its generics. -/
structure Header where
  name : String
  parameters : List Parameter
  /-- The predicates of the `where` clause, each a list of tokens. -/
  predicates : List (List String)
deriving DecidableEq, Repr

inductive Body where
  | struct (fields : Fields)
  | union (fields : Fields)
  | enum (variants : List Variant)
deriving DecidableEq, Repr

structure Item where
  header : Header
  body : Body
deriving DecidableEq, Repr

/-- Why no code is generated for an item. -/
inductive Rejection where
  | notAnEnum
  /-- The message attribute is not a list of tokens. -/
  | notAList
  /-- The message attribute is not one literal. -/
  | notALiteral
  /-- The message is a literal, but not a string. -/
  | notAString
  | missingMessage (variant : String)
  | unnamedFields
  | notAStruct
deriving DecidableEq, Repr

def Rejection.message : Rejection → String
  | notAnEnum => "Error derive only supports enums"
  | notAList => "invalid #[error] attribute; use #[error(\"message\")] to describe the error"
  | notALiteral =>
      "failed to parse #[error] attribute; expected a string literal like #[error(\"stack overflow\")]"
  | notAString => "invalid #[error] attribute: message must be a string literal"
  | missingMessage variant =>
      "missing #[error(\"...\")] attribute on variant `" ++ variant ++
        "`; every error variant must declare a display message"
  | unnamedFields => "BinaryCodec only supports structs with named fields"
  | notAStruct => "BinaryCodec only supports structs; records are flat field sequences"

end StackMachine.Derive
