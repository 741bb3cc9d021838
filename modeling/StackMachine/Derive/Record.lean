import StackMachine.Derive.Generics

/-!
Code that writes and reads a record: the fields one after the other, in the order of their
declaration.
-/

namespace StackMachine.Derive

open Code

/-- Generated code that writes and reads a record. -/
structure RecordImpl where
  header : Header
  /-- The fields that the writer writes, in this order. -/
  encoded : List String
  /-- The fields that the reader reads, in this order. -/
  decoded : List String
deriving DecidableEq, Repr

def deriveRecord (item : Item) : Except Rejection RecordImpl :=
  match item.body with
  | .struct (.named names) => .ok ⟨item.header, names, names⟩
  | .struct _ => .error .unnamedFields
  | _ => .error .notAStruct

/-- The type parameter of the generated writer. -/
def sinkParameter : String := "S"

/-- The path of a name in the codec of the package at hand. -/
def codecPath (names : List String) : Code := path (["crate", "types", "encoding"] ++ names)

/-- Writes one field. -/
def encodeField (name : String) : Code :=
  codecPath ["Encode", "encode"] ++ parens (words "& self ." ++ [name] ++ words ", out") ++ [";"]

/-- Reads one field. -/
def decodeField (name : String) : Code :=
  [name, ":"] ++ codecPath ["Decode", "decode"] ++ parens ["input"] ++ words "? ,"

def RecordImpl.code (r : RecordImpl) : Code :=
  let encoder := words "fn encode" ++ angles ([sinkParameter, ":"] ++ codecPath ["EncodeSink"]) ++
    parens (words "& self , out : & mut" ++ [sinkParameter]) ++
      braces (r.encoded.flatMap encodeField)
  let result := rootPath ["std", "result", "Result"] ++
    angles (words "Self ," ++ codecPath ["DecodeError"])
  let decoder :=
    words "fn decode" ++ parens (words "input : & mut & [ u8 ] ,") ++ words "- >" ++ result ++
    braces (["Ok"] ++ parens (["Self"] ++ braces (r.decoded.flatMap decodeField)))
  r.header.implementation (codecPath ["Encode"]) encoder ++
    r.header.implementation (codecPath ["Decode"]) decoder

/-- The code for an item: implementations, or the error that rejects the item. -/
def recordCode (item : Item) : Code :=
  match deriveRecord item with
  | .ok r => r.code
  | .error r => r.code

end StackMachine.Derive
