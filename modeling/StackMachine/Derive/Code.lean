import StackMachine.Derive.Item
import StackMachine.Text.Quoted

/-!
Generated code as a sequence of tokens. Every punctuation character is a token of its own.
-/

namespace StackMachine.Derive

/-- The texts of the tokens. -/
abbrev Code := List String

namespace Code

/-- Tokens written with blanks between them. -/
def words (text : String) : Code := ((text.toList.splitOn ' ').filter (· ≠ [])).map String.ofList

/-- The tokens of a path whose names are given, such as `a : : b`. -/
def path (names : List String) : Code :=
  ([":", ":"] : Code).intercalate (names.map fun name => [name])

/-- A path that starts at the root of all packages. -/
def rootPath (names : List String) : Code := [":", ":"] ++ path names

def parens (code : Code) : Code := ["("] ++ code ++ [")"]

def braces (code : Code) : Code := ["\x7b"] ++ code ++ ["\x7d"]

def angles (code : Code) : Code := ["<"] ++ code ++ [">"]

/-- A comma between any two parts. -/
def commaSeparated (parts : List Code) : Code := ([","] : Code).intercalate parts

/-- The tokens with one blank between any two. -/
def text (code : Code) : String := " ".intercalate code

end Code

/-- The code for a rejected item: a compile error with the message. -/
def Rejection.code (r : Rejection) : Code :=
  Code.rootPath ["core", "compile_error"] ++ ["!"] ++ Code.braces [Text.quote r.message]

end StackMachine.Derive
