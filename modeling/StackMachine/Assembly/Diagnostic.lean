import StackMachine.Assembly.Token
import StackMachine.Fault

/-!
Diagnostics: the text that reports a fault of a source. A located fault quotes its line and points
at its column.
-/

namespace StackMachine.Assembly

open Decimal

/-- A quoted line does not show the carriage returns at its end. -/
def trimReturns (line : String) : String :=
  String.ofList (line.toList.reverse.dropWhile (· = '\r')).reverse

def quote (line offset : Nat) (text : String) : String :=
  let number := padLeft ' ' 4 (ofNat line)
  let indent := String.ofList (List.replicate (offset - 1) ' ')
  s!"     |\n{number} | {trimReturns text}\n     | {indent}^\n"

/-- The report of a fault in the source `source` of the file `file`. -/
def diagnostic (file source : String) : Fault → String
  | .located line offset message =>
    let head := s!"error: {message}\n --> {file}:{ofNat line}:{ofNat offset}\n"
    match (Text.lines source)[line - 1]? with
    | some text => head ++ quote line offset text
    | none => head
  | cause => s!"error: {cause.message}\n"

end StackMachine.Assembly
