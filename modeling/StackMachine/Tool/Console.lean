import StackMachine.Files.Tree
import StackMachine.Journal
import StackMachine.Session

/-!
What surrounds a tool: environment variables, standard output, and the journal on standard error.
-/

namespace StackMachine.Tool

/-- Exit status of a tool that stopped at a breach. -/
def breachStatus : Nat := 101

/-- Environment variables. A value is bytes and need not be text. -/
structure Environment where
  entries : List (String × Bytes)

namespace Environment

def find? (env : Environment) (name : String) : Option Bytes := env.entries.lookup name

/-- Messages are coloured on a terminal that is named and not dumb, unless colours are declined. -/
def wantsColour (env : Environment) : Bool :=
  match env.find? "TERM" with
  | none => false
  | some terminal => terminal ≠ Text.encode "dumb" && (env.find? "NO_COLOR").isNone

end Environment

structure Console where
  /-- What was written to standard output. -/
  output : String
  /-- Whether standard output accepts anything. -/
  writable : Bool
  journal : Journal
deriving DecidableEq, Repr

namespace Console

def new (writable : Bool) (env : Environment) : Console where
  output := ""
  writable
  journal := .new env.wantsColour

def log (c : Console) (level : Level) (message : String) : Console :=
  { c with journal := c.journal.log level message }

def setThreshold (c : Console) (level : Level) : Console :=
  { c with journal := { c.journal with threshold := level } }

/-- Writes a line to standard output. -/
def printLine (line : String) (c : Console) : Except Files.FileError Unit × Console :=
  if c.writable then (.ok (), { c with output := c.output ++ line ++ "\n" })
  else (.error .noSpace, c)

/-- Writes lines to standard output, up to the first that is refused. -/
def printLines : List String → Console → Except Files.FileError Unit × Console
  | [], c => (.ok (), c)
  | line :: rest, c =>
    match c.printLine line with
    | (.ok (), c) => printLines rest c
    | (.error e, c) => (.error e, c)

/-- Debug output goes to standard output, one value a line. -/
def debugOutlet : Outlet Console where
  emit w c :=
    match c.printLine w.text with
    | (.ok (), c) => (.ok (), c)
    | (.error e, c) => (.error e.message, c)

end Console
end StackMachine.Tool
