import StackMachine.Assembly.Diagnostic
import StackMachine.Files.Path
import StackMachine.Files.Store
import StackMachine.Tool.Console

/-!
The assembler tool: reads an assembly source and writes the program image for the runner.

It works in two halves around the one write: `compile` decides what to write and where, `report`
says how it went.
-/

namespace StackMachine.Tool.Assembler

open Decimal

/-! ## 1. Options -/

/-- What is wrong with an argument list. -/
inductive UsageError where
  | missingValue (flag : String)
  | unexpected (argument : String)
deriving DecidableEq, Repr

/-- The output path that the options name; the last one counts. -/
def readOptions (output : Option String) : List String → Except UsageError (Option String)
  | [] => .ok output
  | argument :: rest =>
    if argument = "--output" ∨ argument = "-o" then
      match rest with
      | [] => .error (.missingValue argument)
      | path :: rest => readOptions (some path) rest
    else .error (.unexpected argument)

def usage (program : String) : String :=
  "\n".intercalate
    ["Stack VM Assembler",
      "",
      "USAGE:",
      s!"    {program} <input.basm> [OPTIONS]",
      "",
      "ARGS:",
      "    <input.basm>    Assembly source file to compile",
      "",
      "OPTIONS:",
      "    -o, --output <file>    Output file path (defaults to <input>.bm)",
      "    -h, --help             Print this help message",
      "",
      "EXAMPLES:",
      "    # Compile to default output name",
      s!"    {program} fib.basm",
      "",
      "    # Compile with explicit output",
      s!"    {program} fib.basm -o out/fib.bm",
      ""]

def logUsage (program : String) (c : Console) : Console := c.log .info (usage program)

def logUsageError (program : String) (c : Console) : UsageError → Console
  | .missingValue flag => c.log .error s!"{flag} requires an argument"
  | .unexpected argument => logUsage program (c.log .error s!"Unexpected argument: {argument}\n")

/-! ## 2. Compilation -/

/-- A program, with the source that it comes from and the file that it goes to. -/
structure Artifact where
  input : String
  output : String
  program : Program

/-- The output path when none is named: beside the source, with the extension of program images. -/
def defaultOutput (input : String) : String := Files.Path.withExtension input "bm"

/-- The directory that has to be there for the output of a run with the given arguments. -/
def outputDirectory? (arguments : List String) : Option String :=
  match arguments with
  | [] => none
  | input :: options =>
    match readOptions none options with
    | .error _ => none
    | .ok output => Files.Path.parent? (output.getD (defaultOutput input))

/-- The directory of a path is missing: the path names one, and there is nothing under that name. -/
def missingDirectory? (isPresent : String → Bool) (path : String) : Option String :=
  (Files.Path.parent? path).filter fun directory => directory ≠ "" && !isPresent directory

/-- Compiles the source in `input`. A failure is an exit status. -/
def compileFile (input : String) (output : Option String)
    (read : String → Except Files.FileError Bytes) (isPresent : String → Bool) (c : Console) :
    Except Nat Artifact × Console :=
  match Files.asText (read input) with
  | .error e => (.error 1, c.log .error s!"Failed to read {input}: {e.message}")
  | .ok source =>
    let output := output.getD (defaultOutput input)
    match missingDirectory? isPresent output with
    | some directory => (.error 1, c.log .error s!"Output directory does not exist: {directory}")
    | none =>
      match Assembly.assemble source with
      | .ok program => (.ok { input, output, program }, c)
      | .error (.fault cause) =>
        (.error 1, c.log .error s!"Assembly failed\n{Assembly.diagnostic input source cause}")
      | .error (.breach _) => (.error breachStatus, c)

/-- Everything up to the write. `read` gives the contents of a file, `isPresent` whether there is
anything at a path. Without something to write, the answer is the exit status. -/
def compile (program : String) (arguments : List String)
    (read : String → Except Files.FileError Bytes) (isPresent : String → Bool) (c : Console) :
    Except Nat Artifact × Console :=
  match arguments with
  | [] => (.error 1, logUsage program c)
  | input :: options =>
    if input = "--help" ∨ input = "-h" then (.error 0, logUsage program c)
    else
      match readOptions none options with
      | .error e => (.error 1, logUsageError program c e)
      | .ok output => compileFile input output read isPresent c

/-- Everything after the write. The answer is the exit status. -/
def report (a : Artifact) (written : Except Files.FileError Unit) (c : Console) : Nat × Console :=
  match written with
  | .error e =>
      (1, c.log .error s!"Failed to write output file: {(Files.ioFault a.output e).message}")
  | .ok () =>
    let count := a.program.size
    let size := count * Instruction.recordSize
    (0, c.log .info
      s!"Compiled {a.input} -> {a.output} ({ofNat count} instructions, {ofNat size} bytes)")

/-- Runs the tool on a tree of files. The answer is the exit status. -/
def run (program : String) (arguments : List String) (t : Files.Tree) (c : Console) :
    Nat × Files.Tree × Console :=
  match compile program arguments t.read t.contains c with
  | (.error status, c) => (status, t, c)
  | (.ok a, c) =>
    match t.write a.output a.program.image with
    | .error e =>
      let (status, c) := report a (.error e) c
      (status, t, c)
    | .ok t =>
      let (status, c) := report a (.ok ()) c
      (status, t, c)

end StackMachine.Tool.Assembler
