import StackMachine.Files.Store
import StackMachine.Tool.Console

/-!
The runner: loads a program image and executes it under a step budget.

The final stack is dumped to standard output when the program halts. Any fault, also an exhausted
budget, is logged under its code, and the tool exits with status one.
-/

namespace StackMachine.Tool.Runner

open Decimal

/-! ## 1. Options -/

structure Options where
  limit : Option Nat
  trace : Bool
  threshold : Level
deriving DecidableEq, Repr

def Options.default : Options := ⟨none, false, .info⟩

/-- What is wrong with an argument list. -/
inductive UsageError where
  | missingValue (flag : String)
  | badLimit (text : String)
  | unexpected (argument : String)
deriving DecidableEq, Repr

/-- Reads options from left to right. An error comes with the options that were read before it. -/
def Options.read (o : Options) : List String → Except (UsageError × Options) Options
  | [] => .ok o
  | argument :: rest =>
    if argument = "--limit" ∨ argument = "-l" then
      match rest with
      | [] => .error (.missingValue argument, o)
      | text :: rest =>
        match count? text with
        | some limit => { o with limit := some limit }.read rest
        | none => .error (.badLimit text, o)
    else if argument = "--trace" ∨ argument = "-t" then { o with trace := true }.read rest
    else if argument = "--quiet" ∨ argument = "-q" then { o with threshold := .error }.read rest
    else if argument = "--verbose" ∨ argument = "-v" then { o with threshold := .debug }.read rest
    else .error (.unexpected argument, o)

def usage (program : String) : String :=
  "\n".intercalate
    ["Stack VM Runner",
      "",
      "USAGE:",
      s!"    {program} <program.bm> [OPTIONS]",
      "",
      "ARGS:",
      "    <program.bm>    Binary program file to execute",
      "",
      "OPTIONS:",
      "    -l, --limit <N>    Step budget (defaults to $STACKVM_EXECUTION_LIMIT, then 69)",
      "    -t, --trace        Dump the stack after every step",
      "    -q, --quiet        Only log errors",
      "    -v, --verbose      Log every executed step",
      "    -h, --help         Print this help message",
      "",
      "EXAMPLES:",
      "    # Run with the default budget",
      s!"    {program} fib.bm",
      "",
      "    # Run with a larger budget and trace each step",
      s!"    {program} fib.bm -l 1000 -t",
      ""]

def logUsage (program : String) (c : Console) : Console := c.log .info (usage program)

def logUsageError (program : String) (c : Console) : UsageError → Console
  | .missingValue flag => c.log .error s!"{flag} requires an argument"
  | .badLimit text => c.log .error s!"Invalid step limit: '{text}' is not a valid number"
  | .unexpected argument => logUsage program (c.log .error s!"Unexpected argument: {argument}\n")

/-! ## 2. Step budget -/

/-- The variable that holds the step budget when no option does. -/
def limitVariable : String := "STACKVM_EXECUTION_LIMIT"

/-- The step budget: of the option, else of the environment, else the default. A value that is not
text is ignored with a warning, a text that is not a number is an error. -/
def budget (program : String) (o : Options) (env : Environment) (c : Console) :
    Option Nat × Console :=
  match o.limit with
  | some limit => (some limit, c)
  | none =>
    match env.find? limitVariable with
    | none => (some Machine.defaultBudget, c)
    | some value =>
      match Text.decode? value with
      | some text =>
        match count? text with
        | some limit => (some limit, c)
        | none => (none, logUsageError program c (.badLimit text))
      | none =>
        let reason := s!"environment variable was not valid unicode: {Text.quoteBytes value}"
        (some Machine.defaultBudget, c.log .warn s!"Ignoring {limitVariable}: {reason}")

/-! ## 3. Execution -/

/-- The console and the number of steps executed. -/
structure Progress where
  console : Console
  steps : Nat

def outlet : Outlet Progress where
  emit w p :=
    let (answer, console) := Console.debugOutlet.emit w p.console
    (answer, { p with console })

/-- Dumps the stack; a failure is only a message of the given level. -/
def dump (level : Level) (m : Machine) (c : Console) : Bool × Console :=
  match c.printLines m.dumpLines with
  | (.ok (), c) => (true, c)
  | (.error e, c) => (false, c.log level s!"Failed to dump stack: {e.message}")

/-- Logs a step, and dumps the stack if that was asked for. -/
def observe (trace : Bool) (m : Machine) (p : Progress) : Progress :=
  let steps := p.steps + 1
  let console := p.console.log .debug
    s!"step {ofNat steps}: ip={m.ip.text} depth={ofNat m.stack.len}"
  let console := if trace then (dump .warn m console).2 else console
  { console, steps }

/-- Executes a program and reports how it went. The answer is the exit status. -/
def execute (trace : Bool) (limit : Nat) (p : Program) (c : Console) : Nat × Console :=
  match Session.runObserved outlet (observe trace) limit (.boot p ⟨c, 0⟩) with
  | .ok () ⟨m, ⟨c, steps⟩⟩ =>
    let c := c.log .info s!"Halted after {ofNat steps} steps"
    match dump .error m c with
    | (true, c) => (0, c)
    | (false, c) => (1, c)
  | .error (.fault cause) ⟨m, ⟨c, _⟩⟩ =>
    let c := if trace then (dump .warn m c).2 else c
    (1, c.log .error s!"{cause.code}: {cause.message}")
  | .error (.breach _) ⟨_, ⟨c, _⟩⟩ => (breachStatus, c)

/-- Runs the tool. `read` gives the contents of a file. The answer is the exit status. -/
def run (program : String) (arguments : List String) (env : Environment)
    (read : String → Except Files.FileError Bytes) (c : Console) : Nat × Console :=
  match arguments with
  | [] => (1, logUsage program c)
  | path :: options =>
    if path = "--help" ∨ path = "-h" then (0, logUsage program c)
    else
      match Options.default.read options with
      | .error (e, o) => (1, logUsageError program (c.setThreshold o.threshold) e)
      | .ok o =>
        match budget program o env (c.setThreshold o.threshold) with
        | (none, c) => (1, c)
        | (some limit, c) =>
          match Files.programOf path (read path) with
          | .error cause => (1, c.log .error s!"{cause.code}: {cause.message}")
          | .ok p =>
            let c := c.log .info
              s!"Loaded {path} ({ofNat p.size} instructions), step budget {ofNat limit}"
            execute o.trace limit p c

end StackMachine.Tool.Runner
