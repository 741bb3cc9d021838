import Std.Time.DateTime.Timestamp
import StackMachine.Timing.Table
import StackMachine.Tool.Assembler
import StackMachine.Tool.Runner

/-!
The command line. The first argument names the tool, `runner`, `assembler` or `bench`; the others
are its own.

The tools are functions. What stands here gathers files and environment for them, and prints what
they answer.
-/

namespace StackMachine.CommandLine

open StackMachine.Tool

/-! ## 1. Files -/

/-- The cause that the system gives under a number, with its own words for it. -/
def systemError (code : UInt32) (text : String) : Files.FileError :=
  match code with
  | 2 => .notFound
  | 13 => .accessDenied
  | 20 => .notADirectory
  | 21 => .isADirectory
  | 28 => .noSpace
  | 36 => .nameTooLong
  | 40 => .tooManyLinks
  | _ => .other s!"{text} (os error {code})"

/-- The cause of a failed file access. -/
def fileError : IO.Error → Files.FileError
  | .alreadyExists _ code text | .otherError code text | .resourceBusy code text
  | .resourceVanished code text | .unsupportedOperation code text | .hardwareFault code text
  | .unsatisfiedConstraints code text | .illegalOperation code text | .protocolError code text
  | .timeExpired code text | .interrupted _ code text | .noFileOrDirectory _ code text
  | .invalidArgument _ code text | .permissionDenied _ code text | .resourceExhausted _ code text
  | .inappropriateType _ code text | .noSuchThing _ code text => systemError code text
  | e => .other (toString e)

def attempt {α : Type} (action : IO α) : IO (Except Files.FileError α) := do
  try
    return .ok (← action)
  catch e =>
    return .error (fileError e)

def readFile (path : String) : IO (Except Files.FileError Bytes) :=
  attempt do
    let handle ← IO.FS.Handle.mk path .read
    return (← handle.readBinToEnd).toList

def writeFile (path : String) (contents : Bytes) : IO (Except Files.FileError Unit) :=
  attempt (IO.FS.writeBinFile path contents.toByteArray)

/-- Whether there is anything at a path. Nothing is opened, so that it need not be readable. -/
def isPresent (path : String) : IO Bool := do
  match ← attempt (IO.FS.realPath path) with
  | .ok _ => return true
  | .error _ => return false

/-! ## 2. Console -/

def environment : IO Environment := do
  let look (name : String) : IO (Option (String × Bytes)) := do
    return (← IO.getEnv name).map fun value => (name, Text.encode value)
  return ⟨(← ["TERM", "NO_COLOR", Runner.limitVariable].mapM look).filterMap id⟩

def now : IO Calendar.Instant := do
  let nanos := (← Std.Time.Timestamp.now).toNanosecondsSinceUnixEpoch.val
  return ⟨nanos / 1000000000, (nanos % 1000000000).toNat⟩

/-- Prints what a tool has written. The clock is read for each message. -/
def flush (c : Console) : IO Unit := do
  IO.print c.output
  for message in c.journal.messages do
    IO.eprint (message.written (← now))

/-! ## 3. Tools -/

def runProgram (arguments : List String) : IO Nat := do
  let env ← environment
  let contents ← readFile (arguments.headD "")
  let (status, c) := Runner.run "runner" arguments env (fun _ => contents) (.new true env)
  flush c
  return status

def assemble (arguments : List String) : IO Nat := do
  let env ← environment
  let contents ← readFile (arguments.headD "")
  let present ← match Assembler.outputDirectory? arguments with
    | some directory => isPresent directory
    | none => pure true
  let (answer, c) :=
    Assembler.compile "assembler" arguments (fun _ => contents) (fun _ => present) (.new true env)
  match answer with
  | .error status =>
    flush c
    return status
  | .ok artifact =>
    let written ← writeFile artifact.output artifact.program.image
    let (status, c) := Assembler.report artifact written c
    flush c
    return status

/-- Repeats a workload until the least duration has passed. -/
partial def repeatWorkload (w : Timing.Workload) (start iterations : Nat) :
    IO Timing.Measurement := do
  let elapsed := (← IO.monoNanosNow) - start
  if elapsed < Timing.leastDuration then
    let _ ← IO.lazyPure fun _ => w.execute
    repeatWorkload w start (iterations + 1)
  else
    return ⟨iterations, (← IO.monoNanosNow) - start⟩

def bench : IO Nat := do
  IO.print Timing.heading
  for w in Timing.Workload.all do
    for _ in [0:5] do
      let _ ← IO.lazyPure fun _ => w.execute
    let m ← repeatWorkload w (← IO.monoNanosNow) 0
    match Timing.entry w m with
    | .ok line => IO.print line
    | .error _ => return breachStatus
  return 0

end StackMachine.CommandLine

def main (arguments : List String) : IO UInt32 := do
  let status ← match arguments with
    | "runner" :: rest => StackMachine.CommandLine.runProgram rest
    | "assembler" :: rest => StackMachine.CommandLine.assemble rest
    | "bench" :: _ => StackMachine.CommandLine.bench
    | _ => do
      IO.eprintln "usage: (runner | assembler | bench) [ARGUMENTS]"
      return 1
  return UInt32.ofNat status
