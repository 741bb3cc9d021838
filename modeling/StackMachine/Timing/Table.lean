import StackMachine.Timing.Binary64
import StackMachine.Timing.Clock
import StackMachine.Timing.Workload

/-!
The timing table: for every workload the number of iterations and their average duration, per
iteration and per step.
-/

namespace StackMachine.Timing

open Decimal

/-- The lines above the rows. -/
def heading : String :=
  let columns := " ".intercalate
    [padRight ' ' 24 "benchmark", padLeft ' ' 7 "iters" ++ "      ", padLeft ' ' 14 "avg time",
      padLeft ' ' 15 "steps/run", padLeft ' ' 16 "ns/step", padLeft ' ' 17 "Msteps/s"]
  let rule := String.ofList (List.replicate 100 '-')
  s!"VM Benchmarks (each runs for >= 2s)\n\n  {columns}\n  {rule}\n"

/-- Nanoseconds per step and millions of steps per second. -/
def perStep (average steps : Nat) : String × String :=
  if steps = 0 then ("-", "-")
  else
    let ns := (Binary64.ofNat average).div (Binary64.ofNat steps)
    (ns.fixed 2, if ns.isZero then "inf" else ((Binary64.ofNat 1000).div ns).fixed 1)

def row (name : String) (m : Measurement) (average steps : Nat) : String :=
  let micros := ((Binary64.ofNat average).div (Binary64.ofNat 1000)).fixed 3
  let (nsPerStep, rate) := perStep average steps
  let name := padRight ' ' 24 name
  let iterations := padLeft ' ' 7 (ofNat m.iterations)
  let micros := padLeft ' ' 10 micros
  let steps := padLeft ' ' 9 (ofNat steps)
  let nsPerStep := padLeft ' ' 8 nsPerStep
  let rate := padLeft ' ' 8 rate
  s!"  {name} {iterations} iters {micros} us/iter {steps} steps {nsPerStep} ns/step {rate} Msteps/s\n"

/-- The row of a measured workload. -/
def entry (w : Workload) (m : Measurement) : Except Trap String :=
  match m.average with
  | .error cause => .error (.breach cause)
  | .ok average => w.execute.map (row w.name m average)

/-- How printing the table ended. -/
inductive Ending where
  | complete
  /-- A row could not be computed; the rows before it are printed. -/
  | stopped (cause : Trap)
  /-- The clock never reached the least duration. -/
  | endless
deriving DecidableEq, Repr

/-- The rows of the workloads, of which the first is measured from reading number `reading`. -/
def rows (clock : Clock) (fuel : Nat) : (reading : Nat) → List Workload → Ending × String
  | _, [] => (.complete, "")
  | reading, w :: rest =>
    match measure clock fuel reading with
    | none => (.endless, "")
    | some (m, reading) =>
      match entry w m with
      | .error cause => (.stopped cause, "")
      | .ok line =>
        let (ending, text) := rows clock fuel reading rest
        (ending, line ++ text)

/-- The table on a clock that repeats the given ticks. The clock moves on in every round of ticks,
so that the tests of a measurement end after as many rounds as there are nanoseconds to wait. -/
def table (ticks : List Nat) : Ending × String :=
  let fuel := (leastDuration + 1) * (ticks.length + 1)
  let (ending, text) := rows (.ofTicks ticks) fuel 1 Workload.all
  (ending, heading ++ text)

end StackMachine.Timing
