import StackMachine.Fault

/-!
Measuring with a clock: a workload is repeated until a least duration has passed.
-/

namespace StackMachine.Timing

/-- The readings of a monotonic clock in nanoseconds, numbered from one. -/
abbrev Clock := Nat → Nat

/-- The time that a list of ticks takes. -/
def duration (ticks : List Nat) : Nat := ticks.foldr (· + ·) 0

/-- A clock that moves on by the given ticks, over and over. -/
def Clock.ofTicks (ticks : List Nat) : Clock := fun k =>
  k / ticks.length * duration ticks + duration (ticks.take (k % ticks.length))

/-- Every workload is repeated for two seconds. -/
def leastDuration : Nat := 2000000000

structure Measurement where
  iterations : Nat
  total : Nat
deriving DecidableEq, Repr

/-- One iteration for every test of the clock that reads less than the least duration since `start`.
The answer is the number of iterations and the number of the next reading; there is none if `fuel`
tests did not end the loop. -/
def iterate (clock : Clock) (start : Nat) : (fuel reading iterations : Nat) → Option (Nat × Nat)
  | 0, _, _ => none
  | fuel + 1, reading, iterations =>
    if clock reading - start < leastDuration then
      iterate clock start fuel (reading + 1) (iterations + 1)
    else some (iterations, reading + 1)

/-- Measures a workload. The first reading, number `reading`, is the start, the last is the end. -/
def measure (clock : Clock) (fuel reading : Nat) : Option (Measurement × Nat) :=
  let start := clock reading
  match iterate clock start fuel (reading + 1) 0 with
  | none => none
  | some (iterations, reading) => some (⟨iterations, clock reading - start⟩, reading + 1)

/-- The average duration of an iteration in whole nanoseconds. Iterations are counted with 32
bits. -/
def Measurement.average (m : Measurement) : Except Breach Nat :=
  let count := m.iterations.toUInt32.toNat
  if count = 0 then .error .noIterations else .ok (m.total / count)

end StackMachine.Timing
