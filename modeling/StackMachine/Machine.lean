import StackMachine.Program
import StackMachine.Stack

/-!
The machine: a program, a stack, an instruction pointer and the state of the run.

`ready` and `running` machines can go on; in the three other states the run is over and its outcome
is recorded, until the machine is reset or given another program.
-/

namespace StackMachine

/-- Where a run stands. -/
inductive RunState where
  | ready
  | running
  | halted
  | failed (cause : Fault)
  | outOfBudget
deriving DecidableEq, Repr

def RunState.isTerminal : RunState → Bool
  | ready => false
  | running => false
  | halted => true
  | failed _ => true
  | outOfBudget => true

/-- Maximum number of values on the operand stack. -/
def Machine.stackCapacity : Nat := 1024

/-- Step budget of a run that names none. -/
def Machine.defaultBudget : Nat := 69

structure Machine where
  program : Program
  stack : Stack
  /-- Position of the next record. It is signed: a jump to a negative position is reported by the
  next fetch. -/
  ip : Word
  halted : Bool
  state : RunState
  /-- Budget of the run that ended in `RunState.outOfBudget`. -/
  exhausted : Nat
deriving DecidableEq, Repr

namespace Machine

/-- A machine that has not executed anything yet. -/
def boot (program : Program) : Machine where
  program
  stack := Stack.new stackCapacity
  ip := 0
  halted := false
  state := .ready
  exhausted := 0

/-- Back to the first record with an empty stack. The program stays. -/
def reset (m : Machine) : Machine :=
  { m with stack := m.stack.clear, ip := 0, halted := false, state := .ready, exhausted := 0 }

/-- Replaces the program and resets the machine. -/
def load (m : Machine) (program : Program) : Machine := { m with program }.reset

/-- The recorded outcome of a run that is over. -/
def outcome (m : Machine) : Option (Except Fault Unit) :=
  match m.state with
  | .ready => none
  | .running => none
  | .halted => some (.ok ())
  | .failed cause => some (.error cause)
  | .outOfBudget => some (.error (.budgetExceeded m.exhausted))

/-- The record at the instruction pointer. -/
def fetch (m : Machine) : Except Fault Instruction :=
  match m.ip.index?.bind m.program.get? with
  | some i => .ok i
  | none => .error (.illegalAccess m.ip m.program.size)

/-- The lines of a stack dump: a heading, then the values bottom to top. -/
def dumpLines (m : Machine) : List String :=
  match m.stack.toList with
  | [] => ["Stack:", "  [empty]"]
  | values => "Stack:" :: values.map fun w => s!"  {w.text}"

end Machine
end StackMachine
