import StackMachine.Machine

/-!
Execution. A session is a machine together with the world that receives its debug output; the two
change in step, and the world may be any type, so that statements about a session hold for every
behaviour of the output.

One step executes one record. A step that stops with a fault leaves program, stack and instruction
pointer as they were and records the fault in the state of the run.
-/

namespace StackMachine

/-- Where debug output goes: `emit w world` offers `w`, and answers whether it was accepted. -/
structure Outlet (ω : Type) where
  emit : Word → ω → Except String Unit × ω

structure Session (ω : Type) where
  machine : Machine
  world : ω

namespace Session

variable {ω α : Type}

/-- A session that has not executed anything yet. -/
def boot (program : Program) (world : ω) : Session ω := ⟨.boot program, world⟩

/-- Back to the start. What was printed stays printed. -/
def reset (s : Session ω) : Session ω := { s with machine := s.machine.reset }

/-- Back to the start, with another program. What was printed stays printed. -/
def load (s : Session ω) (program : Program) : Session ω :=
  { s with machine := s.machine.load program }

/-- Computations on a session. One that stops leaves the session as it was at that point. -/
abbrev Action (ω : Type) := EStateM Trap (Session ω)

/-! ## 1. Parts of a step -/

/-- Stops with a fault. -/
def fail (cause : Fault) : Action ω α := fun s => .error (.fault cause) s

/-- Acts on the stack of the machine. -/
def onStack (act : Stack.Action α) : Action ω α :=
  fun ⟨⟨program, stack, ip, halted, state, exhausted⟩, world⟩ =>
    match act stack with
    | .ok a stack => .ok a ⟨⟨program, stack, ip, halted, state, exhausted⟩, world⟩
    | .error e stack => .error e ⟨⟨program, stack, ip, halted, state, exhausted⟩, world⟩

def jump (target : Word) : Action ω Unit :=
  fun s => .ok () { s with machine := { s.machine with ip := target } }

/-- On to the next record. -/
def advance : Action ω Unit :=
  fun s => .ok () { s with machine := { s.machine with ip := s.machine.ip + 1 } }

def setHalted : Action ω Unit :=
  fun s => .ok () { s with machine := { s.machine with halted := true } }

/-- Offers a value to the outlet. -/
def emit (outlet : Outlet ω) (w : Word) : Action ω Unit := fun s =>
  match outlet.emit w s.world with
  | (.ok (), world) => .ok () { s with world }
  | (.error reason, world) => .error (.fault (.debugOutput reason)) { s with world }

/-- Replaces the two topmost values `a`, `b` (`b` on top) by `f a b`. -/
def combine (f : Word → Word → Except Breach Word) : Stack.Action Unit := do
  let b ← Stack.pop
  let a ← Stack.peek 0
  match f a b with
  | .ok w => Stack.setTop w
  | .error cause => fun s => .error (.breach cause) s

/-- The quotient of two words; the divisor is promised not to be zero. -/
def quotient (a b : Word) : Except Breach Word :=
  if b = 0 then .error .zeroDivisor else .ok (a / b)

def fetch : Action ω Instruction := fun s =>
  match s.machine.fetch with
  | .ok i => .ok i s
  | .error cause => .error (.fault cause) s

/-- The operation that a record names. -/
def decode (i : Instruction) : Action ω Opcode := fun s =>
  match i.opcode? with
  | some op => .ok op s
  | none => .error (.fault (.illegalInstruction i.tag s.machine.ip)) s

/-! ## 2. One step -/

/-- Replaces the two topmost values by one and goes on. -/
def binary (f : Word → Word → Word) : Action ω Unit := do
  onStack (Stack.require 2)
  onStack (combine fun a b => .ok (f a b))
  advance

/-- Carries out an operation. -/
def perform (outlet : Outlet ω) (operand : Word) : Opcode → Action ω Unit
  | .nop => advance
  | .push => do
    onStack (Stack.push operand)
    advance
  | .dup => do
    match operand.index? with
    | none => fail (.illegalOperand .dup operand)
    | some depth =>
      let w ← onStack (Stack.peek depth)
      onStack (Stack.push w)
      advance
  | .plus => binary (· + ·)
  | .minus => binary (· - ·)
  | .mult => binary (· * ·)
  | .div => do
    onStack (Stack.require 2)
    let divisor ← onStack (Stack.peek 0)
    if divisor = 0 then fail .divByZero
    else
      onStack (combine quotient)
      advance
  | .jmp => jump operand
  | .eq => binary fun a b => Word.ofBool (a == b)
  | .jmpIf => do
    let condition ← onStack Stack.pop
    if condition = 0 then advance else jump operand
  | .halt => setHalted
  | .printDebug => do
    let w ← onStack (Stack.peek 0)
    emit outlet w
    let _ ← onStack Stack.pop
    advance

/-- Executes the record at the instruction pointer. -/
def exec (outlet : Outlet ω) : Action ω Unit := do
  let i ← fetch
  let op ← decode i
  perform outlet i.operand op

def setState (state : RunState) (s : Session ω) : Session ω :=
  { s with machine := { s.machine with state } }

/-- Executes one record and records how it went. Once a run is over, its outcome is repeated and
nothing changes. -/
def step (outlet : Outlet ω) : Action ω Unit := fun s =>
  match s.machine.outcome with
  | some (.ok ()) => .ok () s
  | some (.error cause) => .error (.fault cause) s
  | none =>
    match exec outlet s with
    | .ok () s => .ok () (s.setState (if s.machine.halted then .halted else .running))
    | .error (.fault cause) s => .error (.fault cause) (s.setState (.failed cause))
    | .error (.breach cause) s => .error (.breach cause) s

/-! ## 3. Runs -/

/-- At most `fuel` steps, up to the one that halts. `observe` sees the machine after every
successful step and may act on the world. The answer is whether the machine halted. -/
def advanceBy (outlet : Outlet ω) (observe : Machine → ω → ω) : (fuel : Nat) → Action ω Bool
  | 0 => fun s => .ok false s
  | fuel + 1 => fun s =>
    match step outlet s with
    | .error e s => .error e s
    | .ok () s =>
      let s := { s with world := observe s.machine s.world }
      if s.machine.halted then .ok true s else advanceBy outlet observe fuel s

/-- Ends a run whose budget is used up. -/
def exhaust (fuel : Nat) (s : Session ω) : Session ω :=
  { s with machine := { s.machine with state := .outOfBudget, exhausted := fuel } }

/-- Steps until the machine halts, a step fails, or `fuel` steps were executed, which is a fault
too. Once a run is over, its outcome is repeated and nothing changes. -/
def runObserved (outlet : Outlet ω) (observe : Machine → ω → ω) (fuel : Nat) : Action ω Unit :=
  fun s =>
  match s.machine.outcome with
  | some (.ok ()) => .ok () s
  | some (.error cause) => .error (.fault cause) s
  | none =>
    match advanceBy outlet observe fuel s with
    | .ok true s => .ok () s
    | .ok false s => .error (.fault (.budgetExceeded fuel)) (s.exhaust fuel)
    | .error e s => .error e s

/-- A run that nobody observes. -/
def run (outlet : Outlet ω) (fuel : Nat) : Action ω Unit :=
  runObserved outlet (fun _ world => world) fuel

end Session
end StackMachine
