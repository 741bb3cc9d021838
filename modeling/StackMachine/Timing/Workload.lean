import StackMachine.Assembly.Source
import StackMachine.Session

/-!
The programs that the timing table measures.
-/

namespace StackMachine.Timing

/-- Debug output that is thrown away. -/
def discard {ω : Type} : Outlet ω where
  emit _ world := (.ok (), world)

/-- Number of successful steps of a run on a fresh machine. -/
def stepCount (fuel : Nat) (p : Program) : Nat :=
  match Session.runObserved discard (fun _ n => n + 1) fuel (.boot p 0) with
  | .ok () s => s.world
  | .error _ s => s.world

/-- What is measured: a run of a program, or reading an image of so many records. -/
inductive Workload where
  | run (name source : String) (fuel : Nat)
  | readImage (name : String) (records : Nat)

namespace Workload

def name : Workload → String
  | run name .. => name
  | readImage name .. => name

/-- The image of a program that only pushes. -/
def pushImage (records : Nat) : Except Breach Bytes :=
  (Program.ofList (List.replicate records (.of .push 1))).map Program.image

/-- Carries out one iteration. The answer is the number of steps; reading an image takes none. -/
def execute : Workload → Except Trap Nat
  | run _ source fuel => (Assembly.assemble source).map (stepCount fuel)
  | readImage _ records =>
    match pushImage records with
    | .error cause => .error (.breach cause)
    | .ok image =>
      match Program.ofImage image with
      | .error cause => .error (.fault cause)
      | .ok _ => .ok 0

/-- A budget that no run uses up. -/
def unlimited : Nat := Decimal.maxCount

/-- A source text with the given lines, of which the first is empty. -/
def sourceText (lines : List String) : String := String.join (("" :: lines).map (· ++ "\n"))

/-- Counts down from `n`. -/
def countdownSource (n : Nat) : String :=
  sourceText
    [s!"    PUSH {Decimal.ofNat n}",
      "loop:",
      "    PUSH -1",
      "    PLUS",
      "    DUP 0",
      "    JMP_IF loop",
      "    HALT"]

/-- Computes with small numbers `n` times. The first jump is never taken: it only pops the
comparison. -/
def arithmeticSource (n : Nat) : String :=
  sourceText
    [s!"    PUSH {Decimal.ofNat n}",
      "loop:",
      "    PUSH 7",
      "    PUSH 3",
      "    MULT",
      "    PUSH 2",
      "    DIV",
      "    PUSH 1",
      "    MINUS",
      "    PUSH 5",
      "    EQ",
      "    JMP_IF loop     # never taken; pops the comparison",
      "    PUSH -1",
      "    PLUS",
      "    DUP 0",
      "    JMP_IF loop",
      "    HALT"]

/-- Counts down from `n` and prints every value. -/
def debugOutputSource (n : Nat) : String :=
  sourceText
    [s!"    PUSH {Decimal.ofNat n}",
      "loop:",
      "    DUP 0",
      "    PRINT_DEBUG",
      "    PUSH -1",
      "    PLUS",
      "    DUP 0",
      "    JMP_IF loop",
      "    HALT"]

/-- Fibonacci numbers without end; the stack grows by one value every four steps. -/
def fibonacciSource : String :=
  sourceText
    ["    PUSH 0",
      "    PUSH 1",
      "loop:",
      "    DUP 1",
      "    DUP 1",
      "    PLUS",
      "    JMP loop"]

/-- The rows of the timing table. -/
def all : List Workload :=
  [run "countdown(100K)" (countdownSource 100000) unlimited,
    run "arithmetic_mix(10K)" (arithmeticSource 10000) unlimited,
    run "print_debug(50K)" (debugOutputSource 50000) unlimited,
    run "fibonacci(budget 4000)" fibonacciSource 4000,
    readImage "decode(1023 records)" (Program.capacity - 1)]

end Workload
end StackMachine.Timing
