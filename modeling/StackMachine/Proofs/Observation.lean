import StackMachine.Session

/-!
What is seen of a machine from outside: its exterior between calls, and during a call the values
that it offers to the debug output and the machines that it shows to an observer. The log of these
events is kept beside the world, where neither the outlet nor the observer can read it.
-/

namespace StackMachine

variable {ω : Type}

/-- What can be read off a machine. The slots above the top and the recorded budget are not part of
it. -/
structure Machine.Exterior where
  program : Program
  -- bottom to top
  stack : List Word
  ip : Word
  halted : Bool
  state : RunState
deriving DecidableEq, Repr

def Machine.exterior (m : Machine) : Machine.Exterior :=
  ⟨m.program, m.stack.toList, m.ip, m.halted, m.state⟩

inductive Event where
  | offered (w : Word) (answer : Except String Unit)
  | watched (seen : Machine.Exterior)

def Event.isAccepted : Event → Bool
  | offered _ (.ok ()) => true
  | _ => false

/-- Answers as `outlet` does, and logs what was offered and how it was answered. -/
def Outlet.logged (outlet : Outlet ω) : Outlet (ω × List Event) where
  emit w world :=
    let (answer, next) := outlet.emit w world.1
    (answer, next, world.2 ++ [.offered w answer])

/-- An observer sees the exterior of a machine. What it was shown is logged. -/
def watching (watch : Machine.Exterior → ω → ω) (m : Machine) (world : ω × List Event) :
    ω × List Event :=
  (watch m.exterior world.1, world.2 ++ [.watched m.exterior])

def Session.logging (s : Session ω) (log : List Event) : Session (ω × List Event) :=
  ⟨s.machine, s.world, log⟩

def Session.unlogged (s : Session (ω × List Event)) : Session ω := ⟨s.machine, s.world.1⟩

theorem Outlet.emit_logged {outlet : Outlet ω} {w : Word} {world next : ω}
    {answer : Except String Unit} (h : outlet.emit w world = (answer, next)) (log : List Event) :
    outlet.logged.emit w (world, log) = (answer, next, log ++ [.offered w answer]) := by
  simp only [Outlet.logged, h]

end StackMachine
