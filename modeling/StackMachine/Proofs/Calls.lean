import StackMachine.Session

/-!
Calls: what a user can ask of a machine, one thing after the other. A call leaves a session whatever
it answers, so that a sequence of calls goes on after a failure.
-/

namespace StackMachine

variable {ω : Type}

/-- One request to a machine. An observed run comes with what its observer does to the world. -/
inductive Call (ω : Type) where
  | step
  | run (fuel : Nat)
  | runObserved (observe : Machine → ω → ω) (fuel : Nat)
  | reset
  | load (program : Program)

namespace Call

def perform (outlet : Outlet ω) : Call ω → Session.Action ω Unit
  | step => Session.step outlet
  | run fuel => Session.run outlet fuel
  | runObserved observe fuel => Session.runObserved outlet observe fuel
  | reset => fun s => .ok () s.reset
  | load program => fun s => .ok () (s.load program)

def budget? : Call ω → Option Nat
  | run fuel => some fuel
  | runObserved _ fuel => some fuel
  | _ => none

/-- The calls that bring a machine back to the start. -/
def restarts : Call ω → Bool
  | reset => true
  | load _ => true
  | _ => false

end Call

namespace Session

/-- The answer of a call, and the session that it leaves. -/
def answered : EStateM.Result Trap (Session ω) Unit → Except Trap Unit × Session ω
  | .ok a s => (.ok a, s)
  | .error e s => (.error e, s)

def after (outlet : Outlet ω) (s : Session ω) (call : Call ω) : Session ω :=
  (answered (call.perform outlet s)).2

def afterAll (outlet : Outlet ω) (s : Session ω) (calls : List (Call ω)) : Session ω :=
  calls.foldl (after outlet) s

theorem afterAll_append_singleton (outlet : Outlet ω) (s : Session ω) (calls : List (Call ω))
    (call : Call ω) :
    afterAll outlet s (calls ++ [call]) = after outlet (afterAll outlet s calls) call := by
  rw [afterAll, List.foldl_append]
  rfl

end Session
end StackMachine
