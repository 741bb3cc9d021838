import StackMachine.Proofs.BoundedRuns

/-!
Which records are executed while requests are served: the sessions in which they start, one after
the other. They are told by the step alone, and not by the loop of a run; each of them finds a
coherent machine that can go on.
-/

namespace StackMachine

variable {ω : Type}

namespace Request

/-- How many records a request may execute. -/
def limit : Request ω → Nat
  | step => 1
  | run fuel => fuel
  | runWatched _ fuel => fuel
  | reset => 0
  | load _ => 0
  | dump => 0

/-- What is done to the world after every executed record. -/
def observer : Request ω → Machine → ω → ω
  | runWatched watch _ => fun m => watch m.exterior
  | _ => fun _ world => world

end Request

namespace Session

/-- The sessions in which the next records are executed: at most `n` of them, and none once the run
is over. -/
def trail (outlet : Outlet ω) (observe : Machine → ω → ω) : Nat → Session ω → List (Session ω)
  | 0, _ => []
  | n + 1, s =>
      if s.machine.state.isTerminal then [] else s :: trail outlet observe n (turn outlet observe s)

/-- The sessions in which records are executed while requests are served one after the other. -/
def executed (outlet : Outlet ω) : List (Request ω) → Session ω → List (Session ω)
  | [], _ => []
  | request :: rest, s =>
    trail outlet request.observer request.limit s ++ executed outlet rest (request.serve outlet s).2

variable {s t : Session ω} (outlet : Outlet ω) {observe : Machine → ω → ω}

/-! ## 1. How a step leaves the state of the run -/

theorem isTerminal_of_ok (hgo : s.machine.outcome = none) (h : step outlet s = .ok () t) :
    t.machine.state.isTerminal = t.machine.halted := by
  rw [step_of_going outlet hgo] at h
  generalize exec outlet s = result at h
  cases result with
  | error e u => cases e <;> cases h
  | ok a u =>
    cases h
    change (if u.machine.halted then RunState.halted else .running).isTerminal = u.machine.halted
    cases u.machine.halted <;> rfl

theorem isTerminal_of_error (hfits : s.machine.Fits) (hgo : s.machine.outcome = none) {e : Trap}
    (h : step outlet s = .error e t) : t.machine.state.isTerminal = true := by
  obtain ⟨cause, -, hmachine, -⟩ := step_error_logged outlet hfits hgo h []
  rw [hmachine]
  rfl

/-! ## 2. Trails -/

theorem trail_of_over (hover : s.machine.state.isTerminal = true) (n : Nat) :
    trail outlet observe n s = [] := by
  cases n with
  | zero => rfl
  | succ n => rw [trail, if_pos hover]

theorem trail_of_going (hgo : s.machine.outcome = none) (n : Nat) :
    trail outlet observe (n + 1) s = s :: trail outlet observe n (turn outlet observe s) := by
  rw [trail, if_neg (by rw [Machine.outcome_eq_none_iff.1 hgo]; decide)]

theorem going_of_mem_trail {n : Nat} (h : s.machine.Coherent) (ht : t ∈ trail outlet observe n s) :
    t.machine.Coherent ∧ t.machine.outcome = none := by
  induction n generalizing s with
  | zero => cases ht
  | succ n ih =>
    cases hterminal : s.machine.state.isTerminal with
    | true =>
      rw [trail_of_over outlet hterminal] at ht
      cases ht
    | false =>
      have hgo := Machine.outcome_eq_none_iff.2 hterminal
      rw [trail_of_going outlet hgo] at ht
      obtain rfl | hlater := List.mem_cons.1 ht
      · exact ⟨h, hgo⟩
      · -- the observer has left the machine as the step has made it
        have hnext : (turn outlet observe s).machine.Coherent := coherent_after outlet h .step
        exact ih hnext hlater

theorem coherent_serve (h : s.machine.Coherent) (request : Request ω) :
    (request.serve outlet s).2.machine.Coherent :=
  coherent_perform outlet (s := s.logging []) h request

/-- Records are executed by coherent machines that can go on. -/
theorem going_of_mem_executed (requests : List (Request ω)) (h : s.machine.Coherent)
    (ht : t ∈ executed outlet requests s) : t.machine.Coherent ∧ t.machine.outcome = none := by
  induction requests generalizing s with
  | nil => cases ht
  | cons request rest ih =>
    obtain hfirst | hlater := List.mem_append.1 ht
    · exact going_of_mem_trail outlet h hfirst
    · exact ih (coherent_serve outlet h request) hlater

end Session
end StackMachine
