import StackMachine.Proofs.Observation
import StackMachine.Proofs.RunInvariant

/-!
A step that fails commits nothing: only the state of the run is written, and the debug output has
accepted no value.

Some operations write before their last check: `combine` pops before it peeks and sets the top, and
a value is printed before it is popped. A mark is put on the checks behind the first write, and no
step ever reports it.
-/

namespace StackMachine.Session

variable {ω α : Type} {s : Session ω} (outlet : Outlet ω)

/-! ## 1. Marked exits -/

/-- `act`, with every failure reported as `mark`. -/
def marked {σ : Type} (mark : Trap) (act : EStateM Trap σ α) : EStateM Trap σ α := fun s =>
  match act s with
  | .ok a s => .ok a s
  | .error _ s => .error mark s

-- everything behind the pop is marked
def combineMarked (mark : Trap) (f : Word → Word → Except Breach Word) : Stack.Action Unit := do
  let b ← Stack.pop
  let a ← marked mark (Stack.peek 0)
  match f a b with
  | .ok w => marked mark (Stack.setTop w)
  | .error _ => fun s => .error mark s

def binaryMarked (mark : Trap) (f : Word → Word → Word) : Action ω Unit := do
  onStack (Stack.require 2)
  onStack (combineMarked mark fun a b => .ok (f a b))
  advance

/-- `perform`, with a mark on every exit that lies behind a write to the stack or behind an accepted
value. -/
def performMarked (outlet : Outlet ω) (mark : Trap) (operand : Word) : Opcode → Action ω Unit
  | .plus => binaryMarked mark (· + ·)
  | .minus => binaryMarked mark (· - ·)
  | .mult => binaryMarked mark (· * ·)
  | .div => do
    onStack (Stack.require 2)
    let divisor ← onStack (Stack.peek 0)
    if divisor = 0 then fail .divByZero
    else
      onStack (combineMarked mark quotient)
      advance
  | .eq => binaryMarked mark fun a b => Word.ofBool (a == b)
  | .printDebug => do
    let w ← onStack (Stack.peek 0)
    emit outlet w
    let _ ← marked mark (onStack Stack.pop)
    advance
  -- the other operations write last
  | op => perform outlet operand op

def execMarked (outlet : Outlet ω) (mark : Trap) : Action ω Unit := do
  let i ← fetch
  let op ← decode i
  performMarked outlet mark i.operand op

theorem marked_ok {σ : Type} {mark : Trap} {act : EStateM Trap σ α} {s s' : σ} {a : α}
    (h : act s = .ok a s') :
    marked mark act s = .ok a s' := by
  simp only [marked, h]

variable {vs : List Word} (mark : Trap)

theorem combineMarked_eq {stack : Stack} {capacity : Nat} {a b w : Word}
    {f : Word → Word → Except Breach Word} (h : stack.Holds capacity (b :: a :: vs))
    (hf : f a b = .ok w) : combineMarked mark f stack = combine f stack := by
  obtain ⟨popped, hpop, hpopped⟩ := h.pop
  obtain ⟨written, hset, -⟩ := hpopped.setTop w
  unfold combineMarked combine
  rw [bind_ok hpop, bind_ok hpop, bind_ok (marked_ok (hpopped.peek rfl)),
    bind_ok (hpopped.peek rfl), hf]
  exact (marked_ok hset).trans hset.symm

theorem onStack_congr {act act' : Stack.Action α} (h : act s.machine.stack = act' s.machine.stack) :
    onStack act s = onStack act' s := by
  obtain ⟨⟨program, slots, ip, halted, state, exhausted⟩, world⟩ := s
  change act slots = act' slots at h
  simp only [onStack, h]

theorem bind_congr_at {ε σ β : Type} {x y : EStateM ε σ α} {f : α → EStateM ε σ β} {s : σ}
    (h : x s = y s) :
    (x >>= f) s = (y >>= f) s := by
  change EStateM.bind x f s = EStateM.bind y f s
  rw [EStateM.bind, EStateM.bind, h]

/-- Behind the check for two values, a computation only has to be looked at on a stack that has
them. -/
theorem bind_require_two {x y : Action ω Unit} (h : s.machine.stack.Holds Machine.stackCapacity vs)
    (hxy : ∀ b a below, s.machine.stack.Holds Machine.stackCapacity (b :: a :: below) → x s = y s) :
    (onStack (Stack.require 2) >>= fun _ => x) s =
      (onStack (Stack.require 2) >>= fun _ => y) s := by
  by_cases hlen : 2 ≤ vs.length
  · have hcheck := onStack_ok (s := s) (h.require hlen)
    rw [bind_ok hcheck, bind_ok hcheck]
    match vs, h, hlen with
    | b :: a :: below, h, _ => exact hxy b a below h
  · have hshort := onStack_error (s := s) (h.require_short (Nat.lt_of_not_le hlen))
    rw [bind_error hshort, bind_error hshort]

theorem binaryMarked_eq (h : s.machine.stack.Holds Machine.stackCapacity vs)
    (f : Word → Word → Word) :
    binaryMarked mark f s = binary f s := by
  apply bind_require_two h
  intro b a below hstack
  exact bind_congr_at (onStack_congr (combineMarked_eq mark hstack rfl))

theorem divMarked_eq (h : s.machine.stack.Holds Machine.stackCapacity vs) (operand : Word) :
    performMarked outlet mark operand .div s = perform outlet operand .div s := by
  apply bind_require_two h
  intro b a below hstack
  have htop := onStack_ok (s := s) (hstack.peek (show (b :: a :: below)[0]? = some b from rfl))
  rw [bind_ok htop, bind_ok htop]
  by_cases hzero : b = 0
  · rw [if_pos hzero, if_pos hzero]
  · rw [if_neg hzero, if_neg hzero]
    have hquotient : quotient a b = .ok (a / b) := if_neg hzero
    exact bind_congr_at (onStack_congr (combineMarked_eq mark hstack hquotient))

theorem printDebugMarked_eq (h : s.machine.stack.Holds Machine.stackCapacity vs) (operand : Word) :
    performMarked outlet mark operand .printDebug s = perform outlet operand .printDebug s := by
  rw [performMarked, perform]
  cases vs with
  | nil =>
    have hempty := onStack_error (s := s) (h.peek_none (show ([] : List Word)[0]? = none from rfl))
    rw [bind_error hempty, bind_error hempty]
  | cons w below =>
    have htop := onStack_ok (s := s) (h.peek (show (w :: below)[0]? = some w from rfl))
    rw [bind_ok htop, bind_ok htop]
    obtain ⟨answer, world, hemit⟩ : ∃ answer world, outlet.emit w s.world = (answer, world) :=
      ⟨_, _, rfl⟩
    cases answer with
    | error reason =>
      have hfail : emit outlet w s = .error (.fault (.debugOutput reason)) { s with world } := by
        simp only [emit, hemit]
      rw [bind_error hfail, bind_error hfail]
    | ok accepted =>
      have hsent : emit outlet w s = .ok () { s with world } := by
        simp only [emit, hemit]
      obtain ⟨stack, hpop, -⟩ := h.pop
      have hpopped := onStack_ok (s := { s with world }) hpop
      rw [bind_ok hsent, bind_ok hsent, bind_ok (marked_ok hpopped), bind_ok hpopped]

theorem performMarked_eq (h : s.machine.stack.Holds Machine.stackCapacity vs) (operand : Word)
    (op : Opcode) :
    performMarked outlet mark operand op s = perform outlet operand op s := by
  cases op with
  | plus => exact binaryMarked_eq mark h _
  | minus => exact binaryMarked_eq mark h _
  | mult => exact binaryMarked_eq mark h _
  | div => exact divMarked_eq outlet mark h operand
  | eq => exact binaryMarked_eq mark h _
  | printDebug => exact printDebugMarked_eq outlet mark h operand
  | nop | push | dup | jmp | jmpIf | halt => rfl

/-- No execution leaves by a marked exit, so that it does not matter what the mark is. -/
theorem execMarked_eq (hfits : s.machine.Fits) : execMarked outlet mark s = exec outlet s := by
  unfold execMarked exec
  match hfetch : fetch s with
  | .error e s' => rw [bind_error hfetch, bind_error hfetch]
  | .ok i s' =>
    obtain rfl : s' = s := by
      unfold fetch at hfetch
      split at hfetch <;> cases hfetch
      rfl
    rw [bind_ok hfetch, bind_ok hfetch]
    match hdecode : decode i s' with
    | .error e s'' => rw [bind_error hdecode, bind_error hdecode]
    | .ok op s'' =>
      obtain rfl : s'' = s' := by
        unfold decode at hdecode
        split at hdecode <;> cases hdecode
        rfl
      rw [bind_ok hdecode, bind_ok hdecode]
      exact performMarked_eq outlet mark hfits.holds i.operand op

/-! ## 2. Failing steps -/

/-- A step that fails leaves the machine as it was but for the state of the run. A log of the debug
output shows at most refusals. -/
theorem step_error_logged (hfits : s.machine.Fits) (hgo : s.machine.outcome = none) {e : Trap}
    {s' : Session ω} (h : step outlet s = .error e s') (log : List Event) :
    ∃ cause, e = .fault cause ∧ s'.machine = { s.machine with state := .failed cause } ∧
      ∃ events, step outlet.logged (s.logging log) = .error e (s'.logging (log ++ events)) ∧
        ∀ event ∈ events, event.isAccepted = false := by
  have hlogged : step outlet.logged (s.logging log) = settle (exec outlet.logged (s.logging log)) :=
    step_of_going outlet.logged hgo
  rw [step_of_going outlet hgo] at h
  rw [hlogged]
  -- the effect depends on the machine alone, so that it is the same with a log and without
  have hplain := exec_carries outlet hfits.holds
  have htwin := exec_carries outlet.logged (s := s.logging log) hfits.holds
  change Carries _ _ (Table.effect s.machine.program s.machine.config) _ at htwin
  generalize exec outlet s = result at hplain h
  generalize exec outlet.logged (s.logging log) = twin at htwin ⊢
  generalize Table.effect s.machine.program s.machine.config = effect at hplain htwin
  cases hplain with
  | moves c stack holds => cases h
  | accepted w c stack world holds emitted => cases h
  | fails cause =>
    cases h
    cases htwin
    exact ⟨cause, rfl, rfl, [], by rw [List.append_nil]; rfl, nofun⟩
  | rejected w c reason world emitted =>
    cases h
    have hoffer := Outlet.emit_logged emitted log
    cases htwin with
    | accepted _ _ stack world' holds emitted' => cases hoffer.symm.trans emitted'
    | rejected _ _ reason' world' emitted' =>
      cases hoffer.symm.trans emitted'
      refine ⟨.debugOutput reason, rfl, rfl, [.offered w (.error reason)], rfl, ?_⟩
      intro event hevent
      rw [List.mem_singleton.1 hevent]
      rfl

/-- A failing step is atomic. It fails with a fault, program, stack (the slots above the top
included), instruction pointer, halted flag and recorded budget are as before, the state of the run
holds the fault, and the outlet has accepted nothing. No exit that lies behind a write is ever
taken. -/
theorem step_fails_atomically (s : Session ω) (hfits : s.machine.Fits)
    (hgo : s.machine.state.isTerminal = false) :
    (∀ e s', step outlet s = .error e s' →
      ∃ cause, e = .fault cause ∧ s'.machine = { s.machine with state := .failed cause } ∧
        ∀ log, ∃ events, step outlet.logged (s.logging log) =
          .error e (s'.logging (log ++ events)) ∧
          ∀ event ∈ events, event.isAccepted = false) ∧
      ∀ mark, execMarked outlet mark s = exec outlet s := by
  have hnone := Machine.outcome_eq_none_iff.2 hgo
  refine ⟨?_, fun mark => execMarked_eq outlet mark hfits⟩
  intro e s' h
  obtain ⟨cause, he, hmachine, -⟩ := step_error_logged outlet hfits hnone h []
  refine ⟨cause, he, hmachine, fun log => ?_⟩
  obtain ⟨-, -, -, hevents⟩ := step_error_logged outlet hfits hnone h log
  exact hevents

set_option maxRecDepth 8000 in
/-- A value is refused by an outlet that counts its refusals: the count goes up, and the value stays
on the stack. -/
theorem step_fails_atomically_refused :
    let slots : Array Word := (5 :: List.replicate 1023 7).toArray
    let machine : Machine :=
      { Machine.boot ⟨#[.bare .printDebug], by decide⟩ with stack := ⟨slots, 1⟩ }
    let outlet : Outlet Nat := ⟨fun _ refusals => (.error "closed", refusals + 1)⟩
    machine.Fits ∧ machine.state.isTerminal = false ∧
      ∃ s', step outlet ⟨machine, 0⟩ = .error (.fault (.debugOutput "closed")) s' ∧ s'.world = 1 ∧
        s'.machine = { machine with state := .failed (.debugOutput "closed") } ∧
        ∃ events, step outlet.logged ⟨machine, 0, []⟩ =
            .error (.fault (.debugOutput "closed")) ⟨s'.machine, 1, events⟩ ∧
          ∀ event ∈ events, event.isAccepted = false := by
  intro slots machine outlet
  have hsize : slots.size = 1024 := by
    rw [List.size_toArray, List.length_cons, List.length_replicate]
  have hfits : machine.Fits := ⟨hsize, by decide⟩
  have hstep : step outlet ⟨machine, 0⟩ = .error (.fault (.debugOutput "closed"))
      ⟨{ machine with state := .failed (.debugOutput "closed") }, 1⟩ := rfl
  obtain ⟨cause, hcause, hmachine, hlogs⟩ :=
    (step_fails_atomically outlet ⟨machine, 0⟩ hfits rfl).1 _ _ hstep
  cases hcause
  exact ⟨hfits, rfl, _, hstep, rfl, hmachine, hlogs []⟩

end StackMachine.Session
