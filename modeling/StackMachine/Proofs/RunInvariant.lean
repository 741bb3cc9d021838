import Mathlib.Data.List.Induction
import StackMachine.Proofs.StepRefinement

/-!
What holds of every machine that calls can lead to, from the first one on: how the stack, the
instruction pointer, the halted flag, the state of the run and the recorded budget hang together,
whatever the debug output does.
-/

namespace StackMachine

open Table (Holding)

/-- The fault is what the frozen machine shows: a value on top was refused, or the table fails here
with this fault. -/
def Machine.Explains (m : Machine) (cause : Fault) : Prop :=
  (∃ reason, cause = .debugOutput reason ∧ Holding m.program m.ip .printDebug ∧
      m.stack.toList ≠ []) ∨
    Table.effect m.program m.config = .fails cause

structure Machine.Coherent (m : Machine) : Prop where
  fits : m.Fits
  halted_iff : m.halted = true ↔ m.state = .halted
  ready : m.state = .ready → m.ip = 0 ∧ m.stack.toList = []
  halts : m.state = .halted → Holding m.program m.ip .halt
  budget : m.state = .outOfBudget → m.halted = false
  exhausted : m.state ≠ .outOfBudget → m.exhausted = 0
  failed :
    ∀ cause, m.state = .failed cause →
      cause.isEngineFault = true ∧ m.halted = false ∧ m.Explains cause

namespace Machine

variable {m : Machine}

theorem outcome_eq_none_iff : m.outcome = none ↔ m.state.isTerminal = false := by
  unfold outcome
  cases m.state <;> simp [RunState.isTerminal]

theorem Coherent.halted_eq_false (h : m.Coherent) (hgo : m.outcome = none) : m.halted = false := by
  rw [Bool.eq_false_iff]
  intro hhalted
  have hstate := h.halted_iff.1 hhalted
  simp only [outcome, hstate] at hgo
  cases hgo

theorem Coherent.exhausted_eq_zero (h : m.Coherent) (hgo : m.outcome = none) : m.exhausted = 0 := by
  apply h.exhausted
  intro hstate
  simp only [outcome, hstate] at hgo
  cases hgo

/-! ## 1. Starting over -/

theorem coherent_reset (hsize : m.stack.slots.size = stackCapacity) : m.reset.Coherent where
  fits := ⟨hsize, Nat.zero_le _⟩
  halted_iff := ⟨nofun, nofun⟩
  ready := fun _ => ⟨rfl, rfl⟩
  halts := nofun
  budget := nofun
  exhausted := fun _ => rfl
  failed := nofun

theorem coherent_boot (program : Program) : (boot program).Coherent :=
  coherent_reset (fits_boot program).1

/-! ## 2. Ends of a step -/

theorem Coherent.moved (h : m.Coherent) (hgo : m.outcome = none) {stack : Stack} {c : Table.Config}
    (hstack : stack.Holds stackCapacity c.stack)
    (hhalts : c.halted = true → Holding m.program c.ip .halt) :
    Coherent ⟨m.program, stack, c.ip, c.halted, if c.halted then .halted else .running,
      m.exhausted⟩ := by
  have hexhausted := h.exhausted_eq_zero hgo
  cases hc : c.halted with
  | true =>
    exact {
      fits := ⟨hstack.size_slots, hstack.len_le⟩
      halted_iff := ⟨fun _ => rfl, fun _ => rfl⟩
      ready := nofun
      halts := fun _ => hhalts hc
      budget := nofun
      exhausted := fun _ => hexhausted
      failed := nofun }
  | false =>
    exact {
      fits := ⟨hstack.size_slots, hstack.len_le⟩
      halted_iff := ⟨nofun, nofun⟩
      ready := nofun
      halts := nofun
      budget := nofun
      exhausted := fun _ => hexhausted
      failed := nofun }

theorem Coherent.fell (h : m.Coherent) (hgo : m.outcome = none) {cause : Fault}
    (hengine : cause.isEngineFault = true) (hwhy : m.Explains cause) :
    Coherent { m with state := .failed cause } where
  fits := h.fits
  halted_iff := ⟨fun hh => absurd (h.halted_eq_false hgo ▸ hh) Bool.false_ne_true, nofun⟩
  ready := nofun
  halts := nofun
  budget := nofun
  exhausted := fun _ => h.exhausted_eq_zero hgo
  failed := by
    intro cause' hstate
    cases hstate
    exact ⟨hengine, h.halted_eq_false hgo, hwhy⟩

theorem Coherent.ranOut (h : m.Coherent) (hgo : m.outcome = none) (fuel : Nat) :
    Coherent { m with state := .outOfBudget, exhausted := fuel } where
  fits := h.fits
  halted_iff := ⟨fun hh => absurd (h.halted_eq_false hgo ▸ hh) Bool.false_ne_true, nofun⟩
  ready := nofun
  halts := nofun
  budget := fun _ => h.halted_eq_false hgo
  exhausted := fun hstate => absurd rfl hstate
  failed := nofun

end Machine

namespace Session

variable {ω : Type} {s : Session ω} (outlet : Outlet ω)

/-! ## 3. Steps and runs -/

/-- How a step of a machine that can go on ends. -/
def StepEnds : EStateM.Result Trap (Session ω) Unit → Prop
  | .ok () s =>
      s.machine.Coherent ∧ s.machine.state = if s.machine.halted then .halted else .running
  | .error (.fault cause) s => s.machine.Coherent ∧ s.machine.state = .failed cause
  | .error (.breach _) _ => False

theorem stepEnds (h : s.machine.Coherent) (hgo : s.machine.outcome = none) :
    StepEnds (step outlet s) := by
  rw [step_of_going outlet hgo]
  have hcarries := exec_carries outlet h.fits.holds
  have hhalted := h.halted_eq_false hgo
  generalize exec outlet s = result at hcarries ⊢
  generalize heffect : Table.effect s.machine.program s.machine.config = effect at hcarries
  cases hcarries with
  | fails cause => exact ⟨h.fell hgo (Table.isEngineFault_of_effect heffect) (.inr heffect), rfl⟩
  | moves c stack holds =>
    refine ⟨h.moved hgo holds ?_, rfl⟩
    -- only a halt sets the flag, and the instruction pointer stays at it
    intro hc
    obtain hkept | ⟨hrec, rfl⟩ := Table.halted_of_effect_moves heffect
    · rw [hkept] at hc
      exact absurd (hhalted ▸ hc) Bool.false_ne_true
    · exact hrec
  | accepted w c stack world holds emitted =>
    obtain ⟨-, below, -, rfl⟩ := Table.stack_of_effect_prints heffect
    refine ⟨h.moved hgo holds ?_, rfl⟩
    intro hc
    exact absurd (hhalted ▸ hc) Bool.false_ne_true
  | rejected w c reason world emitted =>
    obtain ⟨hrec, below, hstack, -⟩ := Table.stack_of_effect_prints heffect
    have hlive : s.machine.stack.toList ≠ [] := by
      intro hempty
      simp only [Machine.config, hempty, List.reverse_nil] at hstack
      cases hstack
    exact ⟨h.fell hgo rfl (.inl ⟨reason, rfl, hrec, hlive⟩), rfl⟩

/-- How the steps of a run end, before the budget is looked at. -/
def AdvanceEnds : EStateM.Result Trap (Session ω) Bool → Prop
  | .ok true s => s.machine.Coherent ∧ s.machine.state = .halted
  | .ok false s => s.machine.Coherent ∧ s.machine.outcome = none
  | .error (.fault cause) s => s.machine.Coherent ∧ s.machine.state = .failed cause
  | .error (.breach _) _ => False

theorem advanceEnds (observe : Machine → ω → ω) (fuel : Nat) (h : s.machine.Coherent)
    (hgo : s.machine.outcome = none) : AdvanceEnds (advanceBy outlet observe fuel s) := by
  induction fuel generalizing s with
  | zero => exact ⟨h, hgo⟩
  | succ fuel ih =>
    have hstep := stepEnds outlet h hgo
    unfold advanceBy
    match hs : step outlet s with
    | .error (.fault cause) s' =>
      rw [hs] at hstep
      exact hstep
    | .error (.breach cause) s' =>
      rw [hs] at hstep
      exact hstep.elim
    | .ok () s' =>
      rw [hs] at hstep
      obtain ⟨hcoherent, hstate⟩ := hstep
      cases hhalted : s'.machine.halted with
      | true =>
        rw [hhalted] at hstate
        simp only [hhalted, if_true]
        exact ⟨hcoherent, hstate⟩
      | false =>
        -- the observer has changed the world only, so the run goes on from a machine of the same
        -- kind
        rw [hhalted] at hstate
        have hnext : s'.machine.outcome = none := by
          rw [Machine.outcome, hstate]
          rfl
        simp only [hhalted, Bool.false_eq_true, if_false]
        exact ih (s := { s' with world := observe s'.machine s'.world }) hcoherent hnext

/-- How a run that starts on a machine that can go on ends. -/
def RunEnds (fuel : Nat) : EStateM.Result Trap (Session ω) Unit → Prop
  | .ok () s => s.machine.Coherent ∧ s.machine.state = .halted
  | .error (.fault cause) s =>
      s.machine.Coherent ∧ (s.machine.state = .failed cause ∨
        (cause = .budgetExceeded fuel ∧ s.machine.state = .outOfBudget ∧
          s.machine.exhausted = fuel))
  | .error (.breach _) _ => False

theorem runEnds (observe : Machine → ω → ω) (fuel : Nat) (h : s.machine.Coherent)
    (hgo : s.machine.outcome = none) : RunEnds fuel (runObserved outlet observe fuel s) := by
  have hadvance := advanceEnds outlet observe fuel h hgo
  unfold runObserved
  rw [hgo]
  match ha : advanceBy outlet observe fuel s with
  | .ok true s' =>
    rw [ha] at hadvance
    exact hadvance
  | .ok false s' =>
    rw [ha] at hadvance
    exact ⟨hadvance.1.ranOut hadvance.2 fuel, .inr ⟨rfl, rfl, rfl⟩⟩
  | .error (.fault cause) s' =>
    rw [ha] at hadvance
    exact ⟨hadvance.1, .inl hadvance.2⟩
  | .error (.breach cause) s' =>
    rw [ha] at hadvance
    exact hadvance.elim

/-! ## 4. Calls -/

/-- Once a run is over, nothing but a fresh start changes the session. -/
theorem after_of_over {r : Except Fault Unit} (hover : s.machine.outcome = some r) {call : Call ω}
    (hcall : call.restarts = false) : after outlet s call = s := by
  cases call with
  | step => exact congrArg Prod.snd (step_of_over outlet hover)
  | run fuel =>
    simp only [after, Call.perform, run, runObserved, hover]
    cases r <;> rfl
  | runObserved observe fuel =>
    simp only [after, Call.perform, runObserved, hover]
    cases r <;> rfl
  | reset => cases hcall
  | load program => cases hcall

theorem StepEnds.left {r : EStateM.Result Trap (Session ω) Unit} (h : StepEnds r) :
    (answered r).2.machine.Coherent ∧ (answered r).2.machine.state ≠ .outOfBudget := by
  cases r with
  | ok a s =>
    obtain ⟨hcoherent, hstate⟩ := h
    refine ⟨hcoherent, ?_⟩
    show s.machine.state ≠ .outOfBudget
    rw [hstate]
    split <;> intro hout <;> cases hout
  | error e s =>
    cases e with
    | breach cause => exact h.elim
    | fault cause =>
      obtain ⟨hcoherent, hstate⟩ := h
      refine ⟨hcoherent, ?_⟩
      show s.machine.state ≠ .outOfBudget
      rw [hstate]
      intro hout
      cases hout

theorem RunEnds.left {fuel : Nat} {r : EStateM.Result Trap (Session ω) Unit} (h : RunEnds fuel r) :
    (answered r).2.machine.Coherent ∧
      ((answered r).2.machine.state = .outOfBudget → (answered r).2.machine.exhausted = fuel) := by
  cases r with
  | ok a s =>
    obtain ⟨hcoherent, hstate⟩ := h
    refine ⟨hcoherent, fun hout => ?_⟩
    cases hstate.symm.trans hout
  | error e s =>
    cases e with
    | breach cause => exact h.elim
    | fault cause =>
      obtain ⟨hcoherent, hstate | ⟨-, -, hexhausted⟩⟩ := h
      · refine ⟨hcoherent, fun hout => ?_⟩
        cases hstate.symm.trans hout
      · exact ⟨hcoherent, fun _ => hexhausted⟩

theorem after_of_going (h : s.machine.Coherent) (hgo : s.machine.outcome = none) (call : Call ω) :
    (after outlet s call).machine.Coherent ∧
      ((after outlet s call).machine.state = .outOfBudget →
        call.budget? = some (after outlet s call).machine.exhausted) := by
  cases call with
  | step =>
    obtain ⟨hcoherent, hstate⟩ := (stepEnds outlet h hgo).left
    exact ⟨hcoherent, fun hout => absurd hout hstate⟩
  | run fuel =>
    obtain ⟨hcoherent, hexhausted⟩ := (runEnds outlet (fun _ world => world) fuel h hgo).left
    exact ⟨hcoherent, fun hout => congrArg some (hexhausted hout).symm⟩
  | runObserved observe fuel =>
    obtain ⟨hcoherent, hexhausted⟩ := (runEnds outlet observe fuel h hgo).left
    exact ⟨hcoherent, fun hout => congrArg some (hexhausted hout).symm⟩
  | reset => exact ⟨Machine.coherent_reset h.fits.1, nofun⟩
  | load program => exact ⟨Machine.coherent_reset (m := { s.machine with program }) h.fits.1, nofun⟩

theorem coherent_after (h : s.machine.Coherent) (call : Call ω) :
    (after outlet s call).machine.Coherent := by
  cases hoc : s.machine.outcome with
  | none => exact (after_of_going outlet h hoc call).1
  | some r =>
    cases call with
    | reset => exact Machine.coherent_reset h.fits.1
    | load program => exact Machine.coherent_reset (m := { s.machine with program }) h.fits.1
    | step | run fuel | runObserved observe fuel =>
      rw [after_of_over outlet hoc rfl]
      exact h

theorem coherent_calls (calls : List (Call ω)) (h : s.machine.Coherent) :
    (afterAll outlet s calls).machine.Coherent := by
  induction calls generalizing s with
  | nil => exact h
  | cons call calls ih => exact ih (coherent_after outlet h call)

/-- The budget of the run that was cut short is `fuel`: a call with this budget found a machine that
could go on and left it out of budget, and no later call has started over. -/
def CutShort (outlet : Outlet ω) (s : Session ω) (calls : List (Call ω)) (fuel : Nat) : Prop :=
  ∃ before call later, calls = before ++ call :: later ∧ call.budget? = some fuel ∧
    (afterAll outlet s before).machine.state.isTerminal = false ∧
    (afterAll outlet s (before ++ [call])).machine.state = .outOfBudget ∧
    ∀ c ∈ later, c.restarts = false

theorem CutShort.append {calls : List (Call ω)} {fuel : Nat} (h : CutShort outlet s calls fuel)
    {call : Call ω} (hcall : call.restarts = false) : CutShort outlet s (calls ++ [call]) fuel := by
  obtain ⟨before, run, later, rfl, hbudget, hgo, hout, hlater⟩ := h
  refine ⟨before, run, later ++ [call], by simp, hbudget, hgo, hout, ?_⟩
  intro c hc
  rcases List.mem_append.1 hc with hc | hc
  · exact hlater c hc
  · rw [List.mem_singleton.1 hc]
    exact hcall

theorem cutShort_after {calls : List (Call ω)} (h : (afterAll outlet s calls).machine.Coherent)
    (ih :
      (afterAll outlet s calls).machine.state = .outOfBudget →
        CutShort outlet s calls (afterAll outlet s calls).machine.exhausted)
    (call : Call ω)
    (hout : (after outlet (afterAll outlet s calls) call).machine.state = .outOfBudget) :
    CutShort outlet s (calls ++ [call])
      (after outlet (afterAll outlet s calls) call).machine.exhausted := by
  cases hoc : (afterAll outlet s calls).machine.outcome with
  | none =>
    -- this very call has run out of its budget
    refine ⟨calls, call, [], rfl, (after_of_going outlet h hoc call).2 hout, ?_, ?_, nofun⟩
    · exact Machine.outcome_eq_none_iff.1 hoc
    · rw [afterAll_append_singleton]
      exact hout
  | some r =>
    -- a fresh start leaves a machine that is ready, so the call has found the run over and changed
    -- nothing
    have hcall : call.restarts = false := by
      cases call with
      | reset => cases hout
      | load program => cases hout
      | step | run fuel | runObserved observe fuel => rfl
    rw [after_of_over outlet hoc hcall] at hout ⊢
    exact (ih hout).append outlet hcall

/-- Every machine that calls lead to is coherent, and one that is out of budget knows the budget of
the run that was cut short. -/
theorem coherent_afterAll (program : Program) (world : ω) (calls : List (Call ω)) :
    (afterAll outlet (boot program world) calls).machine.Coherent ∧
      ((afterAll outlet (boot program world) calls).machine.state = .outOfBudget →
        CutShort outlet (boot program world) calls
          (afterAll outlet (boot program world) calls).machine.exhausted) := by
  induction calls using List.reverseRecOn with
  | nil => exact ⟨Machine.coherent_boot program, nofun⟩
  | append_singleton calls call ih =>
    rw [afterAll_append_singleton]
    exact ⟨coherent_after outlet ih.1 call, cutShort_after outlet ih.1 ih.2 call⟩

end Session
end StackMachine
