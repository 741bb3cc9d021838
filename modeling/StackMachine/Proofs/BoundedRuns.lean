import Mathlib.Data.Nat.Find
import Mathlib.Logic.Function.Iterate
import Mathlib.Order.Bounds.Basic
import StackMachine.Proofs.ControlFlow
import StackMachine.Proofs.FailureAtomicity
import StackMachine.Proofs.Transfer

/-!
A run is bounded iteration of the step: it answers and leaves what stepping again and again answers
and leaves, up to the first step that halts or fails, or up to the end of the budget.

A callback that is shown the machine after every step keeps notes of its own. Neither the machine
nor the outlet can read them, so that they are told apart from the world: the world of a traced run
is a pair.
-/

namespace StackMachine

variable {ω κ : Type}

/-- `outlet`, in a world that holds notes as well. -/
def Outlet.beside (κ : Type) (outlet : Outlet ω) : Outlet (ω × κ) where
  emit w world :=
    let (answer, next) := outlet.emit w world.1
    (answer, next, world.2)

/-- A callback is shown the machine and the outlet's world, and writes to its notes. -/
def noting (note : Session ω → κ → κ) (m : Machine) (world : ω × κ) : ω × κ :=
  (world.1, note ⟨m, world.1⟩ world.2)

namespace Session

def beside (notes : κ) (s : Session ω) : Session (ω × κ) := ⟨s.machine, s.world, notes⟩

/-- A result in a world with notes, without them. -/
def withoutNotes {α : Type} :
    EStateM.Result Trap (Session (ω × κ)) α → EStateM.Result Trap (Session ω) α
  | .ok a s => .ok a ⟨s.machine, s.world.1⟩
  | .error e s => .error e ⟨s.machine, s.world.1⟩

/-! ## 1. Stepping again and again -/

/-- The session after `n` steps in a row, whatever they answer. -/
def stepped (outlet : Outlet ω) (s : Session ω) (n : Nat) : Session ω :=
  (fun t => after outlet t .step)^[n] s

/-- Step number `k` in a row, counted from one. -/
def nthStep (outlet : Outlet ω) (s : Session ω) (k : Nat) : EStateM.Result Trap (Session ω) Unit :=
  step outlet (stepped outlet s (k - 1))

def HaltsAt (outlet : Outlet ω) (s : Session ω) (k : Nat) : Prop :=
  ∃ t, nthStep outlet s k = .ok () t ∧ t.machine.halted = true

def FailsAt (outlet : Outlet ω) (s : Session ω) (k : Nat) (e : Trap) : Prop :=
  ∃ t, nthStep outlet s k = .error e t

def EndsAt (outlet : Outlet ω) (s : Session ω) (k : Nat) : Prop :=
  HaltsAt outlet s k ∨ ∃ e, FailsAt outlet s k e

/-- What a callback has noted after it was shown the sessions after steps `1, …, n`. -/
def noted (outlet : Outlet ω) (s : Session ω) (note : Session ω → κ → κ) (notes : κ)
    (n : Nat) : κ :=
  ((List.range n).map fun i => stepped outlet s (i + 1)).foldl (fun notes t => note t notes) notes

/-- The step from `s` neither fails nor halts. -/
def GoesOn (outlet : Outlet ω) (s : Session ω) : Prop :=
  ∃ t, step outlet s = .ok () t ∧ t.machine.halted = false

/-- A step and what the observer does to the world afterwards. -/
def turn (outlet : Outlet ω) (observe : Machine → ω → ω) (s : Session ω) : Session ω :=
  let t := after outlet s .step
  { t with world := observe t.machine t.world }

variable {s t : Session ω} (outlet : Outlet ω)

theorem after_step_of_ok (h : step outlet s = .ok () t) : after outlet s .step = t := by
  rw [after, Call.perform, h]
  rfl

theorem after_step_of_error {e : Trap} (h : step outlet s = .error e t) :
    after outlet s .step = t := by
  rw [after, Call.perform, h]
  rfl

theorem stepped_succ (s : Session ω) (n : Nat) :
    stepped outlet s (n + 1) = after outlet (stepped outlet s n) .step :=
  Function.iterate_succ_apply' _ n s

theorem noted_succ (note : Session ω → κ → κ) (notes : κ) (n : Nat) :
    noted outlet s note notes (n + 1) =
      note (stepped outlet s (n + 1)) (noted outlet s note notes n) := by
  rw [noted, List.range_succ, List.map_append, List.foldl_append]
  rfl

theorem fits_stepped (hfits : s.machine.Fits) (n : Nat) : (stepped outlet s n).machine.Fits := by
  induction n with
  | zero => exact hfits
  | succ n ih =>
    rw [stepped_succ]
    exact (fits_step outlet ih).1

theorem goesOn_or_endsAt (s : Session ω) (n : Nat) :
    GoesOn outlet (stepped outlet s n) ∨ EndsAt outlet s (n + 1) := by
  cases hs : step outlet (stepped outlet s n) with
  | error e t => exact .inr (.inr ⟨e, t, hs⟩)
  | ok a t =>
    cases hhalted : t.machine.halted with
    | true => exact .inr (.inl ⟨t, hs, hhalted⟩)
    | false => exact .inl ⟨t, hs, hhalted⟩

theorem not_endsAt_of_goesOn {n : Nat} (h : GoesOn outlet (stepped outlet s n)) :
    ¬ EndsAt outlet s (n + 1) := by
  obtain ⟨t, hstep, hhalted⟩ := h
  rintro (⟨u, hhalts, hu⟩ | ⟨e, u, hfails⟩)
  · cases hstep.symm.trans hhalts
    cases hhalted.symm.trans hu
  · cases hstep.symm.trans hfails

theorem goesOn_of_not_endsAt {n : Nat} (h : ∀ k, 1 ≤ k → k ≤ n → ¬ EndsAt outlet s k) {i : Nat}
    (hi : i < n) :
    GoesOn outlet (stepped outlet s i) :=
  (goesOn_or_endsAt outlet s i).resolve_right (h (i + 1) (by omega) (by omega))

theorem outcome_stepped (hgo : s.machine.outcome = none) {n : Nat}
    (hsteps : ∀ i < n, GoesOn outlet (stepped outlet s i)) :
    (stepped outlet s n).machine.outcome = none := by
  induction n with
  | zero => exact hgo
  | succ n ih =>
    have hbefore := ih fun i hi => hsteps i (by omega)
    obtain ⟨t, hstep, hhalted⟩ := hsteps n (by omega)
    rw [stepped_succ, after_step_of_ok outlet hstep]
    exact outcome_of_step outlet hbefore hstep hhalted

/-! ## 2. The loop of a run -/

/-- What a run makes of the end of its loop. -/
def ranBy (fuel : Nat) : EStateM.Result Trap (Session ω) Bool → EStateM.Result Trap (Session ω) Unit
  | .ok true s => .ok () s
  | .ok false s => .error (.fault (.budgetExceeded fuel)) (s.exhaust fuel)
  | .error e s => .error e s

variable {observe : Machine → ω → ω}

theorem advanceBy_turn (h : GoesOn outlet s) (fuel : Nat) :
    advanceBy outlet observe (fuel + 1) s =
      advanceBy outlet observe fuel (turn outlet observe s) := by
  obtain ⟨t, hstep, hhalted⟩ := h
  rw [advanceBy_of_step hstep hhalted, turn, after_step_of_ok outlet hstep]

/-- Turns that go on use up their share of the fuel, and the loop goes on behind them. -/
theorem advanceBy_add (n fuel : Nat) (h : ∀ i < n, GoesOn outlet ((turn outlet observe)^[i] s)) :
    advanceBy outlet observe (n + fuel) s =
      advanceBy outlet observe fuel ((turn outlet observe)^[n] s) := by
  induction n generalizing s with
  | zero => rw [Nat.zero_add]; rfl
  | succ n ih =>
    have hfirst : GoesOn outlet s := h 0 (by omega)
    rw [show n + 1 + fuel = n + fuel + 1 by omega, advanceBy_turn outlet hfirst,
      Function.iterate_succ_apply]
    apply ih
    intro i hi
    rw [← Function.iterate_succ_apply]
    exact h (i + 1) (by omega)

theorem advanceBy_halts (hstep : step outlet s = .ok () t) (hhalted : t.machine.halted = true)
    (fuel : Nat) :
    advanceBy outlet observe (fuel + 1) s =
      .ok true { t with world := observe t.machine t.world } := by
  simp only [advanceBy, hstep, hhalted, if_true]

theorem advanceBy_fails {e : Trap} (hstep : step outlet s = .error e t) (fuel : Nat) :
    advanceBy outlet observe (fuel + 1) s = .error e t := by
  simp only [advanceBy, hstep]

/-! ## 3. Notes -/

variable (note : Session ω → κ → κ)

theorem program_of_after_step (s : Session ω) :
    (after outlet s .step).machine.program = s.machine.program := by
  have hid : Follows id outlet outlet := fun _ _ => rfl
  have hback : step outlet s = transferred s.machine.program id (step outlet s) :=
    step_transfer hid rfl (.refl _ _)
  rw [after, Call.perform, hback]
  cases step outlet s <;> rfl

-- notes that nobody writes to are a map of worlds
theorem step_beside (notes : κ) :
    step (outlet.beside κ) (s.beside notes) =
      transferred s.machine.program (·, notes) (step outlet s) := by
  have hfollows : Follows (fun world => (world, notes)) outlet (outlet.beside κ) := fun _ _ => rfl
  exact step_transfer hfollows rfl (.refl _ _)

theorem step_beside_of_ok (h : step outlet s = .ok () t) (notes : κ) :
    step (outlet.beside κ) (s.beside notes) = .ok () (t.beside notes) := by
  have hprogram := program_of_after_step outlet s
  rw [after_step_of_ok outlet h] at hprogram
  rw [step_beside, h, ← hprogram]
  rfl

theorem step_beside_of_error {e : Trap} (h : step outlet s = .error e t) (notes : κ) :
    step (outlet.beside κ) (s.beside notes) = .error e (t.beside notes) := by
  have hprogram := program_of_after_step outlet s
  rw [after_step_of_error outlet h] at hprogram
  rw [step_beside, h, ← hprogram]
  rfl

theorem turn_beside (s : Session ω) (notes : κ) :
    turn (outlet.beside κ) (noting note) (s.beside notes) =
      (after outlet s .step).beside (note (after outlet s .step) notes) := by
  cases hs : step outlet s with
  | ok a t =>
    rw [turn, after_step_of_ok _ (step_beside_of_ok outlet hs notes), after_step_of_ok outlet hs]
    rfl
  | error e t =>
    rw [turn, after_step_of_error _ (step_beside_of_error outlet hs notes),
      after_step_of_error outlet hs]
    rfl

theorem iterate_turn_beside (s : Session ω) (notes : κ) (n : Nat) :
    (turn (outlet.beside κ) (noting note))^[n] (s.beside notes) =
      (stepped outlet s n).beside (noted outlet s note notes n) := by
  induction n with
  | zero => rfl
  | succ n ih =>
    rw [Function.iterate_succ_apply', ih, turn_beside, ← stepped_succ, noted_succ]

theorem GoesOn.beside (h : GoesOn outlet s) (notes : κ) :
    GoesOn (outlet.beside κ) (s.beside notes) := by
  obtain ⟨t, hstep, hhalted⟩ := h
  exact ⟨t.beside notes, step_beside_of_ok outlet hstep notes, hhalted⟩

/-- The loop of a traced run, behind the first `n` steps. -/
theorem advanceBy_beside (notes : κ) {n : Nat} (h : ∀ i < n, GoesOn outlet (stepped outlet s i))
    (fuel : Nat) :
    advanceBy (outlet.beside κ) (noting note) (n + fuel) (s.beside notes) =
      advanceBy (outlet.beside κ) (noting note) fuel
        ((stepped outlet s n).beside (noted outlet s note notes n)) := by
  rw [advanceBy_add, iterate_turn_beside outlet note]
  intro i hi
  rw [iterate_turn_beside outlet note]
  exact (h i hi).beside outlet _

/-! ## 4. Runs -/

theorem runObserved_of_going (hgo : s.machine.outcome = none) (fuel : Nat) :
    runObserved outlet observe fuel s = ranBy fuel (advanceBy outlet observe fuel s) := by
  rw [runObserved, hgo]
  rfl

theorem runObserved_halts (hgo : s.machine.outcome = none) (notes : κ) {n fuel : Nat}
    (hsteps : ∀ i < n, GoesOn outlet (stepped outlet s i)) (hfuel : n < fuel)
    (hhalts : HaltsAt outlet s (n + 1)) :
    runObserved (outlet.beside κ) (noting note) fuel (s.beside notes) =
      .ok () ((stepped outlet s (n + 1)).beside (noted outlet s note notes (n + 1))) := by
  obtain ⟨t, hstep, hhalted⟩ := hhalts
  change step outlet (stepped outlet s n) = .ok () t at hstep
  have hend := step_beside_of_ok outlet hstep (noted outlet s note notes n)
  have hafter : stepped outlet s (n + 1) = t :=
    (stepped_succ outlet s n).trans (after_step_of_ok outlet hstep)
  rw [runObserved_of_going _ (s := s.beside notes) hgo, show fuel = n + (fuel - n - 1 + 1) by omega,
    advanceBy_beside outlet note notes hsteps, advanceBy_halts _ hend hhalted, noted_succ, hafter]
  rfl

theorem runObserved_fails (hgo : s.machine.outcome = none) (notes : κ) {n fuel : Nat} {e : Trap}
    (hsteps : ∀ i < n, GoesOn outlet (stepped outlet s i)) (hfuel : n < fuel)
    (hfails : FailsAt outlet s (n + 1) e) :
    runObserved (outlet.beside κ) (noting note) fuel (s.beside notes) =
      .error e ((stepped outlet s (n + 1)).beside (noted outlet s note notes n)) := by
  obtain ⟨t, hstep⟩ := hfails
  change step outlet (stepped outlet s n) = .error e t at hstep
  have hend := step_beside_of_error outlet hstep (noted outlet s note notes n)
  have hafter : stepped outlet s (n + 1) = t :=
    (stepped_succ outlet s n).trans (after_step_of_error outlet hstep)
  rw [runObserved_of_going _ (s := s.beside notes) hgo, show fuel = n + (fuel - n - 1 + 1) by omega,
    advanceBy_beside outlet note notes hsteps, advanceBy_fails _ hend, hafter]
  rfl

theorem runObserved_exhausts (hgo : s.machine.outcome = none) (notes : κ) {fuel : Nat}
    (hsteps : ∀ i < fuel, GoesOn outlet (stepped outlet s i)) :
    runObserved (outlet.beside κ) (noting note) fuel (s.beside notes) =
      .error (.fault (.budgetExceeded fuel))
        (((stepped outlet s fuel).exhaust fuel).beside (noted outlet s note notes fuel)) := by
  have hloop := advanceBy_beside outlet note notes hsteps 0
  rw [Nat.add_zero] at hloop
  rw [runObserved_of_going _ (s := s.beside notes) hgo, hloop]
  rfl

/-- A run that nobody traces is a traced run without its notes. -/
theorem run_eq_withoutNotes (notes : κ) (fuel : Nat) :
    run outlet fuel s =
      withoutNotes (runObserved (outlet.beside κ) (noting note) fuel (s.beside notes)) := by
  have hfollows : Follows Prod.fst (outlet.beside κ) outlet := fun _ _ => rfl
  have hrun : run outlet fuel s = transferred s.machine.program Prod.fst
      (runObserved (outlet.beside κ) (noting note) fuel (s.beside notes)) :=
    runObserved_transfer hfollows rfl (fun _ _ _ => rfl) fuel (s := s.beside notes) rfl
      fun _ _ ip _ => .refl _ ip
  have hid : Follows id (outlet.beside κ) (outlet.beside κ) := fun _ _ => rfl
  have hkept : ∀ (m : Machine) (world : ω × κ), m.program = s.machine.program →
      noting note { m with program := s.machine.program } world = noting note m world := by
    intro m world hm
    rw [← hm]
  -- the run keeps its program, because it transfers to the program that is there
  have hback : runObserved (outlet.beside κ) (noting note) fuel (s.beside notes) =
      transferred s.machine.program id
      (runObserved (outlet.beside κ) (noting note) fuel (s.beside notes)) :=
    runObserved_transfer hid rfl hkept fuel (s := s.beside notes) rfl fun _ _ ip _ => .refl _ ip
  rw [hrun, hback]
  cases runObserved (outlet.beside κ) (noting note) fuel (s.beside notes) <;> rfl

/-! ## 5. The first step that ends a run -/

/-- `k` is the least number, from one on, of a step that halts or fails. -/
def FirstEnd (outlet : Outlet ω) (s : Session ω) (k : Nat) : Prop :=
  IsLeast {k | 1 ≤ k ∧ EndsAt outlet s k} k

theorem firstEnd_iff {n : Nat} :
    FirstEnd outlet s (n + 1) ↔
      (∀ i < n, GoesOn outlet (stepped outlet s i)) ∧ EndsAt outlet s (n + 1) := by
  constructor
  · intro h
    refine ⟨fun i hi => goesOn_of_not_endsAt outlet ?_ hi, h.1.2⟩
    intro k hone hk hends
    have hle := h.2 ⟨hone, hends⟩
    omega
  · rintro ⟨hsteps, hends⟩
    refine ⟨⟨by omega, hends⟩, ?_⟩
    rintro k ⟨hone, hearlier⟩
    -- a step before number `n + 1` goes on, and so it is no end
    by_contra hk
    apply not_endsAt_of_goesOn outlet (hsteps (k - 1) (by omega))
    rw [Nat.sub_add_cancel hone]
    exact hearlier

theorem exists_firstEnd {k : Nat} (hone : 1 ≤ k) (h : EndsAt outlet s k) :
    ∃ n < k, FirstEnd outlet s (n + 1) := by
  classical
  have hex : ∃ k, 1 ≤ k ∧ EndsAt outlet s k := ⟨k, hone, h⟩
  have hspec := Nat.find_spec hex
  have hle := Nat.find_min' hex ⟨hone, h⟩
  refine ⟨Nat.find hex - 1, by omega, ?_⟩
  rw [show Nat.find hex - 1 + 1 = Nat.find hex by omega]
  exact ⟨hspec, fun j hj => Nat.find_min' hex hj⟩

theorem stepped_of_over {r : Except Fault Unit} (hover : s.machine.outcome = some r) (n : Nat) :
    stepped outlet s n = s := by
  induction n with
  | zero => rfl
  | succ n ih => rw [stepped_succ, ih, after_of_over outlet hover rfl]

section

variable (hfits : s.machine.Fits) (hgo : s.machine.outcome = none)

include hfits hgo

theorem failed_of_failsAt {n : Nat} {e : Trap}
    (hsteps : ∀ i < n, GoesOn outlet (stepped outlet s i)) (h : FailsAt outlet s (n + 1) e) :
    ∃ cause, e = .fault cause ∧
      (stepped outlet s (n + 1)).machine =
        { (stepped outlet s n).machine with state := .failed cause } := by
  obtain ⟨t, hstep⟩ := h
  change step outlet (stepped outlet s n) = .error e t at hstep
  obtain ⟨cause, he, hmachine, -⟩ :=
    step_error_logged outlet (fits_stepped outlet hfits n) (outcome_stepped outlet hgo hsteps)
      hstep []
  refine ⟨cause, he, ?_⟩
  rw [stepped_succ, after_step_of_error outlet hstep]
  exact hmachine

/-- A step that fails is followed by failures only. -/
theorem not_haltsAt_of_failsAt {n k : Nat} {e : Trap}
    (hsteps : ∀ i < n, GoesOn outlet (stepped outlet s i)) (h : FailsAt outlet s (n + 1) e)
    (hk : n < k) : ¬ HaltsAt outlet s k := by
  rintro ⟨u, hhalts, -⟩
  obtain ⟨cause, -, hmachine⟩ := failed_of_failsAt outlet hfits hgo hsteps h
  obtain ⟨t, hfails⟩ := h
  by_cases heq : k = n + 1
  · rw [heq] at hhalts
    cases hhalts.symm.trans hfails
  · have hover : (stepped outlet s (n + 1)).machine.outcome = some (.error cause) := by
      rw [hmachine]
      rfl
    -- nothing happens behind the failure, so that step number `k` repeats it
    have hlast : stepped outlet s (k - 1) = stepped outlet s (n + 1) := by
      rw [show k - 1 = (k - 1 - (n + 1)) + (n + 1) by omega, stepped, Function.iterate_add_apply]
      exact stepped_of_over outlet hover _
    have hanswer := step_of_over outlet hover
    rw [← hlast] at hanswer
    change step outlet (stepped outlet s (k - 1)) = .ok () u at hhalts
    rw [hhalts] at hanswer
    cases congrArg Prod.fst hanswer

theorem exists_run_ok_iff (fuel : Nat) :
    (∃ t, run outlet fuel s = .ok () t) ↔ ∃ k, 1 ≤ k ∧ k ≤ fuel ∧ HaltsAt outlet s k := by
  rw [run_eq_withoutNotes outlet (fun _ notes => notes) ()]
  constructor
  · rintro ⟨t, hrun⟩
    by_contra hnone
    by_cases hends : ∃ k, 1 ≤ k ∧ k ≤ fuel ∧ EndsAt outlet s k
    · obtain ⟨k, hone, hk, hend⟩ := hends
      obtain ⟨n, hn, hfirst⟩ := exists_firstEnd outlet hone hend
      obtain ⟨hsteps, hhalts | ⟨e, hfails⟩⟩ := (firstEnd_iff outlet).1 hfirst
      · exact hnone ⟨n + 1, by omega, by omega, hhalts⟩
      · rw [runObserved_fails outlet _ hgo () hsteps (by omega) hfails] at hrun
        cases hrun
    · have hsteps : ∀ i < fuel, GoesOn outlet (stepped outlet s i) := fun i hi =>
        goesOn_of_not_endsAt outlet (fun k hone hk hend => hends ⟨k, hone, hk, hend⟩) hi
      rw [runObserved_exhausts outlet _ hgo () hsteps] at hrun
      cases hrun
  · rintro ⟨k, hone, hk, hhalts⟩
    obtain ⟨n, hn, hfirst⟩ := exists_firstEnd outlet hone (.inl hhalts)
    obtain ⟨hsteps, hfirstHalts | ⟨e, hfails⟩⟩ := (firstEnd_iff outlet).1 hfirst
    · rw [runObserved_halts outlet _ hgo () hsteps (by omega) hfirstHalts]
      exact ⟨_, rfl⟩
    · exact absurd hhalts (not_haltsAt_of_failsAt outlet hfits hgo hsteps hfails hn)

end

/-- A run is bounded iteration of the step, for every machine that can go on, every budget, every
outlet and every callback with notes of its own. Let `k` be the number of the first step that halts
or fails. If it halts within the budget, the run answers well, leaves what `k` steps leave, and the
callback was shown the sessions after steps `1, …, k`. If it fails within the budget, the run fails
with the same fault, the callback was shown the sessions after steps `1, …, k - 1`, and the machine
is the one after `k - 1` steps but for the recorded fault. If there is no such step within the
budget, the run reports its budget, the callback was shown the sessions after all its steps, and the
machine is the one after these but for the recorded budget. A run without a callback answers and
leaves the same, so that it answers well exactly if the machine halts within the budget. -/
theorem runObserved_iterates_step (s : Session ω) (hfits : s.machine.Fits)
    (hready : s.machine.state.isTerminal = false) (fuel : Nat) (notes : κ) :
    let traced := runObserved (outlet.beside κ) (noting note) fuel (s.beside notes)
    let shown := noted outlet s note notes
    (∀ k, FirstEnd outlet s k → k ≤ fuel →
      (HaltsAt outlet s k → traced = .ok () ((stepped outlet s k).beside (shown k))) ∧
        ∀ e, FailsAt outlet s k e →
          traced = .error e ((stepped outlet s k).beside (shown (k - 1))) ∧
            ∃ cause, e = .fault cause ∧
              (stepped outlet s k).machine =
                { (stepped outlet s (k - 1)).machine with state := .failed cause }) ∧
      ((∀ k, 1 ≤ k → k ≤ fuel → ¬ EndsAt outlet s k) →
        traced = .error (.fault (.budgetExceeded fuel))
          (((stepped outlet s fuel).exhaust fuel).beside (shown fuel))) ∧
      run outlet fuel s = withoutNotes traced ∧
      ((∃ t, run outlet fuel s = .ok () t) ↔ ∃ k, 1 ≤ k ∧ k ≤ fuel ∧ HaltsAt outlet s k) := by
  intro traced shown
  have hgo := Machine.outcome_eq_none_iff.2 hready
  refine ⟨?_, ?_, run_eq_withoutNotes outlet note notes fuel,
    exists_run_ok_iff outlet hfits hgo fuel⟩
  · intro k hfirst hk
    obtain ⟨n, rfl⟩ : ∃ n, k = n + 1 := ⟨k - 1, by have hone := hfirst.1.1; omega⟩
    obtain ⟨hsteps, -⟩ := (firstEnd_iff outlet).1 hfirst
    refine ⟨fun hhalts => runObserved_halts outlet note hgo notes hsteps (by omega) hhalts,
      fun e hfails => ?_⟩
    exact ⟨runObserved_fails outlet note hgo notes hsteps (by omega) hfails,
      failed_of_failsAt outlet hfits hgo hsteps hfails⟩
  · intro hnone
    exact runObserved_exhausts outlet note hgo notes fun i hi =>
      goesOn_of_not_endsAt outlet hnone hi

theorem eq_ok_of_answered {r : EStateM.Result Trap (Session ω) Unit} (h : (answered r).1 = .ok ()) :
    r = .ok () (answered r).2 := by
  cases r with
  | ok a s => rfl
  | error e s => cases h

/-- The budget is just large enough: the third step halts, and the callback has seen the instruction
pointer after each of the three. -/
theorem runObserved_iterates_step_last_step :
    let s : Session (List Word) :=
      boot ⟨#[.of .push 7, .bare .printDebug, .bare .halt], by decide⟩ []
    let outlet : Outlet (List Word) := ⟨fun w printed => (.ok (), printed ++ [w])⟩
    let note : Session (List Word) → List Word → List Word := fun t ips => ips ++ [t.machine.ip]
    s.machine.Fits ∧ s.machine.state.isTerminal = false ∧ FirstEnd outlet s 3 ∧ HaltsAt outlet s 3 ∧
      runObserved (outlet.beside _) (noting note) 3 (s.beside []) =
        .ok () ((stepped outlet s 3).beside [1, 2, 2]) ∧
      (stepped outlet s 3).world = [7] := by
  intro s outlet note
  have hfits : s.machine.Fits := Machine.fits_boot _
  have hfirst : GoesOn outlet (stepped outlet s 0) :=
    ⟨_, eq_ok_of_answered (by decide +kernel), by decide +kernel⟩
  have hsecond : GoesOn outlet (stepped outlet s 1) :=
    ⟨_, eq_ok_of_answered (by decide +kernel), by decide +kernel⟩
  have hhalts : HaltsAt outlet s 3 := ⟨_, eq_ok_of_answered (by decide +kernel), by decide +kernel⟩
  have hend : FirstEnd outlet s 3 := by
    refine (firstEnd_iff outlet).2 ⟨fun i hi => ?_, .inl hhalts⟩
    obtain rfl | rfl : i = 0 ∨ i = 1 := by omega
    · exact hfirst
    · exact hsecond
  obtain ⟨hleast, -⟩ := runObserved_iterates_step outlet note s hfits rfl 3 ([] : List Word)
  have htraced := (hleast 3 hend (by decide)).1 hhalts
  have hnoted : noted outlet s note [] 3 = [1, 2, 2] := by decide +kernel
  rw [hnoted] at htraced
  exact ⟨hfits, rfl, hend, hhalts, htraced, by decide +kernel⟩

end Session
end StackMachine
