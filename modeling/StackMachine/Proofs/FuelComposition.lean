import StackMachine.Proofs.BoundedRuns

/-!
A run can be cut anywhere. Steps taken one by one and a run behind them end as one run with the fuel
of both, so that more fuel changes nothing once a run has ended by itself.
-/

namespace StackMachine.Session

variable {ω : Type}

/-- The run was cut short by its budget. -/
def RanOut (r : EStateM.Result Trap (Session ω) Unit) : Prop :=
  ∃ limit t, r = .error (.fault (.budgetExceeded limit)) t

/-- A run with fuel `f + g` and a run with fuel `g` end alike: neither is cut short, and they answer
and leave the same, or both are, each of them reports and records its own fuel, and all else is the
same. -/
inductive EndAlike (f g : Nat) :
    EStateM.Result Trap (Session ω) Unit → EStateM.Result Trap (Session ω) Unit → Prop
  | over (r : EStateM.Result Trap (Session ω) Unit) (ended : ¬ RanOut r) : EndAlike f g r r
  | cut (t : Session ω) :
      EndAlike f g (.error (.fault (.budgetExceeded (f + g))) (t.exhaust (f + g)))
        (.error (.fault (.budgetExceeded g)) (t.exhaust g))

/-- The sessions after steps `1, …, n`. -/
def visited (outlet : Outlet ω) (s : Session ω) (n : Nat) : List (Session ω) :=
  (List.range n).map fun i => stepped outlet s (i + 1)

/-- The trace of a run: the sessions that its callback is shown, in order. -/
def shown (outlet : Outlet ω) (fuel : Nat) (s : Session ω) : List (Session ω) :=
  (leftBy (runObserved (outlet.beside _) (noting fun t seen => seen ++ [t]) fuel
    (s.beside []))).world.2

variable {s : Session ω} (outlet : Outlet ω)

/-! ## 1. Steps behind steps -/

theorem stepped_add (f n : Nat) :
    stepped outlet s (f + n) = stepped outlet (stepped outlet s f) n := by
  rw [Nat.add_comm]
  exact Function.iterate_add_apply _ n f s

theorem nthStep_add (f n : Nat) :
    nthStep outlet s (f + n + 1) = nthStep outlet (stepped outlet s f) (n + 1) :=
  congrArg (step outlet) (stepped_add outlet f n)

theorem haltsAt_add {f n : Nat} (h : HaltsAt outlet (stepped outlet s f) (n + 1)) :
    HaltsAt outlet s (f + n + 1) := by
  rw [HaltsAt, nthStep_add]
  exact h

theorem failsAt_add {f n : Nat} {e : Trap} (h : FailsAt outlet (stepped outlet s f) (n + 1) e) :
    FailsAt outlet s (f + n + 1) e := by
  rw [FailsAt, nthStep_add]
  exact h

theorem visited_add (f n : Nat) :
    visited outlet s (f + n) = visited outlet s f ++ visited outlet (stepped outlet s f) n := by
  have hlater (i : Nat) :
      stepped outlet s (f + i + 1) = stepped outlet (stepped outlet s f) (i + 1) :=
    stepped_add outlet f (i + 1)
  rw [visited, List.range_add, List.map_append, List.map_map]
  exact congrArg (visited outlet s f ++ ·) (List.map_congr_left fun i _ => hlater i)

theorem goesOn_add {f n : Nat} (hfirst : ∀ i < f, GoesOn outlet (stepped outlet s i))
    (hlater : ∀ i < n, GoesOn outlet (stepped outlet (stepped outlet s f) i)) :
    ∀ i < f + n, GoesOn outlet (stepped outlet s i) := by
  intro i hi
  by_cases hle : i < f
  · exact hfirst i hle
  · have hthere := hlater (i - f) (by omega)
    rw [← stepped_add, show f + (i - f) = i by omega] at hthere
    exact hthere

theorem noted_eq_visited (n : Nat) :
    noted outlet s (fun t seen => seen ++ [t]) [] n = visited outlet s n := by
  induction n with
  | zero => rfl
  | succ n ih =>
    rw [noted_succ, ih, visited, visited, List.range_succ, List.map_append]
    rfl

/-! ## 2. The end of a run, whatever its fuel -/

/-- A run meets a step that ends it, or all its steps go on. -/
theorem run_cases (s : Session ω) (fuel : Nat) :
    (∃ n < fuel, (∀ i < n, GoesOn outlet (stepped outlet s i)) ∧ EndsAt outlet s (n + 1)) ∨
      ∀ i < fuel, GoesOn outlet (stepped outlet s i) := by
  by_cases hends : ∃ k, 1 ≤ k ∧ k ≤ fuel ∧ EndsAt outlet s k
  · obtain ⟨k, hone, hk, hend⟩ := hends
    obtain ⟨n, hn, hfirst⟩ := exists_firstEnd outlet hone hend
    exact .inl ⟨n, by omega, (firstEnd_iff outlet).1 hfirst⟩
  · exact .inr fun i hi => goesOn_of_not_endsAt outlet
      (fun k hone hk hend => hends ⟨k, hone, hk, hend⟩) hi

section

variable (hgo : s.machine.outcome = none) {n fuel : Nat}
  (hsteps : ∀ i < n, GoesOn outlet (stepped outlet s i))

include hgo hsteps

-- turns that nobody observes are steps
theorem run_add_eq_ranBy (fuel : Nat) :
    run outlet (n + fuel) s =
      ranBy (n + fuel) (advanceBy outlet (fun _ world => world) fuel (stepped outlet s n)) := by
  have hloop : advanceBy outlet (fun _ world => world) (n + fuel) s =
      advanceBy outlet (fun _ world => world) fuel (stepped outlet s n) :=
    advanceBy_add outlet n fuel hsteps
  rw [run, runObserved_of_going outlet hgo, hloop]

/-- A run that meets its end answers and leaves what the step does that ends it. -/
theorem run_of_endsAt (hfuel : n < fuel) (hend : EndsAt outlet s (n + 1)) :
    run outlet fuel s = nthStep outlet s (n + 1) := by
  rw [show fuel = n + (fuel - n - 1 + 1) by omega, run_add_eq_ranBy outlet hgo hsteps]
  show _ = step outlet (stepped outlet s n)
  obtain ⟨t, hstep, hhalted⟩ | ⟨e, t, hstep⟩ := hend
  · change step outlet (stepped outlet s n) = .ok () t at hstep
    rw [advanceBy_halts outlet hstep hhalted, hstep]
    rfl
  · change step outlet (stepped outlet s n) = .error e t at hstep
    rw [advanceBy_fails outlet hstep, hstep]
    rfl

theorem run_of_goesOn :
    run outlet n s = .error (.fault (.budgetExceeded n)) ((stepped outlet s n).exhaust n) := by
  have hrun := run_add_eq_ranBy outlet hgo hsteps 0
  rw [Nat.add_zero] at hrun
  exact hrun

theorem shown_of_haltsAt (hfuel : n < fuel) (h : HaltsAt outlet s (n + 1)) :
    shown outlet fuel s = visited outlet s (n + 1) := by
  rw [shown, runObserved_halts outlet _ hgo [] hsteps hfuel h]
  exact noted_eq_visited outlet (n + 1)

theorem shown_of_failsAt (hfuel : n < fuel) {e : Trap} (h : FailsAt outlet s (n + 1) e) :
    shown outlet fuel s = visited outlet s n := by
  rw [shown, runObserved_fails outlet _ hgo [] hsteps hfuel h]
  exact noted_eq_visited outlet n

theorem shown_of_goesOn : shown outlet n s = visited outlet s n := by
  rw [shown, runObserved_exhausts outlet _ hgo [] hsteps]
  exact noted_eq_visited outlet n

end

/-! ## 3. Steps are not cut short -/

theorem isEngineFault_of_step (hfits : s.machine.Fits) (hgo : s.machine.outcome = none) {e : Trap}
    {t : Session ω} (h : step outlet s = .error e t) :
    ∃ cause, e = .fault cause ∧ cause.isEngineFault = true := by
  rw [step_of_going outlet hgo] at h
  have hcarries := exec_carries outlet hfits.holds
  generalize exec outlet s = result at hcarries h
  generalize heffect : Table.effect s.machine.program s.machine.config = effect at hcarries
  cases hcarries with
  | fails cause =>
    cases h
    exact ⟨cause, rfl, Table.isEngineFault_of_effect heffect⟩
  | moves c stack holds => cases h
  | accepted w c stack world holds emitted => cases h
  | rejected w c reason world emitted =>
    cases h
    exact ⟨.debugOutput reason, rfl, rfl⟩

theorem not_ranOut_nthStep (hfits : s.machine.Fits) (hgo : s.machine.outcome = none) {n : Nat}
    (hsteps : ∀ i < n, GoesOn outlet (stepped outlet s i)) :
    ¬ RanOut (nthStep outlet s (n + 1)) := by
  rintro ⟨limit, t, hstep⟩
  obtain ⟨cause, hcause, hengine⟩ :=
    isEngineFault_of_step outlet (fits_stepped outlet hfits n)
      (outcome_stepped outlet hgo hsteps) hstep
  cases hcause
  cases hengine

theorem ranOut_of_answered {r : EStateM.Result Trap (Session ω) Unit} {limit : Nat}
    (h : (answered r).1 = .error (.fault (.budgetExceeded limit))) : RanOut r := by
  cases r with
  | ok a t => cases h
  | error e t =>
    cases h
    exact ⟨limit, t, rfl⟩

/-! ## 4. Fuel adds up -/

section

variable (hgo : s.machine.outcome = none) {f : Nat}
  (hfirst : ∀ i < f, GoesOn outlet (stepped outlet s i)) (g : Nat)

include hgo hfirst

theorem endAlike_add (hfits : s.machine.Fits) :
    EndAlike f g (run outlet (f + g) s) (run outlet g (stepped outlet s f)) := by
  have hthere := outcome_stepped outlet hgo hfirst
  obtain ⟨n, hn, hsteps, hend⟩ | hsteps := run_cases outlet (stepped outlet s f) g
  · -- the step that ends the second run is met by the first one, `f` steps later
    have hlate : EndsAt outlet s (f + n + 1) :=
      hend.imp (haltsAt_add outlet) fun ⟨e, h⟩ => ⟨e, failsAt_add outlet h⟩
    have hall := goesOn_add outlet hfirst hsteps
    rw [run_of_endsAt outlet hgo hall (by omega) hlate, run_of_endsAt outlet hthere hsteps hn hend,
      nthStep_add]
    exact .over _ (not_ranOut_nthStep outlet (fits_stepped outlet hfits f) hthere hsteps)
  · rw [run_of_goesOn outlet hgo (goesOn_add outlet hfirst hsteps),
      run_of_goesOn outlet hthere hsteps, stepped_add]
    exact .cut _

theorem shown_add :
    shown outlet (f + g) s = visited outlet s f ++ shown outlet g (stepped outlet s f) := by
  have hthere := outcome_stepped outlet hgo hfirst
  obtain ⟨n, hn, hsteps, hhalts | ⟨e, hfails⟩⟩ | hsteps := run_cases outlet (stepped outlet s f) g
  · rw [shown_of_haltsAt outlet hthere hsteps hn hhalts, ← visited_add]
    exact shown_of_haltsAt outlet hgo (n := f + n) (goesOn_add outlet hfirst hsteps) (by omega)
      (haltsAt_add outlet hhalts)
  · rw [shown_of_failsAt outlet hthere hsteps hn hfails, ← visited_add]
    exact shown_of_failsAt outlet hgo (goesOn_add outlet hfirst hsteps) (by omega)
      (failsAt_add outlet hfails)
  · rw [shown_of_goesOn outlet hthere hsteps, ← visited_add]
    exact shown_of_goesOn outlet hgo (goesOn_add outlet hfirst hsteps)

end

/-- More fuel changes nothing for a run that was not cut short. -/
theorem run_eq_of_le (hgo : s.machine.outcome = none) {f f' : Nat} (hle : f ≤ f')
    (hended : ¬ RanOut (run outlet f s)) :
    run outlet f' s = run outlet f s ∧ shown outlet f' s = shown outlet f s := by
  obtain ⟨n, hn, hsteps, hend⟩ | hsteps := run_cases outlet s f
  · refine ⟨?_, ?_⟩
    · rw [run_of_endsAt outlet hgo hsteps (by omega) hend, run_of_endsAt outlet hgo hsteps hn hend]
    · obtain hhalts | ⟨e, hfails⟩ := hend
      · rw [shown_of_haltsAt outlet hgo hsteps (by omega) hhalts,
          shown_of_haltsAt outlet hgo hsteps hn hhalts]
      · rw [shown_of_failsAt outlet hgo hsteps (by omega) hfails,
          shown_of_failsAt outlet hgo hsteps hn hfails]
  · exact absurd ⟨f, _, run_of_goesOn outlet hgo hsteps⟩ hended

/-- Fuel adds up, for every machine that can go on and every outlet. If `f` steps in a row succeed
without halting, then a run with fuel `f + g` and a run with fuel `g` behind these steps answer and
leave the same, the outlet's world included, but that a run that is cut short tells its own fuel;
and what the first run shows to its callback is what the `f` steps visit, and then what the second
run shows. So a run that was not cut short stays as it is with any larger fuel. -/
theorem run_composes (s : Session ω) (hfits : s.machine.Fits)
    (hready : s.machine.state.isTerminal = false) :
    (∀ f g, (∀ i < f, GoesOn outlet (stepped outlet s i)) →
      EndAlike f g (run outlet (f + g) s) (run outlet g (stepped outlet s f)) ∧
        shown outlet (f + g) s = visited outlet s f ++ shown outlet g (stepped outlet s f)) ∧
      ∀ f, ¬ RanOut (run outlet f s) → ∀ f', f ≤ f' →
        run outlet f' s = run outlet f s ∧ shown outlet f' s = shown outlet f s := by
  have hgo := Machine.outcome_eq_none_iff.2 hready
  refine ⟨?_, ?_⟩
  · intro f g hfirst
    exact ⟨endAlike_add outlet hgo hfirst g hfits, shown_add outlet hgo hfirst g⟩
  · intro f hended f' hle
    exact run_eq_of_le outlet hgo hle hended

/-- Two steps go on and the third one halts: behind the two, fuel for one more step is enough, and
no fuel is too little. -/
theorem run_composes_up_to_halt :
    let s : Session (List Word) :=
      boot ⟨#[.of .push 7, .bare .printDebug, .bare .halt], by decide⟩ []
    let outlet : Outlet (List Word) := ⟨fun w printed => (.ok (), printed ++ [w])⟩
    s.machine.Fits ∧ s.machine.state.isTerminal = false ∧
      (∀ i < 2, GoesOn outlet (stepped outlet s i)) ∧
      EndAlike 2 1 (run outlet 3 s) (run outlet 1 (stepped outlet s 2)) ∧
      EndAlike 2 0 (run outlet 2 s) (run outlet 0 (stepped outlet s 2)) ∧
      shown outlet 3 s = visited outlet s 2 ++ shown outlet 1 (stepped outlet s 2) ∧
      ¬ RanOut (run outlet 3 s) ∧ run outlet 69 s = run outlet 3 s := by
  intro s outlet
  have hfits : s.machine.Fits := Machine.fits_boot _
  have hsteps : ∀ i < 2, GoesOn outlet (stepped outlet s i) := by
    intro i hi
    obtain rfl | rfl : i = 0 ∨ i = 1 := by omega
    · exact ⟨_, eq_ok_of_answered (by decide +kernel), by decide +kernel⟩
    · exact ⟨_, eq_ok_of_answered (by decide +kernel), by decide +kernel⟩
  have hended : ¬ RanOut (run outlet 3 s) := by
    rintro ⟨limit, t, hrun⟩
    have hok : run outlet 3 s = .ok () _ := eq_ok_of_answered (by decide +kernel)
    cases hok.symm.trans hrun
  obtain ⟨hadd, hmore⟩ := run_composes outlet s hfits rfl
  obtain ⟨hhalts, hshown⟩ := hadd 2 1 hsteps
  obtain ⟨hcut, -⟩ := hadd 2 0 hsteps
  exact ⟨hfits, rfl, hsteps, hhalts, hcut, hshown, hended, (hmore 3 hended 69 (by decide)).1⟩

end StackMachine.Session
