import StackMachine.Proofs.DebugOutput
import StackMachine.Proofs.RunnerOptions

/-!
What the runner prints when a trace is asked for.

Three writers share standard output: the step, when it prints a value, the observer, which dumps the
stack after every step that succeeded, and the runner, which dumps it once more when the run has
ended. All three are seen in one run, whose world holds the values and the lines. The runner's
console is told of that world, and so is a list that only gathers the values.
-/

namespace StackMachine

variable {ω : Type}

/-- No value is refused. -/
def Outlet.Accepts (outlet : Outlet ω) : Prop := ∀ w world, (outlet.emit w world).1 = .ok ()

theorem Machine.dumpLines_congr {m m' : Machine} (h : m.stack = m'.stack) :
    m.dumpLines = m'.dumpLines := by
  rw [dumpLines, dumpLines, h]

namespace Session

/-! ## 1. Steps that succeed -/

/-- How many steps succeed in a run of at most `fuel` steps. The step that halts is one of them. -/
def successes (outlet : Outlet ω) : Nat → Session ω → Nat
  | 0, _ => 0
  | fuel + 1, s =>
    match step outlet s with
    | .error _ _ => 0
    | .ok () t => if t.machine.halted then 1 else successes outlet fuel t + 1

/-- What step number `i + 1` adds to a trace: the value that it prints, if it prints one, and the
stack that it leaves. -/
def traced (outlet : Outlet ω) (s : Session ω) (i : Nat) : List String :=
  (stepped outlet s i).machine.printing?.toList.map Word.text ++
    (stepped outlet s (i + 1)).machine.dumpLines

variable {outlet : Outlet ω} {s t : Session ω}

theorem successes_of_error {e : Trap} (h : step outlet s = .error e t) (fuel : Nat) :
    successes outlet (fuel + 1) s = 0 := by
  rw [successes, h]

theorem successes_of_halt (h : step outlet s = .ok () t) (hhalted : t.machine.halted = true)
    (fuel : Nat) :
    successes outlet (fuel + 1) s = 1 := by
  simp only [successes, h, hhalted, if_true]

theorem successes_of_ok (h : step outlet s = .ok () t) (hhalted : t.machine.halted = false)
    (fuel : Nat) :
    successes outlet (fuel + 1) s = successes outlet fuel t + 1 := by
  simp only [successes, h, hhalted, Bool.false_eq_true, if_false]

theorem stepped_of_ok (h : step outlet s = .ok () t) (n : Nat) :
    stepped outlet s (n + 1) = stepped outlet t n := by
  rw [stepped, Function.iterate_succ_apply, after_step_of_ok outlet h]
  rfl

theorem flatMap_traced_of_ok (h : step outlet s = .ok () t) (n : Nat) :
    (List.range (n + 1)).flatMap (traced outlet s) =
      s.machine.printing?.toList.map Word.text ++ t.machine.dumpLines ++
        (List.range n).flatMap (traced outlet t) := by
  have hlater (i : Nat) : traced outlet s (i + 1) = traced outlet t i := by
    rw [traced, traced, stepped_of_ok h, stepped_of_ok h]
  have hfirst :
      traced outlet s 0 = s.machine.printing?.toList.map Word.text ++ t.machine.dumpLines := by
    rw [traced, stepped_of_ok h]
    rfl
  rw [List.range_succ_eq_map, List.flatMap_cons, List.flatMap_map, hfirst]
  exact congrArg _ (List.flatMap_congr fun i _ => hlater i)

/-- The steps that are counted are the first ones of a machine that goes on, and they succeed. -/
theorem step_of_lt_successes (hgo : s.machine.outcome = none) (fuel : Nat) {i : Nat}
    (hi : i < successes outlet fuel s) :
    (stepped outlet s i).machine.outcome = none ∧
      step outlet (stepped outlet s i) = .ok () (stepped outlet s (i + 1)) := by
  induction fuel generalizing s i with
  | zero => exact absurd hi (Nat.not_lt_zero i)
  | succ fuel ih =>
    cases hstep : step outlet s with
    | error e t =>
      rw [successes_of_error hstep] at hi
      exact absurd hi (Nat.not_lt_zero i)
    | ok a t =>
      cases i with
      | zero =>
        rw [stepped_of_ok hstep]
        exact ⟨hgo, hstep⟩
      | succ i =>
        cases hhalted : t.machine.halted with
        | true =>
          rw [successes_of_halt hstep hhalted] at hi
          omega
        | false =>
          rw [successes_of_ok hstep hhalted] at hi
          rw [stepped_of_ok hstep, stepped_of_ok hstep]
          exact ih (outcome_of_step outlet hgo hstep hhalted) (by omega)

/-- A step succeeds, and the world is offered what it prints; or it fails, and only the state of the
run changes. -/
theorem step_of_accepts (haccepts : outlet.Accepts) (hfits : s.machine.Fits)
    (hgo : s.machine.outcome = none) :
    (∃ t, step outlet s = .ok () t ∧
        t.world = s.machine.printing?.elim s.world fun w => (outlet.emit w s.world).2) ∨
      ∃ cause, step outlet s = .error (.fault cause) (s.setState (.failed cause)) := by
  have hcarries := exec_carries outlet hfits.holds
  rw [step_of_going outlet hgo]
  generalize exec outlet s = result at hcarries ⊢
  generalize heffect : Table.effect s.machine.program s.machine.config = effect at hcarries
  cases hcarries with
  | fails cause => exact .inr ⟨cause, rfl⟩
  | moves c stack holds =>
    have hsilent : s.machine.printing? = none :=
      Machine.printing?_eq_none heffect fun w next h => by cases h
    exact .inl ⟨_, rfl, by rw [hsilent]; rfl⟩
  | accepted w c stack world holds emitted =>
    refine .inl ⟨_, rfl, ?_⟩
    rw [Machine.printing?_of_effect heffect, Option.elim_some, emitted]
    rfl
  | rejected w c reason world emitted =>
    have hanswer := haccepts w s.world
    rw [emitted] at hanswer
    cases hanswer

theorem world_of_step (haccepts : outlet.Accepts) (hfits : s.machine.Fits)
    (hgo : s.machine.outcome = none) (h : step outlet s = .ok () t) :
    t.world = s.machine.printing?.elim s.world fun w => (outlet.emit w s.world).2 := by
  obtain ⟨u, hstep, hworld⟩ | ⟨cause, hstep⟩ := step_of_accepts haccepts hfits hgo
  · cases hstep.symm.trans h
    exact hworld
  · cases hstep.symm.trans h

end Session

namespace Tool

open Session

theorem values_of_step {s t : Session (List Word)} (hfits : s.machine.Fits)
    (hgo : s.machine.outcome = none) (h : step gathering s = .ok () t) :
    t.world = s.world ++ s.machine.printing?.toList := by
  rw [world_of_step (fun _ _ => rfl) hfits hgo h]
  cases s.machine.printing? with
  | none => exact (List.append_nil _).symm
  | some w => rfl

/-! ## 2. The world of a traced run -/

/-- The values that were printed, the lines of standard output, and the number of steps. -/
structure Trace where
  values : List Word
  lines : List String
  steps : Nat

namespace Trace

def outlet : Outlet Trace where
  emit w t := (.ok (), { t with values := t.values ++ [w], lines := t.lines ++ [w.text] })

def observe (m : Machine) (t : Trace) : Trace :=
  { t with lines := t.lines ++ m.dumpLines, steps := t.steps + 1 }

/-- What the runner makes of a trace. -/
def progress (c : Console) (t : Trace) : Runner.Progress :=
  ⟨{ c with output := c.output ++ written t.lines }, t.steps⟩

/-- The session, with nothing but the values in its world. -/
def gathered (s : Session Trace) : Session (List Word) := ⟨s.machine, s.world.values⟩

theorem accepts_outlet : outlet.Accepts := fun _ _ => rfl

theorem follows_values : Follows values outlet gathering := fun _ _ => rfl

variable {c : Console}

theorem follows_progress (h : c.writable = true) : Follows (progress c) outlet Runner.outlet := by
  intro w t
  simp [progress, outlet, Runner.outlet, Console.debugOutlet, Console.printLine, h, written_append,
    written, String.append_assoc]

theorem observe_progress (hwritable : c.writable = true) (hthreshold : c.journal.threshold = .info)
    (m : Machine) (t : Trace) :
    Runner.observe true m (progress c t) = progress c (observe m t) := by
  have hjournal (message : String) : c.journal.log .debug message = c.journal := by
    simp [Journal.log, Journal.isEnabled, hthreshold, Level.severity]
  simp only [Runner.observe, progress, observe, Console.log, hjournal, if_true]
  rw [dump_of_writable (by exact hwritable), written_append, String.append_assoc]

variable {s t : Session Trace}

theorem step_gathered_of_ok (h : step outlet s = .ok () t) :
    step gathering (gathered s) = .ok () (gathered t) := by
  have hprogram : t.machine.program = s.machine.program := by
    have hkept := program_of_after_step outlet s
    rwa [after_step_of_ok outlet h] at hkept
  have hstep : step gathering (gathered s) = transferred s.machine.program values (step outlet s) :=
    step_transfer follows_values rfl (.refl _ _)
  rw [hstep, h, ← hprogram]
  rfl

theorem step_gathered_of_error {e : Trap} (h : step outlet s = .error e t) :
    ∃ u, step gathering (gathered s) = .error e u := by
  have hstep : step gathering (gathered s) = transferred s.machine.program values (step outlet s) :=
    step_transfer follows_values rfl (.refl _ _)
  rw [h] at hstep
  exact ⟨_, hstep⟩

/-- A step that succeeds adds the line of the value that it prints, if it prints one. -/
theorem lines_of_step (hfits : s.machine.Fits) (hgo : s.machine.outcome = none)
    (h : step outlet s = .ok () t) :
    t.world.lines = s.world.lines ++ s.machine.printing?.toList.map Word.text := by
  rw [world_of_step accepts_outlet hfits hgo h]
  cases s.machine.printing? with
  | none => exact (List.append_nil _).symm
  | some w => rfl

/-! ## 3. The loop -/

/-- A loop that started with `s` has left `last`: every step that succeeded has added its part to
the lines, and the stack is the one that the last of them left. -/
def Extends (fuel : Nat) (s last : Session Trace) : Prop :=
  let n := successes gathering fuel (gathered s)
  last.world.lines = s.world.lines ++ (List.range n).flatMap (traced gathering (gathered s)) ∧
    last.machine.stack = (stepped gathering (gathered s) n).machine.stack

theorem extends_of_successes_eq_zero {fuel : Nat} {last : Session Trace}
    (h : successes gathering fuel (gathered s) = 0) (hlines : last.world.lines = s.world.lines)
    (hstack : last.machine.stack = s.machine.stack) :
    Extends fuel s last := by
  rw [Extends, h]
  exact ⟨hlines.trans (List.append_nil _).symm, hstack⟩

theorem extends_advanceBy (fuel : Nat) (hfits : s.machine.Fits) (hgo : s.machine.outcome = none) :
    Extends fuel s (leftBy (advanceBy outlet observe fuel s)) := by
  -- the claim for the rest of the loop is about the session behind the observer, whose gathered
  -- session is the same
  induction fuel generalizing s with
  | zero => exact extends_of_successes_eq_zero rfl rfl rfl
  | succ fuel ih =>
    obtain ⟨t, hstep, -⟩ | ⟨cause, hstep⟩ := step_of_accepts accepts_outlet hfits hgo
    · have hgathered := step_gathered_of_ok hstep
      have hlines := lines_of_step hfits hgo hstep
      have hseen : (observe t.machine t.world).lines =
          s.world.lines ++ (s.machine.printing?.toList.map Word.text ++ t.machine.dumpLines) := by
        rw [observe, hlines, List.append_assoc]
      cases hhalted : t.machine.halted with
      | true =>
        rw [Extends, advanceBy_halts outlet hstep hhalted, successes_of_halt hgathered hhalted,
          flatMap_traced_of_ok hgathered, stepped_of_ok hgathered]
        exact ⟨hseen.trans (congrArg _ (List.append_nil _).symm), rfl⟩
      | false =>
        have hfits' : t.machine.Fits := by
          have hkept := (fits_step outlet hfits).1
          rwa [hstep] at hkept
        have hgo' : t.machine.outcome = none := outcome_of_step outlet hgo hstep hhalted
        obtain ⟨hrest, hstack⟩ :=
          ih (s := { t with world := observe t.machine t.world }) hfits' hgo'
        rw [Extends, advanceBy_of_step hstep hhalted, successes_of_ok hgathered hhalted,
          flatMap_traced_of_ok hgathered, stepped_of_ok hgathered]
        refine ⟨?_, hstack⟩
        rw [hrest, hseen, List.append_assoc]
        rfl
    · obtain ⟨u, hgathered⟩ := step_gathered_of_error hstep
      rw [advanceBy_fails outlet hstep]
      exact extends_of_successes_eq_zero (successes_of_error hgathered fuel) rfl rfl

theorem extends_runObserved (fuel : Nat) (hfits : s.machine.Fits) (hgo : s.machine.outcome = none) :
    Extends fuel s (leftBy (runObserved outlet observe fuel s)) := by
  have hloop := extends_advanceBy fuel hfits hgo
  rw [runObserved_of_going outlet hgo]
  cases hadvance : advanceBy outlet observe fuel s with
  | error e t =>
    rw [hadvance] at hloop
    exact hloop
  | ok a t =>
    rw [hadvance] at hloop
    -- a run whose budget is used up ends with another state, and the same stack
    cases a <;> exact hloop

end Trace

/-! ## 4. Dumps -/

/-- The first line of every dump. -/
def dumpHeading : String := "Stack:"

theorem text_ne_dumpHeading (w : Word) : w.text ≠ dumpHeading := by
  intro h
  have hread := Decimal.signed?_ofInt w.toInt
  rw [show Decimal.ofInt w.toInt = dumpHeading from h] at hread
  cases hread

theorem count_texts (values : List Word) : (values.map Word.text).count dumpHeading = 0 := by
  rw [List.count_eq_zero]
  intro hmem
  obtain ⟨w, -, hw⟩ := List.mem_map.1 hmem
  exact text_ne_dumpHeading w hw

theorem count_dumpLines (m : Machine) : m.dumpLines.count dumpHeading = 1 := by
  have hvalue (w : Word) : s!"  {w.text}" ≠ dumpHeading := by
    intro h
    have hchars := congrArg String.toList h
    rw [String.toList_append, show (toString "  ").toList = [' ', ' '] from rfl] at hchars
    cases hchars
  unfold Machine.dumpLines
  split
  · rfl
  · show List.count dumpHeading (dumpHeading :: List.map _ _) = 1
    rw [List.count_cons_self, List.count_eq_zero.2]
    intro hmem
    obtain ⟨w, -, hw⟩ := List.mem_map.1 hmem
    exact hvalue w hw

theorem count_traced (outlet : Outlet ω) (s : Session ω) (n : Nat) :
    ((List.range n).flatMap (traced outlet s)).count dumpHeading = n := by
  induction n with
  | zero => rfl
  | succ n ih =>
    rw [List.range_succ, List.flatMap_append, List.count_append, ih, List.flatMap_singleton, traced,
      List.count_append, count_texts, count_dumpLines]

/-! ## 5. The runner -/

namespace Runner

/-- The traced run, with everything in its world that the runner makes use of. -/
def traceRun (fuel : Nat) (p : Program) : EStateM.Result Trap (Session Trace) Unit :=
  runObserved Trace.outlet Trace.observe fuel (boot p ⟨[], [], 0⟩)

variable {c : Console}

theorem output_execute (hwritable : c.writable = true) (hthreshold : c.journal.threshold = .info)
    (fuel : Nat) (p : Program) :
    (execute true fuel p c).2.output =
      c.output ++ written ((leftBy (traceRun fuel p)).world.lines ++
        (leftBy (traceRun fuel p)).machine.dumpLines) := by
  have hends :=
    runEnds Trace.outlet Trace.observe fuel (s := boot p ⟨[], [], 0⟩) (Machine.coherent_boot p) rfl
  have hstart : Trace.progress c ⟨[], [], 0⟩ = ⟨c, 0⟩ := by simp [Trace.progress, written]
  have hrun : runObserved outlet (observe true) fuel (boot p ⟨c, 0⟩) =
      transferred p (Trace.progress c) (traceRun fuel p) := by
    rw [← hstart]
    exact runObserved_boot (Trace.follows_progress hwritable)
      (Trace.observe_progress hwritable hthreshold) fuel p _
  -- both ends of a run dump the stack behind the lines that are there
  have hdumped (s : Session Trace) :
      c.output ++ written s.world.lines ++ written s.machine.dumpLines =
      c.output ++ written (s.world.lines ++ s.machine.dumpLines) := by
    rw [written_append, String.append_assoc]
  change RunEnds fuel (traceRun fuel p) at hends
  unfold execute
  rw [hrun]
  cases htrace : traceRun fuel p with
  | ok a s =>
    dsimp only [transferred, transfer]
    rw [dump_of_writable (by exact hwritable)]
    exact hdumped s
  | error e s =>
    rw [htrace] at hends
    cases e with
    | breach cause => exact hends.elim
    | fault cause =>
      dsimp only [transferred, transfer]
      rw [if_pos rfl, dump_of_writable (by exact hwritable)]
      exact hdumped s

theorem stack_run_gathering (fuel : Nat) (p : Program) :
    (answered (Session.run gathering fuel (boot p []))).2.machine.stack =
      (leftBy (traceRun fuel p)).machine.stack := by
  have hobserve (m : Machine) (t : Trace) : t.values = (Trace.observe m t).values := rfl
  have hrun :
      Session.run gathering fuel (boot p []) = transferred p Trace.values (traceRun fuel p) :=
    runObserved_boot Trace.follows_values hobserve fuel p ⟨[], [], 0⟩
  rw [hrun]
  cases traceRun fuel p <;> rfl

theorem run_of_trace {path text : String} {limit : Nat} {image : Bytes} {p : Program}
    {read : String → Except Files.FileError Bytes} (hpath : ¬ AsksHelp path)
    (hread : read path = .ok image) (hload : Program.ofImage image = .ok p)
    (htext : Decimal.IsCount text limit) (program : String) (env : Environment) :
    run program [path, "-l", text, "-t"] env read (.new true env) =
      execute true limit p ((Console.new true env).log .info (loadedText path p limit)) := by
  have hoptions : Options.default.read ["-l", text, "-t"] = .ok ⟨some limit, true, .info⟩ :=
    read_chosen [.limit false text limit htext, .trace false]
  unfold AsksHelp at hpath
  simp only [run, if_neg hpath, hoptions, budget, Files.programOf, hread, hload]
  rfl

/-- A trace is the values and the stacks of the run, step by step. Take an image that loads, a
limit, and a standard output that accepts lines. Of the steps of a new machine with that limit, `n`
succeed. Then the runner, told to trace, prints for each of them the value that it printed, if it
did, and the stack behind it, and in the end the stack once more, whether the run halted, failed or
ran out of its budget. These are `n + 1` dumps, and the last shows the stack that the last of the
`n` steps left. -/
theorem run_prints_trace {path text : String} {limit : Nat} {image : Bytes} {p : Program}
    {read : String → Except Files.FileError Bytes} (hpath : ¬ AsksHelp path)
    (hread : read path = .ok image) (hload : Program.ofImage image = .ok p)
    (htext : Decimal.IsCount text limit) (program : String) (env : Environment) :
    let start := boot p []
    let n := successes gathering limit start
    let final := (answered (Session.run gathering limit start)).2.machine
    let lines := (List.range n).flatMap (traced gathering start) ++ final.dumpLines
    (∀ i < n, step gathering (stepped gathering start i) =
        .ok () (stepped gathering start (i + 1)) ∧
      (stepped gathering start (i + 1)).world =
        (stepped gathering start i).world ++ (stepped gathering start i).machine.printing?.toList) ∧
      (run program [path, "-l", text, "-t"] env read (.new true env)).2.output = written lines ∧
      lines.count dumpHeading = n + 1 ∧
      final.dumpLines = (stepped gathering start n).machine.dumpLines := by
  intro start n final lines
  have hgo : start.machine.outcome = none := rfl
  obtain ⟨hlines, hstack⟩ :=
    Trace.extends_runObserved limit (s := boot p ⟨[], [], 0⟩) (Machine.fits_boot p) rfl
  have hfinal : final.dumpLines = (leftBy (traceRun limit p)).machine.dumpLines :=
    Machine.dumpLines_congr (stack_run_gathering limit p)
  refine ⟨?_, ?_, ?_, ?_⟩
  · intro i hi
    obtain ⟨hgoing, hstep⟩ := step_of_lt_successes hgo limit hi
    exact ⟨hstep, values_of_step (fits_stepped gathering (Machine.fits_boot p) i) hgoing hstep⟩
  · rw [run_of_trace hpath hread hload htext, output_execute rfl rfl, ← hfinal]
    show "" ++ written ((leftBy (runObserved Trace.outlet Trace.observe limit
        (boot p ⟨[], [], 0⟩))).world.lines ++ _) = _
    rw [hlines, String.empty_append]
    rfl
  · rw [List.count_append, count_traced, count_dumpLines]
  · exact hfinal.trans (Machine.dumpLines_congr hstack)

/-- A value is printed, and then the stack is too small: of three steps that succeed and a fourth
that fails, four dumps. -/
theorem run_prints_trace_of_fault :
    let program : Program :=
      ⟨#[.of .push 7, .of .push (-5), .bare .printDebug, .bare .plus], by decide⟩
    let read : String → Except Files.FileError Bytes := fun _ => .ok program.image
    ¬ AsksHelp "p.bm" ∧ read "p.bm" = .ok program.image ∧
      Program.ofImage program.image = .ok program ∧
      Decimal.IsCount "+09" 9 ∧ successes gathering 9 (boot program []) = 3 ∧
      (run "runner" ["p.bm", "-l", "+09", "-t"] ⟨[]⟩ read (.new true ⟨[]⟩)).2.output =
        "Stack:\n  7\nStack:\n  7\n  -5\n-5\nStack:\n  7\nStack:\n  7\n" := by
  intro program read
  have htext : Decimal.IsCount "+09" 9 := Decimal.count?_eq_some_iff.1 (by decide +kernel)
  have hpath : ¬ AsksHelp "p.bm" := by decide
  have hread : read "p.bm" = .ok program.image := rfl
  have hload : Program.ofImage program.image = .ok program := Program.ofImage_image program
  obtain ⟨-, houtput, -, -⟩ := run_prints_trace hpath hread hload htext "runner" ⟨[]⟩
  refine ⟨hpath, hread, hload, htext, by decide +kernel, houtput.trans ?_⟩
  decide +kernel

end Runner
end Tool
end StackMachine
