import StackMachine.Proofs.FileTree
import StackMachine.Proofs.ImageFormat
import StackMachine.Proofs.RunInvariant
import StackMachine.Proofs.SourceMeaning
import StackMachine.Proofs.Transfer
import StackMachine.Tool.Runner

/-!
From a source to what its program prints: the assembler writes the image, and the runner executes
what it reads back.

The runner prints while the machine runs, and counts steps on the way. Its run is the run of a
machine whose values are collected in a list, told of another world.
-/

namespace StackMachine

/-! ## 1. Texts and limits -/

namespace Text

theorem toList_loop (bytes : ByteArray) (i : Nat) (read : List UInt8) :
    ByteArray.toList.loop bytes i read = read.reverse ++ bytes.data.toList.drop i := by
  fun_induction ByteArray.toList.loop bytes i read with
  | case1 i read hlt ih =>
    have hi : i < bytes.data.toList.length := by simpa using hlt
    rw [ih, List.drop_eq_getElem_cons hi]
    simp [ByteArray.get!, hlt]
  | case2 i read hge =>
    rw [List.drop_eq_nil_of_le (by simpa using hge)]
    simp

theorem toByteArray_encode (text : String) : (encode text).toByteArray = text.toByteArray := by
  have hbytes : encode text = text.toByteArray.data.toList := toList_loop text.toByteArray 0 []
  apply ByteArray.ext
  rw [List.data_toByteArray, hbytes, Array.toArray_toList]

theorem decode?_encode (text : String) : decode? (encode text) = some text := by
  rw [decode?, toByteArray_encode, String.fromUTF8?, dif_pos text.isValidUTF8]
  rfl

end Text

namespace Decimal

theorem count?_ofNat {n : Nat} (h : n ≤ maxCount) : count? (ofNat n) = some n := by
  have hread : unsigned? (Nat.toDigits 10 n) = some n := by
    have hdigits := digits?_toDigits n
    cases hchars : Nat.toDigits 10 n with
    | nil => exact absurd hchars Nat.toDigits_ne_nil
    | cons c cs =>
      have hc : c ≠ '+' :=
        (ne_sign_of_mem_toDigits (n := n) (by rw [hchars]; exact List.mem_cons_self)).1
      rw [hchars] at hdigits
      simp [unsigned?, hc, hdigits]
  rw [count?, ofNat, String.toList_ofList, hread, Option.filter_some, if_pos (decide_eq_true h)]

end Decimal

namespace Tool

/-! ## 2. Standard output -/

/-- Lines of text, each with a line feed behind it. -/
def written : List String → String
  | [] => ""
  | line :: rest => line ++ "\n" ++ written rest

theorem written_append (before after : List String) :
    written (before ++ after) = written before ++ written after := by
  induction before with
  | nil => simp [written]
  | cons line before ih => simp [written, ih, String.append_assoc]

variable {c : Console}

theorem printLines_of_writable (h : c.writable = true) (lines : List String) :
    c.printLines lines = (.ok (), { c with output := c.output ++ written lines }) := by
  induction lines generalizing c with
  | nil => simp [Console.printLines, written]
  | cons line lines ih =>
    rw [Console.printLines, Console.printLine, if_pos h]
    dsimp only
    rw [ih (c := { c with output := c.output ++ line ++ "\n" }) h, written]
    simp [String.append_assoc]

/-! ## 3. The run of the runner -/

/-- Accepts every value and keeps them in order. -/
def gathering : Outlet (List Word) := ⟨fun w values => (.ok (), values ++ [w])⟩

/-- Values and steps, for a run that is seen from both sides. -/
def counting : Outlet (List Word × Nat) := ⟨fun w world => (.ok (), world.1 ++ [w], world.2)⟩

def tick (_ : Machine) (world : List Word × Nat) : List Word × Nat := (world.1, world.2 + 1)

/-- What the runner makes of values and steps. -/
def progress (c : Console) (world : List Word × Nat) : Runner.Progress :=
  ⟨{ c with output := c.output ++ written (world.1.map Word.text) }, world.2⟩

open Session

theorem follows_progress (h : c.writable = true) : Follows (progress c) counting Runner.outlet := by
  intro w world
  simp [progress, counting, Runner.outlet, Console.debugOutlet, Console.printLine, h,
    written_append, written, String.append_assoc]

theorem observe_progress (h : c.journal.threshold = .info) (m : Machine) (world : List Word × Nat) :
    Runner.observe false m (progress c world) = progress c (tick m world) := by
  -- the message about a step is below the threshold
  simp [Runner.observe, progress, tick, Console.log, Journal.log, Journal.isEnabled, h,
    Level.severity]

theorem runner_run (hwritable : c.writable = true) (hthreshold : c.journal.threshold = .info)
    (p : Program) (fuel : Nat) :
    runObserved Runner.outlet (Runner.observe false) fuel (boot p ⟨c, 0⟩) =
      transferred p (progress c) (runObserved counting tick fuel (boot p ([], 0))) := by
  have hstart : progress c ([], 0) = ⟨c, 0⟩ := by simp [progress, written]
  rw [← hstart]
  exact runObserved_boot (follows_progress hwritable) (observe_progress hthreshold) fuel p ([], 0)

theorem gathering_run (p : Program) (fuel : Nat) :
    run gathering fuel (boot p []) =
      transferred p Prod.fst (runObserved counting tick fuel (boot p ([], 0))) := by
  have hfollows : Follows Prod.fst counting gathering := fun _ _ => rfl
  exact runObserved_boot hfollows (fun _ _ => rfl) fuel p ([], 0)

/-- The journal `last` goes on from `journal` with one message, and so does what is written of it,
whatever the clock shows at each message. -/
def EndsWith (journal last : Journal) (level : Level) (text : String) : Prop :=
  ∀ clock, last.text clock =
    journal.text clock ++ (journal.entry level text).written (clock journal.messages.size)

/-- What the runner answers when a run has ended: its exit status, and a console that goes on from
an empty standard output and the given journal. There is no answer to a breach. -/
inductive Tells (journal : Journal) :
    EStateM.Result Trap (Session (List Word)) Unit → Nat × Console → Prop
  | halted (s : Session (List Word)) (c : Console) (steps : Nat)
      (state_eq : s.machine.state = .halted)
      (output_eq : c.output = written (s.world.map Word.text ++ s.machine.dumpLines))
      (journal_ends :
        EndsWith journal c.journal .info s!"Halted after {Decimal.ofNat steps} steps") :
      Tells journal (.ok () s) (0, c)
  | failed (cause : Fault) (s : Session (List Word)) (c : Console)
      (state_ne : s.machine.state ≠ .halted)
      (output_eq : c.output = written (s.world.map Word.text))
      (journal_ends :
        EndsWith journal c.journal .error s!"{cause.code}: {cause.message}") :
      Tells journal (.error (.fault cause) s) (1, c)

theorem endsWith_log {j : Journal} {level : Level} (h : j.isEnabled level = true) (text : String) :
    EndsWith j (j.log level text) level text := by
  intro clock
  rw [Journal.log, if_pos h, Journal.text, Journal.text, Journal.stamped, Array.toList_push,
    List.mapIdx_concat, String.join_append, Array.length_toList, String.join_cons,
    String.join_nil, String.append_empty]
  rfl

theorem dump_of_writable (h : c.writable = true) (level : Level) (m : Machine) :
    Runner.dump level m c = (true, { c with output := c.output ++ written m.dumpLines }) := by
  rw [Runner.dump, printLines_of_writable h]

theorem execute_tells (hwritable : c.writable = true) (hthreshold : c.journal.threshold = .info)
    (houtput : c.output = "") (p : Program) (fuel : Nat) :
    Tells c.journal (run gathering fuel (boot p [])) (Runner.execute false fuel p c) := by
  have hends := runEnds counting tick fuel (s := boot p ([], 0)) (Machine.coherent_boot p) rfl
  have hshown (level : Level) (hlevel : 1 ≤ level.severity) : c.journal.isEnabled level = true := by
    rw [Journal.isEnabled, hthreshold]
    exact decide_eq_true hlevel
  unfold Runner.execute
  rw [gathering_run, runner_run hwritable hthreshold]
  -- both runs are told from one, and only the end of that one matters
  cases hrun : runObserved counting tick fuel (boot p ([], 0)) with
  | ok a s =>
    rw [hrun] at hends
    dsimp only [transferred, transfer]
    rw [dump_of_writable (by exact hwritable)]
    refine .halted _ _ s.world.2 hends.2 ?_ (endsWith_log (hshown .info (by decide)) _)
    show c.output ++ written (s.world.1.map Word.text) ++ written s.machine.dumpLines = _
    rw [houtput, String.empty_append, written_append]
    rfl
  | error e s =>
    rw [hrun] at hends
    cases e with
    | breach cause => exact hends.elim
    | fault cause =>
      have hstate : s.machine.state ≠ .halted := by
        obtain ⟨-, hstate | ⟨-, hstate, -⟩⟩ := hends <;> rw [hstate] <;> intro h <;> cases h
      refine .failed cause _ _ hstate ?_ (endsWith_log (hshown .error (by decide)) _)
      show c.output ++ written (s.world.1.map Word.text) = _
      rw [houtput, String.empty_append]
      rfl

/-! ## 4. One tool after the other -/

variable {t : Files.Tree} {p : Program} {input output : String}

def AsksHelp (argument : String) : Prop := argument = "--help" ∨ argument = "-h"

instance (argument : String) : Decidable (AsksHelp argument) := inferInstanceAs (Decidable (_ ∨ _))

theorem assembler_run {source : String} (hhelp : ¬ AsksHelp input)
    (hread : t.read input = .ok (Text.encode source)) (hassemble : Assembly.assemble source = .ok p)
    (hadmits : t.Admits output) {next : Files.Tree} (hwrite : t.write output p.image = .ok next)
    (name : String) (c : Console) :
    ∃ c', Assembler.run name [input, "-o", output] t c = (0, next, c') := by
  have htext : Files.asText (t.read input) = .ok source := by
    rw [hread]
    simp only [Files.asText, Text.decode?_encode]
  have hcompile : Assembler.compile name [input, "-o", output] t.read t.contains c =
      (.ok ⟨input, output, p⟩, c) := by
    have hoptions : Assembler.readOptions none ["-o", output] = .ok (some output) := rfl
    unfold AsksHelp at hhelp
    simp only [Assembler.compile, if_neg hhelp, hoptions, Assembler.compileFile, htext,
      Option.getD_some, Assembler.missingDirectory?_eq_none hadmits, hassemble]
  unfold Assembler.run
  rw [hcompile]
  simp only [hwrite, Assembler.report]
  exact ⟨_, rfl⟩

theorem runner_options (limit : UInt64) :
    Runner.Options.default.read ["-l", Decimal.ofNat limit.toNat] =
      .ok ⟨some limit.toNat, false, .info⟩ := by
  have hlimit : limit.toNat ≤ Decimal.maxCount := Nat.le_of_lt_succ limit.toNat_lt
  simp only [Runner.Options.read, Decimal.count?_ofNat hlimit]
  rfl

/-- What the runner logs when it has loaded a program. -/
def loadedText (path : String) (p : Program) (limit : Nat) : String :=
  s!"Loaded {path} ({Decimal.ofNat p.size} instructions), step budget {Decimal.ofNat limit}"

theorem runner_loads (hhelp : ¬ AsksHelp output) {read : String → Except Files.FileError Bytes}
    (hread : read output = .ok p.image) (limit : UInt64) (name : String) (env : Environment) :
    Runner.run name [output, "-l", Decimal.ofNat limit.toNat] env read (.new true env) =
      Runner.execute false limit.toNat p
        ((Console.new true env).log .info (loadedText output p limit.toNat)) := by
  unfold AsksHelp at hhelp
  simp only [Runner.run, if_neg hhelp, runner_options, Runner.budget, Files.programOf, hread,
    Program.ofImage_image]
  rfl

/-- A source that assembles is run by the two tools as its program runs on a new machine. The source
is in the file `input`, and what is written to `output` is kept and may be read again. Then the
assembler exits with zero and has written the image of the program to `output`, and nothing else.
The runner, with a step budget on its command line, exits with zero exactly if the run halts, and
has printed the values of the run one a line, and then the stack if it halted. If it did not halt,
the journal ends with the code of the fault, a colon and its message. -/
theorem tools_run_source {source : String} (hassemble : Assembly.assemble source = .ok p)
    (hinput : ¬ AsksHelp input) (houtput : ¬ AsksHelp output)
    (hread : t.read input = .ok (Text.encode source)) (hkeeps : t.Keeps output) (limit : UInt64)
    (assembler runner : String) (c : Console) (env : Environment) :
    ∃ next c', Assembler.run assembler [input, "-o", output] t c = (0, next, c') ∧
      t.write output p.image = .ok next ∧ next.read output = .ok p.image ∧
      Tells ((Journal.new env.wantsColour).log .info (loadedText output p limit.toNat))
        (run gathering limit.toNat (boot p []))
        (Runner.run runner [output, "-l", Decimal.ofNat limit.toNat] env next.read
          (.new true env)) := by
  obtain ⟨next, hwrite, hwritten⟩ := hkeeps.write p.image
  obtain ⟨c', hrun⟩ := assembler_run hinput hread hassemble hkeeps.admits hwrite assembler c
  refine ⟨next, c', hrun, hwrite, hwritten, ?_⟩
  rw [runner_loads houtput hwritten]
  exact execute_tells (c := (Console.new true env).log .info _) rfl rfl rfl p limit.toNat

/-- A program that prints one value and leaves another, written into a directory that the path
enters twice, the second time through a link. -/
theorem tools_run_source_through_directory :
    let source := "PUSH 7\nPRINT_DEBUG\nPUSH -5\nHALT"
    let program : Program :=
      ⟨#[.of .push 7, .bare .printDebug, .of .push (-5), .bare .halt], by decide⟩
    let t : Files.Tree :=
      { nodes := [⟨[⟨["w"]⟩], .directory, .empty⟩, ⟨[⟨["w", "out"]⟩], .directory, .empty⟩,
          ⟨[⟨["w", "p.basm"]⟩], .file (Text.encode source), .empty⟩,
          ⟨[⟨["w", "again"]⟩], .link "../w/out/", .empty⟩]
        here := ⟨["w"]⟩ }
    let c := Console.new true ⟨[]⟩
    Assembly.assemble source = .ok program ∧ t.read "p.basm" = .ok (Text.encode source) ∧
      t.Keeps "out/../again/p.bm" ∧
      ∃ next c', Assembler.run "assembler" ["p.basm", "-o", "out/../again/p.bm"] t c =
          (0, next, c') ∧
        next.read "out/../again/p.bm" = .ok program.image ∧
        (Runner.run "runner" ["out/../again/p.bm", "-l", "4"] ⟨[]⟩ next.read c).1 = 0 ∧
        (Runner.run "runner" ["out/../again/p.bm", "-l", "4"] ⟨[]⟩ next.read c).2.output =
          "7\nStack:\n  -5\n" := by
  intro source program t c
  have hassemble : Assembly.assemble source = .ok program := by
    have hlines : Grammar.lines source =
        [⟨none, ["PUSH", "7"]⟩, ⟨none, ["PRINT_DEBUG"]⟩, ⟨none, ["PUSH", "-5"]⟩,
          ⟨none, ["HALT"]⟩] := by
      decide +kernel
    refine Grammar.assemble_of_lines hlines (by decide) (by decide) (by decide) ?_
    refine .cons ?_ (.cons ?_ (.cons ?_ (.cons ?_ .nil)))
    · exact .number .push .immediate rfl "7" 7 (Grammar.read?_eq_some_iff.1 (by decide +kernel))
    · exact .bare .printDebug rfl
    · exact .number .push .immediate rfl "-5" (-5)
        (Grammar.read?_eq_some_iff.1 (by decide +kernel))
    · exact .bare .halt rfl
  have hread : t.read "p.basm" = .ok (Text.encode source) := by decide +kernel
  have hlocate : t.locate "out/../again/p.bm" = .ok ⟨["w", "out", "p.bm"]⟩ := by decide +kernel
  have hlook : t.look ⟨["w", "out", "p.bm"]⟩ = .error .notFound := by decide +kernel
  have hkeeps : t.Keeps "out/../again/p.bm" := by
    refine ⟨⟨_, hlocate, by decide +kernel, ?_⟩, ?_, ?_⟩
    · exact .nothing ⟨[⟨["w", "out"]⟩], .directory, .empty⟩ hlook (by decide +kernel) rfl rfl
    · rintro ⟨place, hplace, node, shows, hdevice, -⟩
      cases hlocate.symm.trans hplace
      cases hlook.symm.trans hdevice
    · intro place hplace
      cases hlocate.symm.trans hplace
      rw [Files.Tree.refusalsAt, hlook]
      rfl
  obtain ⟨next, c', hrun, -, hwritten, htells⟩ :=
    tools_run_source hassemble (by decide) (by decide) hread hkeeps 4 "assembler" "runner" c ⟨[]⟩
  -- the run halts with one value printed and one on the stack
  have hanswer : (answered (run gathering 4 (boot program []))).1 = .ok () := by decide +kernel
  have hvalues : (answered (run gathering 4 (boot program []))).2.world = [7] := by decide +kernel
  have hdump :
      (answered (run gathering 4 (boot program []))).2.machine.dumpLines = ["Stack:", "  -5"] := by
    decide +kernel
  have hlimit : Decimal.ofNat (4 : UInt64).toNat = "4" := by decide +kernel
  have hfuel : (4 : UInt64).toNat = 4 := rfl
  rw [hlimit, hfuel] at htells
  refine ⟨hassemble, hread, hkeeps, next, c', hrun, hwritten, ?_⟩
  generalize Runner.run "runner" ["out/../again/p.bm", "-l", "4"] ⟨[]⟩ next.read c = answer
    at htells ⊢
  generalize run gathering 4 (boot program []) = result at hanswer hvalues hdump htells
  cases htells with
  | failed cause s c' => cases hanswer
  | halted s c' steps hstate houtput =>
    refine ⟨rfl, houtput.trans ?_⟩
    change s.world = [7] at hvalues
    change s.machine.dumpLines = ["Stack:", "  -5"] at hdump
    rw [hvalues, hdump]
    decide +kernel

end Tool
end StackMachine
