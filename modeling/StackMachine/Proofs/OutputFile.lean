import StackMachine.Proofs.Pipeline

/-!
The assembler writes one file or none. Every check stands in front of the only write, and a write
changes one file of the tree, so that a path that leads elsewhere finds what it found before.

A file is not a path: links make several paths lead to one file, and then all of them find the new
contents. A device takes the image and keeps nothing of it.
-/

namespace StackMachine

/-! ## 1. What a write leaves alone -/

namespace Files.Tree

variable {t next : Tree} {path other : String} {contents : Bytes}

/-- Both paths lead to one file, or to one place where there is none yet. -/
def SameFile (t : Tree) (path other : String) : Prop :=
  ∃ place place', t.locate path = .ok place ∧ t.locate other = .ok place' ∧
    t.SameNode place place'

/-- A path that leads elsewhere finds what it found before. Only the reason why it finds nothing may
be another one. -/
theorem find_write (h : t.write path contents = .ok next) (hother : ¬ t.SameFile other path) :
    (next.find other).toOption = (t.find other).toOption := by
  obtain ⟨place, hlocate, -, htakes, rfl⟩ := write_eq_ok_iff.1 h
  cases hfound : t.locate other with
  | ok found =>
    have hlook : (t.put place contents).look found = t.look found := by
      apply look_put_of_not_sameNode htakes
      intro hsame
      exact hother ⟨found, place, hfound, hlocate, hsame⟩
    simp only [find, hfound, (locate_put htakes contents other).2 hfound, hlook]
  | error e =>
    cases hfound' : (t.put place contents).locate other with
    | ok found => cases hfound.symm.trans ((locate_put htakes contents other).1 hfound')
    | error e' =>
      simp only [find, hfound, hfound']
      rfl

theorem eq_of_write_device (h : t.write path contents = .ok next) (hdevice : t.IsDevice path) :
    next = t := by
  obtain ⟨place, hlocate, -, -, rfl⟩ := write_eq_ok_iff.1 h
  obtain ⟨found, hfound, node, shows, hlook, hkind⟩ := hdevice
  cases hlocate.symm.trans hfound
  exact put_of_device hlook hkind contents

end Files.Tree

/-! ## 2. Source texts -/

theorem Text.encode_of_decode? {bytes : Bytes} {text : String} (h : decode? bytes = some text) :
    encode text = bytes := by
  unfold decode? String.fromUTF8? at h
  split at h
  · cases h
    show ByteArray.toList.loop bytes.toByteArray 0 [] = bytes
    rw [toList_loop]
    simp
  · cases h

theorem Files.asText_eq_ok_iff {contents : Except FileError Bytes} {text : String} :
    asText contents = .ok text ↔ contents = .ok (Text.encode text) := by
  unfold asText
  cases contents with
  | error e => simp
  | ok bytes =>
    dsimp only
    constructor
    · intro h
      cases hdecode : Text.decode? bytes with
      | none =>
        rw [hdecode] at h
        cases h
      | some found =>
        rw [hdecode] at h
        cases h
        rw [Text.encode_of_decode? hdecode]
    · intro h
      cases h
      rw [Text.decode?_encode]

/-! ## 3. Command lines -/

namespace Tool.Assembler

/-- The option that names an output path, under its long name or its short one. -/
structure OutputOption where
  long : Bool
  path : String

def OutputOption.arguments (o : OutputOption) : List String :=
  [if o.long then "--output" else "-o", o.path]

def commandLine (options : List OutputOption) : List String :=
  options.flatMap OutputOption.arguments

/-- The last path that the options name. Without one, the output is in the directory of the input,
under the name of the input with the extension of program images. -/
def outputPath (input : String) (options : List OutputOption) : String :=
  match options.getLast? with
  | some o => o.path
  | none =>
    let stem := ((Files.Path.fileName? input).map Files.Path.stem).getD ""
    Files.Path.join ((Files.Path.parent? input).getD ".") (stem ++ ".bm")

theorem readOptions_arguments (output : Option String) (o : OutputOption) (rest : List String) :
    readOptions output (o.arguments ++ rest) = readOptions (some o.path) rest := by
  obtain ⟨long, path⟩ := o
  cases long <;> simp [OutputOption.arguments, readOptions]

theorem readOptions_commandLine (output : Option String) (options : List OutputOption) :
    readOptions output (commandLine options) =
      .ok ((options.getLast?.map OutputOption.path).or output) := by
  induction options generalizing output with
  | nil => rfl
  | cons o options ih =>
    rw [commandLine, List.flatMap_cons, readOptions_arguments]
    show readOptions (some o.path) (commandLine options) = _
    rw [ih, List.getLast?_cons]
    cases options.getLast? <;> rfl

/-- Options are read exactly if each of them names a path. -/
theorem exists_commandLine {output chosen : Option String} {rest : List String}
    (h : readOptions output rest = .ok chosen) : ∃ options, rest = commandLine options := by
  fun_induction readOptions output rest with
  | case1 output => exact ⟨[], rfl⟩
  | case2 output flag hflag => cases h
  | case3 output flag hflag path rest ih =>
    obtain ⟨options, rfl⟩ := ih h
    obtain rfl | rfl := hflag
    · exact ⟨⟨true, path⟩ :: options, rfl⟩
    · exact ⟨⟨false, path⟩ :: options, rfl⟩
  | case4 output argument rest hargument => cases h

theorem getD_defaultOutput (input : String) (options : List OutputOption) :
    ((options.getLast?.map OutputOption.path).or none).getD (defaultOutput input) =
      outputPath input options := by
  unfold outputPath
  cases options.getLast? with
  | some o => rfl
  | none =>
    show Files.Path.join _ (_ ++ "." ++ "bm") = Files.Path.join _ (_ ++ ".bm")
    rw [String.append_assoc]
    rfl

/-! ## 4. Compilation and the write -/

/-- A run has a program to write, and it can write it. No help is asked for, every option names a
path, the input holds a source that assembles, and the output path takes a file. -/
inductive Compiles (t : Files.Tree) : List String → String → Program → Prop
  | intro (input : String) (options : List OutputOption) (source : String) (p : Program)
      (plain : ¬ AsksHelp input)
      (holds : t.read input = .ok (Text.encode source))
      (assembles : Assembly.assemble source = .ok p)
      (admits : t.Admits (outputPath input options)) :
      Compiles t (input :: commandLine options) (outputPath input options) p

variable (name : String) {arguments : List String} {t : Files.Tree} (c : Console) {output : String}
  {p : Program}

/-- The first argument asks for help. -/
def WantsHelp (arguments : List String) : Prop := ∃ a ∈ arguments.head?, AsksHelp a

theorem compile_of_wantsHelp (h : WantsHelp arguments) (t : Files.Tree) :
    ∃ c', compile name arguments t.read t.contains c = (.error 0, c') := by
  obtain ⟨input, hhead, hhelp⟩ := h
  obtain ⟨rest, rfl⟩ := List.head?_eq_some_iff.1 hhead
  unfold AsksHelp at hhelp
  exact ⟨_, by rw [compile, if_pos hhelp]⟩

/-- What comes in front of the write: an exit, with status zero only if help was asked for, or a
program and its path. -/
theorem compile_cases (arguments : List String) (t : Files.Tree) :
    (∃ status c', compile name arguments t.read t.contains c = (.error status, c') ∧
        (status ≠ 0 ∨ WantsHelp arguments)) ∨
      ∃ input options source p, arguments = input :: commandLine options ∧ ¬ AsksHelp input ∧
        t.read input = .ok (Text.encode source) ∧ Assembly.assemble source = .ok p ∧
        compile name arguments t.read t.contains c =
          (.ok ⟨input, outputPath input options, p⟩, c) := by
  cases arguments with
  | nil => exact .inl ⟨1, _, rfl, .inl (by decide)⟩
  | cons input rest =>
    by_cases hhelp : AsksHelp input
    · have hwants : WantsHelp (input :: rest) := ⟨input, Option.mem_some_self input, hhelp⟩
      obtain ⟨c', hcompile⟩ := compile_of_wantsHelp name c hwants t
      exact .inl ⟨0, c', hcompile, .inr hwants⟩
    · unfold AsksHelp at hhelp
      rw [compile, if_neg hhelp]
      cases hoptions : readOptions none rest with
      | error e => exact .inl ⟨1, _, rfl, .inl (by decide)⟩
      | ok chosen =>
        obtain ⟨options, rfl⟩ := exists_commandLine hoptions
        cases (readOptions_commandLine none options).symm.trans hoptions
        dsimp only [compileFile]
        cases htext : Files.asText (t.read input) with
        | error e => exact .inl ⟨1, _, rfl, .inl (by decide)⟩
        | ok source =>
          rw [getD_defaultOutput]
          dsimp only
          cases missingDirectory? t.contains (outputPath input options) with
          | some directory => exact .inl ⟨1, _, rfl, .inl (by decide)⟩
          | none =>
            dsimp only
            cases hassemble : Assembly.assemble source with
            | ok p =>
              exact .inr ⟨input, options, source, p, rfl, hhelp, Files.asText_eq_ok_iff.1 htext,
                hassemble, rfl⟩
            | error e =>
              cases e with
              | fault cause => exact .inl ⟨1, _, rfl, .inl (by decide)⟩
              | breach cause => exact .inl ⟨breachStatus, _, rfl, .inl (by decide)⟩

theorem compile_of_compiles (h : Compiles t arguments output p) :
    ∃ input, compile name arguments t.read t.contains c = (.ok ⟨input, output, p⟩, c) := by
  obtain ⟨input, options, source, p, hplain, hread, hassemble, hadmits⟩ := h
  unfold AsksHelp at hplain
  refine ⟨input, ?_⟩
  rw [compile, if_neg hplain, readOptions_commandLine]
  dsimp only [compileFile]
  rw [Files.asText_eq_ok_iff.2 hread, getD_defaultOutput]
  simp only [missingDirectory?_eq_none hadmits, hassemble]

theorem run_of_compiles (h : Compiles t arguments output p) :
    ∃ next c', run name arguments t c = (0, next, c') ∧ t.write output p.image = .ok next := by
  obtain ⟨input, hcompile⟩ := compile_of_compiles name c h
  have hadmits : t.Admits output := by
    cases h
    assumption
  obtain ⟨next, hwrite⟩ : ∃ next, t.write output p.image = .ok next :=
    Files.Tree.exists_write_iff.2 hadmits
  have hrun : run name arguments t c = (0, next, (report ⟨input, output, p⟩ (.ok ()) c).2) := by
    rw [run, hcompile]
    simp only [hwrite]
    rfl
  exact ⟨next, _, hrun, hwrite⟩

/-- A run that does not compile leaves the tree, and its status is zero only if help was asked
for. -/
theorem run_of_not_compiles (h : ¬ ∃ output p, Compiles t arguments output p) :
    ∃ status c', run name arguments t c = (status, t, c') ∧ (status ≠ 0 ∨ WantsHelp arguments) := by
  obtain ⟨status, c', hcompile, hstatus⟩ |
      ⟨input, options, source, p, rfl, hplain, hread, hassemble, hcompile⟩ :=
    compile_cases name c arguments t
  · exact ⟨status, c', by rw [run, hcompile], hstatus⟩
  · cases hwrite : t.write (outputPath input options) p.image with
    | ok next =>
      have hadmits := Files.Tree.exists_write_iff.1 ⟨next, hwrite⟩
      exact absurd ⟨_, p, .intro input options source p hplain hread hassemble hadmits⟩ h
    | error e =>
      have hrun : run name (input :: commandLine options) t c =
          (1, t, (report ⟨input, outputPath input options, p⟩ (.error e) c).2) := by
        rw [run, hcompile]
        simp only [hwrite]
        rfl
      exact ⟨1, _, hrun, .inl (by decide)⟩

theorem not_wantsHelp (h : Compiles t arguments output p) : ¬ WantsHelp arguments := by
  obtain ⟨input, options, source, p, hplain, -, -, -⟩ := h
  rintro ⟨a, ha, hhelp⟩
  cases ha
  exact hplain hhelp

theorem run_of_wantsHelp (h : WantsHelp arguments) (t : Files.Tree) :
    ∃ c', run name arguments t c = (0, t, c') := by
  obtain ⟨c', hcompile⟩ := compile_of_wantsHelp name c h t
  exact ⟨c', by rw [run, hcompile]⟩

theorem run_status_eq_zero_iff (arguments : List String) (t : Files.Tree) :
    (run name arguments t c).1 = 0 ↔
      WantsHelp arguments ∨ ∃ output p, Compiles t arguments output p := by
  constructor
  · intro hstatus
    by_contra hnone
    obtain ⟨hhelp, hcompiles⟩ := not_or.1 hnone
    obtain ⟨status, c', hrun, hne | hwants⟩ := run_of_not_compiles name c hcompiles
    · rw [hrun] at hstatus
      exact hne hstatus
    · exact hhelp hwants
  · intro hzero
    obtain hhelp | ⟨output, p, h⟩ := hzero
    · obtain ⟨c', hrun⟩ := run_of_wantsHelp name c hhelp t
      rw [hrun]
    · obtain ⟨next, c', hrun, -⟩ := run_of_compiles name c h
      rw [hrun]

theorem run_tree_eq (h : (run name arguments t c).1 ≠ 0 ∨ WantsHelp arguments) :
    (run name arguments t c).2.1 = t := by
  by_cases hcompiles : ∃ output p, Compiles t arguments output p
  · -- a run that compiles exits with zero and prints no help
    obtain ⟨output, p, hcompiles⟩ := hcompiles
    obtain hne | hwants := h
    · exact absurd ((run_status_eq_zero_iff name c arguments t).2 (.inr ⟨output, p, hcompiles⟩)) hne
    · exact absurd hwants (not_wantsHelp hcompiles)
  · obtain ⟨status, c', hrun, -⟩ := run_of_not_compiles name c hcompiles
    rw [hrun]

/-- The assembler writes all or nothing, for every tree of files and all arguments, also where there
are links and devices and where the system refuses to read or to write. It exits with zero exactly
if help is asked for or the run compiles. Where it exits with another status or prints help, the
tree is what it was. Where it compiles, every path that leads to another file than the output path
finds what it found before. A device at the output path keeps nothing; a file there holds the image
of the program that the input stands for, and if it may be read, it loads as that program. -/
theorem run_writes_all_or_nothing (name : String) (arguments : List String) (t : Files.Tree)
    (c : Console) :
    let status := (run name arguments t c).1
    let next := (run name arguments t c).2.1
    (status = 0 ↔ WantsHelp arguments ∨ ∃ output p, Compiles t arguments output p) ∧
      (status ≠ 0 ∨ WantsHelp arguments → next = t) ∧
      ∀ output p, Compiles t arguments output p →
        (∀ path, ¬ t.SameFile path output →
          (next.find path).toOption = (t.find path).toOption) ∧
        (t.IsDevice output → next = t) ∧
        (¬ t.IsDevice output →
          ∃ node, next.find output = .ok node ∧ node.kind = .file p.image ∧
            (node.refusals.read = none →
              next.read output = .ok p.image ∧ next.loadProgram output = .ok p)) := by
  intro status next
  refine ⟨run_status_eq_zero_iff name c arguments t, run_tree_eq name c, ?_⟩
  intro output p h
  obtain ⟨written, c', hrun, hwrite⟩ := run_of_compiles name c h
  have hnext : next = written := congrArg (fun answer => answer.2.1) hrun
  rw [hnext]
  refine ⟨fun path hother => Files.Tree.find_write hwrite hother,
    Files.Tree.eq_of_write_device hwrite, fun hdevice => ?_⟩
  obtain ⟨place, node, -, hfind, hkind, -⟩ := Files.Tree.find_of_write hwrite hdevice
  refine ⟨node, hfind, hkind, fun hgranted => ?_⟩
  have hread := Files.Tree.read_of_find hfind hkind hgranted
  refine ⟨hread, ?_⟩
  show Files.programOf output (written.read output) = .ok p
  rw [hread]
  exact Program.ofImage_image p

/-- A device takes the image and exits with zero all the same, and what it shows afterwards is not
the program. -/
theorem image_lost_in_device :
    let program : Program := ⟨#[.bare .halt], by decide⟩
    let t : Files.Tree :=
      { nodes := [⟨[⟨["dev"]⟩], .directory, .empty⟩, ⟨[⟨["dev", "null"]⟩], .device [], .empty⟩,
          ⟨[⟨["p.basm"]⟩], .file (Text.encode "HALT"), .empty⟩]
        here := .root }
    let answer := run "assembler" ["p.basm", "-o", "/dev/null"] t (.new true ⟨[]⟩)
    Assembly.assemble "HALT" = .ok program ∧ answer.1 = 0 ∧ answer.2.1 = t ∧
      answer.2.1.read "/dev/null" ≠ .ok program.image ∧
      answer.2.1.loadProgram "/dev/null" ≠ .ok program := by
  intro program t answer
  exact ⟨by decide +kernel, by decide +kernel, by decide +kernel, by decide +kernel,
    by decide +kernel⟩

end Tool.Assembler
end StackMachine
