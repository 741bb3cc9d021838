import StackMachine.Proofs.Pipeline

/-!
The options of the runner, in any order and any number. The last limit counts, a trace is asked for
or it is not, and the last of the quiet and the verbose options sets the threshold of the journal.

What the threshold lets through never reaches standard output. Two runs of the runner are compared
as one run of a machine whose world is a pair of consoles, and the pair carries the proof that both
have printed the same.
-/

namespace StackMachine

/-! ## 1. Limits -/

namespace Decimal

/-- The text is a decimal numeral, with or without a plus sign, of a number of at most 64 bits. -/
def IsCount (text : String) (n : Nat) : Prop :=
  ∃ ds, (text.toList = ds ∨ text.toList = '+' :: ds) ∧ ds ≠ [] ∧ (∀ d ∈ ds, d.isDigit = true) ∧
    Nat.ofDigitChars 10 ds 0 = n ∧ n < UInt64.size

theorem unsigned?_eq_some_iff {cs : List Char} {n : Nat} :
    unsigned? cs = some n ↔ ∃ ds, (cs = ds ∨ cs = '+' :: ds) ∧ digits? ds = some n := by
  by_cases hplus : ∃ ds, cs = '+' :: ds
  · obtain ⟨ds, rfl⟩ := hplus
    constructor
    · exact fun h => ⟨ds, .inr rfl, h⟩
    · rintro ⟨es, rfl | hsame, h⟩
      · -- a plus sign is no digit
        have hdigit := (Grammar.digits?_eq_some_iff.1 h).2.1 '+' List.mem_cons_self
        exact absurd hdigit (by decide)
      · cases hsame
        exact h
  · have hplain : unsigned? cs = digits? cs := by
      unfold unsigned?
      split
      · exact absurd ⟨_, rfl⟩ hplus
      · rfl
    rw [hplain]
    constructor
    · exact fun h => ⟨cs, .inl rfl, h⟩
    · rintro ⟨ds, rfl | hsign, h⟩
      · exact h
      · exact absurd ⟨ds, hsign⟩ hplus

theorem count?_eq_some_iff {text : String} {n : Nat} : count? text = some n ↔ IsCount text n := by
  have hbound : n ≤ maxCount ↔ n < UInt64.size := Nat.lt_succ_iff.symm
  rw [count?, Option.filter_eq_some_iff, unsigned?_eq_some_iff, decide_eq_true_iff, hbound]
  constructor
  · rintro ⟨⟨ds, htext, hdigits⟩, hlt⟩
    obtain ⟨hne, hall, hvalue⟩ := Grammar.digits?_eq_some_iff.1 hdigits
    exact ⟨ds, htext, hne, hall, hvalue, hlt⟩
  · rintro ⟨ds, htext, hne, hall, hvalue, hlt⟩
    exact ⟨⟨ds, htext, Grammar.digits?_eq_some_iff.2 ⟨hne, hall, hvalue⟩⟩, hlt⟩

end Decimal

/-! ## 2. Options -/

namespace Tool.Runner

/-- An option on the command line. Each has a long name and a short one. -/
inductive Flag where
  | limit (long : Bool) (text : String) (n : Nat) (isCount : Decimal.IsCount text n)
  | trace (long : Bool)
  | quiet (long : Bool)
  | verbose (long : Bool)

namespace Flag

def arguments : Flag → List String
  | limit long text _ _ => [if long then "--limit" else "-l", text]
  | trace long => [if long then "--trace" else "-t"]
  | quiet long => [if long then "--quiet" else "-q"]
  | verbose long => [if long then "--verbose" else "-v"]

def limit? : Flag → Option Nat
  | limit _ _ n _ => some n
  | _ => none

def isTrace : Flag → Bool
  | trace _ => true
  | _ => false

/-- The threshold that an option asks for. -/
def level? : Flag → Option Level
  | quiet _ => some .error
  | verbose _ => some .debug
  | _ => none

end Flag

def commandLine (flags : List Flag) : List String := flags.flatMap Flag.arguments

def lastLimit? (flags : List Flag) : Option Nat := (flags.filterMap Flag.limit?).getLast?

def asksTrace (flags : List Flag) : Bool := flags.any Flag.isTrace

def lastLevel? (flags : List Flag) : Option Level := (flags.filterMap Flag.level?).getLast?

theorem read_arguments (o : Options) (flag : Flag) (rest : List String) :
    o.read (flag.arguments ++ rest) =
      Options.read ⟨flag.limit?.or o.limit, o.trace || flag.isTrace, flag.level?.getD o.threshold⟩
        rest := by
  cases flag with
  | limit long text n isCount =>
    have hcount := Decimal.count?_eq_some_iff.2 isCount
    cases long <;>
      simp [Flag.arguments, Flag.limit?, Flag.isTrace, Flag.level?, Options.read, hcount]
  | trace long | quiet long | verbose long =>
    rw [Flag.arguments, List.singleton_append, Options.read.eq_def]
    cases long <;> simp [Flag.limit?, Flag.isTrace, Flag.level?]

theorem getLast?_filterMap_cons {α β : Type} (f : α → Option β) (a : α) (as : List α) :
    ((a :: as).filterMap f).getLast? = (as.filterMap f).getLast?.or (f a) := by
  rw [List.filterMap_cons]
  cases f a with
  | none => rw [Option.or_none]
  | some b =>
    rw [List.getLast?_cons]
    cases (as.filterMap f).getLast? <;> rfl

theorem lastLimit?_cons (flag : Flag) (flags : List Flag) :
    lastLimit? (flag :: flags) = (lastLimit? flags).or flag.limit? :=
  getLast?_filterMap_cons _ flag flags

theorem lastLevel?_cons (flag : Flag) (flags : List Flag) :
    lastLevel? (flag :: flags) = (lastLevel? flags).or flag.level? :=
  getLast?_filterMap_cons _ flag flags

/-- The last option of each kind counts. -/
theorem read_commandLine (o : Options) (flags : List Flag) :
    o.read (commandLine flags) =
      .ok ⟨(lastLimit? flags).or o.limit, o.trace || asksTrace flags,
        (lastLevel? flags).getD o.threshold⟩ := by
  induction flags generalizing o with
  | nil =>
    show Except.ok o = _
    rw [asksTrace, List.any_nil, Bool.or_false]
    rfl
  | cons flag flags ih =>
    rw [commandLine, List.flatMap_cons, read_arguments]
    show Options.read _ (commandLine flags) = _
    rw [ih, lastLimit?_cons, lastLevel?_cons, asksTrace, asksTrace, List.any_cons, Option.or_assoc,
      Bool.or_assoc, Option.getD_or]

/-- What a command line asks for. -/
def chosen (flags : List Flag) : Options :=
  ⟨lastLimit? flags, asksTrace flags, (lastLevel? flags).getD .info⟩

theorem read_chosen (flags : List Flag) :
    Options.default.read (commandLine flags) = .ok (chosen flags) := by
  rw [read_commandLine]
  show Except.ok (⟨(lastLimit? flags).or none, asksTrace flags, (lastLevel? flags).getD .info⟩ :
      Options) = _
  rw [Option.or_none]
  rfl

end Tool.Runner

/-! ## 3. Consoles that print alike -/

namespace Tool

/-- Standard output is the same on both consoles. So are their journals, if `same` holds. -/
structure Console.Like (same : Prop) (c c' : Console) : Prop where
  output_eq : c.output = c'.output
  writable_eq : c.writable = c'.writable
  journal_eq : same → c.journal = c'.journal

/-- Both give the same answer and leave consoles that print alike. -/
def AnswersLike {α : Type} (same : Prop) (r r' : α × Console) : Prop :=
  r.1 = r'.1 ∧ Console.Like same r.2 r'.2

variable {same : Prop} {c c' : Console}

theorem AnswersLike.exists {α : Type} {r r' : α × Console} (h : AnswersLike same r r') :
    ∃ a next next', r = (a, next) ∧ r' = (a, next') ∧ Console.Like same next next' :=
  ⟨r.1, r.2, r'.2, rfl, Prod.ext h.1.symm rfl, h.2⟩

namespace Console

theorem Like.log (h : Like same c c') (level : Level) (message : String) :
    Like same (c.log level message) (c'.log level message) :=
  ⟨h.output_eq, h.writable_eq, fun hsame => congrArg (·.log level message) (h.journal_eq hsame)⟩

theorem Like.setThreshold (h : Like same c c') {level level' : Level}
    (hlevel : same → level = level') :
    Like same (c.setThreshold level) (c'.setThreshold level') := by
  refine ⟨h.output_eq, h.writable_eq, fun hsame => ?_⟩
  simp only [Console.setThreshold, h.journal_eq hsame, hlevel hsame]

theorem Like.printLine (h : Like same c c') (line : String) :
    AnswersLike same (c.printLine line) (c'.printLine line) := by
  unfold Console.printLine
  by_cases hwritable : c.writable = true
  · rw [if_pos hwritable, if_pos (h.writable_eq ▸ hwritable), h.output_eq]
    exact ⟨rfl, rfl, h.writable_eq, h.journal_eq⟩
  · rw [if_neg hwritable, if_neg (h.writable_eq ▸ hwritable)]
    exact ⟨rfl, h⟩

theorem Like.printLines (h : Like same c c') (lines : List String) :
    AnswersLike same (c.printLines lines) (c'.printLines lines) := by
  induction lines generalizing c c' with
  | nil => exact ⟨rfl, h⟩
  | cons line lines ih =>
    obtain ⟨answer, next, next', hline, hline', hnext⟩ := (h.printLine line).exists
    rw [Console.printLines, Console.printLines, hline, hline']
    cases answer with
    | ok a => exact ih hnext
    | error e => exact ⟨rfl, hnext⟩

theorem Like.emit (h : Like same c c') (w : Word) :
    AnswersLike same (debugOutlet.emit w c) (debugOutlet.emit w c') := by
  obtain ⟨answer, next, next', hline, hline', hnext⟩ := (h.printLine w.text).exists
  simp only [debugOutlet, hline, hline']
  cases answer with
  | ok a => exact ⟨rfl, hnext⟩
  | error e => exact ⟨rfl, hnext⟩

end Console

namespace Runner

theorem dump_like (h : Console.Like same c c') (level : Level) (m : Machine) :
    AnswersLike same (dump level m c) (dump level m c') := by
  obtain ⟨answer, next, next', hlines, hlines', hnext⟩ := (h.printLines m.dumpLines).exists
  rw [dump, dump, hlines, hlines']
  cases answer with
  | ok a => exact ⟨rfl, hnext⟩
  | error e => exact ⟨rfl, hnext.log level _⟩

theorem observe_like {p p' : Progress} (hsteps : p.steps = p'.steps)
    (h : Console.Like same p.console p'.console) (trace : Bool) (m : Machine) :
    (observe trace m p).steps = (observe trace m p').steps ∧
      Console.Like same (observe trace m p).console (observe trace m p').console := by
  unfold observe
  rw [← hsteps]
  refine ⟨rfl, ?_⟩
  cases trace with
  | true => exact (dump_like (h.log .debug _) .warn m).2
  | false => exact h.log .debug _

/-! ## 4. Two runs at once -/

/-- The worlds of two runs that have printed alike so far. -/
structure Twins (same : Prop) where
  left : Progress
  right : Progress
  steps_eq : left.steps = right.steps
  like : Console.Like same left.console right.console

namespace Twins

def outlet : Outlet (Twins same) where
  emit w t :=
    ((Runner.outlet.emit w t.left).1,
      ⟨(Runner.outlet.emit w t.left).2, (Runner.outlet.emit w t.right).2, t.steps_eq,
        (t.like.emit w).2⟩)

def observe (trace : Bool) (m : Machine) (t : Twins same) : Twins same :=
  ⟨Runner.observe trace m t.left, Runner.observe trace m t.right,
    (observe_like t.steps_eq t.like trace m).1, (observe_like t.steps_eq t.like trace m).2⟩

end Twins

open Session

theorem execute_like (h : Console.Like same c c') (trace : Bool) (limit : Nat) (p : Program) :
    AnswersLike same (execute trace limit p c) (execute trace limit p c') := by
  let start : Twins same := ⟨⟨c, 0⟩, ⟨c', 0⟩, rfl, h⟩
  have hleft : Follows (fun t : Twins same => t.left) Twins.outlet outlet := fun _ _ => rfl
  have hright : Follows (fun t : Twins same => t.right) Twins.outlet outlet := by
    intro w t
    refine Prod.ext ?_ rfl
    exact (t.like.emit w).1.symm
  have hrun : runObserved outlet (observe trace) limit (boot p ⟨c, 0⟩) =
      transferred p Twins.left (runObserved Twins.outlet (Twins.observe trace) limit
        (boot p start)) :=
    runObserved_boot hleft (fun _ _ => rfl) limit p start
  have hrun' : runObserved outlet (observe trace) limit (boot p ⟨c', 0⟩) =
      transferred p Twins.right (runObserved Twins.outlet (Twins.observe trace) limit
        (boot p start)) :=
    runObserved_boot hright (fun _ _ => rfl) limit p start
  unfold execute
  rw [hrun, hrun']
  cases runObserved Twins.outlet (Twins.observe trace) limit (boot p start) with
  | ok a s =>
    have hlog := s.world.like.log .info s!"Halted after {Decimal.ofNat s.world.left.steps} steps"
    obtain ⟨answer, next, next', hdump, hdump', hnext⟩ :=
      (dump_like hlog .error { s.machine with program := p }).exists
    dsimp only [transferred, transfer]
    rw [← s.world.steps_eq, hdump, hdump']
    cases answer with
    | true => exact ⟨rfl, hnext⟩
    | false => exact ⟨rfl, hnext⟩
  | error e s =>
    cases e with
    | breach cause => exact ⟨rfl, s.world.like⟩
    | fault cause =>
      refine ⟨rfl, Console.Like.log ?_ .error _⟩
      cases trace with
      | true => exact (dump_like s.world.like .warn _).2
      | false => exact s.world.like

theorem budget_like (h : Console.Like same c c') (program : String) {o o' : Options}
    (hlimit : o.limit = o'.limit) (env : Environment) :
    AnswersLike same (budget program o env c) (budget program o' env c') := by
  unfold budget
  rw [← hlimit]
  cases o.limit with
  | some limit => exact ⟨rfl, h⟩
  | none =>
    cases env.find? limitVariable with
    | none => exact ⟨rfl, h⟩
    | some value =>
      dsimp only
      cases Text.decode? value with
      | none => exact ⟨rfl, h.log .warn _⟩
      | some text =>
        dsimp only
        cases Decimal.count? text with
        | some limit => exact ⟨rfl, h⟩
        | none => exact ⟨rfl, h.log .error _⟩

theorem run_like (h : Console.Like same c c') (program path : String) {flags flags' : List Flag}
    (hlimit : lastLimit? flags = lastLimit? flags') (htrace : asksTrace flags = asksTrace flags')
    (hlevel : same → lastLevel? flags = lastLevel? flags') (env : Environment)
    (read : String → Except Files.FileError Bytes) :
    AnswersLike same (run program (path :: commandLine flags) env read c)
      (run program (path :: commandLine flags') env read c') := by
  unfold run
  dsimp only
  by_cases hhelp : path = "--help" ∨ path = "-h"
  · rw [if_pos hhelp, if_pos hhelp]
    exact ⟨rfl, h.log .info _⟩
  · rw [if_neg hhelp, if_neg hhelp, read_chosen, read_chosen]
    dsimp only
    have hstart : Console.Like same (c.setThreshold (chosen flags).threshold)
        (c'.setThreshold (chosen flags').threshold) :=
      h.setThreshold fun hsame => by rw [chosen, chosen, hlevel hsame]
    have hlimits : (chosen flags).limit = (chosen flags').limit := hlimit
    obtain ⟨limit?, next, next', hbudget, hbudget', hnext⟩ :=
      (budget_like hstart program hlimits env).exists
    rw [hbudget, hbudget', show (chosen flags').trace = (chosen flags).trace from htrace.symm]
    cases limit? with
    | none => exact ⟨rfl, hnext⟩
    | some limit =>
      dsimp only
      cases Files.programOf path (read path) with
      | error cause => exact ⟨rfl, hnext.log .error _⟩
      | ok p => exact execute_like (hnext.log .info _) (chosen flags).trace limit p

/-- The order of the options does not matter, and no option about the journal changes what the
runner prints. Take two command lines with the same path whose options are limits, traces, quiets
and verboses in any number and order, on any environment, any files and a standard output that
accepts or refuses. If the last limits agree, or neither has one, and both or neither ask for a
trace, the exit status and standard output are the same. If moreover the last of their quiet and
verbose options agree, or neither has one, the journals hold the same messages, and what is written
of them differs only in what the clock shows at each message. The runner is given files to read and
gives none back. -/
theorem run_ignores_option_order {flags flags' : List Flag}
    (hlimit : lastLimit? flags = lastLimit? flags') (htrace : asksTrace flags = asksTrace flags')
    (program path : String) (env : Environment) (read : String → Except Files.FileError Bytes)
    (writable : Bool) :
    let answer := run program (path :: commandLine flags) env read (.new writable env)
    let answer' := run program (path :: commandLine flags') env read (.new writable env)
    answer.1 = answer'.1 ∧ answer.2.output = answer'.2.output ∧
      (lastLevel? flags = lastLevel? flags' →
        ∃ messages, ∀ clock clock',
          answer.2.journal.text clock = Journal.stamped messages clock ∧
            answer'.2.journal.text clock' = Journal.stamped messages clock') := by
  intro answer answer'
  have hstart : Console.Like (lastLevel? flags = lastLevel? flags') (.new writable env)
      (.new writable env) := ⟨rfl, rfl, fun _ => rfl⟩
  obtain ⟨hstatus, hconsole⟩ := run_like hstart program path hlimit htrace id env read
  refine ⟨hstatus, hconsole.output_eq, fun hlevel => ?_⟩
  refine ⟨answer'.2.journal.messages.toList, fun clock clock' => ⟨?_, rfl⟩⟩
  have hjournal : answer.2.journal = answer'.2.journal := hconsole.journal_eq hlevel
  rw [hjournal]
  rfl

/-- Other spellings, another order, and options that later ones take back: the run is traced all the
same. -/
theorem run_ignores_option_order_respelt :
    ∃ flags flags', commandLine flags = ["-l", "3", "-q", "--trace", "--limit", "+4"] ∧
      commandLine flags' = ["--verbose", "--limit", "+4", "-t", "--trace", "--quiet"] ∧
      lastLimit? flags = lastLimit? flags' ∧ asksTrace flags = asksTrace flags' ∧
      lastLevel? flags = lastLevel? flags' ∧
      ∃ (program : Program) (answer answer' : Nat × Console),
        run "runner" ("p.bm" :: commandLine flags) ⟨[]⟩ (fun _ => .ok program.image)
            (.new true ⟨[]⟩) = answer ∧
        run "runner" ("p.bm" :: commandLine flags') ⟨[]⟩ (fun _ => .ok program.image)
            (.new true ⟨[]⟩) = answer' ∧
        answer.1 = answer'.1 ∧ answer.2.output = answer'.2.output ∧
        (∃ messages, ∀ clock clock',
          answer.2.journal.text clock = Journal.stamped messages clock ∧
            answer'.2.journal.text clock' = Journal.stamped messages clock') ∧
        answer.2.output =
          "Stack:\n  7\n7\nStack:\n  [empty]\nStack:\n  [empty]\nStack:\n  [empty]\n" := by
  let three : Flag := .limit false "3" 3 (Decimal.count?_eq_some_iff.1 (by decide +kernel))
  let four : Flag := .limit true "+4" 4 (Decimal.count?_eq_some_iff.1 (by decide +kernel))
  let flags : List Flag := [three, .quiet false, .trace true, four]
  let flags' : List Flag := [.verbose true, four, .trace false, .trace true, .quiet true]
  let program : Program := ⟨#[.of .push 7, .bare .printDebug, .bare .halt], by decide⟩
  have hlimit : lastLimit? flags = lastLimit? flags' := rfl
  have htrace : asksTrace flags = asksTrace flags' := rfl
  obtain ⟨hstatus, houtput, hjournal⟩ := run_ignores_option_order hlimit htrace "runner" "p.bm" ⟨[]⟩
    (fun _ => .ok program.image) true
  exact ⟨flags, flags', rfl, rfl, rfl, rfl, rfl, program, _, _, rfl, rfl, hstatus, houtput,
    hjournal rfl, by decide +kernel⟩

end Runner
end Tool
end StackMachine
