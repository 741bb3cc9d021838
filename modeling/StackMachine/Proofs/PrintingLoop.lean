import Mathlib.Algebra.Ring.Nat
import StackMachine.Proofs.Disassembly
import StackMachine.Proofs.FuelComposition
import StackMachine.Proofs.TraceOutput
import StackMachine.Timing.Workload

/-!
The loop that counts down and prints, for every count. A round of six steps takes the counter from
one number to the number before it, and prints on the way; the last round leaves zero and falls
through to the halt.

Rounds are walks by the instruction table. What a walk says about steps of the machine is proved
once, for any walk.
-/

namespace StackMachine

/-! ## 1. Walks -/

theorem Outlet.Accepts.emit_eq {ω : Type} {outlet : Outlet ω} (h : outlet.Accepts) (w : Word)
    (world : ω) :
    outlet.emit w world = (.ok (), (outlet.emit w world).2) := Prod.ext (h w world) rfl

namespace Session

variable {ω : Type} (outlet : Outlet ω) (p : Program) (depth : Nat)

/-- Steps that go on, by the instruction table, from one configuration to another. The stack is
never higher than `depth`. -/
inductive Walks : Nat → Table.Config → ω → Table.Config → ω → Prop
  | stay (c : Table.Config) (world : ω) (shallow : c.stack.length ≤ depth) : Walks 0 c world c world
  | go {n : Nat} {c next last : Table.Config} {world told final : ω}
      (shallow : c.stack.length ≤ depth)
      (passes : Passes outlet world (Table.effect p c) next told) (onward : next.halted = false)
      (rest : Walks n next told last final) : Walks (n + 1) c world last final

/-- The machine has the program, it can go on, and it stands at the configuration. -/
structure StandsAt (c : Table.Config) (world : ω) (s : Session ω) : Prop where
  program_eq : s.machine.program = p
  fits : s.machine.Fits
  going : s.machine.outcome = none
  config_eq : s.machine.config = c
  world_eq : s.world = world

variable {outlet p depth} {m n : Nat} {c next last : Table.Config} {world told final : ω}
  {s : Session ω}

theorem Walks.move (next : Table.Config) (shallow : c.stack.length ≤ depth)
    (heffect : Table.effect p c = .moves next) (onward : next.halted = false)
    (rest : Walks outlet p depth n next world last final) :
    Walks outlet p depth (n + 1) c world last final :=
  .go shallow (heffect ▸ .moves next) onward rest

theorem Walks.print (next : Table.Config) (haccepts : outlet.Accepts)
    (shallow : c.stack.length ≤ depth) {w : Word} (heffect : Table.effect p c = .prints w next)
    (onward : next.halted = false)
    (rest : Walks outlet p depth n next (outlet.emit w world).2 last final) :
    Walks outlet p depth (n + 1) c world last final :=
  .go shallow (heffect ▸ .prints w next _ (haccepts.emit_eq w world)) onward rest

theorem Walks.trans (h : Walks outlet p depth m c world next told)
    (h' : Walks outlet p depth n next told last final) :
    Walks outlet p depth (m + n) c world last final := by
  induction h with
  | stay c world shallow =>
    rw [Nat.zero_add]
    exact h'
  | @go m c passed next world told final shallow passes onward rest ih =>
    rw [show m + 1 + n = m + n + 1 by omega]
    exact .go shallow passes onward (ih h')

theorem config_arrived {stack : Stack} (holds : stack.Holds Machine.stackCapacity c.stack)
    (world : ω) :
    (s.arrived stack c world).machine.config = c := by
  show (⟨stack.toList.reverse, c.ip, c.halted⟩ : Table.Config) = c
  rw [holds.reverse_toList]

theorem StandsAt.step (h : StandsAt p c world s)
    (hpasses : Passes outlet world (Table.effect p c) next told) (honward : next.halted = false) :
    ∃ t, step outlet s = .ok () t ∧ t.machine.halted = false ∧ StandsAt p next told t := by
  obtain ⟨rfl, hfits, hgo, rfl, rfl⟩ := h
  obtain ⟨stack, holds, hstep⟩ := step_of_passes outlet hfits hgo hpasses
  refine ⟨_, hstep, honward, rfl, ⟨holds.size_slots, holds.len_le⟩, ?_, config_arrived holds told,
    rfl⟩
  show (s.arrived stack next told).machine.outcome = none
  unfold arrived
  rw [honward]
  rfl

/-- The steps of a walk go on, and the machine stands where the walk leads to. -/
theorem Walks.stepped (hwalks : Walks outlet p depth n c world last final)
    (h : StandsAt p c world s) :
    (∀ i < n, GoesOn outlet (stepped outlet s i)) ∧ StandsAt p last final (stepped outlet s n) ∧
      ∀ i ≤ n, (stepped outlet s i).machine.stack.toList.length ≤ depth := by
  have hdepth {c : Table.Config} {world : ω} {s : Session ω} (h : StandsAt p c world s)
      (hc : c.stack.length ≤ depth) :
      s.machine.stack.toList.length ≤ depth := by
    rw [← h.config_eq, Machine.config, List.length_reverse] at hc
    exact hc
  induction hwalks generalizing s with
  | stay c world shallow =>
    refine ⟨fun i hi => absurd hi (Nat.not_lt_zero i), h, fun i hi => ?_⟩
    rw [Nat.le_zero.1 hi]
    exact hdepth h shallow
  | @go n c next last world told final shallow passes onward rest ih =>
    obtain ⟨t, hstep, hhalted, hthere⟩ := h.step passes onward
    obtain ⟨hgoes, hlast, hlow⟩ := ih hthere
    refine ⟨?_, ?_, ?_⟩
    · intro i hi
      cases i with
      | zero => exact ⟨t, hstep, hhalted⟩
      | succ i =>
        rw [stepped_of_ok hstep]
        exact hgoes i (by omega)
    · rw [stepped_of_ok hstep]
      exact hlast
    · intro i hi
      cases i with
      | zero => exact hdepth h shallow
      | succ i =>
        rw [stepped_of_ok hstep]
        exact hlow i (by omega)

theorem StandsAt.halt (outlet : Outlet ω) (h : StandsAt p c world s)
    (heffect : Table.effect p c = .moves last) (hhalted : last.halted = true) :
    ∃ t, Session.step outlet s = .ok () t ∧ t.machine.halted = true ∧ t.machine.config = last ∧
      t.world = world := by
  obtain ⟨rfl, hfits, hgo, rfl, rfl⟩ := h
  have hpasses :
      Passes outlet s.world (Table.effect s.machine.program s.machine.config) last s.world :=
    heffect ▸ .moves last
  obtain ⟨stack, holds, hstep⟩ := step_of_passes outlet hfits hgo hpasses
  exact ⟨_, hstep, hhalted, config_arrived holds s.world, rfl⟩

theorem standsAt_boot (p : Program) (world : ω) : StandsAt p ⟨[], 0, false⟩ world (boot p world) :=
  ⟨rfl, Machine.fits_boot p, rfl, rfl, rfl⟩

end Session

/-! ## 2. Rounds -/

variable {ω : Type} {outlet : Outlet ω} {n : Nat}

/-- The world after the outlet was offered the values, one after the other. -/
def Outlet.fed (outlet : Outlet ω) (ws : List Word) (world : ω) : ω :=
  ws.foldl (fun world w => (outlet.emit w world).2) world

namespace Timing.Workload

open Session

/-- The numbers from `n` down to one. -/
def countdown : Nat → List Word
  | 0 => []
  | n + 1 => Int64.ofNat (n + 1) :: countdown n

/-- The records of the loop, for a counter that starts at `w`. -/
def printingLoop (w : Word) : Program :=
  ⟨#[.of .push w, .of .dup 0, .bare .printDebug, .of .push (-1), .bare .plus, .of .dup 0,
    .of .jmpIf 1, .bare .halt],
    show 8 ≤ 1024 by decide⟩

theorem ofInt_pred (hn : n + 1 < 2 ^ 63) :
    Int64.ofInt ((Int64.ofNat (n + 1)).toInt + (-1 : Word).toInt) = Int64.ofNat n := by
  rw [Int64.toInt_ofNat_of_lt hn, show (-1 : Word).toInt = -1 from rfl,
    show ((n + 1 : Nat) : Int) + -1 = (n : Int) by omega]
  rfl

theorem ofNat_eq_zero_iff (hn : n < 2 ^ 63) : Int64.ofNat n = 0 ↔ n = 0 := by
  rw [← Int64.toInt_inj, Int64.toInt_ofNat_of_lt hn, show (0 : Word).toInt = 0 from rfl]
  omega

/-- One round, from the label back to it, or on to the halt once the counter is zero. -/
theorem round (haccepts : outlet.Accepts) (w : Word) (hn : n + 1 < 2 ^ 63) (world : ω) :
    Walks outlet (printingLoop w) 2 6 ⟨[Int64.ofNat (n + 1)], 1, false⟩ world
      ⟨[Int64.ofNat n], if n = 0 then 7 else 1, false⟩
        (outlet.emit (Int64.ofNat (n + 1)) world).2 := by
  have hone {v : Word} : [v].length ≤ 2 := Nat.le_succ 1
  have htwo {v u : Word} : [v, u].length ≤ 2 := Nat.le_refl 2
  have hjump : Table.effect (printingLoop w) ⟨[Int64.ofNat n, Int64.ofNat n], 6, false⟩ =
      .moves ⟨[Int64.ofNat n], if n = 0 then 7 else 1, false⟩ := by
    by_cases hzero : n = 0
    · rw [hzero]
      rfl
    · show Table.Effect.moves (if Int64.ofNat n = 0 then _ else _) = _
      rw [if_neg (mt (ofNat_eq_zero_iff (by omega)).1 hzero), if_neg hzero]
      rfl
  have hplus : Table.effect (printingLoop w) ⟨[-1, Int64.ofNat (n + 1)], 4, false⟩ =
      .moves ⟨[Int64.ofNat n], 5, false⟩ := by
    rw [← ofInt_pred hn]
    rfl
  refine .move ⟨[_, _], 2, false⟩ hone rfl rfl ?_
  refine .print ⟨[_], 3, false⟩ haccepts htwo rfl rfl ?_
  refine .move ⟨[-1, _], 4, false⟩ hone rfl rfl ?_
  refine .move ⟨[_], 5, false⟩ htwo hplus rfl ?_
  refine .move ⟨[_, _], 6, false⟩ hone rfl rfl ?_
  refine .move ⟨[_], _, false⟩ htwo hjump rfl ?_
  exact .stay _ _ hone

/-- All rounds, down to zero. -/
theorem rounds (haccepts : outlet.Accepts) (w : Word) (hn : n + 1 < 2 ^ 63) (world : ω) :
    Walks outlet (printingLoop w) 2 (6 * (n + 1)) ⟨[Int64.ofNat (n + 1)], 1, false⟩ world
      ⟨[0], 7, false⟩ (outlet.fed (countdown (n + 1)) world) := by
  induction n generalizing world with
  | zero => exact round haccepts w hn world
  | succ n ih =>
    have hfirst := round haccepts w hn world
    rw [if_neg (Nat.succ_ne_zero n)] at hfirst
    have hrest := ih (by omega) (outlet.emit (Int64.ofNat (n + 2)) world).2
    rw [show 6 * (n + 1 + 1) = 6 + 6 * (n + 1) by omega]
    exact hfirst.trans hrest

theorem walks_to_halt (haccepts : outlet.Accepts) (hone : 1 ≤ n) (hn : n < 2 ^ 63) (world : ω) :
    Walks outlet (printingLoop (Int64.ofNat n)) 2 (6 * n + 1) ⟨[], 0, false⟩ world
      ⟨[0], 7, false⟩ (outlet.fed (countdown n) world) := by
  obtain ⟨k, rfl⟩ : ∃ k, n = k + 1 := ⟨n - 1, by omega⟩
  exact .move ⟨[_], 1, false⟩ (Nat.zero_le 2) rfl rfl (rounds haccepts _ hn world)

/-! ## 3. The source of the loop -/

open Grammar

theorem rows_flatMap {texts : List String}
    (h : ∀ text ∈ texts, '\n' ∉ text.toList ∧ '\r' ∉ text.toList) :
    Grammar.rows (texts.flatMap fun text => text.toList ++ ['\n']) = texts.map String.toList := by
  induction texts with
  | nil => rfl
  | cons text texts ih =>
    obtain ⟨hline, hreturn⟩ := h text List.mem_cons_self
    rw [List.flatMap_cons, List.append_assoc, List.singleton_append, rows_append_cons hline,
      dropReturn_of_notMem hreturn, ih fun text htext => h text (List.mem_cons_of_mem _ htext),
      List.map_cons]

theorem lines_sourceText {texts : List String}
    (h : ∀ text ∈ texts, '\n' ∉ text.toList ∧ '\r' ∉ text.toList) :
    lines (sourceText texts) = ("" :: texts).map lineOf := by
  have htext :
      (sourceText texts).toList = ("" :: texts).flatMap fun text => text.toList ++ ['\n'] := by
    rw [sourceText, String.toList_join, List.flatMap_map]
    simp only [String.toList_append]
    rfl
  have hempty : ∀ text ∈ "" :: texts, '\n' ∉ text.toList ∧ '\r' ∉ text.toList := by
    intro text htext
    obtain rfl | htext := List.mem_cons.1 htext
    · decide
    · exact h text htext
  rw [lines, htext, rows_flatMap hempty, List.map_map]
  simp only [Function.comp_def, String.ofList_toList]

/-- The line that sets the counter. -/
def pushLine (n : Nat) : String := "    PUSH " ++ Decimal.ofNat n

theorem mem_pushLine {c : Char} (h : c ∈ (pushLine n).toList) :
    c ∈ "    PUSH ".toList ∨ isSeparator c = false ∧ c ≠ '#' := by
  rw [pushLine, String.toList_append] at h
  obtain h | h := List.mem_append.1 h
  · exact .inl h
  · exact .inr (not_special_of_isPlain (isPlain_ofNat n) h)

theorem lineOf_pushLine (n : Nat) : lineOf (pushLine n) = ⟨none, ["PUSH", Decimal.ofNat n]⟩ := by
  obtain ⟨hne, -⟩ := isPlain_iff.1 (isPlain_ofNat n)
  have hnumber : ∀ c ∈ (Decimal.ofNat n).toList, isSeparator c = false := fun c hc =>
    (not_special_of_isPlain (isPlain_ofNat n) hc).1
  have hcode : (pushLine n).toList.takeWhile (· ≠ '#') = (pushLine n).toList := by
    apply List.takeWhile_eq_self_iff.2
    intro c hc
    obtain hc | ⟨-, hc⟩ := mem_pushLine hc
    · exact List.all_eq_true.1 (show "    PUSH ".toList.all (· ≠ '#') = true by decide +kernel) c hc
    · exact decide_eq_true hc
  have hpieces : pieces (pushLine n).toList = ["PUSH".toList, (Decimal.ofNat n).toList] := by
    have hblank : isSeparator ' ' = true := by decide
    have hword : ∀ c ∈ "PUSH".toList, isSeparator c = false :=
      fun c hc => (not_special_of_isPlain rfl hc).1
    rw [pushLine, String.toList_append]
    show pieces (' ' :: ' ' :: ' ' :: ' ' :: ("PUSH".toList ++ ' ' :: (Decimal.ofNat n).toList)) = _
    rw [pieces_separator hblank, pieces_separator hblank, pieces_separator hblank,
      pieces_separator hblank, pieces_run_append (by decide) hword (by rintro c ⟨⟩; exact hblank),
      pieces_separator hblank, pieces_of_forall hne hnumber]
  rw [lineOf, tokens, hcode, hpieces]
  show Line.ofTokens [String.ofList "PUSH".toList, String.ofList (Decimal.ofNat n).toList] = _
  rw [String.ofList_toList, String.ofList_toList]
  rfl

/-- The lines of the loop: the counter, the label, and the body behind it. -/
def loopLines (n : Nat) : List Line :=
  [⟨none, []⟩, ⟨none, ["PUSH", Decimal.ofNat n]⟩, ⟨some "loop", []⟩, ⟨none, ["DUP", "0"]⟩,
    ⟨none, ["PRINT_DEBUG"]⟩, ⟨none, ["PUSH", "-1"]⟩, ⟨none, ["PLUS"]⟩, ⟨none, ["DUP", "0"]⟩,
    ⟨none, ["JMP_IF", "loop"]⟩, ⟨none, ["HALT"]⟩]

theorem lines_debugOutputSource (n : Nat) : lines (debugOutputSource n) = loopLines n := by
  let body := ["loop:", "    DUP 0", "    PRINT_DEBUG", "    PUSH -1", "    PLUS", "    DUP 0",
    "    JMP_IF loop", "    HALT"]
  have hplain : ∀ text ∈ pushLine n :: body, '\n' ∉ text.toList ∧ '\r' ∉ text.toList := by
    intro text htext
    obtain rfl | htext := List.mem_cons.1 htext
    · refine ⟨?_, ?_⟩
      all_goals
        intro hmem
        obtain hc | ⟨hc, -⟩ := mem_pushLine hmem
        · exact absurd hc (by decide +kernel)
        · exact absurd hc (by decide)
    · have hbody : body.all (fun text => !text.toList.contains '\n' &&
          !text.toList.contains '\r') = true := by
        decide +kernel
      have hone := List.all_eq_true.1 hbody text htext
      simpa using hone
  have hsource : debugOutputSource n = sourceText (pushLine n :: body) := rfl
  have hbody : body.map lineOf =
      [⟨some "loop", []⟩, ⟨none, ["DUP", "0"]⟩, ⟨none, ["PRINT_DEBUG"]⟩, ⟨none, ["PUSH", "-1"]⟩,
        ⟨none, ["PLUS"]⟩, ⟨none, ["DUP", "0"]⟩, ⟨none, ["JMP_IF", "loop"]⟩, ⟨none, ["HALT"]⟩] := by
    decide +kernel
  rw [hsource, lines_sourceText hplain, List.map_cons, List.map_cons, lineOf_pushLine, hbody]
  rfl

theorem spells_ofNat (hn : n < 2 ^ 63) : Spells (Decimal.ofNat n) (Int64.ofNat n) := by
  have htext : Word.text (Int64.ofNat n) = Decimal.ofNat n := by
    rw [Word.text, Int64.toInt_ofNat_of_lt hn]
    rfl
  rw [← read?_eq_some_iff, ← htext]
  exact Word.read?_text _

/-- The source of the loop stands for its records. -/
theorem assemble_debugOutputSource (hn : n < 2 ^ 63) :
    Assembly.assemble (debugOutputSource n) = .ok (printingLoop (Int64.ofNat n)) := by
  have hloop : Address (loopLines n) "loop" 1 := ⟨[_, _], _, _, rfl, rfl, rfl⟩
  have hzero : Spells "0" 0 := read?_eq_some_iff.1 (by decide +kernel)
  have hminus : Spells "-1" (-1) := read?_eq_some_iff.1 (by decide +kernel)
  refine assemble_of_lines (lines_debugOutputSource n) (List.forall_mem_singleton.2 rfl)
    (List.nodup_singleton "loop") ?_ ?_
  · show 8 ≤ 1023
    decide
  · refine .cons ?_ (.cons ?_ (.cons ?_
      (.cons ?_ (.cons ?_ (.cons ?_ (.cons ?_ (.cons ?_ .nil)))))))
    · exact .number .push .immediate rfl _ _ (spells_ofNat hn)
    · exact .number .dup .immediate rfl "0" 0 hzero
    · exact .bare .printDebug rfl
    · exact .number .push .immediate rfl "-1" (-1) hminus
    · exact .bare .plus rfl
    · exact .number .dup .immediate rfl "0" 0 hzero
    · exact .label .jmpIf rfl "loop" 1 hloop
    · exact .bare .halt rfl

/-! ## 4. The run -/

section

variable (haccepts : outlet.Accepts) (hone : 1 ≤ n) (hn : n < 2 ^ 63) (world : ω)

include haccepts hone hn

/-- All steps but the last go on, on a stack of at most two values. The last one halts, and leaves
zero. -/
theorem steps_of_printingLoop :
    let s := boot (printingLoop (Int64.ofNat n)) world
    (∀ i < 6 * n + 1, GoesOn outlet (stepped outlet s i)) ∧
      (∀ i ≤ 6 * n + 1, (stepped outlet s i).machine.stack.toList.length ≤ 2) ∧
      ∃ t, nthStep outlet s (6 * n + 2) = .ok () t ∧ t.machine.halted = true ∧
        t.machine.stack.toList = [0] ∧
        t.world = outlet.fed (countdown n) world := by
  intro s
  have hstart : StandsAt (printingLoop (Int64.ofNat n)) ⟨[], 0, false⟩ world s :=
    standsAt_boot _ world
  obtain ⟨hgoes, hthere, hdepth⟩ := (walks_to_halt haccepts hone hn world).stepped hstart
  have heffect :
      Table.effect (printingLoop (Int64.ofNat n)) ⟨[0], 7, false⟩ = .moves ⟨[0], 7, true⟩ := rfl
  obtain ⟨t, hstep, hhalted, hconfig, hworld⟩ := hthere.halt outlet heffect rfl
  have hstack : t.machine.stack.toList = [0] := by
    have hreverse := congrArg (fun c => c.stack.reverse) hconfig
    rw [Machine.config, List.reverse_reverse] at hreverse
    exact hreverse
  exact ⟨hgoes, hdepth, t, hstep, hhalted, hstack, hworld⟩

end

theorem noted_count (s : Session ω) (n : Nat) :
    noted outlet s (fun _ count => count + 1) 0 n = n := by
  induction n with
  | zero => rfl
  | succ n ih => rw [noted_succ, ih]

/-- The steps of a workload are counted up to the one that halts, or up to the end of the fuel. -/
theorem stepCount_of_haltsAt {p : Program}
    (hsteps : ∀ i < n, GoesOn discard (stepped discard (boot p ()) i))
    (hhalts : HaltsAt discard (boot p ()) (n + 1)) (fuel : Nat) :
    stepCount fuel p = min fuel (n + 1) := by
  have hfollows : Follows Prod.snd (Outlet.beside Nat (discard : Outlet Unit)) discard :=
    fun _ _ => rfl
  have hrun : runObserved discard (fun _ count => count + 1) fuel (boot p 0) =
      transferred p Prod.snd (runObserved (discard.beside Nat) (noting fun _ count => count + 1)
        fuel ((boot p ()).beside 0)) :=
    runObserved_boot hfollows (fun _ _ => rfl) fuel p ((), 0)
  rw [stepCount, hrun]
  by_cases hfuel : n < fuel
  · rw [runObserved_halts discard _ rfl 0 hsteps hfuel hhalts, noted_count, Nat.min_eq_right hfuel]
    rfl
  · rw [runObserved_exhausts discard _ rfl 0 fun i hi => hsteps i (by omega), noted_count,
      Nat.min_eq_left (by omega)]
    rfl

/-- The loop that counts down and prints is right for every count that fits a word, every outlet
that accepts and every fuel of 64 bits. Its source assembles. With fuel for `6 * n + 2` steps the
run answers well after exactly these; it has offered the numbers from `n` down to one, and zero is
left on the stack. With less fuel it reports that its budget is used up. Every step up to the halt
succeeds, on a stack of at most two values, and the timing table counts them up to the end of the
fuel. -/
theorem run_debugOutputSource (n : Nat) (hone : 1 ≤ n) (hn : n < 2 ^ 63) :
    ∃ p, Assembly.assemble (debugOutputSource n) = .ok p ∧
      (∀ fuel : UInt64, stepCount fuel.toNat p = min fuel.toNat (6 * n + 2)) ∧
      ∀ (ω : Type) (outlet : Outlet ω), outlet.Accepts → ∀ (world : ω) (fuel : UInt64),
        let s := boot p world
        (6 * n + 2 ≤ fuel.toNat →
          FirstEnd outlet s (6 * n + 2) ∧
            ∃ t, Session.run outlet fuel.toNat s = .ok () t ∧ t.machine.stack.toList = [0] ∧
              t.world = outlet.fed (countdown n) world) ∧
        (fuel.toNat < 6 * n + 2 →
          ∃ t, Session.run outlet fuel.toNat s = .error (.fault (.budgetExceeded fuel.toNat)) t) ∧
        ∀ k < 6 * n + 2,
          (stepped outlet s k).machine.stack.toList.length ≤ 2 ∧
              ∃ t, nthStep outlet s (k + 1) = .ok () t := by
  refine ⟨printingLoop (Int64.ofNat n), assemble_debugOutputSource hn, ?_, ?_⟩
  · intro fuel
    have haccepts : (discard : Outlet Unit).Accepts := fun _ _ => rfl
    obtain ⟨hgoes, -, t, hstep, hhalted, -⟩ := steps_of_printingLoop haccepts hone hn ()
    exact stepCount_of_haltsAt hgoes ⟨t, hstep, hhalted⟩ fuel.toNat
  · intro ω outlet haccepts world fuel s
    obtain ⟨hgoes, hdepth, t, hstep, hhalted, hstack, hworld⟩ :=
      steps_of_printingLoop haccepts hone hn world
    have hend : EndsAt outlet s (6 * n + 1 + 1) := .inl ⟨t, hstep, hhalted⟩
    refine ⟨?_, ?_, ?_⟩
    · intro hfuel
      have hrun : Session.run outlet fuel.toNat s = nthStep outlet s (6 * n + 2) :=
        run_of_endsAt outlet rfl hgoes (by omega) hend
      exact ⟨(firstEnd_iff outlet).2 ⟨hgoes, hend⟩, t, hrun.trans hstep, hstack, hworld⟩
    · intro hfuel
      exact ⟨_, run_of_goesOn outlet rfl fun i hi => hgoes i (by omega)⟩
    · intro k hk
      refine ⟨hdepth k (by omega), ?_⟩
      by_cases hlast : k = 6 * n + 1
      · exact ⟨t, hlast ▸ hstep⟩
      · obtain ⟨u, hgoesOn, -⟩ := hgoes k (by omega)
        exact ⟨u, hgoesOn⟩

/-- Two rounds, with just enough fuel and with one step too few. -/
theorem run_debugOutputSource_two :
    1 ≤ 2 ∧ 2 < 2 ^ 63 ∧
      ∃ p, Assembly.assemble (debugOutputSource 2) = .ok p ∧ stepCount 100 p = 14 ∧
        (∃ t, Session.run Tool.gathering 14 (boot p []) = .ok () t ∧ t.machine.stack.toList = [0] ∧
          t.world = [2, 1]) ∧
        ∃ t, Session.run Tool.gathering 13 (boot p []) =
          .error (.fault (.budgetExceeded 13)) t := by
  obtain ⟨p, hassemble, hcount, hrun⟩ := run_debugOutputSource 2 (by decide) (by decide)
  have haccepts : Tool.gathering.Accepts := fun _ _ => rfl
  obtain ⟨henough, -, -⟩ := hrun (List Word) Tool.gathering haccepts [] 14
  obtain ⟨-, hshort, -⟩ := hrun (List Word) Tool.gathering haccepts [] 13
  obtain ⟨-, t, hhalts, hstack, hworld⟩ := henough (by decide)
  exact ⟨by decide, by decide, p, hassemble, hcount 100, ⟨t, hhalts, hstack, hworld⟩,
    hshort (by decide)⟩

end Timing.Workload
end StackMachine
