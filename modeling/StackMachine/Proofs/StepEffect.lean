import StackMachine.Proofs.InstructionTable
import StackMachine.Proofs.StackView

/-!
Executing a record has the effect that the instruction table prescribes.

`Carries` says once what an execution can do: every statement about steps is a case analysis of it,
and none of them opens the handlers again.
-/

namespace StackMachine

def Machine.config (m : Machine) : Table.Config := ⟨m.stack.toList.reverse, m.ip, m.halted⟩

namespace Session

variable {ω α β : Type}

open Table (Config Effect)

def moved (s : Session ω) (stack : Stack) (c : Config) : Session ω :=
  { s with machine := { s.machine with stack, ip := c.ip, halted := c.halted } }

/-- The executions from `s` that carry out an effect. Nothing but stack, instruction pointer, halted
flag and world changes, and of these only the world when the execution fails. -/
inductive Carries (outlet : Outlet ω) (s : Session ω) :
    Effect → EStateM.Result Trap (Session ω) Unit → Prop
  | fails (cause : Fault) : Carries outlet s (.fails cause) (.error (.fault cause) s)
  | moves (c : Config) (stack : Stack) (holds : stack.Holds Machine.stackCapacity c.stack) :
      Carries outlet s (.moves c) (.ok () (s.moved stack c))
  | accepted (w : Word) (c : Config) (stack : Stack) (world : ω)
      (holds : stack.Holds Machine.stackCapacity c.stack)
      (emitted : outlet.emit w s.world = (.ok (), world)) :
      Carries outlet s (.prints w c) (.ok () { s.moved stack c with world })
  | rejected (w : Word) (c : Config) (reason : String) (world : ω)
      (emitted : outlet.emit w s.world = (.error reason, world)) :
      Carries outlet s (.prints w c) (.error (.fault (.debugOutput reason)) { s with world })

/-! ## 1. Sequencing -/

theorem bind_ok {ε σ : Type} {x : EStateM ε σ α} {f : α → EStateM ε σ β} {s s' : σ} {a : α}
    (h : x s = .ok a s') :
    (x >>= f) s = f a s' := by
  change EStateM.bind x f s = _
  rw [EStateM.bind, h]

theorem bind_error {ε σ : Type} {x : EStateM ε σ α} {f : α → EStateM ε σ β} {s s' : σ} {e : ε}
    (h : x s = .error e s') : (x >>= f) s = .error e s' := by
  change EStateM.bind x f s = _
  rw [EStateM.bind, h]

theorem onStack_ok {act : Stack.Action α} {s : Session ω} {a : α} {stack : Stack}
    (h : act s.machine.stack = .ok a stack) :
    onStack act s = .ok a { s with machine := { s.machine with stack } } := by
  obtain ⟨⟨program, slots, ip, halted, state, exhausted⟩, world⟩ := s
  change act slots = _ at h
  simp only [onStack, h]

theorem onStack_error {act : Stack.Action α} {s : Session ω} {e : Trap}
    (h : act s.machine.stack = .error e s.machine.stack) : onStack act s = .error e s := by
  obtain ⟨⟨program, slots, ip, halted, state, exhausted⟩, world⟩ := s
  change act slots = _ at h
  simp only [onStack, h]

/-! ## 2. Arithmetic -/

theorem add_eq_ofInt (a b : Word) : a + b = Int64.ofInt (a.toInt + b.toInt) := by
  rw [Int64.ofInt_add, Int64.ofInt_toInt, Int64.ofInt_toInt]

theorem sub_eq_ofInt (a b : Word) : a - b = Int64.ofInt (a.toInt - b.toInt) := by
  rw [Int64.ofInt_sub, Int64.ofInt_toInt, Int64.ofInt_toInt]

theorem mul_eq_ofInt (a b : Word) : a * b = Int64.ofInt (a.toInt * b.toInt) := by
  rw [Int64.ofInt_mul, Int64.ofInt_toInt, Int64.ofInt_toInt]

theorem div_eq_ofInt (a b : Word) : a / b = Int64.ofInt (a.toInt.tdiv b.toInt) := by
  apply Int64.toInt_inj.1
  rw [Int64.toInt_div, Int64.toInt_ofInt]

-- The one quotient that does not fit comes back as the smallest word.
example : (Int64.minValue : Word) / -1 = Int64.minValue := by decide

theorem ofBool_beq_eq_ofInt (a b : Word) :
    Word.ofBool (a == b) = Int64.ofInt (if a.toInt = b.toInt then 1 else 0) := by
  by_cases h : a = b
  · rw [h, beq_self_eq_true, if_pos rfl]
    rfl
  · have hne : ¬ a.toInt = b.toInt := fun hi => h (Int64.toInt_inj.1 hi)
    rw [beq_false_of_ne h, if_neg hne]
    rfl

/-! ## 3. Operations -/

variable {outlet : Outlet ω} {s : Session ω} {vs : List Word}

/-- The configuration of `s`, when its stack is known to hold `vs`. -/
abbrev configOf (s : Session ω) (vs : List Word) : Config := ⟨vs, s.machine.ip, s.machine.halted⟩

theorem combine_holds {stack : Stack} {capacity : Nat} {a b w : Word}
    {f : Word → Word → Except Breach Word} (h : stack.Holds capacity (b :: a :: vs))
    (hf : f a b = .ok w) :
    ∃ stack', combine f stack = .ok () stack' ∧ stack'.Holds capacity (w :: vs) := by
  obtain ⟨popped, hpop, hpopped⟩ := h.pop
  obtain ⟨written, hset, hwritten⟩ := hpopped.setTop w
  refine ⟨written, ?_, hwritten⟩
  unfold combine
  rw [bind_ok hpop, bind_ok (hpopped.peek rfl), hf]
  exact hset

theorem pushed_carries (h : s.machine.stack.Holds Machine.stackCapacity vs) (w : Word) :
    Carries outlet s (Table.pushed w (configOf s vs)) ((do onStack (Stack.push w); advance) s) := by
  unfold Table.pushed
  by_cases hfree : vs.length < Machine.stackCapacity
  · obtain ⟨stack, hpush, hstack⟩ := h.push w hfree
    rw [if_pos hfree, bind_ok (onStack_ok hpush)]
    exact .moves _ stack hstack
  · rw [if_neg hfree, bind_error (onStack_error (h.push_full w (by omega)))]
    exact .fails _

theorem binary_carries (h : s.machine.stack.Holds Machine.stackCapacity vs) {f : Word → Word → Word}
    {g : Int → Int → Int} (hfg : ∀ a b, f a b = Int64.ofInt (g a.toInt b.toInt)) :
    Carries outlet s (Table.combined g (configOf s vs)) (binary f s) := by
  unfold binary
  match vs, h with
  | [], h =>
    rw [bind_error (onStack_error (h.require_short (by decide)))]
    exact .fails _
  | [_], h =>
    rw [bind_error (onStack_error (h.require_short (by simp)))]
    exact .fails _
  | b :: a :: below, h =>
    obtain ⟨stack, hcombine, hstack⟩ := combine_holds (f := fun a b => .ok (f a b)) h rfl
    rw [bind_ok (onStack_ok (h.require (by simp))), bind_ok (onStack_ok hcombine)]
    rw [hfg] at hstack
    exact .moves _ stack hstack

-- A depth comes from a word, so that one more than it is still a count.
theorem min_depth_succ (w : Word) :
    min (w.toInt.toNat + 1) Decimal.maxCount = w.toInt.toNat + 1 := by
  have hlt := w.toInt_lt
  have hmax : Decimal.maxCount = 2 ^ 64 - 1 := by decide
  omega

theorem dup_carries (h : s.machine.stack.Holds Machine.stackCapacity vs) (operand : Word) :
    Carries outlet s (Table.row operand (configOf s vs) .dup) (perform outlet operand .dup s) := by
  change Carries outlet s (if operand.toInt < 0 then _ else _) _
  rw [perform]
  unfold Word.index?
  by_cases hneg : operand.toInt < 0
  · rw [if_pos hneg, if_neg (by omega)]
    exact .fails _
  · rw [if_neg hneg, if_pos (by omega)]
    match hw : vs[operand.toInt.toNat]? with
    | none =>
      have hpeek := h.peek_none hw
      rw [min_depth_succ] at hpeek
      simp only [bind_error (onStack_error hpeek)]
      exact .fails _
    | some w =>
      simp only [bind_ok (onStack_ok (h.peek hw))]
      exact pushed_carries h w

theorem div_carries (h : s.machine.stack.Holds Machine.stackCapacity vs) (operand : Word) :
    Carries outlet s (Table.row operand (configOf s vs) .div) (perform outlet operand .div s) := by
  change Carries outlet s (if 2 ≤ vs.length ∧ vs.head? = some 0 then _ else _) _
  rw [perform]
  match vs, h with
  | [], h =>
    rw [bind_error (onStack_error (h.require_short (by decide)))]
    exact .fails _
  | [_], h =>
    rw [bind_error (onStack_error (h.require_short (by simp)))]
    exact .fails _
  | b :: a :: below, h =>
    rw [bind_ok (onStack_ok (h.require (by simp))), bind_ok (onStack_ok (h.peek rfl))]
    by_cases hzero : b = 0
    · rw [if_pos hzero, if_pos ⟨by simp, by rw [hzero]; rfl⟩]
      exact .fails _
    · have hquotient : quotient a b = .ok (a / b) := if_neg hzero
      obtain ⟨stack, hcombine, hstack⟩ := combine_holds h hquotient
      rw [if_neg hzero, if_neg (fun hd => hzero (Option.some.inj hd.2)),
        bind_ok (onStack_ok hcombine)]
      rw [div_eq_ofInt] at hstack
      exact .moves _ stack hstack

theorem jmpIf_carries (h : s.machine.stack.Holds Machine.stackCapacity vs) (operand : Word) :
    Carries outlet s (Table.row operand (configOf s vs) .jmpIf)
      (perform outlet operand .jmpIf s) := by
  rw [perform]
  match vs, h with
  | [], h =>
    rw [bind_error (onStack_error h.pop_nil)]
    exact .fails _
  | w :: below, h =>
    obtain ⟨stack, hpop, hstack⟩ := h.pop
    rw [bind_ok (onStack_ok hpop)]
    change Carries outlet s (.moves (if w = 0 then _ else _)) _
    by_cases hzero : w = 0
    · rw [if_pos hzero, if_pos hzero]
      exact .moves _ stack hstack
    · rw [if_neg hzero, if_neg hzero]
      exact .moves _ stack hstack

theorem printDebug_carries (h : s.machine.stack.Holds Machine.stackCapacity vs) (operand : Word) :
    Carries outlet s (Table.row operand (configOf s vs) .printDebug)
      (perform outlet operand .printDebug s) := by
  rw [perform]
  match vs, h with
  | [], h =>
    have hpeek := h.peek_none (show ([] : List Word)[0]? = none from rfl)
    rw [bind_error (onStack_error hpeek)]
    exact .fails _
  | w :: below, h =>
    rw [bind_ok (onStack_ok (h.peek rfl))]
    match hemit : outlet.emit w s.world with
    | (.error reason, world) =>
      have hfail : emit outlet w s = .error (.fault (.debugOutput reason)) { s with world } := by
        simp only [emit, hemit]
      rw [bind_error hfail]
      exact .rejected w _ reason world hemit
    | (.ok (), world) =>
      have hsent : emit outlet w s = .ok () { s with world } := by
        simp only [emit, hemit]
      obtain ⟨stack, hpop, hstack⟩ := h.pop
      -- the stack that was peeked at is the one that is popped: emitting changes the world only
      have hpopped := onStack_ok (s := { s with world }) hpop
      rw [bind_ok hsent, bind_ok hpopped]
      exact .accepted w _ stack world hstack hemit

/-- Every operation does what its row of the table says. -/
theorem perform_carries (h : s.machine.stack.Holds Machine.stackCapacity vs) (operand : Word)
    (op : Opcode) :
    Carries outlet s (Table.row operand (configOf s vs) op) (perform outlet operand op s) := by
  cases op with
  | nop => exact .moves _ s.machine.stack h
  | push => exact pushed_carries h operand
  | dup => exact dup_carries h operand
  | plus => exact binary_carries h add_eq_ofInt
  | minus => exact binary_carries h sub_eq_ofInt
  | mult => exact binary_carries h mul_eq_ofInt
  | div => exact div_carries h operand
  | jmp => exact .moves _ s.machine.stack h
  | eq => exact binary_carries h (g := fun a b => if a = b then 1 else 0) ofBool_beq_eq_ofInt
  | jmpIf => exact jmpIf_carries h operand
  | halt => exact .moves _ s.machine.stack h
  | printDebug => exact printDebug_carries h operand

/-! ## 4. Fetching and decoding -/

theorem index?_bind_get? (program : Program) (ip : Word) :
    ip.index?.bind program.get? = Table.recordAt? program ip := by
  unfold Word.index? Table.recordAt? Program.get? Program.size
  by_cases hneg : 0 ≤ ip.toInt
  · rw [if_pos hneg, Option.bind_some]
    by_cases hlt : ip.toInt < program.records.size
    · rw [if_pos ⟨hneg, hlt⟩]
    · rw [if_neg (fun hin => hlt hin.2)]
      exact Array.getElem?_eq_none (by omega)
  · rw [if_neg hneg, if_neg (fun hin => hneg hin.1)]
    rfl

theorem opcode?_eq_getElem? (i : Instruction) : i.opcode? = Opcode.all[i.tag.toNat]? := by
  ext op
  rw [Instruction.opcode?, Opcode.ofTag?_eq_some_iff, Table.getElem?_all_iff, UInt32.toNat_inj]

/-- Executing the record at the instruction pointer has the effect that the table prescribes for
it. -/
theorem exec_carries (outlet : Outlet ω) {s : Session ω}
    (h : s.machine.stack.Holds Machine.stackCapacity s.machine.config.stack) :
    Carries outlet s (Table.effect s.machine.program s.machine.config) (exec outlet s) := by
  unfold exec
  match hrec : Table.recordAt? s.machine.program s.machine.config.ip with
  | none =>
    have hfetch :
        fetch s = .error (.fault (.illegalAccess s.machine.ip s.machine.program.size)) s := by
      change Table.recordAt? s.machine.program s.machine.ip = none at hrec
      simp only [fetch, Machine.fetch, index?_bind_get?, hrec]
    rw [Table.effect_of_outside hrec, bind_error hfetch]
    exact .fails _
  | some i =>
    have hfetch : fetch s = .ok i s := by
      change Table.recordAt? s.machine.program s.machine.ip = some i at hrec
      simp only [fetch, Machine.fetch, index?_bind_get?, hrec]
    rw [bind_ok hfetch]
    match hop : Opcode.all[i.tag.toNat]? with
    | none =>
      have hdecode : decode i s = .error (.fault (.illegalInstruction i.tag s.machine.ip)) s := by
        simp only [decode, opcode?_eq_getElem?, hop]
      rw [Table.effect_of_unknown hrec hop, bind_error hdecode]
      exact .fails _
    | some op =>
      have hdecode : decode i s = .ok op s := by
        simp only [decode, opcode?_eq_getElem?, hop]
      rw [Table.effect_of_known hrec hop, bind_ok hdecode]
      exact perform_carries h i.operand op

end Session
end StackMachine
