import StackMachine.Proofs.StepRefinement

/-!
Runs transferred to another program and another world.

An operation reads neither the program nor the world: only the fetch looks at the program, and only
the outlet and the observer act on the world. So a run can be replayed with another program, as long
as the records that it fetches are used alike, and in another world, as long as that world follows
the first one.
-/

namespace StackMachine

/-- The records agree in all that is used of them: the tag, and the operand if the tag names an
operation with one. -/
def Instruction.SameUse (i j : Instruction) : Prop :=
  i.tag = j.tag ∧ ∀ op ∈ i.opcode?, op.takesOperand = true → i.operand = j.operand

instance (i j : Instruction) : Decidable (i.SameUse j) :=
  inferInstanceAs (Decidable (_ ∧ ∀ op ∈ i.opcode?, _))

theorem Instruction.SameUse.refl (i : Instruction) : i.SameUse i := ⟨rfl, fun _ _ _ => rfl⟩

namespace Table

/-- The records at a position are used alike, if both programs have one there. -/
def Agree (p q : Program) (ip : Word) : Prop :=
  ∀ i ∈ recordAt? p ip, ∀ j ∈ recordAt? q ip, i.SameUse j

instance (p q : Program) (ip : Word) : Decidable (Agree p q ip) :=
  inferInstanceAs (Decidable (∀ i ∈ recordAt? p ip, ∀ j ∈ recordAt? q ip, i.SameUse j))

theorem Agree.refl (p : Program) (ip : Word) : Agree p p ip := by
  intro i hi j hj
  cases hi.symm.trans hj
  exact .refl i

theorem recordAt?_eq_none_iff {p q : Program} (hsize : p.size = q.size) (ip : Word) :
    recordAt? p ip = none ↔ recordAt? q ip = none := by
  unfold recordAt?
  rw [← hsize]
  split
  · rw [Array.getElem?_eq_none_iff, Array.getElem?_eq_none_iff]
    exact iff_of_eq (congrArg (· ≤ ip.toInt.toNat) hsize)
  · rfl

end Table

namespace Session

variable {ω ω' α β : Type}

/-! ## 1. Sessions and computations -/

def transfer (q : Program) (g : ω → ω') (s : Session ω) : Session ω' :=
  ⟨{ s.machine with program := q }, g s.world⟩

def transferred (q : Program) (g : ω → ω') :
    EStateM.Result Trap (Session ω) α → EStateM.Result Trap (Session ω') α
  | .ok a s => .ok a (s.transfer q g)
  | .error e s => .error e (s.transfer q g)

/-- `act'` does to a transferred session what `act` does to the session. -/
def Transfers (q : Program) (g : ω → ω') (act : Action ω α) (act' : Action ω' α) : Prop :=
  ∀ s, act' (s.transfer q g) = transferred q g (act s)

/-- Both outlets give the same answer, and leave worlds that again follow each other. -/
def Follows (g : ω → ω') (outlet : Outlet ω) (outlet' : Outlet ω') : Prop :=
  ∀ w world, outlet'.emit w (g world) = ((outlet.emit w world).1, g (outlet.emit w world).2)

variable {q : Program} {g : ω → ω'}

theorem Transfers.bind {act : Action ω α} {act' : Action ω' α} {next : α → Action ω β}
    {next' : α → Action ω' β} (h : Transfers q g act act')
    (hnext : ∀ a, Transfers q g (next a) (next' a)) :
    Transfers q g (act >>= next) (act' >>= next') := by
  intro s
  have hs := h s
  cases hact : act s with
  | ok a t =>
    rw [hact] at hs
    rw [bind_ok hact, bind_ok hs]
    exact hnext a t
  | error e t =>
    rw [hact] at hs
    rw [bind_error hact, bind_error hs]
    rfl

theorem transfers_fail (cause : Fault) : Transfers q g (fail cause : Action ω α) (fail cause) :=
  fun _ => rfl

theorem transfers_advance : Transfers q g advance advance := fun _ => rfl

theorem transfers_jump (target : Word) : Transfers q g (jump target) (jump target) := fun _ => rfl

theorem transfers_setHalted : Transfers q g setHalted setHalted := fun _ => rfl

theorem transfers_onStack (act : Stack.Action α) : Transfers q g (onStack act) (onStack act) := by
  rintro ⟨⟨program, stack, ip, halted, state, exhausted⟩, world⟩
  cases hact : act stack <;> simp only [onStack, transfer, transferred, hact]

theorem transfers_emit {outlet : Outlet ω} {outlet' : Outlet ω'} (hg : Follows g outlet outlet')
    (w : Word) :
    Transfers q g (emit outlet w) (emit outlet' w) := by
  intro s
  have hs : outlet'.emit w (s.transfer q g).world = _ := hg w s.world
  unfold emit
  rw [hs]
  obtain ⟨answer, world⟩ := outlet.emit w s.world
  cases answer <;> rfl

/-! ## 2. Steps -/

theorem fetch_of_none {s : Session ω} (h : Table.recordAt? s.machine.program s.machine.ip = none) :
    fetch s = .error (.fault (.illegalAccess s.machine.ip s.machine.program.size)) s := by
  simp only [fetch, Machine.fetch, index?_bind_get?, h]

theorem fetch_of_some {s : Session ω} {i : Instruction}
    (h : Table.recordAt? s.machine.program s.machine.ip = some i) :
    fetch s = .ok i s := by
  simp only [fetch, Machine.fetch, index?_bind_get?, h]

theorem decode_of_none {s : Session ω} {i : Instruction} (h : i.opcode? = none) :
    decode i s = .error (.fault (.illegalInstruction i.tag s.machine.ip)) s := by
  simp only [decode, h]

theorem decode_of_some {s : Session ω} {i : Instruction} {op : Opcode} (h : i.opcode? = some op) :
    decode i s = .ok op s := by
  simp only [decode, h]

theorem transfers_binary (f : Word → Word → Word) : Transfers q g (binary f) (binary f) :=
  (transfers_onStack _).bind fun _ => (transfers_onStack _).bind fun _ => transfers_advance

variable {outlet : Outlet ω} {outlet' : Outlet ω'}

theorem transfers_perform (hg : Follows g outlet outlet') (operand : Word) (op : Opcode) :
    Transfers q g (perform outlet operand op) (perform outlet' operand op) := by
  cases op with
  | nop => exact transfers_advance
  | push => exact (transfers_onStack _).bind fun _ => transfers_advance
  | dup =>
    unfold perform
    cases operand.index? with
    | none => exact transfers_fail _
    | some depth =>
      exact (transfers_onStack _).bind fun w => (transfers_onStack _).bind fun _ =>
        transfers_advance
  | plus => exact transfers_binary _
  | minus => exact transfers_binary _
  | mult => exact transfers_binary _
  | div =>
    apply (transfers_onStack _).bind
    intro _
    apply (transfers_onStack _).bind
    intro divisor
    by_cases hzero : divisor = 0
    · simp only [hzero, if_true]
      exact transfers_fail _
    · simp only [hzero, if_false]
      exact (transfers_onStack _).bind fun _ => transfers_advance
  | jmp => exact transfers_jump operand
  | eq => exact transfers_binary _
  | jmpIf =>
    apply (transfers_onStack _).bind
    intro condition
    by_cases hzero : condition = 0
    · simp only [hzero, if_true]
      exact transfers_advance
    · simp only [hzero, if_false]
      exact transfers_jump operand
  | halt => exact transfers_setHalted
  | printDebug =>
    exact (transfers_onStack _).bind fun w => (transfers_emit hg w).bind fun _ =>
      (transfers_onStack _).bind fun _ => transfers_advance

/-- An operation without an operand does not look at the operand of its record. -/
theorem perform_eq_of_takesOperand_eq_false {op : Opcode} (hop : op.takesOperand = false)
    (w w' : Word) :
    perform outlet w op = perform outlet w' op := by
  cases op with
  | push | dup | jmp | jmpIf => cases hop
  | nop | plus | minus | mult | div | eq | halt | printDebug => rfl

theorem perform_eq_of_sameUse {i j : Instruction} {op : Opcode} (h : i.SameUse j)
    (hop : i.opcode? = some op) :
    perform outlet i.operand op = perform outlet j.operand op := by
  cases htakes : op.takesOperand with
  | false => exact perform_eq_of_takesOperand_eq_false htakes _ _
  | true => rw [h.2 op hop htakes]

/-- The execution of a record transfers to a program whose record is used alike. -/
theorem exec_transfer (hg : Follows g outlet outlet') {s : Session ω}
    (hsize : s.machine.program.size = q.size)
    (hsame : Table.Agree s.machine.program q s.machine.ip) :
    exec outlet' (s.transfer q g) = transferred q g (exec outlet s) := by
  unfold exec
  cases hp : Table.recordAt? s.machine.program s.machine.ip with
  | none =>
    have hq := (Table.recordAt?_eq_none_iff hsize s.machine.ip).1 hp
    have hfetch :
        fetch s = .error (.fault (.illegalAccess s.machine.ip s.machine.program.size)) s :=
      fetch_of_none hp
    have hfetch' : fetch (s.transfer q g) =
        .error (.fault (.illegalAccess s.machine.ip q.size)) (s.transfer q g) :=
      fetch_of_none hq
    rw [bind_error hfetch, bind_error hfetch', hsize]
    rfl
  | some i =>
    obtain ⟨j, hq⟩ : ∃ j, Table.recordAt? q s.machine.ip = some j := by
      rw [← Option.ne_none_iff_exists', Ne, ← Table.recordAt?_eq_none_iff hsize, hp]
      nofun
    have huse := hsame i hp j hq
    rw [bind_ok (fetch_of_some hp),
      bind_ok (show fetch (s.transfer q g) = .ok j _ from fetch_of_some hq)]
    have hopcode : j.opcode? = i.opcode? := by rw [Instruction.opcode?, Instruction.opcode?, huse.1]
    cases hop : i.opcode? with
    | none =>
      rw [hop] at hopcode
      rw [bind_error (decode_of_none hop), bind_error (decode_of_none hopcode), huse.1]
      rfl
    | some op =>
      rw [hop] at hopcode
      rw [bind_ok (decode_of_some hop), bind_ok (decode_of_some hopcode),
        ← perform_eq_of_sameUse huse hop]
      exact transfers_perform hg i.operand op s

theorem settle_transferred (r : EStateM.Result Trap (Session ω) Unit) :
    settle (transferred q g r) = transferred q g (settle r) := by
  match r with
  | .ok () s => rfl
  | .error (.fault cause) s => rfl
  | .error (.breach cause) s => rfl

theorem step_transfer (hg : Follows g outlet outlet') {s : Session ω}
    (hsize : s.machine.program.size = q.size)
    (hsame : Table.Agree s.machine.program q s.machine.ip) :
    step outlet' (s.transfer q g) = transferred q g (step outlet s) := by
  have houtcome : (s.transfer q g).machine.outcome = s.machine.outcome := rfl
  cases hoc : s.machine.outcome with
  | none =>
    rw [step_of_going outlet hoc, step_of_going outlet' (houtcome.trans hoc),
      exec_transfer hg hsize hsame, settle_transferred]
  | some r =>
    unfold step
    rw [houtcome, hoc]
    match r with
    | .ok () => rfl
    | .error cause => rfl

/-- A step keeps the program: it transfers to the program that is there. -/
theorem program_of_step {s t : Session ω} (h : step outlet s = .ok () t) :
    t.machine.program = s.machine.program := by
  have hid : Follows id outlet outlet := fun _ _ => rfl
  have hback := step_transfer hid (q := s.machine.program) rfl (.refl _ _)
  change step outlet s = _ at hback
  rw [h] at hback
  injection hback with _ ht
  have hprogram := congrArg (fun u : Session ω => u.machine.program) ht
  exact hprogram

/-! ## 3. Runs -/

variable {p : Program} {observe : Machine → ω → ω} {observe' : Machine → ω' → ω'}

/-- The position from which step number `n` of a run fetches, counted from zero. There is none if
the run is over before. -/
def fetchedAt? (outlet : Outlet ω) (observe : Machine → ω → ω) (s : Session ω) (n : Nat) :
    Option Word :=
  match advanceBy outlet observe n s with
  | .ok false t => some t.machine.ip
  | _ => none

theorem advanceBy_of_step {s t : Session ω} (hstep : step outlet s = .ok () t)
    (hgo : t.machine.halted = false) (n : Nat) :
    advanceBy outlet observe (n + 1) s =
      advanceBy outlet observe n { t with world := observe t.machine t.world } := by
  simp only [advanceBy, hstep, hgo, Bool.false_eq_true, if_false]

theorem fetchedAt?_succ {s t : Session ω} (hstep : step outlet s = .ok () t)
    (hgo : t.machine.halted = false) (n : Nat) :
    fetchedAt? outlet observe s (n + 1) =
      fetchedAt? outlet observe { t with world := observe t.machine t.world } n := by
  unfold fetchedAt?
  rw [advanceBy_of_step hstep hgo]

theorem advanceBy_transfer (hg : Follows g outlet outlet') (hsize : p.size = q.size)
    (hobserve :
      ∀ m world, m.program = p → observe' { m with program := q } (g world) = g (observe m world))
    (fuel : Nat) {s : Session ω} (hp : s.machine.program = p)
    (hsame : ∀ n < fuel, ∀ ip ∈ fetchedAt? outlet observe s n, Table.Agree p q ip) :
    advanceBy outlet' observe' fuel (s.transfer q g) =
      transferred q g (advanceBy outlet observe fuel s) := by
  induction fuel generalizing s with
  | zero => rfl
  | succ fuel ih =>
    have hfirst := hsame 0 fuel.succ_pos s.machine.ip rfl
    rw [← hp] at hsize hfirst
    have hstep := step_transfer hg hsize hfirst
    cases hs : step outlet s with
    | error e t =>
      rw [hs] at hstep
      simp only [advanceBy, hs, hstep, transferred]
    | ok a t =>
      rw [hs] at hstep
      have hprogram : t.machine.program = p := (program_of_step hs).trans hp
      have hseen : observe' (t.transfer q g).machine (t.transfer q g).world =
          g (observe t.machine t.world) :=
        hobserve t.machine t.world hprogram
      cases hhalted : t.machine.halted with
      | true =>
        have hhalted' : (t.transfer q g).machine.halted = true := hhalted
        simp only [advanceBy, hs, hstep, hhalted, hhalted', hseen, transferred, if_true]
        rfl
      | false =>
        rw [advanceBy_of_step hs hhalted, advanceBy_of_step hstep hhalted, hseen]
        apply ih (s := { t with world := observe t.machine t.world }) hprogram
        intro n hn ip hip
        rw [← fetchedAt?_succ hs hhalted] at hip
        exact hsame (n + 1) (Nat.succ_lt_succ hn) ip hip

/-- A run transfers to a program of the same size whose records are used alike wherever the run
fetches, and to a world that outlet and observer keep up with. -/
theorem runObserved_transfer (hg : Follows g outlet outlet') (hsize : p.size = q.size)
    (hobserve :
      ∀ m world, m.program = p → observe' { m with program := q } (g world) = g (observe m world))
    (fuel : Nat) {s : Session ω} (hp : s.machine.program = p)
    (hsame : ∀ n < fuel, ∀ ip ∈ fetchedAt? outlet observe s n, Table.Agree p q ip) :
    runObserved outlet' observe' fuel (s.transfer q g) =
      transferred q g (runObserved outlet observe fuel s) := by
  have houtcome : (s.transfer q g).machine.outcome = s.machine.outcome := rfl
  unfold runObserved
  rw [houtcome, advanceBy_transfer hg hsize hobserve fuel hp hsame]
  match s.machine.outcome with
  | some (.ok ()) => rfl
  | some (.error cause) => rfl
  | none =>
    match advanceBy outlet observe fuel s with
    | .ok true t => rfl
    | .ok false t => rfl
    | .error e t => rfl

/-- A run from the start, in a world that follows another one. -/
theorem runObserved_boot (hg : Follows g outlet outlet')
    (hobserve : ∀ m world, observe' m (g world) = g (observe m world)) (fuel : Nat) (p : Program)
    (world : ω) :
    runObserved outlet' observe' fuel (boot p (g world)) =
      transferred p g (runObserved outlet observe fuel (boot p world)) := by
  have hkept (m : Machine) (world : ω) (hm : m.program = p) :
      observe' { m with program := p } (g world) = g (observe m world) := by
    rw [← hm]
    exact hobserve m world
  exact runObserved_transfer hg rfl hkept fuel (s := boot p world) rfl fun _ _ ip _ => .refl p ip

end Session
end StackMachine
