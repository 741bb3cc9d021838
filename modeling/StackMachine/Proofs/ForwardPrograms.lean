import StackMachine.Proofs.FuelComposition

/-!
Programs whose jumps only lead onwards finish. The instruction pointer climbs with every step that
goes on, and a position without a record ends the run, so that there are at most as many such steps
as records, and one step behind them.
-/

namespace StackMachine

/-! ## 1. Jumps that lead onwards -/

namespace Program

/-- Every jump leads behind its own record, or to a negative position, where there is no record at
all. -/
def ForwardOnly (p : Program) : Prop :=
  ∀ (i : Nat) (h : i < p.records.size), ∀ op ∈ p.records[i].opcode?, op = .jmp ∨ op = .jmpIf →
    p.records[i].operand.toInt < 0 ∨ (i : Int) < p.records[i].operand.toInt

instance (p : Program) : Decidable p.ForwardOnly :=
  inferInstanceAs (Decidable (∀ (i : Nat) (h : i < p.records.size),
    ∀ op ∈ p.records[i].opcode?, _ → _))

variable {p : Program} {ip : Word} {i : Instruction} {op : Opcode}

theorem isJump_of_operandKind (h : op.operandKind = some .address) : op = .jmp ∨ op = .jmpIf := by
  cases op with
  | jmp => exact .inl rfl
  | jmpIf => exact .inr rfl
  | nop | push | dup | plus | minus | mult | div | eq | halt | printDebug => cases h

theorem ForwardOnly.target (hp : p.ForwardOnly) (hrec : Table.recordAt? p ip = some i)
    (hop : i.opcode? = some op) (hkind : op.operandKind = some .address) :
    i.operand.toInt < 0 ∨ ip.toInt < i.operand.toInt := by
  obtain ⟨-, hin⟩ := mem_of_recordAt? hrec
  rw [Table.recordAt?, if_pos hin] at hrec
  obtain ⟨hlt, rfl⟩ := Array.getElem?_eq_some_iff.1 hrec
  have htarget := hp ip.toInt.toNat hlt op hop (isJump_of_operandKind hkind)
  rw [Int.toNat_of_nonneg hin.1] at htarget
  exact htarget

/-- A move that does not halt starts from a record, and it leads onwards or out of the program. -/
theorem ForwardOnly.climbs (hp : p.ForwardOnly) {c next : Table.Config}
    (hhalted : next.halted = false)
    (h : Table.effect p c = .moves next ∨ ∃ w, Table.effect p c = .prints w next) :
    (0 ≤ c.ip.toInt ∧ c.ip.toInt < p.size) ∧ (next.ip.toInt < 0 ∨ c.ip.toInt < next.ip.toInt) := by
  obtain ⟨-, he⟩ | ⟨i, -, -, he⟩ | ⟨i, op, hrec, hop, hleads⟩ := Table.effect_leads p c
  -- without a known record there is a failure, and no move
  · rw [he] at h
    obtain h | ⟨w, h⟩ := h <;> cases h
  · rw [he] at h
    obtain h | ⟨w, h⟩ := h <;> cases h
  · obtain ⟨-, hin⟩ := mem_of_recordAt? hrec
    refine ⟨hin, ?_⟩
    have hnext : Table.Leads op i.operand c.ip next.ip := by
      obtain h | ⟨w, h⟩ := h
      · rw [h] at hleads
        exact hleads
      · rw [h] at hleads
        exact hleads
    obtain hstep | ⟨hkind, hjump⟩ | ⟨rfl, -⟩ := hnext
    · have hsucc := toInt_next hin
      rw [hstep]
      exact .inr (by omega)
    · rw [hjump]
      exact hp.target hrec hop hkind
    · -- a halt sets the flag
      rw [Table.effect_of_known hrec ((Session.opcode?_eq_getElem? i).symm.trans hop)] at h
      obtain h | ⟨w, h⟩ := h <;> cases h
      cases hhalted

end Program

/-! ## 2. The instruction pointer climbs -/

namespace Session

variable {ω : Type} {s : Session ω} (outlet : Outlet ω)

theorem ip_of_goesOn (hp : s.machine.program.ForwardOnly) (hfits : s.machine.Fits)
    (hgo : s.machine.outcome = none) (h : GoesOn outlet s) :
    (0 ≤ s.machine.ip.toInt ∧ s.machine.ip.toInt < s.machine.program.size) ∧
      ((after outlet s .step).machine.ip.toInt < 0 ∨
        s.machine.ip.toInt < (after outlet s .step).machine.ip.toInt) := by
  obtain ⟨t, hstep, hhalted⟩ := h
  rw [after_step_of_ok outlet hstep]
  obtain ⟨c, stack, world, hpasses, -, rfl⟩ := passes_of_step outlet hfits hgo hstep
  exact hp.climbs (c := s.machine.config) hhalted hpasses.effect_eq

theorem program_stepped (s : Session ω) (n : Nat) :
    (stepped outlet s n).machine.program = s.machine.program := by
  induction n with
  | zero => rfl
  | succ n ih => rw [stepped_succ, program_of_after_step, ih]

variable {p : Program} (world : ω)

theorem climbs_of_goesOn (hp : p.ForwardOnly) {n : Nat}
    (hsteps : ∀ i < n + 1, GoesOn outlet (stepped outlet (boot p world) i)) :
    (0 ≤ (stepped outlet (boot p world) n).machine.ip.toInt ∧
        (stepped outlet (boot p world) n).machine.ip.toInt < p.size) ∧
      ((stepped outlet (boot p world) (n + 1)).machine.ip.toInt < 0 ∨
        (stepped outlet (boot p world) n).machine.ip.toInt <
          (stepped outlet (boot p world) (n + 1)).machine.ip.toInt) := by
  have hprogram : (stepped outlet (boot p world) n).machine.program = p :=
    program_stepped outlet (boot p world) n
  have hfits : (stepped outlet (boot p world) n).machine.Fits :=
    fits_stepped outlet (Machine.fits_boot p) n
  have hgo : (stepped outlet (boot p world) n).machine.outcome = none :=
    outcome_stepped outlet rfl fun i hi => hsteps i (by omega)
  have hclimbs := ip_of_goesOn outlet (by rw [hprogram]; exact hp) hfits hgo (hsteps n (by omega))
  rw [hprogram] at hclimbs
  rw [stepped_succ]
  exact hclimbs

/-- After `n` steps that go on, the instruction pointer has climbed to `n` at least, unless it has
left the program. -/
theorem le_ip_of_goesOn (hp : p.ForwardOnly) {n : Nat}
    (hsteps : ∀ i < n, GoesOn outlet (stepped outlet (boot p world) i)) :
    (n : Int) ≤ (stepped outlet (boot p world) n).machine.ip.toInt ∨
      (stepped outlet (boot p world) n).machine.ip.toInt < 0 := by
  induction n with
  | zero => exact .inl (Int.le_refl 0)
  | succ n ih =>
    have hreached := ih fun i hi => hsteps i (by omega)
    have hclimbs := climbs_of_goesOn outlet world hp hsteps
    omega

theorem le_size_of_goesOn (hp : p.ForwardOnly) {n : Nat}
    (hsteps : ∀ i < n, GoesOn outlet (stepped outlet (boot p world) i)) : n ≤ p.size := by
  cases n with
  | zero => exact Nat.zero_le _
  | succ n =>
    -- the last of the steps has started from a record
    have hreached := le_ip_of_goesOn outlet world hp (n := n) fun i hi => hsteps i (by omega)
    have hclimbs := climbs_of_goesOn outlet world hp hsteps
    omega

/-! ## 3. Runs -/

/-- A program whose jumps only lead onwards finishes, for every outlet. There is a first step that
halts or fails, it is one of the first `size + 1` steps, and with fuel for these a run answers and
leaves what this step does: it halts or ends with a fault of the engine, and it is never cut
short. -/
theorem forward_run_finishes (p : Program) (hp : p.ForwardOnly) (world : ω) (fuel : Nat)
    (hfuel : p.size + 1 ≤ fuel) :
    ∃ k ≤ p.size + 1, FirstEnd outlet (boot p world) k ∧
      run outlet fuel (boot p world) = nthStep outlet (boot p world) k ∧
      ¬ RanOut (run outlet fuel (boot p world)) ∧
      ((∃ t, run outlet fuel (boot p world) = .ok () t) ∨
        ∃ cause t, run outlet fuel (boot p world) = .error (.fault cause) t ∧
          cause.isEngineFault = true) := by
  have hfits : (boot p world).machine.Fits := Machine.fits_boot p
  obtain ⟨n, hn, hsteps, hend⟩ | hsteps := run_cases outlet (boot p world) (p.size + 1)
  · have hrun := run_of_endsAt outlet rfl hsteps (show n < fuel by omega) hend
    refine ⟨n + 1, hn, (firstEnd_iff outlet).2 ⟨hsteps, hend⟩, hrun, ?_, ?_⟩
    · rw [hrun]
      exact not_ranOut_nthStep outlet hfits rfl hsteps
    · rw [hrun]
      obtain ⟨t, hstep, -⟩ | ⟨e, t, hstep⟩ := hend
      · exact .inl ⟨t, hstep⟩
      · obtain ⟨cause, rfl, hengine⟩ :=
          isEngineFault_of_step outlet (fits_stepped outlet hfits n)
            (outcome_stepped outlet rfl hsteps) hstep
        exact .inr ⟨cause, t, hstep, hengine⟩
  · have hle := le_size_of_goesOn outlet world hp hsteps
    omega

/-- The bound is met: a jump that is not taken, and no halt at the end. Three steps go on, the
fourth one finds no record. -/
theorem forward_run_finishes_off_end :
    let p : Program := ⟨#[.of .push 0, .of .jmpIf (-1), .bare .nop], by decide⟩
    let outlet : Outlet (List Word) := ⟨fun w printed => (.ok (), printed ++ [w])⟩
    p.ForwardOnly ∧ RanOut (run outlet 3 (boot p [])) ∧
      ∃ k ≤ 4, FirstEnd outlet (boot p []) k ∧
        run outlet 4 (boot p []) = nthStep outlet (boot p []) k ∧
        (answered (run outlet 4 (boot p []))).1 = .error (.fault (.illegalAccess 3 3)) := by
  intro p outlet
  have hp : p.ForwardOnly := by decide
  have hcut : RanOut (run outlet 3 (boot p [])) :=
    ranOut_of_answered (show _ = Except.error (Trap.fault (.budgetExceeded 3)) by decide +kernel)
  obtain ⟨k, hk, hfirst, hrun, -, -⟩ := forward_run_finishes outlet p hp [] 4 (by decide)
  exact ⟨hp, hcut, k, hk, hfirst, hrun, by decide +kernel⟩

end Session
end StackMachine
