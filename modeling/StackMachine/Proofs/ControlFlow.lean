import StackMachine.Proofs.Absorption

/-!
Where a record leads: to the next one, or to the operand of a jump, and nowhere else.

A program whose jumps lead to its own records, or right behind the last one, is never left in any
other way: the instruction pointer of a machine that runs it stays between zero and the size of the
program.
-/

namespace StackMachine

/-! ## 1. Rows of the table -/

/-- The faults of a fetch: there is no record, or its tag names no operation. -/
def Fault.isFetchFault : Fault → Bool
  | illegalInstruction .. => true
  | illegalAccess .. => true
  | _ => false

namespace Table

/-- An operation leads from `ip` to `next`. -/
def Leads (op : Opcode) (operand ip next : Word) : Prop :=
  next = ip + 1 ∨ (op.operandKind = some .address ∧ next = operand) ∨ (op = .halt ∧ next = ip)

/-- What a row may do to the instruction pointer, and how it may fail. -/
def Effect.Leads (op : Opcode) (operand ip : Word) : Effect → Prop
  | .fails cause => cause.isFetchFault = false
  | .moves next => Table.Leads op operand ip next.ip
  | .prints _ next => Table.Leads op operand ip next.ip

variable {op : Opcode} {operand : Word}

theorem pushed_leads (w : Word) (c : Config) : (pushed w c).Leads op operand c.ip := by
  unfold pushed
  split
  · exact .inl rfl
  · rfl

theorem combined_leads (f : Int → Int → Int) (c : Config) :
    (combined f c).Leads op operand c.ip := by
  unfold combined
  split
  · exact .inl rfl
  · rfl

theorem row_leads (operand : Word) (c : Config) (op : Opcode) :
    (row operand c op).Leads op operand c.ip := by
  cases op with
  | nop => exact .inl rfl
  | push => exact pushed_leads operand c
  | dup =>
    rw [row]
    split
    · rfl
    · split
      · rfl
      · exact pushed_leads _ c
  | plus => exact combined_leads _ c
  | minus => exact combined_leads _ c
  | mult => exact combined_leads _ c
  | div =>
    rw [row]
    split
    · rfl
    · exact combined_leads _ c
  | jmp => exact .inr (.inl ⟨rfl, rfl⟩)
  | eq => exact combined_leads (fun a b => if a = b then 1 else 0) c
  | jmpIf =>
    rw [row]
    split
    · rfl
    · split
      · exact .inl rfl
      · exact .inr (.inl ⟨rfl, rfl⟩)
  | halt => exact .inr (.inr ⟨rfl, rfl⟩)
  | printDebug =>
    rw [row]
    split
    · rfl
    · exact .inl rfl

theorem effect_leads (program : Program) (c : Config) :
    (recordAt? program c.ip = none ∧ effect program c = .fails (.illegalAccess c.ip program.size)) ∨
      (∃ i, recordAt? program c.ip = some i ∧ i.opcode? = none ∧
        effect program c = .fails (.illegalInstruction i.tag c.ip)) ∨
      ∃ i op, recordAt? program c.ip = some i ∧ i.opcode? = some op ∧
        (effect program c).Leads op i.operand c.ip := by
  cases hrec : recordAt? program c.ip with
  | none => exact .inl ⟨rfl, effect_of_outside hrec⟩
  | some i =>
    have hplace := Session.opcode?_eq_getElem? i
    cases hop : i.opcode? with
    | none => exact .inr (.inl ⟨i, rfl, hop, effect_of_unknown hrec (hplace.symm.trans hop)⟩)
    | some op =>
      refine .inr (.inr ⟨i, op, rfl, hop, ?_⟩)
      rw [effect_of_known hrec (hplace.symm.trans hop)]
      exact row_leads i.operand c op

end Table

/-! ## 2. Programs that are not left by jumps -/

namespace Program

/-- Every tag names an operation. -/
def Legal (p : Program) : Prop := ∀ i ∈ p.records, ∃ op : Opcode, op.tag = i.tag

/-- The position is that of a record, or the one right behind the last record. -/
def Covers (p : Program) (ip : Word) : Prop := 0 ≤ ip.toInt ∧ ip.toInt ≤ p.size

def JumpsInside (p : Program) : Prop :=
  ∀ i ∈ p.records, ∀ op ∈ i.opcode?, op.operandKind = some .address → p.Covers i.operand

variable {p : Program} {ip next : Word} {i : Instruction}

theorem covers_zero (p : Program) : p.Covers 0 := ⟨Int.le_refl 0, Int.natCast_nonneg p.size⟩

theorem mem_of_recordAt? (h : Table.recordAt? p ip = some i) :
    i ∈ p.records ∧ 0 ≤ ip.toInt ∧ ip.toInt < p.size := by
  unfold Table.recordAt? at h
  split at h
  · next hin => exact ⟨Array.mem_of_getElem? h, hin⟩
  · cases h

theorem eq_size_of_recordAt?_eq_none (hcovers : p.Covers ip) (h : Table.recordAt? p ip = none) :
    ip.toInt = p.size := by
  by_contra hne
  have hin : 0 ≤ ip.toInt ∧ ip.toInt < p.size := ⟨hcovers.1, by have := hcovers.2; omega⟩
  rw [Table.recordAt?, if_pos hin, Array.getElem?_eq_none_iff] at h
  have hlt := hin.2
  change ip.toInt < (p.records.size : Int) at hlt
  omega

-- A program is far smaller than the largest word, so that the next position does not wrap.
theorem toInt_next (h : 0 ≤ ip.toInt ∧ ip.toInt < p.size) : (ip + 1).toInt = ip.toInt + 1 := by
  have hsize : p.size ≤ 1024 := p.size_le
  have hone : (1 : Word).toInt = 1 := rfl
  rw [Int64.toInt_add, hone]
  apply Int.bmod_eq_of_le <;> omega

theorem covers_of_leads {op : Opcode} (hp : p.JumpsInside) (hrec : Table.recordAt? p ip = some i)
    (hop : i.opcode? = some op) (h : Table.Leads op i.operand ip next) : p.Covers next := by
  obtain ⟨hmem, hin⟩ := mem_of_recordAt? hrec
  obtain rfl | ⟨hkind, rfl⟩ | ⟨-, rfl⟩ := h
  · have hnext := toInt_next hin
    exact ⟨by omega, by omega⟩
  · exact hp i hmem op hop hkind
  · exact ⟨hin.1, Int.le_of_lt hin.2⟩

variable {c next : Table.Config}

theorem covers_of_effect (hp : p.JumpsInside)
    (h : Table.effect p c = .moves next ∨ ∃ w, Table.effect p c = .prints w next) :
    p.Covers next.ip := by
  obtain ⟨-, he⟩ | ⟨i, -, -, he⟩ | ⟨i, op, hrec, hop, he⟩ := Table.effect_leads p c
  -- without a known record there is a failure, and no move
  · rw [he] at h
    obtain h | ⟨w, h⟩ := h <;> cases h
  · rw [he] at h
    obtain h | ⟨w, h⟩ := h <;> cases h
  · obtain h | ⟨w, h⟩ := h
    · rw [h] at he
      exact covers_of_leads hp hrec hop he
    · rw [h] at he
      exact covers_of_leads hp hrec hop he

theorem effect_ne_illegalInstruction (hp : p.Legal) (tag : UInt32) (ip : Word) :
    Table.effect p c ≠ .fails (.illegalInstruction tag ip) := by
  intro h
  obtain ⟨-, he⟩ | ⟨i, hrec, hop, -⟩ | ⟨i, op, -, -, he⟩ := Table.effect_leads p c
  · rw [he] at h
    cases h
  · obtain ⟨op, htag⟩ := hp i (mem_of_recordAt? hrec).1
    rw [Instruction.opcode?, ← htag, Opcode.ofTag?_tag] at hop
    cases hop
  · rw [h] at he
    cases he

theorem eq_size_of_effect {ip : Word} {n : Nat}
    (h : Table.effect p c = .fails (.illegalAccess ip n)) (hcovers : p.Covers c.ip) :
    ip = c.ip ∧ ip.toInt = p.size ∧ n = p.size := by
  obtain ⟨hrec, he⟩ | ⟨i, -, -, he⟩ | ⟨i, op, -, -, he⟩ := Table.effect_leads p c
  · cases h.symm.trans he
    exact ⟨rfl, eq_size_of_recordAt?_eq_none hcovers hrec, rfl⟩
  · cases h.symm.trans he
  · rw [h] at he
    cases he

end Program

theorem Machine.Coherent.effect_of_outcome {m : Machine} (h : m.Coherent) {cause : Fault}
    (hout : m.outcome = some (.error cause)) (hcause : cause.isFetchFault = true) :
    Table.effect m.program m.config = .fails cause := by
  cases hstate : m.state with
  | ready | running | halted =>
    rw [outcome, hstate] at hout
    cases hout
  | outOfBudget =>
    rw [outcome, hstate] at hout
    cases hout
    cases hcause
  | failed cause' =>
    rw [outcome, hstate] at hout
    cases hout
    obtain ⟨-, -, ⟨reason, rfl, -⟩ | heffect⟩ := h.failed cause hstate
    -- a refused value is no fault of a fetch
    · cases hcause
    · exact heffect

namespace Session

variable {ω α : Type} (outlet : Outlet ω)

/-! ## 3. Runs keep what steps keep -/

/-- The session that a computation leaves. -/
def leftBy : EStateM.Result Trap (Session ω) α → Session ω
  | .ok _ s => s
  | .error _ s => s

theorem outcome_of_step {s t : Session ω} (hgo : s.machine.outcome = none)
    (h : step outlet s = .ok () t) (hhalted : t.machine.halted = false) :
    t.machine.outcome = none := by
  rw [step_of_going outlet hgo] at h
  generalize exec outlet s = result at h
  cases result with
  | ok a u =>
    cases h
    change u.machine.halted = false at hhalted
    simp only [setState, Machine.outcome, hhalted, Bool.false_eq_true, if_false]
  | error e u => cases e <;> cases h

variable {P : Session ω → Prop} {observe : Machine → ω → ω}

theorem advanceBy_keeps (hstep : ∀ s, P s → s.machine.outcome = none → P (leftBy (step outlet s)))
    (hobserve : ∀ s, P s → P { s with world := observe s.machine s.world }) (fuel : Nat)
    {s : Session ω} (h : P s) (hgo : s.machine.outcome = none) :
    P (leftBy (advanceBy outlet observe fuel s)) := by
  induction fuel generalizing s with
  | zero => exact h
  | succ fuel ih =>
    have hnext := hstep s h hgo
    unfold advanceBy
    cases hs : step outlet s with
    | error e t =>
      rw [hs] at hnext
      exact hnext
    | ok a t =>
      rw [hs] at hnext
      have hseen := hobserve t hnext
      cases hhalted : t.machine.halted with
      | true =>
        simp only [hhalted, if_true]
        exact hseen
      | false =>
        -- the observer has not touched the machine, so that it can still go on
        have hgoing := outcome_of_step outlet hgo hs hhalted
        simp only [hhalted, Bool.false_eq_true, if_false]
        exact ih hseen hgoing

/-- What a step, an observation and the end of the budget keep, a run keeps. -/
theorem runObserved_keeps (hstep : ∀ s, P s → s.machine.outcome = none → P (leftBy (step outlet s)))
    (hobserve : ∀ s, P s → P { s with world := observe s.machine s.world })
    (hexhaust : ∀ s fuel, P s → P (s.exhaust fuel)) (fuel : Nat) {s : Session ω} (h : P s) :
    P (leftBy (runObserved outlet observe fuel s)) := by
  unfold runObserved
  cases hoc : s.machine.outcome with
  | some r => cases r <;> exact h
  | none =>
    have hleft := advanceBy_keeps outlet hstep hobserve fuel h hoc
    cases ha : advanceBy outlet observe fuel s with
    | error e t =>
      rw [ha] at hleft
      exact hleft
    | ok halted t =>
      rw [ha] at hleft
      cases halted with
      | true => exact hleft
      | false => exact hexhaust t fuel hleft

theorem leftBy_eq_answered (result : EStateM.Result Trap (Session ω) Unit) :
    leftBy result = (answered result).2 := by
  cases result <;> rfl

/-! ## 4. The instruction pointer -/

variable {p : Program}

/-- The machine holds `p`. If the jumps of `p` lead inside, then it has stayed inside, as have all
the machines that were shown to an observer. -/
structure Inside (p : Program) (s : Session (ω × List Event)) : Prop where
  fits : s.machine.Fits
  program_eq : s.machine.program = p
  covers : p.JumpsInside → p.Covers s.machine.ip
  watched : p.JumpsInside → ∀ seen, .watched seen ∈ s.world.2 → p.Covers seen.ip

variable {s : Session (ω × List Event)}

theorem Inside.log_offered (h : Inside p s) {w : Word} {answer : Except String Unit}
    {world : ω × List Event} (hemit : outlet.logged.emit w s.world = (answer, world))
    (hp : p.JumpsInside) :
    ∀ seen, .watched seen ∈ world.2 → p.Covers seen.ip := by
  intro seen hseen
  cases hemit
  obtain hold | hnew := List.mem_append.1 hseen
  · exact h.watched hp seen hold
  · cases List.mem_singleton.1 hnew

theorem Inside.step (h : Inside p s) (hgo : s.machine.outcome = none) :
    Inside p (leftBy (Session.step outlet.logged s)) := by
  rw [step_of_going outlet.logged hgo]
  have hcarries := exec_carries outlet.logged h.fits.holds
  have hnext (hp : p.JumpsInside) (next : Table.Config)
      (hmoves :
        Table.effect p s.machine.config = .moves next ∨
          ∃ w, Table.effect p s.machine.config = .prints w next) :
      p.Covers next.ip := Program.covers_of_effect hp hmoves
  rw [h.program_eq] at hcarries
  generalize exec outlet.logged s = result at hcarries ⊢
  generalize Table.effect p s.machine.config = effect at hcarries hnext
  cases hcarries with
  | fails cause => exact ⟨h.fits, h.program_eq, h.covers, h.watched⟩
  | moves c stack holds =>
    exact ⟨⟨holds.size_slots, holds.len_le⟩, h.program_eq, fun hp => hnext hp c (.inl rfl),
      h.watched⟩
  | accepted w c stack world holds emitted =>
    exact ⟨⟨holds.size_slots, holds.len_le⟩, h.program_eq, fun hp => hnext hp c (.inr ⟨w, rfl⟩),
      h.log_offered outlet emitted⟩
  | rejected w c reason world emitted =>
    exact ⟨h.fits, h.program_eq, h.covers, h.log_offered outlet emitted⟩

theorem Inside.observed (h : Inside p s) (watch : Machine.Exterior → ω → ω) :
    Inside p { s with world := watching watch s.machine s.world } where
  fits := h.fits
  program_eq := h.program_eq
  covers := h.covers
  watched := by
    intro hp seen hseen
    obtain hold | hnew := List.mem_append.1 hseen
    · exact h.watched hp seen hold
    · cases List.mem_singleton.1 hnew
      exact h.covers hp

theorem Inside.runObserved (h : Inside p s) {observe : Machine → ω × List Event → ω × List Event}
    (hobserve : ∀ s, Inside p s → Inside p { s with world := observe s.machine s.world })
    (fuel : Nat) :
    Inside p (leftBy (Session.runObserved outlet.logged observe fuel s)) :=
  runObserved_keeps outlet.logged (fun _ h hgo => h.step outlet hgo) hobserve
    (fun _ _ h => ⟨h.fits, h.program_eq, h.covers, h.watched⟩) fuel h

/-! ## 5. Requests -/

-- The program is the one that was there, unless the request brings another one.
theorem Inside.perform (h : Inside p s) (hempty : s.world.2 = []) (request : Request ω) :
    ∃ q, Inside q (answered (request.perform outlet s)).2 := by
  cases request with
  | step =>
    refine ⟨p, ?_⟩
    rw [← leftBy_eq_answered]
    cases hoc : s.machine.outcome with
    | none => exact h.step outlet hoc
    | some r =>
      rw [leftBy_eq_answered]
      change Inside p (answered (Session.step outlet.logged s)).2
      rw [step_of_over outlet.logged hoc]
      exact h
  | run fuel =>
    refine ⟨p, ?_⟩
    rw [← leftBy_eq_answered]
    exact h.runObserved outlet (fun _ h => h) fuel
  | runWatched watch fuel =>
    refine ⟨p, ?_⟩
    rw [← leftBy_eq_answered]
    exact h.runObserved outlet (fun _ h => h.observed watch) fuel
  | reset => exact ⟨p, ⟨h.fits.1, Nat.zero_le _⟩, h.program_eq, fun _ => p.covers_zero, h.watched⟩
  | load program =>
    refine ⟨program, ⟨h.fits.1, Nat.zero_le _⟩, rfl, fun _ => program.covers_zero, ?_⟩
    intro hp seen hseen
    change .watched seen ∈ s.world.2 at hseen
    rw [hempty] at hseen
    cases hseen
  | dump => exact ⟨p, h⟩

theorem coherent_perform (h : s.machine.Coherent) (request : Request ω) :
    (answered (request.perform outlet s)).2.machine.Coherent := by
  cases request with
  | step => exact coherent_after outlet.logged h .step
  | run fuel => exact coherent_after outlet.logged h (.run fuel)
  | runWatched watch fuel =>
    exact coherent_after outlet.logged h (.runObserved (watching watch) fuel)
  | reset => exact coherent_after outlet.logged h .reset
  | load program => exact coherent_after outlet.logged h (.load program)
  | dump => exact h

/-- A fault of a fetch is what the table says of the machine that was left. -/
theorem effect_of_answer (h : s.machine.Coherent) (request : Request ω) (cause : Fault)
    (hanswer : (answered (request.perform outlet s)).1 = .error (.fault cause))
    (hcause : cause.isFetchFault = true) :
    Table.effect (answered (request.perform outlet s)).2.machine.program
      (answered (request.perform outlet s)).2.machine.config = .fails cause := by
  have hleft := coherent_perform outlet h request
  have hexecutes : request.executes = true := by
    cases request with
    | step | run fuel | runWatched watch fuel => rfl
    | reset | load program | dump => cases hanswer
  obtain ⟨cause', hsame, hout⟩ := (recorded_perform outlet h hexecutes).of_error _ hanswer
  cases hsame
  exact hleft.effect_of_outcome hout hcause

end Session

/-! ## 6. Transcripts -/

/-- What a reply shows if the tags of the program name operations, and if its jumps lead inside. -/
structure Reply.Contained {ω : Type} (r : Reply ω) : Prop where
  known :
    r.exterior.program.Legal → ∀ tag ip, r.answer ≠ .error (.fault (.illegalInstruction tag ip))
  covers : r.exterior.program.JumpsInside → r.exterior.program.Covers r.exterior.ip
  watched :
    r.exterior.program.JumpsInside →
      ∀ seen, .watched seen ∈ r.events → r.exterior.program.Covers seen.ip
  behind :
    r.exterior.program.JumpsInside → ∀ ip n, r.answer = .error (.fault (.illegalAccess ip n)) →
    ip = r.exterior.ip ∧ ip.toInt = r.exterior.program.size ∧ n = r.exterior.program.size

structure Machine.Guarded (m : Machine) : Prop where
  coherent : m.Coherent
  covers : m.program.JumpsInside → m.program.Covers m.ip

namespace Session

variable {ω : Type} (outlet : Outlet ω) {s : Session ω}

theorem guarded_serve (h : s.machine.Guarded) (request : Request ω) :
    (request.serve outlet s).1.Contained ∧ (request.serve outlet s).2.machine.Guarded := by
  have hinside : Inside s.machine.program (s.logging []) :=
    ⟨h.coherent.fits, rfl, h.covers, fun _ seen hseen => by cases hseen⟩
  have hcoherent : (s.logging []).machine.Coherent := h.coherent
  have hleft := coherent_perform outlet hcoherent request
  have hfault := effect_of_answer outlet hcoherent request
  obtain ⟨p, hp⟩ := hinside.perform outlet rfl request
  dsimp only [Request.serve]
  generalize answered (request.perform outlet (s.logging [])) = result at hleft hfault hp ⊢
  obtain ⟨-, rfl, hcovers, hwatched⟩ := hp
  refine ⟨⟨?_, hcovers, hwatched, ?_⟩, ⟨hleft, hcovers⟩⟩
  · intro hlegal tag ip hanswer
    have heffect := hfault (.illegalInstruction tag ip) hanswer rfl
    exact Program.effect_ne_illegalInstruction hlegal tag ip heffect
  · intro hjumps ip n hanswer
    have heffect := hfault (.illegalAccess ip n) hanswer rfl
    exact Program.eq_size_of_effect heffect (hcovers hjumps)

theorem contained_of_mem_transcript (requests : List (Request ω)) (h : s.machine.Guarded)
    {reply : Reply ω} (hreply : reply ∈ transcript outlet requests s) : reply.Contained := by
  induction requests generalizing s with
  | nil => cases hreply
  | cons request rest ih =>
    obtain ⟨hfirst, hnext⟩ := guarded_serve outlet h request
    obtain rfl | hlater := List.mem_cons.1 hreply
    · exact hfirst
    · exact ih hnext hlater

theorem guarded_boot (program : Program) (world : ω) : (boot program world).machine.Guarded :=
  ⟨Machine.coherent_boot program, fun _ => program.covers_zero⟩

end Session
end StackMachine
