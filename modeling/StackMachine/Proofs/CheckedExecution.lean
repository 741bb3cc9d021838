import StackMachine.Proofs.CheckedAssembly
import StackMachine.Proofs.Executions

/-!
Execution with a check in front of what goes unnoticed otherwise: the step of the instruction
pointer to the next record, the count in the report of a missing entry, and the slice of the live
entries. The accesses to the slots, the differences of lengths and the quotients are checked in
`Stack` and `Session` already, where a miss is a `Breach`.

The main statement says that in assembly, in reading images and in execution every check holds:
nothing slips, and no promise is broken, whatever the source, the image, the program and the
requests are.
-/

namespace StackMachine.Checked

variable {ω α β : Type}

/-! ## 1. Computations that may slip -/

/-- Computations on a session. A slip leaves nothing behind, not even a session. -/
def Action (ω α : Type) : Type := Session ω → Except Slip (EStateM.Result Trap (Session ω) α)

instance : Monad (Action ω) where
  pure a := fun s => .ok (.ok a s)
  bind act next := fun s => do
    match ← act s with
    | .ok a s => next a s
    | .error e s => return .error e s

/-- A computation with no check of its own. -/
def plain (act : Session.Action ω α) : Action ω α := fun s => .ok (act s)

/-- On to the next record, unless the instruction pointer would wrap. -/
def advance : Action ω Unit := fun s =>
  if s.machine.ip = Int64.maxValue then .error (.wraps s.machine.ip) else .ok (Session.advance s)

/-- The entry `depth` positions below the top, unless one more than the depth would be too large for
a count. -/
def peek (depth : Nat) : Action ω Word := fun s =>
  if depth < Decimal.maxCount then .ok (Session.onStack (Stack.peek depth) s)
  else .error (.aboveCount (depth + 1))

/-- The live entries, as a slice of the slots. -/
def live (stack : Stack) : Except Slip (List Word) :=
  slice (fun _ => 1) stack.slots.toList 0 stack.len

/-! ## 2. Steps -/

def binary (f : Word → Word → Word) : Action ω Unit := do
  plain (Session.onStack (Stack.require 2))
  plain (Session.onStack (Session.combine fun a b => .ok (f a b)))
  advance

def perform (outlet : Outlet ω) (operand : Word) : Opcode → Action ω Unit
  | .nop => advance
  | .push => do
    plain (Session.onStack (Stack.push operand))
    advance
  | .dup =>
    match operand.index? with
    | none => plain (Session.fail (.illegalOperand .dup operand))
    | some depth => do
      let w ← peek depth
      plain (Session.onStack (Stack.push w))
      advance
  | .plus => binary (· + ·)
  | .minus => binary (· - ·)
  | .mult => binary (· * ·)
  | .div => do
    plain (Session.onStack (Stack.require 2))
    let divisor ← peek 0
    if divisor = 0 then plain (Session.fail .divByZero)
    else
      plain (Session.onStack (Session.combine Session.quotient))
      advance
  | .jmp => plain (Session.jump operand)
  | .eq => binary fun a b => Word.ofBool (a == b)
  | .jmpIf => do
    let condition ← plain (Session.onStack Stack.pop)
    if condition = 0 then advance else plain (Session.jump operand)
  | .halt => plain Session.setHalted
  | .printDebug => do
    let w ← peek 0
    plain (Session.emit outlet w)
    let _ ← plain (Session.onStack Stack.pop)
    advance

def exec (outlet : Outlet ω) : Action ω Unit := do
  let i ← plain Session.fetch
  let op ← plain (Session.decode i)
  perform outlet i.operand op

/-- The recorded outcome of a run that is over. -/
def told : Except Fault Unit → Session ω → EStateM.Result Trap (Session ω) Unit
  | .ok (), s => .ok () s
  | .error cause, s => .error (.fault cause) s

def step (outlet : Outlet ω) : Action ω Unit := fun s =>
  match s.machine.outcome with
  | some answer => .ok (told answer s)
  | none => (exec outlet s).map Session.settle

/-! ## 3. Requests -/

/-- Shows the machine to an observer. The answer is whether the machine has halted. -/
def present (observe : Machine → ω → Except Slip ω) : Action ω Bool := fun s => do
  let world ← observe s.machine s.world
  return .ok s.machine.halted { s with world }

def advanceBy (outlet : Outlet ω) (observe : Machine → ω → Except Slip ω) :
    (fuel : Nat) → Action ω Bool
  | 0 => return false
  | fuel + 1 => do
    step outlet
    let halted ← present observe
    if halted then return true else advanceBy outlet observe fuel

def runObserved (outlet : Outlet ω) (observe : Machine → ω → Except Slip ω) (fuel : Nat) :
    Action ω Unit := fun s =>
  match s.machine.outcome with
  | some answer => .ok (told answer s)
  | none => (advanceBy outlet observe fuel s).map (Session.ranBy fuel)

def exterior (m : Machine) : Except Slip Machine.Exterior := do
  let stack ← live m.stack
  return { m.exterior with stack }

def watching (watch : Machine.Exterior → ω → ω) (m : Machine) (world : ω × List Event) :
    Except Slip (ω × List Event) := do
  let seen ← exterior m
  return (watch seen world.1, world.2 ++ [.watched seen])

def ask (outlet : Outlet ω) : Request ω → Action (ω × List Event) Unit
  | .step => step outlet.logged
  | .run fuel => runObserved outlet.logged (fun _ world => .ok world) fuel
  | .runWatched watch fuel => runObserved outlet.logged (watching watch) fuel
  | .reset => plain fun s => .ok () s.reset
  | .load program => plain fun s => .ok () (s.load program)
  | .dump => plain fun s => .ok () s

def serve (outlet : Outlet ω) (request : Request ω) (s : Session ω) :
    Except Slip (Reply ω × Session ω) := do
  let result ← ask outlet request (s.logging [])
  let (answer, left) := Session.answered result
  -- the lines of a dump are made from this slice, too
  let seen ← exterior left.machine
  return (⟨answer, request.text left.machine, seen, left.world.1, left.world.2⟩, left.unlogged)

def transcript (outlet : Outlet ω) : List (Request ω) → Session ω → Except Slip (List (Reply ω))
  | [], _ => return []
  | request :: rest, s => do
    let (reply, left) ← serve outlet request s
    let replies ← transcript outlet rest left
    return reply :: replies

/-! ## 4. Sequencing -/

section

variable {act : Action ω α} {next : α → Action ω β} {s t : Session ω}

theorem bind_of_ok {a : α} (h : act s = .ok (.ok a t)) : (act >>= next) s = next a t := by
  show Except.bind (act s) _ = _
  rw [h]
  rfl

theorem bind_of_error {e : Trap} (h : act s = .ok (.error e t)) :
    (act >>= next) s = .ok (.error e t) := by
  show Except.bind (act s) _ = _
  rw [h]
  rfl

/-- Two computations one after the other, when the first has no slip, and the second has none where
the first leads. -/
theorem bind_plain {act' : Session.Action ω α} {next' : α → Session.Action ω β}
    (h : act s = .ok (act' s)) (hnext : ∀ a t, act' s = .ok a t → next a t = .ok (next' a t)) :
    (act >>= next) s = .ok ((act' >>= next') s) := by
  cases hact : act' s with
  | ok a t =>
    rw [bind_of_ok (h.trans (congrArg Except.ok hact)), Session.bind_ok hact]
    exact hnext a t hact
  | error e t => rw [bind_of_error (h.trans (congrArg Except.ok hact)), Session.bind_error hact]

end

/-! ## 5. Steps do not slip -/

variable {s t : Session ω} (outlet : Outlet ω)

theorem ip_of_onStack {act : Stack.Action α} {a : α} (h : Session.onStack act s = .ok a t) :
    t.machine.ip = s.machine.ip := by
  obtain ⟨⟨program, stack, ip, halted, state, exhausted⟩, world⟩ := s
  rw [Session.onStack] at h
  cases hact : act stack with
  | ok b stack' =>
    rw [hact] at h
    cases h
    rfl
  | error e stack' =>
    rw [hact] at h
    cases h

theorem ip_of_emit {w : Word} (h : Session.emit outlet w s = .ok () t) :
    t.machine.ip = s.machine.ip := by
  rw [Session.emit] at h
  generalize outlet.emit w s.world = answer at h
  obtain ⟨answer, world⟩ := answer
  cases answer with
  | ok accepted =>
    cases h
    rfl
  | error reason => cases h

theorem advance_plain (h : s.machine.ip ≠ Int64.maxValue) : advance s = .ok (Session.advance s) :=
  if_neg h

-- a stack operation leaves the instruction pointer where the check wants it
theorem onStack_advance_plain (h : s.machine.ip ≠ Int64.maxValue) (act : Stack.Action α) :
    (do let _ ← plain (Session.onStack act); advance : Action ω Unit) s =
      .ok ((do let _ ← Session.onStack act; Session.advance : Session.Action ω Unit) s) := by
  apply bind_plain rfl
  intro a t ht
  exact advance_plain (by rw [ip_of_onStack ht]; exact h)

theorem peek_plain {depth : Nat} (h : depth < Decimal.maxCount) (s : Session ω) :
    peek depth s = .ok (Session.onStack (Stack.peek depth) s) := if_pos h

theorem peek_top_plain (s : Session ω) : peek 0 s = .ok (Session.onStack (Stack.peek 0) s) :=
  peek_plain (by decide) s

theorem lt_maxCount_of_index? {w : Word} {depth : Nat} (h : w.index? = some depth) :
    depth < Decimal.maxCount := by
  have hlt := w.toInt_lt
  have hmax : Decimal.maxCount = 2 ^ 64 - 1 := by decide
  rw [Word.index?] at h
  by_cases hneg : 0 ≤ w.toInt
  · rw [if_pos hneg] at h
    cases h
    omega
  · rw [if_neg hneg] at h
    cases h

theorem binary_plain (h : s.machine.ip ≠ Int64.maxValue) (f : Word → Word → Word) :
    binary f s = .ok (Session.binary f s) := by
  apply bind_plain rfl
  intro a t ht
  exact onStack_advance_plain (by rw [ip_of_onStack ht]; exact h) _

theorem perform_plain (h : s.machine.ip ≠ Int64.maxValue) (operand : Word) (op : Opcode) :
    perform outlet operand op s = .ok (Session.perform outlet operand op s) := by
  cases op with
  | nop => exact advance_plain h
  | push => exact onStack_advance_plain h _
  | dup =>
    rw [perform, Session.perform]
    cases hindex : operand.index? with
    | none => rfl
    | some depth =>
      apply bind_plain (peek_plain (lt_maxCount_of_index? hindex) s)
      intro w t ht
      exact onStack_advance_plain (by rw [ip_of_onStack ht]; exact h) _
  | plus => exact binary_plain h _
  | minus => exact binary_plain h _
  | mult => exact binary_plain h _
  | div =>
    apply bind_plain rfl
    intro _ t ht
    apply bind_plain (peek_top_plain t)
    intro divisor u hu
    by_cases hzero : divisor = 0
    · rw [if_pos hzero, if_pos hzero]
      rfl
    · rw [if_neg hzero, if_neg hzero]
      exact onStack_advance_plain (by rw [ip_of_onStack hu, ip_of_onStack ht]; exact h) _
  | jmp => rfl
  | eq => exact binary_plain h _
  | jmpIf =>
    apply bind_plain rfl
    intro condition t ht
    by_cases hzero : condition = 0
    · rw [if_pos hzero, if_pos hzero]
      exact advance_plain (by rw [ip_of_onStack ht]; exact h)
    · rw [if_neg hzero, if_neg hzero]
      rfl
  | halt => rfl
  | printDebug =>
    apply bind_plain (peek_top_plain s)
    intro w t ht
    apply bind_plain rfl
    intro _ u hu
    exact onStack_advance_plain (by rw [ip_of_emit outlet hu, ip_of_onStack ht]; exact h) _

/-- A record is executed only where there is one, and no program reaches up to the largest
position. -/
theorem ip_ne_maxValue {i : Instruction} (h : Session.fetch s = .ok i t) :
    t.machine.ip ≠ Int64.maxValue := by
  cases hrec : Table.recordAt? s.machine.program s.machine.ip with
  | none =>
    rw [Session.fetch_of_none hrec] at h
    cases h
  | some j =>
    rw [Session.fetch_of_some hrec] at h
    cases h
    obtain ⟨-, hnonneg, hlt⟩ := Program.mem_of_recordAt? hrec
    have hsize : s.machine.program.size ≤ 1024 := s.machine.program.size_le
    have hmax : Int64.maxValue.toInt = 2 ^ 63 - 1 := by decide
    intro hip
    rw [hip] at hlt
    omega

theorem exec_plain (s : Session ω) : exec outlet s = .ok (Session.exec outlet s) := by
  apply bind_plain rfl
  intro i t hfetch
  apply bind_plain rfl
  intro op u hdecode
  have hsame : u = t := by
    rw [Session.decode] at hdecode
    cases hop : i.opcode? with
    | none =>
      rw [hop] at hdecode
      cases hdecode
    | some op' =>
      rw [hop] at hdecode
      cases hdecode
      rfl
  rw [hsame]
  exact perform_plain outlet (ip_ne_maxValue hfetch) i.operand op

theorem step_of_over {answer : Except Fault Unit} (hover : s.machine.outcome = some answer) :
    Session.step outlet s = told answer s := by
  rw [Session.step, hover]
  cases answer <;> rfl

theorem step_plain (s : Session ω) : step outlet s = .ok (Session.step outlet s) := by
  rw [step]
  cases hoc : s.machine.outcome with
  | some answer => exact congrArg Except.ok (step_of_over outlet hoc).symm
  | none =>
    rw [exec_plain, Session.step_of_going outlet hoc]
    rfl

/-! ## 6. Requests do not slip -/

theorem live_eq {m : Machine} (h : m.Fits) : live m.stack = .ok m.stack.toList := by
  have hlen : 0 + m.stack.len ≤ m.stack.slots.toList.length := by
    rw [Array.length_toList, h.1, Nat.zero_add]
    exact h.2
  have hslice := slice_of_le hlen
  rw [Nat.zero_add, List.drop_zero] at hslice
  exact hslice

theorem exterior_eq {m : Machine} (h : m.Fits) : exterior m = .ok m.exterior := by
  rw [exterior, live_eq h]
  rfl

section

variable {checked : Machine → ω → Except Slip ω} {observe : Machine → ω → ω}

theorem present_eq (h : checked s.machine s.world = .ok (observe s.machine s.world)) :
    present checked s =
      .ok (.ok s.machine.halted { s with world := observe s.machine s.world }) := by
  rw [present, h]
  rfl

theorem advanceBy_plain (hobserve : ∀ m world, m.Fits → checked m world = .ok (observe m world))
    (fuel : Nat) (hfits : s.machine.Fits) :
    advanceBy outlet checked fuel s = .ok (Session.advanceBy outlet observe fuel s) := by
  induction fuel generalizing s with
  | zero => rfl
  | succ fuel ih =>
    have hstep := step_plain outlet s
    have hleft := (Session.fits_step outlet hfits).1
    cases hplain : Session.step outlet s with
    | error e t =>
      rw [hplain] at hstep
      simp only [Session.advanceBy, hplain]
      exact bind_of_error hstep
    | ok a t =>
      rw [hplain] at hstep hleft
      rw [advanceBy, bind_of_ok hstep, bind_of_ok (present_eq (hobserve t.machine t.world hleft))]
      simp only [Session.advanceBy, hplain]
      cases hhalted : t.machine.halted with
      | true => rfl
      | false => exact ih hleft

theorem runObserved_of_over {answer : Except Fault Unit} (hover : s.machine.outcome = some answer)
    (fuel : Nat) :
    Session.runObserved outlet observe fuel s = told answer s := by
  rw [Session.runObserved, hover]
  cases answer <;> rfl

theorem runObserved_plain (hobserve : ∀ m world, m.Fits → checked m world = .ok (observe m world))
    (fuel : Nat) (hfits : s.machine.Fits) :
    runObserved outlet checked fuel s = .ok (Session.runObserved outlet observe fuel s) := by
  rw [runObserved]
  cases hoc : s.machine.outcome with
  | some answer => exact congrArg Except.ok (runObserved_of_over outlet hoc fuel).symm
  | none =>
    rw [advanceBy_plain outlet hobserve fuel hfits, Session.runObserved_of_going outlet hoc]
    rfl

end

theorem watching_eq (watch : Machine.Exterior → ω → ω) (m : Machine) (world : ω × List Event)
    (h : m.Fits) :
    watching watch m world = .ok (StackMachine.watching watch m world) := by
  rw [watching, exterior_eq h]
  rfl

theorem ask_plain {s : Session (ω × List Event)} (hfits : s.machine.Fits) (request : Request ω) :
    ask outlet request s = .ok (request.perform outlet s) := by
  cases request with
  | step => exact step_plain outlet.logged s
  | run fuel => exact runObserved_plain outlet.logged (fun _ _ _ => rfl) fuel hfits
  | runWatched watch fuel => exact runObserved_plain outlet.logged (watching_eq watch) fuel hfits
  | reset => rfl
  | load program => rfl
  | dump => rfl

theorem serve_plain (h : s.machine.Coherent) (request : Request ω) :
    serve outlet request s = .ok (request.serve outlet s) := by
  have hask := ask_plain outlet (s := s.logging []) h.fits request
  have hleft : (Session.answered (request.perform outlet (s.logging []))).2.machine.Fits :=
    (Session.coherent_serve outlet h request).fits
  rw [serve, hask]
  show (do
    let seen ← exterior (Session.answered (request.perform outlet (s.logging []))).2.machine
    return _) = _
  rw [exterior_eq hleft]
  rfl

theorem transcript_plain (requests : List (Request ω)) (h : s.machine.Coherent) :
    transcript outlet requests s = .ok (Session.transcript outlet requests s) := by
  induction requests generalizing s with
  | nil => rfl
  | cons request rest ih =>
    rw [transcript, serve_plain outlet h]
    show (do
      let replies ← transcript outlet rest (request.serve outlet s).2
      return _ :: replies) = _
    rw [ih (Session.coherent_serve outlet h request)]
    rfl

/-! ## 7. No promise is broken -/

theorem answer_ne_breach (h : s.machine.Coherent) (request : Request ω) (cause : Breach) :
    (request.serve outlet s).1.answer ≠ .error (.breach cause) := by
  show (Session.answered (request.perform outlet (s.logging []))).1 ≠ _
  cases hrequest : request.executes with
  | true =>
    intro hanswer
    obtain ⟨fault, hfault, -⟩ :=
      (Session.recorded_perform outlet (s := s.logging []) h hrequest).of_error _ hanswer
    cases hfault
  | false =>
    -- what executes nothing always succeeds
    intro hanswer
    cases request with
    | step | run | runWatched => cases hrequest
    | reset | load | dump => cases hanswer

theorem ne_breach_of_mem_transcript (requests : List (Request ω)) (h : s.machine.Coherent)
    {reply : Reply ω} (hreply : reply ∈ Session.transcript outlet requests s) (cause : Breach) :
    reply.answer ≠ .error (.breach cause) := by
  induction requests generalizing s with
  | nil => cases hreply
  | cons request rest ih =>
    obtain rfl | hlater := List.mem_cons.1 hreply
    · exact answer_ne_breach outlet h request cause
    · exact ih (Session.coherent_serve outlet h request) hlater

/-- Nothing slips. Every source is assembled, and every byte string is read as an image, with all
positions, entries and differences in range; and whatever is asked of a machine, from its start on
and for every program and outlet, no slot is missed, no length falls below zero, nothing is divided
by zero, no count is cut off and the instruction pointer does not wrap. -/
theorem checks_always_hold (outlet : Outlet ω) :
    (∀ source, ∃ answer : Except Fault Program,
      (assemble source).run = .ok answer ∧ Assembly.assemble source = answer.mapError .fault) ∧
    (∀ input, (ofImage input).run = .ok (Program.ofImage input)) ∧
    ∀ program world requests,
      transcript outlet requests (Session.boot program world) =
          .ok (Session.transcript outlet requests (Session.boot program world)) ∧
        ∀ reply ∈ Session.transcript outlet requests (Session.boot program world), ∀ cause,
          reply.answer ≠ .error (.breach cause) := by
  refine ⟨assemble_settled, ofImage_settled, ?_⟩
  intro program world requests
  have hstart : (Session.boot program world).machine.Coherent := Machine.coherent_boot program
  exact ⟨transcript_plain outlet requests hstart, fun reply hreply cause =>
    ne_breach_of_mem_transcript outlet requests hstart hreply cause⟩

end StackMachine.Checked
