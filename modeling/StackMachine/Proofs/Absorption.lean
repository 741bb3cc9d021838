import StackMachine.Proofs.FreshStart

/-!
Outcomes are final. Once a step or a run has left a machine halted, failed or out of budget, further
steps and runs repeat the answer of that call, show nothing to the outlet or to an observer, and
change nothing, until the machine is started over.
-/

namespace StackMachine

variable {ω : Type}

namespace Request

/-- The requests that ask for the execution of records. -/
def executes : Request ω → Bool
  | step => true
  | run _ => true
  | runWatched _ _ => true
  | reset => false
  | load _ => false
  | dump => false

def budget? : Request ω → Option Nat
  | run fuel => some fuel
  | runWatched _ fuel => some fuel
  | _ => none

end Request

namespace Machine

variable {m : Machine}

theorem exists_outcome (h : m.state.isTerminal = true) : ∃ r, m.outcome = some r := by
  rw [← Option.ne_none_iff_exists', Ne, outcome_eq_none_iff, h]
  exact Bool.noConfusion

theorem outcome_of_halted (h : m.state = .halted) : m.outcome = some (.ok ()) := by
  rw [outcome, h]

theorem outcome_of_failed {cause : Fault} (h : m.state = .failed cause) :
    m.outcome = some (.error cause) := by
  rw [outcome, h]

theorem outcome_of_outOfBudget (h : m.state = .outOfBudget) :
    m.outcome = some (.error (.budgetExceeded m.exhausted)) := by
  rw [outcome, h]

end Machine

namespace Session

variable {s : Session ω} (outlet : Outlet ω)

/-- The session that requests leave, one after the other. -/
def servedAll (outlet : Outlet ω) (requests : List (Request ω)) (s : Session ω) : Session ω :=
  requests.foldl (fun s request => (request.serve outlet s).2) s

/-! ## 1. A run that is over -/

theorem runObserved_of_over {r : Except Fault Unit} (hover : s.machine.outcome = some r)
    (observe : Machine → ω → ω) (fuel : Nat) :
    answered (runObserved outlet observe fuel s) = (r.mapError .fault, s) := by
  simp only [runObserved, hover]
  cases r <;> rfl

theorem perform_of_over {s : Session (ω × List Event)} {r : Except Fault Unit}
    (hover : s.machine.outcome = some r) {request : Request ω}
    (hrequest : request.executes = true) :
    answered (request.perform outlet s) = (r.mapError .fault, s) := by
  cases request with
  | step => exact step_of_over outlet.logged hover
  | run fuel => exact runObserved_of_over outlet.logged hover _ fuel
  | runWatched watch fuel => exact runObserved_of_over outlet.logged hover _ fuel
  | reset => cases hrequest
  | load program => cases hrequest
  | dump => cases hrequest

/-- The reply of a session whose run is over, with the given answer. -/
def finalReply (s : Session ω) (answer : Except Trap Unit) : Reply ω :=
  ⟨answer, [], s.machine.exterior, s.world, []⟩

theorem serve_of_over {r : Except Fault Unit} (hover : s.machine.outcome = some r)
    {request : Request ω} (hrequest : request.executes = true) :
    request.serve outlet s = (s.finalReply (r.mapError .fault), s) := by
  have hperform := perform_of_over outlet (s := s.logging []) hover hrequest
  have htext : request.text s.machine = [] := by
    cases request with
    | dump => cases hrequest
    | step | run | runWatched | reset | load => rfl
  simp only [Request.serve, hperform]
  change ((⟨_, request.text s.machine, _, _, _⟩ : Reply ω), _) = _
  rw [htext]
  rfl

theorem transcript_of_over {r : Except Fault Unit} (hover : s.machine.outcome = some r)
    {later : List (Request ω)} (hlater : ∀ request ∈ later, request.executes = true) :
    transcript outlet later s = later.map fun _ => s.finalReply (r.mapError .fault) := by
  induction later with
  | nil => rfl
  | cons request later ih =>
    obtain ⟨hfirst, hrest⟩ := List.forall_mem_cons.1 hlater
    rw [transcript, serve_of_over outlet hover hfirst, ih hrest, List.map_cons]

theorem servedAll_of_over {r : Except Fault Unit} (hover : s.machine.outcome = some r)
    {later : List (Request ω)} (hlater : ∀ request ∈ later, request.executes = true) :
    servedAll outlet later s = s := by
  induction later with
  | nil => rfl
  | cons request later ih =>
    obtain ⟨hfirst, hrest⟩ := List.forall_mem_cons.1 hlater
    change servedAll outlet later (request.serve outlet s).2 = s
    rw [serve_of_over outlet hover hfirst]
    exact ih hrest

/-! ## 2. The call that ends a run -/

/-- The answer is the outcome that the machine has recorded, if it has recorded one, and every
failure is recorded. -/
structure Recorded (result : EStateM.Result Trap (Session ω) Unit) : Prop where
  answer_eq :
    ∀ r, (answered result).2.machine.outcome = some r → (answered result).1 = r.mapError .fault
  of_error : ∀ e, (answered result).1 = .error e →
    ∃ cause, e = .fault cause ∧ (answered result).2.machine.outcome = some (.error cause)

theorem recorded_of_over {r : Except Fault Unit} (hover : s.machine.outcome = some r)
    {result : EStateM.Result Trap (Session ω) Unit} (h : answered result = (r.mapError .fault, s)) :
    Recorded result where
  answer_eq := by
    intro r' hr'
    rw [h] at hr' ⊢
    cases hover.symm.trans hr'
    rfl
  of_error := by
    intro e he
    rw [h] at he ⊢
    cases r with
    | ok a => cases he
    | error cause =>
      cases he
      exact ⟨cause, rfl, hover⟩

-- A call that has failed and recorded why.
theorem recorded_of_failure {cause : Fault} (h : s.machine.outcome = some (.error cause)) :
    Recorded (.error (.fault cause) s) where
  answer_eq := by
    intro r hr
    cases h.symm.trans hr
    rfl
  of_error := by
    rintro e ⟨⟩
    exact ⟨cause, rfl, h⟩

theorem StepEnds.recorded {result : EStateM.Result Trap (Session ω) Unit} (h : StepEnds result) :
    Recorded result := by
  cases result with
  | ok a t =>
    have hstate : t.machine.state = if t.machine.halted then .halted else .running := h.2
    refine ⟨fun r hr => ?_, fun e he => by cases he⟩
    change t.machine.outcome = some r at hr
    rw [Machine.outcome, hstate] at hr
    -- a step that did not halt has left no outcome
    cases hhalted : t.machine.halted <;> rw [hhalted] at hr <;> cases hr
    rfl
  | error e t =>
    cases e with
    | breach cause => exact h.elim
    | fault cause => exact recorded_of_failure (Machine.outcome_of_failed h.2)

theorem RunEnds.recorded {fuel : Nat} {result : EStateM.Result Trap (Session ω) Unit}
    (h : RunEnds fuel result) :
    Recorded result := by
  cases result with
  | ok a t =>
    refine ⟨fun r hr => ?_, fun e he => by cases he⟩
    cases (Machine.outcome_of_halted h.2).symm.trans hr
    rfl
  | error e t =>
    cases e with
    | breach cause => exact h.elim
    | fault cause =>
      obtain ⟨-, hstate | ⟨rfl, hstate, rfl⟩⟩ := h
      · exact recorded_of_failure (Machine.outcome_of_failed hstate)
      · exact recorded_of_failure (Machine.outcome_of_outOfBudget hstate)

theorem recorded_perform {s : Session (ω × List Event)} (h : s.machine.Coherent)
    {request : Request ω} (hrequest : request.executes = true) :
    Recorded (request.perform outlet s) := by
  cases hoc : s.machine.outcome with
  | some r => exact recorded_of_over hoc (perform_of_over outlet hoc hrequest)
  | none =>
    cases request with
    | step => exact (stepEnds outlet.logged h hoc).recorded
    | run fuel => exact (runEnds outlet.logged _ fuel h hoc).recorded
    | runWatched watch fuel => exact (runEnds outlet.logged _ fuel h hoc).recorded
    | reset => cases hrequest
    | load program => cases hrequest
    | dump => cases hrequest

/-- A request that finds a machine that can go on and leaves it out of budget is a run, and the
budget is its own. -/
theorem budget_of_perform {s : Session (ω × List Event)} (h : s.machine.Coherent)
    (hgo : s.machine.outcome = none) {request : Request ω} (hrequest : request.executes = true)
    (hout : (answered (request.perform outlet s)).2.machine.state = .outOfBudget) :
    request.budget? = some (answered (request.perform outlet s)).2.machine.exhausted := by
  cases request with
  | step => exact absurd hout (stepEnds outlet.logged h hgo).left.2
  | run fuel => exact congrArg some ((runEnds outlet.logged _ fuel h hgo).left.2 hout).symm
  | runWatched watch fuel =>
    exact congrArg some ((runEnds outlet.logged _ fuel h hgo).left.2 hout).symm
  | reset => cases hrequest
  | load program => cases hrequest
  | dump => cases hrequest

/-- Outcomes are final. On a machine that any calls have led to, let a step or a run leave the
machine halted, failed or out of budget. Then every later step or run gives the same answer as that
call, with no event for the outlet or an observer, and the session stays as it is in all its parts.
The answer is the one that the state stands for, and an exhausted budget is that of the run that has
used it up. -/
theorem outcome_is_final (program : Program) (world : ω) (history : List (Call ω))
    (call : Request ω) (hcall : call.executes = true) (reply : Reply ω) (left : Session ω)
    (hserve : call.serve outlet (afterAll outlet (boot program world) history) = (reply, left))
    (hover : left.machine.state.isTerminal = true) (later : List (Request ω))
    (hlater : ∀ request ∈ later, request.executes = true) :
    transcript outlet later left = (later.map fun _ => left.finalReply reply.answer) ∧
      servedAll outlet later left = left ∧
      (left.machine.state = .halted → reply.answer = .ok ()) ∧
      (∀ cause, left.machine.state = .failed cause → reply.answer = .error (.fault cause)) ∧
      (left.machine.state = .outOfBudget →
        reply.answer = .error (.fault (.budgetExceeded left.machine.exhausted)) ∧
          ((afterAll outlet (boot program world) history).machine.state.isTerminal = false →
            call.budget? = some left.machine.exhausted)) := by
  have hcoherent :=
    coherent_calls outlet history (s := boot program world) (Machine.coherent_boot program)
  generalize afterAll outlet (boot program world) history = used at hserve hcoherent ⊢
  cases hserve
  -- a machine whose run is over has an outcome, and the call has answered with it
  have hanswer := (recorded_perform outlet (s := used.logging []) hcoherent hcall).answer_eq
  obtain ⟨r, hr⟩ := Machine.exists_outcome hover
  have htranscript := transcript_of_over outlet hr hlater
  rw [← hanswer r hr] at htranscript
  refine ⟨htranscript, servedAll_of_over outlet hr hlater, ?_, ?_, ?_⟩
  · intro hstate
    exact hanswer (.ok ()) (Machine.outcome_of_halted hstate)
  · intro cause hstate
    exact hanswer (.error cause) (Machine.outcome_of_failed hstate)
  · intro hstate
    refine ⟨hanswer (.error _) (Machine.outcome_of_outOfBudget hstate), fun hgo => ?_⟩
    exact budget_of_perform outlet hcoherent (Machine.outcome_eq_none_iff.2 hgo) hcall hstate

/-- The outlet refuses the first value only. The run has failed all the same, and no later request
offers the value again. -/
theorem outcome_is_final_refused_once :
    let program : Program := ⟨#[.of .push 7, .bare .printDebug, .bare .halt], by decide⟩
    let outlet : Outlet Nat :=
      ⟨fun _ offers => (if offers = 0 then .error "closed" else .ok (), offers + 1)⟩
    let later : List (Request Nat) := [.step, .run 0, .runWatched (fun _ offers => offers + 1) 5]
    ∃ reply left, (Request.run 69).serve outlet (afterAll outlet (boot program 0) [.step]) =
      (reply, left) ∧
      left.machine.state = .failed (.debugOutput "closed") ∧
      transcript outlet later left =
        (later.map fun _ => left.finalReply (.error (.fault (.debugOutput "closed")))) ∧
      servedAll outlet later left = left := by
  intro program outlet later
  have hfails :
      ((Request.run 69).serve outlet (afterAll outlet (boot program 0) [.step])).2.machine.state =
      .failed (.debugOutput "closed") := by decide +kernel
  obtain ⟨reply, left, hserve⟩ :
      ∃ reply left, (Request.run 69).serve outlet (afterAll outlet (boot program 0) [.step]) =
        (reply, left) :=
    ⟨_, _, rfl⟩
  rw [hserve] at hfails
  have hover : left.machine.state.isTerminal = true := by rw [hfails]; rfl
  have hlater : ∀ request ∈ later, request.executes = true :=
    List.all_eq_true.1 (show later.all Request.executes = true from rfl)
  obtain ⟨htranscript, hleft, -, hfailed, -⟩ :=
    outcome_is_final outlet program 0 [.step] (.run 69) rfl reply left hserve hover later hlater
  rw [hfailed _ hfails] at htranscript
  exact ⟨reply, left, hserve, hfails, htranscript, hleft⟩

end Session
end StackMachine
