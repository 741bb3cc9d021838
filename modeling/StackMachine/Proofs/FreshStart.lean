import StackMachine.Proofs.Observation
import StackMachine.Proofs.RunInvariant

/-!
A machine that was used before and started over cannot be told from a new one, whatever is asked of
it afterwards.

Starting over leaves the old words in the slots. Two machines are alike when they differ in the
slots above the top only; every request keeps alike machines alike and shows the same of both.
-/

namespace StackMachine

variable {ω α : Type}

/-! ## 1. Requests and what they show -/

/-- What a user may ask of a machine. An observer is given the exterior of the machine. -/
inductive Request (ω : Type) where
  | step
  | run (fuel : Nat)
  | runWatched (watch : Machine.Exterior → ω → ω) (fuel : Nat)
  | reset
  | load (program : Program)
  | dump

/-- What a request shows: its answer, the lines that it writes, the machine and the world that it
leaves, and the events on the way. -/
structure Reply (ω : Type) where
  answer : Except Trap Unit
  text : List String
  exterior : Machine.Exterior
  world : ω
  events : List Event

namespace Request

def perform (outlet : Outlet ω) : Request ω → Session.Action (ω × List Event) Unit
  | step => Session.step outlet.logged
  | run fuel => Session.run outlet.logged fuel
  | runWatched watch fuel => Session.runObserved outlet.logged (watching watch) fuel
  | reset => fun s => .ok () s.reset
  | load program => fun s => .ok () (s.load program)
  | dump => fun s => .ok () s

def text (m : Machine) : Request ω → List String
  | dump => m.dumpLines
  | _ => []

/-- The reply to a request, and the session that it leaves. -/
def serve (outlet : Outlet ω) (request : Request ω) (s : Session ω) : Reply ω × Session ω :=
  let result := Session.answered (request.perform outlet (s.logging []))
  (⟨result.1, request.text result.2.machine, result.2.machine.exterior, result.2.world.1,
      result.2.world.2⟩,
    result.2.unlogged)

end Request

def Session.transcript (outlet : Outlet ω) : List (Request ω) → Session ω → List (Reply ω)
  | [], _ => []
  | request :: rest, s =>
      (request.serve outlet s).1 :: transcript outlet rest (request.serve outlet s).2

/-! ## 2. Machines that differ above the top only -/

structure Machine.Alike (m n : Machine) : Prop where
  fits_left : m.Fits
  fits_right : n.Fits
  exterior_eq : m.exterior = n.exterior
  exhausted_eq : m.exhausted = n.exhausted

namespace Machine

variable {m n : Machine}

theorem Alike.program_eq (h : m.Alike n) : m.program = n.program :=
  congrArg Exterior.program h.exterior_eq

theorem Alike.toList_eq (h : m.Alike n) : m.stack.toList = n.stack.toList :=
  congrArg Exterior.stack h.exterior_eq

theorem Alike.ip_eq (h : m.Alike n) : m.ip = n.ip := congrArg Exterior.ip h.exterior_eq

theorem Alike.halted_eq (h : m.Alike n) : m.halted = n.halted :=
  congrArg Exterior.halted h.exterior_eq

theorem Alike.state_eq (h : m.Alike n) : m.state = n.state := congrArg Exterior.state h.exterior_eq

theorem Alike.config_eq (h : m.Alike n) : m.config = n.config := by
  rw [config, config, h.toList_eq, h.ip_eq, h.halted_eq]

theorem Alike.outcome_eq (h : m.Alike n) : m.outcome = n.outcome := by
  rw [outcome, outcome, h.state_eq, h.exhausted_eq]

theorem Alike.dumpLines_eq (h : m.Alike n) : m.dumpLines = n.dumpLines := by
  rw [dumpLines, dumpLines, h.toList_eq]

theorem Alike.withState (h : m.Alike n) (state : RunState) {k l : Nat} (hk : k = l) :
    Alike { m with state, exhausted := k } { n with state, exhausted := l } where
  fits_left := h.fits_left
  fits_right := h.fits_right
  exterior_eq := congrArg (fun e : Exterior => { e with state }) h.exterior_eq
  exhausted_eq := hk

/-- An emptied stack shows nothing of what its slots hold, so that the start is the same for all
machines. -/
theorem alike_load (hm : m.Fits) (hn : n.Fits) (program : Program) :
    (m.load program).Alike (n.load program) where
  fits_left := ⟨hm.1, Nat.zero_le _⟩
  fits_right := ⟨hn.1, Nat.zero_le _⟩
  exterior_eq := rfl
  exhausted_eq := rfl

theorem Alike.reset (h : m.Alike n) : m.reset.Alike n.reset := by
  -- a reset is a load of the program that is there
  change (m.load m.program).Alike (n.load n.program)
  rw [← h.program_eq]
  exact alike_load h.fits_left h.fits_right m.program

end Machine

namespace Session

structure Alike (s t : Session ω) : Prop where
  machine : s.machine.Alike t.machine
  world : s.world = t.world

/-- Two computations that gave the same answer and left sessions that are alike. -/
inductive Matching : EStateM.Result Trap (Session ω) α → EStateM.Result Trap (Session ω) α → Prop
  | ok (a : α) (s t : Session ω) (h : Alike s t) : Matching (.ok a s) (.ok a t)
  | error (e : Trap) (s t : Session ω) (h : Alike s t) : Matching (.error e s) (.error e t)

variable {s t : Session ω} (outlet : Outlet ω)

theorem Matching.answer_eq {r r' : EStateM.Result Trap (Session ω) Unit} (h : Matching r r') :
    (answered r).1 = (answered r').1 := by
  cases h <;> rfl

theorem Matching.left {r r' : EStateM.Result Trap (Session ω) Unit} (h : Matching r r') :
    Alike (answered r).2 (answered r').2 := by
  cases h with
  | ok a s t h => exact h
  | error e s t h => exact h

/-! ## 3. Steps and runs of alike sessions -/

theorem Alike.moved (h : Alike s t) {stack stack' : Stack} {c : Table.Config}
    (holds : stack.Holds Machine.stackCapacity c.stack)
    (holds' : stack'.Holds Machine.stackCapacity c.stack) (state : RunState) {world world' : ω}
    (hworld : world = world') :
    Alike (setState state { s.moved stack c with world })
      (setState state { t.moved stack' c with world := world' }) where
  machine := {
    fits_left := ⟨holds.size_slots, holds.len_le⟩
    fits_right := ⟨holds'.size_slots, holds'.len_le⟩
    exterior_eq := by
      change (⟨s.machine.program, stack.toList, c.ip, c.halted, state⟩ : Machine.Exterior) =
        ⟨t.machine.program, stack'.toList, c.ip, c.halted, state⟩
      rw [h.machine.program_eq, holds.toList_eq, holds'.toList_eq]
    exhausted_eq := h.machine.exhausted_eq }
  world := hworld

theorem Alike.failed (h : Alike s t) (cause : Fault) {world world' : ω} (hworld : world = world') :
    Alike (setState (.failed cause) { s with world })
      (setState (.failed cause) { t with world := world' }) :=
  ⟨h.machine.withState _ h.machine.exhausted_eq, hworld⟩

/-- Executions that carry out one and the same effect on alike sessions match, once their state is
recorded. -/
theorem Carries.matching {effect : Table.Effect} {r r' : EStateM.Result Trap (Session ω) Unit}
    (h : Alike s t) (hs : Carries outlet s effect r) (ht : Carries outlet t effect r') :
    Matching (settle r) (settle r') := by
  cases hs with
  | fails cause =>
    cases ht
    exact .error _ _ _ (h.failed cause h.world)
  | moves c stack holds =>
    cases ht with
    | moves _ stack' holds' => exact .ok () _ _ (h.moved holds holds' _ h.world)
  | accepted w c stack world holds emitted =>
    rw [h.world] at emitted
    cases ht with
    | accepted _ _ stack' world' holds' emitted' =>
      cases emitted.symm.trans emitted'
      exact .ok () _ _ (h.moved holds holds' _ rfl)
    | rejected _ _ reason world' emitted' => cases emitted.symm.trans emitted'
  | rejected w c reason world emitted =>
    rw [h.world] at emitted
    cases ht with
    | accepted _ _ stack' world' holds' emitted' => cases emitted.symm.trans emitted'
    | rejected _ _ reason' world' emitted' =>
      cases emitted.symm.trans emitted'
      exact .error _ _ _ (h.failed _ rfl)

theorem Alike.step (h : Alike s t) : Matching (Session.step outlet s) (Session.step outlet t) := by
  have houtcome := h.machine.outcome_eq
  match ht : t.machine.outcome with
  | none =>
    rw [ht] at houtcome
    rw [step_of_going outlet houtcome, step_of_going outlet ht]
    have hs := exec_carries outlet h.machine.fits_left.holds
    -- program and configuration are the same, so that the table prescribes the same effect
    rw [h.machine.program_eq, h.machine.config_eq] at hs
    exact hs.matching outlet h (exec_carries outlet h.machine.fits_right.holds)
  | some (.ok ()) =>
    unfold Session.step
    rw [houtcome, ht]
    exact .ok () s t h
  | some (.error cause) =>
    unfold Session.step
    rw [houtcome, ht]
    exact .error _ s t h

/-- The observer looks at the exterior of a machine only. -/
def Discreet (observe : Machine → ω → ω) : Prop :=
  ∀ m n, m.exterior = n.exterior → observe m = observe n

theorem discreet_watching (watch : Machine.Exterior → ω → ω) : Discreet (watching watch) := by
  intro m n h
  funext world
  rw [watching, watching, h]

variable {observe : Machine → ω → ω}

theorem Alike.advanceBy (hobserve : Discreet observe) (fuel : Nat) (h : Alike s t) :
    Matching (Session.advanceBy outlet observe fuel s)
      (Session.advanceBy outlet observe fuel t) := by
  induction fuel generalizing s t with
  | zero => exact .ok false s t h
  | succ fuel ih =>
    have hstep := h.step outlet
    unfold Session.advanceBy
    generalize Session.step outlet s = r at hstep
    generalize Session.step outlet t = r' at hstep
    cases hstep with
    | error e s' t' h => exact .error e s' t' h
    | ok a s' t' h =>
      have hseen : Alike { s' with world := observe s'.machine s'.world }
          { t' with world := observe t'.machine t'.world } :=
        ⟨h.machine, by rw [hobserve _ _ h.machine.exterior_eq, h.world]⟩
      dsimp only
      rw [h.machine.halted_eq]
      cases t'.machine.halted with
      | true => exact .ok true _ _ hseen
      | false => exact ih hseen

theorem Alike.runObserved (hobserve : Discreet observe) (fuel : Nat) (h : Alike s t) :
    Matching (Session.runObserved outlet observe fuel s)
      (Session.runObserved outlet observe fuel t) := by
  unfold Session.runObserved
  rw [h.machine.outcome_eq]
  match t.machine.outcome with
  | some (.ok ()) => exact .ok () s t h
  | some (.error cause) => exact .error _ s t h
  | none =>
    have hadvance := h.advanceBy outlet hobserve fuel
    generalize Session.advanceBy outlet observe fuel s = r at hadvance
    generalize Session.advanceBy outlet observe fuel t = r' at hadvance
    match r, r', hadvance with
    | _, _, .error e s' t' h => exact .error e s' t' h
    | _, _, .ok true s' t' h => exact .ok () s' t' h
    | _, _, .ok false s' t' h => exact .error _ _ _ ⟨h.machine.withState _ rfl, h.world⟩

/-! ## 4. Transcripts -/

theorem Alike.perform (request : Request ω) {s t : Session (ω × List Event)} (h : Alike s t) :
    Matching (request.perform outlet s) (request.perform outlet t) := by
  cases request with
  | step => exact h.step outlet.logged
  | run fuel => exact h.runObserved outlet.logged (fun _ _ _ => rfl) fuel
  | runWatched watch fuel => exact h.runObserved outlet.logged (discreet_watching watch) fuel
  | reset => exact .ok () _ _ ⟨h.machine.reset, h.world⟩
  | load program =>
    exact .ok () _ _ ⟨Machine.alike_load h.machine.fits_left h.machine.fits_right program, h.world⟩
  | dump => exact .ok () s t h

theorem text_eq (request : Request ω) {m n : Machine} (h : m.Alike n) :
    request.text m = request.text n := by
  cases request with
  | dump => exact h.dumpLines_eq
  | step | run | runWatched | reset | load => rfl

theorem Alike.serve (request : Request ω) (h : Alike s t) :
    (request.serve outlet s).1 = (request.serve outlet t).1 ∧
      Alike (request.serve outlet s).2 (request.serve outlet t).2 := by
  have hlogging : Alike (s.logging []) (t.logging []) := ⟨h.machine, congrArg (·, []) h.world⟩
  have hmatching := hlogging.perform outlet request
  have hleft := hmatching.left
  refine ⟨?_, hleft.machine, congrArg Prod.fst hleft.world⟩
  simp only [Request.serve, hmatching.answer_eq, text_eq request hleft.machine,
    hleft.machine.exterior_eq, hleft.world]

theorem Alike.transcript_eq (requests : List (Request ω)) (h : Alike s t) :
    transcript outlet requests s = transcript outlet requests t := by
  induction requests generalizing s t with
  | nil => rfl
  | cons request rest ih =>
    obtain ⟨hreply, hnext⟩ := h.serve outlet request
    rw [transcript, transcript, hreply, ih hnext]

theorem fits_afterAll (calls : List (Call ω)) (h : s.machine.Coherent) :
    (afterAll outlet s calls).machine.Fits :=
  (coherent_calls outlet calls h).fits

/-- A machine that was started over, with another program or with its own, cannot be told from a new
one. Whatever calls came before and whatever is asked afterwards, answers, exteriors, dumped lines,
offers to the outlet and machines shown to an observer are those of a new machine whose outlet is
where the old one left it. -/
theorem startedOver_transcript_eq_boot (first : Program) (world : ω) (history : List (Call ω))
    (requests : List (Request ω)) :
    let used := afterAll outlet (boot first world) history
    (∀ program, transcript outlet requests (used.load program) =
      transcript outlet requests (boot program used.world)) ∧
      transcript outlet requests used.reset =
        transcript outlet requests (boot used.machine.program used.world) := by
  intro used
  have hfits : used.machine.Fits := fits_afterAll outlet history (Machine.coherent_boot first)
  have hload (program : Program) : Alike (used.load program) (boot program used.world) :=
    ⟨Machine.alike_load hfits (Machine.fits_boot program) program, rfl⟩
  exact ⟨fun program => (hload program).transcript_eq outlet requests,
    (hload used.machine.program).transcript_eq outlet requests⟩

end Session
end StackMachine
