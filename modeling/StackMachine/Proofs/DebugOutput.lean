import StackMachine.Proofs.Executions

/-!
Debug output is offered exactly once. What the outlet is offered, in order, is the top of the stack
at the executed records that print, and nothing else. A value that is accepted is gone from the
stack; a value that is refused stays there, and nothing more is offered until the machine is started
over.
-/

namespace StackMachine

variable {ω : Type}

/-! ## 1. Prints and offers -/

/-- The value on top of the stack, if the record at the instruction pointer prints. -/
def Machine.printing? (m : Machine) : Option Word :=
  if (Table.recordAt? m.program m.ip).map Instruction.tag = some Opcode.printDebug.tag then
    m.stack.toList.getLast?
  else none

/-- The value that the next step prints, with the answer of the step. -/
def Session.print? (outlet : Outlet ω) (s : Session ω) : Option (Word × Except Trap Unit) :=
  s.machine.printing?.map (·, (Session.answered (Session.step outlet s)).1)

def Event.offer? : Event → Option (Word × Except String Unit)
  | offered w answer => some (w, answer)
  | watched _ => none

/-- The offers in a log, in order. -/
def offersOf (log : List Event) : List (Word × Except String Unit) := log.filterMap Event.offer?

/-- The offers in the logs of all replies, in order. -/
def offers (replies : List (Reply ω)) : List (Word × Except String Unit) :=
  replies.flatMap fun r => offersOf r.events

/-- An offer, with the answer of the outlet told as that of the step. -/
def asStep (offer : Word × Except String Unit) : Word × Except Trap Unit :=
  (offer.1, offer.2.mapError fun reason => .fault (.debugOutput reason))

/-- The requests that bring a machine back to the start. -/
def Request.restarts : Request ω → Bool
  | reset => true
  | load _ => true
  | _ => false

theorem offersOf_append (log more : List Event) :
    offersOf (log ++ more) = offersOf log ++ offersOf more :=
  List.filterMap_append

namespace Machine

variable {m : Machine} {w : Word}

theorem getLast?_toList (m : Machine) : m.stack.toList.getLast? = m.config.stack.head? := by
  rw [config, List.head?_reverse]

theorem printing?_of_effect {next : Table.Config}
    (h : Table.effect m.program m.config = .prints w next) :
    m.printing? = some w := by
  obtain ⟨⟨i, hrec, hi⟩, below, hstack, -⟩ := Table.stack_of_effect_prints h
  have htag : (Table.recordAt? m.program m.ip).map Instruction.tag = some Opcode.printDebug.tag :=
    Option.map_eq_some_iff.2 ⟨i, hrec, hi⟩
  rw [printing?, if_pos htag, getLast?_toList, hstack]
  rfl

theorem exists_effect_of_printing? (h : m.printing? = some w) :
    ∃ next, Table.effect m.program m.config = .prints w next := by
  unfold printing? at h
  split at h
  · next htag =>
    obtain ⟨i, hrec, hi⟩ := Option.map_eq_some_iff.1 htag
    have hop : Opcode.all[i.tag.toNat]? = some .printDebug := Table.getElem?_all_iff.2 (by rw [hi])
    rw [getLast?_toList] at h
    obtain ⟨below, hstack⟩ := List.head?_eq_some_iff.1 h
    refine ⟨m.config.onward below, ?_⟩
    rw [Table.effect_of_known hrec hop]
    simp only [Table.row, hstack]
  · cases h

theorem getLast?_of_printing? (h : m.printing? = some w) : m.stack.toList.getLast? = some w := by
  unfold printing? at h
  split at h
  · exact h
  · cases h

theorem printing?_eq_none {effect : Table.Effect} (h : Table.effect m.program m.config = effect)
    (hsilent : ∀ w next, effect ≠ .prints w next) : m.printing? = none := by
  rw [Option.eq_none_iff_forall_ne_some]
  intro w hw
  obtain ⟨next, hprints⟩ := exists_effect_of_printing? hw
  exact hsilent w next (h.symm.trans hprints)

end Machine

namespace Session

variable (outlet : Outlet ω) {s t : Session (ω × List Event)}

/-! ## 2. What one step shows -/

theorem log_of_emit {w : Word} {world next : ω × List Event} {answer : Except String Unit}
    (h : outlet.logged.emit w world = (answer, next)) :
    next.2 = world.2 ++ [.offered w answer] := by
  cases h
  rfl

/-- A step prints nothing and offers nothing; or it offers the top, which is accepted and leaves the
stack; or it offers the top, which is refused and stays. -/
theorem step_shows (hfits : s.machine.Fits) (hgo : s.machine.outcome = none) :
    (s.machine.printing? = none ∧ (after outlet.logged s .step).world.2 = s.world.2) ∨
      (∃ w, s.machine.printing? = some w ∧ (answered (step outlet.logged s)).1 = .ok () ∧
        (after outlet.logged s .step).world.2 = s.world.2 ++ [.offered w (.ok ())] ∧
        (after outlet.logged s .step).machine.stack.toList ++ [w] = s.machine.stack.toList) ∨
      ∃ w reason, s.machine.printing? = some w ∧
        (answered (step outlet.logged s)).1 = .error (.fault (.debugOutput reason)) ∧
        (after outlet.logged s .step).world.2 = s.world.2 ++ [.offered w (.error reason)] ∧
        (after outlet.logged s .step).machine =
          { s.machine with state := .failed (.debugOutput reason) } := by
  have hcarries := exec_carries outlet.logged hfits.holds
  rw [after, Call.perform, step_of_going outlet.logged hgo]
  generalize exec outlet.logged s = result at hcarries ⊢
  generalize heffect : Table.effect s.machine.program s.machine.config = effect at hcarries
  cases hcarries with
  | fails cause =>
    refine .inl ⟨Machine.printing?_eq_none heffect ?_, rfl⟩
    intro w next h
    cases h
  | moves c stack holds =>
    refine .inl ⟨Machine.printing?_eq_none heffect ?_, rfl⟩
    intro w next h
    cases h
  | accepted w c stack world holds emitted =>
    obtain ⟨-, below, hstack, rfl⟩ := Table.stack_of_effect_prints heffect
    refine .inr (.inl ⟨w, Machine.printing?_of_effect heffect, rfl, log_of_emit outlet emitted, ?_⟩)
    · -- the stack is a list with the top first, and the slots hold it bottom up
      have hbelow : stack.toList = below.reverse := holds.toList_eq
      have hbefore : s.machine.stack.toList = (w :: below).reverse := by
        rw [← hstack, Machine.config, List.reverse_reverse]
      show stack.toList ++ [w] = s.machine.stack.toList
      rw [hbelow, hbefore, List.reverse_cons]
  | rejected w c reason world emitted =>
    exact .inr (.inr ⟨w, reason, Machine.printing?_of_effect heffect, rfl,
      log_of_emit outlet emitted, rfl⟩)

/-! ## 3. Logs with the world and without -/

theorem step_unlogged (s : Session (ω × List Event)) :
    step outlet s.unlogged = transferred s.machine.program Prod.fst (step outlet.logged s) := by
  have hfollows : Follows Prod.fst outlet.logged outlet := fun _ _ => rfl
  exact step_transfer hfollows rfl (.refl _ _)

theorem answer_unlogged (s : Session (ω × List Event)) :
    (answered (step outlet s.unlogged)).1 = (answered (step outlet.logged s)).1 := by
  rw [step_unlogged]
  cases step outlet.logged s <;> rfl

theorem after_unlogged (s : Session (ω × List Event)) :
    after outlet s.unlogged .step = (after outlet.logged s .step).unlogged := by
  have hprogram := program_of_after_step outlet.logged s
  rw [after, Call.perform] at hprogram ⊢
  rw [step_unlogged, after, Call.perform, ← hprogram]
  cases step outlet.logged s <;> rfl

theorem print?_unlogged (s : Session (ω × List Event)) :
    print? outlet s.unlogged = print? outlet.logged s := by
  rw [print?, answer_unlogged]
  rfl

/-- The observer of a logged world acts on the world as `observe` does, and logs no offer. -/
structure Logs (logged : Machine → ω × List Event → ω × List Event) (observe : Machine → ω → ω) :
    Prop where
  world_eq : ∀ m world, (logged m world).1 = observe m world.1
  log_eq : ∀ m world, ∃ events, (logged m world).2 = world.2 ++ events ∧ offersOf events = []

theorem logs_idle : Logs (fun _ (world : ω × List Event) => world) fun _ world => world where
  world_eq _ _ := rfl
  log_eq _ world := ⟨[], (List.append_nil world.2).symm, rfl⟩

theorem logs_watching (watch : Machine.Exterior → ω → ω) :
    Logs (watching watch) fun m => watch m.exterior where
  world_eq _ _ := rfl
  log_eq m _ := ⟨[.watched m.exterior], rfl, rfl⟩

variable {logged : Machine → ω × List Event → ω × List Event} {observe : Machine → ω → ω}

theorem Logs.turn_unlogged (h : Logs logged observe) (s : Session (ω × List Event)) :
    (turn outlet.logged logged s).unlogged = turn outlet observe s.unlogged := by
  rw [turn, turn, after_unlogged]
  show (⟨_, (logged _ _).1⟩ : Session ω) = ⟨_, observe _ _⟩
  rw [h.world_eq]
  rfl

theorem Logs.trail_unlogged (h : Logs logged observe) (n : Nat) (s : Session (ω × List Event)) :
    (trail outlet.logged logged n s).map unlogged = trail outlet observe n s.unlogged := by
  induction n generalizing s with
  | zero => rfl
  | succ n ih =>
    cases hterminal : s.machine.state.isTerminal with
    | true =>
      rw [trail_of_over outlet.logged hterminal, trail_of_over outlet (s := s.unlogged) hterminal]
      rfl
    | false =>
      have hgo := Machine.outcome_eq_none_iff.2 hterminal
      rw [trail_of_going outlet.logged hgo, trail_of_going outlet (s := s.unlogged) hgo,
        List.map_cons, ih, h.turn_unlogged]

/-! ## 4. Offers of a run -/

/-- The log of `t` is that of `s` and more, and the offers that came are those that are told. -/
def Grew (s t : Session (ω × List Event)) (told : List (Word × Except Trap Unit)) : Prop :=
  ∃ events, t.world.2 = s.world.2 ++ events ∧ (offersOf events).map asStep = told

theorem Grew.refl (s : Session (ω × List Event)) : Grew s s [] :=
  ⟨[], (List.append_nil _).symm, rfl⟩

theorem Grew.trans {u : Session (ω × List Event)} {told more : List (Word × Except Trap Unit)}
    (h : Grew s t told) (hmore : Grew t u more) : Grew s u (told ++ more) := by
  obtain ⟨first, hfirst, rfl⟩ := h
  obtain ⟨second, hsecond, rfl⟩ := hmore
  refine ⟨first ++ second, ?_, ?_⟩
  · rw [hsecond, hfirst, List.append_assoc]
  · rw [offersOf_append, List.map_append]

theorem grew_step (hfits : s.machine.Fits) (hgo : s.machine.outcome = none) :
    Grew s (after outlet.logged s .step) ([s].filterMap (print? outlet.logged)) := by
  obtain ⟨hsilent, hlog⟩ | ⟨w, hprints, hanswer, hlog, -⟩ |
      ⟨w, reason, hprints, hanswer, hlog, -⟩ :=
    step_shows outlet hfits hgo
  · refine ⟨[], by rw [hlog, List.append_nil], ?_⟩
    rw [List.filterMap_cons_none (by rw [print?, hsilent]; rfl)]
    rfl
  · refine ⟨_, hlog, ?_⟩
    have hprint : print? outlet.logged s = some (w, .ok ()) := by
      rw [print?, hprints, hanswer]
      rfl
    rw [List.filterMap_cons_some hprint]
    rfl
  · refine ⟨_, hlog, ?_⟩
    have hprint : print? outlet.logged s = some (w, .error (.fault (.debugOutput reason))) := by
      rw [print?, hprints, hanswer]
      rfl
    rw [List.filterMap_cons_some hprint]
    rfl

theorem Logs.grew_observed (h : Logs logged observe) (s : Session (ω × List Event)) :
    Grew s { s with world := logged s.machine s.world } [] := by
  obtain ⟨events, hlog, hoffers⟩ := h.log_eq s.machine s.world
  exact ⟨events, hlog, by rw [hoffers]; rfl⟩

theorem Logs.grew_turn (h : Logs logged observe) (hfits : s.machine.Fits)
    (hgo : s.machine.outcome = none) :
    Grew s (turn outlet.logged logged s) ([s].filterMap (print? outlet.logged)) := by
  have hturn := (grew_step outlet hfits hgo).trans (h.grew_observed (after outlet.logged s .step))
  rw [List.append_nil] at hturn
  exact hturn

/-- The loop of a run offers what the records on its trail print. -/
theorem Logs.grew_advanceBy (h : Logs logged observe) (fuel : Nat) (hcoherent : s.machine.Coherent)
    (hgo : s.machine.outcome = none) :
    Grew s (leftBy (advanceBy outlet.logged logged fuel s))
      ((trail outlet.logged logged fuel s).filterMap (print? outlet.logged)) := by
  induction fuel generalizing s with
  | zero => exact Grew.refl s
  | succ fuel ih =>
    have hturn := h.grew_turn outlet hcoherent.fits hgo
    rw [trail_of_going outlet.logged hgo, ← List.singleton_append, List.filterMap_append]
    cases hstep : step outlet.logged s with
    | error e t =>
      have hafter := after_step_of_error outlet.logged hstep
      -- the step has ended the run, and the observer is not called
      have hover : (turn outlet.logged logged s).machine.state.isTerminal = true := by
        show (after outlet.logged s .step).machine.state.isTerminal = true
        rw [hafter]
        exact isTerminal_of_error outlet.logged hcoherent.fits hgo hstep
      rw [advanceBy_fails outlet.logged hstep, trail_of_over outlet.logged hover,
        List.filterMap_nil, List.append_nil, leftBy, ← hafter]
      exact grew_step outlet hcoherent.fits hgo
    | ok a t =>
      have hafter := after_step_of_ok outlet.logged hstep
      cases hhalted : t.machine.halted with
      | true =>
        have hover : (turn outlet.logged logged s).machine.state.isTerminal = true := by
          show (after outlet.logged s .step).machine.state.isTerminal = true
          rw [hafter, isTerminal_of_ok outlet.logged hgo hstep, hhalted]
        rw [advanceBy_halts outlet.logged hstep hhalted, trail_of_over outlet.logged hover,
          List.filterMap_nil, List.append_nil, leftBy, ← hafter]
        exact hturn
      | false =>
        have hnext : (turn outlet.logged logged s).machine.outcome = none := by
          show (after outlet.logged s .step).machine.outcome = none
          rw [hafter]
          exact outcome_of_step outlet.logged hgo hstep hhalted
        have hkept : (turn outlet.logged logged s).machine.Coherent :=
          coherent_after outlet.logged hcoherent .step
        rw [advanceBy_turn outlet.logged ⟨t, hstep, hhalted⟩]
        exact hturn.trans (ih hkept hnext)

theorem Logs.grew_run (h : Logs logged observe) (fuel : Nat) (hcoherent : s.machine.Coherent) :
    Grew s (answered (runObserved outlet.logged logged fuel s)).2
      ((trail outlet.logged logged fuel s).filterMap (print? outlet.logged)) := by
  cases hterminal : s.machine.state.isTerminal with
  | true =>
    obtain ⟨r, hover⟩ := Machine.exists_outcome hterminal
    rw [runObserved_of_over outlet.logged hover, trail_of_over outlet.logged hterminal]
    exact Grew.refl s
  | false =>
    have hgo := Machine.outcome_eq_none_iff.2 hterminal
    have hloop := h.grew_advanceBy outlet fuel hcoherent hgo
    rw [runObserved_of_going outlet.logged hgo]
    generalize advanceBy outlet.logged logged fuel s = result at hloop ⊢
    cases result with
    | error e t => exact hloop
    | ok halted t =>
      -- the end of the budget is no event
      cases halted with
      | true => exact hloop
      | false => exact hloop

/-! ## 5. Offers of requests -/

theorem Logs.grew_unlogged (h : Logs logged observe) (fuel : Nat) {s : Session ω}
    (hcoherent : s.machine.Coherent) :
    Grew (s.logging []) (answered (runObserved outlet.logged logged fuel (s.logging []))).2
      ((trail outlet observe fuel s).filterMap (print? outlet)) := by
  have htrail :
      (trail outlet.logged logged fuel (s.logging [])).map unlogged = trail outlet observe fuel s :=
    h.trail_unlogged outlet fuel (s.logging [])
  have hprint : print? outlet ∘ unlogged = print? outlet.logged := funext (print?_unlogged outlet)
  rw [← htrail, List.filterMap_map, hprint]
  exact h.grew_run outlet fuel (s := s.logging []) hcoherent

theorem grew_single {s : Session ω} (hcoherent : s.machine.Coherent) :
    Grew (s.logging []) (answered (step outlet.logged (s.logging []))).2
      ((trail outlet (fun _ world => world) 1 s).filterMap (print? outlet)) := by
  cases hterminal : s.machine.state.isTerminal with
  | true =>
    obtain ⟨r, hover⟩ := Machine.exists_outcome hterminal
    rw [trail_of_over outlet hterminal, step_of_over outlet.logged (s := s.logging []) hover]
    exact Grew.refl _
  | false =>
    have hgo := Machine.outcome_eq_none_iff.2 hterminal
    have hgrew := grew_step outlet (s := s.logging []) hcoherent.fits hgo
    have hprint : print? outlet.logged (s.logging []) = print? outlet s :=
      (print?_unlogged outlet (s.logging [])).symm
    rw [List.filterMap_cons, hprint, List.filterMap_nil] at hgrew
    rw [trail_of_going outlet hgo, trail, List.filterMap_cons, List.filterMap_nil]
    exact hgrew

/-- A request offers what the records that it executes print. -/
theorem grew_perform {s : Session ω} (hcoherent : s.machine.Coherent) (request : Request ω) :
    Grew (s.logging []) (answered (request.perform outlet (s.logging []))).2
      ((trail outlet request.observer request.limit s).filterMap (print? outlet)) := by
  cases request with
  | step => exact grew_single outlet hcoherent
  | run fuel => exact logs_idle.grew_unlogged outlet fuel hcoherent
  | runWatched watch fuel => exact (logs_watching watch).grew_unlogged outlet fuel hcoherent
  | reset => exact Grew.refl _
  | load program => exact Grew.refl _
  | dump => exact Grew.refl _

theorem offers_serve {s : Session ω} (hcoherent : s.machine.Coherent) (request : Request ω) :
    (offersOf (request.serve outlet s).1.events).map asStep =
      (trail outlet request.observer request.limit s).filterMap (print? outlet) := by
  obtain ⟨events, hlog, htold⟩ := grew_perform outlet hcoherent request
  rw [← htold]
  show (offersOf (answered (request.perform outlet (s.logging []))).2.world.2).map asStep = _
  rw [hlog]
  rfl

theorem offers_transcript (requests : List (Request ω)) {s : Session ω}
    (hcoherent : s.machine.Coherent) :
    (offers (transcript outlet requests s)).map asStep =
      (executed outlet requests s).filterMap (print? outlet) := by
  induction requests generalizing s with
  | nil => rfl
  | cons request rest ih =>
    rw [transcript, executed, List.filterMap_append, ← offers_serve outlet hcoherent,
      ← ih (coherent_serve outlet hcoherent request), ← List.map_append]
    rfl

/-! ## 6. Refusals -/

/-- A refusal in the log is the last offer there, the run is over, and the value is still on top of
the stack. -/
def RefusalLast (s : Session (ω × List Event)) : Prop :=
  ∀ xs w reason ys, offersOf s.world.2 = xs ++ (w, .error reason) :: ys →
    ys = [] ∧ s.machine.state.isTerminal = true ∧ s.machine.stack.toList.getLast? = some w

-- An element of a list that has got one more element is the new one, or it was there before.
theorem append_singleton_eq_append_cons {α : Type} {l xs ys : List α} {a b : α}
    (h : l ++ [a] = xs ++ b :: ys) :
    (ys = [] ∧ a = b) ∨ ∃ zs, l = xs ++ b :: zs := by
  rcases List.eq_nil_or_concat ys with rfl | ⟨zs, c, rfl⟩
  · have hsame := (List.append_inj' h rfl).2
    exact .inl ⟨rfl, List.singleton_inj.1 hsame⟩
  · rw [List.concat_eq_append, ← List.cons_append, ← List.append_assoc] at h
    exact .inr ⟨zs, (List.append_inj' h rfl).1⟩

theorem refusalLast_of_nil (h : s.world.2 = []) : RefusalLast s := by
  intro xs w reason ys hrefused
  rw [h] at hrefused
  exact absurd hrefused.symm (List.append_ne_nil_of_right_ne_nil xs (List.cons_ne_nil _ ys))

theorem RefusalLast.step (h : RefusalLast s) (hfits : s.machine.Fits)
    (hgo : s.machine.outcome = none) :
    RefusalLast (after outlet.logged s .step) := by
  -- a machine that can go on has no refusal in its log
  have hnone : ∀ xs w reason ys, offersOf s.world.2 ≠ xs ++ (w, .error reason) :: ys := by
    intro xs w reason ys hlog
    have hover := (h xs w reason ys hlog).2.1
    rw [Machine.outcome_eq_none_iff.1 hgo] at hover
    cases hover
  intro xs w reason ys hrefused
  obtain ⟨-, hlog⟩ | ⟨v, -, -, hlog, -⟩ | ⟨v, why, hprints, -, hlog, hmachine⟩ :=
    step_shows outlet hfits hgo
  · rw [hlog] at hrefused
    exact absurd hrefused (hnone xs w reason ys)
  · rw [hlog, offersOf_append] at hrefused
    obtain ⟨-, hsame⟩ | ⟨zs, hold⟩ := append_singleton_eq_append_cons hrefused
    · cases hsame
    · exact absurd hold (hnone xs w reason zs)
  · rw [hlog, offersOf_append] at hrefused
    obtain ⟨hlast, hsame⟩ | ⟨zs, hold⟩ := append_singleton_eq_append_cons hrefused
    · cases hsame
      rw [hmachine]
      exact ⟨hlast, rfl, Machine.getLast?_of_printing? hprints⟩
    · exact absurd hold (hnone xs w reason zs)

theorem RefusalLast.observed (h : RefusalLast s) (hlogs : Logs logged observe) :
    RefusalLast { s with world := logged s.machine s.world } := by
  obtain ⟨events, hlog, hoffers⟩ := hlogs.log_eq s.machine s.world
  intro xs w reason ys hrefused
  apply h xs w reason ys
  rw [← hrefused, hlog, offersOf_append, hoffers, List.append_nil]

theorem refusalLast_runObserved (hlogs : Logs logged observe) (fuel : Nat) (h : RefusalLast s)
    (hfits : s.machine.Fits) :
    RefusalLast (answered (runObserved outlet.logged logged fuel s)).2 := by
  let P (t : Session (ω × List Event)) : Prop := t.machine.Fits ∧ RefusalLast t
  have hstep (t : Session (ω × List Event)) (ht : P t) (hgo : t.machine.outcome = none) :
      P (leftBy (Session.step outlet.logged t)) := by
    rw [leftBy_eq_answered]
    exact ⟨(fits_step outlet.logged ht.1).1, ht.2.step outlet ht.1 hgo⟩
  have hexhaust (t : Session (ω × List Event)) (fuel : Nat) (ht : P t) : P (t.exhaust fuel) := by
    refine ⟨ht.1, ?_⟩
    intro xs w reason ys hrefused
    obtain ⟨hlast, -, htop⟩ := ht.2 xs w reason ys hrefused
    exact ⟨hlast, rfl, htop⟩
  have hkept : P (leftBy (runObserved outlet.logged logged fuel s)) :=
    runObserved_keeps outlet.logged hstep (fun t ht => ⟨ht.1, ht.2.observed hlogs⟩) hexhaust fuel
      ⟨hfits, h⟩
  rw [leftBy_eq_answered] at hkept
  exact hkept.2

theorem refusalLast_perform {s : Session ω} (hcoherent : s.machine.Coherent) (request : Request ω) :
    RefusalLast (answered (request.perform outlet (s.logging []))).2 := by
  have hempty : RefusalLast (s.logging []) := refusalLast_of_nil rfl
  cases request with
  | step =>
    cases hoc : s.machine.outcome with
    | none => exact hempty.step outlet hcoherent.fits hoc
    | some r =>
      rw [Request.perform, step_of_over outlet.logged (s := s.logging []) hoc]
      exact hempty
  | run fuel => exact refusalLast_runObserved outlet logs_idle fuel hempty hcoherent.fits
  | runWatched watch fuel =>
    exact refusalLast_runObserved outlet (logs_watching watch) fuel hempty hcoherent.fits
  | reset => exact refusalLast_of_nil rfl
  | load program => exact refusalLast_of_nil rfl
  | dump => exact hempty

theorem refused_serve {s : Session ω} (hcoherent : s.machine.Coherent) (request : Request ω)
    {xs ys : List (Word × Except String Unit)} {w : Word} {reason : String}
    (h : offersOf (request.serve outlet s).1.events = xs ++ (w, .error reason) :: ys) :
    ys = [] ∧ (∃ r, (request.serve outlet s).2.machine.outcome = some r) ∧
      (request.serve outlet s).2.machine.stack.toList.getLast? = some w := by
  obtain ⟨hend, hover, htop⟩ := refusalLast_perform outlet hcoherent request xs w reason ys h
  exact ⟨hend, Machine.exists_outcome hover, htop⟩

/-- Once a run is over, requests that do not start over offer nothing and leave the session as it
is. -/
theorem quiet_of_over {s : Session ω} {r : Except Fault Unit} (hover : s.machine.outcome = some r)
    {later : List (Request ω)} (hlater : ∀ request ∈ later, request.restarts = false) :
    offers (transcript outlet later s) = [] ∧ servedAll outlet later s = s := by
  have hserve (request : Request ω) (h : request.restarts = false) :
      offersOf (request.serve outlet s).1.events = [] ∧ (request.serve outlet s).2 = s := by
    cases request with
    | step | run fuel | runWatched watch fuel =>
      rw [serve_of_over outlet hover rfl]
      exact ⟨rfl, rfl⟩
    | dump => exact ⟨rfl, rfl⟩
    | reset | load program => cases h
  induction later with
  | nil => exact ⟨rfl, rfl⟩
  | cons request rest ih =>
    obtain ⟨hfirst, hrest⟩ := List.forall_mem_cons.1 hlater
    obtain ⟨hsilent, hsame⟩ := hserve request hfirst
    obtain ⟨hoffers, hserved⟩ := ih hrest
    constructor
    · show offersOf (request.serve outlet s).1.events ++
          offers (transcript outlet rest (request.serve outlet s).2) = []
      rw [hsilent, hsame, hoffers]
      rfl
    · show servedAll outlet rest (request.serve outlet s).2 = s
      rw [hsame, hserved]

theorem coherent_servedAll (requests : List (Request ω)) {s : Session ω} (h : s.machine.Coherent) :
    (servedAll outlet requests s).machine.Coherent := by
  induction requests generalizing s with
  | nil => exact h
  | cons request rest ih => exact ih (coherent_serve outlet h request)

theorem popped_of_printed {s : Session ω} (hfits : s.machine.Fits) (hgo : s.machine.outcome = none)
    {w : Word} (hprints : s.machine.printing? = some w)
    (hanswer : (answered (step outlet s)).1 = .ok ()) :
    (after outlet s .step).machine.stack.toList ++ [w] = s.machine.stack.toList := by
  have hmachine :
      (after outlet s .step).machine = (after outlet.logged (s.logging []) .step).machine :=
    congrArg Session.machine (after_unlogged outlet (s.logging []))
  rw [show s = (s.logging []).unlogged from rfl, answer_unlogged] at hanswer
  rw [hmachine]
  obtain ⟨hsilent, -⟩ | ⟨v, hv, -, -, hpopped⟩ | ⟨v, reason, -, hrefused, -⟩ :=
    step_shows outlet (s := s.logging []) hfits hgo
  · cases hsilent.symm.trans hprints
  · cases hv.symm.trans hprints
    exact hpopped
  · cases hrefused.symm.trans hanswer

/-- Debug output is offered exactly once, whatever the outlet answers and whatever is asked of the
machine. The values that the outlet is offered are, in order, the tops of the stack at the executed
records that print, and each is accepted or refused as its step succeeds or fails. A step that
prints and succeeds has taken this one value off the stack. A refusal is the last offer of its
request and of all that follow up to the next start, and the value stays on top of the stack. -/
theorem offers_exactly_once (program : Program) (world : ω) (requests : List (Request ω)) :
    let start := boot program world
    (offers (transcript outlet requests start)).map asStep =
      (executed outlet requests start).filterMap (print? outlet) ∧
      (∀ s ∈ executed outlet requests start, ∀ w, s.machine.printing? = some w →
        (answered (step outlet s)).1 = .ok () →
        (after outlet s .step).machine.stack.toList ++ [w] = s.machine.stack.toList) ∧
      ∀ (earlier later : List (Request ω)) (request : Request ω) (reply : Reply ω)
        (left : Session ω),
        (∀ r ∈ later, r.restarts = false) →
          request.serve outlet (servedAll outlet earlier start) = (reply, left) →
          ∀ xs w reason ys, offersOf reply.events = xs ++ (w, .error reason) :: ys →
            ys = [] ∧ offers (transcript outlet later left) = [] ∧
              (servedAll outlet later left).machine.stack.toList.getLast? = some w := by
  intro start
  have hstart : start.machine.Coherent := Machine.coherent_boot program
  refine ⟨offers_transcript outlet requests hstart, ?_, ?_⟩
  · intro s hs w hprints hanswer
    obtain ⟨hcoherent, hgo⟩ := going_of_mem_executed outlet requests hstart hs
    exact popped_of_printed outlet hcoherent.fits hgo hprints hanswer
  · intro earlier later request reply left hlater hserve xs w reason ys hrefused
    have hserved := coherent_servedAll outlet earlier hstart
    obtain rfl : (request.serve outlet (servedAll outlet earlier start)).1 = reply :=
      congrArg Prod.fst hserve
    obtain rfl : (request.serve outlet (servedAll outlet earlier start)).2 = left :=
      congrArg Prod.snd hserve
    obtain ⟨hend, ⟨r, hover⟩, htop⟩ := refused_serve outlet hserved request hrefused
    obtain ⟨hquiet, hsame⟩ := quiet_of_over outlet hover hlater
    refine ⟨hend, hquiet, ?_⟩
    rw [hsame]
    exact htop

end Session
end StackMachine
