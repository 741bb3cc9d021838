import StackMachine.Proofs.Calls
import StackMachine.Proofs.StepEffect

/-!
Steps of a session and steps by the instruction table go hand in hand: they give the same answers,
and they lead to the same configurations, outcomes and worlds, for every behaviour of the debug
output.
-/

namespace StackMachine

/-- The stack has all its slots, and its entries fit them. -/
def Machine.Fits (m : Machine) : Prop :=
  m.stack.slots.size = Machine.stackCapacity ∧ m.stack.len ≤ Machine.stackCapacity

instance (m : Machine) : Decidable m.Fits := inferInstanceAs (Decidable (_ ∧ _))

def Machine.snapshot (m : Machine) : Table.Snapshot := ⟨m.config, m.outcome⟩

theorem Machine.Fits.holds {m : Machine} (h : m.Fits) :
    m.stack.Holds Machine.stackCapacity m.config.stack :=
  Stack.Holds.of_size_eq h.1 h.2

theorem Machine.fits_boot (program : Program) : (Machine.boot program).Fits :=
  ⟨(Stack.holds_new Machine.stackCapacity).size_slots, Nat.zero_le _⟩

namespace Session

variable {ω : Type} {s : Session ω} (outlet : Outlet ω)

/-- What the table knows of a session. -/
def view (s : Session ω) : Table.Snapshot × ω := (s.machine.snapshot, s.world)

/-- `n` steps in a row, with all their answers. A step that fails is followed by the next one all
the same. -/
def steps (outlet : Outlet ω) : Nat → Session ω → List (Except Trap Unit) × Session ω
  | 0, s => ([], s)
  | n + 1, s =>
    let (answer, next) := answered (step outlet s)
    let (answers, last) := steps outlet n next
    (answer :: answers, last)

/-! ## 1. One step -/

def settle : EStateM.Result Trap (Session ω) Unit → EStateM.Result Trap (Session ω) Unit
  | .ok () s => .ok () (s.setState (if s.machine.halted then .halted else .running))
  | .error (.fault cause) s => .error (.fault cause) (s.setState (.failed cause))
  | .error (.breach cause) s => .error (.breach cause) s

theorem step_of_going (hgo : s.machine.outcome = none) :
    step outlet s = settle (exec outlet s) := by
  unfold step
  rw [hgo]
  rfl

theorem step_of_over {r : Except Fault Unit} (hover : s.machine.outcome = some r) :
    answered (step outlet s) = (r.mapError .fault, s) := by
  unfold step
  rw [hover]
  cases r <;> rfl

theorem view_settled {stack : Stack} {c : Table.Config}
    (h : stack.Holds Machine.stackCapacity c.stack) (world : ω) :
    view (setState (if c.halted then .halted else .running) { s.moved stack c with world }) =
      (.settled c, world) := by
  have hconfig : (⟨stack.toList.reverse, c.ip, c.halted⟩ : Table.Config) = c := by
    rw [h.reverse_toList]
  by_cases hhalted : c.halted = true
  · simp only [Table.Snapshot.settled, hhalted, if_true]
    exact congrArg (fun d => ((⟨d, some (.ok ())⟩ : Table.Snapshot), world)) hconfig
  · simp only [Table.Snapshot.settled, hhalted]
    exact congrArg (fun d => ((⟨d, none⟩ : Table.Snapshot), world)) hconfig

theorem step_view (hfits : s.machine.Fits) :
    Prod.map id view (answered (step outlet s)) =
      Prod.map (Except.mapError .fault) id (Table.step outlet s.machine.program s.view) := by
  cases hoc : s.machine.outcome with
  | some r =>
    rw [step_of_over outlet hoc]
    simp only [Table.step, view, Machine.snapshot, hoc, Prod.map, id]
  | none =>
    rw [step_of_going outlet hoc]
    simp only [Table.step, view, Machine.snapshot, hoc]
    have hcarries := exec_carries outlet hfits.holds
    generalize exec outlet s = result at hcarries ⊢
    generalize Table.effect s.machine.program s.machine.config = effect at hcarries ⊢
    cases hcarries with
    | fails cause => rfl
    | moves c stack holds => exact congrArg (Prod.mk _) (view_settled holds s.world)
    | accepted w c stack world holds emitted =>
      simp only [emitted]
      exact congrArg (Prod.mk _) (view_settled holds world)
    | rejected w c reason world emitted =>
      simp only [emitted]
      rfl

/-- The effect leads to `c`, and the world to `next`: there was nothing to print, or the value was
accepted. -/
inductive Passes (outlet : Outlet ω) (world : ω) : Table.Effect → Table.Config → ω → Prop
  | moves (c : Table.Config) : Passes outlet world (.moves c) c world
  | prints (w : Word) (c : Table.Config) (next : ω)
      (accepted : outlet.emit w world = (.ok (), next)) :
      Passes outlet world (.prints w c) c next

theorem Passes.effect_eq {world next : ω} {effect : Table.Effect} {c : Table.Config}
    (h : Passes outlet world effect c next) : effect = .moves c ∨ ∃ w, effect = .prints w c := by
  cases h with
  | moves c => exact .inl rfl
  | prints w c next accepted => exact .inr ⟨w, rfl⟩

/-- The session after a step that has passed to `c`. -/
def arrived (s : Session ω) (stack : Stack) (c : Table.Config) (world : ω) : Session ω :=
  setState (if c.halted then .halted else .running) { s.moved stack c with world }

theorem passes_of_step (hfits : s.machine.Fits) (hgo : s.machine.outcome = none) {t : Session ω}
    (h : step outlet s = .ok () t) :
    ∃ c stack world, Passes outlet s.world (Table.effect s.machine.program s.machine.config)
      c world ∧
      stack.Holds Machine.stackCapacity c.stack ∧ t = s.arrived stack c world := by
  rw [step_of_going outlet hgo] at h
  have hcarries := exec_carries outlet hfits.holds
  generalize exec outlet s = result at hcarries h
  generalize Table.effect s.machine.program s.machine.config = effect at hcarries ⊢
  cases hcarries with
  | fails cause => cases h
  | moves c stack holds =>
    cases h
    exact ⟨c, stack, s.world, .moves c, holds, rfl⟩
  | accepted w c stack world holds emitted =>
    cases h
    exact ⟨c, stack, world, .prints w c world emitted, holds, rfl⟩
  | rejected w c reason world emitted => cases h

theorem step_of_passes (hfits : s.machine.Fits) (hgo : s.machine.outcome = none) {c : Table.Config}
    {world : ω}
    (h : Passes outlet s.world (Table.effect s.machine.program s.machine.config) c world) :
    ∃ stack, stack.Holds Machine.stackCapacity c.stack ∧
      step outlet s = .ok () (s.arrived stack c world) := by
  rw [step_of_going outlet hgo]
  have hcarries := exec_carries outlet hfits.holds
  generalize exec outlet s = result at hcarries ⊢
  generalize Table.effect s.machine.program s.machine.config = effect at hcarries h
  cases h with
  | moves c =>
    cases hcarries with
    | moves _ stack holds => exact ⟨stack, holds, rfl⟩
  | prints w c next accepted =>
    cases hcarries with
    | accepted _ _ stack world' holds emitted =>
      cases accepted.symm.trans emitted
      exact ⟨stack, holds, rfl⟩
    | rejected _ _ reason world' emitted => cases accepted.symm.trans emitted

/-! ## 2. Steps in a row -/

theorem fits_step (hfits : s.machine.Fits) :
    (answered (step outlet s)).2.machine.Fits ∧
      (answered (step outlet s)).2.machine.program = s.machine.program := by
  cases hoc : s.machine.outcome with
  | some r =>
    rw [step_of_over outlet hoc]
    exact ⟨hfits, rfl⟩
  | none =>
    rw [step_of_going outlet hoc]
    have hcarries := exec_carries outlet hfits.holds
    generalize exec outlet s = result at hcarries ⊢
    generalize Table.effect s.machine.program s.machine.config = effect at hcarries
    cases hcarries with
    | fails cause => exact ⟨hfits, rfl⟩
    | moves c stack holds => exact ⟨⟨holds.size_slots, holds.len_le⟩, rfl⟩
    | accepted w c stack world holds emitted => exact ⟨⟨holds.size_slots, holds.len_le⟩, rfl⟩
    | rejected w c reason world emitted => exact ⟨hfits, rfl⟩

theorem steps_view (n : Nat) (hfits : s.machine.Fits) :
    Prod.map id view (steps outlet n s) =
      Prod.map (List.map (Except.mapError .fault)) id
        (Table.steps outlet s.machine.program n s.view) := by
  induction n generalizing s with
  | zero => rfl
  | succ n ih =>
    have hanswer : (answered (step outlet s)).1 =
        (Table.step outlet s.machine.program s.view).1.mapError .fault :=
      congrArg Prod.fst (step_view outlet hfits)
    have hview :
        view (answered (step outlet s)).2 = (Table.step outlet s.machine.program s.view).2 :=
      congrArg Prod.snd (step_view outlet hfits)
    obtain ⟨hnext, hprogram⟩ := fits_step outlet hfits
    have hrest := ih hnext
    -- the table goes on from what the first step leaves, which is what the session shows after it
    rw [hprogram, hview] at hrest
    have hanswers := congrArg Prod.fst hrest
    have hlast := congrArg Prod.snd hrest
    apply Prod.ext
    · change (answered (step outlet s)).1 :: _ =
        (Table.step outlet s.machine.program s.view).1.mapError .fault :: _
      rw [hanswer]
      exact congrArg (List.cons _) hanswers
    · exact hlast

/-- Steps refine the instruction table. For every program, every machine whose stack fits, every
position of the instruction pointer and every outlet, a step answers as the table does and leaves
the table's stack, instruction pointer, halted flag and outcome, and the world has been offered the
value that the table prints, and no other. Any number of steps in a row do so too. -/
theorem steps_refine_table (s : Session ω) (hfits : s.machine.Fits) :
    Prod.map id view (answered (step outlet s)) =
        Prod.map (Except.mapError .fault) id (Table.step outlet s.machine.program s.view) ∧
      ∀ n, Prod.map id view (steps outlet n s) =
        Prod.map (List.map (Except.mapError .fault)) id
          (Table.steps outlet s.machine.program n s.view) :=
  ⟨step_view outlet hfits, fun n => steps_view outlet n hfits⟩

/-- A quotient that does not fit, on a stack whose slots above the top still hold old values: the
step answers well and leaves the smallest word, and the next step finds no record. -/
theorem steps_refine_table_overflowing_quotient :
    let slots : Array Word := (Int64.minValue :: -1 :: List.replicate 1022 7).toArray
    let machine : Machine := { Machine.boot ⟨#[.bare .div], by decide⟩ with stack := ⟨slots, 2⟩ }
    let outlet : Outlet (List Word) := ⟨fun w printed => (.ok (), printed ++ [w])⟩
    machine.Fits ∧
      Prod.map id view (steps outlet 2 ⟨machine, []⟩) =
        ([.ok (), .error (.fault (.illegalAccess 1 1))],
          ⟨⟨[Int64.minValue], 1, false⟩, some (.error (.illegalAccess 1 1))⟩, []) := by
  intro slots machine outlet
  have hsize : slots.size = 1024 := by
    rw [List.size_toArray, List.length_cons, List.length_cons, List.length_replicate]
  have hfits : machine.Fits := ⟨hsize, by decide⟩
  have hview : view ⟨machine, ([] : List Word)⟩ = (⟨⟨[-1, Int64.minValue], 0, false⟩, none⟩, []) :=
    rfl
  refine ⟨hfits, ?_⟩
  rw [(steps_refine_table outlet ⟨machine, []⟩ hfits).2 2, hview]
  rfl

end Session
end StackMachine
