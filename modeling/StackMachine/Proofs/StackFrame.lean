import StackMachine.Proofs.BoundedRuns

/-!
The frame rule of the stack. A machine that stands over some entries does what it does without them,
as long as they leave it room: they are neither read nor changed, and no step can tell that they are
there.
-/

namespace StackMachine

/-! ## 1. Rows of the table over a frame -/

namespace Table

/-- The configuration with `below` under its stack. -/
def Config.over (below : List Word) (c : Config) : Config := { c with stack := c.stack ++ below }

def Effect.over (below : List Word) : Effect → Effect
  | .fails cause => .fails cause
  | .moves next => .moves (next.over below)
  | .prints w next => .prints w (next.over below)

/-- The effect is no failure, and its stack still has its place over `below`. -/
def Effect.HasRoom (below : List Word) : Effect → Prop
  | .fails _ => False
  | .moves next => next.stack.length + below.length ≤ Machine.stackCapacity
  | .prints _ next => next.stack.length + below.length ≤ Machine.stackCapacity

variable {below : List Word} {c : Config}

theorem length_over (c : Config) : (c.over below).stack.length = c.stack.length + below.length :=
  List.length_append

theorem pushed_over {w : Word} (h : (pushed w c).HasRoom below) :
    pushed w (c.over below) = (pushed w c).over below := by
  rw [pushed] at h ⊢
  by_cases hfree : c.stack.length < Machine.stackCapacity
  · rw [if_pos hfree] at h
    change c.stack.length + 1 + below.length ≤ Machine.stackCapacity at h
    rw [pushed, if_pos hfree, length_over, if_pos (by omega)]
    rfl
  · rw [if_neg hfree] at h
    exact h.elim

theorem combined_over {f : Int → Int → Int} (h : (combined f c).HasRoom below) :
    combined f (c.over below) = (combined f c).over below := by
  obtain ⟨_ | ⟨b, _ | ⟨a, rest⟩⟩, ip, halted⟩ := c
  · exact h.elim
  · exact h.elim
  · rfl

theorem dup_over {operand : Word} (h : (row operand c .dup).HasRoom below) :
    row operand (c.over below) .dup = (row operand c .dup).over below := by
  rw [row] at h ⊢
  by_cases hneg : operand.toInt < 0
  · rw [if_pos hneg] at h
    exact h.elim
  · rw [if_neg hneg] at h
    rw [row, if_neg hneg, if_neg hneg]
    cases hw : c.stack[operand.toInt.toNat]? with
    | none =>
      rw [hw] at h
      exact h.elim
    | some w =>
      rw [hw] at h
      -- what is found counting from the top is not in the frame
      have hlive : operand.toInt.toNat < c.stack.length := (List.getElem?_eq_some_iff.1 hw).1
      have hsame : (c.over below).stack[operand.toInt.toNat]? = some w := by
        rw [Config.over, List.getElem?_append_left hlive, hw]
      rw [hsame]
      exact pushed_over h

theorem row_div {operand a b ip : Word} {rest : List Word} {halted : Bool} (hb : b ≠ 0) :
    row operand ⟨b :: a :: rest, ip, halted⟩ .div =
      combined Int.tdiv ⟨b :: a :: rest, ip, halted⟩ :=
  if_neg fun hzero => hb (Option.some.inj hzero.2)

theorem div_over {operand : Word} (h : (row operand c .div).HasRoom below) :
    row operand (c.over below) .div = (row operand c .div).over below := by
  obtain ⟨_ | ⟨b, _ | ⟨a, rest⟩⟩, ip, halted⟩ := c
  · exact h.elim
  · exact h.elim
  · by_cases hzero : b = 0
    · rw [row, if_pos ⟨by simp, by rw [hzero]; rfl⟩] at h
      exact h.elim
    · show row operand ⟨b :: a :: (rest ++ below), ip, halted⟩ .div = _
      rw [row_div hzero, row_div hzero]
      rfl

theorem jmpIf_over {operand : Word} (h : (row operand c .jmpIf).HasRoom below) :
    row operand (c.over below) .jmpIf = (row operand c .jmpIf).over below := by
  obtain ⟨_ | ⟨w, rest⟩, ip, halted⟩ := c
  · exact h.elim
  · by_cases hzero : w = 0
    · simp only [row, Config.over, List.cons_append, if_pos hzero]
      rfl
    · simp only [row, Config.over, List.cons_append, if_neg hzero]
      rfl

theorem printDebug_over {operand : Word} (h : (row operand c .printDebug).HasRoom below) :
    row operand (c.over below) .printDebug = (row operand c .printDebug).over below := by
  obtain ⟨_ | ⟨w, rest⟩, ip, halted⟩ := c
  · exact h.elim
  · rfl

/-- Every operation that succeeds with room to spare does the same over a frame. -/
theorem row_over {operand : Word} {op : Opcode} (h : (row operand c op).HasRoom below) :
    row operand (c.over below) op = (row operand c op).over below := by
  cases op with
  | nop => rfl
  | push => exact pushed_over h
  | dup => exact dup_over h
  | plus => exact combined_over h
  | minus => exact combined_over h
  | mult => exact combined_over h
  | div => exact div_over h
  | jmp => rfl
  | eq => exact combined_over (f := fun a b => if a = b then 1 else 0) h
  | jmpIf => exact jmpIf_over h
  | halt => rfl
  | printDebug => exact printDebug_over h

theorem effect_over {program : Program} (h : (effect program c).HasRoom below) :
    effect program (c.over below) = (effect program c).over below := by
  cases hrec : recordAt? program c.ip with
  | none =>
    rw [effect_of_outside hrec] at h
    exact h.elim
  | some i =>
    cases hop : Opcode.all[i.tag.toNat]? with
    | none =>
      rw [effect_of_unknown hrec hop] at h
      exact h.elim
    | some op =>
      have hthere : recordAt? program (c.over below).ip = some i := hrec
      rw [effect_of_known hrec hop] at h ⊢
      rw [effect_of_known hthere hop]
      exact row_over h

end Table

/-! ## 2. Steps over a frame -/

/-- The stack fits its slots, and the halted flag is set in the halted state and in no other one. -/
structure Machine.WellFormed (m : Machine) : Prop where
  fits : m.Fits
  halted_iff : m.halted = true ↔ m.state = .halted

namespace Session

variable {ω : Type} {q : List Word} {s t s' : Session ω} (outlet : Outlet ω)

/-- `t` is `s` with the entries `q` under its stack. -/
structure Framed (q : List Word) (s t : Session ω) : Prop where
  program_eq : t.machine.program = s.machine.program
  toList_eq : t.machine.stack.toList = q ++ s.machine.stack.toList
  ip_eq : t.machine.ip = s.machine.ip
  state_eq : t.machine.state = s.machine.state
  world_eq : t.world = s.world

/-- A frame under machines that fit and that agree on the halted flag: what every step keeps. -/
structure Carried (q : List Word) (s t : Session ω) : Prop extends Framed q s t where
  fits : s.machine.Fits
  fits_framed : t.machine.Fits
  halted_eq : t.machine.halted = s.machine.halted

theorem Framed.carried (h : Framed q s t) (hs : s.machine.WellFormed) (ht : t.machine.WellFormed) :
    Carried q s t where
  toFramed := h
  fits := hs.fits
  fits_framed := ht.fits
  halted_eq := by
    rw [Bool.eq_iff_iff, hs.halted_iff, ht.halted_iff, h.state_eq]

theorem Carried.config_eq (h : Carried q s t) :
    t.machine.config = s.machine.config.over q.reverse := by
  rw [Machine.config, Machine.config, h.toList_eq, h.ip_eq, h.halted_eq, List.reverse_append]
  rfl

theorem Passes.over {world next : ω} {effect : Table.Effect} {c : Table.Config}
    (h : Passes outlet world effect c next) (below : List Word) :
    Passes outlet world (effect.over below) (c.over below) next := by
  cases h with
  | moves c => exact .moves _
  | prints w c next accepted => exact .prints w _ next accepted

theorem Passes.hasRoom {world next : ω} {effect : Table.Effect} {c : Table.Config}
    (h : Passes outlet world effect c next) {below : List Word}
    (hroom : c.stack.length + below.length ≤ Machine.stackCapacity) : effect.HasRoom below := by
  cases h with
  | moves c => exact hroom
  | prints w c next accepted => exact hroom

theorem Carried.arrived (h : Carried q s t) {c : Table.Config} {stack stack' : Stack}
    (holds : stack.Holds Machine.stackCapacity c.stack)
    (holds' : stack'.Holds Machine.stackCapacity (c.over q.reverse).stack) (world : ω) :
    Carried q (s.arrived stack c world) (t.arrived stack' (c.over q.reverse) world) where
  program_eq := h.program_eq
  toList_eq := by
    change stack'.toList = q ++ stack.toList
    rw [holds.toList_eq, holds'.toList_eq, Table.Config.over, List.reverse_append,
      List.reverse_reverse]
  ip_eq := rfl
  state_eq := rfl
  world_eq := rfl
  fits := ⟨holds.size_slots, holds.len_le⟩
  fits_framed := ⟨holds'.size_slots, holds'.len_le⟩
  halted_eq := rfl

theorem Carried.step_of_going (h : Carried q s t) (hgo : s.machine.outcome = none)
    (hstep : Session.step outlet s = .ok () s')
    (hroom : s'.machine.stack.toList.length + q.length ≤ Machine.stackCapacity) :
    ∃ t', Session.step outlet t = .ok () t' ∧ Carried q s' t' := by
  have hgo' : t.machine.outcome = none := by
    rw [Machine.outcome_eq_none_iff, h.state_eq]
    exact Machine.outcome_eq_none_iff.1 hgo
  obtain ⟨c, stack, world, hpasses, holds, rfl⟩ := passes_of_step outlet h.fits hgo hstep
  have hdepth : c.stack.length + q.reverse.length ≤ Machine.stackCapacity := by
    change stack.toList.length + q.length ≤ Machine.stackCapacity at hroom
    rw [holds.toList_eq, List.length_reverse] at hroom
    rw [List.length_reverse]
    exact hroom
  -- the table passes to the same place over the frame, and the step follows the table
  have hframed : Passes outlet t.world (Table.effect t.machine.program t.machine.config)
      (c.over q.reverse) world := by
    rw [h.program_eq, h.config_eq, h.world_eq, Table.effect_over (hpasses.hasRoom outlet hdepth)]
    exact hpasses.over outlet _
  obtain ⟨stack', holds', hstep'⟩ := step_of_passes outlet h.fits_framed hgo' hframed
  exact ⟨_, hstep', h.arrived holds holds' world⟩

theorem step_of_halted (h : s.machine.state = .halted) : Session.step outlet s = .ok () s := by
  rw [Session.step, Machine.outcome_of_halted h]

theorem not_ok_of_over {cause : Fault} (hover : s.machine.outcome = some (.error cause)) :
    Session.step outlet s ≠ .ok () s' := by
  intro hstep
  have hanswer := step_of_over outlet hover
  rw [hstep] at hanswer
  cases hanswer

/-- A step that succeeds with room to spare succeeds over a frame as well, and keeps it. -/
theorem Carried.step (h : Carried q s t) (hstep : Session.step outlet s = .ok () s')
    (hroom : s'.machine.stack.toList.length + q.length ≤ Machine.stackCapacity) :
    ∃ t', Session.step outlet t = .ok () t' ∧ Carried q s' t' := by
  cases hstate : s.machine.state with
  | ready | running =>
    have hgo : s.machine.outcome = none := by rw [Machine.outcome, hstate]
    exact h.step_of_going outlet hgo hstep hroom
  | halted =>
    -- a halted machine answers well and stays as it is, with the frame and without
    rw [step_of_halted outlet hstate] at hstep
    cases hstep
    exact ⟨t, step_of_halted outlet (h.state_eq.trans hstate), h⟩
  | failed cause => exact absurd hstep (not_ok_of_over outlet (Machine.outcome_of_failed hstate))
  | outOfBudget =>
    exact absurd hstep (not_ok_of_over outlet (Machine.outcome_of_outOfBudget hstate))

/-! ## 3. Steps in a row -/

end Session

def Machine.Exterior.over (q : List Word) (e : Machine.Exterior) : Machine.Exterior :=
  { e with stack := q ++ e.stack }

/-- The reply of a machine that stands over `q`: the entries are seen under the stack, and nothing
else is different. -/
def Reply.over {ω : Type} (q : List Word) (r : Reply ω) : Reply ω :=
  { r with exterior := r.exterior.over q }

namespace Session

variable {ω : Type} {q : List Word} {s t : Session ω} (outlet : Outlet ω)

/-- The step was answered well, and it has left room for the entries `q`. -/
def FitsOver (q : List Word) (r : Reply ω) : Prop :=
  r.answer = .ok () ∧ r.exterior.stack.length + q.length ≤ Machine.stackCapacity

instance (q : List Word) (r : Reply ω) : Decidable (FitsOver q r) :=
  inferInstanceAs (Decidable (_ ∧ _))

theorem Carried.exterior_eq (h : Carried q s t) :
    t.machine.exterior = s.machine.exterior.over q := by
  rw [Machine.exterior, h.program_eq, h.toList_eq, h.ip_eq, h.halted_eq, h.state_eq]
  rfl

theorem serve_step_of_ok {s' : Session (ω × List Event)}
    (h : Session.step outlet.logged (s.logging []) = .ok () s') :
    Request.step.serve outlet s =
      (⟨.ok (), [], s'.machine.exterior, s'.world.1, s'.world.2⟩, s'.unlogged) := by
  simp only [Request.serve, Request.perform, h]
  rfl

/-- A frame does not depend on the kind of world that goes with it. -/
theorem Carried.mapWorld {ω' : Type} (h : Carried q s t) (g : ω → ω') :
    Carried q ⟨s.machine, g s.world⟩ ⟨t.machine, g t.world⟩ where
  program_eq := h.program_eq
  toList_eq := h.toList_eq
  ip_eq := h.ip_eq
  state_eq := h.state_eq
  world_eq := congrArg g h.world_eq
  fits := h.fits
  fits_framed := h.fits_framed
  halted_eq := h.halted_eq

theorem Carried.serve (h : Carried q s t) (hfits : FitsOver q (Request.step.serve outlet s).1) :
    (Request.step.serve outlet t).1 = (Request.step.serve outlet s).1.over q ∧
      Carried q (Request.step.serve outlet s).2 (Request.step.serve outlet t).2 := by
  obtain ⟨hanswer, hroom⟩ := hfits
  have hlogging : Carried q (s.logging []) (t.logging []) := h.mapWorld (·, [])
  have hstep := eq_ok_of_answered hanswer
  obtain ⟨t', hstep', hnext⟩ := hlogging.step outlet.logged hstep hroom
  rw [serve_step_of_ok outlet hstep, serve_step_of_ok outlet hstep']
  refine ⟨?_, hnext.mapWorld Prod.fst⟩
  rw [hnext.exterior_eq, hnext.world_eq]
  rfl

theorem Carried.transcript_eq (n : Nat) (h : Carried q s t)
    (hsteps : ∀ reply ∈ transcript outlet (List.replicate n .step) s, FitsOver q reply) :
    transcript outlet (List.replicate n .step) t =
      (transcript outlet (List.replicate n .step) s).map (Reply.over q) := by
  induction n generalizing s t with
  | zero => rfl
  | succ n ih =>
    obtain ⟨hfirst, hlater⟩ := List.forall_mem_cons.1 hsteps
    obtain ⟨hreply, hnext⟩ := h.serve outlet hfirst
    rw [List.replicate_succ, transcript, transcript, hreply, ih hnext hlater]
    rfl

/-- The frame rule. Let two well-formed machines differ in nothing but entries `q` that one of them
has under its stack. If any number of steps in a row succeed without the entries, and the depth
after each of them leaves room for `q`, then the steps succeed over the entries as well: every step
gives the same answer, offers the same values to the outlet and is answered alike, and leaves the
same instruction pointer, halted flag, state and world, and the same stack over `q`. -/
theorem steps_keep_frame (s t : Session ω) (hs : s.machine.WellFormed) (ht : t.machine.WellFormed)
    (q : List Word) (hframed : Framed q s t) (n : Nat)
    (hsteps : ∀ reply ∈ transcript outlet (List.replicate n .step) s, FitsOver q reply) :
    transcript outlet (List.replicate n .step) t =
      (transcript outlet (List.replicate n .step) s).map (Reply.over q) :=
  (hframed.carried hs ht).transcript_eq outlet n hsteps

set_option maxRecDepth 8000 in
/-- Values are duplicated, added, printed and pushed over two entries that stay, and the last step
finds the machine halted. -/
theorem steps_keep_frame_over_two :
    let program : Program :=
      ⟨#[.of .dup 0, .bare .plus, .bare .printDebug, .of .push 9, .bare .halt], by decide⟩
    let holding (values : List Word) (n : Nat) : Session (List Word) :=
      ⟨{ Machine.boot program with
          stack := ⟨(values ++ List.replicate n 7).toArray, values.length⟩, state := .running }, []⟩
    let outlet : Outlet (List Word) := ⟨fun w printed => (.ok (), printed ++ [w])⟩
    let s := holding [5] 1023
    let t := holding [1, 2, 5] 1021
    s.machine.WellFormed ∧ t.machine.WellFormed ∧ Framed [1, 2] s t ∧
      (∀ reply ∈ transcript outlet (List.replicate 6 .step) s, FitsOver [1, 2] reply) ∧
      transcript outlet (List.replicate 6 .step) t =
        (transcript outlet (List.replicate 6 .step) s).map (Reply.over [1, 2]) ∧
      (transcript outlet (List.replicate 6 .step) t).map
        (fun reply => (reply.exterior.stack, reply.world)) =
        [([1, 2, 5, 5], []), ([1, 2, 10], []), ([1, 2], [10]), ([1, 2, 9], [10]), ([1, 2, 9], [10]),
          ([1, 2, 9], [10])] := by
  intro program holding outlet s t
  have hsize (values : List Word) (n : Nat) :
      (values ++ List.replicate n 7).toArray.size = values.length + n := by
    rw [List.size_toArray, List.length_append, List.length_replicate]
  have hs : s.machine.WellFormed := ⟨⟨hsize [5] 1023, by decide⟩, by decide⟩
  have ht : t.machine.WellFormed := ⟨⟨hsize [1, 2, 5] 1021, by decide⟩, by decide⟩
  have hframed : Framed [1, 2] s t := ⟨rfl, rfl, rfl, rfl, rfl⟩
  have hsteps : ∀ reply ∈ transcript outlet (List.replicate 6 .step) s, FitsOver [1, 2] reply := by
    decide +kernel
  exact ⟨hs, ht, hframed, hsteps, steps_keep_frame outlet s t hs ht [1, 2] hframed 6 hsteps,
    by decide +kernel⟩

end Session
end StackMachine
