import StackMachine.Proofs.FreshStart
import StackMachine.Proofs.Transfer

/-!
A run depends on nothing of its program but the size, the tags of the records that it fetches, and
those of their operands that are taken. Records that are never reached, and operands that no
operation takes, can be anything.
-/

namespace StackMachine

variable {ω : Type}

/-! ## 1. What is shown, told of another program -/

def Event.withProgram (q : Program) : Event → Event
  | offered w answer => offered w answer
  | watched seen => watched { seen with program := q }

def Reply.withProgram (q : Program) (r : Reply ω) : Reply ω :=
  { r with
    exterior := { r.exterior with program := q }
    events := r.events.map (Event.withProgram q) }

/-- The observer acts on the world in the same way whatever program it sees. -/
def ProgramBlind (watch : Machine.Exterior → ω → ω) : Prop :=
  ∀ seen program, watch { seen with program } = watch seen

namespace Session

variable {watch : Machine.Exterior → ω → ω} (outlet : Outlet ω)

def retold (q : Program) (world : ω × List Event) : ω × List Event :=
  (world.1, world.2.map (Event.withProgram q))

theorem follows_retold (q : Program) : Follows (retold q) outlet.logged outlet.logged := by
  intro w world
  simp only [Outlet.logged, retold, List.map_append]
  rfl

theorem watching_retold (hwatch : ProgramBlind watch) (q : Program) (m : Machine)
    (world : ω × List Event) :
    watching watch { m with program := q } (retold q world) =
      retold q (watching watch m world) := by
  have hseen : Machine.exterior { m with program := q } = { m.exterior with program := q } := rfl
  simp only [watching, retold, hseen, hwatch m.exterior q, List.map_append]
  rfl

/-! ## 2. Runs with a log and without -/

theorem advanceBy_logged (fuel : Nat) (s : Session ω) (log : List Event) :
    advanceBy outlet (fun m => watch m.exterior) fuel s =
      transferred s.machine.program Prod.fst
        (advanceBy outlet.logged (watching watch) fuel (s.logging log)) := by
  -- the log is kept beside the world, so that leaving it out is a map of worlds
  have hfollows : Follows Prod.fst outlet.logged outlet := fun _ _ => rfl
  apply advanceBy_transfer hfollows rfl _ fuel (s := s.logging log) rfl fun _ _ ip _ => .refl _ ip
  intro m world hm
  rw [← hm]
  rfl

theorem fetchedAt?_logged (s : Session ω) (log : List Event) (n : Nat) :
    fetchedAt? outlet.logged (watching watch) (s.logging log) n =
      fetchedAt? outlet (fun m => watch m.exterior) s n := by
  unfold fetchedAt?
  rw [advanceBy_logged outlet n s log]
  match advanceBy outlet.logged (watching watch) n (s.logging log) with
  | .ok false t => rfl
  | .ok true t => rfl
  | .error e t => rfl

/-! ## 3. Two programs -/

/-- Only the records that are fetched matter to a run, and only what is used of them. Let two
programs have the same size, and let them agree at every position from which the run of one fetches:
in the tag of the record, and in its operand if the tag names an operation that takes one. Then the
run of the other gives the same answer, shows the same to its observer and to the outlet in the same
order, and leaves the same stack, instruction pointer, halted flag, state and world. -/
theorem run_depends_on_fetched_records (p q : Program) (hsize : p.size = q.size) (fuel : Nat)
    (watch : Machine.Exterior → ω → ω) (hwatch : ProgramBlind watch) (world : ω)
    (hsame :
      ∀ n < fuel, ∀ ip ∈ fetchedAt? outlet (fun m => watch m.exterior) (boot p world) n,
        Table.Agree p q ip) :
    ((Request.runWatched watch fuel).serve outlet (boot q world)).1 =
      ((Request.runWatched watch fuel).serve outlet (boot p world)).1.withProgram q := by
  have hrun := runObserved_transfer (follows_retold outlet q) hsize
    (fun m world _ => watching_retold hwatch q m world)
    fuel (s := (boot p world).logging []) rfl
    fun n hn ip hip => hsame n hn ip (fetchedAt?_logged outlet (boot p world) [] n ▸ hip)
  change runObserved outlet.logged (watching watch) fuel ((boot q world).logging []) = _ at hrun
  simp only [Request.serve, Request.perform, hrun]
  cases runObserved outlet.logged (watching watch) fuel ((boot p world).logging []) <;> rfl

/-- A jump leads over a record with an unknown tag, and a value is printed. With another record
behind the jump, and other operands where none is taken, the run is the same. -/
theorem run_depends_on_fetched_records_over_unknown :
    let p : Program :=
      ⟨#[.of .push 7, .bare .printDebug, .of .jmp 4, ⟨99, 0⟩, .bare .halt], by decide⟩
    let q : Program :=
      ⟨#[.of .push 7, .of .printDebug 5, .of .jmp 4, .of .dup (-1), .of .halt 8], by decide⟩
    let outlet : Outlet (List Word) := ⟨fun w printed => (.ok (), printed ++ [w])⟩
    let request : Request (List Word) := .runWatched (fun _ printed => printed) 10
    (∀ n < 10, ∀ ip ∈ fetchedAt? outlet (fun _ printed => printed) (boot p []) n,
      Table.Agree p q ip) ∧
      (request.serve outlet (boot q [])).1 =
        (request.serve outlet (boot p [])).1.withProgram q := by
  intro p q outlet request
  have hchecked : ∀ n < 10, (fetchedAt? outlet (fun _ printed => printed) (boot p []) n).all
      (fun ip => decide (Table.Agree p q ip)) = true := by
    decide +kernel
  have hsame : ∀ n < 10, ∀ ip ∈ fetchedAt? outlet (fun _ printed => printed) (boot p []) n,
      Table.Agree p q ip := by
    intro n hn ip hip
    have hagree := hchecked n hn
    rw [Option.mem_def.1 hip] at hagree
    exact of_decide_eq_true hagree
  exact ⟨hsame, run_depends_on_fetched_records outlet p q rfl 10 _ (fun _ _ => rfl) [] hsame⟩

end Session
end StackMachine
