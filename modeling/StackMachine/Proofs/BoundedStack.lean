import StackMachine.Proofs.StackView

/-!
The operand stack refines a list of bounded length. The list has no slots and nothing above its top;
what it does with an operation is said by the words alone. Whatever is asked of a stack, in whatever
order, it answers as the list does.
-/

namespace StackMachine.Stack

variable {capacity : Nat} {s : Stack} {α β : Type}

/-! ## 1. Operations -/

/-- What can be asked of a stack. -/
inductive Op where
  | push (w : Word)
  | pop
  | peek (depth : Nat)
  | setTop (w : Word)
  | require (count : Nat)
  | clear

/-- The entry that is popped or looked at is the answer; the other operations answer nothing. -/
def Op.perform : Op → Action (Option Word)
  | push w => (fun _ => none) <$> Stack.push w
  | pop => some <$> Stack.pop
  | peek depth => some <$> Stack.peek depth
  | setTop w => (fun _ => none) <$> Stack.setTop w
  | require count => (fun _ => none) <$> Stack.require count
  | clear => fun s => .ok none s.clear

/-- The answer of an operation, and the stack that it leaves. -/
def serve (s : Stack) (op : Op) : Except Trap (Option Word) × Stack :=
  match op.perform s with
  | .ok answer next => (.ok answer, next)
  | .error e next => (.error e, next)

/-- The stack after a sequence of operations, those that fail among them. -/
def serveAll (s : Stack) (ops : List Op) : Stack := ops.foldl (fun s op => (s.serve op).2) s

/-! ## 2. Lists of bounded length -/

/-- At most `capacity` words, bottom to top. -/
structure Bounded (capacity : Nat) where
  words : List Word
  fits : words.length ≤ capacity

namespace Bounded

def empty : Bounded capacity := ⟨[], Nat.zero_le capacity⟩

def perform (b : Bounded capacity) : Op → Except Fault (Option Word × Bounded capacity)
  | .push w =>
    if h : b.words.length < capacity then .ok (none, ⟨b.words ++ [w], List.length_append ▸ h⟩)
    else .error (.stackOverflow capacity)
  | .pop =>
    match b.words.getLast? with
    | some w =>
        .ok (some w,
          ⟨b.words.dropLast, Nat.le_trans (List.length_dropLast ▸ Nat.sub_le _ 1) b.fits⟩)
    | none => .error (.stackUnderflow 1 0)
  | .peek depth =>
    match b.words.reverse[depth]? with
    | some w => .ok (some w, b)
    -- the report asks for one entry more than the depth, or for the largest count
    | none => .error (.stackUnderflow (min (depth + 1) Decimal.maxCount) b.words.length)
  | .setTop w =>
    if b.words = [] then .error (.stackUnderflow 1 0)
    else
      .ok (none,
        ⟨b.words.set (b.words.length - 1) w, Nat.le_trans (Nat.le_of_eq List.length_set) b.fits⟩)
  | .require count =>
    if count ≤ b.words.length then .ok (none, b) else .error (.stackUnderflow count b.words.length)
  | .clear => .ok (none, empty)

/-- The answer of an operation, and the list that it leaves: the same list if it fails. -/
def serve (b : Bounded capacity) (op : Op) : Except Fault (Option Word) × Bounded capacity :=
  match b.perform op with
  | .ok (answer, next) => (.ok answer, next)
  | .error cause => (.error cause, b)

def serveAll (b : Bounded capacity) (ops : List Op) : Bounded capacity :=
  ops.foldl (fun b op => (b.serve op).2) b

end Bounded

/-! ## 3. One operation -/

theorem map_ok {act : Action α} {t : Stack} {a : α} (f : α → β) (h : act s = .ok a t) :
    (f <$> act) s = .ok (f a) t := by
  change EStateM.map f act s = _
  rw [EStateM.map, h]

theorem map_error {act : Action α} {t : Stack} {e : Trap} (f : α → β) (h : act s = .error e t) :
    (f <$> act) s = .error e t := by
  change EStateM.map f act s = _
  rw [EStateM.map, h]

/-- The stack does what the list does: either both succeed with the same answer, and the stack left
holds the list left, or both fail for the same cause, and the stack is left as it was. -/
inductive Follows (s : Stack) (op : Op) : Except Fault (Option Word × Bounded capacity) → Prop
  | succeeds (answer : Option Word) (next : Bounded capacity) (t : Stack)
      (performed : op.perform s = .ok answer t)
      (holds : t.Holds capacity next.words.reverse) : Follows s op (.ok (answer, next))
  | fails (cause : Fault) (performed : op.perform s = .error (.fault cause) s) :
      Follows s op (.error cause)

section

-- the stack keeps its entries from the bottom on, as the list does; `Holds` counts from the top
variable {b : Bounded capacity} (h : s.Holds capacity b.words.reverse)
include h

theorem follows_push (w : Word) : Follows s (.push w) (b.perform (.push w)) := by
  have hlength : b.words.reverse.length = b.words.length := List.length_reverse
  rw [Bounded.perform]
  split
  · next hfree =>
    obtain ⟨t, hpush, ht⟩ := h.push w (hlength ▸ hfree)
    refine .succeeds _ _ t (map_ok _ hpush) ?_
    rw [List.reverse_append]
    exact ht
  · next hfull => exact .fails _ (map_error _ (h.push_full w (by omega)))

theorem follows_pop : Follows s .pop (b.perform .pop) := by
  rw [Bounded.perform]
  split
  · next w hlast =>
    obtain ⟨below, hwords⟩ := List.getLast?_eq_some_iff.1 hlast
    have hbelow : b.words.dropLast = below := by rw [hwords, List.dropLast_concat]
    rw [hwords, List.reverse_append] at h
    obtain ⟨t, hpop, ht⟩ := h.pop
    refine .succeeds _ _ t (map_ok _ hpop) ?_
    change t.Holds capacity b.words.dropLast.reverse
    rw [hbelow]
    exact ht
  · next hlast =>
    rw [List.getLast?_eq_none_iff.1 hlast] at h
    exact .fails _ (map_error _ h.pop_nil)

theorem follows_peek (depth : Nat) : Follows s (.peek depth) (b.perform (.peek depth)) := by
  rw [Bounded.perform]
  split
  · next w hw => exact .succeeds _ _ s (map_ok _ (h.peek hw)) h
  · next hnone =>
    have hpeek := h.peek_none hnone
    rw [List.length_reverse] at hpeek
    exact .fails _ (map_error _ hpeek)

theorem follows_setTop (w : Word) : Follows s (.setTop w) (b.perform (.setTop w)) := by
  rw [Bounded.perform]
  split
  · next hempty =>
    rw [hempty] at h
    exact .fails _ (map_error _ (h.setTop_nil w))
  · next hne =>
    obtain ⟨below, v, hwords⟩ := (List.eq_nil_or_concat b.words).resolve_left hne
    rw [List.concat_eq_append] at hwords
    have hset : b.words.set (b.words.length - 1) w = below ++ [w] := by
      rw [hwords, List.length_append, List.length_singleton, Nat.add_sub_cancel,
        List.set_append_right _ _ (Nat.le_refl _), Nat.sub_self]
      rfl
    rw [hwords, List.reverse_append] at h
    obtain ⟨t, hsetTop, ht⟩ := h.setTop w
    refine .succeeds _ _ t (map_ok _ hsetTop) ?_
    change t.Holds capacity (b.words.set (b.words.length - 1) w).reverse
    rw [hset, List.reverse_append]
    exact ht

theorem follows_require (count : Nat) :
    Follows s (.require count) (b.perform (.require count)) := by
  have hlength : b.words.reverse.length = b.words.length := List.length_reverse
  rw [Bounded.perform]
  split
  · next henough => exact .succeeds _ _ s (map_ok _ (h.require (hlength ▸ henough))) h
  · next hshort =>
    have hrequire := h.require_short (n := count) (by omega)
    rw [hlength] at hrequire
    exact .fails _ (map_error _ hrequire)

theorem follows (op : Op) : Follows s op (b.perform op) := by
  cases op with
  | push w => exact follows_push h w
  | pop => exact follows_pop h
  | peek depth => exact follows_peek h depth
  | setTop w => exact follows_setTop h w
  | require count => exact follows_require h count
  | clear => exact .succeeds _ _ s.clear rfl h.clear

/-! ## 4. Sequences of operations -/

/-- An operation answers as on the list and leaves what the list leaves; where it fails, it leaves
the stack itself. -/
theorem serve_follows (op : Op) :
    (s.serve op).1 = (b.serve op).1.mapError .fault ∧
    (s.serve op).2.Holds capacity (b.serve op).2.words.reverse ∧
      ∀ e, (s.serve op).1 = .error e → (s.serve op).2 = s := by
  have hfollows := follows h op
  rw [serve, Bounded.serve]
  generalize b.perform op = result at hfollows ⊢
  cases hfollows with
  | succeeds answer next t performed holds =>
    rw [performed]
    refine ⟨rfl, holds, fun e hfails => ?_⟩
    cases hfails
  | fails cause performed =>
    rw [performed]
    exact ⟨rfl, h, fun e _ => rfl⟩

theorem holds_serveAll (ops : List Op) :
    (s.serveAll ops).Holds capacity (b.serveAll ops).words.reverse := by
  induction ops generalizing s b with
  | nil => exact h
  | cons op ops ih => exact ih (serve_follows h op).2.1

end

/-- After any sequence of operations on a new stack, the live entries are the words of the list
after the same operations, and the stack has the slots that it was made with. The next operation
gives the answer of the list, and if that is a failure, the stack stays as it is. -/
theorem operations_refine_list (capacity : Nat) (ops : List Op) (op : Op) :
    let s := (new capacity).serveAll ops
    let b := (Bounded.empty : Bounded capacity).serveAll ops
    s.toList = b.words ∧ s.len = b.words.length ∧ s.slots.size = capacity ∧
      (s.serve op).1 = (b.serve op).1.mapError .fault ∧
      ∀ e, (s.serve op).1 = .error e → (s.serve op).2 = s := by
  intro s b
  have hholds : s.Holds capacity b.words.reverse := holds_serveAll (holds_new capacity) ops
  obtain ⟨hanswer, -, hfails⟩ := serve_follows hholds op
  refine ⟨?_, ?_, hholds.size_slots, hanswer, hfails⟩
  · rw [hholds.toList_eq, List.reverse_reverse]
  · rw [hholds.len_eq, List.length_reverse]

-- one entry more than the largest depth is no count, and the report stops at the largest one
example :
    ((new 1).serve (.peek Decimal.maxCount)).1 =
      .error (.fault (.stackUnderflow Decimal.maxCount 0)) := rfl

end StackMachine.Stack
