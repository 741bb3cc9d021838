import StackMachine.Stack

/-!
The operand stack as a list. The live slots, read from the top, are the values of the stack, and
every operation acts on them as on a list of bounded length, whatever the slots above the top hold.
-/

namespace StackMachine.Stack

/-- The stack has `capacity` slots, and its live slots hold `vs`, the top first. -/
structure Holds (s : Stack) (capacity : Nat) (vs : List Word) : Prop where
  size_slots : s.slots.size = capacity
  len_le : s.len ≤ capacity
  toList_eq : s.toList = vs.reverse

variable {s : Stack} {capacity : Nat} {vs : List Word}

/-! ## 1. The live slots -/

theorem length_toList (s : Stack) (h : s.len ≤ s.slots.size) : s.toList.length = s.len := by
  rw [toList, List.length_take, Array.length_toList]
  exact Nat.min_eq_left h

theorem Holds.of_size_eq (hsize : s.slots.size = capacity) (hlen : s.len ≤ capacity) :
    s.Holds capacity s.toList.reverse :=
  ⟨hsize, hlen, (List.reverse_reverse _).symm⟩

theorem Holds.len_le_size (h : s.Holds capacity vs) : s.len ≤ s.slots.size := by
  rw [h.size_slots]
  exact h.len_le

theorem Holds.len_eq (h : s.Holds capacity vs) : s.len = vs.length := by
  rw [← length_toList s h.len_le_size, h.toList_eq, List.length_reverse]

theorem Holds.reverse_toList (h : s.Holds capacity vs) : s.toList.reverse = vs := by
  rw [h.toList_eq, List.reverse_reverse]

theorem Holds.getD_slots {depth : Nat} {w : Word} (h : s.Holds capacity vs)
    (hw : vs[depth]? = some w) :
    s.slots.getD (s.len - 1 - depth) 0 = w := by
  obtain ⟨hdepth, -⟩ := List.getElem?_eq_some_iff.1 hw
  have hlen := h.len_eq
  have hslot : s.len - 1 - depth < s.len := by omega
  -- slots count from the bottom, the list from the top
  have hget : s.toList[s.len - 1 - depth]? = some w := by
    rw [h.toList_eq, List.getElem?_reverse (by omega), hlen,
      show vs.length - 1 - (vs.length - 1 - depth) = depth by omega]
    exact hw
  rw [toList, List.getElem?_take_of_lt hslot, Array.getElem?_toList] at hget
  rw [Array.getD_eq_getD_getElem?, hget, Option.getD_some]

theorem Holds.drop_top {w : Word} (h : s.Holds capacity (w :: vs)) :
    Holds { s with len := s.len - 1 } capacity vs := by
  have hlen : s.len = vs.length + 1 := h.len_eq
  have hle := h.len_le
  refine ⟨h.size_slots, by change s.len - 1 ≤ capacity; omega, ?_⟩
  change s.slots.toList.take (s.len - 1) = vs.reverse
  have htake : s.slots.toList.take (s.len - 1) = s.toList.take (s.len - 1) := by
    rw [toList, List.take_take, Nat.min_eq_left (by omega)]
  rw [htake, h.toList_eq, List.reverse_cons,
    List.take_append_of_le_length (by simp only [List.length_reverse]; omega)]
  exact List.take_of_length_le (by simp only [List.length_reverse]; omega)

theorem Holds.write_free {w : Word} (h : s.Holds capacity vs) (hfree : s.len < capacity) :
    Holds ⟨s.slots.set! s.len w, s.len + 1⟩ capacity (w :: vs) := by
  have hsize := h.size_slots
  refine ⟨?_, hfree, ?_⟩
  · rw [Array.set!_eq_setIfInBounds, Array.size_setIfInBounds]
    exact hsize
  · change (s.slots.set! s.len w).toList.take (s.len + 1) = (w :: vs).reverse
    have hslot : s.len < s.slots.toList.length := by rw [Array.length_toList]; omega
    have hbelow : s.slots.toList.take s.len = vs.reverse := h.toList_eq
    rw [Array.set!_eq_setIfInBounds, Array.toList_setIfInBounds, List.take_add_one,
      List.getElem?_set_self hslot, List.take_set_of_le (Nat.le_refl _), hbelow, List.reverse_cons]
    rfl

theorem Holds.write_top {v w : Word} (h : s.Holds capacity (v :: vs)) :
    Holds { s with slots := s.slots.set! (s.len - 1) w } capacity (w :: vs) := by
  have hlen : s.len = vs.length + 1 := h.len_eq
  have hle := h.len_le
  -- dropping the top and writing the slot that became free is the same stack
  have hwritten := h.drop_top.write_free (w := w) (by change s.len - 1 < capacity; omega)
  have hback : s.len - 1 + 1 = s.len := by omega
  simpa only [hback] using hwritten

/-! ## 2. Operations on the list -/

theorem holds_new (capacity : Nat) : (new capacity).Holds capacity [] :=
  ⟨Array.size_replicate, Nat.zero_le _, rfl⟩

theorem Holds.push (h : s.Holds capacity vs) (w : Word) (hfree : vs.length < capacity) :
    ∃ s', Stack.push w s = .ok () s' ∧ s'.Holds capacity (w :: vs) := by
  have hlen := h.len_eq
  refine ⟨_, ?_, h.write_free (by omega)⟩
  rw [push_eq w s h.len_le_size, if_neg (by rw [h.size_slots]; omega)]

theorem Holds.push_full (h : s.Holds capacity vs) (w : Word) (hfull : capacity ≤ vs.length) :
    Stack.push w s = .error (.fault (.stackOverflow capacity)) s := by
  have hlen := h.len_eq
  have hle := h.len_le
  rw [push_eq w s h.len_le_size, if_pos (by rw [h.size_slots]; omega), h.size_slots]

theorem Holds.pop {w : Word} (h : s.Holds capacity (w :: vs)) :
    ∃ s', Stack.pop s = .ok w s' ∧ s'.Holds capacity vs := by
  have hlen : s.len = vs.length + 1 := h.len_eq
  refine ⟨_, ?_, h.drop_top⟩
  have htop : s.slots.getD (s.len - 1) 0 = w := h.getD_slots (show (w :: vs)[0]? = some w from rfl)
  rw [pop_eq s h.len_le_size, if_neg (by omega), htop]

theorem Holds.pop_nil (h : s.Holds capacity []) :
    Stack.pop s = .error (.fault (.stackUnderflow 1 0)) s := by
  have hlen : s.len = 0 := h.len_eq
  rw [pop_eq s h.len_le_size, if_pos hlen]

theorem Holds.peek {depth : Nat} {w : Word} (h : s.Holds capacity vs) (hw : vs[depth]? = some w) :
    Stack.peek depth s = .ok w s := by
  obtain ⟨hdepth, -⟩ := List.getElem?_eq_some_iff.1 hw
  have hlen := h.len_eq
  rw [peek_eq depth s h.len_le_size, if_neg (by omega), h.getD_slots hw]

theorem Holds.peek_none {depth : Nat} (h : s.Holds capacity vs) (hw : vs[depth]? = none) :
    Stack.peek depth s =
      .error (.fault (.stackUnderflow (min (depth + 1) Decimal.maxCount) vs.length)) s := by
  have hdepth := List.getElem?_eq_none_iff.1 hw
  have hlen := h.len_eq
  rw [peek_eq depth s h.len_le_size, if_pos (by omega), hlen]

theorem Holds.setTop {v : Word} (h : s.Holds capacity (v :: vs)) (w : Word) :
    ∃ s', Stack.setTop w s = .ok () s' ∧ s'.Holds capacity (w :: vs) := by
  have hlen : s.len = vs.length + 1 := h.len_eq
  refine ⟨_, ?_, h.write_top⟩
  rw [setTop_eq w s h.len_le_size, if_neg (by omega)]

theorem Holds.setTop_nil (h : s.Holds capacity []) (w : Word) :
    Stack.setTop w s = .error (.fault (.stackUnderflow 1 0)) s := by
  have hlen : s.len = 0 := h.len_eq
  rw [setTop_eq w s h.len_le_size, if_pos hlen]

theorem Holds.require (h : s.Holds capacity vs) {n : Nat} (hn : n ≤ vs.length) :
    Stack.require n s = .ok () s := by
  have hlen := h.len_eq
  unfold Stack.require
  rw [if_neg (by omega)]

theorem Holds.require_short (h : s.Holds capacity vs) {n : Nat} (hn : vs.length < n) :
    Stack.require n s = .error (.fault (.stackUnderflow n vs.length)) s := by
  have hlen := h.len_eq
  unfold Stack.require
  rw [if_pos (by omega), hlen]

theorem Holds.clear (h : s.Holds capacity vs) : s.clear.Holds capacity [] :=
  ⟨h.size_slots, Nat.zero_le capacity, rfl⟩

end StackMachine.Stack
