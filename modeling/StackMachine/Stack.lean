import StackMachine.Fault

/-!
The operand stack: a fixed block of slots and a length. Slots `0 … len - 1` are live, bottom to top;
what the slots above hold is left over from earlier values and never read.

Every operation checks before it writes. The slot accesses behind the checks are breaches when they
miss, so that "no operation misses a slot" is a statement about these definitions.
-/

namespace StackMachine

structure Stack where
  slots : Array Word
  len : Nat
deriving DecidableEq, Repr

namespace Stack

/-- An empty stack for at most `capacity` words. -/
def new (capacity : Nat) : Stack := ⟨Array.replicate capacity 0, 0⟩

def capacity (s : Stack) : Nat := s.slots.size

def isFull (s : Stack) : Bool := s.len == s.slots.size

/-- The live entries, bottom to top. -/
def toList (s : Stack) : List Word := s.slots.toList.take s.len

def clear (s : Stack) : Stack := { s with len := 0 }

/-- Computations on a stack. One that stops leaves the stack as it was at that point. -/
abbrev Action := EStateM Trap Stack

/-! ## 1. Slots -/

def readSlot (i : Nat) : Action Word := fun s =>
  match s.slots[i]? with
  | some w => .ok w s
  | none => .error (.breach (.slotOutOfRange i s.slots.size)) s

def writeSlot (i : Nat) (w : Word) : Action Unit := fun ⟨slots, len⟩ =>
  if i < slots.size then .ok () ⟨slots.set! i w, len⟩
  else .error (.breach (.slotOutOfRange i slots.size)) ⟨slots, len⟩

/-- The slot of the entry `depth` positions below the top. -/
def slotAt (depth : Nat) : Action Nat := fun s =>
  if depth < s.len then .ok (s.len - 1 - depth) s
  else .error (.breach (.entryOutOfRange depth s.len)) s

def getLen : Action Nat := fun s => .ok s.len s

def setLen (len : Nat) : Action Unit := fun s => .ok () { s with len }

/-! ## 2. Checks -/

/-- At least `n` entries are live. -/
def require (n : Nat) : Action Unit := fun s =>
  if s.len < n then .error (.fault (.stackUnderflow n s.len)) s else .ok () s

/-- Entry number `depth` below the top is live. The count in the report stops at the largest one. -/
def requireDepth (depth : Nat) : Action Unit := fun s =>
  if s.len ≤ depth then .error (.fault (.stackUnderflow (min (depth + 1) Decimal.maxCount) s.len)) s
  else .ok () s

/-- A slot is free. -/
def requireFree : Action Unit := fun s =>
  if s.isFull then .error (.fault (.stackOverflow s.capacity)) s else .ok () s

/-! ## 3. Operations -/

def push (w : Word) : Action Unit := do
  requireFree
  let len ← getLen
  writeSlot len w
  setLen (len + 1)

def pop : Action Word := do
  require 1
  let top ← slotAt 0
  setLen top
  readSlot top

/-- The entry `depth` positions below the top. -/
def peek (depth : Nat) : Action Word := do
  requireDepth depth
  readSlot (← slotAt depth)

/-- Overwrites the top entry. -/
def setTop (w : Word) : Action Unit := do
  require 1
  writeSlot (← slotAt 0) w

/-! ## 4. The operations on a stack whose entries fit its slots -/

theorem push_eq (w : Word) (s : Stack) (h : s.len ≤ s.slots.size) :
    push w s =
      if s.len = s.slots.size then .error (.fault (.stackOverflow s.slots.size)) s
      else .ok () ⟨s.slots.set! s.len w, s.len + 1⟩ := by
  by_cases hfull : s.len = s.slots.size
  · simp [push, requireFree, isFull, capacity, hfull, bind, EStateM.bind]
  · have hfree : s.len < s.slots.size := by omega
    simp [push, requireFree, isFull, hfull, bind, EStateM.bind, getLen, writeSlot, hfree, setLen]

theorem pop_eq (s : Stack) (h : s.len ≤ s.slots.size) :
    pop s =
      if s.len = 0 then .error (.fault (.stackUnderflow 1 0)) s
      else .ok (s.slots.getD (s.len - 1) 0) { s with len := s.len - 1 } := by
  by_cases hempty : s.len = 0
  · simp [pop, require, hempty, bind, EStateM.bind]
  · have hlive : ¬ s.len < 1 := by omega
    have htop : s.len - 1 < s.slots.size := by omega
    simp [pop, require, hlive, hempty, bind, EStateM.bind, slotAt, Nat.pos_of_ne_zero hempty,
      setLen, readSlot, htop]

theorem peek_eq (depth : Nat) (s : Stack) (h : s.len ≤ s.slots.size) :
    peek depth s =
      if s.len ≤ depth then
        .error (.fault (.stackUnderflow (min (depth + 1) Decimal.maxCount) s.len)) s
      else .ok (s.slots.getD (s.len - 1 - depth) 0) s := by
  by_cases hdeep : s.len ≤ depth
  · simp [peek, requireDepth, hdeep, bind, EStateM.bind]
  · have hlive : depth < s.len := by omega
    have hslot : s.len - 1 - depth < s.slots.size := by omega
    simp [peek, requireDepth, hdeep, bind, EStateM.bind, slotAt, hlive, readSlot, hslot]

theorem setTop_eq (w : Word) (s : Stack) (h : s.len ≤ s.slots.size) :
    setTop w s =
      if s.len = 0 then .error (.fault (.stackUnderflow 1 0)) s
      else .ok () { s with slots := s.slots.set! (s.len - 1) w } := by
  by_cases hempty : s.len = 0
  · simp [setTop, require, hempty, bind, EStateM.bind]
  · have hlive : ¬ s.len < 1 := by omega
    have htop : s.len - 1 < s.slots.size := by omega
    simp [setTop, require, hlive, hempty, bind, EStateM.bind, slotAt, Nat.pos_of_ne_zero hempty,
      writeSlot, htop]

end Stack
end StackMachine
