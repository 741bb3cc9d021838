import StackMachine.Instruction

/-!
Programs and their images. A program holds at most `capacity` records; its image is the records back
to back, and an image is a program exactly if it consists of whole records and of no more than fit
the store.
-/

namespace StackMachine

/-- Maximum number of records in a program. -/
def Program.capacity : Nat := 1024

structure Program where
  records : Array Instruction
  size_le : records.size ≤ Program.capacity
deriving DecidableEq, Repr

namespace Program

def size (p : Program) : Nat := p.records.size

def isEmpty (p : Program) : Bool := p.records.isEmpty

def get? (p : Program) (i : Nat) : Option Instruction := p.records[i]?

def empty : Program := ⟨#[], by decide⟩

/-- A program from records in memory. The caller promises to stay below the capacity. -/
def ofList (records : List Instruction) : Except Breach Program :=
  if h : records.length < capacity then
    .ok ⟨records.toArray, by simpa using Nat.le_of_lt h⟩
  else
    .error (.programOverfull records.length capacity)

/-- The records as text, one line each. -/
def listing (p : Program) : List String := p.records.toList.map Instruction.text

/-! ## Images -/

/-- The bytes of all records. -/
def image (p : Program) : Bytes :=
  (p.records.foldl (fun out i => Codec.Wire.encode Codec.Sink.buffer i out) #[]).toList

/-- Reads `count` records. -/
def readRecords : (count : Nat) → Bytes → Except Fault (List Instruction)
  | 0, _ => .ok []
  | count + 1, input =>
    match Codec.ofBytes (input.take Instruction.recordSize) with
    | .error e => .error (.decode e)
    | .ok i =>
      match readRecords count (input.drop Instruction.recordSize) with
      | .error e => .error e
      | .ok rest => .ok (i :: rest)

theorem length_readRecords {count : Nat} {input : Bytes} {records : List Instruction}
    (h : readRecords count input = .ok records) : records.length = count := by
  induction count generalizing input records with
  | zero => simp_all [readRecords]
  | succ count ih =>
    simp only [readRecords] at h
    split at h
    · cases h
    · split at h
      · cases h
      · next rest hrest =>
        cases h
        simp [ih hrest]

/-- Reads a program image. Tags are not checked. -/
def ofImage (input : Bytes) : Except Fault Program :=
  let size := input.length
  let count := size / Instruction.recordSize
  if size % Instruction.recordSize ≠ 0 then
    .error (.misalignedImage size Instruction.recordSize)
  else if h : count ≤ capacity then
    match hr : readRecords count input with
    | .error e => .error e
    | .ok records => .ok ⟨records.toArray, by simpa [length_readRecords hr] using h⟩
  else
    .error (.programTooLarge count capacity)

end Program
end StackMachine
