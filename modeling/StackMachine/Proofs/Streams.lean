import Mathlib.Algebra.Ring.Nat
import StackMachine.Proofs.BinaryForms

/-!
Streams of values of different kinds, written back to back and read back in turn. Nothing in a
stream says where a value ends or what kind it has: the reader knows the kinds, and the width of
each kind does the rest.

The main statement is about one stream through both sinks and back. It rests on two facts about a
single value: reading its bytes takes just these bytes (`Exact`), and an encoder cannot tell one
sink from another (`encode_natural`).
-/

namespace StackMachine.Codec

/-! ## 1. Kinds and items -/

/-- The types with a binary form. -/
inductive Kind where
  | uint32
  | word
  | instruction
deriving DecidableEq, Repr

namespace Kind

abbrev Value : Kind → Type
  | uint32 => UInt32
  | word => Word
  | instruction => Instruction

instance wire : (kind : Kind) → Wire kind.Value
  | uint32 => inferInstanceAs (Wire UInt32)
  | word => inferInstanceAs (Wire Word)
  | instruction => inferInstanceAs (Wire Instruction)

/-- Number of bytes of every value of a kind. -/
def width : Kind → Nat
  | uint32 => 4
  | word => 8
  | instruction => Instruction.recordSize

theorem exact : (kind : Kind) → Exact kind.Value kind.width
  | uint32 => exact_uint32
  | word => exact_word
  | instruction => exact_instruction

end Kind

/-- A value together with its kind. -/
structure Item where
  kind : Kind
  value : kind.Value

/-- Writes the items of a stream to one sink, in order. -/
def encodeAll {σ : Type} (sink : Sink σ) (items : List Item) (out : σ) : σ :=
  items.foldl (fun out item => Wire.encode sink item.value out) out

/-- Reads one item of each of the given kinds off one input, in order. -/
def decodeAll : List Kind → Reader (List Item)
  | [] => pure []
  | kind :: kinds => do
    let v ← (Wire.decode : Reader kind.Value)
    let items ← decodeAll kinds
    return ⟨kind, v⟩ :: items

/-! ## 2. Two sinks -/

/-- A map between the states of two sinks under which writing to the one is writing to the other. -/
def Sink.Maps {σ τ : Type} (source : Sink σ) (target : Sink τ) (f : σ → τ) : Prop :=
  ∀ bytes out, f (source.write bytes out) = target.write bytes (f out)

theorem Sink.maps_size : Sink.Maps Sink.buffer Sink.counter Array.size := by
  intro bytes out
  show (out ++ bytes).size = out.size + bytes.length
  rw [← Array.length_toList, Array.toList_appendList, List.length_append, Array.length_toList]

theorem encode_natural {σ τ : Type} {source : Sink σ} {target : Sink τ} {f : σ → τ}
    (hmaps : source.Maps target f) (kind : Kind) (v : kind.Value) (out : σ) :
    f (Wire.encode source v out) = Wire.encode target v (f out) := by
  cases kind with
  | uint32 => exact hmaps _ _
  | word => exact hmaps _ _
  | instruction =>
    -- a record is two writes, the operand's onto what the tag's left behind
    have htag : f (Wire.encode source v.tag out) = Wire.encode target v.tag (f out) := hmaps _ _
    show f (Wire.encode source v.operand (Wire.encode source v.tag out)) = _
    rw [show f (Wire.encode source v.operand _) = Wire.encode target v.operand (f _) from hmaps _ _,
      htag]
    rfl

theorem encodeAll_natural {σ τ : Type} {source : Sink σ} {target : Sink τ} {f : σ → τ}
    (hmaps : source.Maps target f) (items : List Item) (out : σ) :
    f (encodeAll source items out) = encodeAll target items (f out) :=
  (List.foldl_hom f fun out item => (encode_natural hmaps item.kind item.value out).symm).symm

theorem byteCount_eq_length (item : Item) : byteCount item.value = (bytes item.value).length :=
  (encode_natural Sink.maps_size item.kind item.value #[]).symm

/-! ## 3. One stream -/

theorem encodeAll_buffer (items : List Item) (out : Array UInt8) :
    (encodeAll Sink.buffer items out).toList =
      out.toList ++ items.flatMap fun item => bytes item.value := by
  induction items generalizing out with
  | nil => simp [encodeAll]
  | cons item items ih =>
    show (encodeAll Sink.buffer items (Wire.encode Sink.buffer item.value out)).toList = _
    rw [ih, item.kind.exact.encode_buffer, Array.toList_appendList, List.append_assoc,
      List.flatMap_cons]

theorem decodeAll_cons {kind : Kind} {kinds : List Kind} {v : kind.Value} {items : List Item}
    {input middle rest : Bytes} (hhead : Wire.decode input = .ok v middle)
    (htail : decodeAll kinds middle = .ok items rest) :
    decodeAll (kind :: kinds) input = .ok (⟨kind, v⟩ :: items) rest := by
  show EStateM.bind (Wire.decode : Reader kind.Value)
      (fun v => EStateM.bind (decodeAll kinds) fun items =>
    EStateM.pure (⟨kind, v⟩ :: items)) input = _
  simp only [EStateM.bind, hhead, htail]
  rfl

theorem decodeAll_flatMap (items : List Item) (rest : Bytes) :
    decodeAll (items.map Item.kind) ((items.flatMap fun item => bytes item.value) ++ rest) =
      .ok items rest := by
  induction items with
  | nil => rfl
  | cons item items ih =>
    rw [List.flatMap_cons, List.append_assoc, List.map_cons]
    exact decodeAll_cons (item.kind.exact.decode_bytes item.value _) ih

/-- A stream is its values' binary forms back to back, the counter agrees with the buffer on its
length, and reading the same kinds gives the values back and leaves what stands behind the
stream. -/
theorem streams_round_trip (items : List Item) (rest : Bytes) :
    (encodeAll Sink.buffer items #[]).toList = (items.flatMap fun item => bytes item.value) ∧
    encodeAll Sink.counter items 0 = (encodeAll Sink.buffer items #[]).size ∧
    encodeAll Sink.counter items 0 = (items.map fun item => byteCount item.value).sum ∧
    decodeAll (items.map Item.kind) ((encodeAll Sink.buffer items #[]).toList ++ rest) =
      .ok items rest := by
  have hbuffer :
      (encodeAll Sink.buffer items #[]).toList = items.flatMap fun item => bytes item.value :=
    encodeAll_buffer items #[]
  have hcounter : encodeAll Sink.counter items 0 = (encodeAll Sink.buffer items #[]).size :=
    (encodeAll_natural Sink.maps_size items #[]).symm
  refine ⟨hbuffer, hcounter, ?_, ?_⟩
  · calc encodeAll Sink.counter items 0
      _ = (encodeAll Sink.buffer items #[]).toList.length := hcounter
      _ = (items.map fun item => (bytes item.value).length).sum := by
        rw [hbuffer, List.length_flatMap]
      _ = (items.map fun item => byteCount item.value).sum := by simp only [byteCount_eq_length]
  · rw [hbuffer]
    exact decodeAll_flatMap items rest

-- a record has the bytes of its tag and its operand, so a stream does not show which of the two was
-- written
example (i : Instruction) : encodeAll Sink.buffer [⟨.instruction, i⟩] #[] =
    encodeAll Sink.buffer [⟨.uint32, i.tag⟩, ⟨.word, i.operand⟩] #[] := rfl

end StackMachine.Codec
