import StackMachine.Instruction

/-!
Binary forms are exact: a value is written in a fixed number of bytes, reading takes just these
bytes, and each of the two undoes the other.
-/

namespace StackMachine.Codec

/-- Values of `α` and byte strings of length `width` stand for each other, one to one. -/
structure Exact (α : Type) [Wire α] (width : Nat) : Prop where
  length_bytes (v : α) : (bytes v).length = width
  encode_buffer (v : α) (out : Array UInt8) : Wire.encode Sink.buffer v out = out ++ bytes v
  decode_bytes (v : α) (rest : Bytes) : Wire.decode (bytes v ++ rest) = .ok v rest
  decode_long (input : Bytes) (h : width ≤ input.length) :
    ∃ v : α, Wire.decode input = .ok v (input.drop width) ∧ bytes v = input.take width

section

variable {α : Type} [Wire α] {width : Nat}

theorem Exact.ofBytes_bytes (exact : Exact α width) (v : α) : ofBytes (bytes v) = .ok v := by
  have hdecode := exact.decode_bytes v []
  rw [List.append_nil] at hdecode
  rw [ofBytes, hdecode]

theorem Exact.ofBytes_of_length (exact : Exact α width) {input : Bytes} (h : input.length = width) :
    ∃ v : α, ofBytes input = .ok v ∧ bytes v = input := by
  obtain ⟨v, hdecode, hbytes⟩ := exact.decode_long input (by omega)
  rw [List.drop_eq_nil_of_le (by omega)] at hdecode
  rw [List.take_of_length_le (by omega)] at hbytes
  exact ⟨v, by rw [ofBytes, hdecode], hbytes⟩

end

/-! ## 1. Integers -/

theorem value_lt (bs : Bytes) : value bs < Nat.pow 256 bs.length := by
  induction bs with
  | nil => decide
  | cons b bs ih =>
    have hb : b.toNat < 256 := b.toNat_lt
    have hpow : Nat.pow 256 (bs.length + 1) = Nat.pow 256 bs.length * 256 := rfl
    rw [value, List.length_cons, hpow]
    omega

theorem take_of_le {width : Nat} {input : Bytes} (h : width ≤ input.length) :
    Reader.take width input = .ok (input.take width) (input.drop width) := if_pos h

/-- A type whose values are written as the `width` little-endian bytes of a number `number v` below
`256 ^ width`, and read back from that number. -/
theorem exact_of_number {α : Type} [Wire α] {width : Nat} (number : α → Nat) (ofNumber : Nat → α)
    (hencode : ∀ {σ : Type} (sink : Sink σ) (v : α) (out : σ),
      Wire.encode sink v out = sink.write (littleEndian width (number v)) out)
    (hdecode : ∀ (input rest read : Bytes), Reader.take width input = .ok read rest →
      (Wire.decode : Reader α) input = .ok (ofNumber (value read)) rest)
    (hlt : ∀ v, number v < Nat.pow 256 width) (hof : ∀ v, ofNumber (number v) = v)
    (hnumber : ∀ n < Nat.pow 256 width, number (ofNumber n) = n) : Exact α width := by
  have hbytes : ∀ v : α, bytes v = littleEndian width (number v) := by
    intro v
    rw [bytes, hencode]
    change ((#[] : Array UInt8) ++ littleEndian width (number v)).toList = _
    rw [Array.toList_appendList]
    rfl
  refine ⟨?_, ?_, ?_, ?_⟩
  · intro v
    rw [hbytes, length_littleEndian]
  · intro v out
    rw [hbytes, hencode]
    rfl
  · intro v rest
    have hlen : (littleEndian width (number v)).length = width :=
      length_littleEndian width (number v)
    rw [hbytes, hdecode _ _ _ (take_of_le (by rw [List.length_append]; omega)),
      List.take_left' hlen, List.drop_left' hlen, value_littleEndian (hlt v), hof]
  · intro input h
    have hlen : (input.take width).length = width := by rw [List.length_take]; omega
    refine ⟨ofNumber (value (input.take width)), hdecode _ _ _ (take_of_le h), ?_⟩
    have hvalue := value_lt (input.take width)
    rw [hlen] at hvalue
    rw [hbytes, hnumber _ hvalue]
    have hback := littleEndian_value (input.take width)
    rw [hlen] at hback
    exact hback

theorem decode_map_take {α : Type} (width : Nat) (f : Bytes → α) {input rest read : Bytes}
    (h : Reader.take width input = .ok read rest) :
    (do return f (← Reader.take width) : Reader α) input = .ok (f read) rest := by
  change EStateM.bind (Reader.take width) (fun bs => EStateM.pure (f bs)) input = _
  rw [EStateM.bind, h]
  rfl

theorem exact_uint32 : Exact UInt32 4 := by
  apply exact_of_number UInt32.toNat UInt32.ofNat
  · intro σ sink v out
    rfl
  · intro input rest read h
    exact decode_map_take 4 (fun bs => UInt32.ofNat (value bs)) h
  · exact UInt32.toNat_lt
  · exact fun v => UInt32.ofNat_toNat
  · intro n hn
    exact UInt32.toNat_ofNat_of_lt' hn

theorem exact_word : Exact Word 8 := by
  apply exact_of_number (fun w => w.toUInt64.toNat) (fun n => (UInt64.ofNat n).toInt64)
  · intro σ sink w out
    rfl
  · intro input rest read h
    exact decode_map_take 8 (fun bs => (UInt64.ofNat (value bs)).toInt64) h
  · exact fun w => w.toUInt64.toNat_lt
  · intro w
    rw [UInt64.ofNat_toNat, Int64.toInt64_toUInt64]
  · intro n hn
    rw [UInt64.toUInt64_toInt64]
    exact UInt64.toNat_ofNat_of_lt' hn

/-! ## 2. Records -/

theorem bytes_instruction (i : Instruction) : bytes i = bytes i.tag ++ bytes i.operand := by
  change (Wire.encode Sink.buffer i.operand (Wire.encode Sink.buffer i.tag #[])).toList = _
  rw [exact_word.encode_buffer, Array.toList_appendList]
  rfl

theorem decode_instruction {input middle rest : Bytes} {tag : UInt32} {operand : Word}
    (htag : Wire.decode input = .ok tag middle) (hoperand : Wire.decode middle = .ok operand rest) :
    Wire.decode input = .ok (⟨tag, operand⟩ : Instruction) rest := by
  change EStateM.bind Wire.decode (fun tag => EStateM.bind Wire.decode fun operand =>
    EStateM.pure (⟨tag, operand⟩ : Instruction)) input = _
  simp only [EStateM.bind, htag, hoperand]
  rfl

theorem exact_instruction : Exact Instruction Instruction.recordSize := by
  refine ⟨?_, ?_, ?_, ?_⟩
  · intro i
    rw [bytes_instruction, List.length_append, exact_uint32.length_bytes, exact_word.length_bytes]
    rfl
  · intro i out
    change Wire.encode Sink.buffer i.operand (Wire.encode Sink.buffer i.tag out) = _
    apply Array.toList_inj.1
    rw [exact_word.encode_buffer, exact_uint32.encode_buffer, bytes_instruction,
      Array.toList_appendList, Array.toList_appendList, Array.toList_appendList, List.append_assoc]
  · intro i rest
    rw [bytes_instruction, List.append_assoc]
    exact decode_instruction (exact_uint32.decode_bytes _ _) (exact_word.decode_bytes _ _)
  · intro input h
    change 12 ≤ input.length at h
    obtain ⟨tag, hdecode, htag⟩ := exact_uint32.decode_long input (by omega)
    obtain ⟨operand, hrest, hoperand⟩ :=
      exact_word.decode_long (input.drop 4) (by rw [List.length_drop]; omega)
    rw [List.drop_drop] at hrest
    -- four bytes and the eight behind them are the first twelve
    refine ⟨⟨tag, operand⟩, decode_instruction hdecode hrest, ?_⟩
    rw [bytes_instruction, htag, hoperand]
    exact (List.take_add).symm

end StackMachine.Codec
