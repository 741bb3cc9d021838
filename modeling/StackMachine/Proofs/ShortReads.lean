import StackMachine.Proofs.Streams

/-!
Reads that go on after failures. Values of any kinds are asked for, one after the other, of one
input that may end anywhere.

A read that succeeds takes the bytes of its value and no others. A read fails only because the input
is too short for its kind, and then it takes nothing, with one exception: a record is read tag
first, and the tag is not given back.
-/

namespace StackMachine.Codec

/-! ## 1. Readings -/

/-- One read off an input that others read from as well. -/
structure Reading where
  kind : Kind
  answer : Except DecodeError kind.Value
  /-- What was unread before. -/
  input : Bytes
  /-- What is unread afterwards. -/
  unread : Bytes

def Reading.of (kind : Kind) (input : Bytes) : Reading :=
  match (Wire.decode : Reader kind.Value) input with
  | .ok v unread => ⟨kind, .ok v, input, unread⟩
  | .error e unread => ⟨kind, .error e, input, unread⟩

/-- Reads a value of each kind off one input, in order. A read that fails is followed by the
next. -/
def readings : List Kind → Bytes → List Reading
  | [], _ => []
  | kind :: kinds, input => .of kind input :: readings kinds (Reading.of kind input).unread

/-- Number of bytes that a read takes from an input that is too short for it. -/
def Kind.lost : Kind → Bytes → Nat
  | uint32, _ => 0
  | word, _ => 0
  | instruction, input => if input.length < 4 then 0 else 4

/-- Every byte that is gone from the input is accounted for. -/
structure Reading.Conserves (r : Reading) : Prop where
  /-- A value was read from its own binary form. -/
  of_ok : ∀ v, r.answer = .ok v → r.input = bytes v ++ r.unread ∧ (bytes v).length = r.kind.width
  of_error :
    ∀ e, r.answer = .error e → e = .unexpectedEnd ∧ r.unread = r.input.drop (r.kind.lost r.input)
  fails_iff : (∃ e, r.answer = .error e) ↔ r.input.length < r.kind.width

/-! ## 2. One read -/

theorem take_of_lt {width : Nat} {input : Bytes} (h : input.length < width) :
    Reader.take width input = .error .unexpectedEnd input := if_neg (Nat.not_le.2 h)

theorem decode_map_take_of_lt {α : Type} {width : Nat} {input : Bytes} (h : input.length < width)
    (f : Bytes → α) :
    (do return f (← Reader.take width) : Reader α) input = .error .unexpectedEnd input := by
  show EStateM.bind (Reader.take width) (fun bs => EStateM.pure (f bs)) input = _
  rw [EStateM.bind, take_of_lt h]

theorem decode_uint32_of_lt {input : Bytes} (h : input.length < 4) :
    (Wire.decode : Reader UInt32) input = .error .unexpectedEnd input :=
  decode_map_take_of_lt h fun bs => UInt32.ofNat (value bs)

theorem decode_word_of_lt {input : Bytes} (h : input.length < 8) :
    (Wire.decode : Reader Word) input = .error .unexpectedEnd input :=
  decode_map_take_of_lt h fun bs => (UInt64.ofNat (value bs)).toInt64

theorem decode_instruction_of_lt {input : Bytes} (h : input.length < Instruction.recordSize) :
    (Wire.decode : Reader Instruction) input =
      .error .unexpectedEnd (input.drop (Kind.instruction.lost input)) := by
  show EStateM.bind Wire.decode (fun tag => EStateM.bind Wire.decode fun operand =>
    EStateM.pure (⟨tag, operand⟩ : Instruction)) input = _
  by_cases htag : input.length < 4
  · simp only [EStateM.bind, decode_uint32_of_lt htag, Kind.lost, if_pos htag, List.drop_zero]
  · -- the tag is there, and what is left is too short for an operand
    obtain ⟨tag, hdecode, -⟩ := exact_uint32.decode_long input (by omega)
    have hrest : (input.drop 4).length < 8 := by
      rw [List.length_drop]
      change input.length < 12 at h
      omega
    simp only [EStateM.bind, hdecode, decode_word_of_lt hrest, Kind.lost, if_neg htag]

theorem Kind.decode_short (kind : Kind) {input : Bytes} (h : input.length < kind.width) :
    (Wire.decode : Reader kind.Value) input =
      .error .unexpectedEnd (input.drop (kind.lost input)) := by
  cases kind with
  | uint32 => exact decode_uint32_of_lt h
  | word => exact decode_word_of_lt h
  | instruction => exact decode_instruction_of_lt h

theorem Reading.of_short {kind : Kind} {input : Bytes} (h : input.length < kind.width) :
    Reading.of kind input = ⟨kind, .error .unexpectedEnd, input, input.drop (kind.lost input)⟩ := by
  rw [Reading.of, kind.decode_short h]

theorem Reading.of_long {kind : Kind} {input : Bytes} (h : kind.width ≤ input.length) :
    ∃ v, Reading.of kind input = ⟨kind, .ok v, input, input.drop kind.width⟩ ∧
      bytes v = input.take kind.width := by
  obtain ⟨v, hdecode, hbytes⟩ := kind.exact.decode_long input h
  refine ⟨v, ?_, hbytes⟩
  rw [Reading.of, hdecode]

theorem Reading.conserves_of (kind : Kind) (input : Bytes) : (Reading.of kind input).Conserves := by
  by_cases hshort : input.length < kind.width
  · rw [of_short hshort]
    refine ⟨?_, ?_, ?_⟩
    · intro v hv
      cases hv
    · intro e he
      cases he
      exact ⟨rfl, rfl⟩
    · exact ⟨fun _ => hshort, fun _ => ⟨_, rfl⟩⟩
  · obtain ⟨v, hof, hbytes⟩ := of_long (Nat.le_of_not_lt hshort)
    rw [hof]
    refine ⟨?_, ?_, ?_⟩
    · intro w hw
      cases hw
      refine ⟨?_, kind.exact.length_bytes v⟩
      rw [hbytes, List.take_append_drop]
    · intro e he
      cases he
    · refine ⟨?_, fun h => absurd h hshort⟩
      rintro ⟨e, he⟩
      cases he

theorem Reading.unread_suffix (kind : Kind) (input : Bytes) :
    (Reading.of kind input).unread <:+ input := by
  by_cases hshort : input.length < kind.width
  · rw [of_short hshort]
    exact List.drop_suffix _ _
  · obtain ⟨v, hof, -⟩ := of_long (Nat.le_of_not_lt hshort)
    rw [hof]
    exact List.drop_suffix _ _

/-! ## 3. All reads -/

theorem Reading.kind_of (kind : Kind) (input : Bytes) :
    (Reading.of kind input).kind = kind ∧ (Reading.of kind input).input = input := by
  unfold Reading.of
  split <;> exact ⟨rfl, rfl⟩

theorem map_kind_readings (kinds : List Kind) (input : Bytes) :
    (readings kinds input).map Reading.kind = kinds := by
  induction kinds generalizing input with
  | nil => rfl
  | cons kind kinds ih => rw [readings, List.map_cons, ih, (Reading.kind_of kind input).1]

theorem conserves_of_mem_readings {kinds : List Kind} {input : Bytes} {r : Reading}
    (h : r ∈ readings kinds input) :
    r.unread <:+ r.input ∧ r.input <:+ input ∧ r.Conserves := by
  induction kinds generalizing input with
  | nil => cases h
  | cons kind kinds ih =>
    have hfirst := Reading.unread_suffix kind input
    obtain rfl | hlater := List.mem_cons.1 h
    · rw [(Reading.kind_of kind input).2]
      exact ⟨hfirst, List.suffix_rfl, Reading.conserves_of kind input⟩
    · obtain ⟨hunread, hinput, hconserves⟩ := ih hlater
      exact ⟨hunread, hinput.trans hfirst, hconserves⟩

/-! ## 4. Whole inputs -/

theorem Kind.ofBytes_short (kind : Kind) {input : Bytes} (h : input.length < kind.width) :
    (ofBytes input : Except DecodeError kind.Value) = .error .unexpectedEnd := by
  rw [ofBytes, kind.decode_short h]

theorem Kind.ofBytes_long (kind : Kind) {input : Bytes} (h : kind.width < input.length) :
    (ofBytes input : Except DecodeError kind.Value) = .error .invalidValue := by
  obtain ⟨v, hdecode, -⟩ := kind.exact.decode_long input (Nat.le_of_lt h)
  obtain ⟨b, bs, hrest⟩ : ∃ b bs, input.drop kind.width = b :: bs := by
    apply List.exists_cons_of_ne_nil
    rw [Ne, List.drop_eq_nil_iff]
    omega
  rw [ofBytes, hdecode, hrest]

/-- Bytes are conserved, whatever kinds are read off an input one after the other, and however many
of the reads fail. What a read leaves is the end of what it found, and so of the whole input. A read
that succeeds has taken the binary form of its value, which is as long as its kind says. A read
fails exactly if fewer bytes than that are left, always for this reason, and takes nothing, except
that a record takes its tag if the tag is there. A whole input is a value exactly if it has the
right length; a shorter one ends too soon, a longer one is no value. -/
theorem reads_conserve_bytes (kinds : List Kind) (input : Bytes) :
    (readings kinds input).map Reading.kind = kinds ∧
      (∀ r ∈ readings kinds input, r.unread <:+ r.input ∧ r.input <:+ input ∧ r.Conserves) ∧
      ∀ (kind : Kind) (whole : Bytes),
        ((∃ v : kind.Value, ofBytes whole = .ok v) ↔ whole.length = kind.width) ∧
          (whole.length < kind.width →
            (ofBytes whole : Except DecodeError kind.Value) = .error .unexpectedEnd) ∧
          (kind.width < whole.length →
            (ofBytes whole : Except DecodeError kind.Value) = .error .invalidValue) := by
  refine ⟨map_kind_readings kinds input, fun r => conserves_of_mem_readings, fun kind whole => ?_⟩
  refine ⟨⟨?_, ?_⟩, kind.ofBytes_short, kind.ofBytes_long⟩
  · rintro ⟨v, hv⟩
    by_contra hlength
    obtain hshort | hlong := Nat.lt_or_gt_of_ne hlength
    · cases (kind.ofBytes_short hshort).symm.trans hv
    · cases (kind.ofBytes_long hlong).symm.trans hv
  · intro hlength
    obtain ⟨v, hv, -⟩ := kind.exact.ofBytes_of_length hlength
    exact ⟨v, hv⟩

-- the record is cut off behind its tag, and the bytes that were left for its operand are read as
-- another tag
example : (readings [.instruction, .uint32, .uint32] [1, 0, 0, 0, 7, 0, 0, 0]).map Reading.unread =
    [[7, 0, 0, 0], [], []] := by decide

end StackMachine.Codec
