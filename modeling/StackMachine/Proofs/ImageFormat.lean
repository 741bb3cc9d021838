import StackMachine.Program
import StackMachine.Proofs.BinaryForms

/-!
Programs and their images stand for each other, one to one: an image is a whole number of records,
no more than the store holds, and nothing else.
-/

namespace StackMachine.Program

open Codec

/-! ## 1. Records back to back -/

theorem image_eq_flatMap (p : Program) : p.image = p.records.toList.flatMap bytes := by
  have hfold : ∀ (is : List Instruction) (out : Array UInt8),
      (is.foldl (fun out i => Wire.encode Sink.buffer i out) out).toList =
          out.toList ++ is.flatMap bytes := by
    intro is
    induction is with
    | nil =>
      intro out
      exact (List.append_nil _).symm
    | cons i is ih =>
      intro out
      rw [List.foldl_cons, ih, exact_instruction.encode_buffer, Array.toList_appendList,
        List.append_assoc, List.flatMap_cons]
  rw [image, ← Array.foldl_toList, hfold]
  rfl

theorem length_flatMap_bytes (is : List Instruction) :
    (is.flatMap bytes).length = Instruction.recordSize * is.length := by
  induction is with
  | nil => rfl
  | cons i is ih =>
    rw [List.flatMap_cons, List.length_append, exact_instruction.length_bytes, ih, List.length_cons,
      Nat.mul_succ, Nat.add_comm]

theorem readRecords_flatMap (is : List Instruction) :
    readRecords is.length (is.flatMap bytes) = .ok is := by
  induction is with
  | nil => rfl
  | cons i is ih =>
    have hlen : (bytes i).length = Instruction.recordSize := exact_instruction.length_bytes i
    rw [List.length_cons, List.flatMap_cons, readRecords, List.take_left' hlen,
      List.drop_left' hlen, exact_instruction.ofBytes_bytes, ih]

theorem readRecords_of_length {count : Nat} {input : Bytes}
    (h : input.length = Instruction.recordSize * count) :
    ∃ is, readRecords count input = .ok is ∧ is.flatMap bytes = input := by
  induction count generalizing input with
  | zero => exact ⟨[], rfl, (List.length_eq_zero_iff.1 (by omega)).symm⟩
  | succ count ih =>
    have hfirst : (input.take Instruction.recordSize).length = Instruction.recordSize := by
      rw [List.length_take, h]
      exact Nat.min_eq_left (Nat.le_mul_of_pos_right _ count.succ_pos)
    have hrest : (input.drop Instruction.recordSize).length = Instruction.recordSize * count := by
      rw [List.length_drop, h, Nat.mul_succ, Nat.add_sub_cancel]
    obtain ⟨i, hi, hbytes⟩ := exact_instruction.ofBytes_of_length hfirst
    obtain ⟨is, his, hflat⟩ := ih hrest
    refine ⟨i :: is, by rw [readRecords, hi, his], ?_⟩
    rw [List.flatMap_cons, hbytes, hflat, List.take_append_drop]

/-! ## 2. Images -/

theorem ofImage_misaligned {input : Bytes} (h : input.length % Instruction.recordSize ≠ 0) :
    ofImage input = .error (.misalignedImage input.length Instruction.recordSize) := by
  rw [ofImage, if_pos h]

theorem ofImage_tooLarge {input : Bytes} (halign : input.length % Instruction.recordSize = 0)
    (hlarge : capacity < input.length / Instruction.recordSize) :
    ofImage input = .error (.programTooLarge (input.length / Instruction.recordSize) capacity) := by
  rw [ofImage, if_neg (not_not_intro halign), dif_neg (by omega)]

theorem ofImage_of_readRecords {input : Bytes} {is : List Instruction}
    (halign : input.length % Instruction.recordSize = 0)
    (hfit : input.length / Instruction.recordSize ≤ capacity)
    (hread : readRecords (input.length / Instruction.recordSize) input = .ok is) :
    ∃ p, ofImage input = .ok p ∧ p.records = is.toArray := by
  rw [ofImage, if_neg (not_not_intro halign), dif_pos hfit]
  -- the reading carries its own equation, so that it cannot be rewritten in place
  split
  · next e he => cases he.symm.trans hread
  · next records hr =>
    cases hr.symm.trans hread
    exact ⟨_, rfl, rfl⟩

theorem ofImage_wellSized {input : Bytes} (halign : input.length % Instruction.recordSize = 0)
    (hfit : input.length / Instruction.recordSize ≤ capacity) :
    ∃ p, ofImage input = .ok p ∧ p.image = input := by
  have hlen : input.length = Instruction.recordSize * (input.length / Instruction.recordSize) :=
    (Nat.mul_div_cancel' (Nat.dvd_of_mod_eq_zero halign)).symm
  obtain ⟨is, hread, hflat⟩ := readRecords_of_length hlen
  obtain ⟨p, hp, hrecords⟩ := ofImage_of_readRecords halign hfit hread
  refine ⟨p, hp, ?_⟩
  rw [image_eq_flatMap, hrecords]
  exact hflat

theorem length_image (p : Program) : p.image.length = Instruction.recordSize * p.size := by
  rw [image_eq_flatMap, length_flatMap_bytes, Array.length_toList]
  rfl

theorem ofImage_image (p : Program) : ofImage p.image = .ok p := by
  have hcount : p.image.length / Instruction.recordSize = p.size := by
    rw [length_image]
    exact Nat.mul_div_cancel_left _ (by decide)
  have hread :
      readRecords (p.image.length / Instruction.recordSize) p.image = .ok p.records.toList := by
    rw [hcount, image_eq_flatMap, size, ← Array.length_toList]
    exact readRecords_flatMap _
  obtain ⟨q, hq, hrecords⟩ := ofImage_of_readRecords (by rw [length_image, Nat.mul_mod_right])
    (by rw [hcount]; exact p.size_le) hread
  rw [Array.toArray_toList] at hrecords
  rw [hq]
  cases p
  cases q
  cases hrecords
  rfl

-- Only the size of an input decides whether it is an image: its records can always be read.
theorem ofImage_eq_error_iff (input : Bytes) (cause : Fault) :
    ofImage input = .error cause ↔
      (input.length % 12 ≠ 0 ∧ cause = .misalignedImage input.length 12) ∨
        (input.length % 12 = 0 ∧ 1024 < input.length / 12 ∧
          cause = .programTooLarge (input.length / 12) 1024) := by
  by_cases halign : input.length % 12 = 0
  · by_cases hfit : input.length / 12 ≤ 1024
    · obtain ⟨p, hp, -⟩ := ofImage_wellSized halign hfit
      rw [hp]
      constructor
      · nofun
      · rintro (⟨hodd, -⟩ | ⟨-, hlarge, -⟩)
        · exact absurd halign hodd
        · omega
    · have hlarge : 1024 < input.length / 12 := by omega
      rw [ofImage_tooLarge halign hlarge]
      constructor
      · rintro ⟨⟩
        exact .inr ⟨halign, hlarge, rfl⟩
      · rintro (⟨hodd, -⟩ | ⟨-, -, rfl⟩)
        · exact absurd halign hodd
        · rfl
  · rw [ofImage_misaligned halign]
    constructor
    · rintro ⟨⟩
      exact .inl ⟨halign, rfl⟩
    · rintro (⟨-, rfl⟩ | ⟨heven, -⟩)
      · rfl
      · exact absurd heven halign

theorem exists_ofImage_iff (input : Bytes) :
    (∃ p, ofImage input = .ok p) ↔ input.length % 12 = 0 ∧ input.length / 12 ≤ 1024 := by
  constructor
  · rintro ⟨p, hp⟩
    have hread : ∀ cause, ofImage input ≠ .error cause := by
      intro cause hcause
      cases hp.symm.trans hcause
    by_cases halign : input.length % 12 = 0
    · refine ⟨halign, Nat.le_of_not_lt fun hlarge => ?_⟩
      exact hread _ ((ofImage_eq_error_iff input _).2 (.inr ⟨halign, hlarge, rfl⟩))
    · exact absurd ((ofImage_eq_error_iff input _).2 (.inl ⟨halign, rfl⟩)) (hread _)
  · rintro ⟨halign, hfit⟩
    obtain ⟨p, hp, -⟩ := ofImage_wellSized halign hfit
    exact ⟨p, hp⟩

theorem ofImage_eq_ok_iff (input : Bytes) (p : Program) :
    ofImage input = .ok p ↔ p.image = input := by
  constructor
  · intro hp
    obtain ⟨halign, hfit⟩ := (exists_ofImage_iff input).1 ⟨p, hp⟩
    obtain ⟨q, hq, himage⟩ := ofImage_wellSized halign hfit
    cases hq.symm.trans hp
    exact himage
  · rintro rfl
    exact ofImage_image p

/-- Programs and images stand for each other. An input is read exactly if it consists of whole
records of 12 bytes and of no more than 1024 of them; else the size is reported, misalignment first,
and never a record that cannot be read. What is read is the one program whose image is the input,
record for record: the tag and then the operand, little-endian. -/
theorem images_are_programs (input : Bytes) (p : Program) :
    ((∃ q, ofImage input = .ok q) ↔ input.length % 12 = 0 ∧ input.length / 12 ≤ 1024) ∧
      (∀ cause, ofImage input = .error cause ↔
        (input.length % 12 ≠ 0 ∧ cause = .misalignedImage input.length 12) ∨
          (input.length % 12 = 0 ∧ 1024 < input.length / 12 ∧
            cause = .programTooLarge (input.length / 12) 1024)) ∧
      (∀ cause, ofImage input ≠ .error (.decode cause)) ∧
      (ofImage input = .ok p ↔ p.image = input) ∧
      p.size = p.image.length / 12 ∧
      p.image = p.records.toList.flatMap fun i =>
        littleEndian 4 i.tag.toNat ++ littleEndian 8 i.operand.toUInt64.toNat := by
  refine ⟨exists_ofImage_iff input, ofImage_eq_error_iff input, ?_, ofImage_eq_ok_iff input p, ?_,
    ?_⟩
  · intro cause hdecode
    obtain ⟨-, hcause⟩ | ⟨-, -, hcause⟩ := (ofImage_eq_error_iff input _).1 hdecode
    · cases hcause
    · cases hcause
  · rw [length_image]
    exact (Nat.mul_div_cancel_left p.size (by decide)).symm
  · rw [image_eq_flatMap]
    rfl

end StackMachine.Program
