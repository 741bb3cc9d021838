import StackMachine.Word

/-!
Binary forms: how values are written to a byte sink and read back from a byte string.

Integers are little-endian and of fixed width. A record is its fields back to back, with no length
and no padding, so that the width of a record is the sum of the widths of its fields.
-/

namespace StackMachine

abbrev Bytes := List UInt8

namespace Codec

/-! ## 1. Little-endian numbers -/

/-- The `width` least significant bytes of `n`, least significant first. -/
def littleEndian : (width n : Nat) → Bytes
  | 0, _ => []
  | width + 1, n => UInt8.ofNat n :: littleEndian width (n / 256)

/-- The number whose little-endian bytes are given. -/
def value : Bytes → Nat
  | [] => 0
  | b :: bs => b.toNat + 256 * value bs

@[simp] theorem length_littleEndian (width n : Nat) : (littleEndian width n).length = width := by
  induction width generalizing n with
  | zero => rfl
  | succ width ih => simp [littleEndian, ih]

theorem value_littleEndian {width n : Nat} (h : n < Nat.pow 256 width) :
    value (littleEndian width n) = n := by
  induction width generalizing n with
  | zero => simp_all [littleEndian, value]
  | succ width ih =>
    have hdiv : n / 256 < Nat.pow 256 width := by
      have hpow : Nat.pow 256 (width + 1) = Nat.pow 256 width * 256 := rfl
      omega
    simp only [littleEndian, value, ih hdiv, UInt8.toNat_ofNat']
    omega

theorem littleEndian_value (bs : Bytes) : littleEndian bs.length (value bs) = bs := by
  induction bs with
  | nil => rfl
  | cons b bs ih =>
    have hb : b.toNat < 256 := b.toNat_lt
    have hdiv : (b.toNat + 256 * value bs) / 256 = value bs := by omega
    have hmod : UInt8.ofNat (b.toNat + 256 * value bs) = b := by
      apply UInt8.toNat_inj.1
      simp only [UInt8.toNat_ofNat']
      omega
    simp only [List.length_cons, value, littleEndian, hdiv, ih, hmod]

/-! ## 2. Sinks -/

/-- A destination for bytes: `write bytes out` is the state of the destination after `bytes` were
written to `out`. -/
structure Sink (σ : Type) where
  write : Bytes → σ → σ

/-- Keeps every byte, in order. -/
def Sink.buffer : Sink (Array UInt8) where
  write bytes out := out ++ bytes

/-- Keeps only the number of bytes. -/
def Sink.counter : Sink Nat where
  write bytes n := n + bytes.length

/-! ## 3. Readers -/

/-- Why bytes could not be read as a value. -/
inductive DecodeError where
  | unexpectedEnd
  | invalidValue
deriving DecidableEq, Repr

def DecodeError.message : DecodeError → String
  | unexpectedEnd => "unexpected end of input"
  | invalidValue => "invalid value"

/-- Reads a value off the front of the input. The state is the unread part, also after a failure. -/
abbrev Reader := EStateM DecodeError Bytes

/-- The next `width` bytes; with fewer left, nothing is read. -/
def Reader.take (width : Nat) : Reader Bytes := fun input =>
  if width ≤ input.length then .ok (input.take width) (input.drop width)
  else .error .unexpectedEnd input

/-! ## 4. Values with a binary form -/

class Wire (α : Type) where
  /-- Writes the bytes of a value to a sink. -/
  encode {σ : Type} (sink : Sink σ) (v : α) (out : σ) : σ
  /-- Reads one value. -/
  decode : Reader α

/-- The binary form of a value. -/
def bytes {α : Type} [Wire α] (v : α) : Bytes := (Wire.encode Sink.buffer v #[]).toList

/-- Number of bytes in the binary form of a value. -/
def byteCount {α : Type} [Wire α] (v : α) : Nat := Wire.encode Sink.counter v 0

/-- Reads a value that takes up the whole input: bytes left over are an error. -/
def ofBytes {α : Type} [Wire α] (input : Bytes) : Except DecodeError α :=
  match Wire.decode input with
  | .ok v [] => .ok v
  | .ok _ (_ :: _) => .error .invalidValue
  | .error e _ => .error e

instance : Wire UInt32 where
  encode sink v out := sink.write (littleEndian 4 v.toNat) out
  decode := do return UInt32.ofNat (value (← Reader.take 4))

/-- A word is written as its residue modulo `2 ^ 64`. -/
instance : Wire Word where
  encode sink w out := sink.write (littleEndian 8 w.toUInt64.toNat) out
  decode := do return (UInt64.ofNat (value (← Reader.take 8))).toInt64

end Codec
end StackMachine
