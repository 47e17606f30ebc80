import CrosschainAgent.Common.Strings

/-!
# The base-n encoder

`encode` writes groups of bits as characters of a dictionary. It walks over the bytes with the bit a
group starts at; a group that reaches the end of its byte waits for the next byte as backlog. A `char`
is signed and widened to `int` before it is shifted. A failed assertion is `none` here.
-/

namespace CrosschainAgent

namespace Basen

/-- The traits of an encoding: the length of its groups, and its dictionary. -/
structure ConversionTraits where
  groupLength : ℕ
  dictionary : Text
  groupLength_pos : 0 < groupLength

/-- `b16_conversion_traits`. -/
def b16ConversionTraits : ConversionTraits where
  groupLength := 4
  dictionary := "0123456789abcdef".toList
  groupLength_pos := by decide

/-- `ConversionTraits::encode`: the index is an `unsigned int`. -/
def ConversionTraits.encode (traits : ConversionTraits) (v : Int8) : Option Char :=
  traits.dictionary[v.toInt32.toUInt32.toNat]?

/-- The mask of the lowest bits. -/
def lowBits (bitsCount : ℕ) : Int32 := ~~~(-1 <<< Int32.ofNat bitsCount)

def extractPartialBits (value : Int8) (startBit bitsCount : ℕ) : Option Int8 :=
  if startBit + bitsCount < 8 then
    let t1 := (value.toInt32 >>> Int32.ofNat (8 - bitsCount - startBit)).toInt8
    let t2 := (t1.toInt32 &&& lowBits bitsCount).toInt8
    some t2
  else none

def extractOverlappingBits (previous next : Int8) (startBit bitsCount : ℕ) : Option Int8 :=
  if startBit + bitsCount < 16 then
    let bitsCountInPrevious := 8 - startBit
    let bitsCountInNext := bitsCount - bitsCountInPrevious
    let t1 := ((previous.toInt32 <<< Int32.ofNat bitsCountInNext) &&& 0xFF).toInt8
    let t2 := ((next.toInt32 >>> Int32.ofNat (8 - bitsCountInNext)) &&&
      lowBits bitsCountInNext).toInt8
    some ((t1.toInt32 ||| t2.toInt32) &&& lowBits bitsCount).toInt8
  else none

/-- The loop of `encode` over the bytes from `iter` on: what it writes, and the bit it ends at. -/
def encodeLoop (traits : ConversionTraits) (iter : Bytes) (startBit : ℕ) (backlog : Option UInt8) :
    Option (Text × ℕ) :=
  match backlog, iter with
  | none, [] => some ([], startBit)
  | none, byte :: rest =>
    if startBit + traits.groupLength < 8 then do
      let v ← extractPartialBits byte.toInt8 startBit traits.groupLength
      let c ← traits.encode v
      let (out, last) ← encodeLoop traits (byte :: rest) (startBit + traits.groupLength) none
      return (c :: out, last)
    else encodeLoop traits rest startBit (some byte)
  | some byte, rest => do
    let next := (rest.head?).getD 0
    let v ← extractOverlappingBits byte.toInt8 next.toInt8 startBit traits.groupLength
    let c ← traits.encode v
    let (out, last) ← encodeLoop traits rest ((startBit + traits.groupLength) % 8) none
    return (c :: out, last)
termination_by (2 * iter.length + (if backlog.isSome then 1 else 0), 8 - startBit)
decreasing_by
  · have hpos := traits.groupLength_pos
    exact Prod.Lex.right _ (by omega)
  · refine Prod.Lex.left _ _ ?_
    simp
    omega
  · exact Prod.Lex.left _ _ (by simp)

/-- The padding of `encode`: its loop may go on forever from a bit that no group ends at, but not for
more than 8 rounds else. -/
def padding (traits : ConversionTraits) : ℕ → ℕ → Option Text
  | _, 0 => some []
  | 0, _ => none
  | fuel + 1, startBit => do
    return '=' :: (← padding traits fuel ((startBit + traits.groupLength) % 8))

/-- `encode`. -/
def encode (traits : ConversionTraits) (bytes : Bytes) : Option Text := do
  let (out, startBit) ← encodeLoop traits bytes 0 none
  return out ++ (← padding traits 8 startBit)

/-- `encode_b16`. -/
def encodeB16 (v : Bytes) : Option Text := encode b16ConversionTraits v

section Base16

open Strings

/-- The first group of a byte is its high half, whatever the sign of its `char`. -/
theorem encode_high_group (byte : UInt8) :
    (extractPartialBits byte.toInt8 0 4).bind b16ConversionTraits.encode =
      some (hexDigit (byte >>> 4)) := by
  have hbytes : ∀ n < 256, (extractPartialBits (UInt8.ofNat n).toInt8 0 4).bind
      b16ConversionTraits.encode = some (hexDigit (UInt8.ofNat n >>> 4)) := by
    decide +kernel
  have hbyte := hbytes byte.toNat byte.toNat_lt
  rwa [UInt8.ofNat_toNat] at hbyte

/-- A group that ends with its byte takes nothing of the next. -/
theorem extractOverlappingBits_next (previous next : Int8) :
    extractOverlappingBits previous next 4 4 = extractOverlappingBits previous 0 4 4 := by
  have hmask : lowBits 0 = 0 := by decide
  simp [extractOverlappingBits, hmask]

/-- The second group of a byte is its low half, whatever the next byte is. -/
theorem encode_low_group (byte : UInt8) (next : Int8) :
    (extractOverlappingBits byte.toInt8 next 4 4).bind b16ConversionTraits.encode =
      some (hexDigit (byte &&& 0x0F)) := by
  have hbytes : ∀ n < 256, (extractOverlappingBits (UInt8.ofNat n).toInt8 0 4 4).bind
      b16ConversionTraits.encode = some (hexDigit (UInt8.ofNat n &&& 0x0F)) := by
    decide +kernel
  have hbyte := hbytes byte.toNat byte.toNat_lt
  rw [UInt8.ofNat_toNat] at hbyte
  rw [extractOverlappingBits_next, hbyte]

/-- A byte takes three rounds of the loop: its first group, the move to the next byte, and its second
group. -/
theorem encodeLoop_cons (byte : UInt8) (rest : Bytes) :
    encodeLoop b16ConversionTraits (byte :: rest) 0 none = (do
      let (out, last) ← encodeLoop b16ConversionTraits rest 0 none
      return (hexDigit (byte >>> 4) :: hexDigit (byte &&& 0x0F) :: out, last)) := by
  obtain ⟨v, hv, hhigh⟩ := Option.bind_eq_some_iff.mp (encode_high_group byte)
  obtain ⟨w, hw, hlow⟩ := Option.bind_eq_some_iff.mp
    (encode_low_group byte ((rest.head?).getD 0).toInt8)
  have hgroup : b16ConversionTraits.groupLength = 4 := rfl
  rw [encodeLoop, hgroup, if_pos (by decide), encodeLoop, hgroup, if_neg (by decide), encodeLoop, hgroup]
  simp only [Nat.zero_add, hv, hw, hhigh, hlow, Option.bind_eq_bind, Option.bind_some, Nat.reduceAdd,
    Nat.mod_self]
  cases encodeLoop b16ConversionTraits rest 0 none <;> rfl

/-- The loop writes the digits of the bytes, and ends where a byte begins. -/
theorem encodeLoop_b16 (bytes : Bytes) :
    encodeLoop b16ConversionTraits bytes 0 none = some (binToHexString bytes, 0) := by
  induction bytes with
  | nil =>
    rw [encodeLoop]
    rfl
  | cons byte rest ih =>
    rw [encodeLoop_cons, ih]
    rfl

/-- The encoder of the transaction blobs agrees with `BinToHexString`. -/
theorem encodeB16_eq (bytes : Bytes) : encodeB16 bytes = some (binToHexString bytes) := by
  rw [encodeB16, encode, encodeLoop_b16]
  simp [padding]

end Base16

end Basen

end CrosschainAgent
