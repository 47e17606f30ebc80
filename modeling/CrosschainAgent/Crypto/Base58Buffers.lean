import CrosschainAgent.Crypto.Base58

/-!
# The buffers of base 58

What the two buffers hold in the end. The digits of `Encode` always have room. The bytes of `Decode` have room as
long as its inner loop goes over the whole buffer, which is up to a length of 2932728732 characters: the
doubles lose less than the two bytes that are added to the size. A longer string leaves zeros at the end of
the buffer, or all of it untouched.
-/

namespace CrosschainAgent

open BigNum

namespace Base58

section Counters

/-- A count below `2 ^ 31` is an `int`. -/
theorem toInt_ofNat_of_lt {n : ℕ} (h : n < 2 ^ 31) : (Int32.ofNat n).toInt = n := by
  have hsize : Int32.size = 2 ^ 32 := rfl
  rw [Int32.toInt_ofNat', hsize]
  exact Int.bmod_eq_of_le (by omega) (by omega)

/-- No `int` is larger. -/
theorem toInt_lt (n : ℕ) : (Int32.ofNat n).toInt < 2 ^ 31 := by
  have hsize : Int32.size = 2 ^ 32 := rfl
  rw [Int32.toInt_ofNat', hsize, Int.bmod_def]
  split <;> omega

/-- The inner loop of `Decode` goes over a buffer whose last index is an `int`. -/
theorem reach_of_le {size : ℕ} (hpos : 0 < size) (h : size ≤ 2 ^ 31) : reach size = size := by
  rw [reach, toInt_ofNat_of_lt (by omega)]
  omega

/-- In a larger buffer it does not run, or leaves the end out. -/
theorem reach_of_lt {size : ℕ} (h : 2 ^ 31 < size) : reach size = 0 ∨ reach size + 2 ^ 31 ≤ size := by
  have hsize : Int32.size = 2 ^ 32 := rfl
  rw [reach, Int32.toInt_ofNat', hsize, Int.bmod_def]
  split <;> omega

/-- The inner loop of `Decode` stays inside its buffer. -/
theorem reach_le {size : ℕ} (hpos : 0 < size) : reach size ≤ size := by
  rcases le_or_gt size (2 ^ 31) with h | h
  · exact (reach_of_le hpos h).le
  · rcases reach_of_lt h with hzero | hend
    · omega
    · omega

end Counters

section Size

/-- The largest number of digits for which the inner loop of `Decode` goes over its whole buffer. -/
def maxDigits : ℕ := 2932728732

/-- The size that the doubles give, from both sides. -/
theorem newSize_bounds (n : ℕ) :
    (2 ^ 53 - 1) * ((2 ^ 53 - 1) * ((2 ^ 53 - 1) * n * log2Of58) + 2 ^ 160) < 2 ^ 212 * (newSize n + 1) ∧
      2 ^ 212 * newSize n ≤ (2 ^ 53 + 1) * ((2 ^ 53 + 1) * ((2 ^ 53 + 1) * n * log2Of58) + 2 ^ 160) := by
  have hbits : 0 < 53 := by omega
  have hsize : newSize n = Rounding.toBits 53 (Rounding.toBits 53 (Rounding.toBits 53 n * log2Of58) + 2 * 2 ^ 53) /
      2 ^ 53 := rfl
  have hleftUp := Rounding.toBits_le hbits n
  have hleftLow := Rounding.le_toBits hbits n
  generalize Rounding.toBits 53 n = left at *
  have hproductUp := Rounding.toBits_le hbits (left * log2Of58)
  have hproductLow := Rounding.le_toBits hbits (left * log2Of58)
  generalize Rounding.toBits 53 (left * log2Of58) = product at *
  have hsumUp := Rounding.toBits_le hbits (product + 2 * 2 ^ 53)
  have hsumLow := Rounding.le_toBits hbits (product + 2 * 2 ^ 53)
  unfold log2Of58 at *
  omega

/-- The buffer is at most `2 ^ 31` bytes large up to `maxDigits` digits. -/
theorem newSize_le_iff (n : ℕ) : newSize n ≤ 2 ^ 31 ↔ n ≤ maxDigits := by
  obtain ⟨hlow, hup⟩ := newSize_bounds n
  unfold log2Of58 at hlow hup
  unfold maxDigits
  omega

/-- The buffer of `Decode` is never empty. -/
theorem newSize_pos (n : ℕ) : 0 < newSize n := by
  obtain ⟨hlow, -⟩ := newSize_bounds n
  omega

/-- The logarithm of 58 from above, by a fraction that is close enough for `maxDigits` digits. -/
theorem pow_58_le : 58 ^ 15681 ≤ 2 ^ 91859 := by decide +kernel

/-- Up to `maxDigits` digits the buffer has three bits to spare. -/
theorem pow_58_mul_le {n : ℕ} (h : n ≤ maxDigits) : 58 ^ n * 2 ^ 3 ≤ 256 ^ newSize n := by
  have hexponent : 91859 * n + 15681 * 3 ≤ 15681 * (8 * newSize n) := by
    obtain ⟨hlow, -⟩ := newSize_bounds n
    unfold log2Of58 at hlow
    unfold maxDigits at h
    omega
  rw [← Nat.pow_le_pow_iff_left (n := 15681) (by omega)]
  calc (58 ^ n * 2 ^ 3) ^ 15681 = (58 ^ 15681) ^ n * 2 ^ (15681 * 3) := by
        rw [mul_pow, ← pow_mul, ← pow_mul, ← pow_mul, mul_comm n, mul_comm 3]
    _ ≤ (2 ^ 91859) ^ n * 2 ^ (15681 * 3) := Nat.mul_le_mul_right _ (Nat.pow_le_pow_left pow_58_le n)
    _ = 2 ^ (91859 * n + 15681 * 3) := by rw [← pow_mul, ← pow_add]
    _ ≤ 2 ^ (15681 * (8 * newSize n)) := Nat.pow_le_pow_right (by omega) hexponent
    _ = (256 ^ newSize n) ^ 15681 := by
        rw [show 256 = 2 ^ 8 from rfl, ← pow_mul, ← pow_mul, mul_comm 15681, mul_assoc]

end Size

variable (outside : UInt8 → Int8)

section Decode

/-- One step of `Encode` keeps the length of its buffer. -/
theorem length_mulAdd (tmpStr : Bytes) (carry : ℕ) : (mulAdd tmpStr carry).1.length = tmpStr.length := by
  rw [← List.length_map UInt8.toNat, (mulAdd_eq tmpStr carry).1, Positional.length_mulAdd, List.length_map]

/-- The outer loop of `Decode` over the bytes that its inner loop reaches. -/
def reached (tmpStr digits : Bytes) : Bytes :=
  digits.foldl (fun tmpStr c => (mulAdd tmpStr (digit outside c).toNat).1) tmpStr

/-- `Decode` keeps the length of its buffer. -/
theorem length_reached (tmpStr digits : Bytes) : (reached outside tmpStr digits).length = tmpStr.length := by
  induction digits generalizing tmpStr with
  | nil => rfl
  | cons c digits ih => exact (ih _).trans (length_mulAdd _ _)

/-- These bytes convert the digits of the string. -/
theorem reached_eq (tmpStr digits : Bytes) :
    (reached outside tmpStr digits).map UInt8.toNat =
      Positional.convert 256 58 (tmpStr.map UInt8.toNat) (digits.map fun c => (digit outside c).toNat) := by
  induction digits generalizing tmpStr with
  | nil => rfl
  | cons c digits ih =>
    have hstep := ih (mulAdd tmpStr (digit outside c).toNat).1
    rwa [(mulAdd_eq _ _).1] at hstep

/-- What is behind them stays as it is. -/
theorem decodeLoop_append {front back : Bytes} (h : reach (front ++ back).length = front.length)
    (digits : Bytes) : decodeLoop outside (front ++ back) digits = reached outside front digits ++ back := by
  induction digits generalizing front with
  | nil => rfl
  | cons c digits ih =>
    have hstep : reach ((mulAdd front (digit outside c).toNat).1 ++ back).length =
        (mulAdd front (digit outside c).toNat).1.length := by
      rw [length_mulAdd, List.length_append, length_mulAdd, ← List.length_append, h]
    rw [decodeLoop, List.foldl_cons, h, List.take_left, List.drop_left, ← decodeLoop, ih hstep]
    rfl

/-- From a buffer of zeros on: the bytes that are reached, and the zeros behind them. -/
theorem decodeLoop_zeros {size : ℕ} (hpos : 0 < size) (digits : Bytes) :
    decodeLoop outside (List.replicate size 0) digits =
      reached outside (List.replicate (reach size) 0) digits ++ List.replicate (size - reach size) 0 := by
  have hsplit : List.replicate size (0 : UInt8) =
      List.replicate (reach size) 0 ++ List.replicate (size - reach size) 0 := by
    rw [List.replicate_append_replicate, Nat.add_sub_cancel' (reach_le hpos)]
  rw [hsplit]
  apply decodeLoop_append
  rw [← hsplit, List.length_replicate, List.length_replicate]

/-- The bytes that are reached hold what there is room for of the number of the digits. -/
theorem bnBin2bn_reached (count : ℕ) (digits : Bytes) :
    bnBin2bn (reached outside (List.replicate count 0) digits) = value outside digits 0 % 256 ^ count := by
  rw [bnBin2bn_eq_value, reached_eq, List.map_replicate, value_eq]
  exact Positional.convert_mod (by omega) count _

/-- Zeros behind a number multiply it. -/
theorem bnBin2bn_append_zeros (bin : Bytes) (count : ℕ) :
    bnBin2bn (bin ++ List.replicate count 0) = bnBin2bn bin * 256 ^ count := by
  induction count with
  | zero => simp
  | succ count ih =>
    rw [List.replicate_succ', ← List.append_assoc, bnBin2bn_eq_value, List.map_append, List.map_singleton,
      Positional.value_concat, ← bnBin2bn_eq_value, ih, pow_succ, mul_assoc]
    rfl

/-- The buffer of `Decode` for the digits behind the zeros. -/
theorem decodeBuffer_eq (strIn : Bytes) {size : ℕ}
    (hsize : newSize (strIn.length - leading zeroDigit strIn) = size) :
    decodeBuffer outside strIn =
      reached outside (List.replicate (reach size) 0) (strIn.drop (leading zeroDigit strIn)) ++
        List.replicate (size - reach size) 0 := by
  rw [decodeBuffer, hsize]
  exact decodeLoop_zeros outside (hsize ▸ newSize_pos _) _

/-- Up to `maxDigits` digits there is room for every number, whatever the characters. -/
theorem value_lt_newSize {digits : Bytes} (h : digits.length ≤ maxDigits) :
    value outside digits 0 < 256 ^ newSize digits.length := by
  have hbound := value_bound outside digits
  have hroom := pow_58_mul_le h
  omega

/-- The decoded string: the zeros, and the bytes of the number. -/
theorem decode_eq {strIn : Bytes} (h : strIn.length - leading zeroDigit strIn ≤ maxDigits) :
    decode outside strIn =
      List.replicate (leading zeroDigit strIn) 0 ++
        bnBn2bin (value outside (strIn.drop (leading zeroDigit strIn)) 0) := by
  have hfits : newSize (strIn.length - leading zeroDigit strIn) ≤ 2 ^ 31 := (newSize_le_iff _).mpr h
  have hlength : (strIn.drop (leading zeroDigit strIn)).length ≤ maxDigits := by rwa [List.length_drop]
  have hroom := value_lt_newSize outside hlength
  rw [List.length_drop] at hroom
  rw [decode, decodeBuffer_eq outside strIn rfl, reach_of_le (newSize_pos _) hfits, Nat.sub_self,
    List.replicate_zero, List.append_nil, dropWhile_eq_bnBn2bin, bnBin2bn_reached, Nat.mod_eq_of_lt hroom]

/-- Of more characters nothing is decoded but the zeros, or `2 ^ 31` bytes at least. -/
theorem length_decode {strIn : Bytes} (h : maxDigits < strIn.length - leading zeroDigit strIn) :
    (decode outside strIn).length = leading zeroDigit strIn ∨ 2 ^ 31 ≤ (decode outside strIn).length := by
  set size := newSize (strIn.length - leading zeroDigit strIn) with hsize
  have hlarge : 2 ^ 31 < size := by
    rw [← not_le, hsize, newSize_le_iff]
    omega
  set digits := strIn.drop (leading zeroDigit strIn)
  rw [decode, decodeBuffer_eq outside strIn hsize.symm, dropWhile_eq_bnBn2bin, bnBin2bn_append_zeros,
    bnBin2bn_reached, List.length_append, List.length_replicate]
  set left := value outside digits 0 % 256 ^ reach size with hleft
  by_cases hzero : left = 0
  · simp [hzero, bnBn2bin]
  · have hreach : reach size ≠ 0 := by
      intro hnone
      rw [hnone, pow_zero, Nat.mod_one] at hleft
      exact hzero hleft
    have hend := (reach_of_lt hlarge).resolve_left hreach
    have hlength : ¬(Nat.digits 256 (left * 256 ^ (size - reach size))).length ≤ size - reach size := by
      rw [Nat.digits_length_le_iff (by omega), not_lt]
      exact Nat.le_mul_of_pos_left _ (Nat.pos_of_ne_zero hzero)
    rw [bnBn2bin, List.length_reverse, List.length_map]
    omega

end Decode

section Encode

/-- The zeros, and the digits of a number. -/
def text (zeros n : ℕ) : Bytes :=
  List.replicate zeros zeroDigit ++ (Nat.digits 58 n).reverse.map fun d => kBase58Dictionary[d]?.getD 0

/-- The buffer of `Encode` in the end. -/
def encodeBuffer (strIn : Bytes) : Bytes :=
  encodeLoop (List.replicate (b58Size strIn.length) 0) (strIn.drop (leading 0 strIn - 1))

/-- The string of the zeros and of the digits in the buffer. -/
theorem encode_eq_text (strIn : Bytes) :
    encode strIn =
      if (Int32.ofNat (leading 0 strIn)).toInt < 0 then none
      else some (text (Int32.ofNat (leading 0 strIn)).toInt.toNat
        (Positional.value 58 ((encodeBuffer strIn).map UInt8.toNat))) := by
  have hzero : ((fun d => decide (d = 0)) ∘ UInt8.toNat) = fun it : UInt8 => decide (it = 0) := by
    funext it
    simp [← UInt8.toNat_inj]
  have hdigits := @Positional.convert_dropWhile 58 256 (by omega) (b58Size strIn.length)
    ((strIn.drop (leading 0 strIn - 1)).map UInt8.toNat)
  have hbuffer : (encodeBuffer strIn).map UInt8.toNat =
      Positional.convert 58 256 (List.replicate (b58Size strIn.length) 0)
        ((strIn.drop (leading 0 strIn - 1)).map UInt8.toNat) := by
    rw [encodeBuffer, encodeLoop_eq, List.map_replicate]
    rfl
  rw [← hbuffer, List.dropWhile_map, hzero] at hdigits
  rw [text, ← hdigits, List.map_map]
  rfl

/-- The character for zero stands in front of a text as often as there are zeros. -/
theorem leading_text (zeros n : ℕ) : leading zeroDigit (text zeros n) = zeros := by
  exact leading_replicate_append zeros (head_dictionary_ne_zeroDigit n)

/-- The characters of a text are in the dictionary. -/
theorem mem_text {zeros n : ℕ} {c : UInt8} (hc : c ∈ text zeros n) : c ∈ kBase58Dictionary := by
  rw [text, List.mem_append] at hc
  cases hc with
  | inl hzero =>
    rw [List.eq_of_mem_replicate hzero]
    decide +kernel
  | inr hdigit =>
    obtain ⟨d, hd, rfl⟩ := List.mem_map.mp hdigit
    have hlength : kBase58Dictionary.length = 58 := by decide +kernel
    have hlt : d < kBase58Dictionary.length :=
      hlength ▸ Nat.digits_lt_base (by omega) (List.mem_reverse.mp hd)
    rw [List.getElem?_eq_getElem hlt, Option.getD_some]
    exact List.getElem_mem hlt

/-- What `Encode` reads stands for the number of the string. -/
theorem bnBin2bn_drop (strIn : Bytes) : bnBin2bn (strIn.drop (leading 0 strIn - 1)) = bnBin2bn strIn := by
  have htake : strIn.take (leading 0 strIn - 1) = List.replicate (leading 0 strIn - 1) 0 :=
    take_eq_replicate (Nat.sub_le _ _)
  conv_rhs => rw [← List.take_append_drop (leading 0 strIn - 1) strIn]
  rw [htake, bnBin2bn_zeros]

/-- The buffer of `Encode` has room for every string whose size can be multiplied: 138 digits hold 100 bytes. -/
theorem bnBin2bn_lt_b58Size {bin : Bytes} {size : ℕ} (hsize : bin.length ≤ size) (hlt : size < 2 ^ 56) :
    bnBin2bn bin < 58 ^ b58Size size := by
  have hdigits : 256 ^ bin.length ≤ 58 ^ b58Size size := by
    rw [← Nat.pow_le_pow_iff_left (n := 100) (by omega)]
    calc (256 ^ bin.length) ^ 100 = (256 ^ 100) ^ bin.length := by rw [← pow_mul, ← pow_mul, mul_comm]
      _ ≤ (58 ^ 138) ^ bin.length := Nat.pow_le_pow_left (by norm_num) _
      _ = 58 ^ (138 * bin.length) := by rw [← pow_mul]
      _ ≤ 58 ^ (b58Size size * 100) := Nat.pow_le_pow_right (by omega) (by rw [b58Size]; omega)
      _ = (58 ^ b58Size size) ^ 100 := by rw [← pow_mul]
  exact (bnBin2bn_lt bin).trans_le hdigits

/-- In no round of its outer loop does `Encode` leave a carry in front of its buffer. -/
def EncodeKeepsCarries (strIn : Bytes) : Prop :=
  ∀ done c rest, strIn.drop (leading 0 strIn - 1) = done ++ c :: rest →
    (carryDigits (encodeLoop (List.replicate (b58Size strIn.length) 0) done) c.toNat).2 = 0

/-- `Encode` loses no carry exactly when the positional conversion loses none. -/
theorem encodeKeepsCarries_iff {strIn : Bytes} :
    EncodeKeepsCarries strIn ↔ Positional.Keeps 58 256 (List.replicate (b58Size strIn.length) 0)
      ((strIn.drop (leading 0 strIn - 1)).map UInt8.toNat) := by
  rw [Positional.keeps_map_iff, EncodeKeepsCarries]
  simp only [(carryDigits_eq _ _).2, encodeLoop_eq, List.map_replicate, UInt8.toNat_zero]

/-- The buffer of `Encode` is large enough in every round. -/
theorem encodeKeepsCarries_of_lt {strIn : Bytes} (h : strIn.length < 2 ^ 56) : EncodeKeepsCarries strIn := by
  have hroom : bnBin2bn (strIn.drop (leading 0 strIn - 1)) < 58 ^ b58Size strIn.length :=
    bnBin2bn_lt_b58Size (by simp) h
  rw [bnBin2bn_eq_value] at hroom
  exact encodeKeepsCarries_iff.mpr (Positional.keeps_of_lt (by omega) (by omega) hroom)

/-- Where no carry is lost, the string is the text of the number. -/
theorem EncodeKeepsCarries.encode_eq {strIn : Bytes} (h : EncodeKeepsCarries strIn) :
    encode strIn =
      if (Int32.ofNat (leading 0 strIn)).toInt < 0 then none
      else some (text (Int32.ofNat (leading 0 strIn)).toInt.toNat (bnBin2bn strIn)) := by
  have hvalue : Positional.value 58 ((encodeBuffer strIn).map UInt8.toNat) = bnBin2bn strIn := by
    have hkept := (encodeKeepsCarries_iff.mp h).value_eq
    rw [← bnBin2bn_eq_value, bnBin2bn_drop] at hkept
    rw [← hkept, encodeBuffer, encodeLoop_eq, List.map_replicate]
    rfl
  rw [encode_eq_text, hvalue]

/-- The string of less than `2 ^ 31` zeros, and a number. -/
theorem EncodeKeepsCarries.encode_eq_some {strIn : Bytes} (h : EncodeKeepsCarries strIn)
    (hzeros : leading 0 strIn < 2 ^ 31) : encode strIn = some (text (leading 0 strIn) (bnBin2bn strIn)) := by
  rw [h.encode_eq, toInt_ofNat_of_lt hzeros, if_neg (by omega), Int.toNat_natCast]

/-- The string that `Encode` returns for less than `2 ^ 31` bytes. -/
theorem encoded_eq {strIn : Bytes} (h : strIn.length < 2 ^ 31) :
    encoded strIn = text (leading 0 strIn) (bnBin2bn strIn) := by
  have hzeros : leading 0 strIn ≤ strIn.length := (List.takeWhile_sublist _).length_le
  rw [encoded, (encodeKeepsCarries_of_lt (by omega)).encode_eq_some (by omega), Option.getD_some]

/-- What `Encode` returns is over the dictionary. -/
theorem mem_encoded {strIn : Bytes} {c : UInt8} (hc : c ∈ encoded strIn) : c ∈ kBase58Dictionary := by
  rw [encoded, encode_eq_text] at hc
  split at hc
  next => cases hc
  next => exact mem_text hc

/-- The leading digits of a number are those of a quotient of it. -/
theorem prefix_encoded {strIn : Bytes} (h : strIn.length < 2 ^ 31) (hfirst : leading 0 strIn = 0) (count : ℕ) :
    ((Nat.digits 58 (bnBin2bn strIn / 58 ^ count)).reverse.map fun d => kBase58Dictionary[d]?.getD 0) <+:
      encoded strIn := by
  rw [encoded_eq h, hfirst, text, List.replicate_zero, List.nil_append]
  exact (Positional.digits_div_prefix (by omega) count _).map _

end Encode

section Text

/-- The digits of a text stand for its number. -/
theorem value_text (n : ℕ) :
    value outside ((Nat.digits 58 n).reverse.map fun d => kBase58Dictionary[d]?.getD 0) 0 = n := by
  have hdigits : ∀ d ∈ (Nat.digits 58 n).reverse,
      ((fun c => (digit outside c).toNat) ∘ fun d => kBase58Dictionary[d]?.getD 0) d = d := by
    intro d hd
    exact digit_dictionary outside (Nat.digits_lt_base (by omega) (List.mem_reverse.mp hd))
  rw [value_eq, List.map_map, List.map_congr_left hdigits, List.map_id', Positional.value,
    List.reverse_reverse, Nat.ofDigits_digits]

/-- Behind its zeros a text has the digits of its number. -/
theorem drop_text (zeros n : ℕ) :
    (text zeros n).drop zeros = (Nat.digits 58 n).reverse.map fun d => kBase58Dictionary[d]?.getD 0 :=
  List.drop_left' List.length_replicate

/-- A text is decoded to its zeros and the bytes of its number. -/
theorem decode_text {zeros n : ℕ} (h : (Nat.digits 58 n).length ≤ maxDigits) :
    decode outside (text zeros n) = List.replicate zeros 0 ++ bnBn2bin n := by
  have hlength : (text zeros n).length - leading zeroDigit (text zeros n) ≤ maxDigits := by
    rw [leading_text, ← List.length_drop, drop_text, List.length_map, List.length_reverse]
    exact h
  rw [decode_eq outside hlength, leading_text, drop_text, value_text]

/-- A number has no more bytes than digits of base 58. -/
theorem length_bnBn2bin_le_digits (n : ℕ) : (bnBn2bin n).length ≤ (Nat.digits 58 n).length := by
  apply length_bnBn2bin_le
  calc n < 58 ^ (Nat.digits 58 n).length := Nat.lt_base_pow_length_digits (by omega)
    _ ≤ 256 ^ (Nat.digits 58 n).length := Nat.pow_le_pow_left (by omega) _

/-- Up to `maxDigits` bytes the string of `Encode` is decoded. -/
theorem decode_encoded {strIn : Bytes} (h : strIn.length < 2 ^ 30) : decode outside (encoded strIn) = strIn := by
  have hdigits : (Nat.digits 58 (bnBin2bn strIn)).length ≤ maxDigits := by
    rw [Nat.digits_length_le_iff (by omega)]
    calc bnBin2bn strIn < 256 ^ strIn.length := bnBin2bn_lt strIn
      _ ≤ (58 ^ 2) ^ strIn.length := Nat.pow_le_pow_left (by omega) _
      _ = 58 ^ (2 * strIn.length) := by rw [pow_mul]
      _ ≤ 58 ^ maxDigits := Nat.pow_le_pow_right (by omega) (by unfold maxDigits; omega)
  rw [encoded_eq (by omega), decode_text outside hdigits]
  exact (eq_zeros_append strIn).symm

end Text

end Base58

end CrosschainAgent
