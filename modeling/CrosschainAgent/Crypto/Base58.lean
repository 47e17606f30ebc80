import CrosschainAgent.Crypto.BigNum
import CrosschainAgent.Library.Positional
import CrosschainAgent.Library.Rounding
import Mathlib.Data.Nat.Log

/-!
# Base 58

`Base58::Encode` multiplies a buffer of base 58 digits by 256 for each byte, `Base58::Decode` a buffer of
bytes by 58 for each character. `Encode` counts the zeros in front as an `int`, and the inner loop of `Decode`
counts an `int` down from the last index of its buffer, whose size is computed in doubles; both wrap around
where the number does not fit. The table of the digits holds the characters below 128; a larger one is a
negative index, and what is read there is a parameter. To `Decode` a character that is no digit counts as
255, where `Decode_old` rejects the string.
-/

namespace CrosschainAgent

open BigNum

namespace Base58

/-- `kBase58digits`. -/
def kBase58digits : List Int8 := [
  -1, -1, -1, -1, -1, -1, -1, -1, -1, -1, -1, -1, -1, -1, -1, -1,
  -1, -1, -1, -1, -1, -1, -1, -1, -1, -1, -1, -1, -1, -1, -1, -1,
  -1, -1, -1, -1, -1, -1, -1, -1, -1, -1, -1, -1, -1, -1, -1, -1,
  -1, 0, 1, 2, 3, 4, 5, 6, 7, 8, -1, -1, -1, -1, -1, -1,
  -1, 9, 34, 11, 12, 13, 14, 15, 16, -1, 17, 18, 19, 20, 21, -1,
  22, 23, 24, 25, 26, 52, 28, 29, 30, 31, 32, -1, -1, -1, -1, -1,
  -1, 33, 10, 35, 36, 37, 38, 39, 40, 41, 42, 43, -1, 44, 45, 46,
  47, 48, 49, 50, 51, 27, 53, 54, 55, 56, 57, -1, -1, -1, -1, -1]

/-- `kBase58Dictionary`. -/
def kBase58Dictionary : Bytes :=
  "123456789AbCDEFGHJKLMNPQRSTuVWXYZaBcdefghijkmnopqrstUvwxyz".toList.map fun c => UInt8.ofNat c.toNat

/-- The first character of `kBase58Dictionary`, `1`, which stands for zero. -/
def zeroDigit : UInt8 := 0x31

/-- The inner loop of `Encode`, from the last digit of the buffer to the first. -/
def carryDigits : Bytes → ℕ → Bytes × ℕ
  | [], carry => ([], carry)
  | it :: rest, carry =>
    let (rest, carry) := carryDigits rest carry
    let carry := carry + 256 * it.toNat
    (UInt8.ofNat (carry % 58) :: rest, carry / 58)

/-- The outer loop of `Encode`; the last carry is dropped. -/
def encodeLoop (b58 : Bytes) (strIn : Bytes) : Bytes :=
  strIn.foldl (fun b58 c => (carryDigits b58 c.toNat).1) b58

/-- The size of the buffer of `Encode`, a `std::size_t`. -/
def b58Size (size : ℕ) : ℕ := size * 138 % 2 ^ 64 / 100 + 1

/-- How often a byte stands in front of a string. -/
def leading (byte : UInt8) (strIn : Bytes) : ℕ := (strIn.takeWhile (· = byte)).length

/-- `Encode`. For a negative number of zeros the string throws. -/
def encode (strIn : Bytes) : Option Bytes :=
  let zeros := Int32.ofNat (leading 0 strIn)
  -- the index of the last of the zeros, which is read once more with the bytes behind it
  let firstNoZero := leading 0 strIn - 1
  let b58 := encodeLoop (List.replicate (b58Size strIn.length) 0) (strIn.drop firstNoZero)
  if zeros.toInt < 0 then none
  else some (List.replicate zeros.toInt.toNat zeroDigit ++
    (b58.dropWhile (· = 0)).map fun it => kBase58Dictionary[it.toNat]?.getD 0)

/-- What `Encode` returns; nothing where it throws. -/
def encoded (strIn : Bytes) : Bytes := (encode strIn).getD []

variable (outside : UInt8 → Int8)

/-- `(unsigned char)kBase58digits[c]`. The index is a signed `char`. -/
def digit (c : UInt8) : UInt8 := (kBase58digits[c.toNat]?.getD (outside c)).toUInt8

/-- The inner loop of `Decode`, from the last byte it reaches to the first: what is in the buffer is
multiplied by 58, and the carry is added. -/
def mulAdd : Bytes → ℕ → Bytes × ℕ
  | [], carry => ([], carry)
  | byte :: rest, carry =>
    let (rest, carry) := mulAdd rest carry
    let tmp := byte.toNat * 58 + carry
    (UInt8.ofNat (tmp % 256) :: rest, tmp / 256)

/-- The number of bytes that the inner loop goes over in a buffer: `int j` starts at `new_size - 1`. -/
def reach (newSize : ℕ) : ℕ := ((Int32.ofNat (newSize - 1)).toInt + 1).toNat

/-- The outer loop of `Decode`; the last carry is dropped. -/
def decodeLoop (tmpStr : Bytes) (digits : Bytes) : Bytes :=
  digits.foldl (fun tmpStr c =>
    (mulAdd (tmpStr.take (reach tmpStr.length)) (digit outside c).toNat).1 ++
      tmpStr.drop (reach tmpStr.length)) tmpStr

/-- `log2(58.0)`: the double next to the logarithm, in units of `2 ^ -50`. -/
def log2Of58 : ℕ := 6595500256699995

/-- The size of the buffer of `Decode`. The product has the unit of `log2Of58`, an eighth of it and the sum
have an eighth of that unit. -/
def newSize (leftSize : ℕ) : ℕ :=
  let product := Rounding.toBits 53 (Rounding.toBits 53 leftSize * log2Of58)
  Rounding.toBits 53 (product + 2 * 2 ^ 53) / 2 ^ 53

/-- The buffer of `Decode` in the end. -/
def decodeBuffer (strIn : Bytes) : Bytes :=
  let nZeros := leading zeroDigit strIn
  let leftSize := strIn.length - nZeros
  decodeLoop outside (List.replicate (newSize leftSize) 0) (strIn.drop nZeros)

/-- `Decode`. -/
def decode (strIn : Bytes) : Bytes :=
  List.replicate (leading zeroDigit strIn) 0 ++ (decodeBuffer outside strIn).dropWhile (· = 0)

/-- What `Decode` returns. Its last loop has run `k` to the end of the buffer, so that the zeros are left. -/
def decodeReturn (strIn : Bytes) : Int32 :=
  let tmpStr := decodeBuffer outside strIn
  let k := leading 0 tmpStr
  let k := k + (tmpStr.drop k).length
  Int32.ofNat (leading zeroDigit strIn + tmpStr.length - k)

/-- The loop of `Decode_old` over the characters behind the zeros; `none` where it returns early. -/
def oldLoop : Bytes → ℕ → Option ℕ
  | [], bn => some bn
  | c :: rest, bn =>
    if c &&& 0x80 ≠ 0 then none
    else
      let bnchar := kBase58digits[c.toNat]?.getD (-1)
      if bnchar = -1 then none else oldLoop rest (bn * 58 + bnchar.toUInt8.toNat)

/-- `Decode_old`, the value it returns and the string it writes. Where the number of bytes is no `int` there is
no array of that size, and nothing is returned. -/
def decodeOld (strIn : Bytes) : Option (Int32 × Bytes) :=
  let nZeros := leading zeroDigit strIn
  match oldLoop (strIn.drop nZeros) 0 with
  | none => some (0, [])
  | some bn =>
    let out := bnBn2bin bn
    if out.length < 2 ^ 31 then some (Int32.ofNat (out.length + nZeros), List.replicate nZeros 0 ++ out)
    else none

/-- The number that the digits of a string stand for. -/
def value (digits : Bytes) (start : ℕ) : ℕ :=
  digits.foldl (fun acc c => acc * 58 + (digit outside c).toNat) start

/-- The number that bytes stand for is the value of their numeral. -/
theorem bnBin2bn_eq_value (bin : Bytes) : bnBin2bn bin = Positional.value 256 (bin.map UInt8.toNat) := by
  rw [bnBin2bn, Positional.value]

/-- Bytes without the zeros in front are those of their number. -/
theorem dropWhile_eq_bnBn2bin (bin : Bytes) : bin.dropWhile (· = 0) = bnBn2bin (bnBin2bn bin) := by
  have hlt : ∀ d ∈ bin.map UInt8.toNat, d < 256 := by
    intro d hd
    obtain ⟨byte, -, rfl⟩ := List.mem_map.mp hd
    exact byte.toNat_lt
  have hdigits := Positional.dropWhile_eq_digits (by omega) hlt
  have hzero : ((fun d => decide (d = 0)) ∘ UInt8.toNat) = fun byte : UInt8 => decide (byte = 0) := by
    funext byte
    simp [← UInt8.toNat_inj]
  rw [List.dropWhile_map, hzero, ← bnBin2bn_eq_value] at hdigits
  rw [bnBn2bin, ← List.map_reverse, ← hdigits, List.map_map]
  simp [Function.comp_def]

section Loops

/-- The inner loop of `Decode` is a pass over the numeral of the buffer. -/
theorem mulAdd_eq (tmpStr : Bytes) (carry : ℕ) :
    (mulAdd tmpStr carry).1.map UInt8.toNat = (Positional.mulAdd 256 58 (tmpStr.map UInt8.toNat) carry).1 ∧
      (mulAdd tmpStr carry).2 = (Positional.mulAdd 256 58 (tmpStr.map UInt8.toNat) carry).2 := by
  induction tmpStr with
  | nil => simp [mulAdd, Positional.mulAdd]
  | cons byte rest ih => simp [mulAdd, Positional.mulAdd, ih]

/-- The inner loop of `Encode` is a pass over the numeral of the buffer. -/
theorem carryDigits_eq (b58 : Bytes) (carry : ℕ) :
    (carryDigits b58 carry).1.map UInt8.toNat = (Positional.mulAdd 58 256 (b58.map UInt8.toNat) carry).1 ∧
      (carryDigits b58 carry).2 = (Positional.mulAdd 58 256 (b58.map UInt8.toNat) carry).2 := by
  induction b58 with
  | nil => simp [carryDigits, Positional.mulAdd]
  | cons it rest ih =>
    have hdigit : ∀ n, n % 58 % 256 = n % 58 := fun n => Nat.mod_eq_of_lt (by omega)
    simp [carryDigits, Positional.mulAdd, ih, hdigit, Nat.add_comm, Nat.mul_comm]

/-- The outer loop of `Encode` converts the bytes of the string. -/
theorem encodeLoop_eq (b58 strIn : Bytes) :
    (encodeLoop b58 strIn).map UInt8.toNat =
      Positional.convert 58 256 (b58.map UInt8.toNat) (strIn.map UInt8.toNat) := by
  induction strIn generalizing b58 with
  | nil => rfl
  | cons c strIn ih =>
    have hstep := ih (carryDigits b58 c.toNat).1
    rwa [(carryDigits_eq _ _).1] at hstep

end Loops

/-- The number of a string is the value of its numeral. -/
theorem value_eq (digits : Bytes) :
    value outside digits 0 = Positional.value 58 (digits.map fun c => (digit outside c).toNat) := by
  induction digits using List.reverseRecOn with
  | nil => rfl
  | append_singleton digits c ih =>
    rw [List.map_append, List.map_singleton, Positional.value_concat, ← ih]
    simp [value]

/-- Each digit is below 256, whatever is read outside the table. -/
theorem value_bound (digits : Bytes) : 57 * value outside digits 0 + 255 ≤ 255 * 58 ^ digits.length := by
  induction digits using List.reverseRecOn with
  | nil => simp [value]
  | append_singleton digits c ih =>
    have hdigit := (digit outside c).toNat_lt
    have hvalue : value outside (digits ++ [c]) 0 =
        value outside digits 0 * 58 + (digit outside c).toNat := by
      simp [value]
    rw [hvalue, List.length_append, List.length_singleton, pow_succ]
    omega

/-- The number of a string is below the power of its length. -/
theorem bnBin2bn_lt (bin : Bytes) : bnBin2bn bin < 256 ^ bin.length := by
  rw [bnBin2bn_eq_value, ← List.length_map UInt8.toNat]
  apply Positional.value_lt (by omega)
  intro d hd
  obtain ⟨byte, -, rfl⟩ := List.mem_map.mp hd
  exact byte.toNat_lt

/-- What stands in front of the first other byte is a run of one byte. -/
theorem take_eq_replicate {byte : UInt8} {bin : Bytes} {count : ℕ} (hcount : count ≤ leading byte bin) :
    bin.take count = List.replicate count byte := by
  unfold leading at hcount
  induction bin generalizing count with
  | nil => simp_all
  | cons first rest ih =>
    cases count with
    | zero => rfl
    | succ count =>
      by_cases hfirst : first = byte
      · rw [List.takeWhile_cons_of_pos (by simpa using hfirst), List.length_cons] at hcount
        rw [List.take_succ_cons, ih (by omega), hfirst, List.replicate_succ]
      · rw [List.takeWhile_cons_of_neg (by simpa using hfirst), List.length_nil] at hcount
        omega

/-- A character of the dictionary stands for its place there. -/
theorem digit_dictionary {d : ℕ} (hd : d < 58) :
    (digit outside (kBase58Dictionary[d]?.getD 0)).toNat = d := by
  have htable : ∀ d : Fin 58, kBase58digits[(kBase58Dictionary[d.val]?.getD 0).toNat]? =
      some (Int8.ofNat d.val) := by decide +kernel
  have hbyte : ∀ d : Fin 58, (Int8.ofNat d.val).toUInt8.toNat = d.val := by decide +kernel
  rw [digit, htable ⟨d, hd⟩, Option.getD_some, hbyte ⟨d, hd⟩]

/-- A character of the dictionary is found again at the place that it stands for. -/
theorem dictionary_digit {c : UInt8} (hc : c ∈ kBase58Dictionary) :
    (digit outside c).toNat < 58 ∧ kBase58Dictionary[(digit outside c).toNat]?.getD 0 = c := by
  obtain ⟨d, hd, rfl⟩ := List.getElem_of_mem hc
  have hlength : kBase58Dictionary.length = 58 := by decide +kernel
  have hplace := digit_dictionary outside (hlength ▸ hd)
  rw [List.getElem?_eq_getElem hd, Option.getD_some] at hplace
  rw [hplace]
  exact ⟨hlength ▸ hd, by rw [List.getElem?_eq_getElem hd, Option.getD_some]⟩

/-- To drop what was counted is to drop it while counting. -/
theorem drop_leading (byte : UInt8) (bin : Bytes) : bin.drop (leading byte bin) = bin.dropWhile (· = byte) := by
  conv_lhs =>
    enter [2]
    rw [← List.takeWhile_append_dropWhile (p := (· = byte)) (l := bin)]
  exact List.drop_left' rfl

/-- The bytes of a string, without the zeros in front, are those of its number. -/
theorem eq_zeros_append (bin : Bytes) :
    bin = List.replicate (leading 0 bin) 0 ++ bnBn2bin (bnBin2bn bin) := by
  rw [← dropWhile_eq_bnBn2bin, ← take_eq_replicate le_rfl, ← drop_leading, List.take_append_drop]

/-- The run of `byte` in front of a string that goes on with another byte, or ends. -/
theorem leading_replicate_append {byte : UInt8} (count : ℕ) {rest : Bytes}
    (hrest : ∀ first ∈ rest.head?, first ≠ byte) : leading byte (List.replicate count byte ++ rest) = count := by
  unfold leading
  induction count with
  | zero =>
    cases rest with
    | nil => rfl
    | cons first rest =>
      have hfirst := hrest first rfl
      simp [hfirst]
  | succ count ih => simpa [List.replicate_succ] using ih

/-- The first digit of a number is not zero. -/
theorem head_digits_ne_zero {base n d : ℕ} (hd : d ∈ (Nat.digits base n).reverse.head?) : d ≠ 0 := by
  rw [List.head?_reverse] at hd
  obtain ⟨hnil, rfl⟩ := List.mem_getLast?_eq_getLast hd
  exact Nat.getLast_digit_ne_zero base (Nat.digits_ne_nil_iff_ne_zero.mp hnil)

/-- The bytes of a number do not start with a zero. -/
theorem head_bnBn2bin_ne_zero (bn : ℕ) : ∀ first ∈ (bnBn2bin bn).head?, first ≠ 0 := by
  intro first hfirst hzero
  rw [bnBn2bin, ← List.map_reverse, List.head?_map, Option.mem_def, Option.map_eq_some_iff] at hfirst
  obtain ⟨d, hd, rfl⟩ := hfirst
  have hlt : d < 256 := Nat.digits_lt_base (by omega) (List.mem_reverse.mp (List.mem_of_mem_head? hd))
  have htoNat := congrArg UInt8.toNat hzero
  exact head_digits_ne_zero hd ((UInt8.toNat_ofNat_of_lt' hlt).symm.trans htoNat)

/-- The encoded number does not start with the character for zero. -/
theorem head_dictionary_ne_zeroDigit (n : ℕ) :
    ∀ first ∈ ((Nat.digits 58 n).reverse.map fun d => kBase58Dictionary[d]?.getD 0).head?,
      first ≠ zeroDigit := by
  intro first hfirst hzero
  rw [List.head?_map, Option.mem_def, Option.map_eq_some_iff] at hfirst
  obtain ⟨d, hd, rfl⟩ := hfirst
  have hlt : d < 58 := Nat.digits_lt_base (by omega) (List.mem_reverse.mp (List.mem_of_mem_head? hd))
  have hplace := digit_dictionary (fun _ => 0) hlt
  rw [hzero] at hplace
  exact head_digits_ne_zero hd (hplace.symm.trans (by decide +kernel))

end Base58

end CrosschainAgent
