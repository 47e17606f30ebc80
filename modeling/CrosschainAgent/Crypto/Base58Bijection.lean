import CrosschainAgent.Crypto.Base58Buffers

/-!
# Base 58 back and forth

`Encode` and `Decode` undo each other as long as the `int`s of both fit: there are less than `2 ^ 31` zeros in
front, which `Encode` counts in one, and the buffer of `Decode` is at most `2 ^ 31` bytes large, whose last index
is the other. For every other string a round trip fails or a carry is lost.
-/

namespace CrosschainAgent

open BigNum

namespace Base58

variable (outside : UInt8 → Int8)

/-- In no round of its outer loop does `Decode` leave a carry in front of its buffer. -/
def DecodeKeepsCarries (strIn : Bytes) : Prop :=
  let nZeros := leading zeroDigit strIn
  ∀ done c rest, strIn.drop nZeros = done ++ c :: rest →
    let tmpStr := decodeLoop outside (List.replicate (newSize (strIn.length - nZeros)) 0) done
    (mulAdd (tmpStr.take (reach tmpStr.length)) (digit outside c).toNat).2 = 0

variable {outside}

/-- `Decode` loses no carry exactly when the positional conversion over what it reaches loses none. -/
theorem decodeKeepsCarries_iff {strIn : Bytes} {size : ℕ}
    (hsize : newSize (strIn.length - leading zeroDigit strIn) = size) :
    DecodeKeepsCarries outside strIn ↔ Positional.Keeps 256 58 (List.replicate (reach size) 0)
      ((strIn.drop (leading zeroDigit strIn)).map fun c => (digit outside c).toNat) := by
  have hpos : 0 < size := hsize ▸ newSize_pos _
  have hlength (done : Bytes) : (decodeLoop outside (List.replicate size 0) done).length = size := by
    rw [decodeLoop_zeros outside hpos, List.length_append, length_reached, List.length_replicate,
      List.length_replicate, Nat.add_sub_cancel' (reach_le hpos)]
  have htake (done : Bytes) : (decodeLoop outside (List.replicate size 0) done).take (reach size) =
      reached outside (List.replicate (reach size) 0) done := by
    rw [decodeLoop_zeros outside hpos]
    exact List.take_left' (by rw [length_reached, List.length_replicate])
  rw [Positional.keeps_map_iff, DecodeKeepsCarries]
  simp only [hsize, hlength, htake, (mulAdd_eq _ _).2, reached_eq, List.map_replicate, UInt8.toNat_zero]

/-- Up to `maxDigits` characters the buffer of `Decode` is large enough in every round, whatever they are. -/
theorem decodeKeepsCarries_of_le {strIn : Bytes} (h : strIn.length - leading zeroDigit strIn ≤ maxDigits) :
    DecodeKeepsCarries outside strIn := by
  have hlength : (strIn.drop (leading zeroDigit strIn)).length ≤ maxDigits := by rwa [List.length_drop]
  have hroom := value_lt_newSize outside hlength
  rw [List.length_drop, value_eq] at hroom
  rw [decodeKeepsCarries_iff rfl, reach_of_le (newSize_pos _) ((newSize_le_iff _).mpr h)]
  exact Positional.keeps_of_lt (by omega) (by omega) hroom

/-- Where no carry is lost, the bytes behind the zeros are those of the number, multiplied by what the inner loop
does not reach. -/
theorem DecodeKeepsCarries.decode_eq {strIn : Bytes} (h : DecodeKeepsCarries outside strIn) {size : ℕ}
    (hsize : newSize (strIn.length - leading zeroDigit strIn) = size) :
    decode outside strIn = List.replicate (leading zeroDigit strIn) 0 ++
      bnBn2bin (value outside (strIn.drop (leading zeroDigit strIn)) 0 * 256 ^ (size - reach size)) := by
  have hvalue := ((decodeKeepsCarries_iff hsize).mp h).value_eq
  have hnumber : bnBin2bn (reached outside (List.replicate (reach size) 0)
      (strIn.drop (leading zeroDigit strIn))) = value outside (strIn.drop (leading zeroDigit strIn)) 0 := by
    rw [bnBin2bn_eq_value, reached_eq, List.map_replicate, UInt8.toNat_zero, hvalue, value_eq]
  rw [decode, decodeBuffer_eq outside strIn hsize, dropWhile_eq_bnBn2bin, bnBin2bn_append_zeros, hnumber]

/-- `Decode` writes as many zeros as it counts. -/
theorem leading_decode (strIn : Bytes) : leading 0 (decode outside strIn) = leading zeroDigit strIn := by
  rw [decode, dropWhile_eq_bnBn2bin]
  exact leading_replicate_append _ (head_bnBn2bin_ne_zero _)

/-- A number is multiplied by what the inner loop leaves out, if it leaves anything out. -/
theorem eq_zero_of_mul_pow_eq {n digits : ℕ} (hlong : maxDigits < digits)
    (h : n * 256 ^ (newSize digits - reach (newSize digits)) = n) : n = 0 := by
  have hlarge : 2 ^ 31 < newSize digits := by
    rw [← not_le, newSize_le_iff]
    omega
  have hleft : newSize digits - reach (newSize digits) ≠ 0 := by
    rcases reach_of_lt hlarge with hzero | hend
    · omega
    · omega
  by_contra hn
  have hpow := Nat.one_lt_pow hleft (by omega : 1 < 256)
  exact absurd (mul_eq_left₀ hn |>.mp h) (by omega)

section RoundTrips

/-- What is asked of a string of bytes: its string is over the dictionary and is decoded to it, and no round of
either function loses a carry. -/
def RoundTrips (outside : UInt8 → Int8) (x : Bytes) : Prop :=
  EncodeKeepsCarries x ∧ ∃ s, encode x = some s ∧ (∀ c ∈ s, c ∈ kBase58Dictionary) ∧
    DecodeKeepsCarries outside s ∧ decode outside s = x

/-- What is asked of a string over the dictionary: it is the string of its bytes, and no round of either
function loses a carry. -/
def TextRoundTrips (outside : UInt8 → Int8) (s : Bytes) : Prop :=
  DecodeKeepsCarries outside s ∧ EncodeKeepsCarries (decode outside s) ∧ encode (decode outside s) = some s

/-- What `Encode` returns starts with less than `2 ^ 31` zeros. -/
theorem leading_lt_of_encode {x s : Bytes} (h : encode x = some s) : leading zeroDigit s < 2 ^ 31 := by
  have hint := toInt_lt (leading 0 x)
  rw [encode_eq_text] at h
  split at h
  next => cases h
  next hzeros =>
    rw [← Option.some_inj.mp h, leading_text]
    omega

/-- Behind these zeros it has the digits of the number, where no carry is lost. -/
theorem EncodeKeepsCarries.eq_text {x s : Bytes} (hkeeps : EncodeKeepsCarries x) (h : encode x = some s) :
    s = text (leading zeroDigit s) (bnBin2bn x) := by
  rw [hkeeps.encode_eq] at h
  split at h
  next => cases h
  next => rw [← Option.some_inj.mp h, leading_text]

/-- The bytes of `leading 0 x` zeros and a number below `58 ^ maxDigits` can be multiplied by 138. -/
theorem length_lt_of_le {x : Bytes} (hzeros : leading 0 x < 2 ^ 31)
    (hdigits : (Nat.digits 58 (bnBin2bn x)).length ≤ maxDigits) : x.length < 2 ^ 56 := by
  have hbytes := length_bnBn2bin_le_digits (bnBin2bn x)
  have hlength := congrArg List.length (eq_zeros_append x)
  rw [List.length_append, List.length_replicate] at hlength
  unfold maxDigits at hdigits
  omega

/-- A string of bytes makes the round trip exactly when its zeros and its digits can be counted. -/
theorem roundTrips_iff (x : Bytes) :
    RoundTrips outside x ↔ leading 0 x < 2 ^ 31 ∧ (Nat.digits 58 (bnBin2bn x)).length ≤ maxDigits := by
  constructor
  · rintro ⟨hkeeps, s, hencode, -, hdecodeKeeps, hdecode⟩
    have hzeros : leading 0 x = leading zeroDigit s := hdecode ▸ leading_decode s
    refine ⟨hzeros ▸ leading_lt_of_encode hencode, ?_⟩
    by_contra hlong
    have htext := hkeeps.eq_text hencode
    have hrest : s.drop (leading zeroDigit s) =
        (Nat.digits 58 (bnBin2bn x)).reverse.map fun d => kBase58Dictionary[d]?.getD 0 := by
      conv_lhs => rw [htext, leading_text, drop_text]
    have hsize : s.length - leading zeroDigit s = (Nat.digits 58 (bnBin2bn x)).length := by
      rw [← List.length_drop, hrest, List.length_map, List.length_reverse]
    have hbytes := hdecodeKeeps.decode_eq (congrArg newSize hsize)
    rw [hdecode, hrest, value_text] at hbytes
    have hnumber := congrArg bnBin2bn hbytes
    rw [bnBin2bn_zeros, bnBin2bn_bnBn2bin] at hnumber
    have hzero := eq_zero_of_mul_pow_eq (not_le.mp hlong) hnumber.symm
    rw [hzero, Nat.digits_zero] at hlong
    exact hlong (Nat.zero_le _)
  · rintro ⟨hzeros, hdigits⟩
    have hkeeps := encodeKeepsCarries_of_lt (length_lt_of_le hzeros hdigits)
    refine ⟨hkeeps, _, hkeeps.encode_eq_some hzeros, fun c => mem_text, decodeKeepsCarries_of_le ?_, ?_⟩
    · rw [leading_text, ← List.length_drop, drop_text, List.length_map, List.length_reverse]
      exact hdigits
    · rw [decode_text outside hdigits]
      exact (eq_zeros_append x).symm

/-- A string over the dictionary is the text of its number. -/
theorem eq_text_of_dictionary {s : Bytes} (hs : ∀ c ∈ s, c ∈ kBase58Dictionary) :
    s = text (leading zeroDigit s) (value outside (s.drop (leading zeroDigit s)) 0) := by
  have hdictionary : ∀ c ∈ s.drop (leading zeroDigit s), c ∈ kBase58Dictionary :=
    fun c hc => hs c (List.mem_of_mem_drop hc)
  have hlt : ∀ d ∈ (s.drop (leading zeroDigit s)).map fun c => (digit outside c).toNat, d < 58 := by
    intro d hd
    obtain ⟨c, hc, rfl⟩ := List.mem_map.mp hd
    exact (dictionary_digit outside (hdictionary c hc)).1
  -- behind the zeros the numeral has no zero in front
  have hhead : ((s.drop (leading zeroDigit s)).map fun c => (digit outside c).toNat).dropWhile (· = 0) =
      (s.drop (leading zeroDigit s)).map fun c => (digit outside c).toNat := by
    have hfirst := List.head?_dropWhile_not (fun c => decide (c = zeroDigit)) s
    rw [← drop_leading] at hfirst
    cases hrest : s.drop (leading zeroDigit s) with
    | nil => rfl
    | cons c rest =>
      have hdigit : (digit outside c).toNat ≠ 0 := by
        intro hzero
        have hplace := (dictionary_digit outside (hdictionary c (by simp [hrest]))).2
        have hfirstDigit : kBase58Dictionary[0]?.getD 0 = zeroDigit := by decide +kernel
        rw [hzero, hfirstDigit] at hplace
        simp [hrest, ← hplace] at hfirst
      rw [List.map_cons, List.dropWhile_cons_of_neg (by simpa using hdigit)]
  have hdigits := Positional.dropWhile_eq_digits (by omega) hlt
  rw [hhead, ← value_eq] at hdigits
  have hback : ∀ c ∈ s.drop (leading zeroDigit s),
      ((fun d => kBase58Dictionary[d]?.getD 0) ∘ fun c => (digit outside c).toNat) c = c :=
    fun c hc => (dictionary_digit outside (hdictionary c hc)).2
  rw [text, ← hdigits, List.map_map, List.map_congr_left hback, List.map_id',
    ← take_eq_replicate le_rfl, List.take_append_drop]

/-- So does a string over the dictionary. -/
theorem textRoundTrips_iff {s : Bytes} (hs : ∀ c ∈ s, c ∈ kBase58Dictionary) :
    TextRoundTrips outside s ↔
      leading zeroDigit s < 2 ^ 31 ∧ s.length - leading zeroDigit s ≤ maxDigits := by
  have htext := @eq_text_of_dictionary outside s hs
  have hdrop := congrArg (List.drop (leading zeroDigit s)) htext
  rw [drop_text] at hdrop
  have hlength : s.length - leading zeroDigit s =
      (Nat.digits 58 (value outside (s.drop (leading zeroDigit s)) 0)).length := by
    rw [← List.length_drop, hdrop, List.length_map, List.length_reverse, value_text]
  constructor
  · rintro ⟨hdecodeKeeps, hkeeps, hencode⟩
    refine ⟨leading_lt_of_encode hencode, ?_⟩
    by_contra hlong
    have hbytes := hdecodeKeeps.decode_eq rfl
    have hnumber := congrArg bnBin2bn hbytes
    rw [bnBin2bn_zeros, bnBin2bn_bnBn2bin] at hnumber
    have hencoded := congrArg (List.drop (leading zeroDigit s)) (hkeeps.eq_text hencode)
    rw [drop_text, hnumber] at hencoded
    have hvalue := congrArg (fun digits => value outside digits 0) hencoded
    rw [value_text] at hvalue
    have hzero := eq_zero_of_mul_pow_eq (not_le.mp hlong) hvalue.symm
    rw [hlength, hzero, Nat.digits_zero] at hlong
    exact hlong (Nat.zero_le _)
  · rintro ⟨hzeros, hdigits⟩
    have hdecode := decode_eq outside hdigits
    have hnumber : bnBin2bn (decode outside s) = value outside (s.drop (leading zeroDigit s)) 0 := by
      rw [hdecode, bnBin2bn_zeros, bnBin2bn_bnBn2bin]
    have hfront : leading 0 (decode outside s) < 2 ^ 31 := by rwa [leading_decode]
    have hkeeps : EncodeKeepsCarries (decode outside s) :=
      encodeKeepsCarries_of_lt (length_lt_of_le hfront (by rw [hnumber, ← hlength]; exact hdigits))
    refine ⟨decodeKeepsCarries_of_le hdigits, hkeeps, ?_⟩
    rw [hkeeps.encode_eq_some hfront, hnumber, leading_decode, ← htext]

/-- For a number of zero bytes that is negative as an `int` there is no string. -/
theorem encode_zeros {count : ℕ} (hcount : (Int32.ofNat count).toInt < 0) :
    encode (List.replicate count 0) = none ∧ ¬RoundTrips outside (List.replicate count 0) := by
  have hzeros : leading 0 (List.replicate count 0) = count := by
    simp [leading]
  have hthrows : encode (List.replicate count 0) = none := by
    rw [encode_eq_text, hzeros, if_pos hcount]
  refine ⟨hthrows, ?_⟩
  rintro ⟨-, s, hencode, -⟩
  rw [hthrows] at hencode
  cases hencode

end RoundTrips

/-- Base 58 is a bijection, and no round of either function loses a carry, exactly for less than `2 ^ 31` zeros in
front and at most `maxDigits` digits behind them. -/
theorem base58_bijective_iff :
    (∀ x, RoundTrips outside x ↔
      leading 0 x < 2 ^ 31 ∧ (Nat.digits 58 (bnBin2bn x)).length ≤ maxDigits) ∧
    ∀ s, (∀ c ∈ s, c ∈ kBase58Dictionary) →
      (TextRoundTrips outside s ↔
        leading zeroDigit s < 2 ^ 31 ∧ s.length - leading zeroDigit s ≤ maxDigits) := by
  constructor
  · exact roundTrips_iff
  · intro s hs
    exact textRoundTrips_iff hs

/-- Two zero bytes and a byte, both ways. -/
theorem base58_bijective_iff_zeros :
    RoundTrips (fun _ => -1) [0, 0, 0xFF] ∧
      TextRoundTrips (fun _ => -1) ("115Q".toList.map fun c => UInt8.ofNat c.toNat) := by
  have hbijective := @base58_bijective_iff fun _ => -1
  have hnumber : bnBin2bn [0, 0, 0xFF] = 255 := by decide +kernel
  constructor
  · exact (hbijective.1 _).mpr ⟨by decide, by rw [hnumber]; norm_num [maxDigits]⟩
  · exact (hbijective.2 _ (by decide +kernel)).mpr ⟨by decide +kernel, by decide +kernel⟩

/-- For `2 ^ 31` zero bytes `Encode` throws. -/
theorem not_roundTrips_zeros :
    encode (List.replicate (2 ^ 31) 0) = none ∧ ¬RoundTrips (fun _ => -1) (List.replicate (2 ^ 31) 0) :=
  encode_zeros (by decide)

end Base58

end CrosschainAgent
