import CrosschainAgent.Crypto.Base58Buffers
import Mathlib.Data.List.TakeWhile

/-!
# The two decoders of base 58

`Decode` and `Decode_old` write the same bytes for a string over the dictionary whose buffer `Decode` can go over,
but `Decode` returns the number of its zeros only, and does not reject any string.
-/

namespace CrosschainAgent

open BigNum

namespace Base58

variable (outside : UInt8 → Int8)

/-- Only the zeros are counted. -/
theorem decodeReturn_eq (strIn : Bytes) :
    decodeReturn outside strIn = Int32.ofNat (leading zeroDigit strIn) := by
  have hbound : leading 0 (decodeBuffer outside strIn) ≤ (decodeBuffer outside strIn).length :=
    (List.takeWhile_sublist _).length_le
  rw [decodeReturn, List.length_drop]
  congr 1
  omega

/-- A number without bytes is zero. -/
theorem bnBn2bin_eq_nil {bn : ℕ} : bnBn2bin bn = [] ↔ bn = 0 := by
  rw [bnBn2bin, List.reverse_eq_nil_iff, List.map_eq_nil_iff, Nat.digits_eq_nil_iff_eq_zero]

/-- Only digits that read as zero stand for zero. -/
theorem value_eq_zero {digits : Bytes} :
    value outside digits 0 = 0 ↔ ∀ c ∈ digits, (digit outside c).toNat = 0 := by
  rw [value_eq, Positional.value_eq_zero (by omega), List.forall_mem_map]

/-- A character that `Decode_old` rejects. -/
def Rejected (c : UInt8) : Prop := c &&& 0x80 ≠ 0 ∨ kBase58digits[c.toNat]?.getD (-1) = -1

instance (c : UInt8) : Decidable (Rejected c) := inferInstanceAs (Decidable (_ ∨ _))

/-- What is not rejected has a digit in the table, zero for the first character only. -/
theorem digit_of_not_rejected {c : UInt8} (hc : ¬Rejected c) :
    (kBase58digits[c.toNat]?.getD (-1)).toUInt8 = digit outside c ∧
      ((digit outside c).toNat = 0 → c = zeroDigit) := by
  have htable : ∀ n : Fin 256, ¬Rejected (UInt8.ofNat n) → n.val < kBase58digits.length ∧
      ((kBase58digits[n.val]?.getD 0).toUInt8.toNat = 0 → UInt8.ofNat n = zeroDigit) := by
    decide +kernel
  have hplace := htable ⟨c.toNat, c.toNat_lt⟩
  simp only [UInt8.ofNat_toNat] at hplace
  obtain ⟨hlt, hzero⟩ := hplace hc
  rw [List.getElem?_eq_getElem hlt, Option.getD_some] at hzero
  rw [digit, List.getElem?_eq_getElem hlt, Option.getD_some, Option.getD_some]
  exact ⟨rfl, hzero⟩

/-- The loop of `Decode_old` returns early at a character to reject. -/
theorem oldLoop_of_rejected {digits : Bytes} (h : ∃ c ∈ digits, Rejected c) (bn : ℕ) :
    oldLoop digits bn = none := by
  induction digits generalizing bn with
  | nil => simp at h
  | cons c digits ih =>
    rw [List.exists_mem_cons_iff] at h
    by_cases hhigh : c &&& 0x80 ≠ 0
    · rw [oldLoop, if_pos hhigh]
    · by_cases htable : kBase58digits[c.toNat]?.getD (-1) = -1
      · simp [oldLoop, htable]
      · have hc : ¬Rejected c := by simp only [Rejected, hhigh, htable, or_self, not_false_eq_true]
        rw [oldLoop, if_neg hhigh]
        simp only [if_neg htable, ih (h.resolve_left hc)]

/-- Without such a character it computes the number of the string. -/
theorem oldLoop_value {digits : Bytes} (h : ∀ c ∈ digits, ¬Rejected c) (bn : ℕ) :
    oldLoop digits bn = some (value outside digits bn) := by
  induction digits generalizing bn with
  | nil => rfl
  | cons c digits ih =>
    rw [List.forall_mem_cons] at h
    have hdigit := (digit_of_not_rejected outside h.1).1
    have hc := not_or.mp h.1
    rw [oldLoop, if_neg hc.1]
    simp only [if_neg hc.2, hdigit, ih h.2]
    rfl

/-- A character of a string is one of the zeros in front or stands behind them. -/
theorem eq_or_mem_drop {strIn : Bytes} {c : UInt8} (hc : c ∈ strIn) :
    c = zeroDigit ∨ c ∈ strIn.drop (leading zeroDigit strIn) := by
  rw [← List.take_append_drop (leading zeroDigit strIn) strIn, take_eq_replicate le_rfl,
    List.mem_append] at hc
  exact hc.imp_left List.eq_of_mem_replicate

/-- The characters for zero are never rejected. -/
theorem exists_rejected_drop (strIn : Bytes) :
    (∃ c ∈ strIn.drop (leading zeroDigit strIn), Rejected c) ↔ ∃ c ∈ strIn, Rejected c := by
  have hzero : ¬Rejected zeroDigit := by decide
  constructor
  · intro h
    obtain ⟨c, hc, hrejected⟩ := h
    exact ⟨c, List.mem_of_mem_drop hc, hrejected⟩
  · intro h
    obtain ⟨c, hc, hrejected⟩ := h
    cases eq_or_mem_drop hc with
    | inl hfront => exact absurd (hfront ▸ hrejected) hzero
    | inr hback => exact ⟨c, hback, hrejected⟩

/-- `Decode_old` rejects a string with a character that is no digit. -/
theorem decodeOld_of_rejected {strIn : Bytes} (h : ∃ c ∈ strIn, Rejected c) :
    decodeOld strIn = some (0, []) := by
  rw [decodeOld, oldLoop_of_rejected ((exists_rejected_drop strIn).mpr h)]

/-- Of other strings it writes the zeros and the bytes of the number, and returns how many they are. -/
theorem decodeOld_of_not_rejected {strIn : Bytes} (h : ¬∃ c ∈ strIn, Rejected c) :
    decodeOld strIn =
      if (bnBn2bin (value outside (strIn.drop (leading zeroDigit strIn)) 0)).length < 2 ^ 31 then
        some (Int32.ofNat ((bnBn2bin (value outside (strIn.drop (leading zeroDigit strIn)) 0)).length +
            leading zeroDigit strIn),
          List.replicate (leading zeroDigit strIn) 0 ++
            bnBn2bin (value outside (strIn.drop (leading zeroDigit strIn)) 0))
      else none := by
  have hvalid : ∀ c ∈ strIn.drop (leading zeroDigit strIn), ¬Rejected c := by
    intro c hc hrejected
    exact h ((exists_rejected_drop strIn).mp ⟨c, hc, hrejected⟩)
  rw [decodeOld, oldLoop_value outside hvalid]

/-- What is asked of the two decoders at a string: that they return and write the same, and that both reject
a string with a character that is no digit. -/
def DecodersAgree (strIn : Bytes) : Prop :=
  decodeOld strIn = some (decodeReturn outside strIn, decode outside strIn) ∧
    ((∃ c ∈ strIn, Rejected c) →
      (decodeReturn outside strIn, decode outside strIn) = (0, []) ∧ decodeOld strIn = some (0, []))

/-- There are no zeros in front of a string that starts with another character. -/
theorem leading_eq_zero (strIn : Bytes) : leading zeroDigit strIn = 0 ↔ strIn.head? ≠ some zeroDigit := by
  cases strIn with
  | nil => simp [leading]
  | cons c rest => by_cases hc : c = zeroDigit <;> simp [leading, hc]

/-- `Decode` writes nothing when it finds no zeros, and its buffer has no room for any part of the number. -/
theorem decode_eq_nil (strIn : Bytes) :
    decode outside strIn = [] ↔ strIn.head? ≠ some zeroDigit ∧
      256 ^ reach (newSize strIn.length) ∣ value outside strIn 0 := by
  rw [decode, List.append_eq_nil_iff, List.replicate_eq_nil_iff, leading_eq_zero]
  apply and_congr_right
  intro hhead
  have hzeros := (leading_eq_zero strIn).mpr hhead
  rw [dropWhile_eq_bnBn2bin, bnBn2bin_eq_nil, decodeBuffer_eq outside strIn rfl, bnBin2bn_append_zeros,
    bnBin2bn_reached, hzeros, List.drop_zero, Nat.sub_zero, Nat.mul_eq_zero,
    or_iff_left (pow_ne_zero _ (by omega)), Nat.dvd_iff_mod_eq_zero]

/-- Up to `maxDigits` characters that is a number zero. -/
theorem pow_dvd_value {strIn : Bytes} (h : strIn.length ≤ maxDigits) :
    256 ^ reach (newSize strIn.length) ∣ value outside strIn 0 ↔
      ∀ c ∈ strIn, (digit outside c).toNat = 0 := by
  rw [reach_of_le (newSize_pos _) ((newSize_le_iff _).mpr h), ← value_eq_zero]
  constructor
  · exact fun hdvd => Nat.eq_zero_of_dvd_of_lt hdvd (value_lt_newSize outside h)
  · intro hzero
    rw [hzero]
    exact dvd_zero _

/-- A string with a character to reject: `Decode` must find no zeros and write nothing. -/
theorem decodersAgree_of_rejected {strIn : Bytes} (h : ∃ c ∈ strIn, Rejected c) :
    DecodersAgree outside strIn ↔ strIn.head? ≠ some zeroDigit ∧
      ((∀ c ∈ strIn, (digit outside c).toNat = 0) ∨
        maxDigits < strIn.length ∧ 256 ^ reach (newSize strIn.length) ∣ value outside strIn 0) := by
  have hpair : DecodersAgree outside strIn ↔ decode outside strIn = [] := by
    rw [DecodersAgree, decodeOld_of_rejected h, Option.some_inj, Prod.mk.injEq]
    constructor
    · exact fun hboth => hboth.1.2.symm
    · intro hnil
      have hreturn : decodeReturn outside strIn = 0 := by
        rw [decodeReturn_eq, (leading_eq_zero strIn).mpr ((decode_eq_nil outside strIn).mp hnil).1]
        rfl
      exact ⟨⟨hreturn.symm, hnil.symm⟩, fun _ => ⟨Prod.ext hreturn hnil, rfl⟩⟩
  rw [hpair, decode_eq_nil]
  apply and_congr_right
  intro _
  rcases le_or_gt strIn.length maxDigits with hle | hlong
  · rw [pow_dvd_value outside hle, or_iff_left fun hlong => absurd hlong.1 (not_lt.mpr hle)]
  · constructor
    · exact fun hdvd => Or.inr ⟨hlong, hdvd⟩
    · rintro (hzero | ⟨-, hdvd⟩)
      · rw [(value_eq_zero outside).mpr hzero]
        exact dvd_zero _
      · exact hdvd

/-- Another string: there must be nothing behind the zeros. -/
theorem decodersAgree_of_not_rejected {strIn : Bytes} (h : ¬∃ c ∈ strIn, Rejected c) :
    DecodersAgree outside strIn ↔ ∀ c ∈ strIn, c = zeroDigit := by
  have hold := decodeOld_of_not_rejected outside h
  constructor
  · rintro ⟨hagree, -⟩ c hc
    rw [hold] at hagree
    split at hagree
    next hlt =>
      -- the two counts differ by the bytes behind the zeros
      have hcount := congrArg Int32.toInt (Prod.mk.inj (Option.some_inj.mp hagree)).1
      have hsize : Int32.size = 2 ^ 32 := rfl
      rw [decodeReturn_eq, Int32.toInt_ofNat', Int32.toInt_ofNat', hsize] at hcount
      have hmod := congrArg (· % ((2 ^ 32 : ℕ) : ℤ)) hcount
      simp only [Int.bmod_emod] at hmod
      have hnil : (bnBn2bin (value outside (strIn.drop (leading zeroDigit strIn)) 0)).length = 0 := by omega
      rw [List.length_eq_zero_iff, bnBn2bin_eq_nil, value_eq_zero] at hnil
      cases eq_or_mem_drop hc with
      | inl hfront => exact hfront
      | inr hback =>
        exact (digit_of_not_rejected outside fun hrejected =>
          h ⟨c, List.mem_of_mem_drop hback, hrejected⟩).2 (hnil c hback)
    next => cases hagree
  · intro hzero
    have hleading : leading zeroDigit strIn = strIn.length := by
      rw [leading, List.takeWhile_eq_self_iff.mpr]
      exact fun c hc => decide_eq_true (hzero c hc)
    have hdecode : decode outside strIn = List.replicate (leading zeroDigit strIn) 0 := by
      rw [decode_eq outside (by omega), hleading, List.drop_length]
      simp [value, bnBn2bin]
    refine ⟨?_, fun hrejected => absurd hrejected h⟩
    rw [hold, decodeReturn_eq, hdecode, hleading, List.drop_length]
    simp [value, bnBn2bin]

/-- The decoders agree on the strings of characters for zero, and on those that start with another character
and of which every character reads as the digit zero, where only memory in front of the table can be read; and
on a string with a character to reject that is too long for the inner loop of `Decode`, where nothing is left
of the number in what the loop reaches. -/
theorem decodersAgree_iff (strIn : Bytes) :
    DecodersAgree outside strIn ↔
      (∀ c ∈ strIn, c = zeroDigit) ∨
        strIn.head? ≠ some zeroDigit ∧
          ((∀ c ∈ strIn, (digit outside c).toNat = 0) ∨
            (∃ c ∈ strIn, Rejected c) ∧ maxDigits < strIn.length ∧
              256 ^ reach (newSize strIn.length) ∣ value outside strIn 0) := by
  by_cases hrejected : ∃ c ∈ strIn, Rejected c
  · have hne : ¬∀ c ∈ strIn, c = zeroDigit := by
      intro hzero
      obtain ⟨c, hc, h⟩ := hrejected
      rw [hzero c hc] at h
      exact absurd h (by decide)
    rw [decodersAgree_of_rejected outside hrejected, or_iff_right hne]
    simp only [hrejected, true_and]
  · rw [decodersAgree_of_not_rejected outside hrejected, or_iff_left_of_imp]
    rintro ⟨-, hdigits | ⟨h, -⟩⟩ c hc
    · exact (digit_of_not_rejected outside fun h => hrejected ⟨c, hc, h⟩).2 (hdigits c hc)
    · exact absurd h hrejected

/-- The string `2`: `Decode` returns 0, and `Decode_old` 1. -/
theorem not_decodersAgree : ¬DecodersAgree (fun _ => -1) [0x32] := by
  have hdecode : decodeReturn (fun _ => -1) [0x32] = 0 := by decide +kernel
  have hold : decodeOld [0x32] = some (1, [1]) := by decide +kernel
  intro h
  have hreturn := congrArg Prod.fst (Option.some_inj.mp (hold.symm.trans h.1))
  rw [hdecode] at hreturn
  exact absurd hreturn (by decide)

end Base58

end CrosschainAgent
