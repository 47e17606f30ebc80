import CrosschainAgent.Common.Strings
import Mathlib.Data.List.Induction
import Mathlib.Data.Nat.ModEq

/-!
# Parsing by printing back

`SafeStoi` and its siblings parse a text, print the number and compare. The parsers themselves accept
anything: `atoi` drops the high bits, `atoll` saturates, and the loops of the unsigned types wrap around. What
comes back is compared with the whole text, so that only the texts that are printed for a number of the type
are accepted, and these are the canonical decimals.
-/

namespace CrosschainAgent

namespace Strings

/-- The loop of `Stoui` and `Stoui64`, on a type of `bits` bits. -/
def unsignedLoop (bits : ℕ) : Text → ℕ → BitVec bits → BitVec bits
  | [], _, value => value
  | itemValue :: rest, usedDigits, value =>
    if itemValue.isDigit then
      unsignedLoop bits rest (usedDigits + 1) (value * 10 + BitVec.ofNat bits (itemValue.toNat - '0'.toNat))
    else if ¬isSpace itemValue ∨ usedDigits > 0 then value
    else unsignedLoop bits rest usedDigits value

/-- `Stoui`. -/
def stoui (str : Text) : UInt32 := UInt32.ofBitVec (unsignedLoop 32 str 0 0)

/-- `Stoi64`. -/
def stoi64 (str : Text) : Int64 := stol str

/-- `Stoui64`, which returns a signed number. -/
def stoui64 (str : Text) : Int64 := (UInt64.ofBitVec (unsignedLoop 64 str 0 0)).toInt64

/-- The `%u` conversion. -/
def formatU (n : UInt32) : Text := decimal n.toNat

/-- The `%lu` conversion. -/
def formatLu (n : UInt64) : Text := decimal n.toNat

/-- What `SafeStoi` and its siblings do: a text that is longer than `limit` is not parsed, and `num` is set to
a number that is printed as the text. -/
def safeSto {N : Type} (limit : ℕ) (parse : Text → N) (ToString : N → Text) (str : Text) (num : N) : Bool × N :=
  if str.length > limit then (false, num)
  else
    let temNum := parse str
    if str = ToString temNum then (true, temNum) else (false, num)

/-- `SafeStoi`. -/
def safeStoi : Text → Int32 → Bool × Int32 := safeSto 11 stoi formatD

/-- `SafeStoui`. -/
def safeStoui : Text → UInt32 → Bool × UInt32 := safeSto 10 stoui formatU

/-- `SafeStoi64`. -/
def safeStoi64 : Text → Int64 → Bool × Int64 := safeSto 20 stoi64 formatLd

/-- `SafeStoui64`. -/
def safeStoui64 : Text → UInt64 → Bool × UInt64 := safeSto 20 (fun str => (stoui64 str).toUInt64) formatLu

/-- Digits without a zero in front, except for zero itself. -/
def Numeral (digits : Text) : Prop :=
  digits ≠ [] ∧ (∀ c ∈ digits, c.isDigit) ∧ (digits.head? = some '0' → digits = ['0'])

/-- The canonical decimal of an integer: a numeral, or a minus and the numeral of a number other than zero. -/
def Canonical (str : Text) (v : ℤ) : Prop :=
  Numeral str ∧ v = Nat.ofDigitChars 10 str 0 ∨
    ∃ digits, str = '-' :: digits ∧ Numeral digits ∧ digits ≠ ['0'] ∧ v = -(Nat.ofDigitChars 10 digits 0 : ℤ)

/-- A digit is the character of its value. -/
theorem digitChar_of_isDigit {c : Char} (h : c.isDigit) : Nat.digitChar (c.toNat - '0'.toNat) = c := by
  rw [Char.isDigit_iff_toNat] at h
  have h48 : '0'.toNat = 48 := rfl
  have h57 : '9'.toNat = 57 := rfl
  apply Char.toNat_inj.mp
  rw [Nat.toNat_digitChar_of_lt_ten (by omega)]
  omega

/-- Digits without a zero in front are the decimal of their value, which is not zero. -/
theorem decimal_ofDigitChars {digits : Text} (hne : digits ≠ []) (hdigits : ∀ c ∈ digits, c.isDigit)
    (hhead : digits.head? ≠ some '0') :
    0 < Nat.ofDigitChars 10 digits 0 ∧ decimal (Nat.ofDigitChars 10 digits 0) = digits := by
  induction digits using List.reverseRecOn with
  | nil => exact absurd rfl hne
  | append_singleton init c ih =>
    have hc := hdigits c (by simp)
    have hchar := digitChar_of_isDigit hc
    have hlt : c.toNat - '0'.toNat < 10 := by
      rw [Char.isDigit_iff_toNat] at hc
      have h57 : '9'.toNat = '0'.toNat + 9 := rfl
      omega
    rw [Nat.ofDigitChars_append, Nat.ofDigitChars_cons, Nat.ofDigitChars_nil]
    by_cases hinit : init = []
    · have hzero : c.toNat - '0'.toNat ≠ 0 := by
        intro hzero
        rw [hzero] at hchar
        simp [hinit, ← hchar] at hhead
      rw [hinit, Nat.ofDigitChars_nil, Nat.mul_zero, Nat.zero_add, decimal, Nat.toDigits_of_lt_base hlt, hchar]
      exact ⟨by omega, rfl⟩
    · have hfirst : init.head? ≠ some '0' := by
        cases init with
        | nil => exact absurd rfl hinit
        | cons first init => exact hhead
      obtain ⟨hpos, hdecimal⟩ := ih hinit (fun c hc => hdigits c (by simp [hc])) hfirst
      rw [decimal, ← Nat.toDigits_append_toDigits (by omega) hpos hlt, Nat.toDigits_of_lt_base hlt, hchar]
      exact ⟨by omega, by rw [← decimal, hdecimal]⟩

/-- Only the decimal of zero starts with a zero. -/
theorem eq_zero_of_head_decimal {n : ℕ} (h : (decimal n).head? = some '0') : n = 0 := by
  induction n using Nat.strongRecOn with
  | ind n ih =>
    rw [decimal, Nat.toDigits_eq_if (by omega)] at h
    split at h
    next hlt =>
      rw [List.head?_cons, Option.some_inj] at h
      have hnat := congrArg Char.toNat h
      rw [Nat.toNat_digitChar_of_lt_ten hlt] at hnat
      have h48 : '0'.toNat = 48 := rfl
      omega
    next hge =>
      rw [List.head?_append, Option.or_of_isSome (by simp)] at h
      have hzero := ih (n / 10) (by omega) h
      omega

/-- The decimals of the natural numbers are the numerals. -/
theorem numeral_iff {str : Text} {n : ℕ} :
    Numeral str ∧ n = Nat.ofDigitChars 10 str 0 ↔ str = decimal n := by
  constructor
  · intro h
    obtain ⟨⟨hne, hdigits, hzero⟩, rfl⟩ := h
    by_cases hhead : str.head? = some '0'
    · rw [hzero hhead]
      decide
    · exact (decimal_ofDigitChars hne hdigits hhead).2.symm
  · intro h
    have hzero : (decimal n).head? = some '0' → decimal n = ['0'] := by
      intro hhead
      rw [eq_zero_of_head_decimal hhead]
      rfl
    rw [h]
    exact ⟨⟨decimal_ne_nil n, fun c hc => isDigit_of_mem_decimal hc, hzero⟩,
      Nat.ofDigitChars_ten_toDigits.symm⟩

/-- The canonical decimals are what is printed for the integers. -/
theorem canonical_iff {str : Text} {v : ℤ} : Canonical str v ↔ str = signedDecimal v := by
  -- a numeral other than that of zero has a positive value
  have hpos : ∀ {digits : Text}, Numeral digits → digits ≠ ['0'] → 0 < Nat.ofDigitChars 10 digits 0 := by
    intro digits hnumeral hne
    have hdecimal := numeral_iff.mp ⟨hnumeral, rfl⟩
    by_contra hzero
    rw [Nat.eq_zero_of_not_pos hzero] at hdecimal
    exact hne hdecimal
  cases v with
  | ofNat n =>
    rw [signedDecimal, ← numeral_iff, Canonical, Int.ofNat_eq_natCast]
    constructor
    · intro h
      cases h with
      | inl hnumeral => exact ⟨hnumeral.1, by have := hnumeral.2; omega⟩
      | inr hminus =>
        obtain ⟨digits, -, hnumeral, hne, hvalue⟩ := hminus
        have := hpos hnumeral hne
        omega
    · intro h
      exact .inl ⟨h.1, by have := h.2; omega⟩
  | negSucc n =>
    rw [signedDecimal, Canonical]
    constructor
    · intro h
      cases h with
      | inl hnumeral => exact absurd hnumeral.2 (by omega)
      | inr hminus =>
        obtain ⟨digits, rfl, hnumeral, -, hvalue⟩ := hminus
        rw [numeral_iff.mp ⟨hnumeral, show n + 1 = _ by omega⟩]
    · intro h
      have hnumeral := numeral_iff.mpr (rfl : decimal (n + 1) = decimal (n + 1))
      refine .inr ⟨decimal (n + 1), h, hnumeral.1, ?_, by have := hnumeral.2; omega⟩
      intro hzero
      have hvalue := hnumeral.2
      have hzeroValue : Nat.ofDigitChars 10 ['0'] 0 = 0 := rfl
      rw [hzero, hzeroValue] at hvalue
      omega

/-- Modulo a number, the value of digits depends on the value in front of them modulo the number. -/
theorem ofDigitChars_mod (m : ℕ) (digits : Text) (n : ℕ) :
    Nat.ofDigitChars 10 digits (n % m) % m = Nat.ofDigitChars 10 digits n % m := by
  rw [@Nat.ofDigitChars_eq_ofDigitChars_zero digits (n % m), @Nat.ofDigitChars_eq_ofDigitChars_zero digits n]
  exact ((Nat.mod_modEq n m).mul_left _).add_right _

/-- The loop of the unsigned types computes the value of digits modulo the size of the type. -/
theorem unsignedLoop_digits (bits : ℕ) {digits : Text} (hdigits : ∀ c ∈ digits, c.isDigit) (usedDigits : ℕ)
    (value : BitVec bits) :
    (unsignedLoop bits digits usedDigits value).toNat =
      Nat.ofDigitChars 10 digits value.toNat % 2 ^ bits := by
  induction digits generalizing usedDigits value with
  | nil => rw [unsignedLoop, Nat.ofDigitChars_nil, Nat.mod_eq_of_lt value.isLt]
  | cons c digits ih =>
    rw [List.forall_mem_cons] at hdigits
    have hstep : (value * 10 + BitVec.ofNat bits (c.toNat - '0'.toNat)).toNat =
        (10 * value.toNat + (c.toNat - '0'.toNat)) % 2 ^ bits := by
      simp [BitVec.toNat_add, BitVec.toNat_mul, Nat.add_mod, Nat.mul_mod, Nat.mul_comm]
    rw [unsignedLoop, if_pos hdigits.1, ih hdigits.2, Nat.ofDigitChars_cons, hstep, ofDigitChars_mod]

section Compare

variable {N : Type} {limit : ℕ} {parse : Text → N} {ToString : N → Text} {str : Text}

/-- A text that is printed for a number is accepted, where the parser reads back what is printed and the limit
leaves room for it. -/
theorem safeSto_ToString (hparse : ∀ v, parse (ToString v) = v) (hlength : ∀ v, (ToString v).length ≤ limit)
    (v num : N) : safeSto limit parse ToString (ToString v) num = (true, v) := by
  rw [safeSto, if_neg (by have := hlength v; omega), hparse]
  exact if_pos rfl

/-- Another text is not, whatever the parser makes of it. -/
theorem safeSto_of_ne (h : ∀ v, str ≠ ToString v) (num : N) :
    safeSto limit parse ToString str num = (false, num) := by
  rw [safeSto]
  split
  next => rfl
  next => exact if_neg (h _)

end Compare

section Printed

/-- `strtol` reads back what is printed for an integer. -/
theorem strtol_signedDecimal (z : ℤ) : strtol (signedDecimal z) = z := by
  cases z with
  | ofNat n => exact strtol_decimal n
  | negSucc n =>
    have hspace : isSpace '-' = false := by decide
    rw [signedDecimal, strtol, List.dropWhile_cons_of_neg (by simp [hspace])]
    simp only [digitsValue_decimal]
    rfl

/-- An integer in the range of `long` is read back without being saturated. -/
theorem toInt_stol_signedDecimal {z : ℤ} (hlow : -2 ^ 63 ≤ z) (hhigh : z < 2 ^ 63) :
    (stol (signedDecimal z)).toInt = z := by
  have hmin : Int64.minValue.toInt = -2 ^ 63 := by decide
  have hmax : Int64.maxValue.toInt = 2 ^ 63 - 1 := by decide
  rw [stol, strtol_signedDecimal, Int64.toInt_ofIntClamp (by omega) (by omega)]

/-- A printed word of 64 bits reads back. -/
theorem stoi64_formatLd (v : Int64) : stoi64 (formatLd v) = v := by
  rw [← Int64.toInt_inj, stoi64, formatLd, toInt_stol_signedDecimal v.le_toInt v.toInt_lt]

/-- Of an integer of 32 bits the low bits are all there is. -/
theorem stoi_formatD (v : Int32) : stoi (formatD v) = v := by
  have hlow := v.le_toInt
  have hhigh := v.toInt_lt
  rw [← Int32.toInt_inj, stoi, formatD, Int64.toInt_toInt32,
    toInt_stol_signedDecimal (by omega) (by omega), Int32.toInt_bmod]

/-- A printed unsigned word reads back. -/
theorem stoui_formatU (v : UInt32) : stoui (formatU v) = v := by
  rw [← UInt32.toNat_inj, stoui, formatU, UInt32.toNat_ofBitVec,
    unsignedLoop_digits 32 fun c hc => isDigit_of_mem_decimal hc]
  exact (congrArg (· % 2 ^ 32) Nat.ofDigitChars_ten_toDigits).trans (Nat.mod_eq_of_lt v.toNat_lt)

/-- The sign that `Stoui64` gives the number is taken away again. -/
theorem stoui64_formatLu (v : UInt64) : (stoui64 (formatLu v)).toUInt64 = v := by
  rw [← UInt64.toNat_inj, stoui64, formatLu, UInt64.toUInt64_toInt64, UInt64.toNat_ofBitVec,
    unsignedLoop_digits 64 fun c hc => isDigit_of_mem_decimal hc]
  exact (congrArg (· % 2 ^ 64) Nat.ofDigitChars_ten_toDigits).trans (Nat.mod_eq_of_lt v.toNat_lt)

/-- A natural number below `10 ^ k` has at most `k` digits. -/
theorem length_decimal_le {n k : ℕ} (hk : 0 < k) (hn : n < 10 ^ k) : (decimal n).length ≤ k :=
  (Nat.length_toDigits_le_iff (by omega) hk).mpr hn

/-- An integer may have a minus in front of its digits. -/
theorem length_signedDecimal_le {z : ℤ} {k : ℕ} (hk : 0 < k) (hz : z.natAbs < 10 ^ k) :
    (signedDecimal z).length ≤ k + 1 := by
  cases z with
  | ofNat n => exact (length_decimal_le hk hz).trans (Nat.le_succ k)
  | negSucc n => exact Nat.succ_le_succ (length_decimal_le hk hz)

end Printed

/-- What is asked of a parser for numbers that stand for integers: it accepts the canonical decimals of these
numbers, and at any other text it leaves the number as it was. -/
def ParsesCanonical {N : Type} (parser : Text → N → Bool × N) (toInt : N → ℤ) : Prop :=
  ∀ str num,
    ((parser str num).1 = true ↔ ∃ v, Canonical str (toInt v)) ∧
      (∀ v, Canonical str (toInt v) → parser str num = (true, v)) ∧
      ((parser str num).1 = false → (parser str num).2 = num)

/-- A parser that prints the number and compares accepts the canonical decimals, where the printed texts are
read back and fit. -/
theorem parsesCanonical_safeSto {N : Type} {limit : ℕ} {parse : Text → N} {ToString : N → Text} {toInt : N → ℤ}
    (hprint : ∀ v, ToString v = signedDecimal (toInt v)) (hparse : ∀ v, parse (ToString v) = v)
    (hlength : ∀ v, (ToString v).length ≤ limit) : ParsesCanonical (safeSto limit parse ToString) toInt := by
  intro str num
  have hcanonical : ∀ v, Canonical str (toInt v) ↔ str = ToString v := by
    intro v
    rw [canonical_iff, hprint]
  simp only [hcanonical]
  by_cases h : ∃ v, str = ToString v
  · obtain ⟨v, rfl⟩ := h
    rw [safeSto_ToString hparse hlength v num]
    refine ⟨iff_of_true rfl ⟨v, rfl⟩, ?_, fun hfalse => absurd hfalse (by simp)⟩
    intro w hw
    -- what is printed alike is the same number, since it is read back
    rw [← hparse v, hw, hparse]
  · rw [not_exists] at h
    rw [safeSto_of_ne h]
    simp [h]

/-- The four parsers accept the canonical decimals of the numbers of their types. -/
theorem safe_parsers_canonical :
    ParsesCanonical safeStoi Int32.toInt ∧ ParsesCanonical safeStoui (fun v => (v.toNat : ℤ)) ∧
      ParsesCanonical safeStoi64 Int64.toInt ∧ ParsesCanonical safeStoui64 (fun v => (v.toNat : ℤ)) := by
  refine ⟨?_, ?_, ?_, ?_⟩
  · have hprint : ∀ v : Int32, formatD v = signedDecimal v.toInt := fun _ => rfl
    apply parsesCanonical_safeSto hprint stoi_formatD
    intro v
    have hlow := v.le_toInt
    have hhigh := v.toInt_lt
    exact length_signedDecimal_le (k := 10) (by omega) (by omega)
  · have hprint : ∀ v : UInt32, formatU v = signedDecimal (v.toNat : ℤ) := fun _ => rfl
    apply parsesCanonical_safeSto hprint stoui_formatU
    intro v
    have hlt := v.toNat_lt
    exact length_decimal_le (by omega) (by omega)
  · have hprint : ∀ v : Int64, formatLd v = signedDecimal v.toInt := fun _ => rfl
    apply parsesCanonical_safeSto hprint stoi64_formatLd
    intro v
    have hlow := v.le_toInt
    have hhigh := v.toInt_lt
    exact length_signedDecimal_le (k := 19) (by omega) (by omega)
  · have hprint : ∀ v : UInt64, formatLu v = signedDecimal (v.toNat : ℤ) := fun _ => rfl
    apply parsesCanonical_safeSto hprint stoui64_formatLu
    intro v
    have hlt := v.toNat_lt
    exact length_decimal_le (by omega) (by omega)

end Strings

end CrosschainAgent
