import CrosschainAgent.Library.Tokens
import CrosschainAgent.Contract.Bridge
import Mathlib.Data.Int.Notation
import Mathlib.Data.List.TakeWhile

/-!
# Text and numbers

The pieces of `utils::String` the handlers use: `Stol` and `Stoi`, which are `atol` and
`atoi`, and the conversions of `Format`. The C library saturates `strtol` at the range of
`long`; `atoi` then keeps the low 32 bits. Texts hold no NUL character, so that `c_str()`
is the whole text.
-/

namespace CrosschainAgent

namespace Strings

/-- `isspace` in the C locale. -/
def isSpace (c : Char) : Bool := c = ' ' ∨ (9 ≤ c.toNat ∧ c.toNat ≤ 13)

/-- The value of the leading decimal digits. -/
def digitsValue (text : Text) : ℕ := Nat.ofDigitChars 10 (text.takeWhile Char.isDigit) 0

/-- `strtol` in base 10, before it is brought into the range of its type. -/
def strtol (text : Text) : ℤ :=
  match text.dropWhile isSpace with
  | '-' :: digits => -(digitsValue digits : ℤ)
  | '+' :: digits => digitsValue digits
  | digits => digitsValue digits

/-- `utils::String::Stol`. -/
def stol (text : Text) : Int64 := Int64.ofIntClamp (strtol text)

/-- `utils::String::Stoi`. -/
def stoi (text : Text) : Int32 := (stol text).toInt32

/-- A number without sign in decimal. -/
def decimal (n : ℕ) : Text := Nat.toDigits 10 n

/-- A signed number in decimal, as `%d` and `%ld` print it. -/
def signedDecimal : ℤ → Text
  | .ofNat n => decimal n
  | .negSucc n => '-' :: decimal (n + 1)

/-- The `%ld` conversion. -/
def formatLd (n : Int64) : Text := signedDecimal n.toInt

/-- The `%d` conversion of an `int32`. -/
def formatD (n : Int32) : Text := signedDecimal n.toInt

/-- The value of a hexadecimal digit of either case. -/
def hexDigitValue (c : Char) : Option ℕ :=
  if '0' ≤ c ∧ c ≤ '9' then some (c.toNat - '0'.toNat)
  else if 'a' ≤ c ∧ c ≤ 'f' then some (c.toNat - 'a'.toNat + 10)
  else if 'A' ≤ c ∧ c ≤ 'F' then some (c.toNat - 'A'.toNat + 10)
  else none

/-- The bytes of pairs of hexadecimal digits. -/
def hexPairs : Text → Option Bytes
  | [] => some []
  | [_] => none
  | high :: low :: rest => do
    let byte := UInt8.ofNat (16 * (← hexDigitValue high) + (← hexDigitValue low))
    return byte :: (← hexPairs rest)

/-- `utils::String::HexStringToBin`: empty for what is not hexadecimal. -/
def hexStringToBin (hexString : Text) : Bytes := (hexPairs hexString).getD []

/-- A hexadecimal digit. -/
def hexDigit (value : UInt8) : Char :=
  if value ≤ 9 then Char.ofNat (value.toNat + '0'.toNat) else Char.ofNat (value.toNat - 10 + 'a'.toNat)

/-- `utils::String::BinToHexString`. -/
def binToHexString (value : Bytes) : Text :=
  value.flatMap fun (item : UInt8) => [hexDigit (item >>> 4), hexDigit (item &&& 0x0F)]

/-- Where `strtol` saturates. -/
def saturate (n : ℕ) : ℕ := min n (2 ^ 63 - 1)

/-- What fits into a signed word is not saturated. -/
theorem saturate_of_lt {n : ℕ} (h : n < 2 ^ 63) : saturate n = n :=
  Nat.min_eq_left (Nat.le_sub_one_of_lt h)

/-- A number has at least one digit. -/
theorem decimal_ne_nil (n : ℕ) : decimal n ≠ [] := Nat.toDigits_ne_nil

/-- A number is written in digits. -/
theorem isDigit_of_mem_decimal {n : ℕ} {c : Char} (h : c ∈ decimal n) : c.isDigit :=
  Nat.isDigit_of_mem_toDigits (by decide) (by decide) h

/-- A decimal holds no character that is not a digit. -/
theorem not_mem_decimal {c : Char} (hc : c.isDigit = false) (n : ℕ) : c ∉ decimal n := by
  intro h
  simp [isDigit_of_mem_decimal h] at hc

/-- The digits of a number read back as the number. -/
theorem digitsValue_decimal (n : ℕ) : digitsValue (decimal n) = n := by
  have hdigits : (decimal n).takeWhile Char.isDigit = decimal n :=
    List.takeWhile_eq_self_iff.mpr fun c hc => isDigit_of_mem_decimal hc
  rw [digitsValue, hdigits]
  exact Nat.ofDigitChars_ten_toDigits

/-- Different numbers are written differently. -/
theorem decimal_injective : Function.Injective decimal :=
  Function.LeftInverse.injective digitsValue_decimal

/-- A decimal starts with a digit. -/
theorem decimal_eq_cons (n : ℕ) : ∃ c cs, decimal n = c :: cs ∧ c.isDigit := by
  obtain ⟨c, cs, h⟩ := List.exists_cons_of_ne_nil (decimal_ne_nil n)
  exact ⟨c, cs, h, isDigit_of_mem_decimal (h ▸ List.mem_cons_self)⟩

/-- No digit is a space or a sign. -/
theorem not_space_or_sign {c : Char} (h : c.isDigit) : isSpace c = false ∧ c ≠ '-' ∧ c ≠ '+' := by
  simp only [Char.isDigit, Bool.and_eq_true, decide_eq_true_eq, ge_iff_le, UInt32.le_iff_toNat_le] at h
  have hlow : 48 ≤ c.toNat := h.1
  refine ⟨?_, ?_, ?_⟩
  · rw [isSpace, decide_eq_false_iff_not]
    rintro (rfl | ⟨_, hhigh⟩)
    · exact absurd hlow (by decide)
    · omega
  · rintro rfl
    exact absurd hlow (by decide)
  · rintro rfl
    exact absurd hlow (by decide)

/-- `strtol` reads back what was written in decimal. -/
theorem strtol_decimal (n : ℕ) : strtol (decimal n) = n := by
  obtain ⟨c, cs, hcons, hdigit⟩ := decimal_eq_cons n
  obtain ⟨hspace, hminus, hplus⟩ := not_space_or_sign hdigit
  have hdrop : (decimal n).dropWhile isSpace = decimal n := by
    rw [hcons, List.dropWhile_cons_of_neg (by simp [hspace])]
  rw [strtol, hdrop]
  split
  next ds h => exact absurd (hcons.symm.trans h) (by simp [hminus])
  next ds h => exact absurd (hcons.symm.trans h) (by simp [hplus])
  next => rw [digitsValue_decimal]

/-- A number written in decimal is read back, saturated. -/
theorem stol_decimal (n : ℕ) : (stol (decimal n)).toInt = saturate n := by
  have hmin : Int64.minValue.toInt = -2 ^ 63 := by decide
  have hmax : Int64.maxValue.toInt = 2 ^ 63 - 1 := by decide
  rw [stol, strtol_decimal, Int64.ofIntClamp, dif_pos (by omega), saturate]
  split
  next h =>
    rw [Int64.toInt_ofIntLE]
    omega
  next h =>
    rw [hmax] at h ⊢
    omega

/-- A saturated number fits into a signed word. -/
theorem saturate_lt (n : ℕ) : saturate n < 2 ^ 63 := by
  unfold saturate
  omega

/-- Saturating again changes nothing. -/
theorem saturate_saturate (n : ℕ) : saturate (saturate n) = saturate n :=
  saturate_of_lt (saturate_lt n)

/-- A signed decimal holds digits and a sign. -/
theorem not_mem_signedDecimal {c : Char} (hc : c.isDigit = false) (hsign : c ≠ '-') (i : ℤ) :
    c ∉ signedDecimal i := by
  cases i with
  | ofNat n => exact not_mem_decimal hc n
  | negSucc n => exact not_or.mpr ⟨hsign, not_mem_decimal hc (n + 1)⟩ ∘ List.mem_cons.mp

/-- Different integers are written differently. -/
theorem signedDecimal_injective : Function.Injective signedDecimal := by
  have hsign : ∀ n m, decimal n ≠ '-' :: decimal m := by
    intro n m h
    exact not_mem_decimal (by decide) n (h ▸ List.mem_cons_self)
  intro i j h
  cases i with
  | ofNat n =>
    cases j with
    | ofNat m => exact congrArg _ (decimal_injective h)
    | negSucc m => exact absurd h (hsign n (m + 1))
  | negSucc n =>
    cases j with
    | ofNat m => exact absurd h.symm (hsign m (n + 1))
    | negSucc m => exact congrArg _ (Nat.succ_injective (decimal_injective (List.cons.inj h).2))

/-- Different words are written differently. -/
theorem formatLd_injective : Function.Injective formatLd := by
  intro i j h
  exact Int64.toInt_inj.mp (signedDecimal_injective h)

/-- A number without sign is printed in decimal. -/
theorem formatLd_of_toInt {i : Int64} {n : ℕ} (h : i.toInt = n) : formatLd i = decimal n := by
  rw [formatLd, h]
  rfl

/-- A word that holds a natural number is written as that number. -/
theorem formatD_of_toInt {i : Int32} {n : ℕ} (h : i.toInt = n) : formatD i = decimal n := by
  rw [formatD, h]
  rfl

/-- A hexadecimal digit reads back as its value. -/
theorem hexDigitValue_hexDigit {n : ℕ} (h : n < 16) :
    hexDigitValue (hexDigit (UInt8.ofNat n)) = some n := by
  have hdigits : ∀ n < 16, hexDigitValue (hexDigit (UInt8.ofNat n)) = some n := by decide
  exact hdigits n h

/-- The halves of a byte. -/
theorem byte_halves (item : UInt8) : item >>> 4 = UInt8.ofNat (item.toNat / 16) ∧
    item &&& 0x0F = UInt8.ofNat (item.toNat % 16) := by
  have hbytes : ∀ n < 256, UInt8.ofNat n >>> 4 = UInt8.ofNat (n / 16) ∧
      UInt8.ofNat n &&& 0x0F = UInt8.ofNat (n % 16) := by
    decide +kernel
  have hitem := hbytes item.toNat item.toNat_lt
  rwa [UInt8.ofNat_toNat] at hitem

/-- The bytes written in hexadecimal are read back. -/
theorem hexStringToBin_binToHexString (value : Bytes) : hexStringToBin (binToHexString value) = value := by
  have hpairs : hexPairs (binToHexString value) = some value := by
    induction value with
    | nil => rfl
    | cons item value ih =>
      have hlt := item.toNat_lt
      have hcons : binToHexString (item :: value) =
          hexDigit (item >>> 4) :: hexDigit (item &&& 0x0F) :: binToHexString value := rfl
      have hitem : UInt8.ofNat (16 * (item.toNat / 16) + item.toNat % 16) = item := by
        rw [Nat.div_add_mod, UInt8.ofNat_toNat]
      rw [hcons, (byte_halves item).1, (byte_halves item).2, hexPairs,
        hexDigitValue_hexDigit (by omega), hexDigitValue_hexDigit (by omega), ih]
      exact congrArg (fun byte => some (byte :: value)) hitem
  rw [hexStringToBin, hpairs, Option.getD_some]

end Strings

end CrosschainAgent
