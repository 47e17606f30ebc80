import CrosschainAgent.Contract.Bridge
import Mathlib.Algebra.Field.ZMod
import Mathlib.Data.Nat.Digits.Lemmas

/-!
# Big numbers

The operations of the OpenSSL big numbers that the signatures use, on natural numbers, and the strings of
fixed length that coordinates and signatures are written as.
-/

namespace CrosschainAgent

namespace BigNum

/-- `BN_bin2bn`: the number that big-endian bytes stand for. -/
def bnBin2bn (bin : Bytes) : ℕ := Nat.ofDigits 256 (bin.map UInt8.toNat).reverse

/-- `BN_bn2bin`: the bytes of a number, without leading zeros. -/
def bnBn2bin (bn : ℕ) : Bytes := ((Nat.digits 256 bn).map UInt8.ofNat).reverse

/-- `BN_mod_add`. -/
def bnModAdd (a b m : ℕ) : ℕ := (a + b) % m

/-- `BN_mod_sub`. -/
def bnModSub (a b m : ℕ) : ℕ := ((a - b : ℤ) % m).toNat

/-- `BN_mod_mul`. -/
def bnModMul (a b m : ℕ) : ℕ := a * b % m

/-- `BN_mod_inverse`, which fails where there is no inverse. -/
def bnModInverse (a m : ℕ) : Option ℕ :=
  if a.Coprime m then some ((a.gcdA m % m).toNat) else none

/-- `EccSm2::Bn2FixedString`. -/
def bn2FixedString (bn len : ℕ) : Bytes :=
  let tmp := bnBn2bin bn
  let l := tmp.length
  if l ≤ len then List.replicate (len - l) 0 ++ tmp else (tmp.drop (l - len)).take len

/-- Zeros in front do not change a number. -/
theorem bnBin2bn_zeros (count : ℕ) (bin : Bytes) :
    bnBin2bn (List.replicate count 0 ++ bin) = bnBin2bn bin := by
  simp [bnBin2bn, Nat.ofDigits_append_replicate_zero]

/-- A number is read back from its bytes. -/
@[simp]
theorem bnBin2bn_bnBn2bin (bn : ℕ) : bnBin2bn (bnBn2bin bn) = bn := by
  have hdigits : ∀ d ∈ Nat.digits 256 bn, (UInt8.toNat ∘ UInt8.ofNat) d = d := by
    intro d hd
    have hlt : d < 256 := Nat.digits_lt_base (by omega) hd
    simp [Nat.mod_eq_of_lt hlt]
  rw [bnBin2bn, bnBn2bin, List.map_reverse, List.reverse_reverse, List.map_map,
    List.map_congr_left hdigits, List.map_id', Nat.ofDigits_digits]

/-- A number below `256 ^ len` has at most `len` bytes. -/
theorem length_bnBn2bin_le {bn len : ℕ} (h : bn < 256 ^ len) : (bnBn2bin bn).length ≤ len := by
  rw [bnBn2bin, List.length_reverse, List.length_map]
  exact (Nat.digits_length_le_iff (by omega) bn).mpr h

/-- The string has the length asked for, whatever the number. -/
@[simp]
theorem length_bn2FixedString (bn len : ℕ) : (bn2FixedString bn len).length = len := by
  rw [bn2FixedString]
  split
  next h => simp [h]
  next h =>
    simp
    omega

/-- A number that fits is read back from its string. -/
theorem bnBin2bn_bn2FixedString {bn len : ℕ} (h : bn < 256 ^ len) :
    bnBin2bn (bn2FixedString bn len) = bn := by
  rw [bn2FixedString, if_pos (length_bnBn2bin_le h), bnBin2bn_zeros, bnBin2bn_bnBn2bin]

section Casts

variable {m : ℕ} (a b : ℕ)

/-- The sum modulo `m` is the sum of residues. -/
@[simp]
theorem bnModAdd_cast : (bnModAdd a b m : ZMod m) = a + b := by
  simp [bnModAdd]

/-- The product modulo `m` is the product of residues. -/
@[simp]
theorem bnModMul_cast : (bnModMul a b m : ZMod m) = a * b := by
  simp [bnModMul]

/-- The remainder of an integer is the integer modulo `m`. -/
theorem toNat_emod_cast [NeZero m] (z : ℤ) : ((z % m).toNat : ZMod m) = z := by
  have hnonneg : 0 ≤ z % (m : ℤ) := Int.emod_nonneg z (by exact_mod_cast NeZero.ne m)
  rw [← Int.cast_natCast, Int.toNat_of_nonneg hnonneg, ZMod.intCast_mod]

/-- The difference modulo `m` is the difference of residues. -/
@[simp]
theorem bnModSub_cast [NeZero m] : (bnModSub a b m : ZMod m) = a - b := by
  rw [bnModSub, toNat_emod_cast]
  push_cast
  rfl

/-- What `BN_mod_inverse` returns is the inverse. -/
theorem bnModInverse_cast [NeZero m] {a i : ℕ} (h : bnModInverse a m = some i) :
    (i * a : ZMod m) = 1 := by
  rw [bnModInverse, Option.ite_none_right_eq_some, Option.some_inj] at h
  obtain ⟨hcoprime, hi⟩ := h
  have hbezout : ((1 : ℤ) : ZMod m) = ((a * a.gcdA m + m * a.gcdB m : ℤ) : ZMod m) := by
    rw [← Nat.gcd_eq_gcd_ab, Nat.Coprime.gcd_eq_one hcoprime]
    rfl
  rw [← hi, toNat_emod_cast]
  push_cast at hbezout
  rw [hbezout, ZMod.natCast_self, zero_mul, add_zero, mul_comm]

/-- Modulo a prime every number but zero has an inverse. -/
theorem bnModInverse_eq_none [Fact m.Prime] {a : ℕ} : bnModInverse a m = none ↔ (a : ZMod m) = 0 := by
  rw [ZMod.natCast_eq_zero_iff, Nat.Prime.dvd_iff_not_coprime Fact.out, Nat.coprime_comm, bnModInverse]
  simp

end Casts

end BigNum

end CrosschainAgent
