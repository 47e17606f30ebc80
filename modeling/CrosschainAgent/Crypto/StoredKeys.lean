import CrosschainAgent.Crypto.Aes
import CrosschainAgent.Crypto.KeyEncoding

/-!
# Keys in the configuration

The configuration holds a private key as its text, or as the ciphertext of it. Every text that `From` accepts
starts with `pri` and has 49, 50 or 51 characters. None of these is a multiple of 16, so that `HexDecrypto`
finds the zero it stops at.
-/

namespace CrosschainAgent

open BigNum Strings SignatureType KeypairUtils

namespace PrivateKeyV4

variable {Point : Type} [AddCommGroup Point] (lib : KeyLibraries Point)

/-- A text that is accepted starts with `pri` and stands for 37 bytes. -/
theorem accepted_text {this : PrivateKeyV4} {encodePrivateKey : Bytes}
    (h : (fromKey lib this encodePrivateKey).valid = true) :
    privateKeyPrefix <+: encodePrivateKey ∧
      (Base58.decode lib.outside encodePrivateKey).length = 37 := by
  rw [fromKey] at h
  generalize hparse : getKeyElement lib.outside encodePrivateKey _ = parsed at h
  obtain ⟨valid, key⟩ := parsed
  cases valid with
  | false => simp at h
  | true =>
    by_cases hkey : key.keyType = some .keyPrivatekey
    · refine ⟨?_, (getKeyElement_privateKey hparse hkey).1⟩
      by_contra hpri
      rw [getKeyElement] at hparse
      split at hparse
      next =>
        dsimp only at hparse
        split at hparse
        next => simp at hparse
        next =>
          obtain ⟨-, rfl⟩ := Prod.mk.inj hparse
          simp at hkey
      next => simp at hparse
    · simp [hkey] at h

/-- A text of base 58 that starts with `pri` and stands for 37 bytes has 49, 50 or 51 characters. -/
theorem length_accepted_text {this : PrivateKeyV4} {encodePrivateKey : Bytes}
    (h : (fromKey lib this encodePrivateKey).valid = true) :
    49 ≤ encodePrivateKey.length ∧ encodePrivateKey.length ≤ 51 := by
  obtain ⟨⟨rest, htext⟩, hdecoded⟩ := accepted_text lib h
  have hpri : privateKeyPrefix = 0x70 :: [0x72, 0x69] := by decide +kernel
  rw [hpri, List.cons_append] at htext
  obtain rfl := htext.symm
  have hfirst : Base58.leading Base58.zeroDigit (0x70 :: ([0x72, 0x69] ++ rest)) = 0 := rfl
  have hlong : ¬Base58.maxDigits < (0x70 :: ([0x72, 0x69] ++ rest)).length -
      Base58.leading Base58.zeroDigit (0x70 :: ([0x72, 0x69] ++ rest)) := by
    intro hlong
    rcases Base58.length_decode lib.outside hlong with hnone | hmany
    · rw [hdecoded, hfirst] at hnone
      omega
    · omega
  rw [Base58.decode_eq lib.outside (not_lt.mp hlong), hfirst, List.replicate_zero, List.nil_append,
    List.drop_zero, bnBn2bin, List.length_reverse, List.length_map] at hdecoded
  have hbound := Base58.value_bound lib.outside (0x70 :: ([0x72, 0x69] ++ rest))
  have hp : (Base58.digit lib.outside 0x70).toNat = 47 := Base58.digit_dictionary lib.outside (d := 47) (by omega)
  have hlower : 47 * 58 ^ ([0x72, 0x69] ++ rest).length ≤
      Base58.value lib.outside (0x70 :: ([0x72, 0x69] ++ rest)) 0 := by
    rw [Base58.value_eq, List.map_cons, Positional.value_cons, List.length_map, hp]
    exact Nat.le_add_right _ _
  set n := Base58.value lib.outside (0x70 :: ([0x72, 0x69] ++ rest)) 0
  have hlt : n < 256 ^ 37 := hdecoded ▸ Nat.lt_base_pow_length_digits (by omega)
  have hle : 256 ^ 36 ≤ n := by
    by_contra hlt'
    have hshort := (Nat.digits_length_le_iff (by omega : 1 < 256) n).mpr (not_le.mp hlt')
    omega
  rw [List.length_cons] at hbound ⊢
  generalize ([0x72, 0x69] ++ rest).length = length at *
  constructor
  · by_contra hshort
    have hpow : 58 ^ (length + 1) ≤ 58 ^ 48 := Nat.pow_le_pow_right (by omega) (by omega)
    omega
  · by_contra hlong
    have hpow : 58 ^ 51 ≤ 58 ^ length := Nat.pow_le_pow_right (by omega) (by omega)
    omega

/-- The ciphertext of a text that is accepted is read back as the text. -/
theorem hexDecrypto_accepted_text (AES : Bytes → Equiv.Perm Aes.Block) {this : PrivateKeyV4}
    {encodePrivateKey : Bytes} (h : (fromKey lib this encodePrivateKey).valid = true)
    (hzero : 0 ∉ encodePrivateKey) :
    Aes.hexDecrypto AES (Aes.cryptoHex AES encodePrivateKey Aes.getDataSecuretKey) Aes.getDataSecuretKey =
      encodePrivateKey := by
  have hlength := length_accepted_text lib h
  exact Aes.hexDecrypto_cryptoHex_of_length AES (by decide +kernel) hzero (by omega)

end PrivateKeyV4

end CrosschainAgent
