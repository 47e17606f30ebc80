import CrosschainAgent.Common.Strings
import CrosschainAgent.Library.Cbc
import Mathlib.Algebra.BigOperators.Group.List.Basic
import Mathlib.Algebra.Group.End
import Mathlib.Data.Fintype.Basic
import Mathlib.Logic.Equiv.Basic

/-!
# Keys at rest

`Aes::CryptoHex` encrypts a private key for the configuration, and `HexDecrypto` reads it from there. AES is
any permutation of the blocks for each key. `Crypto` makes room for the string and a zero byte and pads a copy
of it, but then hands the string itself to OpenSSL, with its own length. Where the length is a multiple of 16,
the last block of the output is left as it was made, all zeros, and what `Decrypto` makes of it is cut off only
at a zero byte.
-/

namespace CrosschainAgent

open Strings

namespace Aes

/-- A block of `AES_BLOCK_SIZE` bytes. -/
abbrev Block := Fin 16 → UInt8

/-- The block of zeros. -/
def zeroBlock : Block := fun _ => 0

/-- The exclusive or of two blocks. -/
def xorBlock (a b : Block) : Block := fun i => a i ^^^ b i

/-- The first blocks of a string, with zeros behind its end. -/
def takeBlocks : ℕ → Bytes → List Block
  | 0, _ => []
  | count + 1, input => (fun i => input[i.val]?.getD 0) :: takeBlocks count (input.drop 16)

/-- The blocks of a string, the last one padded with zeros. -/
def blocks (input : Bytes) : List Block := takeBlocks ((input.length + 15) / 16) input

/-- The string of blocks. -/
def ofBlocks (bs : List Block) : Bytes := bs.flatMap List.ofFn

variable (AES : Bytes → Equiv.Perm Block)

/-- `AES_cbc_encrypt` for `AES_ENCRYPT`, with an `iv` of zeros: what is written to `out`. -/
def cbcEncrypt (key input : Bytes) : Bytes := ofBlocks (Cbc.encrypt xorBlock (AES key) zeroBlock (blocks input))

/-- `AES_cbc_encrypt` for `AES_DECRYPT`, with an `iv` of zeros. What stands behind the end of a block that is
not whole is read as zeros here; `Crypto` writes whole blocks. -/
def cbcDecrypt (key input : Bytes) : Bytes :=
  (ofBlocks (Cbc.decrypt xorBlock (AES key) zeroBlock (blocks input))).take input.length

/-- The sizes of a key that both functions check. -/
def KeySize (key : Bytes) : Prop := key.length = 16 ∨ key.length = 24 ∨ key.length = 32

instance (key : Bytes) : Decidable (KeySize key) := inferInstanceAs (Decidable (_ ∨ _))

/-- The length of the output of `Crypto`. -/
def cryptoLength (size : ℕ) : ℕ :=
  if (size + 1) % 16 = 0 then size + 1 else ((size + 1) / 16 + 1) * 16

/-- `Crypto`. -/
def crypto (input key : Bytes) : Bytes :=
  if ¬KeySize key then "key error".toList.map fun c => UInt8.ofNat c.toNat
  else
    -- the padded copy of the input is not used
    let encOut := List.replicate (cryptoLength input.length) 0
    let written := cbcEncrypt AES key input
    written ++ encOut.drop written.length

/-- `Decrypto`. -/
def decrypto (input key : Bytes) : Bytes :=
  if ¬KeySize key then [] else (cbcDecrypt AES key input).takeWhile (· ≠ 0)

/-- `CryptoHex`. -/
def cryptoHex (input key : Bytes) : Text := binToHexString (crypto AES input key)

/-- `HexDecrypto`. -/
def hexDecrypto (input : Text) (key : Bytes) : Bytes := decrypto AES (hexStringToBin input) key

section Blocks

/-- The exclusive or with a block undoes itself. -/
@[simp]
theorem xorBlock_xorBlock (a b : Block) : xorBlock (xorBlock a b) b = a := by
  funext i
  simp only [xorBlock, UInt8.xor_assoc, UInt8.xor_self, UInt8.xor_zero]

/-- The bytes of two lists of blocks are the bytes of each. -/
@[simp]
theorem ofBlocks_append (bs cs : List Block) : ofBlocks (bs ++ cs) = ofBlocks bs ++ ofBlocks cs :=
  List.flatMap_append

/-- A block has sixteen bytes. -/
@[simp]
theorem length_ofBlocks (bs : List Block) : (ofBlocks bs).length = 16 * bs.length := by
  induction bs with
  | nil => rfl
  | cons b bs ih =>
    rw [ofBlocks, List.flatMap_cons, List.length_append, List.length_ofFn, ← ofBlocks, ih, List.length_cons]
    omega

/-- As many blocks are taken as were asked for. -/
@[simp]
theorem length_takeBlocks (count : ℕ) (input : Bytes) : (takeBlocks count input).length = count := by
  induction count generalizing input with
  | zero => rfl
  | succ count ih => rw [takeBlocks, List.length_cons, ih]

/-- The blocks of a string that was made of them are read back. -/
theorem takeBlocks_ofBlocks (bs : List Block) : takeBlocks bs.length (ofBlocks bs) = bs := by
  induction bs with
  | nil => rfl
  | cons b bs ih =>
    rw [ofBlocks, List.flatMap_cons, ← ofBlocks, List.length_cons, takeBlocks,
      List.drop_left' List.length_ofFn, ih]
    congr 1
    funext i
    rw [List.getElem?_append_left (by rw [List.length_ofFn]; exact i.isLt), List.getElem?_ofFn, dif_pos i.isLt,
      Option.getD_some]

/-- Blocks read back from their bytes. -/
theorem blocks_ofBlocks (bs : List Block) : blocks (ofBlocks bs) = bs := by
  have hcount : (16 * bs.length + 15) / 16 = bs.length := by omega
  rw [blocks, length_ofBlocks, hcount, takeBlocks_ofBlocks]

/-- The first block of a string holds its first bytes and zeros. -/
theorem ofFn_getD (input : Bytes) :
    List.ofFn (fun i : Fin 16 => input[i.val]?.getD 0) =
      input.take 16 ++ List.replicate (16 - input.length) 0 := by
  apply List.ext_getElem
  · rw [List.length_ofFn, List.length_append, List.length_take, List.length_replicate]
    omega
  · intro i hleft hright
    rw [List.length_ofFn] at hleft
    rw [List.getElem_ofFn]
    dsimp only
    by_cases hi : i < input.length
    · rw [List.getElem_append_left (by rw [List.length_take]; omega), List.getElem_take,
        List.getElem?_eq_getElem hi, Option.getD_some]
    · rw [List.getElem_append_right (by rw [List.length_take]; omega), List.getElem_replicate,
        List.getElem?_eq_none (by omega), Option.getD_none]

/-- The string of enough blocks of a string is the string and zeros. -/
theorem ofBlocks_takeBlocks {count : ℕ} {input : Bytes} (h : input.length ≤ 16 * count) :
    ofBlocks (takeBlocks count input) = input ++ List.replicate (16 * count - input.length) 0 := by
  induction count generalizing input with
  | zero =>
    obtain rfl := List.eq_nil_of_length_eq_zero (Nat.le_zero.mp h)
    rfl
  | succ count ih =>
    have hrest := @ih (input.drop 16) (by rw [List.length_drop]; omega)
    rw [takeBlocks, ofBlocks, List.flatMap_cons, ← ofBlocks, ofFn_getD, hrest, List.length_drop]
    by_cases hwhole : 16 ≤ input.length
    · have hzeros : 16 * count - (input.length - 16) = 16 * (count + 1) - input.length := by omega
      rw [Nat.sub_eq_zero_of_le hwhole, List.replicate_zero, List.append_nil, ← List.append_assoc,
        List.take_append_drop, hzeros]
    · have hzeros : 16 - input.length + (16 * count - (input.length - 16)) =
          16 * (count + 1) - input.length := by omega
      rw [List.take_of_length_le (by omega), List.drop_of_length_le (by omega), List.nil_append,
        List.append_assoc, List.replicate_append_replicate, hzeros]

/-- The string of the blocks of a string is the string and the zeros that pad it. -/
theorem ofBlocks_blocks (input : Bytes) :
    ofBlocks (blocks input) = input ++ List.replicate (16 * ((input.length + 15) / 16) - input.length) 0 :=
  ofBlocks_takeBlocks (by omega)

end Blocks

variable {input key : Bytes}

/-- The block that `Crypto` leaves as it was made, behind whole blocks only. -/
def untouched (size : ℕ) : List Block := if size % 16 = 0 then [zeroBlock] else []

/-- What `Crypto` returns: the ciphertexts, and what it leaves as it was made. -/
theorem crypto_eq (hkey : KeySize key) :
    crypto AES input key =
      ofBlocks (Cbc.encrypt xorBlock (AES key) zeroBlock (blocks input) ++ untouched input.length) := by
  have hwritten : (cbcEncrypt AES key input).length = 16 * ((input.length + 15) / 16) := by
    rw [cbcEncrypt, length_ofBlocks, Cbc.length_encrypt, blocks, length_takeBlocks]
  rw [crypto, if_neg (not_not.mpr hkey), ofBlocks_append, ← cbcEncrypt]
  dsimp only
  rw [hwritten, List.drop_replicate, cryptoLength, untouched]
  by_cases hwhole : input.length % 16 = 0
  · have hleft : (if (input.length + 1) % 16 = 0 then input.length + 1
        else ((input.length + 1) / 16 + 1) * 16) - 16 * ((input.length + 15) / 16) = 16 := by
      split <;> omega
    rw [hleft, if_pos hwhole]
    rfl
  · have hleft : (if (input.length + 1) % 16 = 0 then input.length + 1
        else ((input.length + 1) / 16 + 1) * 16) - 16 * ((input.length + 15) / 16) = 0 := by
      split <;> omega
    rw [hleft, if_neg hwhole]
    rfl

/-- What `Decrypto` makes of it: the string, its padding, and the block that was never encrypted. -/
theorem hexDecrypto_cryptoHex (hkey : KeySize key) :
    hexDecrypto AES (cryptoHex AES input key) key =
      (ofBlocks (blocks input ++ Cbc.decrypt xorBlock (AES key)
        (Cbc.mac xorBlock (AES key) zeroBlock (blocks input)) (untouched input.length))).takeWhile (· ≠ 0) := by
  rw [hexDecrypto, cryptoHex, hexStringToBin_binToHexString, decrypto, if_neg (not_not.mpr hkey), cbcDecrypt,
    crypto_eq AES hkey, blocks_ofBlocks, Cbc.decrypt_encrypt_append _ xorBlock_xorBlock, List.take_of_length_le]
  rw [length_ofBlocks, length_ofBlocks, List.length_append, List.length_append, Cbc.length_encrypt,
    Cbc.length_decrypt]

/-- Bytes without a zero are all different from zero. -/
theorem nonzero_of_not_mem (hinput : 0 ∉ input) : ∀ byte ∈ input, (decide (byte ≠ 0)) = true := by
  intro byte hbyte
  rw [decide_eq_true_eq]
  intro hzero
  exact hinput (hzero ▸ hbyte)

/-- A string without zero bytes is read back if its length is no multiple of 16: its padding starts with a
zero. -/
theorem hexDecrypto_cryptoHex_of_length (hkey : KeySize key) (hinput : 0 ∉ input)
    (hlength : input.length % 16 ≠ 0) : hexDecrypto AES (cryptoHex AES input key) key = input := by
  obtain ⟨zeros, hzeros⟩ : ∃ zeros, 16 * ((input.length + 15) / 16) - input.length = zeros + 1 :=
    ⟨16 * ((input.length + 15) / 16) - input.length - 1, by omega⟩
  rw [hexDecrypto_cryptoHex AES hkey, untouched, if_neg hlength, Cbc.decrypt, List.append_nil, ofBlocks_blocks,
    List.takeWhile_append_of_pos (nonzero_of_not_mem hinput), hzeros, List.replicate_succ,
    List.takeWhile_cons_of_neg (by decide), List.append_nil]

/-- A string without zero bytes is read back exactly when its length is no multiple of 16, or the block of
zeros decrypts to a block that starts like the last ciphertext of the string, or with a zero if it is empty. -/
theorem hexDecrypto_cryptoHex_iff (hkey : KeySize key) (hinput : 0 ∉ input) :
    hexDecrypto AES (cryptoHex AES input key) key = input ↔
      input.length % 16 ≠ 0 ∨
        (AES key).symm zeroBlock 0 = Cbc.mac xorBlock (AES key) zeroBlock (blocks input) 0 := by
  by_cases hwhole : input.length % 16 = 0
  · -- there is no padding, and the last block must start with a zero
    have hpadding : 16 * ((input.length + 15) / 16) - input.length = 0 := by omega
    rw [hexDecrypto_cryptoHex AES hkey, ofBlocks_append, ofBlocks_blocks, List.append_assoc,
      List.takeWhile_append_of_pos (nonzero_of_not_mem hinput), List.append_right_eq_self, untouched,
      if_pos hwhole, hpadding, or_iff_right (not_not.mpr hwhole), List.replicate_zero, List.nil_append,
      Cbc.decrypt, Cbc.decrypt, ofBlocks, List.flatMap_singleton, List.ofFn_succ, ← UInt8.xor_eq_zero_iff]
    by_cases hfirst : (AES key).symm zeroBlock 0 ^^^ Cbc.mac xorBlock (AES key) zeroBlock (blocks input) 0 = 0
    · rw [List.takeWhile_cons_of_neg (by simpa [xorBlock] using hfirst)]
      simp [hfirst]
    · rw [List.takeWhile_cons_of_pos (by simpa [xorBlock] using hfirst)]
      simp [hfirst]
  · exact iff_of_true (hexDecrypto_cryptoHex_of_length AES hkey hinput hwhole) (Or.inl hwhole)

/-- `GetDataSecuretKey`. -/
def getDataSecuretKey : Bytes := "HCPwz!H1Y3jaJ*|qw8K<eo7>Qih)rPq1".toList.map fun c => UInt8.ofNat c.toNat

/-- The block of a number. -/
def block (n : ℕ) : Block := fun i => UInt8.ofNat (n / 256 ^ (15 - i.val))

/-- What AES makes of some blocks under `GetDataSecuretKey`: of those that are chained for the key string of
the unit tests, of sixteen times `a`, and the block that becomes zeros. -/
def testPairs : List (Block × Block) := [
  (block 0x70726953504b6e334b61587a4b4b6e50, block 0x5542d66dd4cd2055fc95d64e31dae3ed),
  (block 0x3277922fb09e746cbed9931c7ce39bd4, block 0x344d96e046bf681cbe4efc01f5552bcf),
  (block 0x6c29ced123d90e7bd523b867bb1b7cfa, block 0x110ea9771b130bb155ac1c53782faa15),
  (block 0x263ba9771b130bb155ac1c53782faa15, block 0xcd668b1bf514f6080f60521ac1353245),
  (block 0x61616161616161616161616161616161, block 0x67665e600c96c96055c3e4e9002ce9c3),
  (block 0x01391287ef310bc11aac6cfbb5458cfc, zeroBlock)]

/-- A permutation of the blocks that maps these as AES does. -/
def testAES (_key : Bytes) : Equiv.Perm Block := (testPairs.map fun pair => Equiv.swap pair.1 pair.2).prod

/-- The key string of the unit tests, which is encrypted as it stands there, is read back. -/
theorem hexDecrypto_cryptoHex_iff_test :
    cryptoHex testAES ("priSPKn3KaXzKKnPg5DBdST9BLERM9x9XdX1effgkmDfNNW575".toList.map
        fun c => UInt8.ofNat c.toNat) getDataSecuretKey =
      ("5542d66dd4cd2055fc95d64e31dae3ed344d96e046bf681cbe4efc01f5552bcf" ++
        "110ea9771b130bb155ac1c53782faa15cd668b1bf514f6080f60521ac1353245").toList ∧
    hexDecrypto testAES (cryptoHex testAES ("priSPKn3KaXzKKnPg5DBdST9BLERM9x9XdX1effgkmDfNNW575".toList.map
        fun c => UInt8.ofNat c.toNat) getDataSecuretKey) getDataSecuretKey =
      "priSPKn3KaXzKKnPg5DBdST9BLERM9x9XdX1effgkmDfNNW575".toList.map fun c => UInt8.ofNat c.toNat :=
  ⟨by decide +kernel, (hexDecrypto_cryptoHex_iff testAES (by decide +kernel) (by decide +kernel)).mpr
    (.inl (by decide +kernel))⟩

/-- Sixteen times `a`: what `HexDecrypto` returns goes on behind them. -/
theorem hexDecrypto_cryptoHex_ne :
    hexDecrypto testAES (cryptoHex testAES (List.replicate 16 0x61) getDataSecuretKey) getDataSecuretKey ≠
      List.replicate 16 0x61 := by
  decide +kernel

end Aes

end CrosschainAgent
