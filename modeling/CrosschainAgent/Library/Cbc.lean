import Mathlib.Logic.Equiv.Defs

/-!
# Cipher block chaining

Each block is combined with the ciphertext of the block in front of it and then permuted. Whoever has the
inverse of the permutation takes the chain apart again, one block at a time: what a block decrypts to depends
on that block and on the ciphertext in front of it alone, so that a block that was never encrypted decrypts to
something that the last ciphertext of the chain decides.
-/

namespace Cbc

variable {B : Type} (xor : B → B → B) (E : Equiv.Perm B)

/-- The ciphertexts of a chain that starts with `iv`. -/
def encrypt : B → List B → List B
  | _, [] => []
  | iv, p :: ps => E (xor p iv) :: encrypt (E (xor p iv)) ps

/-- The blocks of a chain that starts with `iv`. -/
def decrypt : B → List B → List B
  | _, [] => []
  | iv, c :: cs => xor (E.symm c) iv :: decrypt c cs

/-- The last ciphertext of a chain, or `iv` without a block. -/
def mac (iv : B) (ps : List B) : B := ps.foldl (fun c p => E (xor p c)) iv

/-- Encryption keeps the number of blocks. -/
@[simp]
theorem length_encrypt (iv : B) (ps : List B) : (encrypt xor E iv ps).length = ps.length := by
  induction ps generalizing iv with
  | nil => rfl
  | cons p ps ih => simp [encrypt, ih]

/-- Decryption keeps the number of blocks. -/
@[simp]
theorem length_decrypt (iv : B) (cs : List B) : (decrypt xor E iv cs).length = cs.length := by
  induction cs generalizing iv with
  | nil => rfl
  | cons c cs ih => simp [decrypt, ih]

variable {xor}

/-- A chain is taken apart, with what stands behind it decrypted from its last ciphertext on. -/
theorem decrypt_encrypt_append (hxor : ∀ a b, xor (xor a b) b = a) (iv : B) (ps cs : List B) :
    decrypt xor E iv (encrypt xor E iv ps ++ cs) = ps ++ decrypt xor E (mac xor E iv ps) cs := by
  induction ps generalizing iv with
  | nil => rfl
  | cons p ps ih =>
    rw [encrypt, List.cons_append, decrypt, ih, Equiv.symm_apply_apply, hxor]
    rfl

end Cbc
