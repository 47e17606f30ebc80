import CrosschainAgent.Crypto.BigNum
import Mathlib.GroupTheory.OrderOfElement
import Mathlib.Tactic.LinearCombination
import Mathlib.Tactic.Ring

/-!
# The SM2 signatures

`EccSm2` over an abstract group: the point operations of OpenSSL are exact, SM3 is any function to 32
bytes, and the random numbers that a signature draws are given one after the other. A signature is checked
through `sG + (r + s)P = kG`, which holds as long as `1 + d` has an inverse modulo the order. `From` turns
away the order itself as a secret and nothing else below or above it, so that the secret `n - 1` is
accepted, for which there is no inverse.
-/

namespace CrosschainAgent

open BigNum

/-- A curve group: a generator of prime order, and the affine coordinates of its points. The coordinates
and the order fit in 32 bytes, as those of `GetCFCAGroup` do, the one group that the keys use. -/
structure EcGroup (Point : Type) [AddCommGroup Point] where
  order : ℕ
  generator : Point
  a : ℕ
  b : ℕ
  getAffineCoordinates : Point → Option (ℕ × ℕ)
  setAffineCoordinates : ℕ → ℕ → Point
  order_prime : order.Prime
  order_le : order ≤ 256 ^ 32
  addOrderOf_generator : addOrderOf generator = order
  get_eq_none_iff : ∀ pt, getAffineCoordinates pt = none ↔ pt = 0
  set_of_get : ∀ {pt x y}, getAffineCoordinates pt = some (x, y) → setAffineCoordinates x y = pt
  get_lt : ∀ {pt x y}, getAffineCoordinates pt = some (x, y) → x < 256 ^ 32 ∧ y < 256 ^ 32

/-- `Sm3`: a digest of 32 bytes. -/
structure Sm3 where
  crypto : Bytes → Bytes
  length_crypto : ∀ data, (crypto data).length = 32

/-- `EccSm2`, without the group it keeps a pointer to. -/
structure EccSm2 (Point : Type) where
  dA : ℕ
  pkey : Point
  skeyBin : Bytes := []
  valid : Bool := false
  error : Text := []

namespace EccSm2

variable {Point : Type} [AddCommGroup Point] (group : EcGroup Point) (sm3 : Sm3)

/-- The constructor: the new point is the one at infinity. -/
def init : EccSm2 Point where
  dA := 0
  pkey := 0

/-- `getZA`. Coordinates that are not there leave the new numbers 0. -/
def getZA (id : Bytes) (pkey : Point) : Bytes :=
  let (xA, yA) := (group.getAffineCoordinates pkey).getD (0, 0)
  let (xG, yG) := (group.getAffineCoordinates group.generator).getD (0, 0)
  let entla := UInt32.ofNat (id.length * 8)
  let c1 := (entla >>> 8).toUInt8
  let c2 := (entla &&& 0xFF).toUInt8
  sm3.crypto ([c1, c2] ++ id ++ bn2FixedString group.a 32 ++ bn2FixedString group.b 32 ++
    bn2FixedString xG 32 ++ bn2FixedString yG 32 ++ bn2FixedString xA 32 ++ bn2FixedString yA 32)

/-- The number that the digest of a message under an identity stands for. -/
def digest (id msg : Bytes) (pkey : Point) : ℕ :=
  bnBin2bn (sm3.crypto (getZA group sm3 id pkey ++ msg))

/-- `From`: of the secrets, only the order is turned away here, and the multiples of the order have no
affine coordinates. -/
def fromKey (this : EccSm2 Point) (skeyBin : Bytes) : EccSm2 Point :=
  let dA := bnBin2bn skeyBin
  let this := { this with valid := false, skeyBin := skeyBin, dA := dA }
  if dA = group.order then
    { this with error := "dA must be less than order i.e. n ".toList }
  else
    let pkey := dA • group.generator
    match group.getAffineCoordinates pkey with
    | none => { this with pkey := pkey, error := "unknown error".toList }
    | some _ => { this with pkey := pkey, valid := true }

/-- `NewRandom`, where `BN_rand_range` draws `dAs`; `none` when they run out. The coordinates of the public key
have as many bytes as the order. -/
def newRandom (this : EccSm2 Point) : List (Fin group.order) → Option (EccSm2 Point)
  | [] => none
  | dA :: dAs =>
    let pkey := dA.val • group.generator
    match group.getAffineCoordinates pkey with
    | none => newRandom this dAs
    | some (x, y) =>
      let bytes := (bnBn2bin group.order).length
      if bytes ≠ (bnBn2bin x).length ∨ bytes ≠ (bnBn2bin y).length then newRandom this dAs
      else some { this with dA := dA, pkey := pkey, valid := true }

/-- `getSkeyBin`. -/
def getSkeyBin (this : EccSm2 Point) : Bytes := bn2FixedString this.dA 32

/-- `GetPublicKey`: uncompressed. -/
def getPublicKey (this : EccSm2 Point) : Bytes :=
  if this.valid then
    let (x, y) := (group.getAffineCoordinates this.pkey).getD (0, 0)
    4 :: bn2FixedString x 32 ++ bn2FixedString y 32
  else []

/-- What one drawn number comes to: `Sign` draws again, or it returns. Either way with the numbers `r`
and `s` as they are by then. -/
inductive Round where
  | again (r s : ℕ)
  | done (r s : ℕ)

/-- The loops of `Sign` for one drawn number. -/
def signRound (dA e k r s : ℕ) : Round :=
  if k = 0 ∨ k = group.order then .again r s
  else match group.getAffineCoordinates (k • group.generator) with
  | none => .done r s
  | some (x1, _) =>
    let x1 := x1 % group.order
    if x1 = 0 then .again r s
    else
      let r := bnModAdd x1 e group.order
      let bn := bnModAdd r k group.order
      if r = 0 ∨ bn = 0 then .again r s
      else
        let s := bnModAdd dA 1 group.order
        match bnModInverse s group.order with
        | none => .done r s
        | some s =>
          let bn := bnModMul r dA group.order
          let bn := bnModSub k bn group.order
          let s := bnModMul s bn group.order
          if s ≠ 0 then .done r s else .again r s

/-- The loops of `Sign` over the numbers that `BN_rand_range` draws; `none` when they run out. -/
def signLoop (dA e : ℕ) : List (Fin group.order) → ℕ → ℕ → Option (ℕ × ℕ)
  | [], _, _ => none
  | k :: ks, r, s =>
    match signRound group dA e k r s with
    | .again r s => signLoop dA e ks r s
    | .done r s => some (r, s)

/-- `Sign`, where `BN_rand_range` draws `ks`. -/
def sign (this : EccSm2 Point) (id msg : Bytes) (ks : List (Fin group.order)) : Option Bytes :=
  if this.valid then do
    let M := getZA group sm3 id this.pkey ++ msg
    let e := bnBin2bn ((sm3.crypto M).take 32)
    let (r, s) ← signLoop group this.dA e ks 0 0
    return bn2FixedString r 32 ++ bn2FixedString s 32
  else some []

/-- The part of `verify` after the key and the signature are read. -/
def verifyNumbers (pubKey : Point) (id msg : Bytes) (r s : ℕ) : ℤ :=
  if r = 0 ∨ r ≥ group.order ∨ s = 0 ∨ s ≥ group.order then 0
  else
    let t := bnModAdd r s group.order
    if t = 0 then 0
    else
      let e := digest group sm3 id msg pubKey
      match group.getAffineCoordinates (s • group.generator + t • pubKey) with
      | none => -1
      | some (x1, _) =>
        let R := bnModAdd (x1 % group.order) e group.order
        if R % group.order = r then 1 else 0

/-- `verify`, of a public key below 4 GiB. For the empty key `substr` throws, which is `none` here. -/
def verify (pkey id msg strsig : Bytes) : Option ℤ :=
  if pkey = [] then none
  else
    let len := (pkey.length - 1) / 2
    let px := (pkey.drop 1).take len
    let py := (pkey.drop (1 + len)).take len
    let half := strsig.length / 2
    let sigr := strsig.take half
    let sigs := (strsig.drop half).take half
    let pubKey := group.setAffineCoordinates (bnBin2bn px) (bnBin2bn py)
    some (verifyNumbers group sm3 pubKey id msg (bnBin2bn sigr) (bnBin2bn sigs))

section Equation

variable {R : Type} [CommRing R] {d k r s : R}

/-- What a signature is checked by: `s + (r + s)d = k`. -/
theorem sign_equation (h : s * (1 + d) = k - r * d) : s + (r + s) * d = k := by
  linear_combination h

/-- `r + s` is zero only with `r + k`. -/
theorem sum_equation (h : s * (1 + d) = k - r * d) : (r + s) * (1 + d) = r + k := by
  linear_combination h

end Equation

/-- A signature that was completed with the drawn number `k`. -/
structure Signed (dA e k r s : ℕ) : Prop where
  point : ∃ x y, group.getAffineCoordinates (k • group.generator) = some (x, y) ∧
    r = bnModAdd (x % group.order) e group.order
  r_ne_zero : r ≠ 0
  sum_ne_zero : bnModAdd r k group.order ≠ 0
  s_ne_zero : s ≠ 0
  s_lt : s < group.order
  equation : (s * (1 + dA) : ZMod group.order) = k - r * dA

/-- A multiple of the generator depends on its factor modulo the order only. -/
theorem nsmul_generator_eq {m k : ℕ} (h : (m : ZMod group.order) = k) :
    m • group.generator = k • group.generator := by
  rw [nsmul_eq_nsmul_iff_modEq, group.addOrderOf_generator]
  exact (ZMod.natCast_eq_natCast_iff m k group.order).mp h

/-- The multiples of the generator with coordinates. -/
theorem get_nsmul_eq_none_iff (k : ℕ) :
    group.getAffineCoordinates (k • group.generator) = none ↔ group.order ∣ k := by
  rw [group.get_eq_none_iff, ← addOrderOf_dvd_iff_nsmul_eq_zero, group.addOrderOf_generator]

/-- A sum modulo the order is below the order. -/
theorem bnModAdd_lt (a b : ℕ) : bnModAdd a b group.order < group.order :=
  Nat.mod_lt _ group.order_prime.pos

/-- A product modulo the order is below the order. -/
theorem bnModMul_lt (a b : ℕ) : bnModMul a b group.order < group.order :=
  Nat.mod_lt _ group.order_prime.pos

/-- `1 + d` is zero modulo the order for the secrets before a multiple of it. -/
theorem succ_eq_zero_iff (dA : ℕ) :
    ((bnModAdd dA 1 group.order : ℕ) : ZMod group.order) = 0 ↔ group.order ∣ dA + 1 := by
  rw [bnModAdd, ZMod.natCast_mod, ZMod.natCast_eq_zero_iff]

/-- Where a round returns: with a completed signature, or with 0 for `s` when `1 + d` has no inverse. -/
theorem signRound_done {dA e k r₀ s₀ r s : ℕ} (hk : k < group.order)
    (h : signRound group dA e k r₀ s₀ = .done r s) :
    r < group.order ∧ (if group.order ∣ dA + 1 then s = 0 else Signed group dA e k r s) := by
  have : Fact group.order.Prime := ⟨group.order_prime⟩
  rw [signRound] at h
  split at h
  next => cases h
  next hk0 =>
    split at h
    next hnone =>
      -- a number that was drawn and is not zero is below the order
      have hdvd := (get_nsmul_eq_none_iff group k).mp hnone
      have := Nat.le_of_dvd (by omega) hdvd
      omega
    next x y hpoint =>
      dsimp only at h
      split at h
      next => cases h
      next hx =>
        split at h
        next => cases h
        next hr =>
          split at h
          next hinv =>
            have hdvd := (succ_eq_zero_iff group dA).mp (bnModInverse_eq_none.mp hinv)
            cases h
            rw [if_pos hdvd]
            exact ⟨bnModAdd_lt group _ _, Nat.mod_eq_zero_of_dvd hdvd⟩
          next inv hinv =>
            have hdvd : ¬ group.order ∣ dA + 1 := by
              rw [← succ_eq_zero_iff, ← bnModInverse_eq_none, hinv]
              simp
            split at h
            next hs =>
              cases h
              rw [if_neg hdvd]
              refine ⟨bnModAdd_lt group _ _, ⟨x, y, hpoint, rfl⟩, by tauto, by tauto, hs,
                bnModMul_lt group _ _, ?_⟩
              have hone := bnModInverse_cast hinv
              simp only [bnModAdd_cast, bnModMul_cast, bnModSub_cast, Nat.cast_one] at hone ⊢
              linear_combination (k - (x % group.order : ℕ) * dA - e * dA : ZMod group.order) * hone
            next => cases h

/-- What the loops return comes from the round of some drawn number. -/
theorem signLoop_some {dA e : ℕ} {ks : List (Fin group.order)} {r₀ s₀ r s : ℕ}
    (h : signLoop group dA e ks r₀ s₀ = some (r, s)) :
    ∃ (k : Fin group.order) (r₁ s₁ : ℕ), signRound group dA e k r₁ s₁ = .done r s := by
  induction ks generalizing r₀ s₀ with
  | nil => cases h
  | cons k ks ih =>
    rw [signLoop] at h
    split at h
    next => exact ih h
    next hdone =>
      cases h
      exact ⟨k, r₀, s₀, hdone⟩

/-- A completed signature is accepted with the public key of its secret. -/
theorem verifyNumbers_signed {dA k r s : ℕ} {id msg : Bytes}
    (h : Signed group dA (digest group sm3 id msg (dA • group.generator)) k r s) (hr : r < group.order) :
    verifyNumbers group sm3 (dA • group.generator) id msg r s = 1 := by
  obtain ⟨x, y, hpoint, hx⟩ := h.point
  have hsum : bnModAdd r s group.order ≠ 0 := by
    intro hzero
    have hcast : (r + s : ZMod group.order) = 0 := by
      rw [← bnModAdd_cast, hzero, Nat.cast_zero]
    have hrk : ((r + k : ℕ) : ZMod group.order) = 0 := by
      rw [Nat.cast_add, ← sum_equation h.equation, hcast, zero_mul]
    exact h.sum_ne_zero (Nat.mod_eq_zero_of_dvd ((ZMod.natCast_eq_zero_iff _ _).mp hrk))
  have hmul : s • group.generator + bnModAdd r s group.order • dA • group.generator =
      k • group.generator := by
    rw [← mul_nsmul', ← add_nsmul]
    apply nsmul_generator_eq
    push_cast
    rw [bnModAdd_cast, sign_equation h.equation]
  have hrange : ¬ (r = 0 ∨ r ≥ group.order ∨ s = 0 ∨ s ≥ group.order) := by
    have := h.r_ne_zero
    have := h.s_ne_zero
    have := h.s_lt
    omega
  rw [verifyNumbers, if_neg hrange]
  dsimp only
  rw [if_neg hsum, hmul, hpoint]
  dsimp only
  rw [← hx, Nat.mod_eq_of_lt hr, if_pos rfl]

/-- A signature whose `s` is 0 is turned away. -/
theorem verifyNumbers_zero (pubKey : Point) (id msg : Bytes) (r : ℕ) :
    verifyNumbers group sm3 pubKey id msg r 0 = 0 := by
  simp [verifyNumbers]

/-- `From` accepts exactly the secrets that are no multiple of the order. -/
theorem fromKey_valid_iff (this : EccSm2 Point) (skeyBin : Bytes) :
    (fromKey group this skeyBin).valid = true ↔ ¬ group.order ∣ bnBin2bn skeyBin := by
  rw [fromKey]
  dsimp only
  split
  next h => simp [h]
  next h =>
    split
    next hnone => simp [(get_nsmul_eq_none_iff group _).mp hnone]
    next hsome => simp [← get_nsmul_eq_none_iff, hsome]

/-- An accepted secret is kept with its point. -/
theorem fromKey_keys {this : EccSm2 Point} {skeyBin : Bytes} (h : (fromKey group this skeyBin).valid = true) :
    (fromKey group this skeyBin).dA = bnBin2bn skeyBin ∧
      (fromKey group this skeyBin).pkey = bnBin2bn skeyBin • group.generator := by
  rw [fromKey] at h ⊢
  dsimp only at h ⊢
  split at h
  next => cases h
  next hne =>
    rw [if_neg hne]
    split at h
    next => cases h
    next hsome => exact ⟨rfl, rfl⟩

/-- What `NewRandom` leaves: a number that was drawn, which is no multiple of the order, and its point. -/
theorem newRandom_keys {this key : EccSm2 Point} {dAs : List (Fin group.order)}
    (h : newRandom group this dAs = some key) :
    key.valid = true ∧ key.dA < group.order ∧ ¬group.order ∣ key.dA ∧
      key.pkey = key.dA • group.generator := by
  induction dAs with
  | nil => cases h
  | cons dA dAs ih =>
    rw [newRandom] at h
    dsimp only at h
    split at h
    next => exact ih h
    next hpoint =>
      split at h
      next => exact ih h
      next =>
        obtain rfl := Option.some_inj.mp h
        refine ⟨rfl, dA.isLt, ?_, rfl⟩
        rw [← get_nsmul_eq_none_iff, hpoint]
        simp

/-- The point of an accepted secret is not the one at infinity. -/
theorem fromKey_pkey_ne_zero {this : EccSm2 Point} {skeyBin : Bytes}
    (h : (fromKey group this skeyBin).valid = true) : (fromKey group this skeyBin).pkey ≠ 0 := by
  rw [(fromKey_keys group h).2, Ne, ← group.get_eq_none_iff, get_nsmul_eq_none_iff]
  exact (fromKey_valid_iff group this skeyBin).mp h

/-- `verify` reads the point and the numbers that `GetPublicKey` and `Sign` wrote. -/
theorem verify_getPublicKey {this : EccSm2 Point} (hvalid : this.valid = true) (hpkey : this.pkey ≠ 0)
    (id msg : Bytes) {r s : ℕ} (hr : r < 256 ^ 32) (hs : s < 256 ^ 32) :
    verify group sm3 (getPublicKey group this) id msg (bn2FixedString r 32 ++ bn2FixedString s 32) =
      some (verifyNumbers group sm3 this.pkey id msg r s) := by
  obtain ⟨⟨x, y⟩, hpoint⟩ := Option.ne_none_iff_exists'.mp (mt (group.get_eq_none_iff _).mp hpkey)
  obtain ⟨hx, hy⟩ := group.get_lt hpoint
  have hread : ∀ a b, (bn2FixedString a 32 ++ bn2FixedString b 32).take 32 = bn2FixedString a 32 ∧
      ((bn2FixedString a 32 ++ bn2FixedString b 32).drop 32).take 32 = bn2FixedString b 32 := by
    intro a b
    rw [List.take_left' (by simp), List.drop_left' (by simp), List.take_of_length_le (by simp)]
    exact ⟨rfl, rfl⟩
  rw [getPublicKey, if_pos hvalid, hpoint, verify]
  simp only [Option.getD_some, List.cons_append, reduceCtorEq, ↓reduceIte, List.length_cons,
    List.length_append, length_bn2FixedString, Nat.reduceAdd, Nat.reduceSub, Nat.reduceDiv,
    List.drop_succ_cons, List.drop_zero, hread, bnBin2bn_bn2FixedString hx, bnBin2bn_bn2FixedString hy,
    bnBin2bn_bn2FixedString hr, bnBin2bn_bn2FixedString hs, group.set_of_get hpoint]

/-- A valid key signs with 64 bytes. -/
theorem length_sign {this : EccSm2 Point} {id msg : Bytes} {ks : List (Fin group.order)} {sig : Bytes}
    (hvalid : this.valid = true) (hsign : sign group sm3 this id msg ks = some sig) : sig.length = 64 := by
  rw [sign, if_pos hvalid] at hsign
  simp only [Option.bind_eq_bind, Option.bind_eq_some_iff, Option.pure_def, Option.some_inj] at hsign
  obtain ⟨rs, -, rfl⟩ := hsign
  simp

/-- What `Sign` returns is accepted exactly when `1 + d` has an inverse. -/
theorem verify_sign_iff {this : EccSm2 Point} {id msg : Bytes} {ks : List (Fin group.order)} {sig : Bytes}
    (hvalid : this.valid = true) (hpkey : this.pkey = this.dA • group.generator)
    (hne : this.pkey ≠ 0) (hsign : sign group sm3 this id msg ks = some sig) :
    verify group sm3 (getPublicKey group this) id msg sig = some 1 ↔ ¬ group.order ∣ this.dA + 1 := by
  have hdigest : bnBin2bn ((sm3.crypto (getZA group sm3 id this.pkey ++ msg)).take 32) =
      digest group sm3 id msg this.pkey := by
    rw [List.take_of_length_le (sm3.length_crypto _).le, digest]
  rw [sign, if_pos hvalid] at hsign
  simp only [hdigest, Option.bind_eq_bind, Option.bind_eq_some_iff, Prod.exists, Option.pure_def,
    Option.some_inj] at hsign
  obtain ⟨r, s, hloop, rfl⟩ := hsign
  obtain ⟨k, r₁, s₁, hdone⟩ := signLoop_some group hloop
  obtain ⟨hr, hs⟩ := signRound_done group k.isLt hdone
  split at hs
  next hdvd =>
    rw [hs, verify_getPublicKey group sm3 hvalid hne id msg (hr.trans_le group.order_le) (by positivity),
      verifyNumbers_zero]
    simp [hdvd]
  next hdvd =>
    rw [verify_getPublicKey group sm3 hvalid hne id msg (hr.trans_le group.order_le)
      (hs.s_lt.trans_le group.order_le), hpkey, verifyNumbers_signed group sm3 (hpkey ▸ hs) hr]
    simp [hdvd]

/-- For every secret that `From` accepts, what `Sign` returns is accepted by `verify` with the public key
of the secret exactly when the secret is not one below a multiple of the order. -/
theorem sign_verifies_iff (this : EccSm2 Point) (skeyBin id msg : Bytes) (ks : List (Fin group.order))
    (sig : Bytes) (hfrom : (fromKey group this skeyBin).valid = true)
    (hsign : sign group sm3 (fromKey group this skeyBin) id msg ks = some sig) :
    verify group sm3 (getPublicKey group (fromKey group this skeyBin)) id msg sig = some 1 ↔
      ¬ group.order ∣ bnBin2bn skeyBin + 1 := by
  obtain ⟨hdA, hpkey⟩ := fromKey_keys group hfrom
  rw [verify_sign_iff group sm3 hfrom (by rw [hpkey, hdA]) (fromKey_pkey_ne_zero group hfrom) hsign, hdA]

/-- A group of order 5, whose points but 0 have themselves for their first coordinate. -/
def groupOfFive : EcGroup (ZMod 5) where
  order := 5
  generator := 1
  a := 0
  b := 0
  getAffineCoordinates pt := if pt = 0 then none else some (pt.val, 0)
  setAffineCoordinates x _ := x
  order_prime := by decide
  order_le := by decide
  addOrderOf_generator := ZMod.addOrderOf_one 5
  get_eq_none_iff := by decide
  set_of_get := by
    intro pt x y h
    obtain ⟨-, hpt⟩ := Option.ite_none_left_eq_some.mp h
    cases hpt
    exact ZMod.natCast_zmod_val pt
  get_lt := by
    intro pt x y h
    obtain ⟨-, hpt⟩ := Option.ite_none_left_eq_some.mp h
    cases hpt
    exact ⟨(ZMod.val_lt pt).trans (by decide), by decide⟩

/-- The digest that is always 0. -/
def zeroDigest : Sm3 where
  crypto _ := List.replicate 32 0
  length_crypto _ := List.length_replicate

/-- The number 1 is drawn. -/
def draw : List (Fin groupOfFive.order) := [(1 : Fin 5)]

/-- The secret 2 signs with the number 1, and the signature is accepted. -/
theorem sign_verifies_iff_two :
    (fromKey groupOfFive init [2]).valid = true ∧
      ∃ sig, sign groupOfFive zeroDigest (fromKey groupOfFive init [2]) [] [] draw = some sig ∧
        verify groupOfFive zeroDigest (getPublicKey groupOfFive (fromKey groupOfFive init [2])) [] [] sig =
          some 1 := by
  have hfrom : (fromKey groupOfFive init [2]).valid = true := by decide +kernel
  have hsign : sign groupOfFive zeroDigest (fromKey groupOfFive init [2]) [] [] draw =
      some (bn2FixedString 1 32 ++ bn2FixedString 3 32) := by decide +kernel
  refine ⟨hfrom, _, hsign, ?_⟩
  exact (sign_verifies_iff groupOfFive zeroDigest init [2] [] [] draw _ hfrom hsign).mpr (by decide +kernel)

/-- The secret `n - 1` is accepted and signs, and its signature is turned away. -/
theorem sign_before_order_rejected :
    (fromKey groupOfFive init [4]).valid = true ∧
      sign groupOfFive zeroDigest (fromKey groupOfFive init [4]) [] [] draw =
        some (bn2FixedString 1 32 ++ bn2FixedString 0 32) ∧
      verify groupOfFive zeroDigest (getPublicKey groupOfFive (fromKey groupOfFive init [4])) [] []
        (bn2FixedString 1 32 ++ bn2FixedString 0 32) = some 0 := by
  decide +kernel

end EccSm2

end CrosschainAgent
