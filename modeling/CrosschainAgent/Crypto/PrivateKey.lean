import CrosschainAgent.Common.Strings
import CrosschainAgent.Crypto.Base58
import CrosschainAgent.Crypto.EccSm2

/-!
# The keys of the agent

`PrivateKeyV4` and `PublicKeyV4` over the SM2 signatures and a library for ed25519. A private key is read
from a base 58 string; the type of its signatures is one byte of it. Both parsers check the length of a key
against its type and then overwrite the outcome with the check of the encoding, so that a type without
signatures is let through. Nor is it noticed when `EccSm2::From` turns a secret away.
-/

namespace CrosschainAgent

open BigNum Strings

/-- `ed25519-donna`: what is signed with a secret is opened with its public key. -/
structure Ed25519 where
  publickey : Bytes → Bytes
  sign : Bytes → Bytes → Bytes → Bytes
  signOpen : Bytes → Bytes → Bytes → ℤ
  length_publickey : ∀ sk, (publickey sk).length = 32
  length_sign : ∀ m sk pk, (sign m sk pk).length = 64
  signOpen_sign : ∀ m sk, sk.length = 32 → signOpen m (publickey sk) (sign m sk (publickey sk)) = 0

/-- The bytes of a text. -/
def bytes (text : String) : Bytes := text.toList.map fun c => UInt8.ofNat c.toNat

/-- `SignatureType`, which a byte of a key is cast to. -/
abbrev SignatureType := UInt8

namespace SignatureType

def signtypeEd25519 : SignatureType := 0x65

def signtypeCfcasm2 : SignatureType := 0x7A

end SignatureType

/-- `EncodeType`, which a byte of a key is cast to. -/
abbrev EncodeType := UInt8

def encodetypeBase58 : EncodeType := 0x66

/-- `KeyType`. -/
inductive KeyType where
  | keyAddress
  | keyPublickey
  | keyPrivatekey
  deriving DecidableEq

/-- The arguments that the parsers write to; the type of the key is not set before. -/
structure KeyElement where
  keyType : Option KeyType := none
  signType : SignatureType
  encodeType : EncodeType
  rawData : Bytes

open SignatureType

namespace AddressPrefix

/-- `address_prefix`. -/
def didBid : Bytes := bytes "did:bid:"

/-- `Decode`: what follows the last colon. -/
def decode (address : Bytes) : Bytes := (address.reverse.takeWhile (· ≠ 0x3A)).reverse

end AddressPrefix

namespace KeypairUtils

variable (outside : UInt8 → Int8) (sha256 : Bytes → Bytes) (sm3 : Sm3)

/-- `PRIVATE_KEY_PREFIX`. -/
def privateKeyPrefix : Bytes := bytes "pri"

/-- `PUBLIC_KEY_PREFIX`. -/
def publicKeyPrefix : UInt8 := 0xB0

/-- `DecodeAddress`, of an address of which the prefix leaves at least 2 characters. -/
def decodeAddress (address : Bytes) : Bytes :=
  if address.length < 2 then [] else Base58.decode outside ((AddressPrefix.decode address).drop 2)

/-- `CalcHash`. -/
def calcHash (value : Bytes) (signType : SignatureType) : Bytes :=
  if signType = signtypeCfcasm2 then sm3.crypto value else sha256 value

/-- The switches of the parsers: the length of a key against its type. -/
def lengthMatches (ed25519 sm2 : ℕ) (signType : SignatureType) (datalen : ℕ) : Bool :=
  if signType = signtypeEd25519 then ed25519 = datalen
  else if signType = signtypeCfcasm2 then sm2 = datalen
  else false

/-- `GetPublicKeyElement`. -/
def getPublicKeyElement (encodePubKey : Text) (out : KeyElement) : Bool × KeyElement :=
  match hexStringToBin encodePubKey with
  | a :: b :: c :: rawData =>
    if a ≠ publicKeyPrefix then (false, out)
    else
      let out := { out with signType := b, encodeType := c }
      -- what the switch found is overwritten
      let _ret := lengthMatches 32 65 b rawData.length
      let ret := decide (c = encodetypeBase58)
      if ret then (ret, { out with keyType := some .keyPublickey, rawData := rawData }) else (ret, out)
  | _ => (false, out)

/-- `GetKeyElement`. -/
def getKeyElement (encodeKey : Bytes) (out : KeyElement) : Bool × KeyElement :=
  if AddressPrefix.didBid <+: encodeKey then
    let base58addr := AddressPrefix.decode encodeKey
    let buff := decodeAddress outside base58addr
    if buff.length ≠ 22 then (false, out)
    else
      let a := base58addr[0]?.getD 0
      let b := base58addr[1]?.getD 0
      let _ret := lengthMatches 22 22 a buff.length
      let ret := decide (b = encodetypeBase58)
      (ret, { keyType := some .keyAddress, signType := a, encodeType := b, rawData := buff.drop 2 })
  else if privateKeyPrefix <+: encodeKey then
    let buff := Base58.decode outside encodeKey
    if buff.length ≠ 37 then (false, out)
    else
      let a := buff[3]?.getD 0
      let b := buff[4]?.getD 0
      let _ret := lengthMatches 32 32 a (buff.length - 5)
      let ret := decide (b = encodetypeBase58)
      (ret, { keyType := some .keyPrivatekey, signType := a, encodeType := b, rawData := buff.drop 5 })
  else (false, out)

/-- What the parser takes for a private key: 37 bytes with the encoding in their place, and any type. -/
theorem getKeyElement_privateKey {outside : UInt8 → Int8} {encodeKey : Bytes} {out key : KeyElement}
    (h : getKeyElement outside encodeKey out = (true, key)) (hkey : key.keyType = some .keyPrivatekey) :
    (Base58.decode outside encodeKey).length = 37 ∧
      key = ⟨some .keyPrivatekey, (Base58.decode outside encodeKey)[3]?.getD 0, encodetypeBase58,
        (Base58.decode outside encodeKey).drop 5⟩ := by
  rw [getKeyElement] at h
  split at h
  next =>
    -- what starts like an address is no private key
    dsimp only at h
    split at h
    next => simp at h
    next =>
      obtain ⟨-, rfl⟩ := Prod.mk.inj h
      simp at hkey
  next =>
    split at h
    next =>
      dsimp only at h
      split at h
      next => simp at h
      next hlength =>
        obtain ⟨hencode, rfl⟩ := Prod.mk.inj h
        rw [of_decide_eq_true hencode]
        exact ⟨not_not.mp hlength, rfl⟩
    next => simp at h

end KeypairUtils

open KeypairUtils

/-- `PublicKeyV4`. -/
structure PublicKeyV4 where
  valid : Bool
  type : SignatureType
  rawPubKey : Bytes := []
  rawAddress : Bytes := []

/-- `PrivateKeyV4`; a new one is for ed25519. -/
structure PrivateKeyV4 where
  valid : Bool := false
  type : SignatureType := signtypeEd25519
  encodeType : EncodeType := 0
  rawPrivKey : Bytes := []
  pubKey : Option PublicKeyV4 := none

variable {Point : Type} [AddCommGroup Point]

/-- What the keys are computed with: the group of `GetCFCAGroup`, the digests and ed25519, and what is read
outside of the table of the digits. -/
structure KeyLibraries (Point : Type) [AddCommGroup Point] where
  cfcaGroup : EcGroup Point
  sm3 : Sm3
  sha256 : Bytes → Bytes
  ed25519 : Ed25519
  outside : UInt8 → Int8

variable (lib : KeyLibraries Point)

namespace PublicKeyV4

/-- `Init`. -/
def init (this : PublicKeyV4) (type : SignatureType) (rawpkey : Bytes) : PublicKeyV4 :=
  { this with
    type := type
    rawPubKey := rawpkey
    rawAddress := (calcHash lib.sha256 lib.sm3 rawpkey type).drop 10 }

/-- `GetEncPublicKey`. -/
def getEncPublicKey (this : PublicKeyV4) : Text :=
  binToHexString (publicKeyPrefix :: this.type :: encodetypeBase58 :: this.rawPubKey)

/-- The identity of the SM2 signatures. -/
def sm2Id : Bytes := bytes "1234567812345678"

/-- `Verify`; `none` is an exception of `EccSm2::verify`. The arguments of the parser are not set before. -/
def verify (data signature : Bytes) (encodePublicKey : Text) : Option Bool :=
  let (valid, key) := getPublicKeyElement encodePublicKey { signType := 0, encodeType := 0, rawData := [] }
  if ¬ valid ∨ key.keyType ≠ some .keyPublickey then some false
  else if signature.length ≠ 64 then some false
  else if key.signType = signtypeEd25519 then
    some (lib.ed25519.signOpen data key.rawData signature = 0)
  else if key.signType = signtypeCfcasm2 then
    (EccSm2.verify lib.cfcaGroup lib.sm3 key.rawData sm2Id data signature).map (· = 1)
  else some false

/-- The parser reads a public key as it was written, whatever its type and its length. -/
theorem getPublicKeyElement_getEncPublicKey (this : PublicKeyV4) (out : KeyElement) :
    getPublicKeyElement this.getEncPublicKey out =
      (true, ⟨some .keyPublickey, this.type, encodetypeBase58, this.rawPubKey⟩) := by
  simp [getPublicKeyElement, getEncPublicKey, hexStringToBin_binToHexString]

/-- A signature of 64 bytes is checked by the type of the key it is checked with. -/
theorem verify_getEncPublicKey (this : PublicKeyV4) (data signature : Bytes) :
    verify lib data signature this.getEncPublicKey =
      if signature.length ≠ 64 then some false
      else if this.type = signtypeEd25519 then
        some (lib.ed25519.signOpen data this.rawPubKey signature = 0)
      else if this.type = signtypeCfcasm2 then
        (EccSm2.verify lib.cfcaGroup lib.sm3 this.rawPubKey sm2Id data signature).map (· = 1)
      else some false := by
  rw [verify, getPublicKeyElement_getEncPublicKey]
  simp

end PublicKeyV4

namespace PrivateKeyV4

open PublicKeyV4

/-- The public key that `From` and `Init` compute. The outcome of `EccSm2::From` is not looked at, and of a
type without signatures the public key stays empty. -/
def rawPublicKey (type : SignatureType) (rawPrivKey : Bytes) : Bytes :=
  if type = signtypeEd25519 then lib.ed25519.publickey rawPrivKey
  else if type = signtypeCfcasm2 then
    EccSm2.getPublicKey lib.cfcaGroup (EccSm2.fromKey lib.cfcaGroup EccSm2.init rawPrivKey)
  else []

/-- `Init`, which leaves `valid_` as it is. -/
def init (this : PrivateKeyV4) (type : SignatureType) (rawPrivKey : Bytes) : PrivateKeyV4 :=
  let pubKey : PublicKeyV4 := { valid := true, type := type }
  { this with
    type := type
    rawPrivKey := rawPrivKey
    pubKey := some (pubKey.init lib type (rawPublicKey lib type rawPrivKey)) }

/-- `From`. -/
def fromKey (this : PrivateKeyV4) (encodePrivateKey : Bytes) : PrivateKeyV4 :=
  let (valid, key) := getKeyElement lib.outside encodePrivateKey
    { signType := this.type, encodeType := this.encodeType, rawData := this.rawPrivKey }
  let this := { this with
    valid := valid, type := key.signType, encodeType := key.encodeType, rawPrivKey := key.rawData }
  if ¬ valid then this
  else if key.keyType ≠ some .keyPrivatekey then { this with valid := false }
  else
    let pubKey : PublicKeyV4 := { valid := true, type := this.type }
    { this with
      pubKey := some (pubKey.init lib this.type (rawPublicKey lib this.type this.rawPrivKey))
      valid := true }

/-- The public key of a key that was accepted; of another there is none to read from. -/
def getRawPublicKey (this : PrivateKeyV4) : Bytes := (this.pubKey.map (·.rawPubKey)).getD []

/-- `GetEncPublicKey`. -/
def getEncPublicKey (this : PrivateKeyV4) : Text := (this.pubKey.map (·.getEncPublicKey)).getD []

/-- `Sign`, where the numbers `ks` are drawn. -/
def sign (this : PrivateKeyV4) (input : Bytes) (ks : List (Fin lib.cfcaGroup.order)) : Option Bytes :=
  if this.type = signtypeEd25519 then
    some (lib.ed25519.sign input this.rawPrivKey this.getRawPublicKey)
  else if this.type = signtypeCfcasm2 then
    (EccSm2.fromKey lib.cfcaGroup EccSm2.init this.rawPrivKey).sign lib.cfcaGroup lib.sm3 sm2Id input ks
  else some []

/-- The byte of a key string that is the type of its signatures. -/
def keyType (encodePrivateKey : Bytes) : SignatureType :=
  (Base58.decode lib.outside encodePrivateKey)[3]?.getD 0

/-- The secret of a key string. -/
def secret (encodePrivateKey : Bytes) : Bytes := (Base58.decode lib.outside encodePrivateKey).drop 5

/-- An accepted key has the type and the secret of its string, and the public key that was computed for
them. -/
theorem fromKey_valid {this : PrivateKeyV4} {encodePrivateKey : Bytes}
    (h : (fromKey lib this encodePrivateKey).valid = true) :
    (secret lib encodePrivateKey).length = 32 ∧
      (fromKey lib this encodePrivateKey).type = keyType lib encodePrivateKey ∧
      (fromKey lib this encodePrivateKey).rawPrivKey = secret lib encodePrivateKey ∧
      ∃ pubKey, (fromKey lib this encodePrivateKey).pubKey = some pubKey ∧
        pubKey.type = keyType lib encodePrivateKey ∧
        pubKey.rawPubKey = rawPublicKey lib (keyType lib encodePrivateKey) (secret lib encodePrivateKey) := by
  rw [fromKey] at h ⊢
  generalize hparse : getKeyElement lib.outside encodePrivateKey _ = parsed at h ⊢
  obtain ⟨valid, key⟩ := parsed
  cases valid with
  | false => simp at h
  | true =>
    by_cases hpri : key.keyType = some .keyPrivatekey
    · obtain ⟨hlength, rfl⟩ := getKeyElement_privateKey hparse hpri
      simp [keyType, secret, hlength, PublicKeyV4.init]
    · simp [hpri] at h

/-- The key strings with a secret to sign with: of ed25519, or of SM2 where neither the secret nor its
successor is a multiple of the order. -/
def Usable (encodePrivateKey : Bytes) : Prop :=
  keyType lib encodePrivateKey = signtypeEd25519 ∨
    keyType lib encodePrivateKey = signtypeCfcasm2 ∧
      ¬ lib.cfcaGroup.order ∣ bnBin2bn (secret lib encodePrivateKey) ∧
      ¬ lib.cfcaGroup.order ∣ bnBin2bn (secret lib encodePrivateKey) + 1

/-- The SM2 signatures of a secret are accepted with its public key when it is turned away neither by
`From` nor by the inverse of its successor. -/
theorem verify_sm2_iff {rawPrivKey input : Bytes} {ks : List (Fin lib.cfcaGroup.order)} {sig : Bytes}
    (hsign : (EccSm2.fromKey lib.cfcaGroup EccSm2.init rawPrivKey).sign lib.cfcaGroup lib.sm3 sm2Id input ks =
      some sig) :
    (sig.length = 64 ∧ EccSm2.verify lib.cfcaGroup lib.sm3
        (EccSm2.getPublicKey lib.cfcaGroup (EccSm2.fromKey lib.cfcaGroup EccSm2.init rawPrivKey)) sm2Id input
        sig = some 1) ↔
      ¬ lib.cfcaGroup.order ∣ bnBin2bn rawPrivKey ∧ ¬ lib.cfcaGroup.order ∣ bnBin2bn rawPrivKey + 1 := by
  rw [← EccSm2.fromKey_valid_iff lib.cfcaGroup EccSm2.init]
  cases hvalid : (EccSm2.fromKey lib.cfcaGroup EccSm2.init rawPrivKey).valid with
  | false =>
    rw [EccSm2.sign, hvalid] at hsign
    cases hsign
    simp
  | true =>
    obtain ⟨hdA, hpkey⟩ := EccSm2.fromKey_keys lib.cfcaGroup hvalid
    have hverify := EccSm2.verify_sign_iff lib.cfcaGroup lib.sm3 hvalid (by rw [hpkey, hdA])
      (EccSm2.fromKey_pkey_ne_zero lib.cfcaGroup hvalid) hsign
    rw [hverify, hdA]
    simp [EccSm2.length_sign lib.cfcaGroup lib.sm3 hvalid hsign]

/-- For every key string that `From` accepts, what `Sign` returns is verified with the public key exactly
when the key is usable. -/
theorem sign_verifies_iff_usable (this : PrivateKeyV4) (encodePrivateKey input : Bytes)
    (ks : List (Fin lib.cfcaGroup.order)) (sig : Bytes)
    (hvalid : (fromKey lib this encodePrivateKey).valid = true)
    (hsign : sign lib (fromKey lib this encodePrivateKey) input ks = some sig) :
    verify lib input sig (getEncPublicKey (fromKey lib this encodePrivateKey)) = some true ↔
      Usable lib encodePrivateKey := by
  obtain ⟨hlength, htype, hpriv, pubKey, hpub, hpubtype, hraw⟩ := fromKey_valid lib hvalid
  rw [sign, getRawPublicKey, htype, hpriv, hpub, Option.map_some, Option.getD_some, hraw, rawPublicKey] at hsign
  rw [getEncPublicKey, hpub, Option.map_some, Option.getD_some, verify_getEncPublicKey, hpubtype, hraw,
    rawPublicKey, Usable]
  by_cases hed : keyType lib encodePrivateKey = signtypeEd25519
  · rw [if_pos hed, if_pos hed] at hsign
    obtain rfl := Option.some_inj.mp hsign
    simp [hed, lib.ed25519.length_sign, lib.ed25519.signOpen_sign _ _ hlength]
  · rw [if_neg hed] at hsign ⊢
    by_cases hsm2 : keyType lib encodePrivateKey = signtypeCfcasm2
    · rw [if_pos hsm2] at hsign ⊢
      rw [← verify_sm2_iff lib hsign]
      have hne : signtypeCfcasm2 ≠ signtypeEd25519 := by decide
      by_cases hsig : sig.length = 64 <;> simp [hsm2, hne, hsig]
    · rw [if_neg hsm2] at hsign
      cases hsign
      simp [hed, hsm2]

/-- The ed25519 public key of the key string in the unit tests. -/
def testPublicKey : Bytes :=
  hexStringToBin "0f5135077ca76bb06a29b23e86f1678209c8344f8855f0dd6c6fb254c2e6b3d4".toList

/-- Its signature of the text `hello0`. -/
def testSignature : Bytes :=
  hexStringToBin ("816ec0be19d6fbb7912611974140b2f89863b5d333f31d82b2ecfa3e81be8690".toList ++
    "764e24836066f97349618ce6e9a63731df52b0809a2868289a90070963cd320e".toList)

/-- What ed25519 answers for the key string and the text. -/
def testEd25519 : Ed25519 where
  publickey _ := testPublicKey
  sign _ _ _ := testSignature
  signOpen _ _ RS := if RS = testSignature then 0 else -1
  length_publickey _ := by decide +kernel
  length_sign _ _ _ := by decide +kernel
  signOpen_sign _ _ _ := if_pos rfl

/-- The libraries for the key string and the text. -/
def testLibraries : KeyLibraries (ZMod 5) where
  cfcaGroup := EccSm2.groupOfFive
  sm3 := EccSm2.zeroDigest
  sha256 _ := hexStringToBin "98a1a4a4cd2c21b05b0dfb35b8e762fe243ff524042beb9e3d1c6cc6c5858acc".toList
  ed25519 := testEd25519
  outside _ := -1

/-- The key string of the unit tests is accepted, and its signature of `hello0` is verified. -/
theorem sign_verifies_iff_usable_hello0 :
    (fromKey testLibraries {} (bytes "priSPKn3KaXzKKnPg5DBdST9BLERM9x9XdX1effgkmDfNNW575")).valid = true ∧
      verify testLibraries (bytes "hello0") testSignature (getEncPublicKey
        (fromKey testLibraries {} (bytes "priSPKn3KaXzKKnPg5DBdST9BLERM9x9XdX1effgkmDfNNW575"))) = some true := by
  have hvalid : (fromKey testLibraries {}
      (bytes "priSPKn3KaXzKKnPg5DBdST9BLERM9x9XdX1effgkmDfNNW575")).valid = true := by decide +kernel
  have hsign : sign testLibraries (fromKey testLibraries {}
      (bytes "priSPKn3KaXzKKnPg5DBdST9BLERM9x9XdX1effgkmDfNNW575")) (bytes "hello0") [] =
        some testSignature := by decide +kernel
  exact ⟨hvalid, (sign_verifies_iff_usable testLibraries {} _ _ [] _ hvalid hsign).mpr
    (.inl (by decide +kernel))⟩

/-- A key string of the type 3, RSA, is accepted. It signs with the empty string, which is not verified. -/
theorem sign_of_rsa_rejected :
    (fromKey testLibraries {} (bytes "priQApwCY7K2LUt4Zvoyu9PhUWrDhgmVASJeuZM31V9LMt6Ywr")).valid = true ∧
      sign testLibraries (fromKey testLibraries {}
        (bytes "priQApwCY7K2LUt4Zvoyu9PhUWrDhgmVASJeuZM31V9LMt6Ywr")) (bytes "hello0") [] = some [] ∧
      verify testLibraries (bytes "hello0") [] (getEncPublicKey (fromKey testLibraries {}
        (bytes "priQApwCY7K2LUt4Zvoyu9PhUWrDhgmVASJeuZM31V9LMt6Ywr"))) = some false := by
  decide +kernel

end PrivateKeyV4

end CrosschainAgent
