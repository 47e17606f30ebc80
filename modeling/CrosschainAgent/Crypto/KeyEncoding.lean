import CrosschainAgent.Crypto.Address

/-!
# The texts of the keys

A private key is written as 37 bytes in base 58. The three bytes in front are chosen so that the text starts
with `pri`, whatever the key, and what `From` reads from the text is the key again, with the public key and
the address that were computed for it. The parser of public keys accepts what has its prefix and its
encoding, of any type and length, so that `Verify` hands the libraries keys of every length.
-/

namespace CrosschainAgent

open BigNum Strings SignatureType KeypairUtils

namespace KeypairUtils

/-- The length that the public keys of a type have. -/
def PublicKeyFormat (type : SignatureType) (payload : Bytes) : Prop :=
  type = signtypeEd25519 ∧ payload.length = 32 ∨ type = signtypeCfcasm2 ∧ payload.length = 65

/-- A text is hexadecimal for the prefix of public keys, a type, the encoding and a payload. -/
def PublicKeyText (encodePubKey : Text) (type : SignatureType) (payload : Bytes) : Prop :=
  hexStringToBin encodePubKey = publicKeyPrefix :: type :: encodetypeBase58 :: payload

/-- The type and the payload of a text are unique. -/
theorem PublicKeyText.unique {encodePubKey : Text} {type type' : SignatureType} {payload payload' : Bytes}
    (h : PublicKeyText encodePubKey type payload) (h' : PublicKeyText encodePubKey type' payload') :
    type = type' ∧ payload = payload' := by
  rw [PublicKeyText, h] at h'
  simpa using h'

/-- What the parser accepts: the prefix and the encoding are looked at, and nothing else. -/
theorem getPublicKeyElement_iff {encodePubKey : Text} {out key : KeyElement} :
    getPublicKeyElement encodePubKey out = (true, key) ↔
      ∃ type payload, PublicKeyText encodePubKey type payload ∧
        key = ⟨some .keyPublickey, type, encodetypeBase58, payload⟩ := by
  constructor
  · intro h
    rw [getPublicKeyElement] at h
    split at h
    next a b c rawData hbuff =>
      by_cases ha : a = publicKeyPrefix
      · by_cases hc : c = encodetypeBase58
        · refine ⟨b, rawData, ?_, ?_⟩
          · rw [PublicKeyText, hbuff, ha, hc]
          · simpa [ha, hc, eq_comm] using h
        · simp [ha, hc] at h
      · simp [ha] at h
    next => simp at h
  · intro h
    obtain ⟨type, payload, htext, rfl⟩ := h
    rw [PublicKeyText] at htext
    simp [getPublicKeyElement, htext]

end KeypairUtils

namespace PublicKeyV4

/-- The key that `Verify` hands to a signature library, with its type, if it gets that far. -/
def libraryKey (signature : Bytes) (encodePublicKey : Text) : Option (SignatureType × Bytes) :=
  let (valid, key) := getPublicKeyElement encodePublicKey { signType := 0, encodeType := 0, rawData := [] }
  if ¬ valid ∨ key.keyType ≠ some .keyPublickey then none
  else if signature.length ≠ 64 then none
  else if key.signType = signtypeEd25519 ∨ key.signType = signtypeCfcasm2 then
    some (key.signType, key.rawData)
  else none

/-- What is asked of the parser at a text: that it accepts the format with its lengths, with the type and the
payload of the text, and that `Verify` hands on only keys of the length of their type. -/
def ParsesExactly (encodePubKey : Text) : Prop :=
  (∀ out key, getPublicKeyElement encodePubKey out = (true, key) ↔
      ∃ type payload, PublicKeyText encodePubKey type payload ∧ PublicKeyFormat type payload ∧
        key = ⟨some .keyPublickey, type, encodetypeBase58, payload⟩) ∧
    ∀ signature key, libraryKey signature encodePubKey = some key → PublicKeyFormat key.1 key.2

variable {Point : Type} [AddCommGroup Point] (lib : KeyLibraries Point)

/-- `Verify` answers with what the library says of the key that it is handed. -/
theorem verify_eq_libraryKey (data signature : Bytes) (encodePublicKey : Text) :
    verify lib data signature encodePublicKey =
      match libraryKey signature encodePublicKey with
      | none => some false
      | some (signType, rawPubkey) =>
        if signType = signtypeEd25519 then some (lib.ed25519.signOpen data rawPubkey signature = 0)
        else (EccSm2.verify lib.cfcaGroup lib.sm3 rawPubkey sm2Id data signature).map (· = 1) := by
  rw [verify, libraryKey]
  generalize getPublicKeyElement encodePublicKey _ = parsed
  obtain ⟨valid, key⟩ := parsed
  by_cases hvalid : ¬valid = true ∨ key.keyType ≠ some .keyPublickey
  · simp only [if_pos hvalid]
  · by_cases hlength : signature.length ≠ 64
    · simp only [if_neg hvalid, if_pos hlength]
    · by_cases hed : key.signType = signtypeEd25519
      · simp only [if_neg hvalid, if_neg hlength, hed, true_or, if_true]
      · by_cases hsm2 : key.signType = signtypeCfcasm2
        · simp only [if_neg hvalid, if_neg hlength, or_true, hsm2, if_true]
        · simp only [if_neg hvalid, if_neg hlength, hed, hsm2, or_self, if_false]

/-- What `Verify` hands on are the type and the payload of the text. -/
theorem PublicKeyText_of_libraryKey {signature : Bytes} {encodePublicKey : Text}
    {key : SignatureType × Bytes} (h : libraryKey signature encodePublicKey = some key) :
    PublicKeyText encodePublicKey key.1 key.2 := by
  rw [libraryKey] at h
  generalize hparse : getPublicKeyElement encodePublicKey _ = parsed at h
  obtain ⟨valid, element⟩ := parsed
  simp only [Option.ite_none_left_eq_some, not_or, not_not] at h
  obtain ⟨⟨rfl, -⟩, -, h⟩ := h
  obtain ⟨type, payload, htext, rfl⟩ := getPublicKeyElement_iff.mp hparse
  simp only [Option.ite_none_right_eq_some, Option.some_inj] at h
  exact h.2 ▸ htext

/-- The parser is exact at a text unless the text has the prefix and the encoding and its payload does not
have the length of its type. -/
theorem parsesExactly_iff (encodePubKey : Text) :
    ParsesExactly encodePubKey ↔
      ¬∃ type payload, PublicKeyText encodePubKey type payload ∧ ¬PublicKeyFormat type payload := by
  constructor
  · intro h hmismatch
    obtain ⟨type, payload, htext, hformat⟩ := hmismatch
    have haccepted := (h.1 ⟨none, 0, 0, []⟩ _).mp (getPublicKeyElement_iff.mpr ⟨type, payload, htext, rfl⟩)
    obtain ⟨type', payload', htext', hformat', -⟩ := haccepted
    obtain ⟨rfl, rfl⟩ := htext.unique htext'
    exact hformat hformat'
  · intro h
    have hformat : ∀ type payload, PublicKeyText encodePubKey type payload →
        PublicKeyFormat type payload := by
      intro type payload htext
      by_contra hformat
      exact h ⟨type, payload, htext, hformat⟩
    constructor
    · intro out key
      rw [getPublicKeyElement_iff]
      constructor
      · intro haccepted
        obtain ⟨type, payload, htext, hkey⟩ := haccepted
        exact ⟨type, payload, htext, hformat type payload htext, hkey⟩
      · intro hexact
        obtain ⟨type, payload, htext, -, hkey⟩ := hexact
        exact ⟨type, payload, htext, hkey⟩
    · intro signature key hkey
      exact hformat key.1 key.2 (PublicKeyText_of_libraryKey hkey)

/-- A text of the prefix, the type of ed25519 and the encoding, without a key. -/
theorem not_parsesExactly : ¬ParsesExactly "b06566".toList := by
  have hkey : libraryKey (List.replicate 64 0) "b06566".toList = some (signtypeEd25519, []) := by
    decide +kernel
  intro h
  have hformat := h.2 _ _ hkey
  simp [PublicKeyFormat, signtypeCfcasm2, signtypeEd25519] at hformat

end PublicKeyV4

namespace PrivateKeyV4

open PublicKeyV4

variable {Point : Type} [AddCommGroup Point] (lib : KeyLibraries Point)

/-- `GetEncPrivateKey`. -/
def getEncPrivateKey (this : PrivateKeyV4) : Bytes :=
  Base58.encoded (24 :: 158 :: 153 :: this.type :: encodetypeBase58 :: this.rawPrivKey)

/-- `GetEncAddress` of a key with a public key. -/
def getEncAddress (addressPrefix : AddressPrefix) (gPubToAddress : Bytes → Option Bytes)
    (this : PrivateKeyV4) : Bytes × (Bytes → Option Bytes) :=
  (this.pubKey.map (PublicKeyV4.getEncAddress lib addressPrefix gPubToAddress)).getD ([], gPubToAddress)

/-- The numbers of 37 bytes that start with 24, 158 and 153 have the same leading digits. -/
theorem bnBin2bn_div {rest : Bytes} (hrest : rest.length = 34) :
    bnBin2bn (24 :: 158 :: 153 :: rest) / 58 ^ 47 = 160991 := by
  have hlt : bnBin2bn rest < 256 ^ 34 := hrest ▸ Base58.bnBin2bn_lt rest
  have hvalue : bnBin2bn (24 :: 158 :: 153 :: rest) = 1613465 * 256 ^ 34 + bnBin2bn rest := by
    simp only [Base58.bnBin2bn_eq_value, List.map_cons, Positional.value_cons, List.length_cons,
      List.length_map, hrest, UInt8.reduceToNat]
    ring
  have hlower : 160991 * 58 ^ 47 ≤ 1613465 * 256 ^ 34 := by norm_num
  have hupper : 1613466 * 256 ^ 34 ≤ 160992 * 58 ^ 47 := by norm_num
  rw [hvalue]
  apply Nat.div_eq_of_lt_le
  · omega
  · omega

/-- The text of a key starts with `pri`. -/
theorem starts_with_privateKeyPrefix {this : PrivateKeyV4} (hraw : this.rawPrivKey.length = 32) :
    privateKeyPrefix <+: this.getEncPrivateKey := by
  have hleading : _ <+: this.getEncPrivateKey := Base58.prefix_encoded (by simp [hraw]) rfl 47
  have hpri : ((Nat.digits 58 160991).reverse.map fun d => Base58.kBase58Dictionary[d]?.getD 0) =
      privateKeyPrefix := by
    norm_num
    decide +kernel
  rw [bnBin2bn_div (by simp [hraw]), hpri] at hleading
  exact hleading

/-- The text of a key is read as its type and its secret. -/
theorem getKeyElement_getEncPrivateKey {this : PrivateKeyV4} (hraw : this.rawPrivKey.length = 32)
    (out : KeyElement) :
    getKeyElement lib.outside this.getEncPrivateKey out =
      (true, ⟨some .keyPrivatekey, this.type, encodetypeBase58, this.rawPrivKey⟩) := by
  have hpri := starts_with_privateKeyPrefix hraw
  have haddress : ¬AddressPrefix.didBid <+: this.getEncPrivateKey := by
    intro haddress
    have hboth := List.prefix_of_prefix_length_le hpri haddress (by decide +kernel)
    exact absurd hboth (by decide +kernel)
  rw [getKeyElement, if_neg haddress, if_pos hpri, getEncPrivateKey]
  simp [Base58.decode_encoded, hraw]

/-- The public key of a key is the one that is computed for its type and its secret. -/
def Derived (this : PrivateKeyV4) : Prop :=
  this.pubKey = some (PublicKeyV4.init lib { valid := true, type := this.type } this.type
    (rawPublicKey lib this.type this.rawPrivKey))

/-- What `From` reads from the text of a key. -/
theorem fromKey_getEncPrivateKey {this : PrivateKeyV4} (hraw : this.rawPrivKey.length = 32)
    (hderived : Derived lib this) (other : PrivateKeyV4) :
    fromKey lib other this.getEncPrivateKey =
      ⟨true, this.type, encodetypeBase58, this.rawPrivKey, this.pubKey⟩ := by
  rw [fromKey, getKeyElement_getEncPrivateKey lib hraw, hderived]
  rfl

/-- A key that `Init` set has the public key of its type and its secret. -/
theorem derived_init (this : PrivateKeyV4) (type : SignatureType) (rawPrivKey : Bytes) :
    Derived lib (this.init lib type rawPrivKey) := rfl

/-- So has a key that `From` accepted. -/
theorem derived_fromKey {this : PrivateKeyV4} {encodePrivateKey : Bytes}
    (h : (fromKey lib this encodePrivateKey).valid = true) : Derived lib (fromKey lib this encodePrivateKey) := by
  rw [fromKey] at h ⊢
  generalize getKeyElement lib.outside encodePrivateKey _ = parsed at h ⊢
  obtain ⟨valid, key⟩ := parsed
  cases valid with
  | false => simp at h
  | true =>
    by_cases hpri : key.keyType = some .keyPrivatekey
    · simp [hpri, Derived]
    · simp [hpri] at h

/-- What the constructor of a new key leaves when it runs to its end. -/
def completed (type : SignatureType) (rawPrivKey rawPubKey : Bytes) : PrivateKeyV4 where
  valid := true
  type := type
  rawPrivKey := rawPrivKey
  pubKey := some (PublicKeyV4.init lib { valid := true, type := type } type rawPubKey)

/-- The constructor of a new key, where `random` is what `GetStrongRandBytes` writes, or nothing, and `dAs` is
what `BN_rand_range` draws; `none` when these run out. -/
def generate (type : SignatureType) (random : Option (Fin 32 → UInt8)) (dAs : List (Fin lib.cfcaGroup.order)) :
    Option PrivateKeyV4 :=
  if type = signtypeEd25519 then
    match random with
    | none => some { type := type, rawPrivKey := List.replicate 32 0 }
    | some random => some (completed lib type (List.ofFn random) (lib.ed25519.publickey (List.ofFn random)))
  else if type = signtypeCfcasm2 then
    (EccSm2.newRandom lib.cfcaGroup EccSm2.init dAs).map fun key =>
      completed lib type key.getSkeyBin (key.getPublicKey lib.cfcaGroup)
  else some (completed lib type [] [])

/-- What `NewRandom` draws is read back from its bytes, with the same public key. -/
theorem rawPublicKey_newRandom {dAs : List (Fin lib.cfcaGroup.order)} {key : EccSm2 Point}
    (h : EccSm2.newRandom lib.cfcaGroup EccSm2.init dAs = some key) :
    rawPublicKey lib signtypeCfcasm2 key.getSkeyBin = key.getPublicKey lib.cfcaGroup := by
  obtain ⟨hvalid, hlt, hdvd, hpkey⟩ := EccSm2.newRandom_keys lib.cfcaGroup h
  have hdA : bnBin2bn key.getSkeyBin = key.dA :=
    bnBin2bn_bn2FixedString (hlt.trans_le lib.cfcaGroup.order_le)
  have hfrom : (EccSm2.fromKey lib.cfcaGroup EccSm2.init key.getSkeyBin).valid = true := by
    rwa [EccSm2.fromKey_valid_iff, hdA]
  have hne : signtypeCfcasm2 ≠ signtypeEd25519 := by decide
  rw [rawPublicKey, if_neg hne, if_pos rfl, EccSm2.getPublicKey, EccSm2.getPublicKey, if_pos hfrom,
    if_pos hvalid, (EccSm2.fromKey_keys _ hfrom).2, hdA, hpkey]

/-- A new key that is valid has the public key of its type and its secret too. -/
theorem derived_generate {type : SignatureType} {random : Option (Fin 32 → UInt8)}
    {dAs : List (Fin lib.cfcaGroup.order)} {key : PrivateKeyV4} (h : generate lib type random dAs = some key)
    (hvalid : key.valid = true) : Derived lib key := by
  unfold generate at h
  by_cases hed : type = signtypeEd25519
  · rw [if_pos hed] at h
    cases random with
    | none =>
      obtain rfl := Option.some_inj.mp h
      cases hvalid
    | some random =>
      obtain rfl := Option.some_inj.mp h
      simp [Derived, completed, rawPublicKey, hed]
  · rw [if_neg hed] at h
    by_cases hsm2 : type = signtypeCfcasm2
    · rw [if_pos hsm2, Option.map_eq_some_iff] at h
      obtain ⟨drawn, hdrawn, rfl⟩ := h
      rw [Derived, completed, hsm2, rawPublicKey_newRandom lib hdrawn]
    · rw [if_neg hsm2] at h
      obtain rfl := Option.some_inj.mp h
      simp [Derived, completed, rawPublicKey, hed, hsm2]

/-- The text of a key with a secret of 32 bytes starts with `pri`, is read as a private key of its type with
its secret, and `From` makes the same key of it: with the same text, the same public key and the same address,
whatever is in the table of the addresses, and after the address of the key was put into it. -/
theorem privateKey_round_trips {this : PrivateKeyV4} (hraw : this.rawPrivKey.length = 32)
    (hderived : Derived lib this) :
    privateKeyPrefix <+: this.getEncPrivateKey ∧
      (∀ out, getKeyElement lib.outside this.getEncPrivateKey out =
        (true, ⟨some .keyPrivatekey, this.type, encodetypeBase58, this.rawPrivKey⟩)) ∧
      ∀ other, (fromKey lib other this.getEncPrivateKey).valid = true ∧
        (fromKey lib other this.getEncPrivateKey).getEncPrivateKey = this.getEncPrivateKey ∧
        getEncPublicKey (fromKey lib other this.getEncPrivateKey) = getEncPublicKey this ∧
        ∀ addressPrefix gPubToAddress,
          getEncAddress lib addressPrefix gPubToAddress (fromKey lib other this.getEncPrivateKey) =
            getEncAddress lib addressPrefix gPubToAddress this ∧
          (getEncAddress lib addressPrefix (getEncAddress lib addressPrefix gPubToAddress this).2
            (fromKey lib other this.getEncPrivateKey)).1 =
            (getEncAddress lib addressPrefix gPubToAddress this).1 := by
  refine ⟨starts_with_privateKeyPrefix hraw, getKeyElement_getEncPrivateKey lib hraw, ?_⟩
  intro other
  rw [fromKey_getEncPrivateKey lib hraw hderived]
  refine ⟨rfl, rfl, rfl, ?_⟩
  intro addressPrefix gPubToAddress
  refine ⟨rfl, ?_⟩
  rw [Derived] at hderived
  simp only [getEncAddress, hderived, Option.map_some, Option.getD_some, getEncAddress_eq_call, Memo.call_call]

/-- A key of ed25519 of 32 bytes of the value 7. -/
theorem privateKey_round_trips_sevens :
    Derived testLibraries (init testLibraries {} signtypeEd25519 (List.replicate 32 7)) ∧
      privateKeyPrefix <+:
        (init testLibraries {} signtypeEd25519 (List.replicate 32 7)).getEncPrivateKey :=
  ⟨rfl, (privateKey_round_trips testLibraries rfl (derived_init testLibraries {} _ _)).1⟩

end PrivateKeyV4

end CrosschainAgent
