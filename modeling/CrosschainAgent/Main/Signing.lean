import CrosschainAgent.Common.Transaction
import CrosschainAgent.Main.EncryptedKeys

/-!
# The signer of the transactions

A transaction is sent from `agent_address_`, which `Load` took from the private key when it read the
configuration, and signed with the private key, from which the public key is computed again. The node takes
the address from the public key and checks the signature with it.
-/

namespace CrosschainAgent

open Strings SignatureType KeypairUtils Protocol Transaction

/-- `PublicKeyV4(encode_pub_key)`. -/
def PublicKeyV4.ofText {Point : Type} [AddCommGroup Point] (lib : KeyLibraries Point) (encodePubKey : Text) :
    PublicKeyV4 :=
  let (ret, key) := getPublicKeyElement encodePubKey
    { signType := signtypeEd25519, encodeType := 0, rawData := [] }
  { valid := ret && key.keyType = some .keyPublickey
    type := key.signType
    rawPubKey := key.rawData
    rawAddress := (calcHash lib.sha256 lib.sm3 key.rawData key.signType).drop 10 }

namespace LayerConfigure

/-- What the transactions of a layer read of its configuration. -/
def transactionConfigure (this : LayerConfigure) : TransactionConfigure where
  agentAddress := chars this.agentAddress
  feeLimit := this.feeLimit
  gasPrice := this.gasPrice
  crossContract := this.crossContract

/-- The transaction of one operation. -/
def transaction (this : LayerConfigure) (input : Text) (amount : Int64) : Protocol.Transaction :=
  addTransactionOperation this.transactionConfigure input amount (init this.transactionConfigure)

end LayerConfigure

variable {Point : Type} [AddCommGroup Point] (lib : KeyLibraries Point)

/-- What `sendTransactionToLayer1` and `sendTransactionToLayer2` submit for an input, where `Sign` is what the
private key of the configuration signs with. -/
def LayerConfigure.signedItem (SerializeToString : Protocol.Transaction → Bytes) (sign : Bytes → Bytes)
    (this : LayerConfigure) (input : Text) (amount maxSeq millis : Int64) : Option SubmitItem :=
  submitItem SerializeToString (PrivateKeyV4.fromKey lib {} this.privateKey).getEncPublicKey sign maxSeq millis
    (this.transaction input amount)

namespace PrivateKeyV4

/-- The public key of an accepted key string, which is computed for its type and its secret. -/
def publicKey (encodePrivateKey : Bytes) : PublicKeyV4 :=
  PublicKeyV4.init lib { valid := true, type := keyType lib encodePrivateKey } (keyType lib encodePrivateKey)
    (rawPublicKey lib (keyType lib encodePrivateKey) (secret lib encodePrivateKey))

/-- A valid key has its public key. -/
theorem fromKey_pubKey {this : PrivateKeyV4} {encodePrivateKey : Bytes}
    (h : (fromKey lib this encodePrivateKey).valid = true) :
    (fromKey lib this encodePrivateKey).pubKey = some (publicKey lib encodePrivateKey) := by
  obtain ⟨-, htype, hpriv, -⟩ := fromKey_valid lib h
  have hderived := derived_fromKey lib h
  rwa [Derived, htype, hpriv] at hderived

/-- What is signed with a usable key is verified with its public key. -/
theorem verify_of_usable {this : PrivateKeyV4} {encodePrivateKey input sig : Bytes}
    {ks : List (Fin lib.cfcaGroup.order)} (hvalid : (fromKey lib this encodePrivateKey).valid = true)
    (hsign : sign lib (fromKey lib this encodePrivateKey) input ks = some sig)
    (husable : Usable lib encodePrivateKey) :
    PublicKeyV4.verify lib input sig (fromKey lib this encodePrivateKey).getEncPublicKey = some true := by
  obtain ⟨hlength, htype, hpriv, -⟩ := fromKey_valid lib hvalid
  have hpub := fromKey_pubKey lib hvalid
  have hraw : (fromKey lib this encodePrivateKey).getRawPublicKey =
      rawPublicKey lib (keyType lib encodePrivateKey) (secret lib encodePrivateKey) := by
    rw [getRawPublicKey, hpub]
    rfl
  rw [sign, htype, hpriv, hraw] at hsign
  rw [getEncPublicKey, hpub, Option.map_some, Option.getD_some, PublicKeyV4.verify_getEncPublicKey, publicKey,
    PublicKeyV4.init]
  dsimp only
  cases husable with
  | inl hed =>
    rw [if_pos hed, rawPublicKey, if_pos hed, Option.some_inj] at hsign
    rw [if_neg (by rw [← hsign, lib.ed25519.length_sign]; decide), if_pos hed, rawPublicKey, if_pos hed, ← hsign,
      lib.ed25519.signOpen_sign _ _ hlength]
    rfl
  | inr hsm2 =>
    obtain ⟨hsm2, hinside⟩ := hsm2
    have hne : keyType lib encodePrivateKey ≠ signtypeEd25519 := by
      rw [hsm2]
      decide
    rw [if_neg hne, if_pos hsm2] at hsign
    obtain ⟨hsig, hverified⟩ := (verify_sm2_iff lib hsign).mpr hinside
    rw [if_neg (not_not.mpr hsig), if_neg hne, if_pos hsm2, rawPublicKey, if_neg hne, if_pos hsm2, hverified]
    rfl

/-- The public keys of usable keys have the length of their type. -/
theorem length_rawPublicKey {encodePrivateKey : Bytes} (h : Usable lib encodePrivateKey) :
    PublicKeyFormat (keyType lib encodePrivateKey) (publicKey lib encodePrivateKey).rawPubKey := by
  rw [publicKey, PublicKeyV4.init]
  dsimp only
  cases h with
  | inl hed => exact .inl ⟨hed, by rw [rawPublicKey, if_pos hed, lib.ed25519.length_publickey]⟩
  | inr hsm2 =>
    obtain ⟨hsm2, hinside, -⟩ := hsm2
    have hne : keyType lib encodePrivateKey ≠ signtypeEd25519 := by
      rw [hsm2]
      decide
    refine .inr ⟨hsm2, ?_⟩
    rw [rawPublicKey, if_neg hne, if_pos hsm2, EccSm2.getPublicKey,
      if_pos ((EccSm2.fromKey_valid_iff lib.cfcaGroup EccSm2.init _).mpr hinside)]
    simp

/-- Usable keys with the same public key have the same address. -/
theorem computedAddress_publicKey {key other : Bytes} (hkey : Usable lib key) (hother : Usable lib other)
    (hraw : (publicKey lib key).rawPubKey = (publicKey lib other).rawPubKey) :
    PublicKeyV4.computedAddress lib {} (publicKey lib key) =
      PublicKeyV4.computedAddress lib {} (publicKey lib other) := by
  have htype : keyType lib key = keyType lib other := by
    have hlength := length_rawPublicKey lib hkey
    have hlength' := length_rawPublicKey lib hother
    rw [hraw] at hlength
    rcases hlength with ⟨hk, hl⟩ | ⟨hk, hl⟩ <;> rcases hlength' with ⟨ho, hl'⟩ | ⟨ho, hl'⟩
    · rw [hk, ho]
    · omega
    · omega
    · rw [hk, ho]
  rw [PublicKeyV4.computedAddress, PublicKeyV4.computedAddress, hraw]
  exact congrArg (fun type => encodeAddress {} type encodetypeBase58
    ((calcHash lib.sha256 lib.sm3 (publicKey lib other).rawPubKey type).drop 10)) htype

/-- The address that the text of the public key of an accepted key stands for. -/
theorem ofText_getEncPublicKey {this : PrivateKeyV4} {encodePrivateKey : Bytes}
    (h : (fromKey lib this encodePrivateKey).valid = true) :
    PublicKeyV4.computedAddress lib {}
        (PublicKeyV4.ofText lib (fromKey lib this encodePrivateKey).getEncPublicKey) =
      PublicKeyV4.computedAddress lib {} (publicKey lib encodePrivateKey) := by
  rw [getEncPublicKey, fromKey_pubKey lib h, Option.map_some, Option.getD_some, PublicKeyV4.ofText,
    PublicKeyV4.getPublicKeyElement_getEncPublicKey]
  rfl

end PrivateKeyV4

variable (AES : Bytes → Equiv.Perm Aes.Block)

namespace LayerConfigure

/-- What an accepted layer holds: a valid key, the address that `GetEncAddress` gave for it, and the fees. -/
theorem load_accepted {value : Json} {gPubToAddress table : Bytes → Option Bytes}
    {this layer : LayerConfigure} (h : this.load AES lib value gPubToAddress = some (true, layer, table)) :
    (PrivateKeyV4.fromKey lib {} layer.privateKey).valid = true ∧
      (layer.agentAddress, table) = Memo.call PublicKeyV4.rawPubKey (PublicKeyV4.computedAddress lib {})
        gPubToAddress (PrivateKeyV4.publicKey lib layer.privateKey) ∧
      1 ≤ layer.gasPrice ∧ 20000 ≤ layer.feeLimit := by
  rw [load_eq_true] at h
  obtain ⟨read, topics, -, hvalid, htopics, rfl, rfl⟩ := h
  have hkept : topics.privateKey = read.privateKey ∧ topics.agentAddress =
      ((PrivateKeyV4.fromKey lib {} read.privateKey).getEncAddress lib {} gPubToAddress).1 := by
    rw [readTopics] at htopics
    simp only [Option.bind_eq_bind, Option.bind_eq_some_iff, Option.pure_def] at htopics
    obtain ⟨member, -, htopics⟩ := htopics
    cases member with
    | false =>
      cases htopics
      exact ⟨rfl, rfl⟩
    | true =>
      rw [if_pos rfl] at htopics
      simp only [Option.bind_eq_some_iff] at htopics
      obtain ⟨_, -, _, -, _, -, _, -, htopics⟩ := htopics
      cases htopics
      exact ⟨rfl, rfl⟩
  have haddress : (PrivateKeyV4.fromKey lib {} read.privateKey).getEncAddress lib {} gPubToAddress =
      Memo.call PublicKeyV4.rawPubKey (PublicKeyV4.computedAddress lib {}) gPubToAddress
        (PrivateKeyV4.publicKey lib read.privateKey) := by
    rw [PrivateKeyV4.getEncAddress, PrivateKeyV4.fromKey_pubKey lib hvalid, Option.map_some, Option.getD_some,
      PublicKeyV4.getEncAddress_eq_call]
  have hleast : ∀ {least value : Int64}, least ≤ if value < least then least else value := by
    intro least value
    split
    next => exact Int64.le_refl _
    next hle => exact Int64.not_lt.mp hle
  rw [withDefaults]
  dsimp only
  rw [hkept.1, hkept.2, ← haddress]
  exact ⟨hvalid, rfl, hleast, hleast⟩

/-- What is submitted for an accepted layer: the transaction as it is serialized, signed by the account that it
is sent from, and with the fees at least. -/
theorem signedItem_accepted {layer : LayerConfigure}
    (hvalid : (PrivateKeyV4.fromKey lib {} layer.privateKey).valid = true)
    (husable : PrivateKeyV4.Usable lib layer.privateKey)
    (haddress : layer.agentAddress =
      PublicKeyV4.computedAddress lib {} (PrivateKeyV4.publicKey lib layer.privateKey))
    (SerializeToString : Protocol.Transaction → Bytes) {sign : Bytes → Bytes}
    (hsign : ∀ input, ∃ ks,
      PrivateKeyV4.sign lib (PrivateKeyV4.fromKey lib {} layer.privateKey) input ks = some (sign input))
    (input : Text) (amount maxSeq millis : Int64) :
    let sent := prepare maxSeq millis (layer.transaction input amount)
    ∃ item, layer.signedItem lib SerializeToString sign input amount maxSeq millis = some item ∧
      hexStringToBin item.transactionBlob = SerializeToString sent ∧
      PublicKeyV4.verify lib (hexStringToBin item.transactionBlob) (hexStringToBin item.signData)
        item.publicKey = some true ∧
      sent.sourceAddress = chars
        (PublicKeyV4.computedAddress lib {} (PublicKeyV4.ofText lib item.publicKey)) := by
  intro sent
  obtain ⟨tranBlob, hblob, hserialized⟩ := Option.map_eq_some_iff.mp
    (hexStringToBin_getTransactionBlob SerializeToString maxSeq millis (layer.transaction input amount))
  have hitem : layer.signedItem lib SerializeToString sign input amount maxSeq millis =
      some ⟨tranBlob, (PrivateKeyV4.fromKey lib {} layer.privateKey).getEncPublicKey,
        binToHexString (sign (hexStringToBin tranBlob))⟩ := by
    rw [signedItem, submitItem, hblob]
    rfl
  obtain ⟨ks, hks⟩ := hsign (hexStringToBin tranBlob)
  have hsource : sent.sourceAddress = chars layer.agentAddress := by
    have hset : ∀ transaction : Protocol.Transaction,
        (prepare maxSeq millis transaction).sourceAddress = transaction.sourceAddress := by
      intro transaction
      rw [prepare]
      split <;> rfl
    exact hset _
  refine ⟨_, hitem, hserialized, ?_, ?_⟩
  · rw [hexStringToBin_binToHexString]
    exact PrivateKeyV4.verify_of_usable lib hvalid hks husable
  · rw [hsource, haddress, PrivateKeyV4.ofText_getEncPublicKey lib hvalid]

end LayerConfigure

namespace Main.Configure

/-- From an empty table on, the address that an accepted configuration holds for a layer is that of the public
key of the layer, if both keys are usable. -/
theorem agentAddress_eq {values : Json} {table : Bytes → Option Bytes} {this conf : Configure}
    (h : this.loadFromJson AES lib values (fun _ => none) = some (true, conf, table))
    (husable : ∀ l, PrivateKeyV4.Usable lib (conf.layer l).privateKey) (l : Layer) :
    (PrivateKeyV4.fromKey lib {} (conf.layer l).privateKey).valid = true ∧
      (conf.layer l).agentAddress = PublicKeyV4.computedAddress lib {}
        (PrivateKeyV4.publicKey lib (conf.layer l).privateKey) ∧
      1 ≤ (conf.layer l).gasPrice ∧ 20000 ≤ (conf.layer l).feeLimit := by
  rw [loadFromJson_eq_true] at h
  obtain ⟨-, logger, layer1, layer2, webserver, between, -, -, -, -, -, hload1, hload2, -⟩ := h
  rw [Layer1Configure.load_eq_true] at hload1
  rw [Layer2Configure.load_eq_true] at hload2
  obtain ⟨first, hfirst, hconf1⟩ := hload1
  obtain ⟨second, layer2Id, -, hsecond, hconf2⟩ := hload2
  have hlayer1 : conf.layer .layer1 = first := by rw [layer, hconf1]; rfl
  have hlayer2 : conf.layer .layer2 = second := by rw [layer, hconf2]
  obtain ⟨hvalid1, hcall1, hfees1⟩ := LayerConfigure.load_accepted lib AES hfirst
  obtain ⟨hvalid2, hcall2, hfees2⟩ := LayerConfigure.load_accepted lib AES hsecond
  cases l with
  | layer1 =>
    rw [hlayer1]
    refine ⟨hvalid1, ?_, hfees1⟩
    have haddress := congrArg Prod.fst hcall1
    dsimp only at haddress
    rw [haddress, Memo.call_fst]
    exact Memo.right_empty _
  | layer2 =>
    rw [hlayer2]
    refine ⟨hvalid2, ?_, hfees2⟩
    have haddress := congrArg Prod.fst hcall2
    have hbetween := congrArg Prod.snd hcall1
    dsimp only at haddress hbetween
    rw [haddress, Memo.call_fst, hbetween, Memo.right_call (Memo.right_empty _)]
    refine ⟨Memo.right_empty _, fun hraw => ?_⟩
    exact PrivateKeyV4.computedAddress_publicKey lib (hlayer1 ▸ husable .layer1) (hlayer2 ▸ husable .layer2) hraw

/-- What the agent submits is signed by the account that it is sent from. With every configuration that is
accepted and whose keys can sign, what is submitted to a layer for any input holds the serialized transaction,
a signature of it that is verified with the public key beside it, and as the source of the transaction the
address of that public key; and the fees are not below their least values. -/
theorem submissions_signed {values : Json} {table : Bytes → Option Bytes} {this conf : Configure}
    (h : this.loadFromJson AES lib values (fun _ => none) = some (true, conf, table))
    (husable : ∀ l, PrivateKeyV4.Usable lib (conf.layer l).privateKey) (l : Layer)
    (SerializeToString : Protocol.Transaction → Bytes) {sign : Bytes → Bytes}
    (hsign : ∀ input, ∃ ks,
      PrivateKeyV4.sign lib (PrivateKeyV4.fromKey lib {} (conf.layer l).privateKey) input ks = some (sign input))
    (input : Text) (amount maxSeq millis : Int64) :
    let sent := prepare maxSeq millis ((conf.layer l).transaction input amount)
    (∃ item, (conf.layer l).signedItem lib SerializeToString sign input amount maxSeq millis = some item ∧
      hexStringToBin item.transactionBlob = SerializeToString sent ∧
      PublicKeyV4.verify lib (hexStringToBin item.transactionBlob) (hexStringToBin item.signData)
        item.publicKey = some true ∧
      sent.sourceAddress = chars
        (PublicKeyV4.computedAddress lib {} (PublicKeyV4.ofText lib item.publicKey))) ∧
      1 ≤ sent.gasPrice ∧ 20000 ≤ sent.feeLimit := by
  intro sent
  obtain ⟨hvalid, haddress, hgas, hfee⟩ := agentAddress_eq lib AES h husable l
  have hfees : sent.gasPrice = (conf.layer l).gasPrice ∧ sent.feeLimit = (conf.layer l).feeLimit := by
    have hset : ∀ transaction : Protocol.Transaction,
        (prepare maxSeq millis transaction).gasPrice = transaction.gasPrice ∧
          (prepare maxSeq millis transaction).feeLimit = transaction.feeLimit := by
      intro transaction
      rw [prepare]
      split <;> exact ⟨rfl, rfl⟩
    exact hset _
  rw [hfees.1, hfees.2]
  exact ⟨LayerConfigure.signedItem_accepted lib hvalid (husable l) haddress SerializeToString hsign input amount
    maxSeq millis, hgas, hfee⟩

/-- What is submitted to layer 2 with the configuration of the key string of the unit tests. -/
theorem submissions_signed_sample : ∃ conf table item,
    blank.loadFromJson Aes.testAES PrivateKeyV4.testLibraries sampleValues (fun _ => none) =
      some (true, conf, table) ∧
    (conf.layer .layer2).signedItem PrivateKeyV4.testLibraries (fun _ => bytes "hello0")
      (fun _ => PrivateKeyV4.testSignature) "input".toList 5 200 1 = some item ∧
    PublicKeyV4.verify PrivateKeyV4.testLibraries (hexStringToBin item.transactionBlob)
      (hexStringToBin item.signData) item.publicKey = some true := by
  have hcheck : (blank.loadFromJson Aes.testAES PrivateKeyV4.testLibraries sampleValues
      (fun _ => none)).any (fun loaded => loaded.1 = true ∧
        (loaded.2.1.layer .layer1).privateKey = bytes "priSPKn3KaXzKKnPg5DBdST9BLERM9x9XdX1effgkmDfNNW575" ∧
        (loaded.2.1.layer .layer2).privateKey =
          bytes "priSPKn3KaXzKKnPg5DBdST9BLERM9x9XdX1effgkmDfNNW575") = true := by
    decide +kernel
  obtain ⟨⟨ret, conf, table⟩, hload, hconf⟩ := (Option.any_eq_true _ _).mp hcheck
  obtain ⟨rfl, hkey1, hkey2⟩ : ret = true ∧ _ := of_decide_eq_true hconf
  have hkey : ∀ l, (conf.layer l).privateKey =
      bytes "priSPKn3KaXzKKnPg5DBdST9BLERM9x9XdX1effgkmDfNNW575" := by
    intro l
    cases l with
    | layer1 => exact hkey1
    | layer2 => exact hkey2
  have husable : ∀ l, PrivateKeyV4.Usable PrivateKeyV4.testLibraries (conf.layer l).privateKey := by
    intro l
    rw [hkey]
    exact .inl (by decide +kernel)
  have htype : (PrivateKeyV4.fromKey PrivateKeyV4.testLibraries {}
      (conf.layer .layer2).privateKey).type = signtypeEd25519 := by
    rw [hkey]
    decide +kernel
  have hsign : ∀ input, ∃ ks, PrivateKeyV4.sign PrivateKeyV4.testLibraries (PrivateKeyV4.fromKey
      PrivateKeyV4.testLibraries {} (conf.layer .layer2).privateKey) input ks =
        some PrivateKeyV4.testSignature := by
    intro input
    refine ⟨[], ?_⟩
    rw [PrivateKeyV4.sign, if_pos htype]
    dsimp only [PrivateKeyV4.testLibraries, PrivateKeyV4.testEd25519]
  have hsigned := (submissions_signed PrivateKeyV4.testLibraries Aes.testAES hload husable .layer2
    (fun _ => bytes "hello0") hsign "input".toList 5 200 1).1
  obtain ⟨item, hitem, -, hverified, -⟩ := hsigned
  exact ⟨conf, table, item, hload, hitem, hverified⟩

end Main.Configure

end CrosschainAgent
