import CrosschainAgent.Main.Configure

/-!
# Encrypted keys in the configuration file

A configuration that is accepted with its private keys in plain is read just so when they are encrypted: the
same sections, the same addresses, the same table.
-/

namespace CrosschainAgent

open Strings KeypairUtils ConfigureBase

namespace Strings

/-- Text of seven bits is read back from its bytes. -/
theorem chars_utf8 {text : Text} (h : ∀ c ∈ text, c.toNat < 0x80) : chars (utf8 text) = text := by
  induction text with
  | nil => rfl
  | cons c text ih =>
    obtain ⟨hc, htext⟩ := List.forall_mem_cons.mp h
    have hbyte : String.utf8EncodeChar c = [UInt8.ofNat c.toNat] := if_pos (Nat.le_of_lt_succ hc)
    have hread : Char.ofNat (UInt8.ofNat c.toNat).toNat = c := by
      rw [UInt8.toNat_ofNat', Nat.mod_eq_of_lt (by omega), Char.ofNat_toNat]
    have hcons : chars (utf8 (c :: text)) =
        (String.utf8EncodeChar c).map (fun byte => Char.ofNat byte.toNat) ++ chars (utf8 text) := by
      simp [chars, utf8]
    rw [hcons, hbyte, ih htext, List.map_singleton, hread, List.singleton_append]

/-- Hexadecimal text has seven bits and no `p`. -/
theorem mem_binToHexString {value : Bytes} {c : Char} (h : c ∈ binToHexString value) :
    c.toNat < 0x80 ∧ UInt8.ofNat c.toNat ≠ 0x70 := by
  have hdigits : ∀ n < 16, (hexDigit (UInt8.ofNat n)).toNat < 0x80 ∧
      UInt8.ofNat (hexDigit (UInt8.ofNat n)).toNat ≠ 0x70 := by
    decide
  obtain ⟨item, -, hc⟩ := List.mem_flatMap.mp h
  rw [(byte_halves item).1, (byte_halves item).2] at hc
  have hlt := item.toNat_lt
  cases List.mem_pair.mp hc with
  | inl hhigh => exact hhigh ▸ hdigits _ (by omega)
  | inr hlow => exact hlow ▸ hdigits _ (by omega)

end Strings

variable {Point : Type} [AddCommGroup Point] (AES : Bytes → Equiv.Perm Aes.Block) (lib : KeyLibraries Point)

namespace LayerConfigure

/-- A ciphertext is not taken for a key. -/
theorem not_pri_utf8_binToHexString (value : Bytes) : ¬privateKeyPrefix <+: utf8 (binToHexString value) := by
  have hpri : privateKeyPrefix = 0x70 :: [0x72, 0x69] := by decide +kernel
  rw [hpri]
  cases htext : binToHexString value with
  | nil => exact fun h => absurd (List.prefix_nil.mp h) (List.cons_ne_nil _ _)
  | cons c rest =>
    obtain ⟨hseven, hp⟩ := mem_binToHexString (htext ▸ List.mem_cons_self : c ∈ binToHexString value)
    have hbyte : utf8 (c :: rest) = UInt8.ofNat c.toNat :: utf8 rest := by
      rw [utf8, List.flatMap_cons, ← utf8]
      exact congrArg (· ++ utf8 rest) (if_pos (Nat.le_of_lt_succ hseven))
    rw [hbyte, List.cons_prefix_cons]
    exact fun h => hp h.1.symm

/-- A ciphertext stands for what is decrypted from it. -/
theorem plainKey_binToHexString (value : Bytes) :
    plainKey AES (utf8 (binToHexString value)) =
      Aes.hexDecrypto AES (binToHexString value) Aes.getDataSecuretKey := by
  rw [plainKey, if_neg (not_pri_utf8_binToHexString value), chars_utf8 fun c hc => (mem_binToHexString hc).1]

end LayerConfigure

namespace Json

/-- The object with one member changed. -/
def mapMember (key : String) (change : Json → Json) : Json → Json
  | .obj members => .obj (members.map fun m => if m.1 = key.toList then (m.1, change m.2) else m)
  | j => j

/-- A changed member is looked up changed, the others as before. -/
theorem lookup_mapMember (key : String) (change : Json → Json) (members : List (Text × Json)) (other : Text) :
    (members.map fun m => if m.1 = key.toList then (m.1, change m.2) else m).lookup other =
      if other = key.toList then (members.lookup other).map change else members.lookup other := by
  induction members with
  | nil => simp
  | cons m members ih =>
    obtain ⟨name, j⟩ := m
    rw [List.map_cons]
    by_cases hname : other = name
    · subst hname
      by_cases hkey : other = key.toList
      · simp [hkey]
      · simp [hkey]
    · have hne : (other == name) = false := by simpa using hname
      by_cases hkey : name = key.toList
      · rw [if_pos hkey, List.lookup_cons, List.lookup_cons, hne, ih]
      · rw [if_neg hkey, List.lookup_cons, List.lookup_cons, hne, ih]

/-- Changing a member neither adds nor removes one. -/
@[simp]
theorem isMember_mapMember (key : String) (change : Json → Json) (j : Json) (other : Text) :
    (j.mapMember key change).isMember other = j.isMember other := by
  cases j with
  | obj members =>
    rw [mapMember, isMember, isMember, lookup_mapMember]
    by_cases hother : other = key.toList
    · rw [if_pos hother, Option.isSome_map]
    · rw [if_neg hother]
  | _ => rfl

/-- The other members are what they were. -/
theorem get_mapMember_of_ne {key : String} {change : Json → Json} {j : Json} {other : Text}
    (h : other ≠ key.toList) : (j.mapMember key change).get other = j.get other := by
  cases j with
  | obj members => rw [mapMember, get, get, lookup_mapMember, if_neg h]
  | _ => rfl

/-- The changed member. -/
theorem get_mapMember_self {key : String} {change : Json → Json} {j : Json}
    (h : j.isMember key.toList = some true) :
    (j.mapMember key change).get key.toList = (j.get key.toList).map change := by
  cases j with
  | obj members =>
    obtain ⟨value, hvalue⟩ := Option.isSome_iff_exists.mp (Option.some_inj.mp h)
    rw [mapMember, get, get, lookup_mapMember, if_pos rfl, hvalue]
    rfl
  | _ => cases h

end Json

namespace ConfigureBase

variable {α : Type} (read : Json → Option α) {key other : String} {change : Json → Json} {value : Json} {old : α}

/-- A value of another name is read as before. -/
theorem getValue_mapMember_of_ne (h : other.toList ≠ key.toList) :
    getValue read (value.mapMember key change) other old = getValue read value other old := by
  rw [getValue, getValue, Json.isMember_mapMember, Json.get_mapMember_of_ne h]

/-- A value that is read stands in its member, or is the old one. -/
theorem getValue_eq_some {a : α} :
    getValue read value key old = some a ↔
      value.isMember key.toList = some false ∧ old = a ∨
        value.isMember key.toList = some true ∧ ∃ j, value.get key.toList = some j ∧ read j = some a := by
  rw [getValue]
  cases value.isMember key.toList with
  | none => simp
  | some member => cases member <;> simp [Option.bind_eq_some_iff]

end ConfigureBase

/-- The section of a layer with its key encrypted, if it stands there in plain and holds no zero byte. -/
def encryptKey (value : Json) : Json :=
  value.mapMember "private_key" fun
    | .str text =>
      if privateKeyPrefix <+: utf8 text ∧ 0 ∉ utf8 text then
        .str (Aes.cryptoHex AES (utf8 text) Aes.getDataSecuretKey)
      else .str text
    | j => j

/-- The configuration with the keys of both layers encrypted. -/
def encryptKeys (values : Json) : Json :=
  (values.mapMember "layer1" (encryptKey AES)).mapMember "layer2" (encryptKey AES)

namespace LayerConfigure

/-- What an accepted layer is made of. -/
theorem load_eq_true {value : Json} {gPubToAddress table : Bytes → Option Bytes}
    {this layer : LayerConfigure} :
    this.load AES lib value gPubToAddress = some (true, layer, table) ↔
      ∃ read topics, this.readValues AES value = some read ∧
        (PrivateKeyV4.fromKey lib {} read.privateKey).valid = true ∧
        readTopics value { read with
          agentAddress :=
            ((PrivateKeyV4.fromKey lib {} read.privateKey).getEncAddress lib {} gPubToAddress).1 } =
          some topics ∧
        layer = topics.withDefaults ∧
        table = ((PrivateKeyV4.fromKey lib {} read.privateKey).getEncAddress lib {} gPubToAddress).2 := by
  rw [load]
  simp only [Option.bind_eq_bind, Option.bind_eq_some_iff, Bool.not_eq_true, Option.pure_def]
  constructor
  · intro h
    obtain ⟨read, hread, h⟩ := h
    cases hvalid : (PrivateKeyV4.fromKey lib {} read.privateKey).valid with
    | false =>
      rw [if_pos hvalid] at h
      cases h
    | true =>
      rw [if_neg (by rw [hvalid]; decide), Option.bind_eq_some_iff] at h
      obtain ⟨topics, htopics, h⟩ := h
      cases h
      exact ⟨read, topics, hread, hvalid, htopics, rfl, rfl⟩
  · intro h
    obtain ⟨read, topics, hread, hvalid, htopics, rfl, rfl⟩ := h
    refine ⟨read, hread, ?_⟩
    rw [if_neg (by rw [hvalid]; decide), htopics]
    rfl

/-- A text that is accepted stands for the same key when it is encrypted. -/
theorem plainKey_encryptKey {value : Json} {old text : Bytes}
    (h : getValue Json.asBytes value "private_key" old = some text)
    (hvalid : (PrivateKeyV4.fromKey lib {} (plainKey AES text)).valid = true) :
    ∃ stored, getValue Json.asBytes (encryptKey AES value) "private_key" old = some stored ∧
      plainKey AES stored = plainKey AES text := by
  simp only [encryptKey, getValue_eq_some, Json.isMember_mapMember] at h ⊢
  cases h with
  | inl hold => exact ⟨text, .inl hold, rfl⟩
  | inr hmember =>
    obtain ⟨hmember, j, hget, hread⟩ := hmember
    rw [Json.get_mapMember_self hmember, hget]
    have hchanged : ∀ j', Json.asBytes j' = some text →
        ∃ stored, (value.isMember "private_key".toList = some false ∧ old = stored ∨
          value.isMember "private_key".toList = some true ∧
            ∃ j, some j' = some j ∧ Json.asBytes j = some stored) ∧ plainKey AES stored = plainKey AES text :=
      fun j' hj' => ⟨text, .inr ⟨hmember, j', rfl, hj'⟩, rfl⟩
    cases j with
    | str plain =>
      obtain rfl : utf8 plain = text := Option.some_inj.mp hread
      rw [Option.map_some]
      dsimp only
      split
      next hplain =>
        rw [plainKey, if_pos hplain.1] at hvalid
        refine ⟨_, .inr ⟨hmember, _, rfl, rfl⟩, ?_⟩
        rw [Aes.cryptoHex, plainKey_binToHexString, ← Aes.cryptoHex,
          PrivateKeyV4.hexDecrypto_accepted_text lib AES hvalid hplain.2, plainKey, if_pos hplain.1]
      next => exact hchanged _ hread
    | _ => exact hchanged _ hread

/-- The other members do not change. -/
theorem getValue_encryptKey {α : Type} (read : Json → Option α) {value : Json} (key : String) (old : α)
    (h : key.toList ≠ "private_key".toList) :
    getValue read (encryptKey AES value) key old = getValue read value key old :=
  getValue_mapMember_of_ne read h

/-- A layer with an encrypted key is read as the layer with the key itself. -/
theorem readValues_encryptKey {value : Json} {this layer : LayerConfigure}
    (h : this.readValues AES value = some layer)
    (hvalid : (PrivateKeyV4.fromKey lib {} layer.privateKey).valid = true) :
    this.readValues AES (encryptKey AES value) = some layer := by
  rw [readValues] at h ⊢
  rw [getValue_encryptKey AES _ "http_endpoint" _ (by decide),
    getValue_encryptKey AES _ "ws_endpoint" _ (by decide),
    getValue_encryptKey AES _ "cross_contract" _ (by decide),
    getValue_encryptKey AES _ "fee_limit" _ (by decide),
    getValue_encryptKey AES _ "gas_price" _ (by decide)]
  simp only [Option.bind_eq_bind, Option.bind_eq_some_iff, Option.pure_def, Option.some_inj] at h ⊢
  obtain ⟨http, hhttp, ws, hws, contract, hcontract, fee, hfee, gas, hgas, text, htext, rfl⟩ := h
  obtain ⟨stored, hstored, hplain⟩ := plainKey_encryptKey AES lib htext hvalid
  exact ⟨http, hhttp, ws, hws, contract, hcontract, fee, hfee, gas, hgas, stored, hstored, by rw [hplain]⟩

/-- The topics do not depend on the key. -/
theorem readTopics_encryptKey {value : Json} {this : LayerConfigure} :
    readTopics (encryptKey AES value) this = readTopics value this := by
  have hne : "cross_topic".toList ≠ "private_key".toList := by decide
  rw [readTopics, readTopics, encryptKey, Json.isMember_mapMember, Json.get_mapMember_of_ne hne]

/-- An accepted section of a layer is read just so with its key encrypted. -/
theorem load_encryptKey {value : Json} {gPubToAddress table : Bytes → Option Bytes}
    {this layer : LayerConfigure}
    (h : this.load AES lib value gPubToAddress = some (true, layer, table)) :
    this.load AES lib (encryptKey AES value) gPubToAddress = some (true, layer, table) := by
  rw [load_eq_true] at h ⊢
  obtain ⟨read, topics, hread, hvalid, htopics, hlayer, htable⟩ := h
  exact ⟨read, topics, readValues_encryptKey AES lib hread hvalid, hvalid,
    by rw [readTopics_encryptKey, htopics], hlayer, htable⟩

end LayerConfigure

/-- A layer 1 document loads exactly when its layer does. -/
theorem Layer1Configure.load_eq_true {value : Json} {gPubToAddress table : Bytes → Option Bytes}
    {this conf : Layer1Configure} :
    this.load AES lib value gPubToAddress = some (true, conf, table) ↔
      ∃ layer, this.toLayerConfigure.load AES lib value gPubToAddress = some (true, layer, table) ∧
        conf = ofLayer layer := by
  rw [load]
  simp only [Option.bind_eq_bind, Option.bind_eq_some_iff, Option.pure_def]
  constructor
  · intro h
    obtain ⟨⟨ret, layer, table'⟩, hload, h⟩ := h
    cases ret with
    | false => cases h
    | true =>
      cases h
      exact ⟨layer, hload, rfl⟩
  · intro h
    obtain ⟨layer, hload, rfl⟩ := h
    exact ⟨_, hload, rfl⟩

/-- A layer 2 document loads exactly when its layer and its own id do. -/
theorem Layer2Configure.load_eq_true {value : Json} {gPubToAddress table : Bytes → Option Bytes}
    {this conf : Layer2Configure} :
    this.load AES lib value gPubToAddress = some (true, conf, table) ↔
      ∃ layer layer2Id, getValue Json.asInt64 value "layer2_id" this.layer2Id = some layer2Id ∧
        this.toLayerConfigure.load AES lib value gPubToAddress = some (true, layer, table) ∧
        conf = ⟨layer, layer2Id⟩ := by
  rw [load]
  simp only [Option.bind_eq_bind, Option.bind_eq_some_iff, Option.pure_def]
  constructor
  · intro h
    obtain ⟨layer2Id, hid, ⟨ret, layer, table'⟩, hload, h⟩ := h
    cases h
    exact ⟨layer, layer2Id, hid, hload, rfl⟩
  · intro h
    obtain ⟨layer, layer2Id, hid, hload, rfl⟩ := h
    exact ⟨layer2Id, hid, _, hload, rfl⟩

namespace Main.Configure

/-- What an accepted configuration is made of. -/
theorem loadFromJson_eq_true {values : Json} {gPubToAddress table : Bytes → Option Bytes}
    {this conf : Configure} :
    this.loadFromJson AES lib values gPubToAddress = some (true, conf, table) ↔
      hasSections values = some true ∧ ∃ logger layer1 layer2 webserver between,
        values.get "logger".toList = some logger ∧ values.get "layer1".toList = some layer1 ∧
        values.get "layer2".toList = some layer2 ∧ values.get "webserver".toList = some webserver ∧
        this.loggerConfigure.load logger = some conf.loggerConfigure ∧
        this.layer1Configure.load AES lib layer1 gPubToAddress =
          some (true, conf.layer1Configure, between) ∧
        this.layer2Configure.load AES lib layer2 between = some (true, conf.layer2Configure, table) ∧
        this.webserverConfigure.load webserver = some conf.webserverConfigure := by
  rw [loadFromJson]
  simp only [Option.bind_eq_bind, Option.bind_eq_some_iff, Option.pure_def]
  constructor
  · intro h
    obtain ⟨found, hfound, h⟩ := h
    cases found with
    | false => cases h
    | true =>
      rw [if_neg (by decide)] at h
      simp only [Option.bind_eq_some_iff] at h
      obtain ⟨logger, hlogger, loggerConfigure, hlog, layer1, hlayer1, ⟨ret1, layer1Configure, between⟩,
        hload1, h⟩ := h
      cases ret1 with
      | false => cases h
      | true =>
        dsimp only at h
        rw [if_neg (by decide)] at h
        simp only [Option.bind_eq_some_iff] at h
        obtain ⟨layer2, hlayer2, ⟨ret2, layer2Configure, after⟩, hload2, h⟩ := h
        cases ret2 with
        | false => cases h
        | true =>
          dsimp only at h
          rw [if_neg (by decide)] at h
          simp only [Option.bind_eq_some_iff] at h
          obtain ⟨webserver, hwebserver, webserverConfigure, hweb, h⟩ := h
          cases h
          exact ⟨hfound, logger, layer1, layer2, webserver, between, hlogger, hlayer1, hlayer2, hwebserver,
            hlog, hload1, hload2, hweb⟩
  · intro h
    obtain ⟨hfound, logger, layer1, layer2, webserver, between, hlogger, hlayer1, hlayer2, hwebserver, hlog,
      hload1, hload2, hweb⟩ := h
    refine ⟨true, hfound, ?_⟩
    rw [if_neg (by decide), hlogger, Option.bind_some, hlog, Option.bind_some, hlayer1, Option.bind_some,
      hload1, Option.bind_some]
    dsimp only
    rw [if_neg (by decide), hlayer2, Option.bind_some, hload2, Option.bind_some]
    dsimp only
    rw [if_neg (by decide), hwebserver, Option.bind_some, hweb, Option.bind_some]

/-- All four sections are there. -/
theorem hasSections_eq_true {values : Json} :
    hasSections values = some true ↔
      ∀ key ∈ ["logger", "layer1", "webserver", "layer2"], values.isMember key.toList = some true := by
  rw [hasSections]
  generalize ["logger", "layer1", "webserver", "layer2"] = keys
  induction keys with
  | nil => simp
  | cons key keys ih =>
    rw [List.forall_mem_cons, ← ih, List.allM]
    cases values.isMember key.toList with
    | none => simp
    | some found => cases found <;> simp

/-- The sections are there as before. -/
theorem hasSections_encryptKeys (values : Json) : hasSections (encryptKeys AES values) = hasSections values := by
  have hmember : ∀ key, (encryptKeys AES values).isMember key = values.isMember key := by
    intro key
    rw [encryptKeys, Json.isMember_mapMember, Json.isMember_mapMember]
  rw [hasSections, hasSections]
  simp only [hmember]

/-- A configuration that is accepted is read just so with its keys encrypted. -/
theorem loadFromJson_encryptKeys {values : Json} {gPubToAddress table : Bytes → Option Bytes}
    {this conf : Configure}
    (h : this.loadFromJson AES lib values gPubToAddress = some (true, conf, table)) :
    this.loadFromJson AES lib (encryptKeys AES values) gPubToAddress = some (true, conf, table) := by
  rw [loadFromJson_eq_true] at h ⊢
  obtain ⟨hfound, logger, layer1, layer2, webserver, between, hlogger, hlayer1, hlayer2, hwebserver, hlog,
    hload1, hload2, hweb⟩ := h
  have hother : ∀ key : Text, key ≠ "layer1".toList → key ≠ "layer2".toList →
      (encryptKeys AES values).get key = values.get key := by
    intro key h1 h2
    rw [encryptKeys, Json.get_mapMember_of_ne h2, Json.get_mapMember_of_ne h1]
  have hmember : ∀ key ∈ ["logger", "layer1", "webserver", "layer2"], values.isMember key.toList = some true :=
    hasSections_eq_true.mp hfound
  have hfirst : (encryptKeys AES values).get "layer1".toList = some (encryptKey AES layer1) := by
    rw [encryptKeys, Json.get_mapMember_of_ne (by decide), Json.get_mapMember_self (hmember "layer1" (by simp)),
      hlayer1, Option.map_some]
  have hsecond : (encryptKeys AES values).get "layer2".toList = some (encryptKey AES layer2) := by
    rw [encryptKeys, Json.get_mapMember_self, Json.get_mapMember_of_ne (by decide), hlayer2, Option.map_some]
    rw [Json.isMember_mapMember]
    exact hmember "layer2" (by simp)
  refine ⟨by rw [hasSections_encryptKeys, hfound], logger, encryptKey AES layer1, encryptKey AES layer2,
    webserver, between, ?_, hfirst, hsecond, ?_, hlog, ?_, ?_, hweb⟩
  · rw [hother _ (by decide) (by decide), hlogger]
  · rw [hother _ (by decide) (by decide), hwebserver]
  · rw [Layer1Configure.load_eq_true] at hload1 ⊢
    obtain ⟨layer, hlayer, hconf⟩ := hload1
    exact ⟨layer, LayerConfigure.load_encryptKey AES lib hlayer, hconf⟩
  · rw [Layer2Configure.load_eq_true] at hload2 ⊢
    obtain ⟨layer, layer2Id, hid, hlayer, hconf⟩ := hload2
    refine ⟨layer, layer2Id, ?_, LayerConfigure.load_encryptKey AES lib hlayer, hconf⟩
    rw [LayerConfigure.getValue_encryptKey AES _ "layer2_id" _ (by decide), hid]

/-- A section with the key string of the unit tests in plain. -/
def sampleSection : Json :=
  .obj [("gas_price".toList, .int 7),
    ("private_key".toList, .str "priSPKn3KaXzKKnPg5DBdST9BLERM9x9XdX1effgkmDfNNW575".toList)]

/-- A configuration of such sections. -/
def sampleValues : Json :=
  .obj [("logger".toList, .obj []), ("layer1".toList, sampleSection), ("layer2".toList, sampleSection),
    ("webserver".toList, .obj [])]

/-- A configuration before it is loaded, with zeros in its memory. -/
def blank : Configure where
  layer1Configure := { feeLimit := 0, gasPrice := 0 }
  layer2Configure := { feeLimit := 0, gasPrice := 0, layer2Id := 0 }

/-- The sample is accepted, and so it is with the ciphertext of the unit tests in the place of the key. -/
theorem loadFromJson_encryptKeys_sample :
    (∃ conf table,
      blank.loadFromJson Aes.testAES PrivateKeyV4.testLibraries sampleValues (fun _ => none) =
        some (true, conf, table) ∧
      blank.loadFromJson Aes.testAES PrivateKeyV4.testLibraries (encryptKeys Aes.testAES sampleValues)
        (fun _ => none) = some (true, conf, table)) ∧
    (do (← (← (encryptKeys Aes.testAES sampleValues).get "layer2".toList).get "private_key".toList).asString) =
      some ("5542d66dd4cd2055fc95d64e31dae3ed344d96e046bf681cbe4efc01f5552bcf" ++
        "110ea9771b130bb155ac1c53782faa15cd668b1bf514f6080f60521ac1353245").toList := by
  constructor
  · have hcheck : (blank.loadFromJson Aes.testAES PrivateKeyV4.testLibraries sampleValues
        (fun _ => none)).any (·.1) = true := by
      decide +kernel
    obtain ⟨⟨ret, conf, table⟩, hload, hret⟩ := (Option.any_eq_true _ _).mp hcheck
    obtain rfl : ret = true := hret
    exact ⟨conf, table, hload, loadFromJson_encryptKeys Aes.testAES PrivateKeyV4.testLibraries hload⟩
  · decide +kernel

end Main.Configure

end CrosschainAgent
