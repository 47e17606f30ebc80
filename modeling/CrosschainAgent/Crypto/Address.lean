import CrosschainAgent.Crypto.Base58Buffers
import CrosschainAgent.Crypto.PrivateKey
import CrosschainAgent.Library.Memo

/-!
# Addresses

An address is the type of the signatures, the encoding and 22 bytes in base 58, behind the prefix and the
chain code. `DecodeAddress` reads the bytes back. `GetKeyElement` drops 2 bytes once more, although the two
characters in front are gone by then. The address of a public key is kept in a table under the bytes of the
key alone, and the address that is found there has the type of the first key that was asked with these bytes.
-/

namespace CrosschainAgent

open BigNum Strings SignatureType KeypairUtils

/-- `AddressPrefix`, with the values that `Initialize` sets. -/
structure AddressPrefix where
  chainCode : Bytes := []
  addressPrefix : Bytes := AddressPrefix.didBid

/-- What `%s` reads of `std::string::c_str`. -/
def cStr (text : Bytes) : Bytes := text.takeWhile (· ≠ 0)

/-- A text without a zero is its own C string. -/
theorem cStr_of_not_mem {text : Bytes} (h : 0 ∉ text) : cStr text = text := by
  rw [cStr, List.takeWhile_eq_self_iff]
  intro c hc
  rw [decide_eq_true_eq]
  intro heq
  exact h (heq ▸ hc)

/-- The first byte of a string can be told from what `%s` reads. -/
theorem cStr_cons_inj {first other : UInt8} {rest others : Bytes}
    (h : cStr (first :: rest) = cStr (other :: others)) : first = other := by
  by_cases hfirst : first = 0
  · by_cases hother : other = 0
    · rw [hfirst, hother]
    · simp [cStr, hfirst, hother] at h
  · by_cases hother : other = 0
    · simp [cStr, hfirst, hother] at h
    · simp only [cStr, ne_eq, hfirst, hother, not_false_eq_true, decide_true,
        List.takeWhile_cons_of_pos] at h
      exact (List.cons.inj h).1

/-- `String::kMaxStringLen`. -/
def kMaxStringLen : ℕ := 1024 * 1024

/-- `String::AppendFormat`: buffers of 1, 2, 4 and so on up to 128 times `kMaxStringLen` are tried, and what
does not fit into the last one is not appended. -/
def appendFormat (org formatted : Bytes) : Bytes :=
  if formatted.length < kMaxStringLen * 128 then org ++ formatted else org

namespace AddressPrefix

/-- `Encode`. -/
def encode (this : AddressPrefix) (address : Bytes) : Bytes :=
  if this.chainCode = [] then this.addressPrefix ++ address
  else appendFormat this.addressPrefix (cStr this.chainCode ++ 0x3A :: cStr address)

/-- The address is appended to the prefix: it is always without a chain code, and otherwise where it fits
into the buffers. -/
def Appends (this : AddressPrefix) (address : Bytes) : Prop :=
  this.chainCode = [] ∨ (cStr this.chainCode ++ 0x3A :: cStr address).length < kMaxStringLen * 128

instance (this : AddressPrefix) (address : Bytes) : Decidable (this.Appends address) :=
  inferInstanceAs (Decidable (_ ∨ _))

/-- A string without a colon, read from its end. -/
theorem reverse_ne_colon {address : Bytes} (haddress : 0x3A ∉ address) :
    ∀ c ∈ address.reverse, (decide (c ≠ 0x3A)) = true := by
  intro c hc
  rw [decide_eq_true_eq]
  intro heq
  exact haddress (heq ▸ List.mem_reverse.mp hc)

/-- What follows the last colon is read back. -/
theorem decode_append_colon {front address : Bytes} (haddress : 0x3A ∉ address) :
    decode (front ++ 0x3A :: address) = address := by
  rw [decode, List.reverse_append, List.reverse_cons, List.append_assoc, List.singleton_append,
    List.takeWhile_append_of_pos (reverse_ne_colon haddress), List.takeWhile_cons_of_neg (by decide),
    List.append_nil, List.reverse_reverse]

/-- Without a colon all of it is read back. -/
theorem decode_of_not_mem {address : Bytes} (haddress : 0x3A ∉ address) : decode address = address := by
  rw [decode, List.takeWhile_eq_self_iff.mpr (reverse_ne_colon haddress), List.reverse_reverse]

/-- What stands between the prefix and an address: the chain code and a colon, or nothing. -/
def front (this : AddressPrefix) : Bytes :=
  if this.chainCode = [] then [] else cStr this.chainCode ++ [0x3A]

/-- What `Encode` appends: with a chain code only up to the first zero byte. -/
def appended (this : AddressPrefix) (address : Bytes) : Bytes :=
  if this.chainCode = [] then address else cStr address

/-- `Encode` of an address that is appended. -/
theorem encode_of_appends {this : AddressPrefix} {address : Bytes} (h : this.Appends address) :
    this.encode address = this.addressPrefix ++ this.front ++ this.appended address := by
  by_cases hchain : this.chainCode = []
  · simp [encode, front, appended, hchain]
  · have hfits := h.resolve_left hchain
    rw [encode, if_neg hchain, appendFormat, if_pos hfits]
    simp [front, appended, hchain]

/-- `Encode` of another address leaves the prefix. -/
theorem encode_of_not_appends {this : AddressPrefix} {address : Bytes} (h : ¬this.Appends address) :
    this.encode address = this.addressPrefix := by
  rw [Appends, not_or] at h
  rw [encode, if_neg h.1, appendFormat, if_neg h.2]

/-- Addresses that start with different bytes are encoded to different strings, if one of them is appended. -/
theorem head_eq_of_encode_eq {this : AddressPrefix} {first other : UInt8} {rest others : Bytes}
    (h : this.encode (first :: rest) = this.encode (other :: others)) (hfirst : this.Appends (first :: rest)) :
    first = other := by
  rw [encode_of_appends hfirst] at h
  by_cases hother : this.Appends (other :: others)
  · rw [encode_of_appends hother, List.append_cancel_left_eq, appended, appended] at h
    by_cases hchain : this.chainCode = []
    · rw [if_pos hchain, if_pos hchain] at h
      exact (List.cons.inj h).1
    · rw [if_neg hchain, if_neg hchain] at h
      exact cStr_cons_inj h
  · have hchain : this.chainCode ≠ [] := fun hchain => hother (.inl hchain)
    rw [encode_of_not_appends hother, front, if_neg hchain] at h
    simp at h

end AddressPrefix

variable (outside : UInt8 → Int8)

/-- The characters of base 58 are neither colons nor zero bytes. -/
theorem not_mem_Base58_encoded (bin : Bytes) : 0x3A ∉ Base58.encoded bin ∧ 0 ∉ Base58.encoded bin := by
  have hdictionary : 0x3A ∉ Base58.kBase58Dictionary ∧ 0 ∉ Base58.kBase58Dictionary := by decide +kernel
  exact ⟨fun h => hdictionary.1 (Base58.mem_encoded h), fun h => hdictionary.2 (Base58.mem_encoded h)⟩

namespace KeypairUtils

/-- `EncodeAddress`. The exception of `Encode`, for `2 ^ 31` zero bytes and more, is left out. -/
def encodeAddress (addressPrefix : AddressPrefix) (stype : SignatureType) (etype : EncodeType)
    (address : Bytes) : Bytes :=
  addressPrefix.encode (stype :: etype :: Base58.encoded address)

/-- The signature types that there are addresses for. -/
def AddressType (type : SignatureType) : Prop := type = signtypeEd25519 ∨ type = signtypeCfcasm2

/-- An address without its prefix holds neither a colon nor a zero byte. -/
theorem not_mem_address {type : SignatureType} (htype : AddressType type) (raw : Bytes) :
    0x3A ∉ type :: encodetypeBase58 :: Base58.encoded raw ∧
      0 ∉ type :: encodetypeBase58 :: Base58.encoded raw := by
  have hbase58 := not_mem_Base58_encoded raw
  cases htype with
  | inl hed => simp [hed, signtypeEd25519, encodetypeBase58, hbase58]
  | inr hsm2 => simp [hsm2, signtypeCfcasm2, encodetypeBase58, hbase58]

section Appended

variable {chainCode raw : Bytes} {type : SignatureType} (htype : AddressType type)
  (happends : AddressPrefix.Appends { chainCode := chainCode }
    (type :: encodetypeBase58 :: Base58.encoded raw))

include htype happends

/-- The encoded address: a string that starts with the prefix and ends in a colon, and the address. -/
theorem encodeAddress_eq :
    ∃ front, AddressPrefix.didBid <+: front ++ [0x3A] ∧
      encodeAddress { chainCode := chainCode } type encodetypeBase58 raw =
        front ++ 0x3A :: type :: encodetypeBase58 :: Base58.encoded raw := by
  have hname : AddressPrefix.didBid = bytes "did:bid" ++ [0x3A] := by decide +kernel
  rw [encodeAddress, AddressPrefix.encode_of_appends happends, AddressPrefix.front, AddressPrefix.appended]
  by_cases hchain : chainCode = []
  · exact ⟨bytes "did:bid", by rw [hname], by simp [hchain, hname]⟩
  · refine ⟨AddressPrefix.didBid ++ cStr chainCode, ?_, ?_⟩
    · rw [List.append_assoc]
      exact List.prefix_append _ _
    · simp [hchain, cStr_of_not_mem (not_mem_address htype raw).2]

/-- The bytes of an address are read back from it. -/
theorem decodeAddress_encodeAddress (hraw : raw.length < 2 ^ 30) :
    decodeAddress outside (encodeAddress { chainCode := chainCode } type encodetypeBase58 raw) = raw := by
  obtain ⟨front, -, hencoded⟩ := encodeAddress_eq htype happends
  have hlength : ¬(front ++ 0x3A :: type :: encodetypeBase58 :: Base58.encoded raw).length < 2 := by
    simp only [List.length_append, List.length_cons]
    omega
  rw [decodeAddress, hencoded, if_neg hlength, AddressPrefix.decode_append_colon (not_mem_address htype raw).1,
    List.drop_succ_cons, List.drop_succ_cons, List.drop_zero, Base58.decode_encoded outside (by omega)]

/-- `GetKeyElement` accepts an address and returns its bytes without the first two. -/
theorem getKeyElement_encodeAddress (hraw : raw.length = 22) (out : KeyElement) :
    getKeyElement outside (encodeAddress { chainCode := chainCode } type encodetypeBase58 raw) out =
      (true, ⟨some .keyAddress, type, encodetypeBase58, raw.drop 2⟩) := by
  obtain ⟨front, hfront, hencoded⟩ := encodeAddress_eq htype happends
  have hstarts : AddressPrefix.didBid <+:
      front ++ 0x3A :: type :: encodetypeBase58 :: Base58.encoded raw := by
    rw [List.append_cons]
    exact hfront.trans (List.prefix_append _ _)
  have hcolon := (not_mem_address htype raw).1
  have hbuff : decodeAddress outside (type :: encodetypeBase58 :: Base58.encoded raw) = raw := by
    rw [decodeAddress, if_neg (by simp), AddressPrefix.decode_of_not_mem hcolon, List.drop_succ_cons,
      List.drop_succ_cons, List.drop_zero, Base58.decode_encoded outside (by omega)]
  rw [hencoded, getKeyElement, if_pos hstarts]
  simp [AddressPrefix.decode_append_colon hcolon, hbuff, hraw]

end Appended

/-- An address that is accepted is returned as 20 bytes. -/
theorem length_rawData_of_address {encodeKey : Bytes} {out key : KeyElement}
    (h : getKeyElement outside encodeKey out = (true, key)) (hkey : key.keyType = some .keyAddress) :
    key.rawData.length = 20 := by
  rw [getKeyElement] at h
  split at h
  next =>
    dsimp only at h
    split at h
    next => simp at h
    next hlength =>
      obtain ⟨-, rfl⟩ := Prod.mk.inj h
      rw [List.length_drop, not_not.mp hlength]
  next =>
    split at h
    next =>
      dsimp only at h
      split at h
      next => simp at h
      next =>
        obtain ⟨-, rfl⟩ := Prod.mk.inj h
        simp at hkey
    next => simp at h

/-- What is asked of an address: that `DecodeAddress` and `GetKeyElement` return its bytes, and `GetKeyElement`
its type too. -/
def AddressRoundTrips (addressPrefix : AddressPrefix) (type : SignatureType) (raw : Bytes) : Prop :=
  decodeAddress outside (encodeAddress addressPrefix type encodetypeBase58 raw) = raw ∧
    ∀ out, getKeyElement outside (encodeAddress addressPrefix type encodetypeBase58 raw) out =
      (true, ⟨some .keyAddress, type, encodetypeBase58, raw⟩)

/-- Two addresses that `GetKeyElement` does not tell apart. -/
def Confused (addressPrefix : AddressPrefix) (type : SignatureType) (raw other : Bytes) : Prop :=
  ∀ out, getKeyElement outside (encodeAddress addressPrefix type encodetypeBase58 raw) out =
    getKeyElement outside (encodeAddress addressPrefix type encodetypeBase58 other) out

/-- Addresses that differ in their first two bytes only are confused. -/
theorem confused_of_drop {chainCode raw other : Bytes} {type : SignatureType} (htype : AddressType type)
    (hraw : raw.length = 22) (hother : other.length = 22) (hdrop : other.drop 2 = raw.drop 2)
    (happends : AddressPrefix.Appends { chainCode := chainCode }
        (type :: encodetypeBase58 :: Base58.encoded raw) ↔
      AddressPrefix.Appends { chainCode := chainCode }
        (type :: encodetypeBase58 :: Base58.encoded other)) :
    Confused outside { chainCode := chainCode } type raw other := by
  intro out
  by_cases h : AddressPrefix.Appends { chainCode := chainCode }
      (type :: encodetypeBase58 :: Base58.encoded raw)
  · rw [getKeyElement_encodeAddress outside htype h hraw,
      getKeyElement_encodeAddress outside htype (happends.mp h) hother, hdrop]
  · rw [encodeAddress, encodeAddress, AddressPrefix.encode_of_not_appends h,
      AddressPrefix.encode_of_not_appends (mt happends.mpr h)]

/-- No address makes the round trip, whatever the chain code, and it is confused with every other one that
differs from it in the first two bytes only. -/
theorem not_addressRoundTrips {chainCode raw : Bytes} {type : SignatureType} (htype : AddressType type)
    (hraw : raw.length = 22) :
    ¬AddressRoundTrips outside { chainCode := chainCode } type raw ∧
      ∀ other : Bytes, other.length = 22 → other.drop 2 = raw.drop 2 →
        (AddressPrefix.Appends { chainCode := chainCode }
            (type :: encodetypeBase58 :: Base58.encoded raw) ↔
          AddressPrefix.Appends { chainCode := chainCode }
            (type :: encodetypeBase58 :: Base58.encoded other)) →
        Confused outside { chainCode := chainCode } type raw other := by
  constructor
  · intro h
    have hlength := length_rawData_of_address outside (h.2 ⟨none, 0, 0, []⟩) rfl
    rw [hraw] at hlength
    omega
  · intro other hother hdrop happends
    exact confused_of_drop outside htype hraw hother hdrop happends

/-- The address of 22 bytes of the value 1, and the one that starts with two of the value 2. -/
theorem not_addressRoundTrips_ones :
    ¬AddressRoundTrips (fun _ => -1) { chainCode := [] } signtypeEd25519 (List.replicate 22 1) ∧
      Confused (fun _ => -1) { chainCode := [] } signtypeEd25519 (List.replicate 22 1)
        (2 :: 2 :: List.replicate 20 1) := by
  have hones := @not_addressRoundTrips (fun _ => -1) [] (List.replicate 22 1) _ (.inl rfl) rfl
  exact ⟨hones.1, hones.2 _ rfl rfl ⟨fun _ => .inl rfl, fun _ => .inl rfl⟩⟩

/-- Of the 22 bytes of the value 1 `GetKeyElement` returns 20. -/
theorem not_addressRoundTrips_rawData :
    ¬AddressRoundTrips (fun _ => -1) {} signtypeEd25519 (List.replicate 22 1) := by
  have hraw_data : (getKeyElement (fun _ => -1)
      (encodeAddress {} signtypeEd25519 encodetypeBase58 (List.replicate 22 1))
      ⟨none, 0, 0, []⟩).2.rawData = List.replicate 20 1 := by decide +kernel
  intro h
  rw [h.2] at hraw_data
  exact absurd hraw_data (by decide)

end KeypairUtils

namespace PublicKeyV4

variable {Point : Type} [AddCommGroup Point] (lib : KeyLibraries Point) (addressPrefix : AddressPrefix)

/-- The address that `GetEncAddress` computes where it finds none. -/
def computedAddress (this : PublicKeyV4) : Bytes :=
  encodeAddress addressPrefix this.type encodetypeBase58
    ((calcHash lib.sha256 lib.sm3 this.rawPubKey this.type).drop 10)

/-- `GetEncAddress`, with what is in `g_pub_to_address`: what it returns, and what is there afterwards. -/
def getEncAddress (gPubToAddress : Bytes → Option Bytes) (this : PublicKeyV4) :
    Bytes × (Bytes → Option Bytes) :=
  match gPubToAddress this.rawPubKey with
  | none =>
    let strResult := computedAddress lib addressPrefix this
    (strResult, Function.update gPubToAddress this.rawPubKey (some strResult))
  | some strResult => (strResult, gPubToAddress)

/-- What a sequence of calls returns. -/
def encAddresses : (Bytes → Option Bytes) → List PublicKeyV4 → List Bytes
  | _, [] => []
  | gPubToAddress, this :: rest =>
    (getEncAddress lib addressPrefix gPubToAddress this).1 ::
      encAddresses (getEncAddress lib addressPrefix gPubToAddress this).2 rest

/-- `GetEncAddress` keeps what it computes under the bytes of the key. -/
theorem getEncAddress_eq_call (gPubToAddress : Bytes → Option Bytes) (this : PublicKeyV4) :
    getEncAddress lib addressPrefix gPubToAddress this =
      Memo.call rawPubKey (computedAddress lib addressPrefix) gPubToAddress this := by
  rw [getEncAddress, Memo.call]
  cases gPubToAddress this.rawPubKey with
  | none => rfl
  | some strResult => rfl

/-- The address cache is the memoised function over the raw keys. -/
theorem encAddresses_eq_run (gPubToAddress : Bytes → Option Bytes) (calls : List PublicKeyV4) :
    encAddresses lib addressPrefix gPubToAddress calls =
      Memo.run rawPubKey (computedAddress lib addressPrefix) gPubToAddress calls := by
  induction calls generalizing gPubToAddress with
  | nil => rfl
  | cons this rest ih => rw [encAddresses, Memo.run, getEncAddress_eq_call, ih]

/-- The address of the key is appended to the prefix. -/
def Appended (this : PublicKeyV4) : Prop :=
  addressPrefix.Appends (this.type :: encodetypeBase58 ::
    Base58.encoded ((calcHash lib.sha256 lib.sm3 this.rawPubKey this.type).drop 10))

/-- Of one public key, the address tells the type, except where the addresses are not appended at all. -/
theorem computedAddress_eq_iff {this other : PublicKeyV4} (hraw : this.rawPubKey = other.rawPubKey) :
    computedAddress lib addressPrefix this = computedAddress lib addressPrefix other ↔
      this.type = other.type ∨
        ¬Appended lib addressPrefix this ∧ ¬Appended lib addressPrefix other := by
  constructor
  · intro h
    by_cases hthis : Appended lib addressPrefix this
    · exact .inl (AddressPrefix.head_eq_of_encode_eq h hthis)
    · by_cases hother : Appended lib addressPrefix other
      · exact .inl (AddressPrefix.head_eq_of_encode_eq h.symm hother).symm
      · exact .inr ⟨hthis, hother⟩
  · intro h
    cases h with
    | inl htype => rw [computedAddress, computedAddress, hraw, htype]
    | inr hneither =>
      rw [computedAddress, computedAddress, encodeAddress, encodeAddress,
        AddressPrefix.encode_of_not_appends hneither.1, AddressPrefix.encode_of_not_appends hneither.2]

/-- From an empty table on, every call returns the address of its key exactly when no two calls were made for
the same bytes with different types, except where neither address is appended to the prefix. -/
theorem encAddresses_transparent_iff (calls : List PublicKeyV4) :
    encAddresses lib addressPrefix (fun _ => none) calls = calls.map (computedAddress lib addressPrefix) ↔
      calls.Pairwise fun this other => this.rawPubKey = other.rawPubKey →
        this.type = other.type ∨
          ¬Appended lib addressPrefix this ∧ ¬Appended lib addressPrefix other := by
  rw [encAddresses_eq_run, Memo.run_empty_eq_map]
  apply List.Pairwise.iff
  intro this other
  exact forall_congr' fun hraw => computedAddress_eq_iff lib addressPrefix hraw

/-- A key of ed25519 and one of SM2 with the same bytes: the second is given the address of the first. -/
theorem not_encAddresses_transparent :
    encAddresses PrivateKeyV4.testLibraries {} (fun _ => none)
        [⟨true, signtypeEd25519, [1], []⟩, ⟨true, signtypeCfcasm2, [1], []⟩] ≠
      [⟨true, signtypeEd25519, [1], []⟩, ⟨true, signtypeCfcasm2, [1], []⟩].map
        (computedAddress PrivateKeyV4.testLibraries {}) := by
  decide +kernel

end PublicKeyV4

end CrosschainAgent
