import CrosschainAgent.Session.Replay
import CrosschainAgent.System.Formats
import CrosschainAgent.System.Rendering

/-!
# What the parsers make of query data

Three parsers read the data a node returns for a record. What the contract's answer is rendered as,
both copies of `makeCrossTxInfo` read back. On any other data they read tokens by position, and
only an empty text is rejected before that.
-/

namespace CrosschainAgent

open Interaction HttpClient Strings Tokens

section Rendered

variable (bytesText : Bytes → Text) (addressText : Address → Text)

/-- The results of `GetCrossTxInfo1` and `GetCrossTxInfo2`, rendered field by field. -/
def renderInfo1 (b : Bridge.State) (id : Bytes) : Text :=
  let (srcChainId, destChainId, crossTxId, amount, srcBid, destBid) := Bridge.getCrossTxInfo1 b id
  tupleText [decimal srcChainId, decimal destChainId, bytesText crossTxId, decimal amount,
    addressText srcBid, addressText destBid]

def renderInfo2 (b : Bridge.State) (id : Bytes) : Text :=
  let (status, refunded, createTimestamp, executeTimestamp, timeout, errorDesc) :=
    Bridge.getCrossTxInfo2 b id
  tupleText [decimal status, decimal refunded, decimal createTimestamp, decimal executeTimestamp,
    decimal timeout, errorDesc]

/-- The texts of a record can be told apart in a rendering. -/
structure Renderable (r : Bridge.CrossTxInfo) : Prop where
  comma_id : ',' ∉ bytesText r.crossTxId
  comma_src : ',' ∉ addressText r.srcBid
  comma_dest : ',' ∉ addressText r.destBid
  dest_ne_nil : addressText r.destBid ≠ []

variable {bytesText addressText} {b : Bridge.State} {id : Bytes}

/-- The first half of a record is split into its fields. -/
theorem infoList_renderInfo1 (hr : Renderable bytesText addressText (b.crossTxInfo id)) :
    infoList (renderInfo1 bytesText addressText b id) =
      some [decimal (b.crossTxInfo id).srcChainId, decimal (b.crossTxInfo id).destChainId,
        bytesText (b.crossTxInfo id).crossTxId, decimal (b.crossTxInfo id).amount,
        addressText (b.crossTxInfo id).srcBid, addressText (b.crossTxInfo id).destBid] := by
  have hfields : ∀ t ∈ [decimal (b.crossTxInfo id).srcChainId,
      decimal (b.crossTxInfo id).destChainId, bytesText (b.crossTxInfo id).crossTxId,
      decimal (b.crossTxInfo id).amount, addressText (b.crossTxInfo id).srcBid], ',' ∉ t := by
    simp [NodeAbi.comma_decimal, hr.comma_id, hr.comma_src]
  exact NodeAbi.infoList_tupleText_last hfields hr.comma_dest hr.dest_ne_nil

/-- Numbers are read back from their decimal rendering. -/
theorem stol_decimal_of_lt {n : ℕ} (hn : n < 2 ^ 63) : (stol (decimal n)).toInt = n := by
  rw [stol_decimal, saturate_of_lt hn]

/-- The number of a status reads back. -/
theorem stoi_status (status : TxStatusEnum) : (stoi (decimal status.toNat)).toInt = status.toNat := by
  cases status <;> decide

/-- The number of a refund state reads back. -/
theorem stoi_refunded (refunded : TxRefundedEnum) :
    (stoi (decimal refunded.toNat)).toInt = refunded.toNat := by
  cases refunded <;> decide

/-- The tokens of the second rendering; those of the description are the last. -/
theorem infoList_renderInfo2 : infoList (renderInfo2 b id) =
    some ([decimal (b.crossTxInfo id).status.toNat, decimal (b.crossTxInfo id).refunded.toNat,
      decimal (b.crossTxInfo id).createTimestamp, decimal (b.crossTxInfo id).executeTimestamp,
      decimal (b.crossTxInfo id).timeout] ++ getlines ',' (b.crossTxInfo id).errorDesc) :=
  NodeAbi.infoList_tupleText [_, _, _, _, _] (by simp [NodeAbi.comma_decimal]) _

variable (bytesText addressText) in

/-- The message holds the values of the record. -/
structure Protocol.CrossTxInfo.ReadsBack (info : Protocol.CrossTxInfo) (r : Bridge.CrossTxInfo) :
    Prop where
  crosstxid : info.crosstxid = bytesText r.crossTxId
  amount : info.amount.toInt = r.amount
  srcbid : info.srcbid = addressText r.srcBid
  destbid : info.destbid = addressText r.destBid
  status : info.status.toInt = r.status.toNat
  refunded : info.refunded.toInt = r.refunded.toNat
  createtimestamp : info.createtimestamp.toInt = r.createTimestamp
  executetimestamp : info.executetimestamp.toInt = r.executeTimestamp
  timeout : info.timeout.toInt = r.timeout

/-- The numbers of a record that fit an `int64`. -/
structure Bridge.CrossTxInfo.FitsInt64 (r : Bridge.CrossTxInfo) : Prop where
  amount : r.amount < 2 ^ 63
  createTimestamp : r.createTimestamp < 2 ^ 63
  executeTimestamp : r.executeTimestamp < 2 ^ 63
  timeout : r.timeout < 2 ^ 63

/-- Both copies of `makeCrossTxInfo` read a rendered record back, whatever its error description. -/
theorem makeCrossTxInfo_reads_back (hr : Renderable bytesText addressText (b.crossTxInfo id))
    (hfits : (b.crossTxInfo id).FitsInt64) : ∃ info : Protocol.CrossTxInfo,
      (∀ h, Handle.makeCrossTxInfo h (renderInfo1 bytesText addressText b id) (renderInfo2 b id) =
        some (some info)) ∧
      info.ReadsBack bytesText addressText (b.crossTxInfo id) := by
  have hne : ¬(renderInfo1 bytesText addressText b id = [] ∨ renderInfo2 b id = []) := by
    simp [renderInfo1, renderInfo2, tupleText]
  let r := b.crossTxInfo id
  let info : Protocol.CrossTxInfo :=
    { crosstxid := bytesText r.crossTxId
      amount := stol (decimal r.amount)
      srcbid := addressText r.srcBid
      destbid := addressText r.destBid
      status := stoi (decimal r.status.toNat)
      refunded := stoi (decimal r.refunded.toNat)
      createtimestamp := stol (decimal r.createTimestamp)
      executetimestamp := stol (decimal r.executeTimestamp)
      timeout := stol (decimal r.timeout)
      errordesc := ((getlines ',' r.errorDesc)[0]?).getD [] }
  have hcarries : info.ReadsBack bytesText addressText r :=
    { crosstxid := rfl
      amount := stol_decimal_of_lt hfits.amount
      srcbid := rfl
      destbid := rfl
      status := stoi_status r.status
      refunded := stoi_refunded r.refunded
      createtimestamp := stol_decimal_of_lt hfits.createTimestamp
      executetimestamp := stol_decimal_of_lt hfits.executeTimestamp
      timeout := stol_decimal_of_lt hfits.timeout }
  refine ⟨info, fun h => ?_, hcarries⟩
  rw [Handle.makeCrossTxInfo, if_neg hne, infoList_renderInfo1 hr, infoList_renderInfo2]
  cases h <;> rfl

/-- A record whose error description holds commas and ends with one. -/
def describedState : Bridge.State :=
  { Bridge.deploy 0 0 0 with
    crossTxInfo := fun _ => { Formats.sourceRecord with errorDesc := "a,b,".toList } }

/-- A record whose description has commas and brackets reads back. -/
theorem makeCrossTxInfo_reads_back_described : ∃ info : Protocol.CrossTxInfo,
    (∀ h, Handle.makeCrossTxInfo h (renderInfo1 Formats.hexText Formats.bidText describedState [])
      (renderInfo2 describedState []) = some (some info)) ∧ info.timeout.toInt = 103 := by
  have hr : Renderable Formats.hexText Formats.bidText (describedState.crossTxInfo []) :=
    ⟨Formats.comma_hexText _, Formats.comma_bidText _, Formats.comma_bidText _, List.cons_ne_nil _ _⟩
  have hfits : (describedState.crossTxInfo []).FitsInt64 :=
    { amount := by decide
      createTimestamp := by decide
      executeTimestamp := by decide
      timeout := by decide }
  obtain ⟨info, hinfo, hcarries⟩ := makeCrossTxInfo_reads_back hr hfits
  exact ⟨info, hinfo, hcarries.timeout⟩

end Rendered

section Malformed

/-- The fields of the data, whatever it is. -/
def fieldsOf (data : Text) : List Text := (infoList data).getD []

/-- How many fields of the first query a copy of `makeCrossTxInfo` needs: the layer-1 copy looks
whether there is a `destbid`. -/
def neededFields : Handle → ℕ
  | .layer1 => 5
  | .layer2 => 6

/-- A field that `makeCrossTxInfo` needs is missing. -/
def FieldsMissing (h : Handle) (data1 data2 : Text) : Prop :=
  (fieldsOf data1).length < neededFields h ∨ (fieldsOf data2).length < 5

instance (h : Handle) (data1 data2 : Text) : Decidable (FieldsMissing h data1 data2) :=
  inferInstanceAs (Decidable (_ ∨ _))

/-- `makeCrossTxInfo` returns, and it returns false if a field is missing. -/
def RejectsMalformed (h : Handle) (data1 data2 : Text) : Prop :=
  ∃ res, Handle.makeCrossTxInfo h data1 data2 = some res ∧ (FieldsMissing h data1 data2 → res = none)

variable {h : Handle} {data data1 data2 : Text}

/-- A text that is not empty has its fields. -/
theorem infoList_of_ne_nil (hne : data ≠ []) : infoList data = some (fieldsOf data) := by
  rw [fieldsOf, infoList, substrBrackets, if_neg hne]
  rfl

/-- Data has a field when something stands between its first and its last character. -/
theorem fieldsOf_eq_nil : fieldsOf data = [] ↔ data.length < 3 := by
  by_cases hne : data = []
  · simp [hne, fieldsOf, infoList, substrBrackets]
  · have hpos : 0 < data.length := List.length_pos_iff.mpr hne
    have hfields : fieldsOf data = getlines ',' ((data.drop 1).take (data.length - 2)) := by
      rw [fieldsOf, infoList, substrBrackets, if_neg hne]
      rfl
    rw [hfields, getlines_eq_nil, List.take_eq_nil_iff, List.drop_eq_nil_iff]
    omega

/-- A read by position goes on when the position is there. -/
theorem isSome_bind_getElem? {α β : Type} {xs : List α} {i : ℕ} {f : α → Option β} :
    (xs[i]?.bind f).isSome ↔ ∃ hi : i < xs.length, (f xs[i]).isSome := by
  by_cases hi : i < xs.length
  · simp [hi]
  · simp [hi]

/-- With texts that are not empty, `makeCrossTxInfo` makes a message if all fields are there, and
reads past the end of a token list otherwise. -/
theorem makeCrossTxInfo_isSome_iff (hne : ¬(data1 = [] ∨ data2 = [])) :
    (Handle.makeCrossTxInfo h data1 data2).isSome ↔ ¬FieldsMissing h data1 data2 := by
  obtain ⟨hne1, hne2⟩ := not_or.mp hne
  rw [Handle.makeCrossTxInfo, if_neg hne, infoList_of_ne_nil hne1, infoList_of_ne_nil hne2,
    FieldsMissing]
  generalize fieldsOf data1 = fields1
  generalize fieldsOf data2 = fields2
  cases h with
  | layer1 =>
    simp only [Option.pure_def, Option.bind_eq_bind, Option.bind_some, isSome_bind_getElem?,
      Option.isSome_some, exists_prop, and_true, neededFields, not_or, not_lt]
    omega
  | layer2 =>
    simp only [Option.pure_def, Option.bind_eq_bind, Option.bind_some, isSome_bind_getElem?,
      Option.isSome_some, exists_prop, and_true, neededFields, not_or, not_lt]
    omega

/-- Malformed data is rejected exactly when a half is empty or all fields are there. -/
theorem rejectsMalformed_iff :
    RejectsMalformed h data1 data2 ↔ (data1 = [] ∨ data2 = []) ∨ ¬FieldsMissing h data1 data2 := by
  by_cases hempty : data1 = [] ∨ data2 = []
  · have hfalse : Handle.makeCrossTxInfo h data1 data2 = some none := by
      rw [Handle.makeCrossTxInfo, if_pos hempty]
      rfl
    exact iff_of_true ⟨none, hfalse, fun _ => rfl⟩ (Or.inl hempty)
  · rw [or_iff_right hempty]
    constructor
    · rintro ⟨res, hres, _⟩
      exact (makeCrossTxInfo_isSome_iff hempty).mp (Option.isSome_of_eq_some hres)
    · intro hall
      obtain ⟨res, hres⟩ := Option.isSome_iff_exists.mp ((makeCrossTxInfo_isSome_iff hempty).mpr hall)
      exact ⟨res, hres, fun hmissing => absurd hmissing hall⟩

/-- `GetCrossTxStatus` returns when its query gets this response. -/
def StatusReturns (conf : Configure) (endpoint : Layer) (crossTxId : Text) (r : HttpResult) : Prop :=
  ∃ before status, Replays (getCrossTxStatus conf endpoint crossTxId)
    [⟨before, .http endpoint (.callContract (conf.crossContract .layer2)
      (crossTxInfo2Input crossTxId)), r⟩] status []

variable {conf : Configure} {endpoint : Layer} {crossTxId : Text} {r : HttpResult}

/-- The status is returned exactly when the data has three characters at least. -/
theorem statusReturns_iff (hdata : withBody readQueryData r = some (some data)) :
    StatusReturns conf endpoint crossTxId r ↔ 3 ≤ data.length := by
  have hfields : fieldsOf data ≠ [] ↔ 3 ≤ data.length := by
    rw [Ne, fieldsOf_eq_nil, not_lt]
  rw [← hfields]
  constructor
  · rintro ⟨before, status, hrun⟩
    obtain ⟨res, rest, hquery, hrun⟩ := runs_bind.mp hrun
    obtain ⟨r', mid, hask, hread⟩ := runs_bind.mp hquery
    obtain ⟨before', heq⟩ := runs_perform.mp hask
    cases heq
    obtain ⟨hres, rfl⟩ := runs_orTerminate hread
    rw [hdata] at hres
    cases hres
    obtain ⟨tokens, mid', hlist, hrun⟩ := runs_bind.mp hrun
    obtain ⟨htokens, rfl⟩ := runs_orTerminate hlist
    obtain ⟨token, mid', hget, _⟩ := runs_bind.mp hrun
    obtain ⟨hfirst, rfl⟩ := runs_orTerminate hget
    intro hnil
    rw [fieldsOf, htokens, Option.getD_some] at hnil
    simp [hnil] at hfirst
  · intro hne
    have hdata_ne : data ≠ [] := by
      rintro rfl
      exact hne rfl
    obtain ⟨token, tokens, hcons⟩ := List.exists_cons_of_ne_nil hne
    refine ⟨.empty, stoi token, runs_bind.mpr ⟨some data, [], runs_bind.mpr ⟨r, [], ?_, ?_⟩, ?_⟩⟩
    · exact runs_perform.mpr ⟨_, rfl⟩
    · rw [hdata]
      exact runs_pure.mpr ⟨rfl, rfl⟩
    · simp only [infoList_of_ne_nil hdata_ne, hcons]
      exact runs_pure.mpr ⟨rfl, rfl⟩

/-- Malformed query data is rejected exactly when one of the two texts is empty or no field is
missing; the status query needs something between the brackets. -/
theorem malformed_rejected_iff (hdata : withBody readQueryData r = some (some data2)) :
    (∀ h, RejectsMalformed h data1 data2 ↔ (data1 = [] ∨ data2 = []) ∨ ¬FieldsMissing h data1 data2) ∧
      (StatusReturns conf endpoint crossTxId r ↔ 3 ≤ data2.length) :=
  ⟨fun _ => rejectsMalformed_iff, statusReturns_iff hdata⟩

/-- The data of a reply is read back. -/
theorem readQueryData_queryReply (data : Text) :
    withBody readQueryData (Formats.queryReply data) = some (some data) := by
  simp only [withBody, readQueryData, Formats.queryReply, Formats.object, Json.get, Json.isMember,
    Json.asArray, Json.isNull, Json.asString, List.map_cons, List.map_nil, List.lookup_cons, beq_self_eq_true]
  rfl

/-- The data of an open transfer has the fields that layer 2 reads, and a status. -/
theorem malformed_rejected_iff_settled :
    let data1 := "[0,2,0c,5,did:bid:7,did:bid:8]".toList
    let data2 := "[0,0,3,0,103,]".toList
    RejectsMalformed .layer2 data1 data2 ∧
      StatusReturns Formats.system.su.conf .layer1 [] (Formats.queryReply data2) := by
  intro data1 data2
  have hiff := @malformed_rejected_iff data1 data2 Formats.system.su.conf .layer1 [] _
    (readQueryData_queryReply data2)
  exact ⟨(hiff.1 .layer2).mpr (by decide), hiff.2.mpr (by decide)⟩

/-- Data with too few fields is indexed past its end, and an empty answer to the status query is
cut past its end. -/
theorem malformed_indexed : ¬RejectsMalformed .layer1 "[0,2]".toList "[0,0,3,0,103,]".toList ∧
    ¬StatusReturns Formats.system.su.conf .layer1 [] (Formats.queryReply []) := by
  constructor
  · rintro ⟨res, hres, _⟩
    have hnone : Handle.makeCrossTxInfo .layer1 "[0,2]".toList "[0,0,3,0,103,]".toList = none := by
      decide
    rw [hnone] at hres
    cases hres
  · intro hreturns
    exact absurd ((statusReturns_iff (readQueryData_queryReply [])).mp hreturns) (by decide)

end Malformed

end CrosschainAgent
