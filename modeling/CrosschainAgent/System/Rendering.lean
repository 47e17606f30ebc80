import CrosschainAgent.System.World

/-!
# What a handler reads of a record

A record is written as two bracketed tuples and read back token by token. Whatever the
record holds, both copies of `makeCrossTxInfo` read it as `NodeAbi.infoOf`: numbers are
saturated, and of an error description that holds commas only the first part is kept.
-/

namespace CrosschainAgent

open HttpClient Strings Tokens

namespace NodeAbi

variable (abi : NodeAbi)

/-- The message read from a record that answered the first query as `r` and the second one,
later, as `r'`. -/
def infoOf (r r' : Bridge.CrossTxInfo) : Protocol.CrossTxInfo where
  crosstxid := abi.bytesText r.crossTxId
  srcbid := abi.addressText r.srcBid
  destbid := abi.addressText r.destBid
  amount := stol (decimal r.amount)
  status := stoi (decimal r'.status.toNat)
  refunded := stoi (decimal r'.refunded.toNat)
  createtimestamp := stol (decimal r'.createTimestamp)
  executetimestamp := stol (decimal r'.executeTimestamp)
  timeout := stol (decimal r'.timeout)
  errordesc := ((getlines ',' r'.errorDesc)[0]?).getD []

/-- A number has no comma in it. -/
theorem comma_decimal (n : ℕ) : ',' ∉ decimal n := not_mem_decimal (by decide) n

/-- The tokens of a bracketed tuple whose last field may hold commas. -/
theorem infoList_tupleText (fields : List Text) (hfields : ∀ t ∈ fields, ',' ∉ t) (last : Text) :
    infoList (tupleText (fields ++ [last])) = some (fields ++ getlines ',' last) := by
  have hbody : substrBrackets (tupleText (fields ++ [last])) =
      some (List.intercalate [','] (fields ++ [last])) := by
    simp [substrBrackets, tupleText]
  rw [infoList, hbody, Option.map_some, getlines_intercalate ',' hfields last]

/-- A last field without commas is one token. -/
theorem infoList_tupleText_last {fields : List Text} (hfields : ∀ t ∈ fields, ',' ∉ t) {last : Text}
    (hlast : ',' ∉ last) (hne : last ≠ []) :
    infoList (tupleText (fields ++ [last])) = some (fields ++ [last]) := by
  rw [infoList_tupleText fields hfields last, getlines_last ',' hlast hne]

/-- The tokens of the first query's result. -/
theorem infoList_info1 (b : Bridge.State) (id : Bytes) :
    infoList (abi.queryText b (.getCrossTxInfo1 id)) =
      some [decimal (b.crossTxInfo id).srcChainId, decimal (b.crossTxInfo id).destChainId,
        abi.bytesText (b.crossTxInfo id).crossTxId, decimal (b.crossTxInfo id).amount,
        abi.addressText (b.crossTxInfo id).srcBid, abi.addressText (b.crossTxInfo id).destBid] := by
  have hfields : ∀ t ∈ [decimal (b.crossTxInfo id).srcChainId,
      decimal (b.crossTxInfo id).destChainId, abi.bytesText (b.crossTxInfo id).crossTxId,
      decimal (b.crossTxInfo id).amount, abi.addressText (b.crossTxInfo id).srcBid], ',' ∉ t := by
    simp [comma_decimal, abi.comma_bytesText, abi.comma_addressText]
  exact infoList_tupleText_last hfields (abi.comma_addressText _) (abi.addressText_ne_nil _)

/-- The tokens of the second query's result. -/
theorem infoList_info2 (b : Bridge.State) (id : Bytes) :
    infoList (abi.queryText b (.getCrossTxInfo2 id)) =
      some ([decimal (b.crossTxInfo id).status.toNat, decimal (b.crossTxInfo id).refunded.toNat,
        decimal (b.crossTxInfo id).createTimestamp, decimal (b.crossTxInfo id).executeTimestamp,
        decimal (b.crossTxInfo id).timeout] ++ getlines ',' (b.crossTxInfo id).errorDesc) :=
  infoList_tupleText [_, _, _, _, _] (by simp [comma_decimal]) _

/-- A contract never answers a query with the empty text. -/
theorem queryText_ne_nil (b : Bridge.State) (q : ContractQuery) : abi.queryText b q ≠ [] := by
  cases q <;> exact List.cons_ne_nil _ _

/-- Both copies of `makeCrossTxInfo` read a record alike. -/
theorem makeCrossTxInfo_queryText (h : Handle) (b b' : Bridge.State) (id : Bytes) :
    Handle.makeCrossTxInfo h (abi.queryText b (.getCrossTxInfo1 id))
        (abi.queryText b' (.getCrossTxInfo2 id)) =
      some (some (abi.infoOf (b.crossTxInfo id) (b'.crossTxInfo id))) := by
  rw [Handle.makeCrossTxInfo, if_neg (by simp [queryText_ne_nil]), infoList_info1, infoList_info2]
  cases h <;> rfl

end NodeAbi

end CrosschainAgent
