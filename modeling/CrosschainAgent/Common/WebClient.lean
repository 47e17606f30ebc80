import CrosschainAgent.Glue.Operations

/-!
# The HTTP client

`HttpClient`: one function per kind of request, each made to the endpoint the client was
created with. A request that fails, or whose response does not have the expected members,
makes the function return false.
-/

namespace CrosschainAgent

open Interaction

namespace HttpClient

/-- Read a response: `none` is a transport error or a body that is not JSON. A read may
throw; otherwise it says whether the function returns a value. -/
def withBody {α : Type} (read : Json → Option (Option α)) : HttpResult → Option (Option α)
  | .error => some none
  | .response none => some none
  | .response (some body) => read body

/-- The `seq` of a `/getLedger` response. -/
def readLedgerSeq (res : Json) : Option (Option Int64) := do
  let errorCode ← (← res.get "error_code".toList).asInt64
  if errorCode ≠ 0 then
    return none
  let result ← res.get "result".toList
  if ← result.isMember "header".toList then
    let header ← result.get "header".toList
    if ← header.isMember "seq".toList then
      return some (← (← header.get "seq".toList).asInt64)
    else
      return none
  else
    return none

/-- `GetLayerSeq`. -/
def getLayerSeq (endpoint : Layer) : AgentM (Option Int64) := do
  let resp ← perform (Op.http endpoint .getLedger)
  orTerminate (withBody readLedgerSeq resp)

/-- The data of the first query result of a `/callContract` response. -/
def readQueryData (res : Json) : Option (Option Text) := do
  let queryResult ← res.get "result".toList
  if ← queryResult.isMember "query_rets".toList then
    match (← queryResult.get "query_rets".toList).asArray with
    | none => return none
    | some queryRets =>
      let queryRet := (queryRets.head?).getD .null
      let error ← queryRet.get "error".toList
      if ← error.isMember "data".toList then
        if (← error.get "data".toList).isNull then
          return some (← (← (← queryRet.get "result".toList).get "data".toList).asString)
        else
          return none
      else
        return none
  else
    return none

/-- The input of `GetCrossTxInfo1`. -/
def crossTxInfo1Input (crossTxId : Text) : QueryInput where
  function := "GetCrossTxInfo1(bytes)".toList
  args := "'".toList ++ crossTxId ++ "'".toList

/-- The input of `GetCrossTxInfo2`. -/
def crossTxInfo2Input (crossTxId : Text) : QueryInput where
  function := "GetCrossTxInfo2(bytes)".toList
  args := "'".toList ++ crossTxId ++ "'".toList

variable (conf : Configure)

/-- `getCrossTxInfo1`; `contract` is `is_layer1`. -/
def getCrossTxInfo1 (endpoint contract : Layer) (crossTxId : Text) : AgentM (Option Text) := do
  let result ← perform
    (Op.http endpoint (.callContract (conf.crossContract contract) (crossTxInfo1Input crossTxId)))
  orTerminate (withBody readQueryData result)

/-- `getCrossTxInfo2`; `contract` is `is_layer1`. -/
def getCrossTxInfo2 (endpoint contract : Layer) (crossTxId : Text) : AgentM (Option Text) := do
  let result ← perform
    (Op.http endpoint (.callContract (conf.crossContract contract) (crossTxInfo2Input crossTxId)))
  orTerminate (withBody readQueryData result)

/-- `GetLayer1CrossTxInfo` and `GetLayer2CrossTxInfo`, by the contract they ask; the client
they are called on is the one of the same layer. -/
def getLayerCrossTxInfo (l : Layer) (crossTxId : Text) : AgentM (Option (Text × Text)) := do
  match ← getCrossTxInfo1 conf l l crossTxId with
  | none => return none
  | some crossTxInfo1 =>
    match ← getCrossTxInfo2 conf l l crossTxId with
    | none => return none
    | some crossTxInfo2 => return some (crossTxInfo1, crossTxInfo2)

/-- The status of the first transaction of a `/getTransactionHistory` response. -/
def readTxResult (res : Json) : Option (Option Unit) := do
  let errorCode ← (← res.get "error_code".toList).asInt64
  if errorCode ≠ 0 then
    return none
  let result ← res.get "result".toList
  if ← result.isMember "transactions".toList then
    match (← result.get "transactions".toList).asArray with
    | some (tx :: _) =>
      if ← tx.isMember "error_code".toList then
        if (← (← tx.get "error_code".toList).asInt64) = 0 then
          return some ()
        else
          return none
      else
        return none
    | _ => return none
  else
    return none

/-- `GetTxResult`. -/
def getTxResult (endpoint : Layer) (txHash : Text) : AgentM Bool := do
  let resp ← perform (Op.http endpoint (.getTransactionHistory txHash))
  return (← orTerminate (withBody readTxResult resp)).isSome

/-- `substr(1, size - 2)`, which drops the brackets; it throws on the empty text. -/
def substrBrackets (data : Text) : Option Text :=
  if data = [] then none else some ((data.drop 1).take (data.length - 2))

/-- The tokens of a bracketed tuple. -/
def infoList (data : Text) : Option (List Text) := (substrBrackets data).map (Tokens.getlines ',')

/-- `GetCrossTxStatus`: the contract it asks is always the one of layer 2, and a failed query
reads as `0`. -/
def getCrossTxStatus (endpoint : Layer) (crossTxId : Text) : AgentM Int32 := do
  match ← getCrossTxInfo2 conf endpoint .layer2 crossTxId with
  | none => return 0
  | some crossTxInfo2 =>
    let info2List ← orTerminate (infoList crossTxInfo2)
    return Strings.stoi (← orTerminate info2List[0]?)

/-- The check of a submit response by `checkTxResponse`: every result must carry error code
0, and the hash of the last one is returned. -/
def checkResults : List Json → Text → Option (Option Text)
  | [], txhash => some (some txhash)
  | result :: results, _ => do
    let errorCode ← (← result.get "error_code".toList).asInt
    if errorCode ≠ 0 then
      let _error_desc ← (← result.get "error_desc".toList).asString
      return none
    else
      checkResults results (← (← result.get "hash".toList).asString)

/-- `checkTxResponse`. A response without a non-empty array of results passes with the hash
left empty. -/
def checkTxResponse (responseBody : Json) : Option (Option Text) := do
  match (← responseBody.get "results".toList).asArray with
  | some results => checkResults results []
  | none => return some []

end HttpClient

/-- The hash with which `checkTxResponse` accepts a response. -/
def acceptedHash (r : HttpResult) : Option Text :=
  (HttpClient.withBody HttpClient.checkTxResponse r).join

end CrosschainAgent
