import CrosschainAgent.Glue.Handle

/-!
# The manager of the handlers

`HandleManager` decodes what the websocket clients deliver and hands each log to the function it
is for. A `Submit` log of the manager contract confirms layer 2 up to a height, an `UpdatePeriod`
log changes the timeout of the layer-2 contract.
-/

namespace CrosschainAgent

open Interaction HttpClient

namespace Protocol

/-- `protocol::ManagerContractTlog::TopicType`. -/
inductive TopicType where
  | topicRegisteragent
  | topicSubmit
  | topicStop
  | topicUpdatePeriod
  | topicFreeze
  | topicUnFreeze
  | unrecognized (value : Int32)
  deriving DecidableEq

/-- `protocol::TlogSubmit::ErrorCode`. -/
inductive ErrorCode where
  | codeSuccess
  | codeInvalidParams
  | codeInvalidSeq
  | codeInvalidAgentId
  | codeInvalidAgentBid
  | codeAgentStatusFreeze
  | codeAgentStatusStop
  | codeAgentUnregistered
  | unrecognized (value : Int32)
  deriving DecidableEq

/-- `protocol::TlogSubmit`. -/
structure TlogSubmit where
  agentId : Int32 := 0
  confirmSeq : Int64 := 0
  errorCode : ErrorCode := .codeSuccess
  deriving DecidableEq

/-- `protocol::TlogUpdatePeriod`. -/
structure TlogUpdatePeriod where
  period : Int64 := 0
  deriving DecidableEq

/-- `protocol::ManagerContractTlog`. -/
structure ManagerContractTlog where
  tlogType : TopicType := .topicRegisteragent
  submit : TlogSubmit := {}
  updatePeriod : TlogUpdatePeriod := {}
  deriving DecidableEq

/-- `protocol::Tlog`. -/
structure Tlog where
  topic : Text
  tlog : List Text
  deriving DecidableEq

/-- `protocol::TlogSubscribeResponse`. -/
structure TlogSubscribeResponse where
  address : Text
  tlogs : List Tlog
  deriving DecidableEq

end Protocol

/-- What the manager is linked with: the configuration it reads, and the protobuf runtime. The
subscription to the manager contract asks for the logs of `layer2_id_`. -/
structure ManagerSetup extends Setup where
  managerContract : Text
  layer2Id : Int64
  startTxTopic : Layer → Text
  sendTxTopic : Layer → Text
  ackTxTopic : Layer → Text
  agentAddress : Layer → Text
  feeLimit : Layer → Int64
  gasPrice : Layer → Int64
  parseTlogSubscribeResponse : Text → Option Protocol.TlogSubscribeResponse
  parseManagerContractTlog : Bytes → Option Protocol.ManagerContractTlog

/-- The operations of the manager: those of the handlers, and its own. `managerLog` is the line it
logs about a log of the manager contract that it has parsed. -/
inductive ManagerOp where
  | agent (o : Op)
  | managerLog (managerLog : Protocol.ManagerContractTlog)
  | getAccountBase (endpoint : Layer) (address : Text)
  | submitSetTimeout (destAddress args : Text) (maxLedgerSeq : Int64)

/-- What an operation returns. -/
abbrev ManagerOp.Resp : ManagerOp → Type
  | .agent o => o.Resp
  | .managerLog _ => Unit
  | .getAccountBase _ _ => HttpResult
  | .submitSetTimeout _ _ _ => HttpResult

/-- A call of the manager that returns an `α`. -/
abbrev ManagerM := Prog ManagerOp ManagerOp.Resp

/-- A call the manager makes of a handler. -/
def ManagerM.ofAgent {α : Type} (p : AgentM α) : ManagerM α :=
  p.embed ManagerOp.agent fun _ r => r

namespace HttpClient

/-- The `balance` of a `/getAccountBase` response. -/
def readBalance (res : Json) : Option (Option Int64) := do
  let errorCode ← (← res.get "error_code".toList).asInt64
  if errorCode ≠ 0 then
    return none
  let result ← res.get "result".toList
  if ← result.isMember "balance".toList then
    return some (← (← result.get "balance".toList).asInt64)
  else
    return none

/-- `GetBalance`. -/
def getBalance (endpoint : Layer) (address : Text) : ManagerM (Option Int64) := do
  let resp ← perform (ManagerOp.getAccountBase endpoint address)
  ManagerM.ofAgent (orTerminate (withBody readBalance resp))

end HttpClient

namespace HandleManager

variable (su : ManagerSetup)

/-- The timeout, in microseconds, for a confirmation period in minutes. -/
def periodTimeout (period : Int64) : Int64 :=
  let periodSecond := period * 60
  periodSecond * microUnitsPerSec + 30 * 60 * microUnitsPerSec

/-- How `updatePeriodToLayer2CrossContract` reads a submit response: the transaction hash, if the
error code is 0. -/
def readUpdateResponse (responseBody : Json) : Option (Option Text) := do
  let results ← responseBody.get "results".toList
  let errorCode ← (← results.get "error_code".toList).asInt
  if errorCode ≠ 0 then
    let _error_desc ← (← results.get "error_desc".toList).asString
    return none
  else
    return some (← (← results.get "hash".toList).asString)

/-- `updatePeriodToLayer2CrossContract`. -/
def updatePeriodToLayer2CrossContract (period : Int64) : ManagerM Bool := do
  match ← ManagerM.ofAgent (getLayerSeq .layer2) with
  | none => return false
  | some layer2Seq =>
    let response ← perform (ManagerOp.submitSetTimeout (su.conf.crossContract .layer2)
      (Strings.formatLd (periodTimeout period)) (layer2Seq + 200))
    let txhash ← ManagerM.ofAgent (orTerminate (withBody readUpdateResponse response))
    return txhash.isSome

/-- What `OnLayer1ManagerContractTlog` does with a log it has parsed. -/
def onManagerLog (managerLog : Protocol.ManagerContractTlog) : ManagerM Unit := do
  perform (ManagerOp.managerLog managerLog)
  match managerLog.tlogType with
  | .topicSubmit =>
    ManagerM.ofAgent
      (Layer2ToLayer1Handle.handleConfirmSeqEvent su.toSetup managerLog.submit.confirmSeq)
  | .topicUpdatePeriod =>
    let _ret ← updatePeriodToLayer2CrossContract su managerLog.updatePeriod.period
  | _ => pure ()

/-- The logs of the first `Tlog` of a message, up to the first that cannot be parsed. -/
def onManagerLogs : List Text → ManagerM Bool
  | [] => return true
  | tlog :: tlogs => do
    match su.parseManagerContractTlog (Strings.hexStringToBin tlog) with
    | none => return false
    | some managerLog =>
      onManagerLog su managerLog
      onManagerLogs tlogs

/-- `OnLayer1ManagerContractTlog`. A message without a `Tlog` is read past its end. -/
def onLayer1ManagerContractTlog (tlogRes : Protocol.TlogSubscribeResponse) : ManagerM Bool := do
  let tlog ← ManagerM.ofAgent (orTerminate tlogRes.tlogs[0]?)
  onManagerLogs su tlog.tlog

/-- The configured topic a text is. -/
def topicOf (l : Layer) (topic : Text) : Option Topic :=
  if topic = su.startTxTopic l then some .startTxTopic
  else if topic = su.sendTxTopic l then some .sendTxTopic
  else if topic = su.ackTxTopic l then some .ackTxTopic
  else none

/-- The dispatch of a cross contract's message by its first `Tlog`. -/
def onCrossContractTlog (l : Layer) (tlogRes : Protocol.TlogSubscribeResponse) : ManagerM Bool := do
  let tlog ← ManagerM.ofAgent (orTerminate tlogRes.tlogs[0]?)
  let crossTxId ← ManagerM.ofAgent (orTerminate tlog.tlog[0]?)
  match topicOf su l tlog.topic with
  | some topic => ManagerM.ofAgent (onTopic su.toSetup l topic crossTxId)
  | none => return false

/-- `OnLayer1CrossContractTlog`. -/
abbrev onLayer1CrossContractTlog := onCrossContractTlog su .layer1

/-- `OnLayer1SubscribeResponse`. -/
def onLayer1SubscribeResponse (msg : Text) : ManagerM Bool :=
  match su.parseTlogSubscribeResponse msg with
  | none => return false
  | some tlogRes =>
    if tlogRes.address = su.conf.crossContract .layer1 then
      onLayer1CrossContractTlog su tlogRes
    else if tlogRes.address = su.managerContract then
      onLayer1ManagerContractTlog su tlogRes
    else
      return false

/-- `OnLayer2SubscribeResponse`. -/
def onLayer2SubscribeResponse (msg : Text) : ManagerM Bool :=
  match su.parseTlogSubscribeResponse msg with
  | none => return false
  | some tlogRes =>
    if tlogRes.address ≠ su.conf.crossContract .layer2 then
      return false
    else
      onCrossContractTlog su .layer2 tlogRes

/-- The agent's account on a layer can pay for 100 transactions. -/
def checkBalance (l : Layer) : ManagerM Bool := do
  let minBalance := 100 * su.feeLimit l * su.gasPrice l
  match ← getBalance l (su.agentAddress l) with
  | none => return false
  | some balance => return balance ≥ minBalance

/-- `CheckLayer1Balance`. -/
def checkLayer1Balance : ManagerM Bool := checkBalance su .layer1

/-- `CheckLayer2Balance`. -/
def checkLayer2Balance : ManagerM Bool :=
  if su.gasPrice .layer2 = 0 then return true else checkBalance su .layer2

/-- `HandleManager::Initialize`, with the checks of the balances. -/
def initializeManager : ManagerM Bool := do
  if ¬(← checkLayer2Balance su) then
    return false
  if ¬(← checkLayer1Balance su) then
    return false
  ManagerM.ofAgent (initializeHandle su.toSetup)
  return true

/-- What the manager is called for: a message of either layer, and the timer. -/
inductive Event where
  | onLayer1SubscribeResponse (msg : Text)
  | onLayer2SubscribeResponse (msg : Text)
  | onTimer
  deriving DecidableEq

/-- The program of a call, with its return value. -/
def handle : Event → ManagerM Bool
  | .onLayer1SubscribeResponse msg => onLayer1SubscribeResponse su msg
  | .onLayer2SubscribeResponse msg => onLayer2SubscribeResponse su msg
  | .onTimer => do
    ManagerM.ofAgent (onTimer su.toSetup)
    return true

end HandleManager

end CrosschainAgent
