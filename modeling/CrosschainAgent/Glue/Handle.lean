import CrosschainAgent.Common.WebClient

/-!
# The two handlers

`Layer1ToLayer2Handle` and `Layer2ToLayer1Handle` are hand-copied. Every function is written
once over the handler, which is named by the layer its transfers start on; where the copies
differ the function branches on it, and the handlers' own functions are the two instances.

A timer or confirm pass holds the lock of the map it walks through, so what it walks through
are the entries the map had when it began.
-/

namespace CrosschainAgent

open Interaction HttpClient

/-- What the handlers are linked with: the configuration and the protobuf runtime. -/
structure Setup where
  conf : Configure
  codec : Codec

variable (su : Setup)

namespace Handle

/-- `sendTransactionToLayer1` and `sendTransactionToLayer2`: the transaction hash, if the
node took the transaction. -/
def sendTransaction (l : Layer) (input : TxInput) (amount : Int64) :
    AgentM (Option Text) := do
  match ← getLayerSeq l with
  | none => return none
  | some seq =>
    let maxSeq := seq + 200
    let response ← perform
      (Op.http l (.submitTransaction (su.conf.crossContract l) input amount maxSeq))
    orTerminate (withBody checkTxResponse response)

/-- Write an entry: the database value is overwritten, the map keeps an entry it has. -/
def saveInfo (s : Store) (e : CrossTx) : AgentM Unit := do
  let _ret ← perform (Op.dbPut (s.keyPrefix ++ e.crossTxId) e.crossTxInfo)
  perform (Op.emplace s e.crossTxId e)

/-- `SaveSendAckInfo` and `SaveReplyAckInfo`: the entry is due in 60 seconds. The layer-1
handler reads the clock after the database write, the layer-2 handler before it. -/
def saveAckInfo (h : Handle) (s : Store) (e : CrossTx) : AgentM Unit := do
  match h with
  | .layer1 =>
    let _ret ← perform (Op.dbPut (s.keyPrefix ++ e.crossTxId) e.crossTxInfo)
    let currentTime ← highResolution
    perform (Op.emplace s e.crossTxId
      { e with sendAckTimeout := currentTime + microUnitsPerSec * 60 })
  | .layer2 =>
    let currentTime ← highResolution
    let _ret ← perform (Op.dbPut (s.keyPrefix ++ e.crossTxId) e.crossTxInfo)
    perform (Op.emplace s e.crossTxId
      { e with sendAckTimeout := currentTime + microUnitsPerSec * 60 })

/-- `ClearStartTxInfo`, `ClearSendTxInfo`, `ClearSendAckInfo` and `ClearReplyAckInfo`. -/
def clearInfo (s : Store) (crossTxid : Text) : AgentM Unit := do
  let _ret ← perform (Op.dbDelete (s.keyPrefix ++ crossTxid))
  perform (Op.erase s crossTxid)

/-- `makeCrossTxInfo`: false when a part is empty, undefined when a token is missing. Only the
layer-1 copy guards `destbid`. -/
def makeCrossTxInfo (h : Handle) (crossInfo1 crossInfo2 : Text) :
    Option (Option Protocol.CrossTxInfo) := do
  if crossInfo1 = [] ∨ crossInfo2 = [] then
    return none
  let info1List ← infoList crossInfo1
  let info2List ← infoList crossInfo2
  let destbid ← match h with
    | .layer1 => some ((info1List[5]?).getD [])
    | .layer2 => info1List[5]?
  return some {
    crosstxid := ← info1List[2]?
    amount := Strings.stol (← info1List[3]?)
    srcbid := ← info1List[4]?
    destbid := destbid
    status := Strings.stoi (← info2List[0]?)
    refunded := Strings.stoi (← info2List[1]?)
    createtimestamp := Strings.stol (← info2List[2]?)
    executetimestamp := Strings.stol (← info2List[3]?)
    timeout := Strings.stol (← info2List[4]?)
    errordesc := (info2List[5]?).getD [] }

/-- Query a record of the given layer and make its message. -/
def readCrossTxInfo (h : Handle) (l : Layer) (crossTxid : Text) :
    AgentM (Option Protocol.CrossTxInfo) := do
  match ← getLayerCrossTxInfo su.conf l crossTxid with
  | none => return none
  | some (crossTxinfo1, crossTxinfo2) => orTerminate (makeCrossTxInfo h crossTxinfo1 crossTxinfo2)

/-- The input of `SendTx`. -/
def sendTxInput (info : Protocol.CrossTxInfo) : TxInput :=
  .sendTx info.crosstxid info.srcbid info.destbid info.amount info.timeout

/-- The description of an ack. -/
def errorDesc (h : Handle) (info : Protocol.CrossTxInfo) : Text :=
  if info.status > crossResultSuccess then "send tx failed".toList
  else match h with
    | .layer1 => "success".toList
    | .layer2 => []

/-- The input of `SendAckedTx`. -/
def sendAckedTxInput (h : Handle) (info : Protocol.CrossTxInfo) : TxInput :=
  .sendAckedTx info.crosstxid info.status (errorDesc h info) info.executetimestamp

/-- `SendTxToLayer2` and `SendTxToLayer1`. -/
def sendTxTo (h : Handle) (info : Protocol.CrossTxInfo) : AgentM Bool := do
  match ← sendTransaction su h.other (sendTxInput info) info.amount with
  | none => return false
  | some txhash =>
    saveInfo (.send h) (CrossTx.ofInfo su.codec { info with sendtxhash := txhash })
    return true

/-- `SendAckToLayer1` and `SendAckToLayer2`. -/
def sendAckTo (h : Handle) (info : Protocol.CrossTxInfo) : AgentM Bool := do
  match ← sendTransaction su h (sendAckedTxInput h info) 0 with
  | none => return false
  | some txhash =>
    saveAckInfo h (.ack h) (CrossTx.ofInfo su.codec (info.setAckHash h txhash))
    return true

/-- `ReplyAckToLayer2` and `ReplyAckToLayer1`. -/
def replyAckTo (h : Handle) (info : Protocol.CrossTxInfo) : AgentM Bool := do
  match ← sendTransaction su h.other (sendAckedTxInput h info) 0 with
  | none => return false
  | some txhash =>
    saveAckInfo h (.reply h) (CrossTx.ofInfo su.codec (info.setAckHash h.other txhash))
    return true

/-- `handleSendTxEvent`: acknowledge on the source layer what the other layer recorded. -/
def handleSendTxEventWith (h : Handle) (crossTxid : Text) (status : Int32) : AgentM Bool := do
  match ← readCrossTxInfo su h h.other crossTxid with
  | none => return false
  | some info =>
    if ← sendAckTo su h { info with status := status } then
      clearInfo (.send h) crossTxid
      return true
    else
      return false

/-- `HandleSendTxEvent`. -/
def handleSendTxEvent (h : Handle) (crossTxid : Text) : AgentM Bool :=
  handleSendTxEventWith su h crossTxid crossResultSuccess

/-- `HandleSendAckdTxEvent`: reply on the other layer what the source layer recorded. -/
def handleSendAckdTxEvent (h : Handle) (crossTxid : Text) : AgentM Bool := do
  match ← readCrossTxInfo su h h crossTxid with
  | none => return false
  | some info =>
    if ← replyAckTo su h info then
      clearInfo (.ack h) crossTxid
      return true
    else
      return false

/-- What `SendTxToLayer2TimeOut` and `SendTxToLayer1TimeOut` do with an expired entry. -/
def sendTxExpired (h : Handle) (e : CrossTx) : AgentM Unit := do
  if ← getTxResult h.other e.sendTxHash then
    let _ret ← handleSendTxEventWith su h e.crossTxId crossResultSuccess
  else
    let info := { e.info su.codec with status := crossResultTimeout }
    if ← sendAckTo su h info then
      clearInfo (.send h) info.crosstxid

/-- `SendTxToLayer2TimeOut` and `SendTxToLayer1TimeOut`. -/
def sendTxTimeOut (h : Handle) : AgentM Unit := do
  let currentTime ← highResolution
  perform (Op.lock (.send h))
  let infos ← perform (Op.entries (.send h))
  infos.forM fun (_, e) => do
    if e.sendTxTimeout < currentTime then
      sendTxExpired su h e
  perform (Op.unlock (.send h))

/-- What an ack pass does with an expired entry whose ack went to the given layer: drop it
when the transaction or the contract shows that it took effect, else submit it again. -/
def ackExpired (s : Store) (l : Layer) (currentTime : Int64) (key : Text) (e : CrossTx)
    (resend : AgentM Bool) : AgentM Unit := do
  if ← getTxResult l (e.ackHash l) then
    clearInfo s key
  else
    if (← getCrossTxStatus su.conf l key) ≠ crossResultInit then
      clearInfo s key
    else
      let _ret ← resend
      perform (Op.setAckTimeout s key (currentTime + microUnitsPerSec * 60))

/-- What `SendAckToLayer1TimeOut` and `SendAckToLayer2TimeOut` do with an expired entry: a
success ack is always submitted again. -/
def sendAckExpired (h : Handle) (currentTime : Int64) (key : Text) (e : CrossTx) :
    AgentM Unit := do
  let info := e.info su.codec
  if info.status = crossResultSuccess then
    let _ret ← sendAckTo su h info
    perform (Op.setAckTimeout (.ack h) key (currentTime + microUnitsPerSec * 60))
  else
    ackExpired su (.ack h) h currentTime key e (sendAckTo su h info)

/-- `SendAckToLayer1TimeOut` and `SendAckToLayer2TimeOut`. -/
def sendAckTimeOut (h : Handle) : AgentM Unit := do
  let currentTime ← highResolution
  perform (Op.lock (.ack h))
  let infos ← perform (Op.entries (.ack h))
  infos.forM fun (key, e) => do
    if e.sendAckTimeout < currentTime then
      sendAckExpired su h currentTime key e
  perform (Op.unlock (.ack h))

/-- `ReplyAckToLayer2TimeOut` and `ReplyAckToLayer1TimeOut`. -/
def replyAckTimeOut (h : Handle) : AgentM Unit := do
  let currentTime ← highResolution
  perform (Op.lock (.reply h))
  let infos ← perform (Op.entries (.reply h))
  infos.forM fun (key, e) => do
    if e.sendAckTimeout < currentTime then
      ackExpired su (.reply h) h.other currentTime key e (replyAckTo su h (e.info su.codec))
  perform (Op.unlock (.reply h))

/-- Insert the entry of a database value; an ack or reply entry is due in 60 seconds. -/
def loadValue (s : Store) (due : Bool) (value : Text) : AgentM Unit :=
  match su.codec.parseFromString value with
  | none => pure ()
  | some info => do
    let e := CrossTx.ofInfo su.codec info
    if due then
      let currentTime ← highResolution
      perform (Op.emplace s e.crossTxId
        { e with sendAckTimeout := currentTime + 60 * microUnitsPerSec })
    else
      perform (Op.emplace s e.crossTxId e)

/-- Fill a map from the values the database holds under its prefix. -/
def loadInfo (s : Store) (due : Bool) : AgentM Unit := do
  match ← perform (Op.dbScan s.keyPrefix) with
  | none => pure ()
  | some values => values.forM (loadValue su s due)

end Handle

namespace Layer1ToLayer2Handle

abbrev sendTxToLayer2 := Handle.sendTxTo su .layer1
abbrev sendAckToLayer1 := Handle.sendAckTo su .layer1
abbrev replyAckToLayer2 := Handle.replyAckTo su .layer1
abbrev handleSendTxEvent := Handle.handleSendTxEvent su .layer1
abbrev handleSendAckdTxEvent := Handle.handleSendAckdTxEvent su .layer1
abbrev sendTxToLayer2TimeOut := Handle.sendTxTimeOut su .layer1
abbrev sendAckToLayer1TimeOut := Handle.sendAckTimeOut su .layer1
abbrev replyAckToLayer2TimeOut := Handle.replyAckTimeOut su .layer1

/-- `Initialize`. -/
def initializeHandle : AgentM Unit := do
  Handle.loadInfo su (.send .layer1) false
  Handle.loadInfo su (.ack .layer1) true
  Handle.loadInfo su (.reply .layer1) true

/-- `HandleStartTxEvent`: escrow on layer 2 at once, and acknowledge the failure if the
submission fails. -/
def handleStartTxEvent (crossTxid : Text) : AgentM Bool := do
  match ← Handle.readCrossTxInfo su .layer1 .layer1 crossTxid with
  | none => return false
  | some info =>
    let ret ← sendTxToLayer2 su info
    if ¬ret then
      let _ret ← sendAckToLayer1 su { info with status := crossResultFailed }
    return ret

/-- `OnTimer`. -/
def onTimer : AgentM Unit := do
  sendTxToLayer2TimeOut su
  sendAckToLayer1TimeOut su
  replyAckToLayer2TimeOut su

end Layer1ToLayer2Handle

namespace Layer2ToLayer1Handle

abbrev sendTxToLayer1 := Handle.sendTxTo su .layer2
abbrev sendAckToLayer2 := Handle.sendAckTo su .layer2
abbrev replyAckToLayer1 := Handle.replyAckTo su .layer2
abbrev handleSendTxEvent := Handle.handleSendTxEvent su .layer2
abbrev handleSendAckdTxEvent := Handle.handleSendAckdTxEvent su .layer2
abbrev sendTxToLayer1TimeOut := Handle.sendTxTimeOut su .layer2
abbrev sendAckToLayer2TimeOut := Handle.sendAckTimeOut su .layer2
abbrev replyAckToLayer1TimeOut := Handle.replyAckTimeOut su .layer2

/-- `Initialize`. -/
def initializeHandle : AgentM Unit := do
  Handle.loadInfo su .start false
  Handle.loadInfo su (.send .layer2) false
  Handle.loadInfo su (.ack .layer2) true
  Handle.loadInfo su (.reply .layer2) true

/-- `HandleStartTxEvent`: keep the transfer until its layer-2 height is confirmed. -/
def handleStartTxEvent (crossTxid : Text) : AgentM Bool := do
  match ← Handle.readCrossTxInfo su .layer2 .layer2 crossTxid with
  | none => return false
  | some info =>
    match ← getLayerSeq .layer2 with
    | none => return false
    | some layer2Seq =>
      Handle.saveInfo .start (CrossTx.ofInfo su.codec { info with confirmseq := layer2Seq })
      return true

/-- What `HandleConfirmSeqEvent` does with a confirmed entry. An entry past its timeout stays
in the map. -/
def confirmed (info : Protocol.CrossTxInfo) (currentTime : Int64) : AgentM Unit := do
  if info.timeout < currentTime then
    let _ret ← sendAckToLayer2 su { info with status := crossResultTimeout }
  else
    if ← sendTxToLayer1 su info then
      Handle.clearInfo .start info.crosstxid

/-- `HandleConfirmSeqEvent`. -/
def handleConfirmSeqEvent (confirmSeq : Int64) : AgentM Unit := do
  perform (Op.lock .start)
  let infos ← perform (Op.entries .start)
  infos.forM fun (_, e) => do
    let currentTime ← highResolution
    let info := e.info su.codec
    if info.confirmseq ≤ confirmSeq then
      confirmed su info currentTime
  perform (Op.unlock .start)

/-- `StartTxTimeOut`. -/
def startTxTimeOut : AgentM Unit := do
  let currentTime ← highResolution
  perform (Op.lock .start)
  let infos ← perform (Op.entries .start)
  infos.forM fun (key, e) => do
    if e.sendTxTimeout < currentTime then
      if ← sendAckToLayer2 su { e.info su.codec with status := crossResultFailed } then
        Handle.clearInfo .start key
  perform (Op.unlock .start)

/-- `OnTimer`. -/
def onTimer : AgentM Unit := do
  startTxTimeOut su
  sendTxToLayer1TimeOut su
  sendAckToLayer2TimeOut su
  replyAckToLayer1TimeOut su

end Layer2ToLayer1Handle

namespace HandleManager

/-- The topics of a cross contract's logs. -/
inductive Topic where
  | startTxTopic
  | sendTxTopic
  | ackTxTopic
  deriving DecidableEq, Repr

/-- `OnLayer1CrossContractTlog` and `OnLayer2SubscribeResponse`: the handler a log goes to. -/
def onTopic (l : Layer) (topic : Topic) (crossTxId : Text) : AgentM Bool :=
  match l, topic with
  | .layer1, .startTxTopic => Layer1ToLayer2Handle.handleStartTxEvent su crossTxId
  | .layer1, .sendTxTopic => Layer2ToLayer1Handle.handleSendTxEvent su crossTxId
  | .layer1, .ackTxTopic => Layer1ToLayer2Handle.handleSendAckdTxEvent su crossTxId
  | .layer2, .startTxTopic => Layer2ToLayer1Handle.handleStartTxEvent su crossTxId
  | .layer2, .sendTxTopic => Layer1ToLayer2Handle.handleSendTxEvent su crossTxId
  | .layer2, .ackTxTopic => Layer2ToLayer1Handle.handleSendAckdTxEvent su crossTxId

/-- `Initialize`, once the balances are sufficient. -/
def initializeHandle : AgentM Unit := do
  Layer1ToLayer2Handle.initializeHandle su
  Layer2ToLayer1Handle.initializeHandle su

/-- `OnTimer`. -/
def onTimer : AgentM Unit := do
  Layer1ToLayer2Handle.onTimer su
  Layer2ToLayer1Handle.onTimer su

/-- A call the agent makes of its handlers: on a log of a cross contract, on a `Submit` log of
the manager contract, and on the timer. -/
inductive Call where
  | tlog (l : Layer) (topic : Topic) (crossTxId : Text)
  | confirm (confirmSeq : Int64)
  | timer
  deriving DecidableEq

/-- The program of a call, with its return value. -/
def run : Call → AgentM Bool
  | .tlog l topic crossTxId => onTopic su l topic crossTxId
  | .confirm confirmSeq => do
    Layer2ToLayer1Handle.handleConfirmSeqEvent su confirmSeq
    return true
  | .timer => do
    onTimer su
    return true

end HandleManager

end CrosschainAgent
