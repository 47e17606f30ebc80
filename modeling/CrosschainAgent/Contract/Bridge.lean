import Mathlib.Algebra.Ring.Nat
import Mathlib.Logic.Function.Basic
import Mathlib.Tactic.Common

/-!
# The two cross-chain bridge contracts

`L1CrossChainBridge.sol` and `L2CrossChainBridge.sol` are hand-copied: they share every
function and differ in the upper bound of `SetTimeout`, in which of the two chain ids a
record is started with, in the admission test of `SendTx` and in how `SendAckedTx` tells a
record started here from one sent here. Each function is therefore written once over the
`Layer` its contract lives on; the contracts' own functions are the two instances.

A call either reverts with its reason, leaving no trace, or yields the new contract state
and a receipt with the events and native transfers it made. Solidity 0.8 reverts on
overflow, which matters for `block.timestamp + timeout_` only.
-/

namespace CrosschainAgent

/-- Text, as the sequence of characters of a C++ or Solidity string. -/
abbrev Text := List Char

/-- A Solidity `bytes` value. -/
abbrev Bytes := List UInt8

/-- An account; `address(0)` is `0`. -/
abbrev Address := ℕ

/-- The two chains the agent stands between. -/
inductive Layer where
  | layer1
  | layer2
  deriving DecidableEq, Repr

/-- The opposite chain. -/
def Layer.other : Layer → Layer
  | .layer1 => .layer2
  | .layer2 => .layer1

/-- The other of the other layer is the layer. -/
@[simp] theorem Layer.other_other (l : Layer) : l.other.other = l := by cases l <;> rfl

/-- The other layer is another one. -/
theorem Layer.other_ne (l : Layer) : l.other ≠ l := by cases l <;> decide

inductive TxStatusEnum where
  | init
  | ackSuccess
  | ackFail
  | ackTimeout
  deriving DecidableEq, Repr

/-- The `uint8` view of a status, as `GetCrossTxInfo2` returns it. -/
def TxStatusEnum.toNat : TxStatusEnum → ℕ
  | .init => 0
  | .ackSuccess => 1
  | .ackFail => 2
  | .ackTimeout => 3

inductive TxRefundedEnum where
  | none
  | todo
  | refunded
  deriving DecidableEq, Repr

def TxRefundedEnum.toNat : TxRefundedEnum → ℕ
  | .none => 0
  | .todo => 1
  | .refunded => 2

namespace Bridge

/-- The `CrossTxInfo` struct of the contracts; its default is what an unset mapping slot
holds. -/
structure CrossTxInfo where
  crossTxId : Bytes := []
  srcChainId : ℕ := 0
  destChainId : ℕ := 0
  srcBid : Address := 0
  destBid : Address := 0
  amount : ℕ := 0
  status : TxStatusEnum := .init
  refunded : TxRefundedEnum := .none
  errorDesc : Text := []
  createTimestamp : ℕ := 0
  executeTimestamp : ℕ := 0
  timeout : ℕ := 0
  deriving DecidableEq, Repr

/-- A record exists once its `crossTxId` is set. -/
def CrossTxInfo.Exists (r : CrossTxInfo) : Prop := r.crossTxId ≠ []

instance (r : CrossTxInfo) : Decidable r.Exists := inferInstanceAs (Decidable (_ ≠ _))

/-- The amount is still in the contract on behalf of this record. -/
def CrossTxInfo.Live (r : CrossTxInfo) : Prop :=
  r.Exists ∧ (r.status = .init ∨ r.refunded = .todo)

instance (r : CrossTxInfo) : Decidable r.Live := inferInstanceAs (Decidable (_ ∧ _))

/-- The contract's storage together with its native balance. -/
structure State where
  owner : Address
  chainId : ℕ
  timeout : ℕ
  crossTxInfo : Bytes → CrossTxInfo
  balance : ℕ

inductive Event where
  | startTxEvent (crossTxId : Bytes)
  | sendTxEvent (crossTxId : Bytes)
  | sendAckedTxEvent (crossTxId : Bytes)
  | refundEvent (crossTxId : Bytes)
  | setOwnerEvent (newOwner : Address)
  | setTimeoutEvent (newTimeout : ℕ)
  deriving DecidableEq, Repr

/-- The environment of a call: `msg.sender`, `msg.value`, `block.timestamp`, and which
accounts take a native transfer sent to them during the call. -/
structure Msg where
  sender : Address
  value : ℕ
  timestamp : ℕ
  accepts : Address → Bool

/-- The events a call emitted and the native transfers it made. -/
structure Receipt where
  events : List Event
  transfers : List (Address × ℕ) := []
  deriving DecidableEq, Repr

/-- `sha256` of the ABI encoding: the six arguments are encoded as one word each. -/
structure Sha256 where
  hash : List ℕ → Bytes
  length_hash : ∀ words, (hash words).length = 32

/-- Solidity's `require`. -/
def require (condition : Prop) [Decidable condition] (reason : String) : Except String Unit :=
  if condition then .ok () else .error reason

/-- A call passes a `require` exactly when the condition holds. -/
@[simp] theorem require_bind_eq_ok {condition : Prop} [Decidable condition] {reason : String}
    {α : Type} {f : Unit → Except String α} {a : α} :
    (require condition reason >>= f) = .ok a ↔ condition ∧ f () = .ok a := by
  by_cases h : condition <;> simp [require, h, bind, Except.bind]

/-- A function without `payable` reverts when it is sent native coins. -/
def nonPayable (msg : Msg) : Except String Unit :=
  require (msg.value = 0) "non-payable function"

/-- The `onlyOwner` modifier. -/
def onlyOwner (b : State) (msg : Msg) : Except String Unit :=
  require (msg.sender = b.owner) "This function is restricted to the contract's owner"

/-- A `payable` function holds `msg.value` before its body runs. -/
def receive (b : State) (msg : Msg) : State := { b with balance := b.balance + msg.value }

/-- The reason of a native transfer that the contract's own balance cannot cover. -/
def insufficientFunds : String := "transfer: insufficient balance"

/-- `address.transfer`: it moves the amount, or reverts the whole call. -/
def transfer (b : State) (msg : Msg) (recipient : Address) (amount : ℕ) : Except String State := do
  require (amount ≤ b.balance) insufficientFunds
  require (msg.accepts recipient) "transfer: recipient reverted"
  return { b with balance := b.balance - amount }

/-- Store a record under its id. -/
def State.store (b : State) (crossTxId : Bytes) (r : CrossTxInfo) : State :=
  { b with crossTxInfo := Function.update b.crossTxInfo crossTxId r }

/-- The source and destination chain ids of a record started on this layer: layer 1 has
chain id 0, layer 2 has `chainId_`. -/
def startedRoute (l : Layer) (chainId : ℕ) : ℕ × ℕ :=
  match l with
  | .layer1 => (0, chainId)
  | .layer2 => (chainId, 0)

/-- The test by which `SendAckedTx` takes a record for one started on this layer. -/
def isStarted (l : Layer) (chainId srcChainId : ℕ) : Bool :=
  match l with
  | .layer1 => srcChainId == 0
  | .layer2 => srcChainId == chainId

/-- The admission test of `SendTx`: layer 1 accepts the boundary, layer 2 does not. -/
def inTime (l : Layer) (timeout timestamp : ℕ) : Bool :=
  match l with
  | .layer1 => timestamp ≤ timeout
  | .layer2 => timestamp < timeout

/-- The exclusive upper bound of `SetTimeout` and the reason given outside the range. -/
def timeoutLimit (l : Layer) : ℕ × String :=
  match l with
  | .layer1 => (12 * 3600 * 1000 * 1000,
      "SetTimeout: timeout must be greater than 30min and smaller than 12h")
  | .layer2 => (180 * 3600 * 1000 * 1000,
      "SetTimeout: _timeout is not in the range of 30 minutes to 180 hours")

/-- The constructor. -/
def deploy (sender : Address) (_chainId _timeout : ℕ) : State :=
  { owner := sender, chainId := _chainId, timeout := _timeout,
    crossTxInfo := fun _ => {}, balance := 0 }

def setTimeout (l : Layer) (b : State) (msg : Msg) (_timeout : ℕ) :
    Except String (State × Receipt) := do
  nonPayable msg
  onlyOwner b msg
  require (_timeout > 30 * 60 * 1000 * 1000 ∧ _timeout < (timeoutLimit l).1) (timeoutLimit l).2
  return ({ b with timeout := _timeout }, { events := [.setTimeoutEvent _timeout] })

def setOwner (b : State) (msg : Msg) (_owner : Address) : Except String (State × Receipt) := do
  nonPayable msg
  onlyOwner b msg
  require (_owner ≠ 0) "SetOwner: _owner is invalid"
  require (_owner ≠ b.owner) "SetOwner: _owner and owner_ are equal"
  return ({ b with owner := _owner }, { events := [.setOwnerEvent _owner] })

/-- The words `StartTx` hashes into the id of the new record. -/
def startWords (l : Layer) (chainId : ℕ) (srcBid destBid : Address) (amount timestamp : ℕ) :
    List ℕ :=
  [srcBid, destBid, (startedRoute l chainId).1, (startedRoute l chainId).2, amount, timestamp]

/-- The record `StartTx` stores. -/
def startedInfo (l : Layer) (b : State) (msg : Msg) (txId : Bytes) (srcBid destBid : Address)
    (amount : ℕ) : CrossTxInfo :=
  { crossTxId := txId, srcChainId := (startedRoute l b.chainId).1,
    destChainId := (startedRoute l b.chainId).2, srcBid := srcBid, destBid := destBid,
    amount := amount, status := .init, createTimestamp := msg.timestamp,
    timeout := msg.timestamp + b.timeout }

def startTx (l : Layer) (sha256 : Sha256) (b : State) (msg : Msg) (srcBid destBid : Address)
    (amount : ℕ) : Except String (State × Receipt) := do
  let b := receive b msg
  require (srcBid ≠ 0 ∧ destBid ≠ 0) "StartTx: src_bid or dest_bid is invalid"
  require (srcBid = msg.sender) "StartTx: src_bid and msg.sender are not equal"
  require (amount = msg.value) "StartTx: amount and msg.value are not equal"
  let txId := sha256.hash (startWords l b.chainId srcBid destBid amount msg.timestamp)
  require (msg.timestamp + b.timeout < 2 ^ 256) "arithmetic overflow"
  return (b.store txId (startedInfo l b msg txId srcBid destBid amount),
    { events := [.startTxEvent txId] })

/-- The record `SendTx` stores: it rewrites the fields of the slot it has just read. -/
def sentInfo (l : Layer) (b : State) (msg : Msg) (crossTxId : Bytes) (srcBid destBid : Address)
    (amount timeout : ℕ) : CrossTxInfo :=
  { b.crossTxInfo crossTxId with
    crossTxId := crossTxId, srcChainId := (startedRoute l b.chainId).2,
    destChainId := (startedRoute l b.chainId).1, srcBid := srcBid, destBid := destBid,
    amount := amount, executeTimestamp := msg.timestamp, timeout := timeout }

def sendTx (l : Layer) (b : State) (msg : Msg) (crossTxId : Bytes) (srcBid destBid : Address)
    (amount timeout : ℕ) : Except String (State × Receipt) := do
  let b := receive b msg
  onlyOwner b msg
  require (crossTxId.length = 32) "SendTx: invalid cross_tx_id"
  require (srcBid ≠ 0 ∧ destBid ≠ 0) "SendTx: src_bid or dest_bid is invalid"
  require (amount = msg.value) "SendTx: amount and msg.value are not equal"
  require (inTime l timeout msg.timestamp) "SendTx: timeout must be greater than current timestamp"
  require ((b.crossTxInfo crossTxId).crossTxId.length = 0) "SendTx: cross_tx_id already exists"
  return (b.store crossTxId (sentInfo l b msg crossTxId srcBid destBid amount timeout),
    { events := [.sendTxEvent crossTxId] })

/-- `bytes(text).length`. -/
def byteLength (text : Text) : ℕ := (text.map fun c => c.utf8Size).sum

def sendAckedTx (l : Layer) (b : State) (msg : Msg) (crossTxId : Bytes) (result : ℕ)
    (errorDesc : Text) (executeTime : ℕ) : Except String (State × Receipt) := do
  nonPayable msg
  onlyOwner b msg
  require (crossTxId.length = 32) "SendAckedTx: invalid cross_tx_id"
  let crossTxInfo := b.crossTxInfo crossTxId
  require (crossTxInfo.crossTxId.length > 0) "SendAckedTx: cross_tx_id is not exists"
  require (crossTxInfo.status = .init) "SendAckedTx: cross_tx_id status is not INIT"
  require (result = 1 ∨ result = 2 ∨ result = 3) "SendAckedTx: result must be 1 or 2 or 3"
  require (byteLength errorDesc < 2048) "SendAckedTx: error_desc length must be less than 2048"
  if result = 1 then
    require (executeTime < crossTxInfo.timeout ∧ executeTime > crossTxInfo.createTimestamp)
      "SendAckedTx: execute_time must be greater than createTimestamp and less than timeout"
    let acked := { crossTxInfo with status := .ackSuccess, executeTimestamp := executeTime }
    if isStarted l b.chainId crossTxInfo.srcChainId then
      let b ← transfer b msg msg.sender crossTxInfo.amount
      return (b.store crossTxId acked,
        { events := [.sendAckedTxEvent crossTxId], transfers := [(msg.sender, crossTxInfo.amount)] })
    else
      let b ← transfer b msg crossTxInfo.destBid crossTxInfo.amount
      return (b.store crossTxId acked,
        { events := [], transfers := [(crossTxInfo.destBid, crossTxInfo.amount)] })
  else if result = 2 then
    return (b.store crossTxId
      { crossTxInfo with status := .ackFail, refunded := .todo, errorDesc := errorDesc },
      { events := [] })
  else
    return (b.store crossTxId
      { crossTxInfo with status := .ackTimeout, refunded := .todo, errorDesc := "timeout".toList },
      { events := [] })

def refund (b : State) (msg : Msg) (crossTxId : Bytes) : Except String (State × Receipt) := do
  nonPayable msg
  require (crossTxId.length = 32) "Refund: invalid cross_tx_id"
  let crossTxInfo := b.crossTxInfo crossTxId
  require (crossTxInfo.crossTxId.length > 0) "Refund: cross_tx_id is not exists"
  require (crossTxInfo.refunded = .todo) "Refund: cross_tx_id refunded is not TODO"
  require (crossTxInfo.srcBid = msg.sender) "Refund: has not permission to refund"
  let b ← transfer b msg crossTxInfo.srcBid crossTxInfo.amount
  return (b.store crossTxId { crossTxInfo with refunded := .refunded },
    { events := [.refundEvent crossTxId], transfers := [(crossTxInfo.srcBid, crossTxInfo.amount)] })

/-- A call of one of the state-changing functions, with its decoded arguments. -/
inductive Call where
  | setTimeout (_timeout : ℕ)
  | setOwner (_owner : Address)
  | startTx (srcBid destBid : Address) (amount : ℕ)
  | sendTx (crossTxId : Bytes) (srcBid destBid : Address) (amount timeout : ℕ)
  | sendAckedTx (crossTxId : Bytes) (result : ℕ) (errorDesc : Text) (executeTime : ℕ)
  | refund (crossTxId : Bytes)
  deriving DecidableEq, Repr

/-- Dispatch a call to its function. -/
def exec (l : Layer) (sha256 : Sha256) (b : State) (msg : Msg) :
    Call → Except String (State × Receipt)
  | .setTimeout t => setTimeout l b msg t
  | .setOwner o => setOwner b msg o
  | .startTx s d a => startTx l sha256 b msg s d a
  | .sendTx i s d a t => sendTx l b msg i s d a t
  | .sendAckedTx i r e t => sendAckedTx l b msg i r e t
  | .refund i => refund b msg i

end Bridge

namespace L1CrossChainBridge

abbrev setTimeout := Bridge.setTimeout .layer1
abbrev setOwner := Bridge.setOwner
abbrev startTx := Bridge.startTx .layer1
abbrev sendTx := Bridge.sendTx .layer1
abbrev sendAckedTx := Bridge.sendAckedTx .layer1
abbrev refund := Bridge.refund

end L1CrossChainBridge

namespace L2CrossChainBridge

abbrev setTimeout := Bridge.setTimeout .layer2
abbrev setOwner := Bridge.setOwner
abbrev startTx := Bridge.startTx .layer2
abbrev sendTx := Bridge.sendTx .layer2
abbrev sendAckedTx := Bridge.sendAckedTx .layer2
abbrev refund := Bridge.refund

end L2CrossChainBridge

end CrosschainAgent
