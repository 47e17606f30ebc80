import CrosschainAgent.Library.Prog
import CrosschainAgent.Common.Json
import CrosschainAgent.Common.General

/-!
# What a handler does to the outside

A handler call is a program over the operations below: it reads the clock, makes HTTP
requests, writes the database, and locks and changes the pending maps. Between two of them
other threads, the two chains and the network may act. The maps and the database are
ordered maps, as `std::map` and RocksDB are.
-/

namespace CrosschainAgent

open Interaction Std

/-- The handler of the transfers that start on the given layer: `Layer1ToLayer2Handle` for
layer 1, `Layer2ToLayer1Handle` for layer 2. -/
abbrev Handle := Layer

/-- The pending maps of the two handlers. Only `Layer2ToLayer1Handle` has a start map. -/
inductive Store where
  | start
  | send (h : Handle)
  | ack (h : Handle)
  | reply (h : Handle)
  deriving DecidableEq, Repr

/-- The database key prefix of a pending map. -/
def Store.keyPrefix : Store → Text
  | .start => "L2_StartTx_".toList
  | .send .layer1 => "L1_SendTx_".toList
  | .send .layer2 => "L2_SendTx_".toList
  | .ack .layer1 => "L1_SendAckInfo_".toList
  | .ack .layer2 => "L2_SendAck_".toList
  | .reply .layer1 => "L1_ReplyAckInfo_".toList
  | .reply .layer2 => "L2_ReplyAck_".toList

/-- A pending map, keyed by `cross_tx_id_`. -/
abbrev InfoMap := ExtTreeMap Text CrossTx compare

/-- The key-value pairs of the database. -/
abbrev Database := ExtTreeMap Text Text compare

/-- The part of `Configure` the handlers read. -/
structure Configure where
  crossContract : Layer → Text

/-- The input of a contract query: the function's signature and its arguments as text. -/
structure QueryInput where
  function : Text
  args : Text
  deriving DecidableEq

/-- The input of a contract transaction. What the node gets of it is its `function` and its
`args`. -/
inductive TxInput where
  | sendTx (crossTxId srcBid destBid : Text) (amount timeout : Int64)
  | sendAckedTx (crossTxId : Text) (result : Int32) (errorDesc : Text) (executeTime : Int64)
  deriving DecidableEq

/-- The `function` member of an input. -/
def TxInput.function : TxInput → Text
  | .sendTx _ _ _ _ _ => "SendTx(bytes,address,address,uint256,uint256)".toList
  | .sendAckedTx _ _ _ _ => "SendAckedTx(bytes,uint8,string,uint256)".toList

/-- The `args` member of an input: formatted by `'%s',%s,%s,%ld,%ld` or `'%s',%d,'%s',%ld`. -/
def TxInput.args : TxInput → Text
  | .sendTx crossTxId srcBid destBid amount timeout =>
    "'".toList ++ crossTxId ++ "',".toList ++ srcBid ++ ",".toList ++ destBid ++ ",".toList ++
      Strings.formatLd amount ++ ",".toList ++ Strings.formatLd timeout
  | .sendAckedTx crossTxId result errorDesc executeTime =>
    "'".toList ++ crossTxId ++ "',".toList ++ Strings.formatD result ++ ",'".toList ++ errorDesc ++
      "',".toList ++ Strings.formatLd executeTime

/-- The arguments of `SendTx` as the agent writes them. -/
theorem TxInput.args_sendTx (crossTxId srcBid destBid : Text) (amount timeout : Int64) :
    (TxInput.sendTx crossTxId srcBid destBid amount timeout).args =
      "'".toList ++ crossTxId ++ "',".toList ++ srcBid ++ ",".toList ++ destBid ++ ",".toList ++
        Strings.formatLd amount ++ ",".toList ++ Strings.formatLd timeout := rfl

/-- The arguments of `SendAckedTx` as the agent writes them. -/
theorem TxInput.args_sendAckedTx (crossTxId : Text) (result : Int32) (errorDesc : Text)
    (executeTime : Int64) :
    (TxInput.sendAckedTx crossTxId result errorDesc executeTime).args =
      "'".toList ++ crossTxId ++ "',".toList ++ Strings.formatD result ++ ",'".toList ++ errorDesc ++
        "',".toList ++ Strings.formatLd executeTime := rfl

/-- The requests made to the HTTP endpoint of a layer. -/
inductive Request where
  | getLedger
  | callContract (contractAddress : Text) (input : QueryInput)
  | submitTransaction (destAddress : Text) (input : TxInput) (amount maxLedgerSeq : Int64)
  | getTransactionHistory (hash : Text)
  deriving DecidableEq

/-- The operations of a handler. -/
inductive Op where
  | highResolution
  | http (endpoint : Layer) (request : Request)
  | dbPut (key value : Text)
  | dbDelete (key : Text)
  | dbScan (keyPrefix : Text)
  | lock (s : Store)
  | unlock (s : Store)
  | entries (s : Store)
  | emplace (s : Store) (key : Text) (e : CrossTx)
  | erase (s : Store) (key : Text)
  | setAckTimeout (s : Store) (key : Text) (time : Int64)
  | terminate

/-- What an operation returns. `terminate` does not return: an exception that nothing
catches, or an access out of bounds, ends the process. -/
abbrev Op.Resp : Op → Type
  | .highResolution => Int64
  | .http _ _ => HttpResult
  | .dbPut _ _ => Bool
  | .dbDelete _ => Bool
  | .dbScan _ => Option (List Text)
  | .lock _ => Unit
  | .unlock _ => Unit
  | .entries _ => List (Text × CrossTx)
  | .emplace _ _ _ => Unit
  | .erase _ _ => Unit
  | .setAckTimeout _ _ _ => Unit
  | .terminate => Empty

/-- A handler call that returns an `α`. -/
abbrev AgentM := Prog Op Op.Resp

/-- Go on with the value, or end the process when the C++ code throws or reads past an end. -/
def orTerminate {α : Type} : Option α → AgentM α
  | some a => pure a
  | none => .op .terminate Empty.elim

/-- `utils::Timestamp::HighResolution()`. -/
def highResolution : AgentM Int64 := perform Op.highResolution

end CrosschainAgent
