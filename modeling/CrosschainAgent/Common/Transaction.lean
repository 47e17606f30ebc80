import CrosschainAgent.Common.Basen

/-!
# The transactions of the agent

`Layer1Transaction` and `Layer2Transaction` are the same class over the configuration of their layer. A
transaction is submitted as the hexadecimal text of its serialization, and what is signed is the bytes
that are read back from that text.
-/

namespace CrosschainAgent

open Strings Basen

namespace Protocol

/-- `protocol::OperationPayCoin`. -/
structure OperationPayCoin where
  destAddress : Text
  amount : Int64
  input : Text
  deriving DecidableEq

/-- `protocol::Operation`, of the type the agent uses. -/
inductive Operation where
  | payCoin (payCoin : OperationPayCoin)
  deriving DecidableEq

/-- `protocol::Transaction_TxType`. -/
inductive TxType where
  | increaseNonce
  | randomNonce
  deriving DecidableEq

/-- The fields of `protocol::Transaction` that the agent sets. -/
structure Transaction where
  sourceAddress : Text
  nonce : Int64 := 0
  operations : List Operation := []
  feeLimit : Int64
  gasPrice : Int64
  chainId : Int64 := 0
  nonceType : TxType
  maxLedgerSeq : Int64 := 0
  deriving DecidableEq

end Protocol

/-- The part of the configuration of a layer that its transactions read. -/
structure TransactionConfigure where
  agentAddress : Text
  feeLimit : Int64
  gasPrice : Int64
  crossContract : Text

namespace Transaction

open Protocol

/-- The constructor. -/
def init (conf : TransactionConfigure) : Transaction where
  sourceAddress := conf.agentAddress
  feeLimit := conf.feeLimit
  gasPrice := conf.gasPrice
  nonceType := .randomNonce

/-- `AddTransactionOperation`. -/
def addTransactionOperation (conf : TransactionConfigure) (input : Text) (amount : Int64)
    (pbTransaction : Transaction) : Transaction :=
  { pbTransaction with
    operations := pbTransaction.operations ++
      [.payCoin { destAddress := conf.crossContract, amount := amount, input := input }] }

/-- `SetRandomNonce`: the nonce 0 asks for the time in milliseconds. -/
def setRandomNonce (nonce millis : Int64) (pbTransaction : Transaction) : Transaction :=
  { pbTransaction with nonce := if nonce ≠ 0 then nonce else millis }

/-- The transaction that `GetTransactionBlob` serializes. -/
def prepare (maxSeq millis : Int64) (pbTransaction : Transaction) : Transaction :=
  let pbTransaction :=
    if pbTransaction.nonce = 0 then setRandomNonce 0 millis pbTransaction else pbTransaction
  { pbTransaction with maxLedgerSeq := maxSeq }

variable (SerializeToString : Transaction → Bytes)

/-- `GetTransactionBlob`. -/
def getTransactionBlob (maxSeq millis : Int64) (pbTransaction : Transaction) : Option Text :=
  encodeB16 (SerializeToString (prepare maxSeq millis pbTransaction))

/-- An item of a submit request, with its one signature. -/
structure SubmitItem where
  transactionBlob : Text
  publicKey : Text
  signData : Text

/-- The item that `sendTransactionToLayer1` and `sendTransactionToLayer2` make of a transaction. -/
def submitItem (getEncPublicKey : Text) (sign : Bytes → Bytes) (maxSeq millis : Int64)
    (pbTransaction : Transaction) : Option SubmitItem := do
  let tranBlob ← getTransactionBlob SerializeToString maxSeq millis pbTransaction
  let binTranBlob := hexStringToBin tranBlob
  return {
    transactionBlob := tranBlob
    publicKey := getEncPublicKey
    signData := binToHexString (sign binTranBlob) }

/-- The blob of a transaction is read back as its serialization. -/
theorem hexStringToBin_getTransactionBlob (maxSeq millis : Int64) (pbTransaction : Transaction) :
    (getTransactionBlob SerializeToString maxSeq millis pbTransaction).map hexStringToBin =
      some (SerializeToString (prepare maxSeq millis pbTransaction)) := by
  rw [getTransactionBlob, encodeB16_eq, Option.map_some, hexStringToBin_binToHexString]

/-- The two encoders agree on every byte string, `HexStringToBin` inverts them, and the bytes that are
signed for a transaction are those that the submitted blob stands for: its serialization. -/
theorem signed_is_submitted :
    (∀ value, encodeB16 value = some (binToHexString value) ∧
      hexStringToBin (binToHexString value) = value) ∧
    ∀ (getEncPublicKey : Text) (sign : Bytes → Bytes) (maxSeq millis : Int64)
      (pbTransaction : Transaction),
      ∃ item, submitItem SerializeToString getEncPublicKey sign maxSeq millis pbTransaction = some item ∧
        hexStringToBin item.transactionBlob = SerializeToString (prepare maxSeq millis pbTransaction) ∧
        hexStringToBin item.signData = sign (hexStringToBin item.transactionBlob) := by
  refine ⟨fun value => ⟨encodeB16_eq value, hexStringToBin_binToHexString value⟩, ?_⟩
  intro getEncPublicKey sign maxSeq millis pbTransaction
  obtain ⟨tranBlob, hblob, hserialized⟩ := Option.map_eq_some_iff.mp
    (hexStringToBin_getTransactionBlob SerializeToString maxSeq millis pbTransaction)
  have hitem : submitItem SerializeToString getEncPublicKey sign maxSeq millis pbTransaction =
      some ⟨tranBlob, getEncPublicKey, binToHexString (sign (hexStringToBin tranBlob))⟩ := by
    rw [submitItem, hblob]
    rfl
  exact ⟨_, hitem, hserialized, hexStringToBin_binToHexString _⟩

end Transaction

end CrosschainAgent
