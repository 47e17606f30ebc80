import CrosschainAgent.Common.Strings

/-!
# A cross-chain transfer as the agent keeps it

`Protocol.CrossTxInfo` is the protobuf message that is stored in the database, and `CrossTx`
the entry of the pending maps, which holds a serialized message next to the fields that are
read without parsing it.
-/

namespace CrosschainAgent

/-- `protocol::CrossTxInfo`. -/
structure Protocol.CrossTxInfo where
  crosstxid : Text := []
  srcbid : Text := []
  destbid : Text := []
  amount : Int64 := 0
  status : Int32 := 0
  refunded : Int32 := 0
  createtimestamp : Int64 := 0
  executetimestamp : Int64 := 0
  timeout : Int64 := 0
  errordesc : Text := []
  confirmseq : Int64 := 0
  sendtxhash : Text := []
  sendacktol1hash : Text := []
  sendacktol2hash : Text := []
  deriving DecidableEq

/-- The protobuf runtime: what is serialized is parsed back. -/
structure Codec where
  serializeAsString : Protocol.CrossTxInfo → Text
  parseFromString : Text → Option Protocol.CrossTxInfo
  parse_serialize : ∀ info, parseFromString (serializeAsString info) = some info

namespace Protocol.CrossTxInfo

/-- `sendacktol1hash` or `sendacktol2hash`, by the layer the ack goes to. -/
def ackHash (info : CrossTxInfo) : Layer → Text
  | .layer1 => info.sendacktol1hash
  | .layer2 => info.sendacktol2hash

def setAckHash (info : CrossTxInfo) (l : Layer) (txhash : Text) : CrossTxInfo :=
  match l with
  | .layer1 => { info with sendacktol1hash := txhash }
  | .layer2 => { info with sendacktol2hash := txhash }

/-- The ack hash of a layer is what was set. -/
@[simp] theorem ackHash_setAckHash (info : CrossTxInfo) (l : Layer) (txhash : Text) :
    (info.setAckHash l txhash).ackHash l = txhash := by
  cases l <;> rfl

/-- Setting an ack hash leaves the id. -/
@[simp] theorem crosstxid_setAckHash (info : CrossTxInfo) (l : Layer) (txhash : Text) :
    (info.setAckHash l txhash).crosstxid = info.crosstxid := by
  cases l <;> rfl

/-- Setting an ack hash leaves the status. -/
@[simp] theorem status_setAckHash (info : CrossTxInfo) (l : Layer) (txhash : Text) :
    (info.setAckHash l txhash).status = info.status := by
  cases l <;> rfl

end Protocol.CrossTxInfo

def crossResultInit : Int32 := 0
def crossResultSuccess : Int32 := 1
def crossResultFailed : Int32 := 2
def crossResultTimeout : Int32 := 3

/-- Microseconds in a second. -/
def microUnitsPerSec : Int64 := 1000000

/-- An entry of a pending map; `status_` and `confirm_seq_` are set but never read. -/
structure CrossTx where
  crossTxId : Text
  sendTxTimeout : Int64
  sendAckTimeout : Int64
  sendTxHash : Text
  sendAckToL1Hash : Text
  sendAckToL2Hash : Text
  crossTxInfo : Text
  deriving DecidableEq

namespace CrossTx

/-- The constructor; it leaves `send_ack_timeout_` unset. -/
def ofInfo (codec : Codec) (info : Protocol.CrossTxInfo) : CrossTx where
  crossTxId := info.crosstxid
  sendTxTimeout := info.timeout
  sendAckTimeout := 0
  sendTxHash := info.sendtxhash
  sendAckToL1Hash := info.sendacktol1hash
  sendAckToL2Hash := info.sendacktol2hash
  crossTxInfo := codec.serializeAsString info

/-- `send_ack_to_l1_hash_` or `send_ack_to_l2_hash_`, by the layer the ack goes to. -/
def ackHash (e : CrossTx) : Layer → Text
  | .layer1 => e.sendAckToL1Hash
  | .layer2 => e.sendAckToL2Hash

/-- The message of an entry. `ParseFromString` fails on no text that was serialized. -/
def info (codec : Codec) (e : CrossTx) : Protocol.CrossTxInfo :=
  (codec.parseFromString e.crossTxInfo).getD {}

/-- An entry holds its information, whatever its due time. -/
@[simp] theorem info_ofInfo (codec : Codec) (info : Protocol.CrossTxInfo) (t : Int64) :
    CrossTx.info codec { ofInfo codec info with sendAckTimeout := t } = info := by
  simp [CrossTx.info, ofInfo, codec.parse_serialize]

end CrossTx

end CrosschainAgent
