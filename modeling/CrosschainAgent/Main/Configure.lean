import CrosschainAgent.Common.Json
import CrosschainAgent.Crypto.StoredKeys

/-!
# The configuration

`Configure::LoadFromJson` reads the sections of the configuration file. `GetValue` leaves a value as it was
where its member is missing; the numbers of the two layers have no value before, so that they are what the
memory held. The sections of the two layers are read alike. A private key that does not start with `pri` is
taken for a ciphertext. What `asString`, `asInt64` and the others throw is not caught, and is `none` here.
-/

namespace CrosschainAgent

open KeypairUtils

namespace Strings

/-- The loop of `Strtok` over what follows the characters of a piece: an empty piece is left out, except the
one behind the last separator. -/
def strtokLoop (separator : Char) : Text → Text → List Text
  | piece, [] => [piece]
  | piece, c :: rest =>
    if c = separator then
      if piece = [] then strtokLoop separator [] rest else piece :: strtokLoop separator [] rest
    else strtokLoop separator (piece ++ [c]) rest

/-- `utils::String::Strtok` with one separator. -/
def strtok (str : Text) (separator : Char) : List Text := strtokLoop separator [] str

/-- `utils::String::ToUpper`. -/
def toUpper (str : Text) : Text :=
  str.map fun c => if 'a' ≤ c ∧ c ≤ 'z' then Char.ofNat (c.toNat - 0x20) else c

/-- The bytes of a text. -/
def utf8 (text : Text) : Bytes := text.flatMap String.utf8EncodeChar

/-- The characters of a string of bytes. -/
def chars (str : Bytes) : Text := str.map fun byte => Char.ofNat byte.toNat

end Strings

open Strings

/-- `value.asUInt()`. -/
def Json.asUInt (j : Json) : Option UInt32 := (j.asIntBetween 0 (2 ^ 32 - 1)).map fun n => UInt32.ofNat n.toNat

/-- `value.asString()` as it is kept in a `std::string`. -/
def Json.asBytes (j : Json) : Option Bytes := j.asString.map utf8

namespace ConfigureBase

/-- `GetValue`, with the reader for the type of the value. -/
def getValue {α : Type} (read : Json → Option α) (object : Json) (key : String) (value : α) : Option α := do
  if ← object.isMember key.toList then read (← object.get key.toList) else return value

end ConfigureBase

open ConfigureBase

/-- `LoggerConfigure`. -/
structure LoggerConfigure where
  path : Text := []
  destStr : Text := []
  levelStr : Text := []
  timeCapacity : Int32 := 30
  sizeCapacity : Int64 := 100
  dest : UInt32 := 0x03
  level : UInt32 := 0xFF
  expireDays : Int32 := 10

namespace LoggerConfigure

/-- The bits of `LogDest`. -/
def dests : List (Text × UInt32) :=
  [("STDOUT".toList, 0x02), ("STDERR".toList, 0x04), ("FILE".toList, 0x01), ("PERFORMANCE".toList, 0x08)]

/-- The bits of `LogLevel`. -/
def levels : List (Text × UInt32) :=
  [("TRACE".toList, 0x01), ("DEBUG".toList, 0x02), ("INFO".toList, 0x04), ("WARNING".toList, 0x08),
    ("ERROR".toList, 0x10), ("FATAL".toList, 0x20), ("PERFORMANCE".toList, 0x40)]

/-- The bits of the items of a text, from `NONE` on; `ALL` sets every bit. -/
def mask (bits : List (Text × UInt32)) (str : Text) : UInt32 :=
  (strtok str '|').foldl
    (fun mask item =>
      if toUpper item = "ALL".toList then 0xFF else mask ||| (bits.lookup (toUpper item)).getD 0) 0

/-- `Load`, which always returns true. -/
def load (value : Json) (this : LoggerConfigure) : Option LoggerConfigure := do
  let path ← getValue Json.asString value "path" this.path
  let destStr ← getValue Json.asString value "dest" this.destStr
  let levelStr ← getValue Json.asString value "level" this.levelStr
  let timeCapacity ← getValue Json.asInt value "time_capacity" this.timeCapacity
  let sizeCapacity ← getValue Json.asInt64 value "size_capacity" this.sizeCapacity
  let expireDays ← getValue Json.asInt value "expire_days" this.expireDays
  return {
    path, destStr, levelStr, expireDays
    timeCapacity := timeCapacity * (3600 * 24)
    sizeCapacity := sizeCapacity * (1024 * 1024)
    dest := mask dests destStr
    level := mask levels levelStr }

end LoggerConfigure

/-- `WebServerConfigure`. -/
structure WebServerConfigure where
  port : UInt32 := 8080
  threadCount : UInt32 := 8

/-- `Load`, which always returns true. -/
def WebServerConfigure.load (value : Json) (this : WebServerConfigure) : Option WebServerConfigure := do
  let port ← getValue Json.asUInt value "listen_port" this.port
  let threadCount ← getValue Json.asUInt value "thread_count" this.threadCount
  return { port, threadCount }

/-- The members that `Layer1Configure` and `Layer2Configure` share. -/
structure LayerConfigure where
  httpEndpoint : Text := []
  wsEndpoint : Text := []
  crossContract : Text := []
  privateKey : Bytes := []
  agentAddress : Bytes := []
  startTxTopic : Text := []
  sendTxTopic : Text := []
  ackTxTopic : Text := []
  feeLimit : Int64
  gasPrice : Int64

variable {Point : Type} [AddCommGroup Point] (AES : Bytes → Equiv.Perm Aes.Block) (lib : KeyLibraries Point)

namespace LayerConfigure

/-- The private key that a string of the configuration stands for. -/
def plainKey (privateKey : Bytes) : Bytes :=
  if privateKeyPrefix <+: privateKey then privateKey
  else Aes.hexDecrypto AES (chars privateKey) Aes.getDataSecuretKey

/-- What `Load` reads before it looks at the key. -/
def readValues (value : Json) (this : LayerConfigure) : Option LayerConfigure := do
  let httpEndpoint ← getValue Json.asString value "http_endpoint" this.httpEndpoint
  let wsEndpoint ← getValue Json.asString value "ws_endpoint" this.wsEndpoint
  let crossContract ← getValue Json.asString value "cross_contract" this.crossContract
  let feeLimit ← getValue Json.asInt64 value "fee_limit" this.feeLimit
  let gasPrice ← getValue Json.asInt64 value "gas_price" this.gasPrice
  let privateKey ← getValue Json.asBytes value "private_key" this.privateKey
  return { this with
    httpEndpoint, wsEndpoint, crossContract, feeLimit, gasPrice
    privateKey := plainKey AES privateKey }

/-- The members of `cross_topic`, where there is one. -/
def readTopics (value : Json) (this : LayerConfigure) : Option LayerConfigure := do
  if ← value.isMember "cross_topic".toList then
    let crossTopic ← value.get "cross_topic".toList
    let startTxTopic ← getValue Json.asString crossTopic "start_tx" this.startTxTopic
    let sendTxTopic ← getValue Json.asString crossTopic "send_tx" this.sendTxTopic
    let ackTxTopic ← getValue Json.asString crossTopic "send_ack" this.ackTxTopic
    return { this with startTxTopic, sendTxTopic, ackTxTopic }
  else return this

/-- A topic that is still empty gets its default. -/
def defaultTopic (topic default : Text) : Text := if topic = [] then default else topic

/-- The least values of the fees, and the topics that are missing. -/
def withDefaults (this : LayerConfigure) : LayerConfigure :=
  { this with
    gasPrice := if this.gasPrice < 1 then 1 else this.gasPrice
    feeLimit := if this.feeLimit < 20000 then 20000 else this.feeLimit
    startTxTopic := defaultTopic this.startTxTopic
      "2b543a7f49dd6ca6d30b8c2491cdce5a52e11bf1169943cd065a4f64b3f50e6b".toList
    sendTxTopic := defaultTopic this.sendTxTopic
      "484087f6a046ffc37d32313f7ef1ad396194834491546b43547d08f91b9ed773".toList
    ackTxTopic := defaultTopic this.ackTxTopic
      "424ebb38adf5561feffc826f8b8e6073045b5665e75cbfee188470bfb6ad6af5".toList }

/-- What the two `Load`s share, with the table of `GetEncAddress`: whether the key is valid, and what is read.
The fees are raised before the topics are read, which changes nothing. -/
def load (value : Json) (gPubToAddress : Bytes → Option Bytes) (this : LayerConfigure) :
    Option (Bool × LayerConfigure × (Bytes → Option Bytes)) := do
  let this ← this.readValues AES value
  let priv := PrivateKeyV4.fromKey lib {} this.privateKey
  if ¬priv.valid then return (false, this, gPubToAddress)
  let (agentAddress, gPubToAddress) := priv.getEncAddress lib {} gPubToAddress
  let this ← { this with agentAddress }.readTopics value
  return (true, this.withDefaults, gPubToAddress)

end LayerConfigure

/-- `Layer1Configure`. -/
structure Layer1Configure extends LayerConfigure where
  topics : List Text := []
  managerContract : Text := []

/-- The members that are the same in every configuration. -/
def Layer1Configure.ofLayer (layer : LayerConfigure) : Layer1Configure where
  toLayerConfigure := layer
  managerContract := "did:bid:efEnXEGWYjHRw1CzK4KpWTdusnaRokk8".toList
  topics := strtok "RegisterAgent|FreezeAgent|UnfreezeAgent|StopUsingAgent|Submit".toList '|'

/-- `Load`. -/
def Layer1Configure.load (value : Json) (gPubToAddress : Bytes → Option Bytes) (this : Layer1Configure) :
    Option (Bool × Layer1Configure × (Bytes → Option Bytes)) := do
  let (ret, layer, gPubToAddress) ← this.toLayerConfigure.load AES lib value gPubToAddress
  if ¬ret then return (false, { this with toLayerConfigure := layer }, gPubToAddress)
  return (true, ofLayer layer, gPubToAddress)

/-- `Layer2Configure`. -/
structure Layer2Configure extends LayerConfigure where
  layer2Id : Int64

/-- `Load`. -/
def Layer2Configure.load (value : Json) (gPubToAddress : Bytes → Option Bytes) (this : Layer2Configure) :
    Option (Bool × Layer2Configure × (Bytes → Option Bytes)) := do
  let layer2Id ← getValue Json.asInt64 value "layer2_id" this.layer2Id
  let (ret, layer, gPubToAddress) ← this.toLayerConfigure.load AES lib value gPubToAddress
  return (ret, { toLayerConfigure := layer, layer2Id }, gPubToAddress)

/-- `Configure`. -/
structure Main.Configure where
  loggerConfigure : LoggerConfigure := {}
  layer1Configure : Layer1Configure
  layer2Configure : Layer2Configure
  webserverConfigure : WebServerConfigure := {}

namespace Main.Configure

/-- The configuration of a layer. -/
def layer (this : Configure) : Layer → LayerConfigure
  | .layer1 => this.layer1Configure.toLayerConfigure
  | .layer2 => this.layer2Configure.toLayerConfigure

/-- The sections that must be there. -/
def hasSections (values : Json) : Option Bool :=
  ["logger", "layer1", "webserver", "layer2"].allM fun key => values.isMember key.toList

/-- `LoadFromJson`. -/
def loadFromJson (values : Json) (gPubToAddress : Bytes → Option Bytes) (this : Configure) :
    Option (Bool × Configure × (Bytes → Option Bytes)) := do
  if ¬(← hasSections values) then return (false, this, gPubToAddress)
  let loggerConfigure ← this.loggerConfigure.load (← values.get "logger".toList)
  let (ret, layer1Configure, gPubToAddress) ←
    this.layer1Configure.load AES lib (← values.get "layer1".toList) gPubToAddress
  if ¬ret then return (false, { this with loggerConfigure, layer1Configure }, gPubToAddress)
  let (ret, layer2Configure, gPubToAddress) ←
    this.layer2Configure.load AES lib (← values.get "layer2".toList) gPubToAddress
  if ¬ret then
    return (false, { this with loggerConfigure, layer1Configure, layer2Configure }, gPubToAddress)
  let webserverConfigure ← this.webserverConfigure.load (← values.get "webserver".toList)
  return (true, ⟨loggerConfigure, layer1Configure, layer2Configure, webserverConfigure⟩,
    gPubToAddress)

end Main.Configure

end CrosschainAgent
