import CrosschainAgent.Glue.Manager
import CrosschainAgent.Main.EncryptedKeys
import CrosschainAgent.System.Formats

/-!
# Subscriptions

Whenever a connection opens, the agent asks for the logs of the cross contract of the layer, and on layer 1 for
those of the manager contract with its topics, each of which ends with the id of layer 2. Nothing else in a log of
the manager contract is compared with that id, so that the topics alone keep the agents of two chains apart.
-/

namespace CrosschainAgent

open Strings

namespace Protocol

/-- `protocol::WsMessage`. -/
structure WsMessage where
  type : Int64 := 0
  request : Bool := false
  sequence : Int64 := 0
  data : Text := []
  deriving DecidableEq

/-- `protocol::OVERLAY_MSGTYPE_PING`. -/
def overlayMsgtypePing : Int64 := 1

/-- `protocol::CHAIN_CONTRACT_LOG`. -/
def chainContractLog : Int64 := 17

/-- `protocol::TlogSubscribeRequest`. -/
structure TlogSubscribeRequest where
  address : Text
  topics : List Text := []
  deriving DecidableEq

/-- The protobuf runtime of the connections. -/
structure WsCodec where
  parseFromString : Text → Option WsMessage
  serializeAsString : TlogSubscribeRequest → Text
  parseRequest : Text → Option TlogSubscribeRequest
  parse_serialize : ∀ request, parseRequest (serializeAsString request) = some request

end Protocol

open Protocol

/-- `WebSocketClient`, with the messages that it has sent. -/
structure WebSocketClient where
  connected : Bool := false
  sent : List WsMessage := []

namespace WebSocketClient

variable (codec : WsCodec) (conf : Main.Configure) (l : Layer)

/-- `subscribe_crosscontract`. -/
def subscribeCrosscontract : TlogSubscribeRequest where
  address := (conf.layer l).crossContract

/-- `subscribe_managercontract`. -/
def subscribeManagercontract : TlogSubscribeRequest where
  address := conf.layer1Configure.managerContract
  topics :=
    let agentIdStr := formatLd conf.layer2Configure.layer2Id
    conf.layer1Configure.topics.map fun item => item ++ "_".toList ++ agentIdStr

/-- `subscribe`: what is asked for. -/
def subscribe : List TlogSubscribeRequest :=
  match l with
  | .layer1 => [subscribeCrosscontract conf .layer1, subscribeManagercontract conf]
  | .layer2 => [subscribeCrosscontract conf .layer2]

/-- The message that asks for logs. -/
def messageTlog (tlogRequest : TlogSubscribeRequest) : WsMessage where
  request := true
  type := chainContractLog
  data := codec.serializeAsString tlogRequest

/-- What `on_message` does with a message. -/
inductive Reaction where
  | onSubscribeResponse (data : Text)
  | onPing
  | nothing

/-- `on_message`. -/
def onMessage (payload : Text) : Reaction :=
  match codec.parseFromString payload with
  | none => .nothing
  | some message =>
    if message.type = chainContractLog then .onSubscribeResponse message.data
    else if message.type = overlayMsgtypePing then .onPing
    else .nothing

/-- The answer to a ping. -/
def pong : WsMessage where
  type := overlayMsgtypePing

/-- What happens on the connections of a client, and which messages can be sent then. -/
inductive Event where
  | onOpen (sends : WsMessage → Bool)
  | onClose
  | onFail
  | onPongTimeout
  | onMessage (payload : Text) (sends : WsMessage → Bool)

/-- One event. A message that cannot be sent is logged. -/
def step (this : WebSocketClient) : Event → WebSocketClient
  | .onOpen sends =>
    { connected := true
      sent := this.sent ++ ((subscribe conf l).map (messageTlog codec)).filter sends }
  | .onClose | .onFail | .onPongTimeout => { this with connected := false }
  | .onMessage payload sends =>
    match onMessage codec payload with
    | .onPing => { this with sent := this.sent ++ [pong].filter sends }
    | _ => this

/-- The events of a client, from its start on. -/
def run (events : List Event) : WebSocketClient := events.foldl (step codec conf l) {}

/-- What a node has been asked for. -/
def asked (sent : List WsMessage) : List TlogSubscribeRequest :=
  sent.filterMap fun message =>
    if message.type = chainContractLog then codec.parseRequest message.data else none

/-- A node sends the logs of a contract that it was asked for; where topics were asked for, those with the
topics. -/
def Receives (requests : List TlogSubscribeRequest) (tlogRes : TlogSubscribeResponse) : Prop :=
  ∃ request ∈ requests, request.address = tlogRes.address ∧
    (request.topics = [] ∨ ∀ tlog ∈ tlogRes.tlogs, tlog.topic ∈ request.topics)

variable {codec : WsCodec} {conf : Main.Configure} {l : Layer}

/-- Through all connections the client sends nothing but its subscriptions and answers to pings. -/
theorem mem_sent {events : List Event} {message : WsMessage} (h : message ∈ (run codec conf l events).sent) :
    message = pong ∨ ∃ request ∈ subscribe conf l, message = messageTlog codec request := by
  induction events using List.reverseRecOn with
  | nil => cases h
  | append_singleton events event ih =>
    rw [run, List.foldl_concat, ← run] at h
    cases event with
    | onOpen sends =>
      cases List.mem_append.mp h with
      | inl hbefore => exact ih hbefore
      | inr hnew =>
        obtain ⟨request, hrequest, rfl⟩ := List.mem_map.mp (List.mem_of_mem_filter hnew)
        exact .inr ⟨request, hrequest, rfl⟩
    | onClose | onFail | onPongTimeout => exact ih h
    | onMessage payload sends =>
      rw [step] at h
      split at h
      next =>
        cases List.mem_append.mp h with
        | inl hbefore => exact ih hbefore
        | inr hnew => exact .inl (List.mem_singleton.mp (List.mem_of_mem_filter hnew))
      next => exact ih h

/-- So a node is asked for the subscriptions only. -/
theorem mem_asked {events : List Event} {request : TlogSubscribeRequest}
    (h : request ∈ asked codec (run codec conf l events).sent) : request ∈ subscribe conf l := by
  obtain ⟨message, hmessage, hasked⟩ := List.mem_filterMap.mp h
  cases mem_sent hmessage with
  | inl hpong =>
    subst hpong
    rw [if_neg (by decide)] at hasked
    cases hasked
  | inr hsubscription =>
    obtain ⟨subscription, hmem, rfl⟩ := hsubscription
    have hparsed : codec.parseRequest (codec.serializeAsString subscription) = some request := hasked
    rw [codec.parse_serialize] at hparsed
    cases hparsed
    exact hmem

/-- The only underscore of a text is the first one. -/
theorem eq_nil_of_underscore {before ending ending' : Text} (hending : '_' ∉ ending)
    (h : '_' :: ending = before ++ '_' :: ending') : before = [] ∧ ending = ending' := by
  cases before with
  | nil => exact ⟨rfl, (List.cons.inj h).2⟩
  | cons c before =>
    have hinside : '_' ∈ ending := by
      rw [(List.cons.inj h).2]
      exact List.mem_append_right _ List.mem_cons_self
    exact absurd hinside hending

/-- What follows the last underscore of a topic is the id. -/
theorem topic_inj {item item' : Text} {id id' : Int64}
    (h : item ++ "_".toList ++ formatLd id = item' ++ "_".toList ++ formatLd id') : item = item' ∧ id = id' := by
  have hdigits : ∀ i, '_' ∉ formatLd i := fun i => not_mem_signedDecimal (by decide) (by decide) i.toInt
  rw [List.append_assoc, List.append_assoc] at h
  cases List.append_eq_append_iff.mp h with
  | inl hlonger =>
    obtain ⟨between, hitem, hrest⟩ := hlonger
    obtain ⟨rfl, hid⟩ := eq_nil_of_underscore (hdigits id) hrest
    exact ⟨by rw [hitem, List.append_nil], formatLd_injective hid⟩
  | inr hshorter =>
    obtain ⟨between, hitem, hrest⟩ := hshorter
    obtain ⟨rfl, hid⟩ := eq_nil_of_underscore (hdigits id') hrest
    exact ⟨by rw [hitem, List.append_nil], (formatLd_injective hid).symm⟩

section Loaded

variable {Point : Type} [AddCommGroup Point] (AES : Bytes → Equiv.Perm Aes.Block) (lib : KeyLibraries Point)

/-- The names of the manager contract's logs that every configuration asks for. -/
def managerNames : List Text :=
  ["RegisterAgent".toList, "FreezeAgent".toList, "UnfreezeAgent".toList, "StopUsingAgent".toList, "Submit".toList]

/-- The configuration of layer 1 is a layer and nothing else. -/
theorem layer1_eq_ofLayer {values : Json} {before table : Bytes → Option Bytes} {this : Main.Configure}
    (hload : this.loadFromJson AES lib values before = some (true, conf, table)) :
    ∃ layer, conf.layer1Configure = .ofLayer layer := by
  rw [Main.Configure.loadFromJson_eq_true] at hload
  obtain ⟨-, logger, layer1, layer2, webserver, between, -, -, -, -, -, hload1, -⟩ := hload
  rw [Layer1Configure.load_eq_true] at hload1
  obtain ⟨first, -, hconf⟩ := hload1
  exact ⟨first, hconf⟩

/-- The manager contract is always the same. -/
theorem managerContract_eq {values : Json} {before table : Bytes → Option Bytes} {this : Main.Configure}
    (hload : this.loadFromJson AES lib values before = some (true, conf, table)) :
    conf.layer1Configure.managerContract = "did:bid:efEnXEGWYjHRw1CzK4KpWTdusnaRokk8".toList := by
  obtain ⟨layer, hconf⟩ := layer1_eq_ofLayer AES lib hload
  rw [hconf]
  rfl

/-- Layer 1 subscribes to the topics of the manager. -/
theorem topics_eq {values : Json} {before table : Bytes → Option Bytes} {this : Main.Configure}
    (hload : this.loadFromJson AES lib values before = some (true, conf, table)) :
    conf.layer1Configure.topics = managerNames := by
  obtain ⟨layer, hconf⟩ := layer1_eq_ofLayer AES lib hload
  rw [hconf]
  rfl

/-- A log of the manager contract that an agent is sent has one of the names and the id of its layer 2. -/
theorem topic_of_receives {values : Json} {before table : Bytes → Option Bytes} {this : Main.Configure}
    (hload : this.loadFromJson AES lib values before = some (true, conf, table))
    (hcross : conf.layer1Configure.crossContract ≠ conf.layer1Configure.managerContract)
    {events : List Event} {tlogRes : TlogSubscribeResponse}
    (haddress : tlogRes.address = conf.layer1Configure.managerContract)
    (h : Receives (asked codec (run codec conf .layer1 events).sent) tlogRes) :
    ∀ tlog ∈ tlogRes.tlogs, ∃ name ∈ managerNames,
      tlog.topic = name ++ "_".toList ++ formatLd conf.layer2Configure.layer2Id := by
  obtain ⟨request, hrequest, hsame, htopics⟩ := h
  rw [haddress] at hsame
  cases List.mem_cons.mp (mem_asked hrequest) with
  | inl hfirst =>
    subst hfirst
    exact absurd hsame hcross
  | inr hsecond =>
    obtain rfl := List.mem_singleton.mp hsecond
    intro tlog htlog
    rw [subscribeManagercontract, topics_eq AES lib hload] at htopics
    cases htopics with
    | inl hnone => cases hnone
    | inr hmem =>
      obtain ⟨name, hname, htopic⟩ := List.mem_map.mp (hmem tlog htlog)
      exact ⟨name, hname, htopic.symm⟩

/-- The logs of the manager contract that an agent is sent, over all its connections, have one of five names and
the id of its layer 2, and an agent of another layer 2 is not sent any of them. -/
theorem manager_logs_apart {values values' : Json} {before before' table table' : Bytes → Option Bytes}
    {this this' conf' : Main.Configure}
    (hload : this.loadFromJson AES lib values before = some (true, conf, table))
    (hload' : this'.loadFromJson AES lib values' before' = some (true, conf', table'))
    (hid : conf.layer2Configure.layer2Id ≠ conf'.layer2Configure.layer2Id)
    (hcross : conf.layer1Configure.crossContract ≠ conf.layer1Configure.managerContract)
    (hcross' : conf'.layer1Configure.crossContract ≠ conf'.layer1Configure.managerContract)
    {codec codec' : WsCodec} {events events' : List Event} {tlogRes : TlogSubscribeResponse}
    (haddress : tlogRes.address = conf.layer1Configure.managerContract) (htlogs : tlogRes.tlogs ≠ [])
    (h : Receives (asked codec (run codec conf .layer1 events).sent) tlogRes) :
    (∀ tlog ∈ tlogRes.tlogs, ∃ name ∈ managerNames,
      tlog.topic = name ++ "_".toList ++ formatLd conf.layer2Configure.layer2Id) ∧
    ¬Receives (asked codec' (run codec' conf' .layer1 events').sent) tlogRes := by
  have htopics := topic_of_receives AES lib hload hcross haddress h
  refine ⟨htopics, fun h' => ?_⟩
  have haddress' : tlogRes.address = conf'.layer1Configure.managerContract := by
    rw [haddress, managerContract_eq AES lib hload, managerContract_eq AES lib hload']
  obtain ⟨tlog, htlog⟩ := List.exists_mem_of_ne_nil _ htlogs
  obtain ⟨name, -, htopic⟩ := htopics tlog htlog
  obtain ⟨name', -, htopic'⟩ := topic_of_receives AES lib hload' hcross' haddress' h' tlog htlog
  exact hid (topic_inj (htopic.symm.trans htopic')).2

end Loaded

/-- After the first connection a node has been asked for everything that could be sent. -/
theorem asked_onOpen (codec : WsCodec) (conf : Main.Configure) (l : Layer) :
    asked codec (run codec conf l [.onOpen fun _ => true]).sent = subscribe conf l := by
  have hsent : (run codec conf l [.onOpen fun _ => true]).sent = (subscribe conf l).map (messageTlog codec) := by
    change [] ++ List.filter (fun _ => true) _ = _
    rw [List.filter_true, List.nil_append]
  rw [asked, hsent, List.filterMap_map]
  refine (List.filterMap_congr fun request _ => ?_).trans (List.filterMap_some ..)
  exact codec.parse_serialize request

/-- A codec that writes the number of the topics, the address and the topics. -/
def sampleCodec : WsCodec where
  parseFromString _ := none
  serializeAsString request :=
    Formats.field (decimal request.topics.length) ++ (request.address :: request.topics).flatMap Formats.field
  parseRequest text := do
    let (count, rest) ← Formats.readField text
    match ← Formats.readFields (digitsValue count + 1) rest with
    | address :: topics => some { address, topics }
    | [] => none
  parse_serialize request := by
    have hread := Formats.readFields_flatMap (request.address :: request.topics)
    rw [List.length_cons] at hread
    simp only [Formats.readField_field, Option.bind_eq_bind, Option.bind_some, digitsValue_decimal, hread]

/-- A `Submit` log for layer 2 number 0. -/
def sampleSubmit : TlogSubscribeResponse :=
  ⟨"did:bid:efEnXEGWYjHRw1CzK4KpWTdusnaRokk8".toList, [⟨"Submit_0".toList, []⟩]⟩

/-- The agent of number 0 is sent the log, and the one of number 1 is not. -/
theorem manager_logs_apart_submit : ∃ conf conf' : Main.Configure,
    conf.layer2Configure.layer2Id = 0 ∧ conf'.layer2Configure.layer2Id = 1 ∧
    Receives (asked sampleCodec (run sampleCodec conf .layer1 [.onOpen fun _ => true]).sent) sampleSubmit ∧
    ¬Receives (asked sampleCodec (run sampleCodec conf' .layer1 [.onOpen fun _ => true]).sent) sampleSubmit := by
  have hcheck : ∀ id : Bool, ((({ Main.Configure.blank with
      layer2Configure := { feeLimit := 0, gasPrice := 0, layer2Id := if id then 1 else 0 } } :
        Main.Configure).loadFromJson Aes.testAES PrivateKeyV4.testLibraries Main.Configure.sampleValues
          (fun _ => none)).any fun loaded => loaded.1 = true ∧
      loaded.2.1.layer2Configure.layer2Id = (if id then 1 else 0) ∧
      loaded.2.1.layer1Configure.crossContract = []) = true := by
    decide +kernel
  obtain ⟨⟨ret, conf, table⟩, hload, hfacts⟩ := (Option.any_eq_true _ _).mp (hcheck false)
  obtain ⟨⟨ret', conf', table'⟩, hload', hfacts'⟩ := (Option.any_eq_true _ _).mp (hcheck true)
  obtain ⟨rfl, hid, hcross⟩ : ret = true ∧ _ := of_decide_eq_true hfacts
  obtain ⟨rfl, hid', hcross'⟩ : ret' = true ∧ _ := of_decide_eq_true hfacts'
  have haddress := managerContract_eq Aes.testAES PrivateKeyV4.testLibraries hload
  have hne : ([] : Text) ≠ "did:bid:efEnXEGWYjHRw1CzK4KpWTdusnaRokk8".toList := by decide
  have hreceives : Receives (asked sampleCodec (run sampleCodec conf .layer1 [.onOpen fun _ => true]).sent)
      sampleSubmit := by
    have htopic : "Submit_0".toList ∈ managerNames.map fun item => item ++ "_".toList ++ formatLd 0 := by decide
    rw [asked_onOpen]
    refine ⟨subscribeManagercontract conf, List.mem_cons_of_mem _ List.mem_cons_self, haddress, .inr ?_⟩
    rw [subscribeManagercontract, topics_eq Aes.testAES PrivateKeyV4.testLibraries hload, hid]
    intro tlog htlog
    obtain rfl := List.mem_singleton.mp htlog
    exact htopic
  refine ⟨conf, conf', hid, hid', hreceives, (manager_logs_apart Aes.testAES PrivateKeyV4.testLibraries hload hload'
    ?_ ?_ ?_ haddress.symm (List.cons_ne_nil _ _) hreceives).2⟩
  · rw [hid, hid']
    decide
  · rw [hcross, haddress]
    exact hne
  · rw [hcross', managerContract_eq Aes.testAES PrivateKeyV4.testLibraries hload']
    exact hne

end WebSocketClient

end CrosschainAgent
