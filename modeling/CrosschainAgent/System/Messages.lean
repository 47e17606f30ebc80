import CrosschainAgent.System.Acts
import CrosschainAgent.System.Books

/-!
# What every message says about the books

Whatever the agent submits, stores or is sent says something about the books that stays true
as they develop: a `SendTx` carries a known transfer, a success ack is for an existing escrow
and carries its time of execution, a reply is for a source record that is `ACK_SUCCESS`. The
invariant of the system is that all its messages are of this kind.
-/

namespace CrosschainAgent

open Interaction Bridge Strings

/-- A system whose two bridges are deployed with chain ids, and the words it may hash. -/
structure Scene where
  sys : System
  cid : Layer → ℕ
  H : Set (List ℕ)

/-- The result codes a contract accepts. -/
def Verdict (result : Int32) : Prop :=
  result = crossResultSuccess ∨ result = crossResultFailed ∨ result = crossResultTimeout

/-- A result code is printed as its number. -/
theorem Verdict.toInt {result : Int32} (h : Verdict result) :
    ∃ k : ℕ, result.toInt = k ∧ k < 2 ^ 8 ∧ (k = 1 ↔ result = crossResultSuccess) := by
  rcases h with rfl | rfl | rfl
  · exact ⟨1, by decide⟩
  · exact ⟨2, by decide⟩
  · exact ⟨3, by decide⟩

namespace Scene

variable (S : Scene)

abbrev Known : Books → Layer → Bytes → Prop := Books.Known S.sys.sha256 S.cid
abbrev Sent : Books → Layer → Bytes → Prop := Books.Sent S.cid
abbrev Later : Books → Books → Prop := Books.Later S.sys.sha256 S.cid
abbrev Settled : Books → Prop := Books.Settled S.sys.sha256 S.cid S.H
abbrev Assumptions : Prop := CrosschainAgent.Assumptions S.sys.sha256 S.cid S.H

/-- The message carries a known transfer. -/
structure Describes (B : Books) (h : Handle) (info : Protocol.CrossTxInfo) (id : Bytes) :
    Prop where
  known : S.Known B h id
  crosstxid : info.crosstxid = S.sys.abi.bytesText id
  srcbid : info.srcbid = S.sys.abi.addressText (B.record h id).srcBid
  destbid : info.destbid = S.sys.abi.addressText (B.record h id).destBid
  amount : info.amount.toInt = saturate (B.record h id).amount
  timeout : info.timeout.toInt = saturate (B.record h id).timeout
  time : ∃ n : ℕ, info.executetimestamp.toInt = n

/-- An acknowledgement of a known transfer on its own layer: a success is backed by the escrow
and carries its time of execution. -/
structure AckFor (B : Books) (h : Handle) (result : Int32) (time : Int64) (id : Bytes) : Prop where
  known : S.Known B h id
  verdict : Verdict result
  success : result = crossResultSuccess → S.Sent B h.other id ∧
    time.toInt = saturate (B.record h.other id).executeTimestamp

/-- The reply to a known transfer on the other layer: the source record is `ACK_SUCCESS`. -/
structure ReplyFor (B : Books) (h : Handle) (result : Int32) (time : Int64) (id : Bytes) :
    Prop where
  known : S.Known B h id
  verdict : result = crossResultSuccess
  success : (B.record h id).status = .ackSuccess
  time : time.toInt = saturate (B.record h id).executeTimestamp

/-- An ack message as it is stored. -/
structure AckInfo (B : Books) (h : Handle) (info : Protocol.CrossTxInfo) (id : Bytes) : Prop where
  crosstxid : info.crosstxid = S.sys.abi.bytesText id
  time : ∃ n : ℕ, info.executetimestamp.toInt = n
  ack : S.AckFor B h info.status info.executetimestamp id

/-- The `SendTx` of a message was received under the hash that the message keeps, unless the node's
answer carried none. -/
def Submitted (B : Books) (h : Handle) (info : Protocol.CrossTxInfo) : Prop :=
  info.sendtxhash = [] ∨
    ∃ amount, ⟨info.sendtxhash, Handle.sendTxInput info, amount⟩ ∈ B.received h.other

/-- What a message in one of the stores says. -/
def InfoOk (B : Books) (info : Protocol.CrossTxInfo) : Store → Prop
  | .start => ∃ id, S.Describes B .layer2 info id
  | .send h => ∃ id, S.Describes B h info id ∧ Submitted B h info
  | .ack h => ∃ id, S.AckInfo B h info id
  | .reply h => ∃ id, info.crosstxid = S.sys.abi.bytesText id ∧
      S.ReplyFor B h info.status info.executetimestamp id

/-- What a submission to a layer says. -/
def Justified (B : Books) (l : Layer) : TxInput → Int64 → Prop
  | .sendTx crossTxId srcBid destBid amount timeout, value =>
    ∃ info id, S.Describes B l.other info id ∧ value = amount ∧
      Handle.sendTxInput info = .sendTx crossTxId srcBid destBid amount timeout
  | .sendAckedTx crossTxId result errorDesc executeTime, _ =>
    ∃ id, crossTxId = S.sys.abi.bytesText id ∧ ',' ∉ errorDesc ∧ '\'' ∉ errorDesc ∧
      (∃ n : ℕ, executeTime.toInt = n) ∧
      (S.AckFor B l result executeTime id ∨ S.ReplyFor B l.other result executeTime id)

/-- What a logged event says. -/
def EventOk (B : Books) (l : Layer) : ℕ × Event → Prop
  | (time, .startTxEvent id) => ∃ src dest amount,
      startWords l (S.cid l) src dest amount time ∈ B.hashed l ∧
      S.sys.sha256.hash (startWords l (S.cid l) src dest amount time) = id
  | (_, .sendTxEvent id) => S.Sent B l id
  | (_, .sendAckedTxEvent id) => S.Known B l id ∧ (B.record l id).status = .ackSuccess
  | _ => True

variable {S} {B B' : Books}

/-- An ack or a reply carries a result code that a contract accepts. -/
theorem verdict_of_ack {l : Layer} {result : Int32} {time : Int64} {id : Bytes}
    (h : S.AckFor B l result time id ∨ S.ReplyFor B l.other result time id) : Verdict result :=
  h.elim AckFor.verdict fun hreply => Or.inl hreply.verdict

/-- What describes a transfer describes it later too. -/
theorem Describes.later {h : Handle} {info : Protocol.CrossTxInfo} {id : Bytes}
    (hd : S.Describes B h info id) (hlater : S.Later B B') : S.Describes B' h info id where
  known := hd.known.later hlater
  crosstxid := hd.crosstxid
  srcbid := (hlater.source h id hd.known).srcBid ▸ hd.srcbid
  destbid := (hlater.source h id hd.known).destBid ▸ hd.destbid
  amount := (hlater.source h id hd.known).amount ▸ hd.amount
  timeout := (hlater.source h id hd.known).timeout ▸ hd.timeout
  time := hd.time

/-- An ack that is right stays right. -/
theorem AckFor.later {h : Handle} {result : Int32} {time : Int64} {id : Bytes}
    (ha : S.AckFor B h result time id) (hlater : S.Later B B') : S.AckFor B' h result time id where
  known := ha.known.later hlater
  verdict := ha.verdict
  success hr := by
    obtain ⟨hsent, htime⟩ := ha.success hr
    obtain ⟨hsent', htime'⟩ := hlater.sent _ _ hsent
    exact ⟨hsent', htime'.symm ▸ htime⟩

/-- A reply that is right stays right. -/
theorem ReplyFor.later {h : Handle} {result : Int32} {time : Int64} {id : Bytes}
    (hr : S.ReplyFor B h result time id) (hlater : S.Later B B') :
    S.ReplyFor B' h result time id := by
  have hsame := hlater.source h id hr.known
  have hne : (B.record h id).status ≠ .init := by
    rw [hr.success]
    decide
  exact ⟨hr.known.later hlater, hr.verdict, (hsame.status hne).trans hr.success,
    (hsame.executeTimestamp hne).symm ▸ hr.time⟩

/-- The information of an ack that is right stays right. -/
theorem AckInfo.later {h : Handle} {info : Protocol.CrossTxInfo} {id : Bytes}
    (ha : S.AckInfo B h info id) (hlater : S.Later B B') : S.AckInfo B' h info id :=
  ⟨ha.crosstxid, ha.time, ha.ack.later hlater⟩

/-- What was submitted stays submitted. -/
theorem Submitted.later {h : Handle} {info : Protocol.CrossTxInfo} (hs : Submitted B h info)
    (hlater : S.Later B B') : Submitted B' h info :=
  hs.imp_right fun ⟨amount, hmem⟩ => ⟨amount, hlater.received h.other hmem⟩

/-- The information in a store stays right. -/
theorem InfoOk.later {info : Protocol.CrossTxInfo} {s : Store} (hi : S.InfoOk B info s)
    (hlater : S.Later B B') : S.InfoOk B' info s := by
  cases s with
  | start | ack =>
    obtain ⟨id, hd⟩ := hi
    exact ⟨id, hd.later hlater⟩
  | send =>
    obtain ⟨id, hd, hsubmitted⟩ := hi
    exact ⟨id, hd.later hlater, hsubmitted.later hlater⟩
  | reply h =>
    obtain ⟨id, hid, hr⟩ := hi
    exact ⟨id, hid, hr.later hlater⟩

/-- A justified submission stays justified. -/
theorem Justified.later {l : Layer} {input : TxInput} {value : Int64}
    (hj : S.Justified B l input value) (hlater : S.Later B B') : S.Justified B' l input value := by
  cases input with
  | sendTx =>
    obtain ⟨info, id, hd, hrest⟩ := hj
    exact ⟨info, id, hd.later hlater, hrest⟩
  | sendAckedTx =>
    obtain ⟨id, hid, hcomma, hquote, htime, hwhat⟩ := hj
    exact ⟨id, hid, hcomma, hquote, htime, hwhat.imp (fun h => h.later hlater) fun h => h.later hlater⟩

/-- An event of the log stays right. -/
theorem EventOk.later {l : Layer} {p : ℕ × Event} (he : S.EventOk B l p) (hlater : S.Later B B') :
    S.EventOk B' l p := by
  obtain ⟨time, event⟩ := p
  cases event with
  | startTxEvent id =>
    obtain ⟨src, dest, amount, hmem, hhash⟩ := he
    exact ⟨src, dest, amount, hlater.hashed l hmem, hhash⟩
  | sendTxEvent id => exact (hlater.sent l id he).1
  | sendAckedTxEvent id =>
    obtain ⟨hknown, hstatus⟩ := he
    refine ⟨hknown.later hlater, ((hlater.source l id hknown).status ?_).trans hstatus⟩
    rw [hstatus]
    decide
  | refundEvent | setOwnerEvent | setTimeoutEvent => trivial

end Scene

variable {T : Type}

/-- The books of the two chains. -/
def Shared.books (w : Shared T) : Books where
  record l id := (w.chain l).bridge.crossTxInfo id
  hashed l := (w.chain l).hashed
  now l := (w.chain l).now
  received l := (w.chain l).pool

namespace Scene

variable (S : Scene)

/-- An entry holds a message it was made of, under the id of that message. -/
def EntryOk (B : Books) (s : Store) (key : Text) (e : CrossTx) : Prop :=
  ∃ info due, e = { CrossTx.ofInfo S.sys.su.codec info with sendAckTimeout := due } ∧
    key = info.crosstxid ∧ S.InfoOk B info s

/-- A database value is a message, under the prefix of its store and its id. -/
def ValueOk (B : Books) (key value : Text) : Prop :=
  ∃ s info, key = s.keyPrefix ++ info.crosstxid ∧ value = S.sys.su.codec.serializeAsString info ∧
    S.InfoOk B info s

/-- The transaction was executed: if it is the `SendTx` of a transfer, the escrow is there. -/
def Executed (B : Books) (l : Layer) (tx : AgentTx) : Prop :=
  ∀ id src dest amount timeout, S.sys.abi.decodeCall tx.input.function tx.input.args =
    some (.sendTx id src dest amount timeout) → S.Sent B l id

/-- What holds of one chain: the agent owns its bridge, and its log and the submissions made to
it say what they should. The received transactions have hashes of their own, and those that were
executed did what they say. -/
structure ChainOk (B : Books) (l : Layer) (c : Chain) : Prop where
  owner : c.bridge.owner = S.sys.owner l
  chainId : c.bridge.chainId = S.cid l
  log : ∀ p ∈ c.log, S.EventOk B l p
  posted : ∀ p ∈ c.posted, S.Justified B l p.1 p.2
  pool : ∀ tx ∈ c.pool, (tx.input, tx.amount) ∈ c.posted
  named : ∀ tx ∈ c.pool, tx.hash ≠ []
  apart : (c.pool.map (·.hash)).Nodup
  done : ∀ hash ∈ c.done, ∃ tx ∈ c.pool, tx.hash = hash ∧ S.Executed B l tx

/-- The invariant of the system. -/
structure Good (w : Shared T) : Prop where
  books : S.Settled w.books
  chains : ∀ l, S.ChainOk w.books l (w.chain l)
  maps : ∀ s key e, (w.agent.maps s)[key]? = some e → S.EntryOk w.books s key e
  db : ∀ key value, w.agent.db[key]? = some value → S.ValueOk w.books key value

/-- What a thread must know before an operation. -/
def Pre (B : Books) : Op → Prop
  | .http l (.submitTransaction _ input amount _) => S.Justified B l input amount
  | .dbPut key value => S.ValueOk B key value
  | .emplace s key e => S.EntryOk B s key e
  | _ => True

variable {S} {B B' : Books}

/-- An entry of a map stays right. -/
theorem EntryOk.later {s : Store} {key : Text} {e : CrossTx} (he : S.EntryOk B s key e)
    (hlater : S.Later B B') : S.EntryOk B' s key e := by
  obtain ⟨info, due, he, hkey, hinfo⟩ := he
  exact ⟨info, due, he, hkey, hinfo.later hlater⟩

/-- A value of the database stays right. -/
theorem ValueOk.later {key value : Text} (hv : S.ValueOk B key value) (hlater : S.Later B B') :
    S.ValueOk B' key value := by
  obtain ⟨s, info, hkey, hvalue, hinfo⟩ := hv
  exact ⟨s, info, hkey, hvalue, hinfo.later hlater⟩

/-- An executed submission stays accounted for. -/
theorem Executed.later {l : Layer} {tx : AgentTx} (he : S.Executed B l tx) (hlater : S.Later B B') :
    S.Executed B' l tx :=
  fun id src dest amount timeout hcall => (hlater.sent l id (he id src dest amount timeout hcall)).1

/-- A chain that is right stays right while the other one moves on. -/
theorem ChainOk.later {l : Layer} {c : Chain} (hc : S.ChainOk B l c) (hlater : S.Later B B') :
    S.ChainOk B' l c where
  owner := hc.owner
  chainId := hc.chainId
  log p hp := (hc.log p hp).later hlater
  posted p hp := (hc.posted p hp).later hlater
  pool := hc.pool
  named := hc.named
  apart := hc.apart
  done hash hdone := by
    obtain ⟨tx, htx, hhash, hexecuted⟩ := hc.done hash hdone
    exact ⟨tx, htx, hhash, hexecuted.later hlater⟩

/-- A transaction that was executed under its hash did what it says. -/
theorem ChainOk.executed {l : Layer} {c : Chain} (hc : S.ChainOk B l c) {tx : AgentTx}
    (htx : tx ∈ c.pool) (hdone : tx.hash ∈ c.done) : S.Executed B l tx := by
  obtain ⟨tx', htx', hhash, hexecuted⟩ := hc.done _ hdone
  obtain rfl := List.inj_on_of_nodup_map hc.apart htx' htx hhash
  exact hexecuted

end Scene

end CrosschainAgent
