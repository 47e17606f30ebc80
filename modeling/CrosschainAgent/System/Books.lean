import CrosschainAgent.System.Rendering
import Mathlib.Data.Set.Function

/-!
# The books of both chains

Of a chain, a transfer sees four things: the records of the bridge, what `StartTx` hashed, the
timestamp of the open block, and which transactions of the agent were received. An id is known
once the block that hashed it is closed; from then on no `StartTx` can compute it again, so its
source record keeps its transfer for good, and a record of the same id on the other chain can
only be the escrow for it.

The settlement of a transfer is a fact about these books alone: the source record becomes
`ACK_SUCCESS` only after the escrow exists, and the escrow only after the source record.
-/

namespace CrosschainAgent

open Strings Bridge

/-- What both chains record about transfers. -/
structure Books where
  record : Layer → Bytes → CrossTxInfo
  hashed : Layer → List (List ℕ)
  now : Layer → ℕ
  received : Layer → List AgentTx

/-- The chain ids are not zero, and `sha256` has no collision among the words in `H`. -/
structure Assumptions (sha256 : Sha256) (cid : Layer → ℕ) (H : Set (List ℕ)) : Prop where
  chainId_ne_zero : ∀ l, cid l ≠ 0
  injOn : Set.InjOn sha256.hash H

namespace Books

variable {sha256 : Sha256} {cid : Layer → ℕ} {H : Set (List ℕ)} {B B' B'' : Books}

/-- The id was hashed on this layer in a block that is closed. -/
def Known (sha256 : Sha256) (cid : Layer → ℕ) (B : Books) (l : Layer) (id : Bytes) : Prop :=
  ∃ src dest amount time, startWords l (cid l) src dest amount time ∈ B.hashed l ∧
    sha256.hash (startWords l (cid l) src dest amount time) = id ∧ time < B.now l

/-- There is a record that was made by `SendTx`. -/
def Sent (cid : Layer → ℕ) (B : Books) (l : Layer) (id : Bytes) : Prop :=
  (B.record l id).Exists ∧ isStarted l (cid l) (B.record l id).srcChainId = false

/-- The record is about the same transfer, and a settled one stays as it is settled. -/
structure SameTransfer (r r' : CrossTxInfo) : Prop where
  crossTxId : r'.crossTxId = r.crossTxId
  srcChainId : r'.srcChainId = r.srcChainId
  srcBid : r'.srcBid = r.srcBid
  destBid : r'.destBid = r.destBid
  amount : r'.amount = r.amount
  timeout : r'.timeout = r.timeout
  createTimestamp : r'.createTimestamp = r.createTimestamp
  status : r.status ≠ .init → r'.status = r.status
  executeTimestamp : r.status ≠ .init → r'.executeTimestamp = r.executeTimestamp

/-- A record is about its own transfer. -/
theorem SameTransfer.refl (r : CrossTxInfo) : SameTransfer r r :=
  ⟨rfl, rfl, rfl, rfl, rfl, rfl, rfl, fun _ => rfl, fun _ => rfl⟩

/-- Being about one transfer carries over two steps. -/
theorem SameTransfer.trans {r r' r'' : CrossTxInfo} (h : SameTransfer r r')
    (h' : SameTransfer r' r'') : SameTransfer r r'' where
  crossTxId := h'.crossTxId.trans h.crossTxId
  srcChainId := h'.srcChainId.trans h.srcChainId
  srcBid := h'.srcBid.trans h.srcBid
  destBid := h'.destBid.trans h.destBid
  amount := h'.amount.trans h.amount
  timeout := h'.timeout.trans h.timeout
  createTimestamp := h'.createTimestamp.trans h.createTimestamp
  status hr := (h'.status (h.status hr ▸ hr)).trans (h.status hr)
  executeTimestamp hr := (h'.executeTimestamp (h.status hr ▸ hr)).trans (h.executeTimestamp hr)

/-- The escrow record carries the transfer of the source record, with its numbers saturated. -/
structure Copies (source escrow : CrossTxInfo) : Prop where
  srcBid : escrow.srcBid = source.srcBid
  destBid : escrow.destBid = source.destBid
  amount : escrow.amount = saturate source.amount
  timeout : escrow.timeout = saturate source.timeout

/-- How the books may develop: time passes, hashes and received transactions are added, a known
transfer stays the same, and an escrow stays with its time of execution. -/
structure Later (sha256 : Sha256) (cid : Layer → ℕ) (B B' : Books) : Prop where
  now : ∀ l, B.now l ≤ B'.now l
  hashed : ∀ l, B.hashed l ⊆ B'.hashed l
  received : ∀ l, B.received l ⊆ B'.received l
  source : ∀ l id, Known sha256 cid B l id → SameTransfer (B.record l id) (B'.record l id)
  sent : ∀ l id, Sent cid B l id → Sent cid B' l id ∧
    saturate (B'.record l id).executeTimestamp = saturate (B.record l id).executeTimestamp

/-- Books are no earlier than themselves. -/
theorem Later.refl (B : Books) : Later sha256 cid B B where
  now _ := le_rfl
  hashed _ := List.Subset.refl _
  received _ := List.Subset.refl _
  source _ _ _ := SameTransfer.refl _
  sent _ _ h := ⟨h, rfl⟩

/-- A transfer that is known stays known. -/
theorem Known.later {l : Layer} {id : Bytes} (h : Known sha256 cid B l id)
    (hlater : Later sha256 cid B B') : Known sha256 cid B' l id := by
  obtain ⟨src, dest, amount, time, hmem, hhash, htime⟩ := h
  exact ⟨src, dest, amount, time, hlater.hashed l hmem, hhash, htime.trans_le (hlater.now l)⟩

/-- Being later carries over two steps. -/
theorem Later.trans (h : Later sha256 cid B B') (h' : Later sha256 cid B' B'') :
    Later sha256 cid B B'' where
  now l := (h.now l).trans (h'.now l)
  hashed l := List.Subset.trans (h.hashed l) (h'.hashed l)
  received l := List.Subset.trans (h.received l) (h'.received l)
  source l id hk := (h.source l id hk).trans (h'.source l id (hk.later h))
  sent l id hs := by
    obtain ⟨hs', htime⟩ := h.sent l id hs
    obtain ⟨hs'', htime'⟩ := h'.sent l id hs'
    exact ⟨hs'', htime'.trans htime⟩

/-- What always holds of the books. -/
structure Settled (sha256 : Sha256) (cid : Layer → ℕ) (H : Set (List ℕ)) (B : Books) : Prop where
  /-- what was hashed is the words of a transfer, not of a block to come -/
  form : ∀ l, ∀ words ∈ B.hashed l, ∃ src dest amount time,
    words = startWords l (cid l) src dest amount time ∧ time ≤ B.now l
  hashedIn : ∀ l, ∀ words ∈ B.hashed l, words ∈ H
  blank : ∀ l id, (B.record l id).crossTxId = [] → B.record l id = {}
  keyed : ∀ l id, (B.record l id).Exists → (B.record l id).crossTxId = id
  started : ∀ l, ∀ words ∈ B.hashed l, (B.record l (sha256.hash words)).Exists ∧
    isStarted l (cid l) (B.record l (sha256.hash words)).srcChainId = true
  origin : ∀ l id, (B.record l id).Exists →
    isStarted l (cid l) (B.record l id).srcChainId = true → ∃ words ∈ B.hashed l, sha256.hash words = id
  acked : ∀ l id, isStarted l (cid l) (B.record l id).srcChainId = true →
    (B.record l id).Exists → (B.record l id).status ≠ .init → Known sha256 cid B l id
  success : ∀ l id, Known sha256 cid B l id → (B.record l id).status = .ackSuccess →
    Sent cid B l.other id ∧
      (B.record l id).executeTimestamp = saturate (B.record l.other id).executeTimestamp
  sentKnown : ∀ l id, Sent cid B l id → Known sha256 cid B l.other id
  sentCopies : ∀ l id, Sent cid B l id → Copies (B.record l.other id) (B.record l id)
  sentStatus : ∀ l id, Sent cid B l id → (B.record l id).status = .init ∨
    (B.record l id).status = .ackSuccess ∧ (B.record l.other id).status = .ackSuccess

/-- The words of a transfer tell on which layer it started. -/
theorem startWords_layer (h : ∀ l, cid l ≠ 0) {l : Layer} {src dest amount time src' dest' amount'
    time' : ℕ} : startWords l (cid l) src dest amount time ≠
      startWords l.other (cid l.other) src' dest' amount' time' := by
  intro heq
  cases l <;> simp [startWords, startedRoute, Layer.other] at heq
  · exact h _ heq.2.2.2.1
  · exact h _ heq.2.2.1

/-- A known id has a started record. -/
theorem Settled.of_known (hB : Settled sha256 cid H B) {l : Layer} {id : Bytes}
    (h : Known sha256 cid B l id) : (B.record l id).Exists ∧
      isStarted l (cid l) (B.record l id).srcChainId = true := by
  obtain ⟨src, dest, amount, time, hmem, rfl, _⟩ := h
  exact hB.started l _ hmem

/-- A record of a known id on the other layer is its escrow. -/
theorem Settled.sent_of_exists (hA : Assumptions sha256 cid H) (hB : Settled sha256 cid H B)
    {l : Layer} {id : Bytes} (h : Known sha256 cid B l id) (hex : (B.record l.other id).Exists) :
    Sent cid B l.other id := by
  refine ⟨hex, Bool.eq_false_iff.mpr fun hstarted => ?_⟩
  obtain ⟨src, dest, amount, time, hmem, hhash, _⟩ := h
  obtain ⟨words, hwords, hhash'⟩ := hB.origin l.other id hex hstarted
  obtain ⟨src', dest', amount', time', rfl, _⟩ := hB.form l.other words hwords
  exact startWords_layer hA.chainId_ne_zero (hA.injOn (hB.hashedIn l _ hmem)
    (hB.hashedIn l.other _ hwords) (hhash.trans hhash'.symm))

/-- No escrow record has a known id of its own layer. -/
theorem Settled.not_sent_of_known (hB : Settled sha256 cid H B) {l : Layer} {id : Bytes}
    (h : Known sha256 cid B l id) : ¬Sent cid B l id := by
  intro hsent
  have hstarted := (hB.of_known h).2
  rw [hsent.2] at hstarted
  cases hstarted

/-- Set one record. -/
def put (B : Books) (l : Layer) (id : Bytes) (r : CrossTxInfo) : Books :=
  { B with record := Function.update B.record l (Function.update (B.record l) id r) }

/-- A record that was put is read back. -/
theorem put_record_self (B : Books) (l : Layer) (id : Bytes) (r : CrossTxInfo) :
    (B.put l id r).record l id = r := by
  simp [put]

/-- Putting a record leaves all others. -/
theorem put_record_of_ne (B : Books) {l l' : Layer} {id id' : Bytes} (r : CrossTxInfo)
    (h : ¬(l' = l ∧ id' = id)) : (B.put l id r).record l' id' = B.record l' id' := by
  unfold put
  by_cases hl : l' = l
  · subst hl
    have hid : id' ≠ id := fun hid => h ⟨rfl, hid⟩
    simp [Function.update_of_ne hid]
  · simp [Function.update_of_ne hl]

/-- A record is rewritten where it was, without touching its transfer. -/
structure Rewrites (sha256 : Sha256) (cid : Layer → ℕ) (B : Books) (l : Layer) (id : Bytes)
    (r : CrossTxInfo) : Prop where
  exists_ : (B.record l id).Exists
  crossTxId : r.crossTxId = (B.record l id).crossTxId
  srcChainId : r.srcChainId = (B.record l id).srcChainId
  srcBid : r.srcBid = (B.record l id).srcBid
  destBid : r.destBid = (B.record l id).destBid
  amount : r.amount = (B.record l id).amount
  timeout : r.timeout = (B.record l id).timeout
  createTimestamp : r.createTimestamp = (B.record l id).createTimestamp
  settled : (B.record l id).status ≠ .init →
    r.status = (B.record l id).status ∧ r.executeTimestamp = (B.record l id).executeTimestamp
  acked : isStarted l (cid l) (B.record l id).srcChainId = true → r.status ≠ .init →
    Known sha256 cid B l id
  success : Known sha256 cid B l id → r.status = .ackSuccess → Sent cid B l.other id ∧
    r.executeTimestamp = saturate (B.record l.other id).executeTimestamp
  sentStatus : Sent cid B l id → r.status = .init ∨
    r.status = .ackSuccess ∧ (B.record l.other id).status = .ackSuccess
  sentTime : Sent cid B l id →
    saturate r.executeTimestamp = saturate (B.record l id).executeTimestamp

/-- A rewritten record changes nothing about what was sent. -/
theorem Rewrites.sent {l l' : Layer} {id id' : Bytes} {r : CrossTxInfo}
    (h : Rewrites sha256 cid B l id r) :
    Sent cid (B.put l id r) l' id' ↔ Sent cid B l' id' := by
  by_cases heq : l' = l ∧ id' = id
  · obtain ⟨rfl, rfl⟩ := heq
    simp [Sent, put_record_self, CrossTxInfo.Exists, h.crossTxId, h.srcChainId]
  · simp [Sent, put_record_of_ne B r heq]

/-- Books with a rewritten record are later. -/
theorem Rewrites.later {l : Layer} {id : Bytes} {r : CrossTxInfo}
    (h : Rewrites sha256 cid B l id r) : Later sha256 cid B (B.put l id r) where
  now _ := le_rfl
  hashed _ := List.Subset.refl _
  received _ := List.Subset.refl _
  source l' id' hk := by
    by_cases heq : l' = l ∧ id' = id
    · obtain ⟨rfl, rfl⟩ := heq
      rw [put_record_self]
      exact ⟨h.crossTxId, h.srcChainId, h.srcBid, h.destBid, h.amount, h.timeout,
        h.createTimestamp, fun hs => (h.settled hs).1, fun hs => (h.settled hs).2⟩
    · rw [put_record_of_ne B r heq]
      exact SameTransfer.refl _
  sent l' id' hs := by
    refine ⟨h.sent.mpr hs, ?_⟩
    by_cases heq : l' = l ∧ id' = id
    · obtain ⟨rfl, rfl⟩ := heq
      rw [put_record_self]
      exact h.sentTime hs
    · rw [put_record_of_ne B r heq]

/-- Books with a rewritten record stay settled. -/
theorem Rewrites.settled_put {l : Layer} {id : Bytes} {r : CrossTxInfo}
    (h : Rewrites sha256 cid B l id r) (hB : Settled sha256 cid H B) :
    Settled sha256 cid H (B.put l id r) where
  form := hB.form
  hashedIn := hB.hashedIn
  blank l' id' hnil := by
    by_cases heq : l' = l ∧ id' = id
    · obtain ⟨rfl, rfl⟩ := heq
      rw [put_record_self, h.crossTxId] at hnil
      exact absurd hnil h.exists_
    · rw [put_record_of_ne B r heq] at hnil ⊢
      exact hB.blank l' id' hnil
  keyed l' id' hex := by
    by_cases heq : l' = l ∧ id' = id
    · obtain ⟨rfl, rfl⟩ := heq
      rw [put_record_self, h.crossTxId]
      exact hB.keyed _ _ h.exists_
    · rw [put_record_of_ne B r heq] at hex ⊢
      exact hB.keyed l' id' hex
  started l' words hmem := by
    by_cases heq : l' = l ∧ sha256.hash words = id
    · obtain ⟨rfl, rfl⟩ := heq
      rw [put_record_self, CrossTxInfo.Exists, h.crossTxId, h.srcChainId]
      exact hB.started _ _ hmem
    · rw [put_record_of_ne B r heq]
      exact hB.started l' words hmem
  origin l' id' hex hst := by
    by_cases heq : l' = l ∧ id' = id
    · obtain ⟨rfl, rfl⟩ := heq
      rw [put_record_self, h.srcChainId] at hst
      exact hB.origin _ _ h.exists_ hst
    · rw [put_record_of_ne B r heq] at hex hst
      exact hB.origin l' id' hex hst
  acked l' id' hst hex hne := by
    by_cases heq : l' = l ∧ id' = id
    · obtain ⟨rfl, rfl⟩ := heq
      rw [put_record_self] at hst hne
      exact h.acked (h.srcChainId ▸ hst) hne
    · rw [put_record_of_ne B r heq] at hst hex hne
      exact hB.acked l' id' hst hex hne
  success l' id' hk hs := by
    rw [h.sent]
    by_cases heq : l' = l ∧ id' = id
    · obtain ⟨rfl, rfl⟩ := heq
      rw [put_record_self] at hs ⊢
      rw [put_record_of_ne B r fun hno => l'.other_ne hno.1]
      exact h.success hk hs
    · rw [put_record_of_ne B r heq] at hs ⊢
      obtain ⟨hsent, htime⟩ := hB.success l' id' hk hs
      refine ⟨hsent, ?_⟩
      by_cases heq' : l'.other = l ∧ id' = id
      · obtain ⟨rfl, rfl⟩ := heq'
        rw [put_record_self, h.sentTime hsent]
        exact htime
      · rw [put_record_of_ne B r heq']
        exact htime
  sentKnown l' id' hs := hB.sentKnown l' id' (h.sent.mp hs)
  sentCopies l' id' hs := by
    have hcopies := hB.sentCopies l' id' (h.sent.mp hs)
    by_cases heq : l' = l ∧ id' = id
    · obtain ⟨rfl, rfl⟩ := heq
      rw [put_record_self, put_record_of_ne B r fun hno => l'.other_ne hno.1]
      exact ⟨h.srcBid.trans hcopies.srcBid, h.destBid.trans hcopies.destBid,
        h.amount.trans hcopies.amount, h.timeout.trans hcopies.timeout⟩
    · rw [put_record_of_ne B r heq]
      by_cases heq' : l'.other = l ∧ id' = id
      · obtain ⟨rfl, rfl⟩ := heq'
        rw [put_record_self]
        exact ⟨hcopies.srcBid.trans h.srcBid.symm, hcopies.destBid.trans h.destBid.symm,
          hcopies.amount.trans (congrArg saturate h.amount.symm),
          hcopies.timeout.trans (congrArg saturate h.timeout.symm)⟩
      · rw [put_record_of_ne B r heq']
        exact hcopies
  sentStatus l' id' hs := by
    have hstatus := hB.sentStatus l' id' (h.sent.mp hs)
    by_cases heq : l' = l ∧ id' = id
    · obtain ⟨rfl, rfl⟩ := heq
      rw [put_record_self, put_record_of_ne B r fun hno => l'.other_ne hno.1]
      exact h.sentStatus (h.sent.mp hs)
    · rw [put_record_of_ne B r heq]
      by_cases heq' : l'.other = l ∧ id' = id
      · obtain ⟨rfl, rfl⟩ := heq'
        rw [put_record_self]
        refine hstatus.imp_right fun hboth => ⟨hboth.1, ?_⟩
        rw [(h.settled (by rw [hboth.2]; decide)).1]
        exact hboth.2
      · rw [put_record_of_ne B r heq']
        exact hstatus

/-- Close the block of a layer. -/
def tick (B : Books) (l : Layer) (time : ℕ) : Books :=
  { B with now := Function.update B.now l time }

/-- Books are later when time has passed. -/
theorem later_tick {l : Layer} {time : ℕ} (h : B.now l < time) :
    Later sha256 cid B (B.tick l time) where
  now l' := by
    by_cases heq : l' = l
    · subst heq
      simpa [tick] using h.le
    · simp [tick, Function.update_of_ne heq]
  hashed _ := List.Subset.refl _
  received _ := List.Subset.refl _
  source _ _ _ := SameTransfer.refl _
  sent _ _ hs := ⟨hs, rfl⟩

/-- Time passing keeps the books settled. -/
theorem Settled.tick {l : Layer} {time : ℕ} (hB : Settled sha256 cid H B) (h : B.now l < time) :
    Settled sha256 cid H (B.tick l time) where
  form l' words hmem := by
    obtain ⟨src, dest, amount, t, hwords, ht⟩ := hB.form l' words hmem
    have hlater : Later sha256 cid B (B.tick l time) := later_tick h
    exact ⟨src, dest, amount, t, hwords, ht.trans (hlater.now l')⟩
  hashedIn := hB.hashedIn
  blank := hB.blank
  keyed := hB.keyed
  started := hB.started
  origin := hB.origin
  acked l' id hst hex hne := (hB.acked l' id hst hex hne).later (later_tick h)
  success l' id hk hs := by
    obtain ⟨src, dest, amount, t, hmem, rfl, _⟩ := hk
    obtain ⟨hex, hst⟩ := hB.started l' _ hmem
    have hknown := hB.acked l' _ hst hex fun hinit => by
      rw [show (B.record l' _).status = .ackSuccess from hs] at hinit
      cases hinit
    exact hB.success l' _ hknown hs
  sentKnown l' id hs := (hB.sentKnown l' id hs).later (later_tick h)
  sentCopies := hB.sentCopies
  sentStatus := hB.sentStatus

/-- Receive transactions on a layer. -/
def receive (B : Books) (l : Layer) (txs : List AgentTx) : Books :=
  { B with received := Function.update B.received l txs }

/-- Receiving more transactions is a move forward. -/
theorem later_receive {l : Layer} {txs : List AgentTx} (h : B.received l ⊆ txs) :
    Later sha256 cid B (B.receive l txs) where
  now _ := le_rfl
  hashed _ := List.Subset.refl _
  received l' := by
    by_cases heq : l' = l
    · subst heq
      simpa [receive] using h
    · simp [receive, Function.update_of_ne heq]
  source _ _ _ := SameTransfer.refl _
  sent _ _ hs := ⟨hs, rfl⟩

/-- What was received does not matter for the settlement. -/
theorem Settled.receive {l : Layer} {txs : List AgentTx} (hB : Settled sha256 cid H B) :
    Settled sha256 cid H (B.receive l txs) :=
  ⟨hB.form, hB.hashedIn, hB.blank, hB.keyed, hB.started, hB.origin, hB.acked, hB.success,
    hB.sentKnown, hB.sentCopies, hB.sentStatus⟩

/-- Hash words and store the record of their id. -/
def start (sha256 : Sha256) (B : Books) (l : Layer) (words : List ℕ) (r : CrossTxInfo) : Books :=
  { B.put l (sha256.hash words) r with
    hashed := Function.update B.hashed l (words :: B.hashed l) }

/-- The words are hashed in the open block, and the record is the one `StartTx` stores. -/
structure Starts (sha256 : Sha256) (cid : Layer → ℕ) (H : Set (List ℕ)) (B : Books) (l : Layer)
    (words : List ℕ) (r : CrossTxInfo) : Prop where
  form : ∃ src dest amount, words = startWords l (cid l) src dest amount (B.now l)
  hashedIn : words ∈ H
  crossTxId : r.crossTxId = sha256.hash words
  started : isStarted l (cid l) r.srcChainId = true
  status : r.status = .init

/-- A start hashes its own words, and the other words stay. -/
theorem mem_start_hashed {l l' : Layer} {words words' : List ℕ} {r : CrossTxInfo} :
    words' ∈ (B.start sha256 l words r).hashed l' ↔
      l' = l ∧ words' = words ∨ words' ∈ B.hashed l' := by
  by_cases heq : l' = l
  · subst heq
    simp [start]
  · simp [start, heq]

/-- A known id is never the id of a transfer that starts. -/
theorem Starts.not_known {l : Layer} {words : List ℕ} {r : CrossTxInfo}
    (h : Starts sha256 cid H B l words r) (hA : Assumptions sha256 cid H)
    (hB : Settled sha256 cid H B) (l' : Layer) : ¬Known sha256 cid B l' (sha256.hash words) := by
  rintro ⟨src, dest, amount, time, hmem, hhash, htime⟩
  obtain ⟨src', dest', amount', rfl⟩ := h.form
  have hwords := hA.injOn (hB.hashedIn l' _ hmem) h.hashedIn hhash
  by_cases heq : l' = l
  · subst heq
    obtain ⟨_, _, _, rfl⟩ := startWords_inj hwords
    exact absurd htime (lt_irrefl _)
  · obtain rfl : l' = l.other := by cases l <;> cases l' <;> first | rfl | exact absurd rfl heq
    exact startWords_layer hA.chainId_ne_zero hwords.symm

/-- A transfer that starts leaves the records of known ids alone. -/
theorem Starts.record_eq {l l' l'' : Layer} {words : List ℕ} {r : CrossTxInfo} {id : Bytes}
    (h : Starts sha256 cid H B l words r) (hA : Assumptions sha256 cid H)
    (hB : Settled sha256 cid H B) (hk : Known sha256 cid B l'' id) :
    (B.start sha256 l words r).record l' id = B.record l' id :=
  put_record_of_ne B r fun heq => h.not_known hA hB l'' (heq.2 ▸ hk)

/-- What `StartTx` hashes is known only once its block is closed. -/
theorem Starts.known {l l' : Layer} {words : List ℕ} {r : CrossTxInfo} {id : Bytes}
    (h : Starts sha256 cid H B l words r) :
    Known sha256 cid (B.start sha256 l words r) l' id ↔ Known sha256 cid B l' id := by
  constructor
  · rintro ⟨src, dest, amount, time, hmem, hhash, htime⟩
    rcases mem_start_hashed.mp hmem with ⟨rfl, heq⟩ | hmem
    · obtain ⟨src', dest', amount', rfl⟩ := h.form
      obtain ⟨_, _, _, rfl⟩ := startWords_inj heq
      exact absurd htime (lt_irrefl _)
    · exact ⟨src, dest, amount, time, hmem, hhash, htime⟩
  · rintro ⟨src, dest, amount, time, hmem, hhash, htime⟩
    exact ⟨src, dest, amount, time, mem_start_hashed.mpr (Or.inr hmem), hhash, htime⟩

/-- Books with one more start are later. -/
theorem Starts.later {l : Layer} {words : List ℕ} {r : CrossTxInfo}
    (h : Starts sha256 cid H B l words r) (hA : Assumptions sha256 cid H)
    (hB : Settled sha256 cid H B) : Later sha256 cid B (B.start sha256 l words r) where
  now _ := le_rfl
  hashed l' words' hmem := mem_start_hashed.mpr (Or.inr hmem)
  received _ := List.Subset.refl _
  source l' id hk := h.record_eq hA hB hk ▸ SameTransfer.refl _
  sent l' id hs := by
    rw [Sent, h.record_eq hA hB (hB.sentKnown l' id hs)]
    exact ⟨hs, rfl⟩

/-- A start changes nothing about what was sent. -/
theorem Starts.sent {l l' : Layer} {words : List ℕ} {r : CrossTxInfo} {id : Bytes}
    (h : Starts sha256 cid H B l words r) (hA : Assumptions sha256 cid H)
    (hB : Settled sha256 cid H B) :
    Sent cid (B.start sha256 l words r) l' id ↔ Sent cid B l' id := by
  refine ⟨fun hs => ?_, fun hs => ((h.later hA hB).sent l' id hs).1⟩
  by_cases heq : l' = l ∧ id = sha256.hash words
  · obtain ⟨rfl, rfl⟩ := heq
    have hfalse := hs.2
    rw [start, put_record_self, h.started] at hfalse
    cases hfalse
  · have hsame : (B.start sha256 l words r).record l' id = B.record l' id :=
      put_record_of_ne B r heq
    rwa [Sent, hsame] at hs

/-- Books with one more start stay settled. -/
theorem Starts.settled {l : Layer} {words : List ℕ} {r : CrossTxInfo}
    (h : Starts sha256 cid H B l words r) (hA : Assumptions sha256 cid H)
    (hB : Settled sha256 cid H B) : Settled sha256 cid H (B.start sha256 l words r) where
  form l' words' hmem := by
    rcases mem_start_hashed.mp hmem with ⟨rfl, rfl⟩ | hmem
    · obtain ⟨src, dest, amount, hwords⟩ := h.form
      exact ⟨src, dest, amount, _, hwords, le_rfl⟩
    · exact hB.form l' words' hmem
  hashedIn l' words' hmem := by
    rcases mem_start_hashed.mp hmem with ⟨rfl, rfl⟩ | hmem
    · exact h.hashedIn
    · exact hB.hashedIn l' words' hmem
  blank l' id hnil := by
    by_cases heq : l' = l ∧ id = sha256.hash words
    · obtain ⟨rfl, rfl⟩ := heq
      rw [start, put_record_self, h.crossTxId] at hnil
      exact absurd hnil (hash_ne_nil words)
    · have hsame : (B.start sha256 l words r).record l' id = B.record l' id :=
        put_record_of_ne B r heq
      rw [hsame] at hnil ⊢
      exact hB.blank l' id hnil
  keyed l' id hex := by
    by_cases heq : l' = l ∧ id = sha256.hash words
    · obtain ⟨rfl, rfl⟩ := heq
      rw [start, put_record_self, h.crossTxId]
    · have hsame : (B.start sha256 l words r).record l' id = B.record l' id :=
        put_record_of_ne B r heq
      rw [hsame] at hex ⊢
      exact hB.keyed l' id hex
  started l' words' hmem := by
    by_cases heq : l' = l ∧ sha256.hash words' = sha256.hash words
    · obtain ⟨rfl, heq⟩ := heq
      rw [heq, start, put_record_self]
      refine ⟨?_, h.started⟩
      rw [CrossTxInfo.Exists, h.crossTxId]
      exact hash_ne_nil words
    · have hsame : (B.start sha256 l words r).record l' (sha256.hash words') =
          B.record l' (sha256.hash words') := put_record_of_ne B r heq
      rw [hsame]
      rcases mem_start_hashed.mp hmem with ⟨rfl, rfl⟩ | hmem
      · exact absurd ⟨rfl, rfl⟩ heq
      · exact hB.started l' words' hmem
  origin l' id hex hst := by
    by_cases heq : l' = l ∧ id = sha256.hash words
    · exact ⟨words, mem_start_hashed.mpr (Or.inl ⟨heq.1, rfl⟩), heq.2.symm⟩
    · have hsame : (B.start sha256 l words r).record l' id = B.record l' id :=
        put_record_of_ne B r heq
      rw [hsame] at hex hst
      obtain ⟨words', hmem, hhash⟩ := hB.origin l' id hex hst
      exact ⟨words', mem_start_hashed.mpr (Or.inr hmem), hhash⟩
  acked l' id hst hex hne := by
    rw [h.known]
    by_cases heq : l' = l ∧ id = sha256.hash words
    · obtain ⟨rfl, rfl⟩ := heq
      rw [start, put_record_self] at hne
      exact absurd h.status hne
    · have hsame : (B.start sha256 l words r).record l' id = B.record l' id :=
        put_record_of_ne B r heq
      rw [hsame] at hst hex hne
      exact hB.acked l' id hst hex hne
  success l' id hk hs := by
    have hk := h.known.mp hk
    rw [h.record_eq hA hB hk] at hs
    rw [h.sent hA hB, h.record_eq hA hB hk, h.record_eq hA hB hk]
    exact hB.success l' id hk hs
  sentKnown l' id hs := h.known.mpr (hB.sentKnown l' id ((h.sent hA hB).mp hs))
  sentCopies l' id hs := by
    have hs := (h.sent hA hB).mp hs
    have hk := hB.sentKnown l' id hs
    rw [h.record_eq hA hB hk, h.record_eq hA hB hk]
    exact hB.sentCopies l' id hs
  sentStatus l' id hs := by
    have hs := (h.sent hA hB).mp hs
    have hk := hB.sentKnown l' id hs
    rw [h.record_eq hA hB hk, h.record_eq hA hB hk]
    exact hB.sentStatus l' id hs

/-- The escrow of a known transfer is stored where there was no record. -/
structure Escrows (sha256 : Sha256) (cid : Layer → ℕ) (B : Books) (l : Layer) (id : Bytes)
    (r : CrossTxInfo) : Prop where
  known : Known sha256 cid B l.other id
  absent : ¬(B.record l id).Exists
  ne_nil : id ≠ []
  crossTxId : r.crossTxId = id
  notStarted : isStarted l (cid l) r.srcChainId = false
  copies : Copies (B.record l.other id) r
  status : r.status = .init

/-- An escrow takes no id that was sent before. -/
theorem Escrows.record_of_sent {l l' : Layer} {id id' : Bytes} {r : CrossTxInfo}
    (h : Escrows sha256 cid B l id r) (hs : (B.record l' id').Exists) :
    (B.put l id r).record l' id' = B.record l' id' := by
  refine put_record_of_ne B r fun heq => h.absent ?_
  rwa [← heq.1, ← heq.2]

/-- Books with one more escrow are later. -/
theorem Escrows.later {l : Layer} {id : Bytes} {r : CrossTxInfo}
    (h : Escrows sha256 cid B l id r) (hB : Settled sha256 cid H B) :
    Later sha256 cid B (B.put l id r) where
  now _ := le_rfl
  hashed _ := List.Subset.refl _
  received _ := List.Subset.refl _
  source l' id' hk := h.record_of_sent (hB.of_known hk).1 ▸ SameTransfer.refl _
  sent l' id' hs := by
    rw [Sent, h.record_of_sent hs.1]
    exact ⟨hs, rfl⟩

/-- An escrow adds its own id to what was sent. -/
theorem Escrows.sent {l l' : Layer} {id id' : Bytes} {r : CrossTxInfo}
    (h : Escrows sha256 cid B l id r) :
    Sent cid (B.put l id r) l' id' ↔ l' = l ∧ id' = id ∨ Sent cid B l' id' := by
  by_cases heq : l' = l ∧ id' = id
  · obtain ⟨rfl, rfl⟩ := heq
    have hex : r.Exists := by
      rw [CrossTxInfo.Exists, h.crossTxId]
      exact h.ne_nil
    simp [Sent, put_record_self, hex, h.notStarted]
  · rw [Sent, put_record_of_ne B r heq]
    exact ⟨Or.inr, fun hor => hor.resolve_left fun hand => heq hand⟩

/-- Books with one more escrow stay settled. -/
theorem Escrows.settled {l : Layer} {id : Bytes} {r : CrossTxInfo}
    (h : Escrows sha256 cid B l id r) (hB : Settled sha256 cid H B) :
    Settled sha256 cid H (B.put l id r) where
  form := hB.form
  hashedIn := hB.hashedIn
  blank l' id' hnil := by
    by_cases heq : l' = l ∧ id' = id
    · obtain ⟨rfl, rfl⟩ := heq
      rw [put_record_self, h.crossTxId] at hnil
      exact absurd hnil h.ne_nil
    · rw [put_record_of_ne B r heq] at hnil ⊢
      exact hB.blank l' id' hnil
  keyed l' id' hex := by
    by_cases heq : l' = l ∧ id' = id
    · obtain ⟨rfl, rfl⟩ := heq
      rw [put_record_self, h.crossTxId]
    · rw [put_record_of_ne B r heq] at hex ⊢
      exact hB.keyed l' id' hex
  started l' words hmem := by
    rw [h.record_of_sent (hB.started l' words hmem).1]
    exact hB.started l' words hmem
  origin l' id' hex hst := by
    by_cases heq : l' = l ∧ id' = id
    · obtain ⟨rfl, rfl⟩ := heq
      rw [put_record_self, h.notStarted] at hst
      cases hst
    · rw [put_record_of_ne B r heq] at hex hst
      exact hB.origin l' id' hex hst
  acked l' id' hst hex hne := by
    by_cases heq : l' = l ∧ id' = id
    · obtain ⟨rfl, rfl⟩ := heq
      rw [put_record_self, h.notStarted] at hst
      cases hst
    · rw [put_record_of_ne B r heq] at hst hex hne
      exact hB.acked l' id' hst hex hne
  success l' id' hk hs := by
    rw [h.record_of_sent (hB.of_known hk).1] at hs ⊢
    obtain ⟨hsent, htime⟩ := hB.success l' id' hk hs
    rw [h.sent, h.record_of_sent hsent.1]
    exact ⟨Or.inr hsent, htime⟩
  sentKnown l' id' hs := by
    rcases h.sent.mp hs with ⟨rfl, rfl⟩ | hs
    · exact h.known
    · exact hB.sentKnown l' id' hs
  sentCopies l' id' hs := by
    rcases h.sent.mp hs with ⟨rfl, rfl⟩ | hs
    · rw [put_record_self, h.record_of_sent (hB.of_known h.known).1]
      exact h.copies
    · rw [h.record_of_sent hs.1, h.record_of_sent (hB.of_known (hB.sentKnown l' id' hs)).1]
      exact hB.sentCopies l' id' hs
  sentStatus l' id' hs := by
    rcases h.sent.mp hs with ⟨rfl, rfl⟩ | hs
    · rw [put_record_self]
      exact Or.inl h.status
    · rw [h.record_of_sent hs.1, h.record_of_sent (hB.of_known (hB.sentKnown l' id' hs)).1]
      exact hB.sentStatus l' id' hs

end Books

end CrosschainAgent
