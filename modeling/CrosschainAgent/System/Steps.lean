import CrosschainAgent.System.Invariant

/-!
# What the chains do to the books

A block closes, a user starts or refunds a transfer, or a submission of the agent is
executed. Each is a move of the books that keeps them settled: a refund and an ack rewrite a
record, a `SendTx` stores an escrow, a `StartTx` starts a transfer.
-/

namespace CrosschainAgent

open Interaction Bridge Strings Function

/-- An executed call is an accepted one. -/
theorem Chain.exec_accepted {l : Layer} {sha256 : Sha256} {c c' : Chain} {sender value : ℕ}
    {accepts : Address → Bool} {call : Call}
    (h : c.exec l sha256 sender value accepts call = some c') :
    ∃ b receipt, Accepted l sha256 c.bridge ⟨sender, value, c.now, accepts⟩ call b receipt ∧
      c' = { c with
        bridge := b
        log := c.log ++ receipt.events.map fun event => (c.now, event)
        hashed := (Entry.hashed l c.bridge.chainId
          ⟨⟨sender, value, c.now, accepts⟩, call, receipt⟩).toList ++ c.hashed } := by
  simp only [Chain.exec] at h
  split at h
  next => cases h
  next b receipt heq =>
    cases h
    exact ⟨b, receipt, Bridge.exec_accepted heq, rfl⟩

/-- What the execution of a call that is not reserved to the owner's settings leaves alone. -/
structure Chain.Executes (c c' : Chain) : Prop where
  owner : c'.bridge.owner = c.bridge.owner
  chainId : c'.bridge.chainId = c.bridge.chainId
  now : c'.now = c.now
  posted : c'.posted = c.posted
  pool : c'.pool = c.pool
  done : c'.done = c.done

variable {T : Type} {S : Scene}

/-- A record of one chain changed. -/
theorem books_put {w : Shared T} {l : Layer} {c : Chain} {id : Bytes} {r : CrossTxInfo}
    (hside : Chain.Executes (w.chain l) c)
    (hrecord : c.bridge.crossTxInfo = update (w.chain l).bridge.crossTxInfo id r)
    (hhashed : c.hashed = (w.chain l).hashed) : (w.setChain l c).books = w.books.put l id r := by
  rw [books_setChain, hrecord, hhashed, hside.now, hside.pool]
  simp [Books.put, Shared.books]

/-- A transfer started on one chain. -/
theorem books_start {w : Shared T} {l : Layer} {c : Chain} {sha256 : Sha256} {words : List ℕ}
    {r : CrossTxInfo} (hside : Chain.Executes (w.chain l) c)
    (hrecord : c.bridge.crossTxInfo = update (w.chain l).bridge.crossTxInfo (sha256.hash words) r)
    (hhashed : c.hashed = words :: (w.chain l).hashed) :
    (w.setChain l c).books = w.books.start sha256 l words r := by
  rw [books_setChain, hrecord, hhashed, hside.now, hside.pool]
  simp [Books.start, Books.put, Shared.books]

/-- A closed block moves the clock of its chain in the books. -/
theorem books_tick (w : Shared T) (l : Layer) (time : ℕ) :
    (w.setChain l { w.chain l with now := time }).books = w.books.tick l time := by
  rw [books_setChain]
  simp [Books.tick, Shared.books]

namespace Scene

variable {w : Shared T} {l : Layer}

/-- The books of a chain moved forward, and what it logged meanwhile is true. -/
theorem Good.executed (hw : S.Good w) {c : Chain} (hsettled : S.Settled (w.setChain l c).books)
    (hlater : S.Later w.books (w.setChain l c).books)
    (howner : c.bridge.owner = (w.chain l).bridge.owner)
    (hchainId : c.bridge.chainId = (w.chain l).bridge.chainId)
    (hlog : ∀ p ∈ c.log, p ∈ (w.chain l).log ∨ S.EventOk (w.setChain l c).books l p)
    (hposted : c.posted = (w.chain l).posted) (hpool : c.pool = (w.chain l).pool)
    (hdone : c.done = (w.chain l).done) : S.Good (w.setChain l c) := by
  have hkept := (hw.chains l).later hlater
  refine hw.of_chain hsettled hlater ?_
  constructor
  case owner => exact howner.trans hkept.owner
  case chainId => exact hchainId.trans hkept.chainId
  case log =>
    intro p hp
    exact (hlog p hp).elim (hkept.log p) id
  case posted => rw [hposted]; exact hkept.posted
  case pool => rw [hposted, hpool]; exact hkept.pool
  case named => rw [hpool]; exact hkept.named
  case apart => rw [hpool]; exact hkept.apart
  case done => rw [hdone, hpool]; exact hkept.done

/-- A received transaction was executed on the chain that was set, and did what it says. -/
theorem Good.executedTx {c : Chain} (hw : S.Good (w.setChain l c)) {tx : AgentTx} (htx : tx ∈ c.pool)
    (hexecuted : S.Executed (w.setChain l c).books l tx) :
    S.Good (w.setChain l { c with done := tx.hash :: c.done }) := by
  have hbooks : (w.setChain l { c with done := tx.hash :: c.done }).books = (w.setChain l c).books := by
    rw [books_setChain, books_setChain]
  constructor
  case books => rw [hbooks]; exact hw.books
  case maps => rw [hbooks]; exact hw.maps
  case db => rw [hbooks]; exact hw.db
  case chains =>
    intro l'
    have hold := hw.chains l'
    rw [hbooks]
    by_cases heq : l' = l
    · subst heq
      rw [setChain_chain_self] at hold ⊢
      refine ⟨hold.owner, hold.chainId, hold.log, hold.posted, hold.pool, hold.named, hold.apart,
        fun hash hmem => ?_⟩
      rcases List.mem_cons.mp hmem with rfl | hmem
      · exact ⟨tx, htx, rfl, hexecuted⟩
      · exact hold.done hash hmem
    · rw [setChain_chain_of_ne _ _ heq] at hold ⊢
      exact hold

/-- The block of a chain is closed. -/
theorem Good.block (hw : S.Good w) {time : ℕ} (h : (w.chain l).now < time) :
    S.Good (w.setChain l { w.chain l with now := time }) ∧
      S.Later w.books (w.setChain l { w.chain l with now := time }).books := by
  have hlater : S.Later w.books (w.setChain l { w.chain l with now := time }).books := by
    rw [books_tick]
    exact Books.later_tick h
  refine ⟨hw.executed ?_ hlater rfl rfl (fun p hp => Or.inl hp) rfl rfl rfl, hlater⟩
  rw [books_tick]
  exact hw.books.tick h

/-- A record was rewritten. -/
theorem Good.rewrites (hw : S.Good w) {c : Chain} {id : Bytes} {r : CrossTxInfo}
    (h : Books.Rewrites S.sys.sha256 S.cid w.books l id r)
    (hside : Chain.Executes (w.chain l) c)
    (hrecord : c.bridge.crossTxInfo = update (w.chain l).bridge.crossTxInfo id r)
    (hhashed : c.hashed = (w.chain l).hashed)
    (hlog : ∀ p ∈ c.log, p ∈ (w.chain l).log ∨ S.EventOk (w.books.put l id r) l p) :
    S.Good (w.setChain l c) ∧ S.Later w.books (w.setChain l c).books := by
  have hbooks := books_put hside hrecord hhashed
  have hlater : S.Later w.books (w.setChain l c).books := hbooks ▸ h.later
  refine ⟨hw.executed ?_ hlater hside.owner hside.chainId (hbooks ▸ hlog) hside.posted
    hside.pool hside.done, hlater⟩
  rw [hbooks]
  exact h.settled_put hw.books

/-- An escrow was stored. -/
theorem Good.escrows (hw : S.Good w) {c : Chain} {id : Bytes} {r : CrossTxInfo}
    (h : Books.Escrows S.sys.sha256 S.cid w.books l id r)
    (hside : Chain.Executes (w.chain l) c)
    (hrecord : c.bridge.crossTxInfo = update (w.chain l).bridge.crossTxInfo id r)
    (hhashed : c.hashed = (w.chain l).hashed)
    (hlog : c.log = (w.chain l).log ++ [((w.chain l).now, .sendTxEvent id)]) :
    S.Good (w.setChain l c) ∧ S.Later w.books (w.setChain l c).books := by
  have hbooks := books_put hside hrecord hhashed
  have hlater : S.Later w.books (w.setChain l c).books := hbooks ▸ h.later hw.books
  refine ⟨hw.executed ?_ hlater hside.owner hside.chainId ?_ hside.posted hside.pool
    hside.done, hlater⟩
  · rw [hbooks]
    exact h.settled hw.books
  · intro p hp
    rw [hlog] at hp
    refine (List.mem_append.mp hp).imp_right fun hnew => ?_
    rw [List.mem_singleton.mp hnew, hbooks]
    exact h.sent.mpr (Or.inl ⟨rfl, rfl⟩)

/-- A refund touches neither the transfer nor its settlement. -/
theorem refund_rewrites (hw : S.Settled w.books) {id : Bytes}
    (found : (w.books.record l id).Exists) :
    Books.Rewrites S.sys.sha256 S.cid w.books l id
      { w.books.record l id with refunded := .refunded } where
  exists_ := found
  crossTxId := rfl
  srcChainId := rfl
  srcBid := rfl
  destBid := rfl
  amount := rfl
  timeout := rfl
  createTimestamp := rfl
  settled _ := ⟨rfl, rfl⟩
  acked hst hne := hw.acked l id hst found hne
  success hk hs := hw.success l id hk hs
  sentStatus hs := hw.sentStatus l id hs
  sentTime _ := rfl

/-- A transfer was started. -/
theorem Good.starts (hA : S.Assumptions) (hw : S.Good w) {c : Chain} {words : List ℕ}
    {r : CrossTxInfo} (h : Books.Starts S.sys.sha256 S.cid S.H w.books l words r)
    (hside : Chain.Executes (w.chain l) c)
    (hrecord : c.bridge.crossTxInfo =
      update (w.chain l).bridge.crossTxInfo (S.sys.sha256.hash words) r)
    (hhashed : c.hashed = words :: (w.chain l).hashed)
    (hlog : c.log = (w.chain l).log ++
      [((w.chain l).now, .startTxEvent (S.sys.sha256.hash words))]) :
    S.Good (w.setChain l c) ∧ S.Later w.books (w.setChain l c).books := by
  have hbooks := books_start hside hrecord hhashed
  have hlater : S.Later w.books (w.setChain l c).books := hbooks ▸ h.later hA hw.books
  refine ⟨hw.executed ?_ hlater hside.owner hside.chainId ?_ hside.posted hside.pool
    hside.done, hlater⟩
  · rw [hbooks]
    exact h.settled hA hw.books
  · intro p hp
    rw [hlog] at hp
    refine (List.mem_append.mp hp).imp_right fun hnew => ?_
    rw [List.mem_singleton.mp hnew, hbooks]
    obtain ⟨src, dest, amount, rfl⟩ := h.form
    exact ⟨src, dest, amount, Books.mem_start_hashed.mpr (Or.inl ⟨rfl, rfl⟩), rfl⟩

/-- What a user's call does: it starts or refunds a transfer. -/
theorem Good.user (hA : S.Assumptions) (hw : S.Good w) {sender value : ℕ}
    {accepts : Address → Bool} {call : Call} {c : Chain} (hsender : sender ≠ S.sys.owner l)
    (h : (w.chain l).exec l S.sys.sha256 sender value accepts call = some c)
    (hH : ∀ words ∈ c.hashed, words ∈ S.H) :
    S.Good (w.setChain l c) ∧ S.Later w.books (w.setChain l c).books := by
  obtain ⟨b, receipt, hacc, rfl⟩ := Chain.exec_accepted h
  have howner := (hw.chains l).owner
  cases hacc with
  | setTimeout t owner | setOwner o owner | sendTx id src dest timeout owner
  | ackSuccess id desc time recipient events owner
  | ackFailure id result desc time status desc' owner =>
    exact absurd (owner.trans howner) hsender
  | refund id hvalue length found todo payer funds taken =>
    refine hw.rewrites (refund_rewrites hw.books found) ⟨rfl, rfl, rfl, rfl, rfl, rfl⟩ rfl rfl
      fun p hp => ?_
    refine (List.mem_append.mp hp).imp_right fun hnew => ?_
    rw [List.mem_singleton.mp hnew]
    trivial
  | startTx dest txId hid nonzero bounded =>
    subst hid
    refine hw.starts hA ⟨⟨sender, dest, value, ?_⟩, hH _ List.mem_cons_self, rfl, ?_, rfl⟩
      ⟨rfl, rfl, rfl, rfl, rfl, rfl⟩ rfl rfl rfl
    · exact congrArg (startWords l · sender dest value (w.chain l).now) (hw.chains l).chainId
    · rw [startedInfo, (hw.chains l).chainId]
      cases l <;> simp [startedRoute, isStarted]

/-- The call a node reads from the submission of a transfer. -/
theorem Describes.decodeCall {B : Books} {h : Handle} {info : Protocol.CrossTxInfo} {id : Bytes}
    (hd : S.Describes B h info id) :
    S.sys.abi.decodeCall (Handle.sendTxInput info).function (Handle.sendTxInput info).args =
      some (.sendTx id (B.record h id).srcBid (B.record h id).destBid
        (saturate (B.record h id).amount) (saturate (B.record h id).timeout)) := by
  have hsmall : ∀ n, saturate n < 2 ^ 256 := fun n => (saturate_lt n).trans (by decide)
  rw [Handle.sendTxInput, TxInput.args_sendTx, formatLd_of_toInt hd.amount,
    formatLd_of_toInt hd.timeout, hd.crosstxid, hd.srcbid, hd.destbid]
  exact S.sys.abi.decodeCall_sendTx _ _ _ _ _ (hsmall _) (hsmall _)

/-- The call a node reads from the submission of an ack. -/
theorem decodeCall_ack {id : Bytes} {result : Int32} {desc : Text} {time : Int64} {k n : ℕ}
    (hk : result.toInt = k) (hlt : k < 2 ^ 8) (hn : time.toInt = n) (hcomma : ',' ∉ desc)
    (hquote : '\'' ∉ desc) :
    S.sys.abi.decodeCall (TxInput.sendAckedTx (S.sys.abi.bytesText id) result desc time).function
      (TxInput.sendAckedTx (S.sys.abi.bytesText id) result desc time).args =
      some (.sendAckedTx id k desc n) := by
  have hsmall : n < 2 ^ 256 := by
    have := time.toInt_lt
    omega
  rw [TxInput.args_sendAckedTx, formatD_of_toInt hk, formatLd_of_toInt hn]
  exact S.sys.abi.decodeCall_sendAckedTx id k desc n hlt hsmall hcomma hquote

/-- What `SendTx` stores is not the record of a transfer that started there. -/
theorem Good.sentInfo_notStarted (hA : S.Assumptions) (hw : S.Good w) (msg : Msg) (id : Bytes)
    (src dest : Address) (amount timeout : ℕ) : isStarted l (S.cid l)
      (sentInfo l (w.chain l).bridge msg id src dest amount timeout).srcChainId = false := by
  rw [sentInfo, (hw.chains l).chainId]
  cases l <;> simp [startedRoute, isStarted, hA.chainId_ne_zero, (hA.chainId_ne_zero _).symm]

/-- A justified `SendTx` that is accepted stores the escrow of its transfer. -/
theorem Describes.escrows (hA : S.Assumptions) (hw : S.Good w) {info : Protocol.CrossTxInfo}
    {id : Bytes} {timeout : ℕ} (hd : S.Describes w.books l.other info id) (msg : Msg)
    (hvalue : msg.value = saturate (w.books.record l.other id).amount)
    (htimeout : timeout = saturate (w.books.record l.other id).timeout)
    (length : id.length = 32) (fresh : ((w.chain l).bridge.crossTxInfo id).crossTxId = []) :
    Books.Escrows S.sys.sha256 S.cid w.books l id
      (sentInfo l (w.chain l).bridge msg id (w.books.record l.other id).srcBid
        (w.books.record l.other id).destBid msg.value timeout) where
  known := hd.known
  absent hex := hex fresh
  ne_nil := List.ne_nil_of_length_pos (by omega)
  crossTxId := rfl
  notStarted := hw.sentInfo_notStarted hA ..
  copies := ⟨rfl, rfl, hvalue, htimeout⟩
  status := by
    have hblank : (w.chain l).bridge.crossTxInfo id = {} := hw.books.blank l id fresh
    rw [sentInfo, hblank]

/-- A justified ack of a known transfer that is accepted rewrites its record. -/
theorem AckFor.rewrites {B : Books} (hB : S.Settled B) {result : Int32} {time : Int64} {id : Bytes}
    (ha : S.AckFor B l result time id) (found : (B.record l id).Exists)
    (init : (B.record l id).status = .init) {r : CrossTxInfo}
    (hr : Books.SameTransfer (B.record l id) r)
    (hsuccess : r.status = .ackSuccess → result = crossResultSuccess ∧
      time.toInt = r.executeTimestamp) :
    Books.Rewrites S.sys.sha256 S.cid B l id r where
  exists_ := found
  crossTxId := hr.crossTxId
  srcChainId := hr.srcChainId
  srcBid := hr.srcBid
  destBid := hr.destBid
  amount := hr.amount
  timeout := hr.timeout
  createTimestamp := hr.createTimestamp
  settled hne := absurd init hne
  acked _ _ := ha.known
  success _ hs := by
    obtain ⟨hresult, htime⟩ := hsuccess hs
    obtain ⟨hsent, hsat⟩ := ha.success hresult
    exact ⟨hsent, by omega⟩
  sentStatus hs := absurd hs (hB.not_sent_of_known ha.known)
  sentTime hs := absurd hs (hB.not_sent_of_known ha.known)

/-- The record a reply is about is an escrow. -/
theorem ReplyFor.sent {B : Books} (hA : S.Assumptions) (hB : S.Settled B) {result : Int32}
    {time : Int64} {id : Bytes} (ha : S.ReplyFor B l.other result time id)
    (found : (B.record l id).Exists) : S.Sent B l id := by
  have hother := hB.sent_of_exists hA ha.known
  rw [Layer.other_other] at hother
  exact hother found

/-- A justified reply that is accepted settles the escrow of its transfer. -/
theorem ReplyFor.rewrites {B : Books} (hA : S.Assumptions) (hB : S.Settled B) {result : Int32}
    {time : Int64} {id : Bytes} (ha : S.ReplyFor B l.other result time id)
    (found : (B.record l id).Exists) (init : (B.record l id).status = .init) {r : CrossTxInfo}
    (hr : Books.SameTransfer (B.record l id) r) (hstatus : r.status = .ackSuccess)
    (htime : time.toInt = r.executeTimestamp) :
    Books.Rewrites S.sys.sha256 S.cid B l id r := by
  have hsent := ha.sent hA hB found
  have hclock := (hB.success l.other id ha.known ha.success).2
  rw [Layer.other_other] at hclock
  exact
    { exists_ := found
      crossTxId := hr.crossTxId
      srcChainId := hr.srcChainId
      srcBid := hr.srcBid
      destBid := hr.destBid
      amount := hr.amount
      timeout := hr.timeout
      createTimestamp := hr.createTimestamp
      settled := fun hne => absurd init hne
      acked := fun hst => by
        rw [hsent.2] at hst
        cases hst
      success := fun hk => absurd hsent (hB.not_sent_of_known hk)
      sentStatus := fun _ => Or.inr ⟨hstatus, ha.success⟩
      sentTime := fun _ => by
        have hexec : r.executeTimestamp = saturate (B.record l.other id).executeTimestamp := by
          have := ha.time
          omega
        rw [hexec, hclock, saturate_saturate, saturate_saturate] }

/-- What the execution of a justified submission does to the books. -/
theorem Good.executes (hA : S.Assumptions) (hw : S.Good w) {input : TxInput} {value : Int64}
    (hj : S.Justified w.books l input value) {accepts : Address → Bool} {call : Call} {c : Chain}
    (hcall : S.sys.abi.decodeCall input.function input.args = some call)
    (h : (w.chain l).exec l S.sys.sha256 (S.sys.owner l) value.toInt.toNat accepts call = some c) :
    S.Good (w.setChain l c) ∧ S.Later w.books (w.setChain l c).books := by
  obtain ⟨b, receipt, hacc, rfl⟩ := Chain.exec_accepted h
  cases input with
  | sendTx crossTxId srcBid destBid amount timeout =>
    obtain ⟨info, id, hd, hvalue, hinput⟩ := hj
    rw [← hinput, hd.decodeCall] at hcall
    cases hacc with
    | setTimeout | setOwner | startTx | ackSuccess | ackFailure | refund => cases hcall
    | sendTx id' src dest time owner length nonzero inTime fresh =>
      simp only [Option.some.injEq, Call.sendTx.injEq] at hcall
      obtain ⟨rfl, rfl, rfl, hamount, htime⟩ := hcall
      exact hw.escrows (hd.escrows hA hw ⟨_, _, _, accepts⟩ hamount.symm htime.symm length fresh)
        ⟨rfl, rfl, rfl, rfl, rfl, rfl⟩ rfl rfl rfl
  | sendAckedTx crossTxId result errorDesc executeTime =>
    obtain ⟨id, rfl, hcomma, hquote, ⟨n, hn⟩, hwhat⟩ := hj
    obtain ⟨k, hk, hlt, hone⟩ := (verdict_of_ack hwhat).toInt
    rw [decodeCall_ack hk hlt hn hcomma hquote] at hcall
    cases hacc with
    | setTimeout | setOwner | startTx | sendTx | refund => cases hcall
    | ackSuccess id' desc time recipient events owner value' length found init hdesc window funds taken
        route =>
      cases hcall
      have hsame : Books.SameTransfer (w.books.record l id)
          { w.books.record l id with status := .ackSuccess, executeTimestamp := n } :=
        ⟨rfl, rfl, rfl, rfl, rfl, rfl, rfl, fun hne => absurd init hne, fun hne => absurd init hne⟩
      rcases hwhat with hack | hreply
      · refine hw.rewrites (hack.rewrites hw.books found init hsame fun _ => ⟨hone.mp rfl, hn⟩)
          ⟨rfl, rfl, rfl, rfl, rfl, rfl⟩ rfl rfl fun p hp => ?_
        have hstarted := (hw.books.of_known hack.known).2
        rw [if_pos ((hw.chains l).chainId ▸ hstarted)] at route
        obtain ⟨rfl, rfl⟩ := route
        refine (List.mem_append.mp hp).imp_right fun hnew => ?_
        rw [List.mem_singleton.mp hnew]
        exact ⟨hack.known, by rw [Books.put_record_self]⟩
      · refine hw.rewrites (hreply.rewrites hA hw.books found init hsame rfl hn)
          ⟨rfl, rfl, rfl, rfl, rfl, rfl⟩ rfl rfl fun p hp => ?_
        have hescrow := (hreply.sent hA hw.books found).2
        rw [if_neg (by rw [(hw.chains l).chainId]; exact Bool.not_eq_true _ ▸ hescrow)] at route
        obtain ⟨rfl, rfl⟩ := route
        exact Or.inl (by simpa using hp)
    | ackFailure id' result' desc time status desc' owner value' length found init hdesc result_eq =>
      cases hcall
      have hk1 : k ≠ 1 ∧ status ≠ .ackSuccess := by
        rcases result_eq with ⟨rfl, rfl, _⟩ | ⟨rfl, rfl, _⟩ <;> decide
      have hack := hwhat.resolve_right fun hreply => hk1.1 (hone.mpr hreply.verdict)
      have hsame : Books.SameTransfer (w.books.record l id)
          { w.books.record l id with status := status, refunded := .todo, errorDesc := desc' } :=
        ⟨rfl, rfl, rfl, rfl, rfl, rfl, rfl, fun hne => absurd init hne, fun hne => absurd init hne⟩
      exact hw.rewrites (hack.rewrites hw.books found init hsame fun hs => absurd hs hk1.2)
        ⟨rfl, rfl, rfl, rfl, rfl, rfl⟩ rfl rfl fun p hp => Or.inl (by simpa using hp)

/-- An executed `SendTx` of the agent leaves an escrow. -/
theorem Good.executed_sendTx (hA : S.Assumptions) (hw : S.Good w) {input : TxInput} {value : Int64}
    {accepts : Address → Bool} {call : Call} {c : Chain}
    (hcall : S.sys.abi.decodeCall input.function input.args = some call)
    (h : (w.chain l).exec l S.sys.sha256 (S.sys.owner l) value.toInt.toNat accepts call = some c)
    {hash : Text} {amount : Int64} :
    S.Executed (w.setChain l c).books l ⟨hash, input, amount⟩ := by
  intro id src dest tokens timeout hsend
  obtain rfl : call = .sendTx id src dest tokens timeout := Option.some.inj (hcall.symm.trans hsend)
  obtain ⟨b, receipt, hacc, rfl⟩ := Chain.exec_accepted h
  cases hacc with
  | sendTx _ _ _ _ owner length nonzero inTime fresh =>
    rw [books_setChain]
    simp only [Scene.Sent, Books.Sent, update_self, CrossTxInfo.Exists, State.store]
    exact ⟨ne_nil_of_length length, hw.sentInfo_notStarted hA ..⟩

/-- What the execution of a received transaction does. -/
theorem Good.execute (hA : S.Assumptions) (hw : S.Good w) {tx : AgentTx} (htx : tx ∈ (w.chain l).pool)
    {accepts : Address → Bool} {call : Call} {c : Chain}
    (hcall : S.sys.abi.decodeCall tx.input.function tx.input.args = some call)
    (h : (w.chain l).exec l S.sys.sha256 (S.sys.owner l) tx.amount.toInt.toNat accepts call = some c) :
    S.Good (w.setChain l { c with done := tx.hash :: c.done }) ∧
      S.Later w.books (w.setChain l { c with done := tx.hash :: c.done }).books := by
  have hj := (hw.chains l).posted _ ((hw.chains l).pool tx htx)
  obtain ⟨hgood, hlater⟩ := hw.executes hA hj hcall h
  have hpool : c.pool = (w.chain l).pool := by
    obtain ⟨b, receipt, _, rfl⟩ := Chain.exec_accepted h
    rfl
  refine ⟨hgood.executedTx (hpool ▸ htx) (hw.executed_sendTx hA hcall h), ?_⟩
  rwa [show (w.setChain l { c with done := tx.hash :: c.done }).books = (w.setChain l c).books by
    rw [books_setChain, books_setChain]]

end Scene

end CrosschainAgent
