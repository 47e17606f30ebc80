import CrosschainAgent.Contract.Payouts

/-!
# The account of a record

The account of an id is what the accepted calls brought in for it, what they paid out and which
events they logged in its name. While an escrow is never refused and a repeated `StartTx` makes the
same transfer again, the record of an id tells its account: a started record was paid for by its
payer, and was paid out once it is `ACK_SUCCESS` or refunded; an escrow was paid for by the owner.
-/

namespace CrosschainAgent.Bridge

variable {l : Layer} {sha256 : Sha256}

/-- The id an event is about. -/
def Event.crossTxId : Event → Option Bytes
  | .startTxEvent id => some id
  | .sendTxEvent id => some id
  | .sendAckedTxEvent id => some id
  | .refundEvent id => some id
  | .setOwnerEvent _ => none
  | .setTimeoutEvent _ => none

/-- Who paid how much for the id, the newest first. -/
def depositsOf (es : List Entry) (id : Bytes) : List (Address × ℕ) :=
  es.flatMap fun e => if e.funds id then [(e.msg.sender, e.msg.value)] else []

/-- What an entry paid in the name of the id. -/
def Entry.payments (e : Entry) (id : Bytes) : List (Address × ℕ) :=
  match e.call with
  | .sendAckedTx i _ _ _ => if i = id then e.receipt.transfers else []
  | .refund i => if i = id then e.receipt.transfers else []
  | _ => []

/-- Who was paid how much in the name of the id, the newest first. -/
def paymentsOf (es : List Entry) (id : Bytes) : List (Address × ℕ) := es.flatMap (·.payments id)

/-- The events an entry logged about the id. -/
def Entry.eventsAbout (e : Entry) (id : Bytes) : List Event :=
  e.receipt.events.filter fun event => event.crossTxId = some id

/-- The events about the id, the oldest first. -/
def eventsOf (es : List Entry) (id : Bytes) : List Event := es.reverse.flatMap (·.eventsAbout id)

/-- One more entry adds its deposit, if it is one. -/
theorem depositsOf_cons (e : Entry) (es : List Entry) (id : Bytes) :
    depositsOf (e :: es) id =
      (if e.funds id then [(e.msg.sender, e.msg.value)] else []) ++ depositsOf es id := rfl

/-- One more entry adds its payments. -/
theorem paymentsOf_cons (e : Entry) (es : List Entry) (id : Bytes) :
    paymentsOf (e :: es) id = e.payments id ++ paymentsOf es id := rfl

/-- One more entry adds its events at the end. -/
theorem eventsOf_cons (e : Entry) (es : List Entry) (id : Bytes) :
    eventsOf (e :: es) id = eventsOf es id ++ e.eventsAbout id := by
  simp [eventsOf]

/-- What was paid out for a started record. -/
def CrossTxInfo.startedPayments (r : CrossTxInfo) (owner : Address) : List (Address × ℕ) :=
  if r.status = .ackSuccess then [(owner, r.amount)]
  else if r.refunded = .refunded then [(r.srcBid, r.amount)]
  else []

/-- The event that closes a started record. -/
def CrossTxInfo.closing (r : CrossTxInfo) (id : Bytes) : List Event :=
  if r.status = .ackSuccess then [.sendAckedTxEvent id]
  else if r.refunded = .refunded then [.refundEvent id]
  else []

/-- What was paid out for an escrow. -/
def CrossTxInfo.sentPayments (r : CrossTxInfo) : List (Address × ℕ) :=
  if r.status = .ackSuccess then [(r.destBid, r.amount)] else []

/-- The record of the id tells its account. -/
structure Accounted (l : Layer) (chainId : ℕ) (owner : Address) (r : CrossTxInfo) (id : Bytes)
    (es : List Entry) : Prop where
  blank : ¬r.Exists → depositsOf es id = [] ∧ paymentsOf es id = [] ∧ eventsOf es id = []
  started : r.Exists → isStarted l chainId r.srcChainId = true →
    (∃ n, depositsOf es id = List.replicate (n + 1) (r.srcBid, r.amount) ∧
      eventsOf es id = List.replicate (n + 1) (.startTxEvent id) ++ r.closing id) ∧
    paymentsOf es id = r.startedPayments owner
  sent : r.Exists → isStarted l chainId r.srcChainId = false →
    depositsOf es id = [(owner, r.amount)] ∧ paymentsOf es id = r.sentPayments ∧
      eventsOf es id = [.sendTxEvent id]

/-- Before any call there is no account. -/
theorem accounted_nil (chainId : ℕ) (owner : Address) (id : Bytes) :
    Accounted l chainId owner {} id [] where
  blank _ := ⟨rfl, rfl, rfl⟩
  started hex := absurd rfl hex
  sent hex := absurd rfl hex

/-- An entry that is not about the id leaves its account as it is. -/
theorem Accounted.cons_other {chainId : ℕ} {owner : Address} {r : CrossTxInfo} {id : Bytes}
    {es : List Entry} (h : Accounted l chainId owner r id es) {e : Entry} (hfunds : e.funds id = false)
    (hpays : e.payments id = []) (hlogs : e.eventsAbout id = []) :
    Accounted l chainId owner r id (e :: es) := by
  have hdeposits : depositsOf (e :: es) id = depositsOf es id := by simp [depositsOf_cons, hfunds]
  have hpayments : paymentsOf (e :: es) id = paymentsOf es id := by simp [paymentsOf_cons, hpays]
  have hevents : eventsOf (e :: es) id = eventsOf es id := by simp [eventsOf_cons, hlogs]
  constructor
  · rw [hdeposits, hpayments, hevents]
    exact h.blank
  · rw [hdeposits, hpayments, hevents]
    exact h.started
  · rw [hdeposits, hpayments, hevents]
    exact h.sent

/-- What a call must not do for the accounts to go on: a `StartTx` of an existing record makes the
same transfer again while it is open, and an escrow is not refused. -/
structure Orderly (l : Layer) (sha256 : Sha256) (chainId : ℕ) (owner : Address) (b b' : State)
    (msg : Msg) (call : Call) : Prop where
  wellFormed : b.WellFormed
  chainId_eq : b.chainId = chainId
  owner_eq : b.owner = owner
  again : ∀ src dest amount, call = .startTx src dest amount →
    ∀ id, id = sha256.hash (startWords l chainId src dest amount msg.timestamp) →
      (b.crossTxInfo id).Exists →
      isStarted l chainId (b.crossTxInfo id).srcChainId = true ∧
        (b.crossTxInfo id).status = .init ∧ (b.crossTxInfo id).srcBid = src ∧
        (b.crossTxInfo id).amount = amount
  escrow : ∀ id, (b.crossTxInfo id).Exists →
    isStarted l chainId (b.crossTxInfo id).srcChainId = false →
      (b'.crossTxInfo id).status = .init ∨ (b'.crossTxInfo id).status = .ackSuccess

/-- An open record was paid for and nothing more. -/
theorem Accounted.of_init {chainId : ℕ} {owner : Address} {r : CrossTxInfo} {id : Bytes}
    {es : List Entry} (h : Accounted l chainId owner r id es) (hinit : r.status = .init)
    (hrefund : r.RefundMatches) (hstarted : isStarted l chainId r.srcChainId = true) :
    paymentsOf es id = [] ∧ (r.Exists → ∃ n,
      depositsOf es id = List.replicate (n + 1) (r.srcBid, r.amount) ∧
      eventsOf es id = List.replicate (n + 1) (.startTxEvent id)) := by
  have hnone : r.refunded = .none := hrefund.mpr (Or.inl hinit)
  by_cases hex : r.Exists
  · obtain ⟨⟨n, hdeposits, hevents⟩, hpayments⟩ := h.started hex hstarted
    simp only [CrossTxInfo.startedPayments, CrossTxInfo.closing, hinit, hnone, reduceCtorEq, if_false]
      at hpayments hevents
    rw [List.append_nil] at hevents
    exact ⟨hpayments, fun _ => ⟨n, hdeposits, hevents⟩⟩
  · exact ⟨(h.blank hex).2.1, fun hex' => absurd hex' hex⟩

/-- An accepted `StartTx` opens an account, or adds the same deposit to an open one. -/
theorem Accounted.startTx {chainId : ℕ} {owner : Address} {b b' : State} {msg : Msg} {dest : Address}
    {es : List Entry} {id : Bytes}
    (ho : Orderly l sha256 chainId owner b b' msg (.startTx msg.sender dest msg.value))
    (hid : id = sha256.hash (startWords l chainId msg.sender dest msg.value msg.timestamp))
    (h : Accounted l chainId owner (b.crossTxInfo id) id es) :
    Accounted l chainId owner (startedInfo l b msg id msg.sender dest msg.value) id
      (⟨msg, .startTx msg.sender dest msg.value, { events := [.startTxEvent id] }⟩ :: es) := by
  have hex : (startedInfo l b msg id msg.sender dest msg.value).Exists := hid ▸ hash_ne_nil _
  have hst : isStarted l chainId (startedInfo l b msg id msg.sender dest msg.value).srcChainId = true := by
    rw [startedInfo, ho.chainId_eq]
    cases l <;> simp [startedRoute, isStarted]
  have hold : paymentsOf es id = [] ∧ ∃ n,
      depositsOf es id = List.replicate n (msg.sender, msg.value) ∧
      eventsOf es id = List.replicate n (.startTxEvent id) := by
    by_cases hexists : (b.crossTxInfo id).Exists
    · obtain ⟨hstarted, hinit, hsrc, hamount⟩ := ho.again _ _ _ rfl id hid hexists
      obtain ⟨hpayments, hrest⟩ := h.of_init hinit (ho.wellFormed.refunds id) hstarted
      obtain ⟨n, hdeposits, hevents⟩ := hrest hexists
      exact ⟨hpayments, n + 1, hsrc ▸ hamount ▸ hdeposits, hevents⟩
    · obtain ⟨hdeposits, hpayments, hevents⟩ := h.blank hexists
      exact ⟨hpayments, 0, hdeposits, hevents⟩
  obtain ⟨hpayments, n, hdeposits, hevents⟩ := hold
  refine ⟨fun hno => absurd hex hno, fun _ _ => ⟨⟨n, ?_, ?_⟩, ?_⟩, fun _ hno => ?_⟩
  · simp [depositsOf_cons, Entry.funds, hdeposits, startedInfo, List.replicate_succ]
  · simp [eventsOf_cons, Entry.eventsAbout, Event.crossTxId, hevents, startedInfo,
      CrossTxInfo.closing, List.replicate_succ']
  · simp [paymentsOf_cons, Entry.payments, hpayments, startedInfo, CrossTxInfo.startedPayments]
  · rw [hst] at hno
    cases hno

/-- An accepted `SendTx` opens the account of an escrow. -/
theorem Accounted.sendTx {chainId : ℕ} {owner : Address} {b b' : State} {msg : Msg}
    {src dest : Address} {timeout : ℕ} {es : List Entry} {id : Bytes}
    (ho : Orderly l sha256 chainId owner b b' msg (.sendTx id src dest msg.value timeout))
    (howner : msg.sender = b.owner) (hlength : id.length = 32) (hcid : chainId ≠ 0)
    (hfresh : (b.crossTxInfo id).crossTxId = [])
    (h : Accounted l chainId owner (b.crossTxInfo id) id es) :
    Accounted l chainId owner (sentInfo l b msg id src dest msg.value timeout) id
      (⟨msg, .sendTx id src dest msg.value timeout, { events := [.sendTxEvent id] }⟩ :: es) := by
  have hex : (sentInfo l b msg id src dest msg.value timeout).Exists := ne_nil_of_length hlength
  have hsent : isStarted l chainId (sentInfo l b msg id src dest msg.value timeout).srcChainId = false := by
    rw [sentInfo, ho.chainId_eq]
    cases l <;> simp [startedRoute, isStarted, hcid, hcid.symm]
  obtain ⟨hdeposits, hpayments, hevents⟩ := h.blank (not_not.mpr hfresh)
  refine ⟨fun hno => absurd hex hno, fun _ hno => ?_, fun _ _ => ⟨?_, ?_, ?_⟩⟩
  · rw [hsent] at hno
    cases hno
  · simp [depositsOf_cons, Entry.funds, hdeposits, sentInfo, howner, ho.owner_eq]
  · simp [paymentsOf_cons, Entry.payments, hpayments, sentInfo, CrossTxInfo.sentPayments,
      ho.wellFormed.blank id hfresh]
  · simp [eventsOf_cons, Entry.eventsAbout, Event.crossTxId, hevents]

/-- A call that rewrites a record keeps its deposits. What it pays and logs must be what the new
record tells more than the old one. -/
theorem Accounted.rewrite {chainId : ℕ} {owner : Address} {r r' : CrossTxInfo} {id : Bytes}
    {e : Entry} {es : List Entry} (h : Accounted l chainId owner r id es) (hex : r.Exists)
    (hsame : r'.crossTxId = r.crossTxId ∧ r'.srcChainId = r.srcChainId ∧ r'.srcBid = r.srcBid ∧
      r'.destBid = r.destBid ∧ r'.amount = r.amount)
    (hfunds : e.funds id = false)
    (hstarted : isStarted l chainId r.srcChainId = true →
      r'.startedPayments owner = e.payments id ++ r.startedPayments owner ∧
        r'.closing id = r.closing id ++ e.eventsAbout id)
    (hsent : isStarted l chainId r.srcChainId = false →
      r'.sentPayments = e.payments id ++ r.sentPayments ∧ e.eventsAbout id = []) :
    Accounted l chainId owner r' id (e :: es) := by
  obtain ⟨hid, hchain, hsrc, hdest, hamount⟩ := hsame
  have hex' : r'.Exists := by rwa [CrossTxInfo.Exists, hid]
  have hdeposits : depositsOf (e :: es) id = depositsOf es id := by simp [depositsOf_cons, hfunds]
  refine ⟨fun hno => absurd hex' hno, fun _ hst => ?_, fun _ hst => ?_⟩
  · rw [hchain] at hst
    obtain ⟨⟨n, hd, hevents⟩, hpayments⟩ := h.started hex hst
    obtain ⟨hpays, hlogs⟩ := hstarted hst
    refine ⟨⟨n, ?_, ?_⟩, ?_⟩
    · rw [hdeposits, hd, hsrc, hamount]
    · rw [eventsOf_cons, hevents, hlogs, List.append_assoc]
    · rw [paymentsOf_cons, hpayments, hpays]
  · rw [hchain] at hst
    obtain ⟨hd, hpayments, hevents⟩ := h.sent hex hst
    obtain ⟨hpays, hlogs⟩ := hsent hst
    refine ⟨?_, ?_, ?_⟩
    · rw [hdeposits, hd, hamount]
    · rw [paymentsOf_cons, hpayments, hpays]
    · rw [eventsOf_cons, hevents, hlogs, List.append_nil]

/-- Every accepted call that is orderly keeps the accounts of all ids. -/
theorem Accepted.accounted {chainId : ℕ} {owner : Address} {b b' : State} {msg : Msg} {c : Call}
    {r : Receipt} (hacc : Accepted l sha256 b msg c b' r)
    (ho : Orderly l sha256 chainId owner b b' msg c) (hcid : chainId ≠ 0) {es : List Entry}
    (h : ∀ id, Accounted l chainId owner (b.crossTxInfo id) id es) (id : Bytes) :
    Accounted l chainId owner (b'.crossTxInfo id) id (⟨msg, c, r⟩ :: es) := by
  cases hacc with
  | setTimeout | setOwner =>
    exact (h id).cons_other (by simp [Entry.funds]) rfl (by simp [Entry.eventsAbout, Event.crossTxId])
  | startTx dest txId hid =>
    rw [store_crossTxInfo, receive_crossTxInfo]
    rw [ho.chainId_eq] at hid
    by_cases hi : id = txId
    · subst hi
      rw [Function.update_self]
      exact (h id).startTx ho hid
    · rw [Function.update_of_ne hi]
      exact (h id).cons_other (by simp [Entry.funds, hi]) rfl
        (by simp [Entry.eventsAbout, Event.crossTxId, Ne.symm hi])
  | sendTx i src dest timeout howner length nonzero inTime fresh =>
    rw [store_crossTxInfo, receive_crossTxInfo]
    by_cases hi : id = i
    · subst hi
      rw [Function.update_self]
      exact (h id).sendTx ho howner length hcid fresh
    · rw [Function.update_of_ne hi]
      exact (h id).cons_other (by simp [Entry.funds, hi]) rfl
        (by simp [Entry.eventsAbout, Event.crossTxId, Ne.symm hi])
  | ackSuccess i desc time recipient events howner value length found init hdesc window funds taken
      route =>
    have hfunds : ∀ j, Entry.funds ⟨msg, .sendAckedTx i 1 desc time,
        ⟨events, [(recipient, (b.crossTxInfo i).amount)]⟩⟩ j = false := by
      intro j
      split at route <;> simp [Entry.funds, route]
    have hnone : (b.crossTxInfo i).refunded = .none := (ho.wellFormed.refunds i).mpr (Or.inl init)
    rw [ho.chainId_eq] at route
    rw [store_crossTxInfo]
    by_cases hi : id = i
    · subst hi
      rw [Function.update_self]
      refine (h id).rewrite found ⟨rfl, rfl, rfl, rfl, rfl⟩ (hfunds id) (fun hst => ?_) fun hst => ?_
      · rw [if_pos hst] at route
        obtain ⟨rfl, rfl⟩ := route
        simp [Entry.payments, Entry.eventsAbout, Event.crossTxId, CrossTxInfo.startedPayments,
          CrossTxInfo.closing, init, hnone, howner, ho.owner_eq]
      · rw [hst, if_neg (by decide)] at route
        obtain ⟨rfl, rfl⟩ := route
        simp [Entry.payments, Entry.eventsAbout, CrossTxInfo.sentPayments, init]
    · rw [Function.update_of_ne hi]
      refine (h id).cons_other (hfunds id) (by simp [Entry.payments, Ne.symm hi]) ?_
      split at route <;> simp [Entry.eventsAbout, Event.crossTxId, route, Ne.symm hi]
  | ackFailure i result desc time status desc' howner value length found init hdesc result_eq =>
    have hnone : (b.crossTxInfo i).refunded = .none := (ho.wellFormed.refunds i).mpr (Or.inl init)
    have hescrow := ho.escrow i found
    rw [store_crossTxInfo, Function.update_self] at hescrow
    have hstatus : status ≠ .init ∧ status ≠ .ackSuccess := by
      rcases result_eq with ⟨_, rfl, _⟩ | ⟨_, rfl, _⟩ <;> decide
    rw [store_crossTxInfo]
    by_cases hi : id = i
    · subst hi
      rw [Function.update_self]
      refine (h id).rewrite found ⟨rfl, rfl, rfl, rfl, rfl⟩ (by simp [Entry.funds]) (fun hst => ?_)
        fun hst => ?_
      · simp [Entry.payments, Entry.eventsAbout, CrossTxInfo.startedPayments, CrossTxInfo.closing, init,
          hnone, hstatus.2]
      · exact ((hescrow hst).elim hstatus.1 hstatus.2).elim
    · rw [Function.update_of_ne hi]
      exact (h id).cons_other (by simp [Entry.funds]) (by simp [Entry.payments])
        (by simp [Entry.eventsAbout])
  | refund i value length found todo payer funds =>
    have hescrow := ho.escrow i found
    rw [store_crossTxInfo, Function.update_self] at hescrow
    have hstatus : ¬((b.crossTxInfo i).status = .init ∨ (b.crossTxInfo i).status = .ackSuccess) := by
      rw [← (show _ ↔ _ from ho.wellFormed.refunds i), todo]
      decide
    rw [store_crossTxInfo]
    by_cases hi : id = i
    · subst hi
      rw [Function.update_self]
      refine (h id).rewrite found ⟨rfl, rfl, rfl, rfl, rfl⟩ (by simp [Entry.funds]) (fun hst => ?_)
        fun hst => absurd (hescrow hst) hstatus
      have hne : (b.crossTxInfo id).status ≠ .ackSuccess := fun hs => hstatus (Or.inr hs)
      simp [Entry.payments, Entry.eventsAbout, Event.crossTxId, CrossTxInfo.startedPayments,
        CrossTxInfo.closing, hne, todo]
    · rw [Function.update_of_ne hi]
      exact (h id).cons_other (by simp [Entry.funds]) (by simp [Entry.payments, Ne.symm hi])
        (by simp [Entry.eventsAbout, Event.crossTxId, Ne.symm hi])

end CrosschainAgent.Bridge
