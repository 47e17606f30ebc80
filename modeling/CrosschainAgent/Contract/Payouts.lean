import CrosschainAgent.Contract.Deposits

/-!
# Who is paid for a record

A record keeps the parties, the amount and the route of the `StartTx` or `SendTx` call that
created it. A success ack takes the direction of a record from its source chain id, which works
while the two chains have different ids. A refund asks for no direction: it pays the `src_bid` of
the record, who deposited the amount of a `StartTx` record but not that of a `SendTx` record.
-/

namespace CrosschainAgent.Bridge

open Function

variable {l : Layer} {sha256 : Sha256}

/-- The accepted call that created the record of an id: the last one that funded it. -/
def creator (es : List Entry) (id : Bytes) : Option Entry := es.find? fun e => e.funds id

/-- The `src_bid` a funding call names. -/
def Entry.srcBid (e : Entry) : Option Address :=
  match e.call with
  | .startTx srcBid _ _ => some srcBid
  | .sendTx _ srcBid _ _ _ => some srcBid
  | _ => none

/-- The entry is an accepted `StartTx`. -/
def Entry.isStart (e : Entry) : Bool :=
  match e.call with
  | .startTx _ _ _ => true
  | _ => false

/-- The record has what the call that created it gave it. -/
def CrossTxInfo.CreatedBy (l : Layer) (chainId : ℕ) (r : CrossTxInfo) (e : Entry) : Prop :=
  match e.call with
  | .startTx srcBid destBid amount => srcBid = e.msg.sender ∧ amount = e.msg.value ∧
      r.srcBid = srcBid ∧ r.destBid = destBid ∧ r.amount = amount ∧
      r.srcChainId = (startedRoute l chainId).1 ∧ r.createTimestamp = e.msg.timestamp
  | .sendTx _ srcBid destBid amount timeout => amount = e.msg.value ∧
      r.srcBid = srcBid ∧ r.destBid = destBid ∧ r.amount = amount ∧
      r.srcChainId = (startedRoute l chainId).2 ∧ r.createTimestamp = 0 ∧ r.timeout = timeout
  | _ => False

/-- Only what settling a record changes differs. -/
def CrossTxInfo.SettledFrom (r r' : CrossTxInfo) : Prop :=
  ∃ status refunded errorDesc executeTimestamp, r' = { r with
    status := status, refunded := refunded, errorDesc := errorDesc,
    executeTimestamp := executeTimestamp }

/-- A record comes from itself. -/
theorem CrossTxInfo.SettledFrom.refl (r : CrossTxInfo) : r.SettledFrom r :=
  ⟨r.status, r.refunded, r.errorDesc, r.executeTimestamp, rfl⟩

/-- Settling neither creates nor removes a record. -/
theorem CrossTxInfo.SettledFrom.exists_iff {r r' : CrossTxInfo} (h : r.SettledFrom r') :
    r'.Exists ↔ r.Exists := by
  obtain ⟨_, _, _, _, rfl⟩ := h
  exact Iff.rfl

/-- A settled record was created by the call that created the open one. -/
theorem CrossTxInfo.SettledFrom.createdBy {r r' : CrossTxInfo} {chainId : ℕ} {e : Entry}
    (h : r.SettledFrom r') (hr : r.CreatedBy l chainId e) : r'.CreatedBy l chainId e := by
  obtain ⟨_, _, _, _, rfl⟩ := h
  exact hr

/-- An accepted call creates the records it funds, and settles others at most. -/
theorem Accepted.record_cases {b b' : State} {msg : Msg} {c : Call} {r : Receipt}
    (h : Accepted l sha256 b msg c b' r) (hb : b.WellFormed) (id : Bytes) :
    (Entry.funds ⟨msg, c, r⟩ id = true ∧ (b'.crossTxInfo id).Exists ∧
      (b'.crossTxInfo id).CreatedBy l b.chainId ⟨msg, c, r⟩) ∨
    (Entry.funds ⟨msg, c, r⟩ id = false ∧ (b.crossTxInfo id).SettledFrom (b'.crossTxInfo id)) := by
  have hupdate : ∀ {i : Bytes} {r' : CrossTxInfo}, (b.crossTxInfo i).SettledFrom r' →
      (b.crossTxInfo id).SettledFrom (update b.crossTxInfo i r' id) := by
    intro i r' hsettled
    by_cases hi : id = i
    · subst hi
      rwa [update_self]
    · rw [update_of_ne hi]
      exact .refl _
  cases h with
  | setTimeout | setOwner => exact Or.inr ⟨by simp [Entry.funds], .refl _⟩
  | startTx d txId htx =>
    by_cases hi : id = txId
    · subst hi
      refine Or.inl ⟨by simp [Entry.funds], ?_, ?_⟩
      · rw [store_crossTxInfo, update_self]
        exact htx ▸ hash_ne_nil _
      · simp [CrossTxInfo.CreatedBy, startedInfo]
    · refine Or.inr ⟨by simpa [Entry.funds] using hi, ?_⟩
      rw [store_crossTxInfo, update_of_ne hi]
      exact .refl _
  | sendTx i s d t owner length nonzero inTime fresh =>
    by_cases hi : id = i
    · subst hi
      refine Or.inl ⟨by simp [Entry.funds], ?_, ?_⟩
      · rw [store_crossTxInfo, update_self]
        exact ne_nil_of_length length
      · simp [CrossTxInfo.CreatedBy, sentInfo, hb.blank id fresh]
    · refine Or.inr ⟨by simpa [Entry.funds] using hi, ?_⟩
      rw [store_crossTxInfo, update_of_ne hi]
      exact .refl _
  | ackSuccess i e t recipient events owner value length found init desc window funds taken route =>
    refine Or.inr ⟨?_, hupdate ⟨_, _, _, _, rfl⟩⟩
    split at route <;> simp [Entry.funds, route]
  | ackFailure => exact Or.inr ⟨by simp [Entry.funds], hupdate ⟨_, _, _, _, rfl⟩⟩
  | refund => exact Or.inr ⟨by simp [Entry.funds], hupdate ⟨_, _, _, _, rfl⟩⟩

/-- Every record has what the call that created it gave it. -/
structure Chronicle.Recorded (l : Layer) (chainId : ℕ) (s : Chronicle) : Prop where
  wellFormed : s.state.WellFormed
  chainId_eq : s.state.chainId = chainId
  created : ∀ id, (s.state.crossTxInfo id).Exists →
    ∃ e, creator s.accepted id = some e ∧ (s.state.crossTxInfo id).CreatedBy l chainId e

/-- A fresh contract has nothing on record. -/
theorem deploy_recorded (sender : Address) (chainId timeout : ℕ) :
    Chronicle.Recorded l chainId ⟨deploy sender chainId timeout, []⟩ where
  wellFormed := deploy_wellFormed sender chainId timeout
  chainId_eq := rfl
  created _ hexists := absurd rfl hexists

/-- One call keeps the records told by the calls, accepted or not. -/
theorem Chronicle.Recorded.step {s : Chronicle} {chainId : ℕ} (h : s.Recorded l chainId)
    (x : Msg × Call) : (step l sha256 s x).Recorded l chainId := by
  rcases step_cases l sha256 s x with heq | ⟨b, r, hacc, heq⟩
  · rw [heq]
    exact h
  · rw [heq]
    refine ⟨hacc.wellFormed h.wellFormed, hacc.chainId_eq.trans h.chainId_eq, fun id hexists => ?_⟩
    rcases hacc.record_cases h.wellFormed id with ⟨hfunds, _, hcreated⟩ | ⟨hfunds, hsettled⟩
    · exact ⟨⟨x.1, x.2, r⟩, List.find?_cons_of_pos hfunds, h.chainId_eq ▸ hcreated⟩
    · obtain ⟨e, he, hcreated⟩ := h.created id (hsettled.exists_iff.mp hexists)
      refine ⟨e, ?_, hsettled.createdBy hcreated⟩
      rw [creator, List.find?_cons_of_neg (by rw [hfunds]; decide)]
      exact he

/-- After any calls the records are told by the calls. -/
theorem run_recorded (sender : Address) (chainId timeout : ℕ) (calls : List (Msg × Call)) :
    (run l sha256 (deploy sender chainId timeout) calls).Recorded l chainId :=
  run_induction (deploy_recorded sender chainId timeout) (fun _ x h => h.step x) calls

/-- Each accepted call of a run was accepted in a state that the calls before it led to. -/
theorem run_past {P : Chronicle → Prop} {b : State} (h0 : P ⟨b, []⟩)
    (hstep : ∀ s x, P s → P (step l sha256 s x)) (calls : List (Msg × Call))
    {newer older : List Entry} {e : Entry}
    (hsplit : (run l sha256 b calls).accepted = newer ++ e :: older) :
    ∃ u u', P ⟨u, older⟩ ∧ Accepted l sha256 u e.msg e.call u' e.receipt := by
  let Q : Chronicle → Prop := fun s => P s ∧ ∀ newer e older, s.accepted = newer ++ e :: older →
    ∃ u u', P ⟨u, older⟩ ∧ Accepted l sha256 u e.msg e.call u' e.receipt
  have hQ : Q (run l sha256 b calls) := by
    refine run_induction ⟨h0, fun newer e older hnil => ?_⟩ (fun s x ⟨hs, hpast⟩ => ?_) calls
    · exact absurd hnil.symm (by simp)
    · refine ⟨hstep s x hs, fun newer e older heq => ?_⟩
      rcases step_cases l sha256 s x with hsame | ⟨b', r, hacc, hnext⟩
      · exact hpast newer e older (hsame ▸ heq)
      · rw [hnext] at heq
        cases newer with
        | nil =>
          obtain ⟨rfl, rfl⟩ := List.cons_eq_cons.mp heq
          exact ⟨s.state, b', hs, hacc⟩
        | cons first newer => exact hpast newer e older (List.cons_eq_cons.mp heq).2
  exact hQ.2 newer e older hsplit

/-- Every refund pays what was deposited, to the account that deposited it. -/
def RefundsToPayer (es : List Entry) : Prop :=
  ∀ newer e older, es = newer ++ e :: older → ∀ id, e.call = .refund id →
    ∃ d, creator older id = some d ∧ e.receipt.transfers = [(d.msg.sender, d.msg.value)]

/-- A refund pays the `src_bid` of the call that created the record. -/
theorem refund_transfers {b b' : State} {msg : Msg} {id : Bytes} {r : Receipt} {older : List Entry}
    {chainId : ℕ} (h : Chronicle.Recorded l chainId ⟨b, older⟩)
    (hacc : Accepted l sha256 b msg (.refund id) b' r) :
    ∃ d payer, creator older id = some d ∧ d.srcBid = some payer ∧
      r.transfers = [(payer, d.msg.value)] := by
  cases hacc with
  | refund _ value length found =>
    obtain ⟨d, hd, hcreated⟩ := h.created id found
    have hcreated : (b.crossTxInfo id).CreatedBy l chainId d := hcreated
    refine ⟨d, (b.crossTxInfo id).srcBid, hd, ?_⟩
    unfold CrossTxInfo.CreatedBy at hcreated
    split at hcreated
    next srcBid destBid amount hcall =>
      obtain ⟨_, hvalue, hsrc, _, hamount, _⟩ := hcreated
      have hpayer : d.srcBid = some srcBid := by simp only [Entry.srcBid, hcall]
      exact ⟨hpayer.trans (congrArg some hsrc.symm), by rw [← hvalue, ← hamount]⟩
    next i srcBid destBid amount timeout hcall =>
      obtain ⟨hvalue, hsrc, _, hamount, _⟩ := hcreated
      have hpayer : d.srcBid = some srcBid := by simp only [Entry.srcBid, hcall]
      exact ⟨hpayer.trans (congrArg some hsrc.symm), by rw [← hvalue, ← hamount]⟩
    next => exact hcreated.elim

/-- The refunds of a run go to the depositors exactly when none of them is of a record whose
creating call named another account than its sender as `src_bid`. -/
theorem refundsToPayer_iff (l : Layer) (sha256 : Sha256) (sender : Address) (chainId timeout : ℕ)
    (calls : List (Msg × Call)) :
    RefundsToPayer (run l sha256 (deploy sender chainId timeout) calls).accepted ↔
      ∀ newer e older, (run l sha256 (deploy sender chainId timeout) calls).accepted =
        newer ++ e :: older → ∀ id, e.call = .refund id → ∀ d, creator older id = some d →
          d.srcBid = some d.msg.sender := by
  have hpays : ∀ newer e older, (run l sha256 (deploy sender chainId timeout) calls).accepted =
      newer ++ e :: older → ∀ id, e.call = .refund id → ∃ d payer, creator older id = some d ∧
        d.srcBid = some payer ∧ e.receipt.transfers = [(payer, d.msg.value)] := by
    intro newer e older hsplit id hcall
    obtain ⟨u, u', hu, hacc⟩ := run_past (deploy_recorded sender chainId timeout)
      (fun _ x h => h.step x) calls hsplit
    rw [hcall] at hacc
    exact refund_transfers hu hacc
  constructor
  · intro hrefunds newer e older hsplit id hcall d hd
    obtain ⟨d', payer, hd', hsrc, hpaid⟩ := hpays newer e older hsplit id hcall
    obtain ⟨d'', hd'', hpayer⟩ := hrefunds newer e older hsplit id hcall
    obtain rfl := Option.some_inj.mp (hd'.symm.trans hd)
    obtain rfl := Option.some_inj.mp (hd''.symm.trans hd)
    rw [hpaid, List.cons.injEq, Prod.mk.injEq] at hpayer
    rw [hsrc, hpayer.1.1]
  · intro hsame newer e older hsplit id hcall
    obtain ⟨d, payer, hd, hsrc, hpaid⟩ := hpays newer e older hsplit id hcall
    have hpayer := hsame newer e older hsplit id hcall d hd
    rw [hsrc, Option.some_inj] at hpayer
    exact ⟨d, hd, hpayer ▸ hpaid⟩

/-- The id of a transfer that was started elsewhere. -/
def sampleId : Bytes := List.replicate 32 7

/-- Account 1, the owner, escrows 5 coins for a transfer of account 7 to account 8. -/
def sampleSend : Msg × Call := (⟨1, 5, 3, fun _ => true⟩, .sendTx sampleId 7 8 5 100)

/-- The owner acknowledges the failure of the transfer on the chain it escrowed on, and account 7
withdraws the owner's 5 coins. -/
def refundedCalls : List (Msg × Call) :=
  [sampleSend, (⟨1, 0, 4, fun _ => true⟩, .sendAckedTx sampleId 2 [] 0),
    (⟨7, 0, 5, fun _ => true⟩, .refund sampleId)]

/-- A refund of an escrow pays the address on the other chain, not the one that paid here. -/
theorem refund_pays_srcBid :
    ¬RefundsToPayer (run .layer1 sumHash (deploy 1 2 10) refundedCalls).accepted := by
  intro hrefunds
  obtain ⟨d, hd, hpaid⟩ := hrefunds [] _ _ rfl sampleId rfl
  have hsender : (creator (run .layer1 sumHash (deploy 1 2 10) refundedCalls).accepted.tail
      sampleId).map (·.msg.sender) = some 1 := rfl
  have hone : d.msg.sender = 1 :=
    Option.some_inj.mp ((congrArg (Option.map fun e : Entry => e.msg.sender) hd).symm.trans hsender)
  have hpayer : [7] = [d.msg.sender] := congrArg (List.map Prod.fst) hpaid
  rw [hone] at hpayer
  exact absurd hpayer (by decide)

/-- How the creator of a record says its success is to be paid: the amount of a `StartTx` record
to the acknowledging owner, with an event, and that of a `SendTx` record to its `dest_bid`. -/
def Routed (d : Entry) (id : Bytes) (e : Entry) : Prop :=
  match d.call with
  | .startTx _ _ amount =>
    e.receipt = { events := [.sendAckedTxEvent id], transfers := [(e.msg.sender, amount)] }
  | .sendTx _ _ destBid amount _ => e.receipt = { events := [], transfers := [(destBid, amount)] }
  | _ => False

/-- Every success ack pays as the creation of its record asks for. -/
def RoutesPayouts (es : List Entry) : Prop :=
  ∀ newer e older, es = newer ++ e :: older → ∀ id errorDesc executeTime,
    e.call = .sendAckedTx id 1 errorDesc executeTime →
      ∃ d, creator older id = some d ∧ Routed d id e

/-- A started record is always recognised. -/
theorem isStarted_started (l : Layer) (chainId : ℕ) :
    isStarted l chainId (startedRoute l chainId).1 = true := by
  cases l <;> simp [isStarted, startedRoute]

/-- A sent record is taken for a started one when both chains have id 0. -/
theorem isStarted_sent (l : Layer) (chainId : ℕ) :
    isStarted l chainId (startedRoute l chainId).2 = decide (chainId = 0) := by
  cases l
  · rfl
  · exact decide_eq_decide.mpr eq_comm

/-- A success ack of a record pays as its creation asks for, unless it is a `SendTx` record and
the chain id is 0. -/
theorem ackSuccess_routed {b b' : State} {msg : Msg} {id : Bytes} {errorDesc : Text}
    {executeTime chainId : ℕ} {r : Receipt} {older : List Entry}
    (h : Chronicle.Recorded l chainId ⟨b, older⟩)
    (hacc : Accepted l sha256 b msg (.sendAckedTx id 1 errorDesc executeTime) b' r) :
    ∃ d, creator older id = some d ∧
      (Routed d id ⟨msg, .sendAckedTx id 1 errorDesc executeTime, r⟩ ↔
        chainId ≠ 0 ∨ d.isStart = true) := by
  cases hacc with
  | ackFailure _ _ _ _ _ _ _ _ _ _ _ _ result_eq => omega
  | ackSuccess _ _ _ recipient events owner value length found init desc window funds taken route =>
    obtain ⟨d, hd, hcreated⟩ := h.created id found
    have hcreated : (b.crossTxInfo id).CreatedBy l chainId d := hcreated
    have hchain : b.chainId = chainId := h.chainId_eq
    refine ⟨d, hd, ?_⟩
    unfold CrossTxInfo.CreatedBy at hcreated
    split at hcreated
    next srcBid destBid amount hcall =>
      obtain ⟨_, _, _, _, hamount, hroute, _⟩ := hcreated
      rw [hroute, hchain, isStarted_started, if_pos rfl] at route
      have hstart : d.isStart = true := by simp only [Entry.isStart, hcall]
      refine iff_of_true ?_ (Or.inr hstart)
      simp only [Routed, hcall, route.1, route.2, hamount]
    next i srcBid destBid amount timeout hcall =>
      obtain ⟨_, _, hdest, hamount, hroute, _⟩ := hcreated
      have hstart : d.isStart = false := by simp only [Entry.isStart, hcall]
      rw [hroute, hchain, isStarted_sent] at route
      by_cases hzero : chainId = 0
      · -- the owner is paid, with an event
        rw [decide_eq_true hzero, if_pos rfl] at route
        refine iff_of_false (fun hrouted => ?_) (by simp [hzero, hstart])
        simp only [Routed, hcall, route.2, Receipt.mk.injEq] at hrouted
        exact absurd hrouted.1 (by simp)
      · rw [decide_eq_false hzero, if_neg (by decide)] at route
        refine iff_of_true ?_ (Or.inl hzero)
        simp only [Routed, hcall, route.1, route.2, hdest, hamount]
    next => exact hcreated.elim

/-- The success acks of a run pay as the creation of their records asks for exactly when the chain
id is not 0 or none of them is of a record created by `SendTx`. -/
theorem routesPayouts_iff (l : Layer) (sha256 : Sha256) (sender : Address) (chainId timeout : ℕ)
    (calls : List (Msg × Call)) :
    RoutesPayouts (run l sha256 (deploy sender chainId timeout) calls).accepted ↔
      chainId ≠ 0 ∨ ∀ newer e older, (run l sha256 (deploy sender chainId timeout) calls).accepted =
        newer ++ e :: older → ∀ id errorDesc executeTime,
          e.call = .sendAckedTx id 1 errorDesc executeTime →
            ∀ d, creator older id = some d → d.isStart = true := by
  have hroutes : ∀ newer e older, (run l sha256 (deploy sender chainId timeout) calls).accepted =
      newer ++ e :: older → ∀ id errorDesc executeTime,
        e.call = .sendAckedTx id 1 errorDesc executeTime → ∃ d, creator older id = some d ∧
          (Routed d id e ↔ chainId ≠ 0 ∨ d.isStart = true) := by
    intro newer e older hsplit id errorDesc executeTime hcall
    obtain ⟨u, u', hu, hacc⟩ := run_past (deploy_recorded sender chainId timeout)
      (fun _ x h => h.step x) calls hsplit
    obtain ⟨msg, call, receipt⟩ := e
    cases hcall
    exact ackSuccess_routed hu hacc
  constructor
  · intro hall
    by_cases hzero : chainId = 0
    · refine Or.inr fun newer e older hsplit id errorDesc executeTime hcall d hd => ?_
      obtain ⟨d', hd', hiff⟩ := hroutes newer e older hsplit id errorDesc executeTime hcall
      obtain ⟨d'', hd'', hrouted⟩ := hall newer e older hsplit id errorDesc executeTime hcall
      obtain rfl := Option.some_inj.mp (hd'.symm.trans hd)
      obtain rfl := Option.some_inj.mp (hd''.symm.trans hd)
      exact (hiff.mp hrouted).resolve_left (not_not.mpr hzero)
    · exact Or.inl hzero
  · intro hcond newer e older hsplit id errorDesc executeTime hcall
    obtain ⟨d, hd, hiff⟩ := hroutes newer e older hsplit id errorDesc executeTime hcall
    exact ⟨d, hd, hiff.mpr (hcond.imp_right fun hstart =>
      hstart newer e older hsplit id errorDesc executeTime hcall d hd)⟩

/-- The success of the transfer is acknowledged on the chain it was escrowed on. -/
def paidCalls : List (Msg × Call) :=
  [sampleSend, (⟨1, 0, 4, fun _ => true⟩, .sendAckedTx sampleId 1 [] 3)]

/-- On a chain with id 0 the owner is paid the receiver's money. -/
theorem ack_pays_owner :
    ¬RoutesPayouts (run .layer1 sumHash (deploy 1 0 10) paidCalls).accepted := by
  intro hroutes
  obtain ⟨d, hd, hrouted⟩ := hroutes [] _ _ rfl sampleId [] 3 rfl
  have hcall : (creator (run .layer1 sumHash (deploy 1 0 10) paidCalls).accepted.tail
      sampleId).map (·.call) = some sampleSend.2 := rfl
  have hd' := Option.some_inj.mp ((congrArg (Option.map Entry.call) hd).symm.trans hcall)
  simp only [Routed, hd', sampleSend] at hrouted
  exact absurd (congrArg Receipt.events hrouted) (by decide)

end CrosschainAgent.Bridge
