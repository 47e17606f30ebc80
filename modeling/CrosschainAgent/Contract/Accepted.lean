import CrosschainAgent.Contract.Bridge

/-!
# What an accepted call does

`exec_accepted` lists, once, every way a call can succeed, with all of its guards and the
exact state and receipt it yields. The invariants of the contracts are derived from this
list and never unfold the functions again.
-/

namespace CrosschainAgent.Bridge

variable {l : Layer} {sha256 : Sha256}

/-- The ways a call can be accepted. -/
inductive Accepted (l : Layer) (sha256 : Sha256) (b : State) (msg : Msg) :
    Call → State → Receipt → Prop
  | setTimeout (t : ℕ) (owner : msg.sender = b.owner) (value : msg.value = 0)
      (range : t > 30 * 60 * 1000 * 1000 ∧ t < (timeoutLimit l).1) :
      Accepted l sha256 b msg (.setTimeout t) { b with timeout := t }
        { events := [.setTimeoutEvent t] }
  | setOwner (o : Address) (owner : msg.sender = b.owner) (value : msg.value = 0)
      (nonzero : o ≠ 0) (changed : o ≠ b.owner) :
      Accepted l sha256 b msg (.setOwner o) { b with owner := o } { events := [.setOwnerEvent o] }
  | startTx (destBid : Address) (txId : Bytes)
      (id : txId = sha256.hash (startWords l b.chainId msg.sender destBid msg.value msg.timestamp))
      (nonzero : msg.sender ≠ 0 ∧ destBid ≠ 0) (bounded : msg.timestamp + b.timeout < 2 ^ 256) :
      Accepted l sha256 b msg (.startTx msg.sender destBid msg.value)
        ((receive b msg).store txId (startedInfo l b msg txId msg.sender destBid msg.value))
        { events := [.startTxEvent txId] }
  | sendTx (crossTxId : Bytes) (srcBid destBid : Address) (timeout : ℕ)
      (owner : msg.sender = b.owner) (length : crossTxId.length = 32)
      (nonzero : srcBid ≠ 0 ∧ destBid ≠ 0) (inTime : inTime l timeout msg.timestamp = true)
      (fresh : (b.crossTxInfo crossTxId).crossTxId = []) :
      Accepted l sha256 b msg (.sendTx crossTxId srcBid destBid msg.value timeout)
        ((receive b msg).store crossTxId
          (sentInfo l b msg crossTxId srcBid destBid msg.value timeout))
        { events := [.sendTxEvent crossTxId] }
  | ackSuccess (crossTxId : Bytes) (errorDesc : Text) (executeTime : ℕ) (recipient : Address)
      (events : List Event) (owner : msg.sender = b.owner) (value : msg.value = 0)
      (length : crossTxId.length = 32) (found : (b.crossTxInfo crossTxId).Exists)
      (init : (b.crossTxInfo crossTxId).status = .init) (desc : byteLength errorDesc < 2048)
      (window : executeTime < (b.crossTxInfo crossTxId).timeout ∧
        executeTime > (b.crossTxInfo crossTxId).createTimestamp)
      (funds : (b.crossTxInfo crossTxId).amount ≤ b.balance) (taken : msg.accepts recipient = true)
      (route : if isStarted l b.chainId (b.crossTxInfo crossTxId).srcChainId
        then recipient = msg.sender ∧ events = [.sendAckedTxEvent crossTxId]
        else recipient = (b.crossTxInfo crossTxId).destBid ∧ events = []) :
      Accepted l sha256 b msg (.sendAckedTx crossTxId 1 errorDesc executeTime)
        ({ b with balance := b.balance - (b.crossTxInfo crossTxId).amount }.store crossTxId
          { b.crossTxInfo crossTxId with
            status := .ackSuccess, executeTimestamp := executeTime })
        { events := events, transfers := [(recipient, (b.crossTxInfo crossTxId).amount)] }
  | ackFailure (crossTxId : Bytes) (result : ℕ) (errorDesc : Text) (executeTime : ℕ)
      (status : TxStatusEnum) (desc' : Text) (owner : msg.sender = b.owner)
      (value : msg.value = 0) (length : crossTxId.length = 32)
      (found : (b.crossTxInfo crossTxId).Exists)
      (init : (b.crossTxInfo crossTxId).status = .init) (desc : byteLength errorDesc < 2048)
      (result_eq : result = 2 ∧ status = .ackFail ∧ desc' = errorDesc ∨
        result = 3 ∧ status = .ackTimeout ∧ desc' = "timeout".toList) :
      Accepted l sha256 b msg (.sendAckedTx crossTxId result errorDesc executeTime)
        (b.store crossTxId
          { b.crossTxInfo crossTxId with status := status, refunded := .todo, errorDesc := desc' })
        { events := [] }
  | refund (crossTxId : Bytes) (value : msg.value = 0) (length : crossTxId.length = 32)
      (found : (b.crossTxInfo crossTxId).Exists)
      (todo : (b.crossTxInfo crossTxId).refunded = .todo)
      (payer : (b.crossTxInfo crossTxId).srcBid = msg.sender)
      (funds : (b.crossTxInfo crossTxId).amount ≤ b.balance)
      (taken : msg.accepts (b.crossTxInfo crossTxId).srcBid = true) :
      Accepted l sha256 b msg (.refund crossTxId)
        ({ b with balance := b.balance - (b.crossTxInfo crossTxId).amount }.store crossTxId
          { b.crossTxInfo crossTxId with refunded := .refunded })
        { events := [.refundEvent crossTxId],
          transfers := [((b.crossTxInfo crossTxId).srcBid, (b.crossTxInfo crossTxId).amount)] }

/-- A transfer goes through exactly when the balance covers it and the recipient takes it. -/
theorem transfer_bind_eq_ok {b : State} {msg : Msg} {recipient : Address} {amount : ℕ} {α : Type}
    {f : State → Except String α} {a : α} :
    (transfer b msg recipient amount >>= f) = .ok a ↔
      amount ≤ b.balance ∧ msg.accepts recipient = true ∧ f { b with balance := b.balance - amount } = .ok a := by
  simp only [transfer, bind_assoc, require_bind_eq_ok, pure_bind]

/-- An accepted `setTimeout`, told by its guards and its result. -/
theorem setTimeout_accepted {b b' : State} {msg : Msg} {r : Receipt} {t : ℕ}
    (h : setTimeout l b msg t = .ok (b', r)) : Accepted l sha256 b msg (.setTimeout t) b' r := by
  simp only [setTimeout, nonPayable, onlyOwner, require_bind_eq_ok] at h
  obtain ⟨value, owner, range, h⟩ := h
  cases h
  exact .setTimeout t owner value range

/-- An accepted `setOwner`. -/
theorem setOwner_accepted {b b' : State} {msg : Msg} {r : Receipt} {o : Address}
    (h : setOwner b msg o = .ok (b', r)) : Accepted l sha256 b msg (.setOwner o) b' r := by
  simp only [setOwner, nonPayable, onlyOwner, require_bind_eq_ok] at h
  obtain ⟨value, owner, nonzero, changed, h⟩ := h
  cases h
  exact .setOwner o owner value nonzero changed

/-- An accepted `StartTx`. -/
theorem startTx_accepted {b b' : State} {msg : Msg} {r : Receipt} {s d : Address} {a : ℕ}
    (h : startTx l sha256 b msg s d a = .ok (b', r)) :
    Accepted l sha256 b msg (.startTx s d a) b' r := by
  simp only [startTx, require_bind_eq_ok] at h
  obtain ⟨nonzero, rfl, rfl, bounded, h⟩ := h
  cases h
  exact .startTx d _ rfl nonzero bounded

/-- An accepted `SendTx`. -/
theorem sendTx_accepted {b b' : State} {msg : Msg} {r : Receipt} {i : Bytes} {s d : Address}
    {a t : ℕ} (h : sendTx l b msg i s d a t = .ok (b', r)) :
    Accepted l sha256 b msg (.sendTx i s d a t) b' r := by
  simp only [sendTx, onlyOwner, require_bind_eq_ok] at h
  obtain ⟨owner, length, nonzero, rfl, inTime, fresh, h⟩ := h
  cases h
  exact .sendTx i s d t owner length nonzero inTime (List.eq_nil_of_length_eq_zero fresh)

/-- An accepted `SendAckedTx`: a success or one of the failures. -/
theorem sendAckedTx_accepted {b b' : State} {msg : Msg} {r : Receipt} {i : Bytes} {res : ℕ}
    {e : Text} {t : ℕ} (h : sendAckedTx l b msg i res e t = .ok (b', r)) :
    Accepted l sha256 b msg (.sendAckedTx i res e t) b' r := by
  simp only [sendAckedTx, nonPayable, onlyOwner, require_bind_eq_ok] at h
  obtain ⟨value, owner, length, found, init, hres, desc, h⟩ := h
  have found : (b.crossTxInfo i).Exists := List.ne_nil_of_length_pos found
  split_ifs at h with h1 hroute h2
  · simp only [require_bind_eq_ok, transfer_bind_eq_ok] at h
    obtain ⟨window, funds, taken, h⟩ := h
    cases h
    subst h1
    exact .ackSuccess i e t _ _ owner value length found init desc window funds taken (by simp [hroute])
  · simp only [require_bind_eq_ok, transfer_bind_eq_ok] at h
    obtain ⟨window, funds, taken, h⟩ := h
    cases h
    subst h1
    exact .ackSuccess i e t _ _ owner value length found init desc window funds taken (by simp [hroute])
  · cases h
    exact .ackFailure i res e t _ _ owner value length found init desc (.inl ⟨h2, rfl, rfl⟩)
  · have h3 : res = 3 := by omega
    cases h
    exact .ackFailure i res e t _ _ owner value length found init desc (.inr ⟨h3, rfl, rfl⟩)

/-- An accepted `Refund`. -/
theorem refund_accepted {b b' : State} {msg : Msg} {r : Receipt} {i : Bytes}
    (h : refund b msg i = .ok (b', r)) : Accepted l sha256 b msg (.refund i) b' r := by
  simp only [refund, nonPayable, require_bind_eq_ok, transfer_bind_eq_ok] at h
  obtain ⟨value, length, found, todo, payer, funds, taken, h⟩ := h
  cases h
  exact .refund i value length (List.ne_nil_of_length_pos found) todo payer funds taken

/-- Every accepted call is one of the listed ones. -/
theorem exec_accepted {b b' : State} {msg : Msg} {c : Call} {r : Receipt}
    (h : exec l sha256 b msg c = .ok (b', r)) : Accepted l sha256 b msg c b' r := by
  cases c with
  | setTimeout t => exact setTimeout_accepted h
  | setOwner o => exact setOwner_accepted h
  | startTx s d a => exact startTx_accepted h
  | sendTx i s d a t => exact sendTx_accepted h
  | sendAckedTx i res e t => exact sendAckedTx_accepted h
  | refund i => exact refund_accepted h

end CrosschainAgent.Bridge
