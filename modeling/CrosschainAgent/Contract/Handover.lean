import CrosschainAgent.Contract.Payouts

/-!
# From one contract to the other

A transfer is escrowed on the destination contract, acknowledged with success on the source, and
then on the destination. Whether the next contract accepts what the previous one accepted is a
matter of their time windows: `SendTx` of layer 1 admits the boundary that `SendAckedTx` of
layer 2 refuses. The destination pays the receiver as long as its chain id tells the direction of
the record.
-/

namespace CrosschainAgent.Bridge

variable {l : Layer} {sha256 : Sha256}

/-- The account a success ack pays. -/
def payee (l : Layer) (b : State) (msg : Msg) (id : Bytes) : Address :=
  if isStarted l b.chainId (b.crossTxInfo id).srcChainId then msg.sender
  else (b.crossTxInfo id).destBid

/-- What a success ack pays, when it is accepted. -/
theorem ackSuccess_transfers {b b' : State} {msg : Msg} {id : Bytes} {errorDesc : Text}
    {executeTime : ℕ} {r : Receipt}
    (h : Accepted l sha256 b msg (.sendAckedTx id 1 errorDesc executeTime) b' r) :
    r.transfers = [(payee l b msg id, (b.crossTxInfo id).amount)] := by
  cases h with
  | ackFailure _ _ _ _ _ _ _ _ _ _ _ _ result_eq => omega
  | ackSuccess _ _ _ recipient events owner value length found init desc window funds taken route =>
    unfold payee
    split at route
    next hstarted => rw [if_pos hstarted, route.1]
    next hstarted => rw [if_neg hstarted, route.1]

/-- When a success ack of an INIT record is accepted. -/
theorem ackSuccess_iff {b : State} {msg : Msg} {id : Bytes} {errorDesc : Text} {executeTime : ℕ}
    (howner : msg.sender = b.owner) (hvalue : msg.value = 0) (hlength : id.length = 32)
    (hfound : (b.crossTxInfo id).Exists) (hinit : (b.crossTxInfo id).status = .init)
    (hdesc : byteLength errorDesc < 2048) (hfunds : (b.crossTxInfo id).amount ≤ b.balance) :
    (∃ b' r, exec l sha256 b msg (.sendAckedTx id 1 errorDesc executeTime) = .ok (b', r)) ↔
      (executeTime < (b.crossTxInfo id).timeout ∧
        executeTime > (b.crossTxInfo id).createTimestamp) ∧
      msg.accepts (payee l b msg id) = true := by
  constructor
  · rintro ⟨b', r, hexec⟩
    cases exec_accepted hexec with
    | ackFailure _ _ _ _ _ _ _ _ _ _ _ _ result_eq => omega
    | ackSuccess _ _ _ recipient events _ _ _ _ _ _ window _ taken route =>
      refine ⟨window, ?_⟩
      unfold payee
      split at route
      next hstarted => rwa [if_pos hstarted, ← route.1]
      next hstarted => rwa [if_neg hstarted, ← route.1]
  · rintro ⟨hwindow, htakes⟩
    have hpos : (b.crossTxInfo id).crossTxId.length > 0 := List.length_pos_of_ne_nil hfound
    unfold payee at htakes
    simp only [exec, sendAckedTx, nonPayable, onlyOwner, require_bind_eq_ok, if_true, true_or]
    by_cases hstarted : isStarted l b.chainId (b.crossTxInfo id).srcChainId = true
    · rw [if_pos hstarted] at htakes
      simp only [if_pos hstarted, transfer_bind_eq_ok]
      exact ⟨_, _, hvalue, howner, hlength, hpos, hinit, trivial, hdesc, hwindow, hfunds, htakes, rfl⟩
    · rw [if_neg hstarted] at htakes
      simp only [if_neg hstarted, transfer_bind_eq_ok]
      exact ⟨_, _, hvalue, howner, hlength, hpos, hinit, trivial, hdesc, hwindow, hfunds, htakes, rfl⟩

/-- The chronicle is one of a run from the deployment with some chain id. -/
def Chronicle.Reachable (l : Layer) (sha256 : Sha256) (chainId : ℕ) (s : Chronicle) : Prop :=
  ∃ sender timeout calls, run l sha256 (deploy sender chainId timeout) calls = s

/-- What holds at the deployment and survives every call holds of every reachable chronicle. -/
theorem Chronicle.Reachable.induction {P : Chronicle → Prop} {chainId : ℕ} {s : Chronicle}
    (hs : s.Reachable l sha256 chainId) (h0 : ∀ sender timeout, P ⟨deploy sender chainId timeout, []⟩)
    (hstep : ∀ s msg c b r, P s → Accepted l sha256 s.state msg c b r →
      P ⟨b, ⟨msg, c, r⟩ :: s.accepted⟩) : P s := by
  obtain ⟨sender, timeout, calls, rfl⟩ := hs
  refine run_induction (h0 sender timeout) (fun s x h => ?_) calls
  rcases step_cases l sha256 s x with heq | ⟨b, r, hacc, heq⟩
  · rwa [heq]
  · rw [heq]
    exact hstep s x.1 x.2 b r h hacc

/-- The ids of records are 32 bytes long. -/
def State.Sized (b : State) : Prop := ∀ id, (b.crossTxInfo id).Exists → id.length = 32

/-- An accepted call keeps the ids at their length. -/
theorem Accepted.sized {b b' : State} {msg : Msg} {c : Call} {r : Receipt}
    (h : Accepted l sha256 b msg c b' r) (hb : b.Sized) : b'.Sized := by
  intro id hexists
  by_cases hold : (b.crossTxInfo id).Exists
  · exact hb id hold
  · have hfunded := ((h.exists_iff id).mp hexists).resolve_left hold
    cases h with
    | setTimeout | setOwner | ackSuccess | ackFailure | refund => cases hfunded
    | startTx d txId hid =>
      cases hfunded
      exact sha256.length_hash _
    | sendTx i s d t owner length =>
      cases hfunded
      exact length

/-- Reachable books have ids of 32 bytes only. -/
theorem Chronicle.Reachable.sized {chainId : ℕ} {s : Chronicle}
    (hs : s.Reachable l sha256 chainId) : s.state.Sized :=
  hs.induction (P := fun s => s.state.Sized) (fun _ _ _ hexists => absurd rfl hexists)
    fun _ _ _ _ _ h hacc => hacc.sized h

/-- Reachable books are told by the calls. -/
theorem Chronicle.Reachable.recorded {chainId : ℕ} {s : Chronicle}
    (hs : s.Reachable l sha256 chainId) : s.Recorded l chainId := by
  obtain ⟨sender, timeout, calls, rfl⟩ := hs
  exact run_recorded sender chainId timeout calls

/-- Reachable books are sound. -/
theorem Chronicle.Reachable.sound {chainId : ℕ} {s : Chronicle}
    (hs : s.Reachable l sha256 chainId) : s.Sound := by
  obtain ⟨sender, timeout, calls, rfl⟩ := hs
  exact run_sound sender chainId timeout calls

/-- The record of an id that was funded exists. -/
theorem Chronicle.Reachable.exists_of_creator {chainId : ℕ} {s : Chronicle}
    (hs : s.Reachable l sha256 chainId) {id : Bytes} {d : Entry}
    (hd : creator s.accepted id = some d) : (s.state.crossTxInfo id).Exists := by
  have hall : ∀ e ∈ s.accepted, e.funds id = true → (s.state.crossTxInfo id).Exists := by
    refine hs.induction (P := fun s => ∀ e ∈ s.accepted, e.funds id = true →
      (s.state.crossTxInfo id).Exists) (fun _ _ e he => absurd he List.not_mem_nil) ?_
    intro s msg c b r h hacc e he hfunds
    rcases List.mem_cons.mp he with rfl | hold
    · exact (hacc.exists_iff id).mpr (Or.inr ((hacc.funds_iff id).mp hfunds))
    · exact (hacc.exists_iff id).mpr (Or.inl (h e hold hfunds))
  have hfunds : d.funds id = true := List.find?_some (p := fun e : Entry => e.funds id) hd
  exact hall d (List.mem_of_find?_eq_some hd) hfunds

/-- When the success ack of an INIT record of a reachable state is accepted. -/
theorem Chronicle.Reachable.ackSuccess_iff {chainId : ℕ} {s : Chronicle}
    (hs : s.Reachable l sha256 chainId) {id : Bytes} {d : Entry}
    (hd : creator s.accepted id = some d) (hinit : (s.state.crossTxInfo id).status = .init)
    {msg : Msg} {errorDesc : Text} {executeTime : ℕ} (howner : msg.sender = s.state.owner)
    (hvalue : msg.value = 0) (hdesc : byteLength errorDesc < 2048) :
    (∃ b r, exec l sha256 s.state msg (.sendAckedTx id 1 errorDesc executeTime) = .ok (b, r)) ↔
      (executeTime < (s.state.crossTxInfo id).timeout ∧
        executeTime > (s.state.crossTxInfo id).createTimestamp) ∧
      msg.accepts (payee l s.state msg id) = true := by
  have hexists := hs.exists_of_creator hd
  exact Bridge.ackSuccess_iff howner hvalue (hs.sized id hexists) hexists hinit hdesc
    (hs.sound.amount_le ⟨hexists, Or.inl hinit⟩)

/-- The payee of a record, by the call that created it. -/
theorem Chronicle.Reachable.payee_eq {chainId : ℕ} {s : Chronicle}
    (hs : s.Reachable l sha256 chainId) {id : Bytes} {d : Entry}
    (hd : creator s.accepted id = some d) (msg : Msg) :
    payee l s.state msg id =
      if chainId = 0 ∨ d.isStart = true then msg.sender else (s.state.crossTxInfo id).destBid := by
  obtain ⟨d', hd', hcreated⟩ := hs.recorded.created id (hs.exists_of_creator hd)
  obtain rfl := Option.some_inj.mp (hd'.symm.trans hd)
  unfold payee
  rw [hs.recorded.chainId_eq]
  unfold CrossTxInfo.CreatedBy at hcreated
  split at hcreated
  next srcBid destBid amount hcall =>
    have hstart : d'.isStart = true := by simp only [Entry.isStart, hcall]
    rw [hcreated.2.2.2.2.2.1, isStarted_started, if_pos rfl, if_pos (Or.inr hstart)]
  next i srcBid destBid amount timeout hcall =>
    have hstart : d'.isStart = false := by simp only [Entry.isStart, hcall]
    rw [hcreated.2.2.2.2.1, isStarted_sent]
    by_cases hzero : chainId = 0
    · rw [decide_eq_true hzero, if_pos rfl, if_pos (Or.inl hzero)]
    · rw [decide_eq_false hzero, if_neg (by decide), if_neg (by simp [hzero, hstart])]
  next => exact hcreated.elim

/-- The source contract accepts the success of an escrow that the destination contract accepted,
except that of a layer-2 transfer escrowed in the block of its timeout; and the owner must take
the amount. -/
theorem escrow_acknowledged_iff {chainId : ℕ} {s : Chronicle} (hs : s.Reachable l sha256 chainId)
    {id : Bytes} {d : Entry} (hd : creator s.accepted id = some d) (hstart : d.isStart = true)
    (hinit : (s.state.crossTxInfo id).status = .init) {b b' : State} {send : Msg}
    {srcBid destBid : Address} {amount : ℕ} {r : Receipt}
    (hsent : exec l.other sha256 b send (.sendTx id srcBid destBid amount
      (s.state.crossTxInfo id).timeout) = .ok (b', r))
    (hafter : (s.state.crossTxInfo id).createTimestamp < send.timestamp) {msg : Msg}
    {errorDesc : Text} (howner : msg.sender = s.state.owner) (hvalue : msg.value = 0)
    (hdesc : byteLength errorDesc < 2048) :
    (∃ c r, exec l sha256 s.state msg (.sendAckedTx id 1 errorDesc send.timestamp) = .ok (c, r)) ↔
      ¬(l = .layer2 ∧ send.timestamp = (s.state.crossTxInfo id).timeout) ∧
      msg.accepts msg.sender = true := by
  rw [hs.ackSuccess_iff hd hinit howner hvalue hdesc, hs.payee_eq hd, if_pos (Or.inr hstart)]
  have hwindow : inTime l.other (s.state.crossTxInfo id).timeout send.timestamp = true := by
    cases exec_accepted hsent with
    | sendTx _ _ _ _ owner length nonzero intime fresh => exact intime
  have hintime : send.timestamp < (s.state.crossTxInfo id).timeout ↔
      ¬(l = .layer2 ∧ send.timestamp = (s.state.crossTxInfo id).timeout) := by
    cases l with
    | layer1 =>
      have hlt := of_decide_eq_true hwindow
      simp [hlt]
    | layer2 =>
      have hle : send.timestamp ≤ (s.state.crossTxInfo id).timeout := of_decide_eq_true hwindow
      simp only [true_and]
      omega
  rw [hintime, and_iff_left hafter]

/-- A transfer of 5 coins from account 7 to account 8 that was started on layer 2 of a chain of
id 2 in block 3, with a timeout of 10. -/
def startedOn2 : Chronicle := run .layer2 sumHash (deploy 1 2 10) [sampleStart 3]

/-- Its id. -/
def startedId : Bytes := sumHash.hash (startWords .layer2 2 7 8 5 3)

/-- The books with one start on layer 2 are reachable. -/
theorem startedOn2_reachable : startedOn2.Reachable .layer2 sumHash 2 := ⟨1, 10, [sampleStart 3], rfl⟩

/-- The escrow of the transfer on layer 1 in the block of the given time. -/
def escrowOn1 (time : ℕ) : Msg × Call := (⟨1, 5, time, fun _ => true⟩, .sendTx startedId 7 8 5 13)

/-- Escrowed in block 12, before its timeout, the transfer can be acknowledged. -/
theorem escrow_acknowledged_before : ∃ c r, exec .layer2 sumHash startedOn2.state
    ⟨1, 0, 14, fun _ => true⟩ (.sendAckedTx startedId 1 [] 12) = .ok (c, r) :=
  have hsent : exec .layer1 sumHash (deploy 1 2 10) (escrowOn1 12).1 (.sendTx startedId 7 8 5
      (startedOn2.state.crossTxInfo startedId).timeout) = .ok _ := rfl
  (escrow_acknowledged_iff startedOn2_reachable rfl rfl rfl hsent (by decide) rfl rfl
    (by decide)).mpr (by decide)

/-- Escrowed in block 13, the last one that layer 1 admits, it cannot. -/
theorem escrow_stuck_at_timeout :
    (startedOn2.state.crossTxInfo startedId).status = .init ∧
    (startedOn2.state.crossTxInfo startedId).timeout = 13 ∧
    (startedOn2.state.crossTxInfo startedId).createTimestamp < 13 ∧
    (exec .layer1 sumHash (deploy 1 2 10) (escrowOn1 13).1 (escrowOn1 13).2).toBool = true ∧
    ¬∃ c r, exec .layer2 sumHash startedOn2.state ⟨1, 0, 14, fun _ => true⟩
      (.sendAckedTx startedId 1 [] 13) = .ok (c, r) := by
  refine ⟨rfl, rfl, by decide, rfl, fun ⟨c, r, hacked⟩ => ?_⟩
  have hreverted : (exec .layer2 sumHash startedOn2.state ⟨1, 0, 14, fun _ => true⟩
      (.sendAckedTx startedId 1 [] 13)).toBool = false := rfl
  rw [hacked] at hreverted
  cases hreverted

/-- A record whose success was once accepted says when, within its timeout, unless a later
`StartTx` has replaced it. -/
def Chronicle.Windowed (s : Chronicle) : Prop :=
  ∀ e ∈ s.accepted, ∀ id errorDesc executeTime,
    e.call = .sendAckedTx id 1 errorDesc executeTime → 0 < executeTime ∧
      (s.state.crossTxInfo id).Exists ∧
      ((s.state.crossTxInfo id).executeTimestamp = 0 ∨
        (s.state.crossTxInfo id).executeTimestamp < (s.state.crossTxInfo id).timeout)

/-- An accepted call leaves the times of an existing record, but for `StartTx`, which resets the
execution time, and a success ack, which sets it within the timeout. -/
theorem Accepted.times {b b' : State} {msg : Msg} {c : Call} {r : Receipt}
    (h : Accepted l sha256 b msg c b' r) {id : Bytes} (hexists : (b.crossTxInfo id).Exists)
    (hb : (b.crossTxInfo id).executeTimestamp = 0 ∨
      (b.crossTxInfo id).executeTimestamp < (b.crossTxInfo id).timeout) :
    (b'.crossTxInfo id).executeTimestamp = 0 ∨
      (b'.crossTxInfo id).executeTimestamp < (b'.crossTxInfo id).timeout := by
  cases h with
  | setTimeout | setOwner => exact hb
  | startTx d txId hid =>
    by_cases hi : id = txId
    · subst hi
      rw [store_crossTxInfo, Function.update_self]
      exact Or.inl rfl
    · rw [store_crossTxInfo, Function.update_of_ne hi]
      exact hb
  | sendTx i s d t owner length nonzero intime fresh =>
    have hi : id ≠ i := fun hi => hexists (hi ▸ fresh)
    rw [store_crossTxInfo, Function.update_of_ne hi]
    exact hb
  | ackSuccess i e t recipient events owner value length found init desc window =>
    by_cases hi : id = i
    · subst hi
      rw [store_crossTxInfo, Function.update_self]
      exact Or.inr window.1
    · rw [store_crossTxInfo, Function.update_of_ne hi]
      exact hb
  | ackFailure i | refund i =>
    by_cases hi : id = i
    · subst hi
      rw [store_crossTxInfo, Function.update_self]
      exact hb
    · rw [store_crossTxInfo, Function.update_of_ne hi]
      exact hb

/-- Reachable books acknowledge successes within their window. -/
theorem Chronicle.Reachable.windowed {chainId : ℕ} {s : Chronicle}
    (hs : s.Reachable l sha256 chainId) : s.Windowed := by
  refine hs.induction (fun _ _ e he => absurd he List.not_mem_nil) ?_
  intro s msg c b r h hacc e he id errorDesc executeTime hcall
  rcases List.mem_cons.mp he with rfl | hold
  · cases hcall
    cases hacc with
    | ackFailure _ _ _ _ _ _ _ _ _ _ _ _ result_eq => omega
    | ackSuccess _ _ _ recipient events owner value length found init desc window =>
      have htime : 0 < executeTime := by omega
      refine ⟨htime, ?_, ?_⟩
      · rw [store_crossTxInfo, Function.update_self]
        exact found
      · rw [store_crossTxInfo, Function.update_self]
        exact Or.inr window.1
  · obtain ⟨hpos, hexists, htimes⟩ := h e hold id errorDesc executeTime hcall
    exact ⟨hpos, (hacc.exists_iff id).mpr (Or.inl hexists), hacc.times hexists htimes⟩

/-- The destination contract accepts the success that the source contract accepted and pays the
receiver, except that on a chain of id 0 it pays its owner. -/
theorem success_completed_iff {chainId : ℕ} {s : Chronicle} (hs : s.Reachable l sha256 chainId)
    {e : Entry} (he : e ∈ s.accepted) {id : Bytes} {errorDesc : Text} {executeTime : ℕ}
    (hacked : e.call = .sendAckedTx id 1 errorDesc executeTime)
    (htime : (s.state.crossTxInfo id).executeTimestamp = executeTime) {chainId' : ℕ}
    {s' : Chronicle} (hs' : s'.Reachable l.other sha256 chainId') {d : Entry}
    (hd : creator s'.accepted id = some d) {srcBid destBid : Address}
    (hsent : d.call = .sendTx id srcBid destBid (s.state.crossTxInfo id).amount
      (s.state.crossTxInfo id).timeout)
    (hinit : (s'.state.crossTxInfo id).status = .init) {msg : Msg} {errorDesc' : Text}
    (howner : msg.sender = s'.state.owner) (hvalue : msg.value = 0)
    (htakes : msg.accepts destBid = true) (hdesc : byteLength errorDesc' < 2048) :
    (∃ b r, exec l.other sha256 s'.state msg (.sendAckedTx id 1 errorDesc' executeTime) =
        .ok (b, r) ∧ r.transfers = [(destBid, (s.state.crossTxInfo id).amount)]) ↔
      chainId' ≠ 0 ∨ destBid = msg.sender := by
  obtain ⟨hpos, _, hwindow⟩ := hs.windowed e he id errorDesc executeTime hacked
  obtain ⟨d', hd', hcreated⟩ := hs'.recorded.created id (hs'.exists_of_creator hd)
  obtain rfl := Option.some_inj.mp (hd'.symm.trans hd)
  simp only [CrossTxInfo.CreatedBy, hsent] at hcreated
  obtain ⟨_, _, hdest, hamount, _, hcreate, htimeout⟩ := hcreated
  have hstart : d'.isStart = false := by simp only [Entry.isStart, hsent]
  have hin : executeTime < (s'.state.crossTxInfo id).timeout ∧
      executeTime > (s'.state.crossTxInfo id).createTimestamp := by
    rw [htimeout, hcreate, ← htime]
    omega
  have hiff : (∃ b r, exec l.other sha256 s'.state msg (.sendAckedTx id 1 errorDesc' executeTime) =
      .ok (b, r)) ↔ _ := hs'.ackSuccess_iff hd hinit howner hvalue hdesc
  have hpayee := hs'.payee_eq hd msg
  rw [hstart, hdest] at hpayee
  constructor
  · rintro ⟨b, r, hexec, hpaid⟩
    rw [ackSuccess_transfers (exec_accepted hexec), hamount, List.cons.injEq, Prod.mk.injEq,
      hpayee] at hpaid
    by_cases hzero : chainId' = 0
    · rw [if_pos (Or.inl hzero)] at hpaid
      exact Or.inr hpaid.1.1.symm
    · exact Or.inl hzero
  · intro hcond
    have hdest' : payee l.other s'.state msg id = destBid := by
      rw [hpayee]
      split
      next hzero =>
        have hzero : chainId' = 0 := by simpa using hzero
        exact (hcond.resolve_left (not_not.mpr hzero)).symm
      next => rfl
    obtain ⟨b, r, hexec⟩ := hiff.mpr ⟨hin, by rw [hdest', htakes]⟩
    refine ⟨b, r, hexec, ?_⟩
    rw [ackSuccess_transfers (exec_accepted hexec), hamount, hdest']

/-- The transfer after its success was accepted on layer 2. -/
def ackedOn2 : Chronicle := run .layer2 sumHash (deploy 1 2 10)
  [sampleStart 3, (⟨1, 0, 14, fun _ => true⟩, .sendAckedTx startedId 1 [] 12)]

/-- The books with an acknowledged start on layer 2 are reachable. -/
theorem ackedOn2_reachable : ackedOn2.Reachable .layer2 sumHash 2 := ⟨1, 10, _, rfl⟩

/-- Its escrow on layer 1 of a chain of the given id. -/
def escrowedOn1 (chainId : ℕ) : Chronicle := run .layer1 sumHash (deploy 1 chainId 10) [escrowOn1 12]

/-- The books with one escrow on layer 1 are reachable. -/
theorem escrowedOn1_reachable (chainId : ℕ) :
    (escrowedOn1 chainId).Reachable .layer1 sumHash chainId := ⟨1, 10, _, rfl⟩

/-- On a chain of id 2 account 8 gets its 5 coins. -/
theorem success_completed_on_2 : ∃ b r, exec .layer1 sumHash (escrowedOn1 2).state
    ⟨1, 0, 15, fun _ => true⟩ (.sendAckedTx startedId 1 [] 12) = .ok (b, r) ∧ r.transfers = [(8, 5)] :=
  (success_completed_iff ackedOn2_reachable List.mem_cons_self rfl rfl (escrowedOn1_reachable 2) rfl
    rfl rfl rfl rfl rfl (by decide)).mpr (Or.inl (by decide))

/-- On a chain of id 0 it does not. -/
theorem success_lost_on_0 : ¬∃ b r, exec .layer1 sumHash (escrowedOn1 0).state
    ⟨1, 0, 15, fun _ => true⟩ (.sendAckedTx startedId 1 [] 12) = .ok (b, r) ∧
      r.transfers = [(8, 5)] := by
  rintro ⟨b, r, hexec, hpaid⟩
  have hpays : ((exec .layer1 sumHash (escrowedOn1 0).state ⟨1, 0, 15, fun _ => true⟩
      (.sendAckedTx startedId 1 [] 12)).toOption.map fun p => p.2.transfers) = some [(1, 5)] := rfl
  rw [hexec] at hpays
  exact absurd (hpaid.symm.trans (Option.some_inj.mp hpays)) (by decide)

end CrosschainAgent.Bridge
