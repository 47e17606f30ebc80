import CrosschainAgent.Contract.Accepted
import CrosschainAgent.Library.Escrow

/-!
# Runs of one bridge contract, and its solvency

A run is any finite list of calls by any senders; a reverted call leaves no trace. A
chronicle keeps, next to the contract's state, the calls that were accepted. Its money is
an escrow pot: a live record is an open claim of its id, an accepted `StartTx` or `SendTx`
is a deposit, and a transfer made by `SendAckedTx` or `Refund` is a payout. Solvency and the
single payout per funding are then facts about pots.

No timestamp assumption is used: a second `StartTx` of the same block may well replace a
record, which leaves money in the contract that no record claims.
-/

namespace CrosschainAgent.Bridge

open Function Escrow

variable {l : Layer} {sha256 : Sha256}

/-- An accepted call. -/
structure Entry where
  msg : Msg
  call : Call
  receipt : Receipt

/-- The entry is the `StartTx` or `SendTx` call that funded the id. -/
def Entry.funds (e : Entry) (id : Bytes) : Bool :=
  e.receipt.events.contains (.startTxEvent id) || e.receipt.events.contains (.sendTxEvent id)

/-- The number of native transfers the entry made for the id. -/
def Entry.payouts (e : Entry) (id : Bytes) : ℕ :=
  match e.call with
  | .sendAckedTx i _ _ _ => if i = id then e.receipt.transfers.length else 0
  | .refund i => if i = id then e.receipt.transfers.length else 0
  | _ => 0

/-- A contract state with the accepted calls that led to it, newest first. -/
structure Chronicle where
  state : State
  accepted : List Entry

/-- How many accepted calls funded the id. -/
def fundedBy (es : List Entry) (id : Bytes) : ℕ := es.countP (·.funds id)

/-- How many payouts were made for the id. -/
def payoutsOf (es : List Entry) (id : Bytes) : ℕ := (es.map (·.payouts id)).sum

/-- One call: it is recorded when accepted and has no effect when reverted. -/
def step (l : Layer) (sha256 : Sha256) (s : Chronicle) (x : Msg × Call) : Chronicle :=
  match exec l sha256 s.state x.1 x.2 with
  | .ok (b, r) => ⟨b, ⟨x.1, x.2, r⟩ :: s.accepted⟩
  | .error _ => s

/-- A run from a given contract state. -/
def run (l : Layer) (sha256 : Sha256) (b : State) (calls : List (Msg × Call)) : Chronicle :=
  calls.foldl (step l sha256) ⟨b, []⟩

/-- Either the call is reverted, or it is one of the accepted ones. -/
theorem step_cases (l : Layer) (sha256 : Sha256) (s : Chronicle) (x : Msg × Call) :
    step l sha256 s x = s ∨ ∃ b r, Accepted l sha256 s.state x.1 x.2 b r ∧
      step l sha256 s x = ⟨b, ⟨x.1, x.2, r⟩ :: s.accepted⟩ := by
  unfold step
  split
  next b r h => exact Or.inr ⟨b, r, exec_accepted h, rfl⟩
  next => exact Or.inl rfl

/-- A property that holds at deployment and survives every call holds after every run. -/
theorem run_induction {P : Chronicle → Prop} {b : State} (h0 : P ⟨b, []⟩)
    (hstep : ∀ s x, P s → P (step l sha256 s x)) (calls : List (Msg × Call)) :
    P (run l sha256 b calls) := by
  unfold run
  generalize (⟨b, []⟩ : Chronicle) = s at h0
  induction calls generalizing s with
  | nil => exact h0
  | cons x rest ih => exact ih _ (hstep s x h0)

/-- Storing a record changes the records at its id only. -/
@[simp] theorem store_crossTxInfo (b : State) (id : Bytes) (r : CrossTxInfo) :
    (b.store id r).crossTxInfo = update b.crossTxInfo id r := rfl

/-- Storing a record moves no coins. -/
@[simp] theorem store_balance (b : State) (id : Bytes) (r : CrossTxInfo) :
    (b.store id r).balance = b.balance := rfl

/-- Storing a record leaves the owner. -/
@[simp] theorem store_owner (b : State) (id : Bytes) (r : CrossTxInfo) :
    (b.store id r).owner = b.owner := rfl

/-- Storing a record leaves the chain id. -/
@[simp] theorem store_chainId (b : State) (id : Bytes) (r : CrossTxInfo) :
    (b.store id r).chainId = b.chainId := rfl

/-- The value of a message is received without touching the records. -/
@[simp] theorem receive_crossTxInfo (b : State) (msg : Msg) :
    (receive b msg).crossTxInfo = b.crossTxInfo := rfl

/-- The value of a message is added to the balance. -/
@[simp] theorem receive_balance (b : State) (msg : Msg) :
    (receive b msg).balance = b.balance + msg.value := rfl

/-- Receiving leaves the chain id. -/
@[simp] theorem receive_chainId (b : State) (msg : Msg) : (receive b msg).chainId = b.chainId :=
  rfl

/-- Receiving leaves the owner. -/
@[simp] theorem receive_owner (b : State) (msg : Msg) : (receive b msg).owner = b.owner := rfl

/-- `refunded` is `NONE` exactly while nothing is to be refunded. -/
def CrossTxInfo.RefundMatches (r : CrossTxInfo) : Prop :=
  r.refunded = .none ↔ r.status = .init ∨ r.status = .ackSuccess

/-- Unset slots are blank, and every record's refund mark matches its status. -/
structure State.WellFormed (b : State) : Prop where
  blank : ∀ id, (b.crossTxInfo id).crossTxId = [] → b.crossTxInfo id = {}
  refunds : ∀ id, (b.crossTxInfo id).RefundMatches

/-- A fresh contract has no records, so they are well formed. -/
theorem deploy_wellFormed (sender : Address) (chainId timeout : ℕ) :
    (deploy sender chainId timeout).WellFormed where
  blank _ _ := rfl
  refunds _ := by simp [deploy, CrossTxInfo.RefundMatches]

/-- Setting one slot to a well-formed record keeps the storage well formed. -/
theorem State.WellFormed.of_update {b b' : State} (h : b.WellFormed) {id : Bytes} {r : CrossTxInfo}
    (hmap : b'.crossTxInfo = update b.crossTxInfo id r) (hr : r.Exists) (hm : r.RefundMatches) :
    b'.WellFormed where
  blank i hi := by
    rw [hmap] at hi ⊢
    by_cases h' : i = id
    · subst h'
      rw [update_self] at hi
      exact absurd hi hr
    · rw [update_of_ne h'] at hi ⊢
      exact h.blank i hi
  refunds i := by
    rw [hmap]
    by_cases h' : i = id
    · subst h'
      rwa [update_self]
    · rw [update_of_ne h']
      exact h.refunds i

/-- The id of a started record is a hash, so it is never empty. -/
theorem hash_ne_nil (words : List ℕ) : sha256.hash words ≠ [] := by
  intro h
  simpa [h] using sha256.length_hash words

/-- An id of 32 bytes is not empty. -/
theorem ne_nil_of_length {id : Bytes} (h : id.length = 32) : id ≠ [] := by
  rintro rfl
  simp at h

/-- Every accepted call keeps the storage well formed. -/
theorem Accepted.wellFormed {b b' : State} {msg : Msg} {c : Call} {r : Receipt}
    (h : Accepted l sha256 b msg c b' r) (hb : b.WellFormed) : b'.WellFormed := by
  cases h with
  | setTimeout t => exact ⟨hb.blank, hb.refunds⟩
  | setOwner o => exact ⟨hb.blank, hb.refunds⟩
  | startTx d txId id =>
    have hr : (startedInfo l b msg txId msg.sender d msg.value).Exists := id ▸ hash_ne_nil _
    exact hb.of_update rfl hr (by simp [startedInfo, CrossTxInfo.RefundMatches])
  | sendTx i s d t owner length nonzero inTime fresh =>
    have hr : (sentInfo l b msg i s d msg.value t).Exists := ne_nil_of_length length
    refine hb.of_update rfl hr ?_
    simp [sentInfo, hb.blank i fresh, CrossTxInfo.RefundMatches]
  | ackSuccess i e t recipient events owner value length found init =>
    have hnone : (b.crossTxInfo i).refunded = .none := (hb.refunds i).mpr (Or.inl init)
    refine hb.of_update rfl found ?_
    simp [CrossTxInfo.RefundMatches, hnone]
  | ackFailure i res e t status desc' owner value length found init desc result_eq =>
    refine hb.of_update rfl found ?_
    rcases result_eq with ⟨_, rfl, _⟩ | ⟨_, rfl, _⟩ <;> simp [CrossTxInfo.RefundMatches]
  | refund i value length found todo =>
    have hfail : ¬((b.crossTxInfo i).status = .init ∨ (b.crossTxInfo i).status = .ackSuccess) := by
      rw [← (show _ ↔ _ from hb.refunds i), todo]
      decide
    refine hb.of_update rfl found ?_
    simpa [CrossTxInfo.RefundMatches] using hfail

/-- The amount the contract holds for a record. -/
def CrossTxInfo.owed (r : CrossTxInfo) : ℕ := if r.Live then r.amount else 0

/-- A live record is an open claim of its amount. -/
def CrossTxInfo.claim (r : CrossTxInfo) : Option ℕ := if r.Live then some r.amount else none

/-- The escrow pot a chronicle stands for. -/
def Chronicle.pot (s : Chronicle) : Pot Bytes where
  claims id := (s.state.crossTxInfo id).claim
  balance := s.state.balance
  funded := fundedBy s.accepted
  paid := payoutsOf s.accepted

/-- An entry that funds one id raises the count of that id only. -/
theorem fundedBy_cons (e : Entry) (es : List Entry) (id : Bytes)
    (he : ∀ i, e.funds i = decide (i = id)) :
    fundedBy (e :: es) = update (fundedBy es) id (fundedBy es id + 1) := by
  funext i
  by_cases hi : i = id
  · subst hi
    simp [fundedBy, he]
  · simp [fundedBy, he, hi]

/-- An entry that funds nothing changes no funding. -/
theorem fundedBy_cons_idle (e : Entry) (es : List Entry) (he : ∀ i, e.funds i = false) :
    fundedBy (e :: es) = fundedBy es := by
  funext i
  simp [fundedBy, he]

/-- An entry with one payout raises the count of its id only. -/
theorem payoutsOf_cons (e : Entry) (es : List Entry) (id : Bytes)
    (he : ∀ i, e.payouts i = if i = id then 1 else 0) :
    payoutsOf (e :: es) = update (payoutsOf es) id (payoutsOf es id + 1) := by
  funext i
  by_cases hi : i = id
  · subst hi
    simp [payoutsOf, he, Nat.add_comm]
  · simp [payoutsOf, he, hi]

/-- An entry that pays nothing changes no payouts. -/
theorem payoutsOf_cons_idle (e : Entry) (es : List Entry) (he : ∀ i, e.payouts i = 0) :
    payoutsOf (e :: es) = payoutsOf es := by
  funext i
  simp [payoutsOf, he]

/-- The claims after storing a record differ in its id only. -/
theorem claims_store (b : State) (id : Bytes) (r : CrossTxInfo) :
    (fun i => ((b.store id r).crossTxInfo i).claim) =
      update (fun i => (b.crossTxInfo i).claim) id r.claim := by
  funext i
  by_cases h : i = id
  · subst h
    simp
  · simp [update_of_ne h]

/-- What an accepted call does to the pot. -/
def potMove : Call → Receipt → Move Bytes
  | .startTx _ _ amount, { events := [.startTxEvent id], .. } => .deposit id amount
  | .sendTx id _ _ amount _, _ => .deposit id amount
  | .sendAckedTx id _ _ _, { transfers := [_], .. } => .payout id
  | .refund id, _ => .payout id
  | _, _ => .idle

/-- An open record claims its amount. -/
theorem claim_of_init {r : CrossTxInfo} (h : r.Exists) (hi : r.status = .init) :
    r.claim = some r.amount := if_pos ⟨h, Or.inl hi⟩

/-- A record that waits for its refund claims its amount. -/
theorem claim_of_todo {r : CrossTxInfo} (h : r.Exists) (ht : r.refunded = .todo) :
    r.claim = some r.amount := if_pos ⟨h, Or.inr ht⟩

/-- An accepted call moves the pot by the corresponding escrow move. -/
theorem Accepted.pot_move {b b' : State} {msg : Msg} {c : Call} {r : Receipt}
    (h : Accepted l sha256 b msg c b' r) (hb : b.WellFormed) (es : List Entry) :
    (potMove c r).Enabled (Chronicle.pot ⟨b, es⟩) ∧
      Chronicle.pot ⟨b', ⟨msg, c, r⟩ :: es⟩ = (Chronicle.pot ⟨b, es⟩).apply (potMove c r) := by
  cases h with
  | setTimeout t =>
    refine ⟨trivial, ?_⟩
    simp only [Chronicle.pot, potMove, Pot.apply]
    rw [fundedBy_cons_idle _ _ fun i => by simp [Entry.funds], payoutsOf_cons_idle _ _ fun i => rfl]
  | setOwner o =>
    refine ⟨trivial, ?_⟩
    simp only [Chronicle.pot, potMove, Pot.apply]
    rw [fundedBy_cons_idle _ _ fun i => by simp [Entry.funds], payoutsOf_cons_idle _ _ fun i => rfl]
  | startTx d txId id =>
    have hlive : (startedInfo l b msg txId msg.sender d msg.value).claim = some msg.value :=
      claim_of_init (id ▸ hash_ne_nil _) rfl
    refine ⟨trivial, ?_⟩
    simp only [Chronicle.pot, potMove, Pot.apply, claims_store, hlive]
    rw [fundedBy_cons _ _ txId fun i => by simp [Entry.funds], payoutsOf_cons_idle _ _ fun i => rfl]
    rfl
  | sendTx i s d t owner length nonzero inTime fresh =>
    have hlive : (sentInfo l b msg i s d msg.value t).claim = some msg.value :=
      claim_of_init (ne_nil_of_length length) (by simp [sentInfo, hb.blank i fresh])
    refine ⟨trivial, ?_⟩
    simp only [Chronicle.pot, potMove, Pot.apply, claims_store, hlive]
    rw [fundedBy_cons _ _ i fun j => by simp [Entry.funds], payoutsOf_cons_idle _ _ fun j => rfl]
    rfl
  | ackSuccess i e t recipient events owner value length found init desc window funds taken route =>
    have hclaim := claim_of_init found init
    have hnone : (b.crossTxInfo i).refunded = .none := (hb.refunds i).mpr (Or.inl init)
    have hdead : CrossTxInfo.claim { b.crossTxInfo i with
        status := .ackSuccess, executeTimestamp := t } = none := by
      simp [CrossTxInfo.claim, CrossTxInfo.Live, hnone]
    have hevents : ∀ j, Entry.funds ⟨msg, .sendAckedTx i 1 e t,
        ⟨events, [(recipient, (b.crossTxInfo i).amount)]⟩⟩ j = false := by
      intro j
      split at route <;> simp [Entry.funds, route]
    refine ⟨by simp [potMove, Move.Enabled, Chronicle.pot, hclaim], ?_⟩
    simp only [Chronicle.pot, potMove, Pot.apply, claims_store, hdead]
    rw [fundedBy_cons_idle _ _ hevents,
      payoutsOf_cons _ _ i fun j => by simp [Entry.payouts, eq_comm]]
    simp [Pot.owed, hclaim]
  | ackFailure i res e t status desc' owner value length found init =>
    have hsame : CrossTxInfo.claim { b.crossTxInfo i with
        status := status, refunded := .todo, errorDesc := desc' } = (b.crossTxInfo i).claim := by
      rw [claim_of_init found init]
      exact claim_of_todo found rfl
    refine ⟨trivial, ?_⟩
    simp only [Chronicle.pot, potMove, Pot.apply, claims_store, hsame, update_eq_self]
    rw [fundedBy_cons_idle _ _ fun j => by simp [Entry.funds],
      payoutsOf_cons_idle _ _ fun j => by simp [Entry.payouts]]
    rfl
  | refund i value length found todo =>
    have hclaim := claim_of_todo found todo
    have hstatus : (b.crossTxInfo i).status ≠ .init := fun hinit => by
      simpa [todo] using (hb.refunds i).mpr (Or.inl hinit)
    have hdead : CrossTxInfo.claim { b.crossTxInfo i with refunded := .refunded } = none := by
      simp [CrossTxInfo.claim, CrossTxInfo.Live, hstatus]
    refine ⟨by simp [potMove, Move.Enabled, Chronicle.pot, hclaim], ?_⟩
    simp only [Chronicle.pot, potMove, Pot.apply, claims_store, hdead]
    rw [fundedBy_cons_idle _ _ fun j => by simp [Entry.funds],
      payoutsOf_cons _ _ i fun j => by simp [Entry.payouts, eq_comm]]
    simp [Pot.owed, hclaim]

/-- The storage is well formed and the pot behind it solvent. -/
structure Chronicle.Sound (s : Chronicle) : Prop where
  wellFormed : s.state.WellFormed
  solvent : s.pot.Solvent

/-- A fresh contract is sound. -/
theorem deploy_sound (sender : Address) (chainId timeout : ℕ) :
    Chronicle.Sound ⟨deploy sender chainId timeout, []⟩ where
  wellFormed := deploy_wellFormed sender chainId timeout
  solvent := by
    have hpot : Chronicle.pot ⟨deploy sender chainId timeout, []⟩ = Pot.empty 0 := by
      simp only [Chronicle.pot, Pot.empty, deploy]
      congr 1
    rw [hpot]
    exact Pot.solvent_empty 0

/-- One call keeps the books sound, accepted or not. -/
theorem Chronicle.Sound.step {s : Chronicle} (h : s.Sound) (x : Msg × Call) :
    (step l sha256 s x).Sound := by
  rcases step_cases l sha256 s x with heq | ⟨b, r, hacc, heq⟩
  · rw [heq]
    exact h
  · rw [heq]
    obtain ⟨henabled, hpot⟩ := hacc.pot_move h.wellFormed s.accepted
    exact ⟨hacc.wellFormed h.wellFormed, hpot ▸ h.solvent.apply _ henabled⟩

/-- A contract is sound after any calls. -/
theorem run_sound (sender : Address) (chainId timeout : ℕ) (calls : List (Msg × Call)) :
    (run l sha256 (deploy sender chainId timeout) calls).Sound :=
  run_induction (deploy_sound sender chainId timeout) (fun _ x h => h.step x) calls

/-- What the pot owes is what the records owe. -/
theorem pot_owed (s : Chronicle) : s.pot.owed = fun id => (s.state.crossTxInfo id).owed := by
  funext id
  by_cases h : (s.state.crossTxInfo id).Live <;>
    simp [Chronicle.pot, Pot.owed, CrossTxInfo.claim, CrossTxInfo.owed, h]

/-- A live record's amount is covered by the balance alone. -/
theorem Chronicle.Sound.amount_le {s : Chronicle} (h : s.Sound) {id : Bytes}
    (hlive : (s.state.crossTxInfo id).Live) : (s.state.crossTxInfo id).amount ≤ s.state.balance := by
  have howed := h.solvent.owed_le id
  rw [pot_owed] at howed
  simpa [CrossTxInfo.owed, hlive, Chronicle.pot] using howed

/-- A call that fails at a `require` fails there or later. -/
@[simp] theorem require_bind_eq_error {condition : Prop} [Decidable condition] {reason e : String}
    {α : Type} {f : Unit → Except String α} :
    (require condition reason >>= f) = .error e ↔
      ¬condition ∧ reason = e ∨ condition ∧ f () = .error e := by
  by_cases h : condition <;> simp [require, h, bind, Except.bind]

/-- A call whose transfer is covered fails at the recipient or later. -/
theorem transfer_bind_eq_error {b : State} {msg : Msg} {recipient : Address} {amount : ℕ}
    {α : Type} {f : State → Except String α} {e : String} (hfunds : amount ≤ b.balance)
    (h : (transfer b msg recipient amount >>= f) = .error e) :
    e = "transfer: recipient reverted" ∨ f { b with balance := b.balance - amount } = .error e := by
  simp only [transfer, bind_assoc, require_bind_eq_error, pure_bind] at h
  rcases h with ⟨hno, _⟩ | ⟨_, ⟨_, rfl⟩ | ⟨_, h⟩⟩
  · exact absurd hfunds hno
  · exact Or.inl rfl
  · exact Or.inr h

/-- In a sound state `SendAckedTx` never lacks the money for its transfer. -/
theorem sendAckedTx_funded {s : Chronicle} (h : s.Sound) (msg : Msg) (id : Bytes) (result : ℕ)
    (errorDesc : Text) (executeTime : ℕ) :
    sendAckedTx l s.state msg id result errorDesc executeTime ≠ .error insufficientFunds := by
  intro herr
  simp only [sendAckedTx, nonPayable, onlyOwner, require_bind_eq_error] at herr
  rcases herr with ⟨_, herr⟩ | ⟨_, ⟨_, herr⟩ | ⟨_, ⟨_, herr⟩ | ⟨_, ⟨_, herr⟩ | ⟨hfound, ⟨_, herr⟩ |
    ⟨hinit, ⟨_, herr⟩ | ⟨_, ⟨_, herr⟩ | ⟨_, herr⟩⟩⟩⟩⟩⟩⟩
  iterate 7 exact absurd herr (by decide)
  have hlive : (s.state.crossTxInfo id).Live := ⟨List.ne_nil_of_length_pos hfound, Or.inl hinit⟩
  have hfunds := h.amount_le hlive
  split_ifs at herr
  · simp only [require_bind_eq_error] at herr
    rcases herr with ⟨_, herr⟩ | ⟨_, herr⟩
    · exact absurd herr (by decide)
    · rcases transfer_bind_eq_error hfunds herr with herr | herr
      · exact absurd herr (by decide)
      · cases herr
  · simp only [require_bind_eq_error] at herr
    rcases herr with ⟨_, herr⟩ | ⟨_, herr⟩
    · exact absurd herr (by decide)
    · rcases transfer_bind_eq_error hfunds herr with herr | herr
      · exact absurd herr (by decide)
      · cases herr
  · cases herr
  · cases herr

/-- In a sound state `Refund` never lacks the money for its transfer. -/
theorem refund_funded {s : Chronicle} (h : s.Sound) (msg : Msg) (id : Bytes) :
    refund s.state msg id ≠ .error insufficientFunds := by
  intro herr
  simp only [refund, nonPayable, require_bind_eq_error] at herr
  rcases herr with ⟨_, herr⟩ | ⟨_, ⟨_, herr⟩ | ⟨_, ⟨_, herr⟩ | ⟨hfound, ⟨_, herr⟩ |
    ⟨htodo, ⟨_, herr⟩ | ⟨_, herr⟩⟩⟩⟩⟩
  iterate 5 exact absurd herr (by decide)
  have hlive : (s.state.crossTxInfo id).Live := ⟨List.ne_nil_of_length_pos hfound, Or.inr htodo⟩
  rcases transfer_bind_eq_error (h.amount_le hlive) herr with herr | herr
  · exact absurd herr (by decide)
  · cases herr

/-- Every reachable state of either contract covers what its live records are owed, so no
transfer fails for lack of funds; refund marks match the status; and no id was paid out
more often than it was funded. -/
theorem bridge_solvent (l : Layer) (sha256 : Sha256) (sender : Address) (chainId timeout : ℕ)
    (calls : List (Msg × Call)) :
    let s := run l sha256 (deploy sender chainId timeout) calls
    (support fun id => (s.state.crossTxInfo id).owed).Finite ∧
      ∑ᶠ id, (s.state.crossTxInfo id).owed ≤ s.state.balance ∧
      (∀ msg id result errorDesc executeTime,
        sendAckedTx l s.state msg id result errorDesc executeTime ≠ .error insufficientFunds) ∧
      (∀ msg id, refund s.state msg id ≠ .error insufficientFunds) ∧
      (∀ id, (s.state.crossTxInfo id).refunded = .none ↔
        (s.state.crossTxInfo id).status = .init ∨ (s.state.crossTxInfo id).status = .ackSuccess) ∧
      ∀ id, payoutsOf s.accepted id ≤ fundedBy s.accepted id := by
  intro s
  have h : s.Sound := run_sound sender chainId timeout calls
  have howed := pot_owed s
  refine ⟨howed ▸ h.solvent.finite, ?_, fun _ _ _ _ _ => sendAckedTx_funded h _ _ _ _ _,
    fun _ _ => refund_funded h _ _, h.wellFormed.refunds, fun id => ?_⟩
  · have hcov := h.solvent.covered
    simp only [howed] at hcov
    exact hcov
  · have hsingle := h.solvent.single id
    change payoutsOf s.accepted id + _ ≤ fundedBy s.accepted id at hsingle
    omega

end CrosschainAgent.Bridge
