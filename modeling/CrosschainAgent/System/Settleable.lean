import CrosschainAgent.Contract.Handover
import CrosschainAgent.System.Causes
import CrosschainAgent.System.Withheld

/-!
# When a transfer can still be settled

From any reachable world between two calls of the handlers, whatever was lost or went wrong before, a
transfer can be brought to its settlement on both chains as long as its source has not failed and its
escrow was, or can still be, executed strictly between the start and the timeout. Nothing the agent kept
is needed: it may start again without its database, and works off the events, which are delivered again.
Its clock matters for the transfers that start on layer 2: once it is past the timeout, they need a
`SendTx` that the node of layer 1 received before. In all other cases no continuation settles the
transfer, as long as the clock does not go back.
-/

namespace CrosschainAgent

open Interaction Bridge Strings

variable {T : Type} [DecidableEq T]

namespace Bridge

/-- What always holds of an existing record: its accounts are accounts, only a `StartTx` sets the time
of its start, and a success was acknowledged within its window. -/
structure CrossTxInfo.Formed (started : Bool) (r : CrossTxInfo) : Prop where
  nonzero : r.srcBid ≠ 0 ∧ r.destBid ≠ 0
  create : started = false → r.createTimestamp = 0
  window : r.status = .ackSuccess →
    r.createTimestamp < r.executeTimestamp ∧ r.executeTimestamp < r.timeout

/-- The existing records of a contract. -/
def State.Formed (l : Layer) (b : State) : Prop :=
  ∀ id, (b.crossTxInfo id).Exists →
    (b.crossTxInfo id).Formed (isStarted l b.chainId (b.crossTxInfo id).srcChainId)

/-- Storing a well-formed record keeps the others so. -/
theorem State.Formed.store {l : Layer} {b : State} (h : b.Formed l) {id : Bytes} {r : CrossTxInfo}
    (hr : r.Formed (isStarted l b.chainId r.srcChainId)) {balance : ℕ} :
    ({ b with balance := balance }.store id r).Formed l := by
  intro i hi
  by_cases h' : i = id
  · subst h'
    simpa only [State.store, Function.update_self] using hr
  · simp only [State.store, Function.update_of_ne h'] at hi ⊢
    exact h i hi

/-- A deployed contract has no records. -/
theorem deploy_formed (l : Layer) (sender : Address) (chainId timeout : ℕ) :
    (deploy sender chainId timeout).Formed l :=
  fun _ hex => absurd rfl hex

/-- Every accepted call keeps them. -/
theorem Accepted.formed {l : Layer} {sha256 : Sha256} {b b' : State} {msg : Msg} {c : Call} {r : Receipt}
    (h : Accepted l sha256 b msg c b' r) (hw : b.WellFormed) (hb : b.Formed l) : b'.Formed l := by
  cases h with
  | setTimeout | setOwner => exact hb
  | startTx dest txId hid nonzero =>
    refine hb.store ⟨nonzero, fun hno => ?_, fun hno => ?_⟩
    · cases l <;> simp [startedInfo, startedRoute, isStarted] at hno
    · cases hno
  | sendTx i src dest timeout owner length nonzero inTime fresh =>
    have hblank : b.crossTxInfo i = {} := hw.blank i fresh
    refine hb.store ⟨nonzero, fun _ => ?_, fun hno => ?_⟩
    · simp [sentInfo, hblank]
    · simp [sentInfo, hblank] at hno
  | ackSuccess i desc time recipient events owner value length found init hdesc window =>
    have hold := hb i found
    refine hb.store ?_
    exact ⟨hold.nonzero, hold.create, fun _ => ⟨window.2, window.1⟩⟩
  | ackFailure i result desc time status desc' owner value length found init hdesc result_eq =>
    have hold := hb i found
    refine hb.store ?_
    refine ⟨hold.nonzero, hold.create, fun hno => ?_⟩
    rcases result_eq with ⟨_, rfl, _⟩ | ⟨_, rfl, _⟩ <;> cases hno
  | refund i value length found =>
    have hold := hb i found
    refine hb.store ?_
    exact ⟨hold.nonzero, hold.create, hold.window⟩

/-- A call before the timeout is in time on both layers. -/
theorem inTime_of_lt {timeout timestamp : ℕ} (h : timestamp < timeout) (l : Layer) :
    inTime l timeout timestamp = true := by
  cases l with
  | layer1 => exact decide_eq_true h.le
  | layer2 => exact decide_eq_true h

/-- A `SendTx` of the owner for an id that is not taken is accepted in time. -/
theorem exec_sendTx {l : Layer} {sha256 : Sha256} {b : State} {msg : Msg} {id : Bytes} {src dest : Address}
    {timeout : ℕ} (howner : msg.sender = b.owner) (hlength : id.length = 32) (hsrc : src ≠ 0)
    (hdest : dest ≠ 0) (hin : inTime l timeout msg.timestamp = true) (hfresh : b.crossTxInfo id = {}) :
    exec l sha256 b msg (.sendTx id src dest msg.value timeout) =
      .ok ((receive b msg).store id (sentInfo l b msg id src dest msg.value timeout),
        { events := [.sendTxEvent id] }) := by
  have hempty : ((receive b msg).crossTxInfo id).crossTxId.length = 0 := by
    rw [receive_crossTxInfo, hfresh]
    rfl
  simp only [exec, sendTx, onlyOwner, require_bind_eq_ok]
  exact ⟨howner, hlength, ⟨hsrc, hdest⟩, trivial, hin, hempty, rfl⟩

end Bridge

namespace World

variable {sys : System} {w w' w'' : World T} {l m : Layer}

/-- Nothing was executed on the chains, and time passed on one of them at most, not on the agent's
clock. -/
structure Rested (w : World T) (l : Layer) (w' : World T) : Prop where
  idle : ∀ k, Chain.Idle (w.shared.chain k) (w'.shared.chain k)
  now : ∀ k, k ≠ l → (w'.shared.chain k).now = (w.shared.chain k).now
  clock : w'.shared.clock = w.shared.clock

omit [DecidableEq T] in
/-- A world rests in itself. -/
theorem Rested.refl (w : World T) (l : Layer) : w.Rested l w := ⟨fun _ => .refl _, fun _ _ => rfl, rfl⟩

/-- No call is running, no lock is held and nothing waits for a confirmation. -/
structure Ready (w : World T) : Prop where
  tasks : w.tasks = fun _ => none
  locks : ∀ s, w.shared.locks s = none
  start : w.shared.agent.maps .start = ∅

/-- The agent starts again without its database, and a block closes on the chain. -/
theorem leads_ready (sys : System) (t : T) (w : World T) (l : Layer) (time : ℕ) : ∃ w',
    Leads sys w w' ∧ w.Rested l w' ∧ w'.Ready ∧ time < (w'.shared.chain l).now := by
  let shared : Shared T := { w.shared with agent := w.shared.agent.restarted, locks := fun _ => none }
  let later := max (w.shared.chain l).now time + 1
  have hblock : step sys ⟨shared, fun _ => none⟩ (.block l later) =
      some ⟨shared.setChain l { shared.chain l with now := later }, fun _ => none⟩ :=
    if_pos (Nat.lt_succ_of_le (le_max_left _ _))
  have hrestart : Leads sys w ⟨shared, fun _ => none⟩ := leads_step (step_restart t w) rfl
  refine ⟨_, hrestart.trans (leads_step hblock rfl), ⟨fun k => ?_, fun k hk => ?_, rfl⟩,
    ⟨rfl, fun _ => rfl, rfl⟩, ?_⟩
  · by_cases hk : k = l
    · subst hk
      rw [setChain_chain_self]
      exact ⟨rfl, rfl, rfl⟩
    · rw [setChain_chain_of_ne _ _ hk]
      exact Chain.Idle.refl _
  · rw [setChain_chain_of_ne _ _ hk]
  · rw [setChain_chain_self]
    exact Nat.lt_succ_of_le (le_max_right _ _)

/-- The node of a chain has received a submission. -/
structure Offered (w : World T) (l m : Layer) (input : TxInput) (amount : Int64) (w' : World T) : Prop
    extends w.Rested l w' where
  pool : ∃ hash, ⟨hash, input, amount⟩ ∈ (w'.shared.chain m).pool

omit [DecidableEq T] in
/-- What a submission leaves of the chains. -/
theorem Rested.submitted {shared : Shared T} {u : Shared T} {input : TxInput} {amount : Int64}
    (h : w.Rested l w') (hchain : shared.chain = w'.shared.chain)
    (hsub : shared.Submitted m input amount u) (hu : w''.shared.chain = u.chain)
    (hclock : w''.shared.clock = w'.shared.clock) : w.Offered l m input amount w'' := by
  obtain ⟨_, hash, hpost⟩ := hsub
  have hself : (w''.shared.chain m) = { w'.shared.chain m with
      posted := (input, amount) :: (w'.shared.chain m).posted
      pool := (w'.shared.chain m).pool ++ [⟨hash, input, amount⟩] } := by
    rw [hu, hpost, Shared.received, setChain_chain_self, hchain]
  have hother : ∀ k, k ≠ m → w''.shared.chain k = w'.shared.chain k := by
    intro k hk
    rw [hu, hpost, Shared.received, setChain_chain_of_ne _ _ hk, hchain]
  refine ⟨⟨fun k => ?_, fun k hk => ?_, hclock.trans h.clock⟩, hash, ?_⟩
  · by_cases hk : k = m
    · subst hk
      exact (h.idle k).trans (hself ▸ ⟨rfl, rfl, rfl⟩)
    · rw [hother k hk]
      exact h.idle k
  · by_cases hm : k = m
    · subst hm
      rw [hself]
      exact h.now k hk
    · rw [hother k hm]
      exact h.now k hk
  · rw [hself]
    exact List.mem_append_right _ List.mem_cons_self

/-- An event is handled: from the start of the agent to the submission that its handler makes. -/
theorem leads_offered (t : T) {time : ℕ} {event : Event} {call : HandleManager.Call} {input : TxInput}
    {amount : Int64} (hlog : (time, event) ∈ (w.shared.chain l).log)
    (hcall : tlogOf sys.abi l event = some call)
    (hcan : ∀ u : Shared T, (∀ s, u.locks s = none) →
      (∀ k, (u.chain k).bridge = (w.shared.chain k).bridge) →
        Shared.Can sys t (fun _ => u.Submitted m input amount) (HandleManager.run sys.su call) u) :
    ∃ w', Leads sys w w' ∧ w.Offered l m input amount w' := by
  obtain ⟨w₁, hleads, hrested, hready, hclosed⟩ := leads_ready sys t w l time
  rw [← (hrested.idle l).log] at hlog
  obtain ⟨index, hindex⟩ := List.getElem?_of_mem hlog
  have htake : step sys w₁ (.deliver t l index) = w₁.take sys t (some (l, index)) call := by
    simp only [step, hindex, hcall, Option.bind_eq_bind, Option.bind_some, if_pos hclosed]
  obtain ⟨w₂, hleads', _, hclock, _, u, hsub, hchain, _⟩ := leads_take htake hready.tasks
    (hcan _ hready.locks fun k => (hrested.idle k).bridge)
  exact ⟨w₂, hleads.trans hleads', hrested.submitted rfl hsub hchain hclock⟩

/-- A start event of layer 2 is handled, and its height confirmed before the agent's clock is past the
timeout. -/
theorem leads_offered_confirmed (t : T) {time : ℕ} {X : Bytes}
    (hlog : (time, Event.startTxEvent X) ∈ (w.shared.chain .layer2).log)
    (hintime : w.shared.clock.toInt ≤ saturate ((w.shared.chain .layer2).bridge.crossTxInfo X).timeout) :
    let r := (w.shared.chain .layer2).bridge.crossTxInfo X
    ∃ w', Leads sys w w' ∧ w.Offered .layer2 .layer1
      (Handle.sendTxInput (sys.abi.infoOf r r)) (sys.abi.infoOf r r).amount w' := by
  intro r
  obtain ⟨w₁, hleads, hrested, hready, hclosed⟩ := leads_ready sys t w .layer2 time
  rw [← (hrested.idle .layer2).log] at hlog
  obtain ⟨index, hindex⟩ := List.getElem?_of_mem hlog
  have htake : step sys w₁ (.deliver t .layer2 index) = w₁.take sys t (some (.layer2, index))
      (.tlog .layer2 .startTxTopic (sys.abi.bytesText X)) := by
    simp only [step, hindex, tlogOf, Option.bind_eq_bind, Option.bind_some, if_pos hclosed]
  have hr : (w₁.shared.chain .layer2).bridge.crossTxInfo X = r := by rw [(hrested.idle .layer2).bridge]
  obtain ⟨w₂, hleads', hidle, hclock, _, u, ⟨hlocks, hsame, hkept⟩, hchain, hlocks', hagent⟩ :=
    leads_take htake hready.tasks
      (Shared.can_handleStartTxEvent_layer2
        (w := { w₁.shared with taken := (.layer2, index) :: w₁.shared.taken }) X hready.locks hready.start hr)
  rw [← hchain] at hsame
  rw [← hagent] at hkept
  have hfree : ∀ s, w₂.shared.locks s = none := fun s => by rw [hlocks', hlocks, hready.locks]
  have hclock₂ : w₂.shared.clock = w.shared.clock := hclock.trans hrested.clock
  let info : Protocol.CrossTxInfo := { sys.abi.infoOf r r with confirmseq := 100 }
  have htimeout : info.timeout.toInt = saturate r.timeout := stol_decimal _
  have hearly : ¬info.timeout < w₂.shared.clock := by
    rw [hclock₂, Int64.lt_iff_toInt_lt, htimeout, not_lt]
    exact hintime
  have htick : step sys w₂ (.confirm t 100) = w₂.take sys t none (.confirm 100) := rfl
  obtain ⟨w₃, hleads'', _, hclock', _, v, hsub, hchain', _⟩ := leads_take htick hidle
    (Shared.can_handleConfirmSeqEvent hfree (Int64.le_refl _) hearly hkept)
  exact ⟨w₃, (hleads.trans hleads').trans hleads'',
    hrested.submitted hsame hsub hchain' (hclock'.trans hclock)⟩

/-- A start event is handled, up to the submission of the escrow. -/
theorem leads_offered_start (t : T) {time : ℕ} {X : Bytes}
    (hlog : (time, Event.startTxEvent X) ∈ (w.shared.chain l).log)
    (hintime : l = .layer2 →
      w.shared.clock.toInt ≤ saturate ((w.shared.chain l).bridge.crossTxInfo X).timeout) :
    let r := (w.shared.chain l).bridge.crossTxInfo X
    ∃ w', Leads sys w w' ∧ w.Offered l l.other
      (Handle.sendTxInput (sys.abi.infoOf r r)) (sys.abi.infoOf r r).amount w' := by
  cases l with
  | layer1 =>
    refine leads_offered t hlog rfl fun u hfree hbridge => ?_
    exact Shared.can_handleStartTxEvent_layer1 X hfree (by rw [hbridge])
  | layer2 => exact leads_offered_confirmed t hlog (hintime rfl)

/-- A chain may wait with its next block until a time that is still to come. -/
theorem leads_waited (sys : System) {time : ℕ} (hnow : (w.shared.chain m).now ≤ time) : ∃ w',
    Leads sys w w' ∧ w'.shared.chain m = { w.shared.chain m with now := time } ∧
      ∀ k, k ≠ m → w'.shared.chain k = w.shared.chain k := by
  cases hnow.eq_or_lt with
  | inl heq => exact ⟨w, .refl, heq ▸ rfl, fun _ _ => rfl⟩
  | inr hlt =>
    have hstep : step sys w (.block m time) =
        some { w with shared := w.shared.setChain m { w.shared.chain m with now := time } } := if_pos hlt
    refine ⟨_, leads_step hstep rfl, ?_, fun k hk => ?_⟩
    · exact setChain_chain_self ..
    · exact setChain_chain_of_ne _ _ hk

/-- A submission that its contract accepts is executed. -/
theorem leads_executed {tx : AgentTx} {call : Call} {b : State} {receipt : Receipt}
    (hmem : tx ∈ (w.shared.chain m).pool)
    (hcall : sys.abi.decodeCall tx.input.function tx.input.args = some call)
    (hexec : Bridge.exec m sys.sha256 (w.shared.chain m).bridge
      ⟨sys.owner m, tx.amount.toInt.toNat, (w.shared.chain m).now, fun _ => true⟩ call = .ok (b, receipt)) :
    ∃ w', Leads sys w w' ∧ (w'.shared.chain m).bridge = b ∧
      (w'.shared.chain m).hashed = (Entry.hashed m (w.shared.chain m).bridge.chainId
        ⟨⟨sys.owner m, tx.amount.toInt.toNat, (w.shared.chain m).now, fun _ => true⟩, call, receipt⟩).toList ++
          (w.shared.chain m).hashed ∧
      ∀ k, k ≠ m → w'.shared.chain k = w.shared.chain k := by
  obtain ⟨index, hindex⟩ := List.getElem?_of_mem hmem
  obtain ⟨c, hc⟩ : ∃ c, (w.shared.chain m).exec m sys.sha256 (sys.owner m) tx.amount.toInt.toNat
      (fun _ => true) call = some c := by
    simp only [Chain.exec, hexec]
    exact ⟨_, rfl⟩
  obtain ⟨receipt', hexec', hhashed, _⟩ := Chain.exec_cases hc
  obtain ⟨hb, rfl⟩ := Prod.mk.inj (Except.ok.inj (hexec'.symm.trans hexec))
  have hstep : step sys w (.execute m index fun _ => true) =
      some { w with shared := w.shared.setChain m { c with done := tx.hash :: c.done } } := by
    simp only [step, hindex, hcall, hc, Option.bind_eq_bind, Option.bind_some, Option.pure_def]
  refine ⟨_, leads_step hstep rfl, ?_, ?_, fun k hk => ?_⟩
  · rw [setChain_chain_self]
    exact hb
  · rw [setChain_chain_self]
    exact hhashed
  · rw [setChain_chain_of_ne _ _ hk]

/-- An offered success ack is executed, if its contract accepts it. -/
theorem Offered.leads_ackSuccess {desc : Text} {time : Int64} {X : Bytes} {n : ℕ}
    (h : w.Offered l m (.sendAckedTx (sys.abi.bytesText X) crossResultSuccess desc time) 0 w')
    (hcomma : ',' ∉ desc) (hquote : '\'' ∉ desc) (hdesc : byteLength desc < 2048) (htime : time.toInt = n)
    (howner : (w.shared.chain m).bridge.owner = sys.owner m) (hlength : X.length = 32)
    (hex : ((w.shared.chain m).bridge.crossTxInfo X).Exists)
    (hinit : ((w.shared.chain m).bridge.crossTxInfo X).status = .init)
    (hfunds : ((w.shared.chain m).bridge.crossTxInfo X).amount ≤ (w.shared.chain m).bridge.balance)
    (hlow : ((w.shared.chain m).bridge.crossTxInfo X).createTimestamp < n)
    (hhigh : n < ((w.shared.chain m).bridge.crossTxInfo X).timeout) :
    ∃ w'', Leads sys w' w'' ∧
      (w''.shared.chain m).bridge.crossTxInfo X = { (w.shared.chain m).bridge.crossTxInfo X with
        status := .ackSuccess, executeTimestamp := n } ∧
      (∀ k, (w''.shared.chain k).hashed = (w.shared.chain k).hashed) ∧
      ∀ k, k ≠ m → (w''.shared.chain k).bridge = (w.shared.chain k).bridge := by
  obtain ⟨hash, hpool⟩ := h.pool
  have hbridge := (h.idle m).bridge
  rw [← hbridge] at howner hex hinit hfunds hlow hhigh
  have hiff : (∃ b r, Bridge.exec m sys.sha256 (w'.shared.chain m).bridge
      ⟨sys.owner m, 0, (w'.shared.chain m).now, fun _ => true⟩ (.sendAckedTx X 1 desc n) = .ok (b, r)) ↔ _ :=
    ackSuccess_iff howner.symm rfl hlength hex hinit hdesc hfunds
  obtain ⟨b, receipt, hexec⟩ := hiff.mpr ⟨⟨hhigh, hlow⟩, rfl⟩
  let input : TxInput := .sendAckedTx (sys.abi.bytesText X) crossResultSuccess desc time
  have hcall : sys.abi.decodeCall input.function input.args = some (.sendAckedTx X 1 desc n) :=
    Scene.decodeCall_ack (S := ⟨sys, fun _ => 0, ∅⟩) (k := 1) rfl (by decide) htime hcomma hquote
  obtain ⟨w'', hleads, hb, hhashed, hother⟩ := leads_executed hpool hcall hexec
  refine ⟨w'', hleads, ?_, fun k => ?_, fun k hk => ?_⟩
  · rw [hb, ← hbridge]
    cases exec_accepted hexec with
    | ackFailure _ _ _ _ _ _ _ _ _ _ _ _ result_eq => omega
    | ackSuccess => rw [store_crossTxInfo, Function.update_self]
  · by_cases hk : k = m
    · subst hk
      exact hhashed.trans (h.idle k).hashed
    · rw [hother k hk, (h.idle k).hashed]
  · rw [hother k hk, (h.idle k).bridge]

/-- The records are formed after every run. -/
theorem run_formed {chainId timeout now : Layer → ℕ} {labels : List (Label T)}
    (h : run sys (initial sys chainId timeout now) labels = some w) (l : Layer) :
    (w.shared.chain l).bridge.Formed l := by
  have hboth : (w.shared.chain l).bridge.WellFormed ∧ (w.shared.chain l).bridge.Formed l := by
    refine run_induction
      (P := fun u => (u.shared.chain l).bridge.WellFormed ∧ (u.shared.chain l).bridge.Formed l)
      ⟨deploy_wellFormed _ _ _, deploy_formed l _ _ _⟩ ?_ h
    intro u label u' hu hstep
    rcases (step_steps hstep).idle_or_calls l with hidle | ⟨_, _, _, hcalls⟩
    · rwa [hidle.bridge]
    · exact ⟨hcalls.accepted.wellFormed hu.1, hcalls.accepted.formed hu.1 hu.2⟩
  exact hboth.2

/-- The balance covers every live record. -/
theorem run_covered {chainId timeout now : Layer → ℕ} {labels : List (Label T)}
    (h : run sys (initial sys chainId timeout now) labels = some w) {l : Layer} {X : Bytes}
    (hlive : ((w.shared.chain l).bridge.crossTxInfo X).Live) :
    ((w.shared.chain l).bridge.crossTxInfo X).amount ≤ (w.shared.chain l).bridge.balance := by
  have hsound : (chronicle sys l (initial sys chainId timeout now) labels).Sound :=
    run_sound (sys.owner l) (chainId l) (timeout l) _
  have hstate := chronicle_state h l
  rw [← hstate] at hlive ⊢
  exact hsound.amount_le hlive

/-- What is the case with a transfer in a reachable world. -/
structure Standing (sys : System) (w : World T) (l : Layer) (X : Bytes) : Prop where
  length : X.length = 32
  owner : ∀ k, (w.shared.chain k).bridge.owner = sys.owner k
  started : w.Started l X
  keyed : ((w.shared.chain l).bridge.crossTxInfo X).crossTxId = X
  source : ((w.shared.chain l).bridge.crossTxInfo X).Formed true
  success : ((w.shared.chain l).bridge.crossTxInfo X).status = .ackSuccess →
    ((w.shared.chain l.other).bridge.crossTxInfo X).Exists ∧ w.Logged l (.sendAckedTxEvent X) ∧
      ((w.shared.chain l).bridge.crossTxInfo X).executeTimestamp =
        saturate ((w.shared.chain l.other).bridge.crossTxInfo X).executeTimestamp
  blank : ¬((w.shared.chain l.other).bridge.crossTxInfo X).Exists →
    (w.shared.chain l.other).bridge.crossTxInfo X = {}
  escrow : ((w.shared.chain l.other).bridge.crossTxInfo X).Exists →
    ((w.shared.chain l.other).bridge.crossTxInfo X).crossTxId = X ∧
    ((w.shared.chain l.other).bridge.crossTxInfo X).Formed false ∧
    Books.Copies ((w.shared.chain l).bridge.crossTxInfo X)
      ((w.shared.chain l.other).bridge.crossTxInfo X) ∧
    w.Logged l.other (.sendTxEvent X) ∧
    (((w.shared.chain l.other).bridge.crossTxInfo X).status = .init ∨
      ((w.shared.chain l.other).bridge.crossTxInfo X).status = .ackSuccess ∧
        ((w.shared.chain l).bridge.crossTxInfo X).status = .ackSuccess)
  covered : ∀ k, ((w.shared.chain k).bridge.crossTxInfo X).Live →
    ((w.shared.chain k).bridge.crossTxInfo X).amount ≤ (w.shared.chain k).bridge.balance
  received : ∀ tx ∈ (w.shared.chain l.other).pool, tx.input.SendsTx (sys.abi.bytesText X) →
    tx.Escrows sys.abi ((w.shared.chain l).bridge.crossTxInfo X) X

/-- In every run. -/
theorem run_standing {chainId timeout now : Layer → ℕ} (hcid : ∀ l, chainId l ≠ 0)
    {labels : List (Label T)} (h : run sys (initial sys chainId timeout now) labels = some w)
    (hinj : Set.InjOn sys.sha256.hash w.hashedWords) {X : Bytes}
    (hX : Books.Known sys.sha256 chainId w.shared.books l X) : w.Standing sys l X := by
  have hkept := Scene.run_kept hcid h hinj
  have hwit := Scene.run_witnessed hcid h hinj
  have hgood := hkept.holds.good
  have hA : Scene.Assumptions ⟨sys, chainId, w.hashedWords⟩ := ⟨hcid, hinj⟩
  have hchain : ∀ k, (w.shared.chain k).bridge.chainId = chainId k := fun k => (hgood.chains k).chainId
  obtain ⟨hex, hst⟩ : ((w.shared.chain l).bridge.crossTxInfo X).Exists ∧
      isStarted l (chainId l) ((w.shared.chain l).bridge.crossTxInfo X).srcChainId = true :=
    hgood.books.of_known hX
  have hsource := run_formed h l X hex
  rw [hchain, hst] at hsource
  exact
    { length := by
        obtain ⟨src, dest, amount, time, _, rfl, _⟩ := hX
        exact sys.sha256.length_hash _
      owner := fun k => (hgood.chains k).owner
      started := hwit.known l X hX
      keyed := hgood.books.keyed l X hex
      source := hsource
      success := fun hs => by
        obtain ⟨hs', htime⟩ := hgood.books.success l X hX hs
        exact ⟨hs'.1, hwit.success l X hX hs, htime⟩
      blank := fun hno => hgood.books.blank l.other X (not_not.mp hno)
      escrow := fun hex' => by
        have hs := hgood.books.sent_of_exists hA hX hex'
        have hno : isStarted l.other (chainId l.other)
            ((w.shared.chain l.other).bridge.crossTxInfo X).srcChainId = false := hs.2
        have hformed := run_formed h l.other X hex'
        rw [hchain, hno] at hformed
        have hcopies := hgood.books.sentCopies l.other X hs
        have hstatus := hgood.books.sentStatus l.other X hs
        rw [Layer.other_other] at hcopies hstatus
        exact ⟨hgood.books.keyed l.other X hex', hformed, hcopies, hwit.sent l.other X hs, hstatus⟩
      covered := fun k hlive => run_covered h hlive
      received := fun tx hmem hsends =>
        Scene.Justified.escrows (S := ⟨sys, chainId, w.hashedWords⟩)
          ((hgood.chains l.other).posted _ ((hgood.chains l.other).pool tx hmem)) hsends tx.hash }

namespace Standing

variable {X : Bytes}

/-- The description of an error is short enough for a contract. -/
theorem errorDesc_short (h : Handle) (info : Protocol.CrossTxInfo) :
    byteLength (Handle.errorDesc h info) < 2048 := by
  unfold Handle.errorDesc
  split
  · decide
  · cases h <;> decide

/-- The source acknowledges an escrow that was executed in time. -/
theorem leads_acked (t : T) (hs : w.Standing sys l X)
    (hinit : ((w.shared.chain l).bridge.crossTxInfo X).status = .init)
    (hex : ((w.shared.chain l.other).bridge.crossTxInfo X).Exists)
    (hlow : ((w.shared.chain l).bridge.crossTxInfo X).createTimestamp <
      ((w.shared.chain l.other).bridge.crossTxInfo X).executeTimestamp)
    (hhigh : ((w.shared.chain l.other).bridge.crossTxInfo X).executeTimestamp <
      saturate ((w.shared.chain l).bridge.crossTxInfo X).timeout) :
    ∃ w', Leads sys w w' ∧ (∀ k, (w'.shared.chain k).hashed = (w.shared.chain k).hashed) ∧
      (w'.shared.chain l).bridge.crossTxInfo X = { (w.shared.chain l).bridge.crossTxInfo X with
        status := .ackSuccess
        executeTimestamp := ((w.shared.chain l.other).bridge.crossTxInfo X).executeTimestamp } ∧
      (w'.shared.chain l.other).bridge.crossTxInfo X =
        (w.shared.chain l.other).bridge.crossTxInfo X := by
  obtain ⟨hkeyed, _, _, ⟨time, hlog⟩, _⟩ := hs.escrow hex
  let escrow := (w.shared.chain l.other).bridge.crossTxInfo X
  let info : Protocol.CrossTxInfo :=
    { sys.abi.infoOf escrow escrow with status := crossResultSuccess }
  have hinput : Handle.sendAckedTxInput l info = .sendAckedTx (sys.abi.bytesText X) crossResultSuccess
      (Handle.errorDesc l info) (stol (decimal escrow.executeTimestamp)) := by
    rw [← hkeyed]
    rfl
  have hcan : ∀ u : Shared T, (∀ s, u.locks s = none) →
      (∀ k, (u.chain k).bridge = (w.shared.chain k).bridge) →
        Shared.Can sys t (fun _ => u.Submitted l (Handle.sendAckedTxInput l info) 0)
          (HandleManager.run sys.su (.tlog l.other .sendTxTopic (sys.abi.bytesText X))) u := by
    intro u hfree hbridge
    have hhandler : HandleManager.run sys.su (.tlog l.other .sendTxTopic (sys.abi.bytesText X)) =
        Handle.handleSendTxEvent sys.su l (sys.abi.bytesText X) := by
      cases l <;> rfl
    rw [hhandler]
    exact Shared.can_handleSendTxEvent l X hfree (by rw [hbridge])
  obtain ⟨w₁, hleads, hoffer⟩ := leads_offered t hlog rfl hcan
  rw [hinput] at hoffer
  obtain ⟨hcomma, hquote⟩ := Scene.errorDesc_plain l info
  have hsat := saturate_lt ((w.shared.chain l).bridge.crossTxInfo X).timeout
  have hle : saturate ((w.shared.chain l).bridge.crossTxInfo X).timeout ≤
      ((w.shared.chain l).bridge.crossTxInfo X).timeout := min_le_left _ _
  have hexists : ((w.shared.chain l).bridge.crossTxInfo X).Exists := by
    rw [CrossTxInfo.Exists, hs.keyed]
    exact ne_nil_of_length hs.length
  obtain ⟨w₂, hexecuted, hrecord, hhashed, hother⟩ := hoffer.leads_ackSuccess hcomma hquote
    (errorDesc_short l info) (stol_decimal_of_lt (hhigh.trans hsat)) (hs.owner l) hs.length hexists hinit
    (hs.covered l ⟨hexists, Or.inl hinit⟩) hlow (hhigh.trans_le hle)
  exact ⟨w₂, hleads.trans hexecuted, hhashed, hrecord, by rw [hother _ (Layer.other_ne l)]⟩

/-- The other layer gets the reply of a source that acknowledged a success. -/
theorem leads_replied (t : T) (hs : w.Standing sys l X)
    (hsuccess : ((w.shared.chain l).bridge.crossTxInfo X).status = .ackSuccess)
    (hinit : ((w.shared.chain l.other).bridge.crossTxInfo X).status = .init)
    (hhigh : ((w.shared.chain l).bridge.crossTxInfo X).executeTimestamp <
      saturate ((w.shared.chain l).bridge.crossTxInfo X).timeout) :
    ∃ w', Leads sys w w' ∧ (∀ k, (w'.shared.chain k).hashed = (w.shared.chain k).hashed) ∧
      ((w'.shared.chain l).bridge.crossTxInfo X).status = .ackSuccess ∧
      ((w'.shared.chain l.other).bridge.crossTxInfo X).status = .ackSuccess := by
  obtain ⟨hex, ⟨time, hlog⟩, _⟩ := hs.success hsuccess
  obtain ⟨_, hformed, hcopies, _⟩ := hs.escrow hex
  let source := (w.shared.chain l).bridge.crossTxInfo X
  let info : Protocol.CrossTxInfo := sys.abi.infoOf source source
  have hinput : Handle.sendAckedTxInput l info = .sendAckedTx (sys.abi.bytesText X) crossResultSuccess
      (Handle.errorDesc l info) (stol (decimal source.executeTimestamp)) := by
    have hstatus : stoi (decimal source.status.toNat) = crossResultSuccess := by
      rw [hsuccess]
      decide
    have hid : source.crossTxId = X := hs.keyed
    rw [Handle.sendAckedTxInput, ← hstatus]
    simp only [info, NodeAbi.infoOf, hid]
  have hcan : ∀ u : Shared T, (∀ s, u.locks s = none) →
      (∀ k, (u.chain k).bridge = (w.shared.chain k).bridge) →
        Shared.Can sys t (fun _ => u.Submitted l.other (Handle.sendAckedTxInput l info) 0)
          (HandleManager.run sys.su (.tlog l .ackTxTopic (sys.abi.bytesText X))) u := by
    intro u hfree hbridge
    have hhandler : HandleManager.run sys.su (.tlog l .ackTxTopic (sys.abi.bytesText X)) =
        Handle.handleSendAckdTxEvent sys.su l (sys.abi.bytesText X) := by
      cases l <;> rfl
    rw [hhandler]
    exact Shared.can_handleSendAckdTxEvent l X hfree (by rw [hbridge])
  obtain ⟨w₁, hleads, hoffer⟩ := leads_offered t hlog rfl hcan
  rw [hinput] at hoffer
  obtain ⟨hcomma, hquote⟩ := Scene.errorDesc_plain l info
  have hsat := saturate_lt source.timeout
  have hpos := (hs.source.window hsuccess).1
  obtain ⟨w₂, hexecuted, hrecord, hhashed, hother⟩ := hoffer.leads_ackSuccess hcomma hquote
    (errorDesc_short l info) (stol_decimal_of_lt (hhigh.trans hsat)) (hs.owner l.other) hs.length hex hinit
    (hs.covered l.other ⟨hex, Or.inl hinit⟩) (hformed.create rfl ▸ Nat.zero_lt_of_lt hpos)
    (hcopies.timeout ▸ hhigh)
  refine ⟨w₂, hleads.trans hexecuted, hhashed, ?_, by rw [hrecord]⟩
  rw [hother l (Layer.other_ne l).symm]
  exact hsuccess

omit [DecidableEq T] in
/-- The submission that a handler makes for its start event escrows the transfer. -/
theorem escrows_infoOf (hs : w.Standing sys l X) (hash : Text) :
    let source := (w.shared.chain l).bridge.crossTxInfo X
    (⟨hash, Handle.sendTxInput (sys.abi.infoOf source source), (sys.abi.infoOf source source).amount⟩ :
      AgentTx).Escrows sys.abi source X := by
  intro source
  have hamount : (sys.abi.infoOf source source).amount.toInt = saturate source.amount := stol_decimal _
  have htimeout : (sys.abi.infoOf source source).timeout.toInt = saturate source.timeout := stol_decimal _
  have hsmall : ∀ n, saturate n < 2 ^ 256 := fun n => (saturate_lt n).trans (by decide)
  have hid : source.crossTxId = X := hs.keyed
  refine ⟨?_, by rw [hamount, Int.toNat_natCast]⟩
  rw [Handle.sendTxInput, TxInput.args_sendTx, formatLd_of_toInt hamount, formatLd_of_toInt htimeout,
    NodeAbi.infoOf, hid]
  exact sys.abi.decodeCall_sendTx _ _ _ _ _ (hsmall _) (hsmall _)

/-- A transfer that has no escrow yet is escrowed, at any time that is in time: by a `SendTx` that the
node has received, or by one that the handler of its start event submits. From layer 2 the handler
submits it before the agent's clock is past the timeout. -/
theorem leads_escrowed (t : T) (hs : w.Standing sys l X) {time : ℕ}
    (hno : ¬((w.shared.chain l.other).bridge.crossTxInfo X).Exists)
    (hnow : (w.shared.chain l.other).now ≤ time)
    (hhigh : time < saturate ((w.shared.chain l).bridge.crossTxInfo X).timeout)
    (hagent : l = .layer2 →
      w.shared.clock.toInt ≤ saturate ((w.shared.chain l).bridge.crossTxInfo X).timeout ∨
        ∃ tx ∈ (w.shared.chain l.other).pool, tx.input.SendsTx (sys.abi.bytesText X)) :
    ∃ w', Leads sys w w' ∧ (∀ k, (w'.shared.chain k).hashed = (w.shared.chain k).hashed) ∧
      (w'.shared.chain l).bridge.crossTxInfo X = (w.shared.chain l).bridge.crossTxInfo X ∧
      ((w'.shared.chain l.other).bridge.crossTxInfo X).Exists ∧
      ((w'.shared.chain l.other).bridge.crossTxInfo X).executeTimestamp = time := by
  obtain ⟨start, hlog, _⟩ := hs.started
  let source := (w.shared.chain l).bridge.crossTxInfo X
  obtain ⟨w₁, hleads, hrested, tx, hmem, hcall, hvalue⟩ : ∃ w₁, Leads sys w w₁ ∧ w.Rested l w₁ ∧
      ∃ tx ∈ (w₁.shared.chain l.other).pool, tx.Escrows sys.abi source X := by
    by_cases hreceived : ∃ tx ∈ (w.shared.chain l.other).pool, tx.input.SendsTx (sys.abi.bytesText X)
    · obtain ⟨tx, hmem, hsends⟩ := hreceived
      exact ⟨w, .refl, .refl w l, tx, hmem, hs.received tx hmem hsends⟩
    · obtain ⟨w₁, hleads, hoffer⟩ :=
        leads_offered_start (l := l) t hlog fun hl => (hagent hl).resolve_right hreceived
      obtain ⟨hash, hmem⟩ := hoffer.pool
      exact ⟨w₁, hleads, hoffer.toRested, _, hmem, hs.escrows_infoOf hash⟩
  have hbridge := (hrested.idle l.other).bridge
  obtain ⟨w₂, hwaited, hself, hothers⟩ := leads_waited (w := w₁) (m := l.other) sys
    (hrested.now l.other (Layer.other_ne l) ▸ hnow)
  rw [show (w₁.shared.chain l.other).pool = (w₂.shared.chain l.other).pool by rw [hself]] at hmem
  have hbridge₂ : (w₂.shared.chain l.other).bridge = (w.shared.chain l.other).bridge := by
    rw [hself]
    exact hbridge
  have hexec : Bridge.exec l.other sys.sha256 (w₂.shared.chain l.other).bridge
      ⟨sys.owner l.other, saturate source.amount, (w₂.shared.chain l.other).now, fun _ => true⟩
      (.sendTx X source.srcBid source.destBid (saturate source.amount) (saturate source.timeout)) =
        .ok (_, _) :=
    exec_sendTx (by rw [hbridge₂, hs.owner]) hs.length hs.source.nonzero.1 hs.source.nonzero.2
      (by rw [hself]; exact inTime_of_lt hhigh _) (by rw [hbridge₂]; exact hs.blank hno)
  rw [← hvalue] at hcall hexec
  obtain ⟨w₃, hexecuted, hb, hhashed, hother⟩ := leads_executed hmem hcall hexec
  refine ⟨w₃, (hleads.trans hwaited).trans hexecuted, fun k => ?_, ?_, ?_, ?_⟩
  · by_cases hk : k = l.other
    · subst hk
      rw [hhashed, hself]
      exact (hrested.idle l.other).hashed
    · rw [hother k hk, hothers k hk, (hrested.idle k).hashed]
  · have hl := (Layer.other_ne l).symm
    rw [hother l hl, hothers l hl, (hrested.idle l).bridge]
  · rw [hb, store_crossTxInfo, Function.update_self]
    exact ne_nil_of_length hs.length
  · rw [hb, store_crossTxInfo, Function.update_self, hself]
    rfl

end Standing

/-- What was hashed stays hashed along a run. -/
theorem run_hashed_subset {labels : List (Label T)} (h : run sys w labels = some w') (l : Layer) :
    (w.shared.chain l).hashed ⊆ (w'.shared.chain l).hashed := by
  refine run_induction (P := fun u => (w.shared.chain l).hashed ⊆ (u.shared.chain l).hashed)
    (List.Subset.refl _) ?_ h
  intro u label u' hu hstep
  exact List.Subset.trans hu ((step_steps hstep).hashed_subset l)

end World

namespace Scene

variable {S : Scene} {w w' : World T}

/-- The invariant goes on along a run, and the books develop. -/
theorem run_later (hA : S.Assumptions) (hw : S.Holds w) {labels : List (Label T)}
    (h : World.run S.sys w labels = some w')
    (hH : ∀ l, ∀ words ∈ (w'.shared.chain l).hashed, words ∈ S.H) :
    S.Holds w' ∧ S.Later w.shared.books w'.shared.books := by
  refine World.run_induction (P := fun u => (∀ l, ∀ words ∈ (u.shared.chain l).hashed, words ∈ S.H) →
    S.Holds u ∧ S.Later w.shared.books u.shared.books) (fun _ => ⟨hw, Books.Later.refl _⟩) ?_ h hH
  intro u label u' hu hstep hH'
  have hsteps := World.step_steps hstep
  obtain ⟨hhu, hlater⟩ := hu fun l words hmem => hH' l words (hsteps.hashed_subset l hmem)
  exact ⟨hhu.step hA hsteps hH', hlater.trans (hhu.later hA hsteps hH')⟩

/-- An escrow that does not exist yet will be executed at a later time. -/
theorem run_escrow_time (hA : S.Assumptions) (hw : S.Holds w) {l : Layer} {X : Bytes}
    (hX : S.Known w.shared.books l X) (hno : ¬((w.shared.chain l.other).bridge.crossTxInfo X).Exists)
    {labels : List (Label T)} (h : World.run S.sys w labels = some w')
    (hH : ∀ l, ∀ words ∈ (w'.shared.chain l).hashed, words ∈ S.H)
    (hex : ((w'.shared.chain l.other).bridge.crossTxInfo X).Exists) :
    saturate (w.shared.chain l.other).now ≤
      saturate ((w'.shared.chain l.other).bridge.crossTxInfo X).executeTimestamp := by
  refine World.run_induction (P := fun u => (∀ l, ∀ words ∈ (u.shared.chain l).hashed, words ∈ S.H) →
    (S.Holds u ∧ S.Later w.shared.books u.shared.books) ∧
      (((u.shared.chain l.other).bridge.crossTxInfo X).Exists → saturate (w.shared.chain l.other).now ≤
        saturate ((u.shared.chain l.other).bridge.crossTxInfo X).executeTimestamp))
    (fun _ => ⟨⟨hw, Books.Later.refl _⟩, fun hex => absurd hex hno⟩) ?_ h hH |>.2 hex
  intro u label u' hu hstep hH'
  have hsteps := World.step_steps hstep
  obtain ⟨⟨hhu, hlater⟩, htime⟩ := hu fun l words hmem => hH' l words (hsteps.hashed_subset l hmem)
  have hnext := hhu.later hA hsteps hH'
  have hknown := hX.later hlater
  refine ⟨⟨hhu.step hA hsteps hH', hlater.trans hnext⟩, fun hex' => ?_⟩
  by_cases hold : ((u.shared.chain l.other).bridge.crossTxInfo X).Exists
  · have hsent := hhu.good.books.sent_of_exists hA hknown hold
    exact (htime hold).trans_eq (hnext.sent _ _ hsent).2.symm
  · rw [(hhu.escrow_executed hA hstep hH' hknown hold hex').2]
    exact min_le_min_right _ (hlater.now l.other)

end Scene

/-- A success of the source can be replied to. -/
theorem World.Standing.leads_settled {sys : System} {w : World T} {l : Layer} {X : Bytes} (t : T)
    (hs : w.Standing sys l X) (hsuccess : ((w.shared.chain l).bridge.crossTxInfo X).status = .ackSuccess)
    (hhigh : ((w.shared.chain l.other).bridge.crossTxInfo X).executeTimestamp <
      saturate ((w.shared.chain l).bridge.crossTxInfo X).timeout) : ∃ w',
    World.Leads sys w w' ∧ (∀ k, (w'.shared.chain k).hashed = (w.shared.chain k).hashed) ∧
      ((w'.shared.chain l).bridge.crossTxInfo X).status = .ackSuccess ∧
      ((w'.shared.chain l.other).bridge.crossTxInfo X).status = .ackSuccess := by
  obtain ⟨hex, _, htime⟩ := hs.success hsuccess
  obtain ⟨_, _, _, _, hinit | ⟨hacked, _⟩⟩ := hs.escrow hex
  · refine hs.leads_replied t hsuccess hinit ?_
    rw [htime]
    exact (min_le_left _ _).trans_lt hhigh
  · exact ⟨w, .refl, fun _ => rfl, hsuccess, hacked⟩

/-- A transfer that the system knows in a reachable world. -/
structure World.Reached (sys : System) (chainId : Layer → ℕ) (w : World T) (l : Layer) (X : Bytes) : Prop where
  chainId_ne_zero : ∀ l, chainId l ≠ 0
  run : ∃ timeout now labels, World.run sys (World.initial sys chainId timeout now) labels = some w
  injOn : Set.InjOn sys.sha256.hash w.hashedWords
  known : Books.Known sys.sha256 chainId w.shared.books l X

namespace World.Reached

variable {sys : System} {chainId : Layer → ℕ} {w w' : World T} {l : Layer} {X : Bytes}

/-- It stands as every transfer does. -/
theorem standing (h : w.Reached sys chainId l X) : w.Standing sys l X := by
  obtain ⟨timeout, now, labels, hrun⟩ := h.run
  exact World.run_standing h.chainId_ne_zero hrun h.injOn h.known

/-- A continuation that hashes nothing hashes nothing twice, and knows the transfer. -/
theorem leads (h : w.Reached sys chainId l X) (hleads : World.Leads sys w w')
    (hhashed : ∀ k, (w'.shared.chain k).hashed = (w.shared.chain k).hashed) : w'.Reached sys chainId l X := by
  have hwords : w'.hashedWords = w.hashedWords := by
    simp only [World.hashedWords, hhashed]
  obtain ⟨timeout, now, labels, hrun⟩ := h.run
  obtain ⟨labels', hrun'⟩ := hleads.exists_run
  obtain ⟨hA, hw⟩ := run_scene h.chainId_ne_zero hrun h.injOn
  have hlater := (Scene.run_later hA hw hrun' fun k words hmem => ⟨k, hhashed k ▸ hmem⟩).2
  exact ⟨h.chainId_ne_zero, ⟨timeout, now, labels ++ labels', World.run_append hrun hrun'⟩, hwords ▸ h.injOn,
    h.known.later hlater⟩

/-- An escrow in time is acknowledged and replied to. -/
theorem leads_settled_of_escrow (h : w.Reached sys chainId l X) (t : T)
    (hinit : ((w.shared.chain l).bridge.crossTxInfo X).status = .init)
    (hex : ((w.shared.chain l.other).bridge.crossTxInfo X).Exists)
    (hlow : ((w.shared.chain l).bridge.crossTxInfo X).createTimestamp <
      ((w.shared.chain l.other).bridge.crossTxInfo X).executeTimestamp)
    (hhigh : ((w.shared.chain l.other).bridge.crossTxInfo X).executeTimestamp <
      saturate ((w.shared.chain l).bridge.crossTxInfo X).timeout) : ∃ w',
    World.Leads sys w w' ∧ (∀ k, (w'.shared.chain k).hashed = (w.shared.chain k).hashed) ∧
      ((w'.shared.chain l).bridge.crossTxInfo X).status = .ackSuccess ∧
      ((w'.shared.chain l.other).bridge.crossTxInfo X).status = .ackSuccess := by
  obtain ⟨w₁, hleads₁, hhashed₁, hsource, hescrow⟩ := h.standing.leads_acked t hinit hex hlow hhigh
  obtain ⟨w₂, hleads₂, hhashed₂, hdone⟩ := (h.leads hleads₁ hhashed₁).standing.leads_settled t
    (by rw [hsource]) (by rw [hescrow, hsource]; exact hhigh)
  exact ⟨w₂, hleads₁.trans hleads₂, fun k => (hhashed₂ k).trans (hhashed₁ k), hdone⟩

/-- A transfer that is still open settles on some continuation. -/
theorem leads_settled (h : w.Reached sys chainId l X) (t : T) {time : ℕ}
    (hopen : ((w.shared.chain l).bridge.crossTxInfo X).status = .init ∨
      ((w.shared.chain l).bridge.crossTxInfo X).status = .ackSuccess)
    (hlow : ((w.shared.chain l).bridge.crossTxInfo X).createTimestamp < time)
    (hhigh : time < saturate ((w.shared.chain l).bridge.crossTxInfo X).timeout)
    (htime : if ((w.shared.chain l.other).bridge.crossTxInfo X).Exists
      then ((w.shared.chain l.other).bridge.crossTxInfo X).executeTimestamp = time
      else (w.shared.chain l.other).now ≤ time)
    (hagent : l = .layer2 → ¬((w.shared.chain l.other).bridge.crossTxInfo X).Exists →
      w.shared.clock.toInt ≤ saturate ((w.shared.chain l).bridge.crossTxInfo X).timeout ∨
        ∃ tx ∈ (w.shared.chain l.other).pool, tx.input.SendsTx (sys.abi.bytesText X)) : ∃ w',
    World.Leads sys w w' ∧ (∀ k, (w'.shared.chain k).hashed = (w.shared.chain k).hashed) ∧
      ((w'.shared.chain l).bridge.crossTxInfo X).status = .ackSuccess ∧
      ((w'.shared.chain l.other).bridge.crossTxInfo X).status = .ackSuccess := by
  have hs := h.standing
  cases hopen with
  | inr hsuccess =>
    rw [if_pos (hs.success hsuccess).1] at htime
    exact hs.leads_settled t hsuccess (htime ▸ hhigh)
  | inl hinit =>
    by_cases hex : ((w.shared.chain l.other).bridge.crossTxInfo X).Exists
    · rw [if_pos hex] at htime
      exact h.leads_settled_of_escrow t hinit hex (htime ▸ hlow) (htime ▸ hhigh)
    · rw [if_neg hex] at htime
      obtain ⟨w₁, hleads₁, hhashed₁, hsource, hex₁, htime₁⟩ :=
        hs.leads_escrowed t hex htime hhigh fun hl => hagent hl hex
      rw [← hsource] at hinit hlow hhigh
      obtain ⟨w₂, hleads₂, hhashed₂, hdone⟩ := (h.leads hleads₁ hhashed₁).leads_settled_of_escrow t hinit hex₁
        (htime₁ ▸ hlow) (htime₁ ▸ hhigh)
      exact ⟨w₂, hleads₁.trans hleads₂, fun k => (hhashed₂ k).trans (hhashed₁ k), hdone⟩

end World.Reached

namespace Scene

variable {sys : System} {chainId timeout now : Layer → ℕ} {labels : List (Label T)} {w w' : World T} {l : Layer}
  {X : Bytes}

/-- The world of a run and a continuation of it, as one scene. -/
theorem run_continued (hcid : ∀ l, chainId l ≠ 0)
    (h : World.run sys (World.initial sys chainId timeout now) labels = some w) {labels' : List (Label T)}
    (hrun : World.run sys w labels' = some w') (hinj : Set.InjOn sys.sha256.hash w'.hashedWords) :
    let S : Scene := ⟨sys, chainId, w'.hashedWords⟩
    S.Assumptions ∧ S.Holds w ∧ S.Later w.shared.books w'.shared.books := by
  intro S
  have hA : S.Assumptions := ⟨hcid, hinj⟩
  have hw : S.Holds w := Scene.run_holds hA h fun l words hmem =>
    ⟨l, World.run_hashed_subset hrun l hmem⟩
  exact ⟨hA, hw, (Scene.run_later hA hw hrun fun l _ hmem => ⟨l, hmem⟩).2⟩

/-- A transfer that is settled in the end had not failed before, and was escrowed in time. -/
theorem possible_of_settled (hcid : ∀ l, chainId l ≠ 0)
    (h : World.run sys (World.initial sys chainId timeout now) labels = some w)
    (hX : Books.Known sys.sha256 chainId w.shared.books l X) {labels' : List (Label T)}
    (hrun : World.run sys w labels' = some w') (hinj : Set.InjOn sys.sha256.hash w'.hashedWords)
    (hsource : ((w'.shared.chain l).bridge.crossTxInfo X).status = .ackSuccess)
    (hescrow : ((w'.shared.chain l.other).bridge.crossTxInfo X).status = .ackSuccess) :
    let source := (w.shared.chain l).bridge.crossTxInfo X
    let escrow := (w.shared.chain l.other).bridge.crossTxInfo X
    (source.status = .init ∨ source.status = .ackSuccess) ∧ ∃ time,
      source.createTimestamp < time ∧ time < saturate source.timeout ∧
        if escrow.Exists then escrow.executeTimestamp = time else (w.shared.chain l.other).now ≤ time := by
  intro source escrow
  obtain ⟨hA, hw, hlater⟩ := run_continued hcid h hrun hinj
  have hsame := hlater.source l X hX
  have hs' := World.run_standing hcid (World.run_append h hrun) hinj (hX.later hlater)
  obtain ⟨hex', _, hexec⟩ := hs'.success hsource
  obtain ⟨_, hformed, hcopies, _⟩ := hs'.escrow hex'
  have hcreate : ((w'.shared.chain l).bridge.crossTxInfo X).createTimestamp = source.createTimestamp :=
    hsame.createTimestamp
  have htimeout : ((w'.shared.chain l).bridge.crossTxInfo X).timeout = source.timeout := hsame.timeout
  have hlow := (hs'.source.window hsource).1
  have hhigh := (hformed.window hescrow).2
  have hsat := saturate_lt source.timeout
  rw [hcopies.timeout, htimeout] at hhigh
  rw [hcreate, hexec, saturate_of_lt (hhigh.trans hsat)] at hlow
  have hopen : source.status = .init ∨ source.status = .ackSuccess := by
    by_cases hinit : source.status = .init
    · exact Or.inl hinit
    · exact Or.inr ((hsame.status hinit).symm.trans hsource)
  refine ⟨hopen, _, hlow, hhigh, ?_⟩
  split
  next hex =>
    have hsent := hlater.sent l.other X (hw.good.books.sent_of_exists hA hX hex)
    have hsaturated : saturate ((w'.shared.chain l.other).bridge.crossTxInfo X).executeTimestamp =
        saturate escrow.executeTimestamp := hsent.2
    unfold saturate at *
    omega
  next hno =>
    have hlate := Scene.run_escrow_time hA hw hX hno hrun (fun l _ hmem => ⟨l, hmem⟩) hex'
    unfold saturate at *
    omega

/-- A transfer from layer 2 that is settled in the end and had no escrow was not late, or its `SendTx` had
been received. -/
theorem received_of_settled (hcid : ∀ l, chainId l ≠ 0)
    (h : World.run sys (World.initial sys chainId timeout now) labels = some w)
    (hX : Books.Known sys.sha256 chainId w.shared.books .layer2 X) (hidle : ∀ t, w.tasks t = none)
    (hno : ¬((w.shared.chain .layer1).bridge.crossTxInfo X).Exists) (hleads : World.Leads sys w w')
    (hinj : Set.InjOn sys.sha256.hash w'.hashedWords)
    (hsource : ((w'.shared.chain .layer2).bridge.crossTxInfo X).status = .ackSuccess) :
    w.shared.clock.toInt ≤ saturate ((w.shared.chain .layer2).bridge.crossTxInfo X).timeout ∨
      ∃ tx ∈ (w.shared.chain .layer1).pool, tx.input.SendsTx (sys.abi.bytesText X) := by
  obtain ⟨labels', hrun⟩ := hleads.exists_run
  obtain ⟨hA, hw, hlater⟩ := run_continued hcid h hrun hinj
  have hescrow := (World.run_standing hcid (World.run_append h hrun) hinj (hX.later hlater)).success hsource |>.1
  by_contra hlate
  rw [not_or, not_le, not_exists] at hlate
  obtain ⟨hclock, hpool⟩ := hlate
  refine leads_unescrowed hA hw hX ⟨hclock, fun t task htask => ?_, fun tx hmem hsends => ?_⟩ hno hleads
    (fun l _ hmem => ⟨l, hmem⟩) hescrow
  · rw [hidle] at htask
    cases htask
  · exact hpool tx ⟨hmem, hsends⟩

end Scene

/-- When a transfer can still be settled. In a reachable world in which no call of the handlers is
running, however it came about, take a transfer that started in a closed block. Some continuation, in
which the agent's clock does not go back, settles it on both chains exactly when its source has not
failed, its escrow was executed, or can still be executed, after the start and before the timeout as the
submission carries it, and, if it starts on layer 2 and has no escrow, the agent's clock is not past that
timeout or the node of layer 1 has received its `SendTx`. -/
theorem settlement_possible_iff {sys : System} {chainId timeout now : Layer → ℕ}
    (hcid : ∀ l, chainId l ≠ 0) {labels : List (Label T)} {w : World T}
    (h : World.run sys (World.initial sys chainId timeout now) labels = some w)
    (hinj : Set.InjOn sys.sha256.hash w.hashedWords) (hidle : ∀ t, w.tasks t = none) (t : T) {l : Layer}
    {X : Bytes} (hX : w.Started l X) :
    let source := (w.shared.chain l).bridge.crossTxInfo X
    let escrow := (w.shared.chain l.other).bridge.crossTxInfo X
    (∃ w', World.Leads sys w w' ∧ Set.InjOn sys.sha256.hash w'.hashedWords ∧
      ((w'.shared.chain l).bridge.crossTxInfo X).status = .ackSuccess ∧
      ((w'.shared.chain l.other).bridge.crossTxInfo X).status = .ackSuccess) ↔
    ((source.status = .init ∨ source.status = .ackSuccess) ∧ ∃ time,
      source.createTimestamp < time ∧ time < saturate source.timeout ∧
        if escrow.Exists then escrow.executeTimestamp = time else (w.shared.chain l.other).now ≤ time) ∧
    (l = .layer2 → ¬escrow.Exists → w.shared.clock.toInt ≤ saturate source.timeout ∨
      ∃ tx ∈ (w.shared.chain l.other).pool, tx.input.SendsTx (sys.abi.bytesText X)) := by
  intro source escrow
  have hknown : Books.Known sys.sha256 chainId w.shared.books l X := by
    obtain ⟨time, hlog, hclosed⟩ := hX
    obtain ⟨src, dest, amount, hmem, hhash⟩ := ((run_scene hcid h hinj).2.good.chains l).log _ hlog
    exact ⟨src, dest, amount, time, hmem, hhash, hclosed⟩
  have hreached : w.Reached sys chainId l X := ⟨hcid, ⟨timeout, now, labels, h⟩, hinj, hknown⟩
  constructor
  · rintro ⟨w', hleads, hinj', hsource', hescrow'⟩
    obtain ⟨labels', hrun⟩ := hleads.exists_run
    exact ⟨Scene.possible_of_settled hcid h hknown hrun hinj' hsource' hescrow', fun hl hno => by
      subst hl
      exact Scene.received_of_settled hcid h hknown hidle hno hleads hinj' hsource'⟩
  · rintro ⟨⟨hopen, time, hlow, hhigh, htime⟩, hagent⟩
    obtain ⟨w', hleads, hhashed, hdone⟩ := hreached.leads_settled t hopen hlow hhigh htime hagent
    exact ⟨w', hleads, (hreached.leads hleads hhashed).injOn, hdone⟩

/-- A transfer that was started on layer 2 a moment ago can be settled: the agent's clock is not past its
timeout. -/
theorem settlement_possible_iff_startedRun :
    let X := sumHash.hash (startWords .layer2 2 7 8 5 3)
    ∃ w w' : World Unit,
      World.run Formats.system (World.initial Formats.system (fun _ => 2) (fun _ => 100) (fun _ => 3))
        [.user .layer2 7 5 (fun _ => true) (.startTx 7 8 5), .block .layer2 4] = some w ∧
      World.Leads Formats.system w w' ∧
      ((w'.shared.chain .layer2).bridge.crossTxInfo X).status = .ackSuccess ∧
      ((w'.shared.chain .layer1).bridge.crossTxInfo X).status = .ackSuccess := by
  intro X
  have hcheck : ((World.run Formats.system
      (World.initial (T := Unit) Formats.system (fun _ => 2) (fun _ => 100) (fun _ => 3))
        [.user .layer2 7 5 (fun _ => true) (.startTx 7 8 5), .block .layer2 4]).any
      fun w => (w.shared.chain .layer1).hashed = [] ∧
        (w.shared.chain .layer2).hashed = [startWords .layer2 2 7 8 5 3] ∧
        (w.shared.chain .layer2).log[0]? = some (3, .startTxEvent X) ∧
        (w.shared.chain .layer2).now = 4 ∧
        ((w.shared.chain .layer2).bridge.crossTxInfo X).status = .init ∧
        ((w.shared.chain .layer2).bridge.crossTxInfo X).createTimestamp < 4 ∧
        4 < saturate ((w.shared.chain .layer2).bridge.crossTxInfo X).timeout ∧
        ((w.shared.chain .layer1).bridge.crossTxInfo X).crossTxId = [] ∧
        (w.shared.chain .layer1).now ≤ 4 ∧
        w.shared.clock.toInt ≤ (saturate ((w.shared.chain .layer2).bridge.crossTxInfo X).timeout : ℤ) ∧
        (w.tasks ()).isNone) = true := by
    decide +kernel
  obtain ⟨w, hrun, hw⟩ := (Option.any_eq_true _ _).mp hcheck
  obtain ⟨h1, h2, hlog, hnow, hinit, hlow, hhigh, hno, hlate, hclock, hidle⟩ := of_decide_eq_true hw
  have hinj : Set.InjOn sumHash.hash w.hashedWords := by
    refine Formats.injOn_of_words (startWords .layer2 2 7 8 5 3) fun l v hv => ?_
    cases l with
    | layer1 => simp only [h1, List.not_mem_nil] at hv
    | layer2 => exact List.mem_singleton.mp (h2 ▸ hv)
  have hstarted : w.Started .layer2 X := ⟨3, List.mem_of_getElem? hlog, by rw [hnow]; decide⟩
  obtain ⟨w', hleads, _, hdone⟩ := (settlement_possible_iff (fun _ => by decide) hrun hinj
    (fun _ => Option.isNone_iff_eq_none.mp hidle) () hstarted).mpr
      ⟨⟨Or.inl hinit, 4, hlow, hhigh, by rw [if_neg (fun hex => hex hno)]; exact hlate⟩,
        fun _ _ => Or.inl hclock⟩
  exact ⟨w, w', hrun, hleads, hdone⟩

end CrosschainAgent
