import CrosschainAgent.Session.Confirmations
import CrosschainAgent.System.Continuations
import CrosschainAgent.System.Finality

/-!
# A transfer that is late on the agent's clock

A transfer that starts on layer 2 is escrowed by a confirmation, which submits its `SendTx` only as long
as the agent's clock is not past the timeout. From then on no handler submits it, and without a `SendTx`
that the node of layer 1 received before no escrow comes about.
-/

namespace CrosschainAgent

open Interaction Bridge Strings

/-- The submission is the `SendTx` of the transfer. -/
def TxInput.SendsTx (id : Text) : TxInput → Prop
  | .sendTx crossTxId _ _ _ _ => crossTxId = id
  | .sendAckedTx _ _ _ _ => False

/-- A node reads the transaction as the `SendTx` that escrows the transfer of the record, and it pays the
amount. -/
def AgentTx.Escrows (tx : AgentTx) (abi : NodeAbi) (r : CrossTxInfo) (X : Bytes) : Prop :=
  abi.decodeCall tx.input.function tx.input.args =
      some (.sendTx X r.srcBid r.destBid (saturate r.amount) (saturate r.timeout)) ∧
    tx.amount.toInt.toNat = saturate r.amount

section Withholds

variable {su : Setup} {id : Text} {timeout : ℕ}

/-- An answer that a thread gets when the timeout of the transfer is past: the clock is past it, and an
entry of the transfer in the start map has it. -/
def Op.AnsweredLate (su : Setup) (id : Text) (timeout : ℕ) : (o : Op) → o.Resp → Prop
  | .highResolution, now => (timeout : ℤ) < Int64.toInt now
  | .entries .start, infos => ∀ p ∈ infos, (p.2.info su.codec).crosstxid = id →
      (p.2.info su.codec).timeout.toInt = timeout
  | _, _ => True

/-- With these answers the program submits no `SendTx` of the transfer to layer 1. -/
abbrev Withholds (su : Setup) (id : Text) (timeout : ℕ) {α : Type} (p : AgentM α) : Prop :=
  UsesGiven (Op.AnsweredLate su id timeout) (fun o => ¬o.Releases id) p

/-- Not releasing the transfer covers what the handlers do to the stores. -/
theorem covers_not_releases (su : Setup) (id : Text) : Op.Covers su fun o => ¬o.Releases id :=
  (covers_withholds su).mono fun _ hwithholds => hwithholds.2 id

/-- A confirmed entry of the transfer is acknowledged when it is late. -/
theorem withholds_confirmed {info : Protocol.CrossTxInfo} {now : Int64}
    (hlate : info.crosstxid = id → info.timeout < now) :
    Uses (fun o => ¬o.Releases id) (Layer2ToLayer1Handle.confirmed su info now) := by
  by_cases hid : info.crosstxid = id
  · unfold Layer2ToLayer1Handle.confirmed
    rw [if_pos (hlate hid)]
    exact Uses.bind (within_sendAckTo (covers_not_releases su id) _) fun _ => Uses.pure _
  · exact within_confirmed (covers_not_releases su id) info now fun _ ho ho' => hid (ho.unique ho')

/-- No call of the handlers submits the `SendTx` of a transfer that is late. -/
theorem withholds_run (call : HandleManager.Call) : Withholds su id timeout (HandleManager.run su call) := by
  cases call with
  | tlog l topic crossTxId =>
    exact ((withholds_onTopic l topic crossTxId).mono fun _ hwithholds => hwithholds.2 id).given
  | timer =>
    refine Uses.given (Uses.bind ?_ fun _ => Uses.pure _)
    exact withholds_onTimer.mono fun _ hwithholds => hwithholds.2 id
  | confirm confirmSeq =>
    unfold HandleManager.run Layer2ToLayer1Handle.handleConfirmSeqEvent
    simp only [bind_assoc]
    have hquiet := (covers_not_releases su id).quiet
    refine UsesGiven.perform_bind (hquiet _ trivial) fun _ _ => ?_
    refine UsesGiven.perform_bind (hquiet _ trivial) fun infos hinfos => ?_
    refine UsesGiven.bind (UsesGiven.forM fun p hp => ?_) fun _ =>
      UsesGiven.perform_bind (hquiet _ trivial) fun _ _ => trivial
    refine UsesGiven.perform_bind (hquiet _ trivial) fun now hnow => ?_
    refine Uses.given (Uses.ite (withholds_confirmed fun hid => ?_) (Uses.pure _))
    rw [Int64.lt_iff_toInt_lt, hinfos p hp hid]
    exact hnow

end Withholds

variable {T : Type} [DecidableEq T]

section Received

variable {sys : System} {id : Text}

/-- A `SendTx` of the transfer among what the node of layer 1 has received was there before, or the
operation released it. -/
theorem Shared.Acts.sendsTx {t : T} {w w' : Shared T} {o : Op} {r : o.Resp}
    (h : Shared.Acts sys t w o r w') {tx : AgentTx} (hmem : tx ∈ (w'.chain .layer1).pool)
    (hsends : tx.input.SendsTx id) : tx ∈ (w.chain .layer1).pool ∨ o.Releases id := by
  cases h with
  | highResolution | query | lock | unlock | dbPut | dbDelete | dbScan | entries | emplace | erase
  | setAckTimeout => exact Or.inl hmem
  | lost l =>
    cases l with
    | layer1 =>
      rw [setChain_chain_self] at hmem
      exact Or.inl hmem
    | layer2 =>
      rw [setChain_chain_of_ne _ _ (by decide)] at hmem
      exact Or.inl hmem
  | received l input amount seq r hash =>
    cases l with
    | layer1 =>
      rw [setChain_chain_self] at hmem
      refine (List.mem_append.mp hmem).imp_right fun hnew => ?_
      rw [List.mem_singleton.mp hnew] at hsends
      cases input with
      | sendTx => exact hsends
      | sendAckedTx => exact hsends.elim
    | layer2 =>
      rw [setChain_chain_of_ne _ _ (by decide)] at hmem
      exact Or.inl hmem

omit [DecidableEq T] in
/-- Setting a chain to one with the same transactions changes none. -/
theorem setChain_pool {w : Shared T} {l : Layer} {c : Chain} (hc : c.pool = (w.chain l).pool)
    (l' : Layer) : ((w.setChain l c).chain l').pool = (w.chain l').pool := by
  by_cases hl : l' = l
  · subst hl
    rw [setChain_chain_self, hc]
  · rw [setChain_chain_of_ne _ _ hl]

/-- Executing a call receives nothing. -/
theorem Chain.exec_pool {l : Layer} {sha256 : Sha256} {c c' : Chain} {sender value : ℕ}
    {accepts : Address → Bool} {call : Call} (h : c.exec l sha256 sender value accepts call = some c') :
    c'.pool = c.pool := by
  obtain ⟨_, _, _, rfl⟩ := Chain.exec_accepted h
  rfl

end Received

namespace World

variable {sys : System} {X : Bytes} {timeout : ℕ} {w w' : World T}

/-- The transfer is late: the agent's clock is past its timeout, the running calls withhold it, and the
node of layer 1 has received no `SendTx` of it. -/
structure Late (sys : System) (X : Bytes) (timeout : ℕ) (w : World T) : Prop where
  clock : (timeout : ℤ) < w.shared.clock.toInt
  tasks : ∀ t task, w.tasks t = some task → Withholds sys.su (sys.abi.bytesText X) timeout task.prog
  pool : ∀ tx ∈ (w.shared.chain .layer1).pool, ¬tx.input.SendsTx (sys.abi.bytesText X)

/-- The entries of the transfer in the start map have its timeout. -/
def Dated (sys : System) (X : Bytes) (timeout : ℕ) (w : World T) : Prop :=
  ∀ (key : Text) (e : CrossTx), (w.shared.agent.maps .start)[key]? = some e →
    (e.info sys.su.codec).crosstxid = sys.abi.bytesText X → (e.info sys.su.codec).timeout.toInt = timeout

/-- The answer of an operation after which the clock is past the timeout. -/
theorem answeredLate_of_acts {t : T} {o : Op} {r : o.Resp} {shared : Shared T}
    (h : Shared.Acts sys t w.shared o r shared) (hdated : w.Dated sys X timeout)
    (hclock : (timeout : ℤ) < shared.clock.toInt) :
    o.AnsweredLate sys.su (sys.abi.bytesText X) timeout r := by
  cases h with
  | highResolution => exact hclock
  | entries s =>
    cases s with
    | start => exact fun p hp => hdated p.1 p.2 (Std.ExtTreeMap.mem_toList_iff_getElem?_eq_some.mp hp)
    | send | ack | reply => exact trivial
  | query | lock | unlock | dbPut | dbDelete | dbScan | emplace | erase | setAckTimeout | lost
  | received => exact trivial

/-- The restart receives nothing. -/
theorem restart_pool {t : T} {shared shared' : Shared T}
    (h : Runs (fun o u r u' => Shared.Acts sys t u o r u') (HandleManager.initializeHandle sys.su)
      shared () shared')
    (hpool : ∀ tx ∈ (shared.chain .layer1).pool, ¬tx.input.SendsTx (sys.abi.bytesText X)) :
    ∀ tx ∈ (shared'.chain .layer1).pool, ¬tx.input.SendsTx (sys.abi.bytesText X) := by
  have hload : ∀ h, Uses (fun o => ¬o.Releases (sys.abi.bytesText X)) (HandlerCall.initializeHandle sys.su h) :=
    fun _ => within_initializeHandle (covers_not_releases sys.su _)
  have huses : Uses (fun o => ¬o.Releases (sys.abi.bytesText X)) (HandleManager.initializeHandle sys.su) :=
    Uses.bind (hload .layer1) fun _ => hload .layer2
  refine h.of_uses (J := fun u : Shared T => ∀ tx ∈ (u.chain .layer1).pool,
    ¬tx.input.SendsTx (sys.abi.bytesText X)) ?_ huses hpool
  intro o u r u' hnot hacts hu tx hmem hsends
  exact (hacts.sendsTx hmem hsends).elim (fun hold => hu tx hold hsends) hnot

/-- A running call after a thread went on is the rest of its call, or ran before. -/
theorem proceed_tasks {shared : Shared T} {tasks : T → Option Task} {t t' : T}
    {event : Option (Layer × ℕ)} {prog : AgentM Bool} {task : Task}
    (htask : (proceed shared tasks t event prog).tasks t' = some task) :
    task.prog = prog ∨ tasks t' = some task := by
  cases prog with
  | ret ok =>
    by_cases ht : t' = t
    · subst ht
      simp only [proceed, Function.update_self] at htask
      cases htask
    · simp only [proceed, Function.update_of_ne ht] at htask
      exact Or.inr htask
  | op o k =>
    by_cases ht : t' = t
    · subst ht
      simp only [proceed, Function.update_self] at htask
      cases htask
      exact Or.inl rfl
    · simp only [proceed, Function.update_of_ne ht] at htask
      exact Or.inr htask

/-- As long as the clock does not go back, a transfer that is late stays late. -/
theorem Late.moves (h : w.Late sys X timeout) (hdated : w.Dated sys X timeout) (hmoves : Moves sys w w') :
    w'.Late sys X timeout := by
  obtain ⟨label, hstep, hle⟩ := hmoves
  have hclock : (timeout : ℤ) < w'.shared.clock.toInt := h.clock.trans_le (Int64.le_iff_toInt_le.mp hle)
  have htake : ∀ (call : HandleManager.Call) (t : T) (event : Option (Layer × ℕ)) t' task,
      Function.update w.tasks t (some ⟨event, HandleManager.run sys.su call⟩) t' = some task →
        Withholds sys.su (sys.abi.bytesText X) timeout task.prog := by
    intro call t event t' task htask
    by_cases ht : t' = t
    · subst ht
      rw [Function.update_self] at htask
      cases htask
      exact withholds_run call
    · rw [Function.update_of_ne ht] at htask
      exact h.tasks t' task htask
  have hset : ∀ (l : Layer) (c : Chain), c.pool = (w.shared.chain l).pool →
      ∀ tx ∈ ((w.shared.setChain l c).chain .layer1).pool, ¬tx.input.SendsTx (sys.abi.bytesText X) := by
    intro l c hc
    rw [setChain_pool hc]
    exact h.pool
  cases step_steps hstep with
  | block l time => exact ⟨hclock, h.tasks, hset l _ rfl⟩
  | user l sender value accepts call c stranger hexec =>
    exact ⟨hclock, h.tasks, hset l c (Chain.exec_pool hexec)⟩
  | execute l index accepts tx call c received decoded hexec =>
    have hpool : c.pool = (w.shared.chain l).pool := Chain.exec_pool hexec
    exact ⟨hclock, h.tasks, hset l _ hpool⟩
  | deliver t l index time event call => exact ⟨hclock, htake call t _, h.pool⟩
  | confirm t confirmSeq => exact ⟨hclock, htake _ t none, h.pool⟩
  | timer t => exact ⟨hclock, htake _ t none, h.pool⟩
  | act t a event o k r shared running hacts =>
    rw [proceed_clock] at hclock
    obtain ⟨hnot, hrest⟩ := h.tasks t _ running
    have hprog := hrest r (answeredLate_of_acts hacts hdated hclock)
    refine ⟨by rwa [proceed_clock], fun t' task htask => ?_, fun tx hmem hsends => ?_⟩
    · rcases proceed_tasks htask with hrest | hold
      · exact hrest ▸ hprog
      · exact h.tasks t' task hold
    · rw [proceed_chain] at hmem
      exact (hacts.sendsTx hmem hsends).elim (fun hold => h.pool tx hold hsends) hnot
  | restart t answers shared hruns => exact ⟨hclock, nofun, restart_pool hruns h.pool⟩

end World

namespace Scene

variable {S : Scene} {w w' : World T}

/-- A submission that a node reads as the `SendTx` of a transfer is that. -/
theorem Justified.sendsTx {B : Books} {l : Layer} {input : TxInput} {value : Int64}
    (hj : S.Justified B l input value) {X : Bytes} {src dest : Address} {amount timeout : ℕ}
    (hcall : S.sys.abi.decodeCall input.function input.args = some (.sendTx X src dest amount timeout)) :
    input.SendsTx (S.sys.abi.bytesText X) := by
  cases input with
  | sendTx crossTxId srcBid destBid amount timeout =>
    obtain ⟨info, id, hd, hvalue, hinput⟩ := hj
    rw [← hinput, hd.decodeCall] at hcall
    cases hcall
    cases hinput
    exact hd.crosstxid
  | sendAckedTx crossTxId result errorDesc executeTime =>
    obtain ⟨id, rfl, hcomma, hquote, ⟨n, hn⟩, hwhat⟩ := hj
    obtain ⟨k, hk, hlt, hone⟩ := (verdict_of_ack hwhat).toInt
    rw [decodeCall_ack hk hlt hn hcomma hquote] at hcall
    cases hcall

/-- A justified `SendTx` of a transfer escrows it. -/
theorem Justified.escrows {B : Books} {l : Layer} {input : TxInput} {value : Int64} {X : Bytes}
    (hj : S.Justified B l.other input value) (hsends : input.SendsTx (S.sys.abi.bytesText X)) (hash : Text) :
    (⟨hash, input, value⟩ : AgentTx).Escrows S.sys.abi (B.record l X) X := by
  cases input with
  | sendAckedTx => exact hsends.elim
  | sendTx crossTxId srcBid destBid amount timeout =>
    obtain ⟨info, id, hd, rfl, hinput⟩ := hj
    rw [Layer.other_other] at hd
    obtain rfl : id = X := by
      cases hinput
      exact S.sys.abi.bytesText_inj _ _ (hd.crosstxid.symm.trans hsends)
    have hcall := hd.decodeCall
    rw [hinput] at hcall
    refine ⟨hcall, ?_⟩
    cases hinput
    rw [hd.amount, Int.toNat_natCast]

/-- Only the agent escrows transfers, with a `SendTx` that the node has received. -/
theorem Good.sender (hw : S.Good w.shared) {label : Label T} (hstep : World.step S.sys w label = some w')
    {l : Layer} {msg : Msg} {X : Bytes} {src dest : Address} {amount timeout : ℕ}
    (hcalled : World.called S.sys w l label = some (msg, .sendTx X src dest amount timeout))
    (howner : msg.sender = S.sys.owner l) :
    ∃ tx ∈ (w.shared.chain l).pool, tx.input.SendsTx (S.sys.abi.bytesText X) := by
  cases World.step_steps hstep with
  | block | deliver | confirm | timer | act | restart => cases hcalled
  | user l' sender value accepts call c stranger hexec =>
    simp only [World.called, Option.ite_none_right_eq_some, Option.some.injEq, Prod.mk.injEq] at hcalled
    obtain ⟨rfl, rfl, _⟩ := hcalled
    exact absurd howner stranger
  | execute l' index accepts tx call c received decoded hexec =>
    simp only [World.called, Option.ite_none_right_eq_some, Option.bind_eq_bind,
      Option.bind_eq_some_iff, Option.pure_def, Option.some.injEq, Prod.mk.injEq] at hcalled
    obtain ⟨rfl, tx', hreceived, call', hdecoded, _, rfl⟩ := hcalled
    have hmem := List.mem_of_getElem? hreceived
    have hjustified := (hw.chains l').posted _ ((hw.chains l').pool tx' hmem)
    exact ⟨tx', hmem, hjustified.sendsTx hdecoded⟩

/-- An escrow is executed in the block that is open, from a `SendTx` that the node has received. -/
theorem Holds.escrow_executed (hA : S.Assumptions) (hw : S.Holds w) {label : Label T}
    (hstep : World.step S.sys w label = some w')
    (hH : ∀ l, ∀ words ∈ (w'.shared.chain l).hashed, words ∈ S.H) {l m : Layer} {X : Bytes}
    (hX : S.Known w.shared.books l X) (hno : ¬((w.shared.chain m).bridge.crossTxInfo X).Exists)
    (hex : ((w'.shared.chain m).bridge.crossTxInfo X).Exists) :
    (∃ tx ∈ (w.shared.chain m).pool, tx.input.SendsTx (S.sys.abi.bytesText X)) ∧
      ((w'.shared.chain m).bridge.crossTxInfo X).executeTimestamp = (w.shared.chain m).now := by
  cases World.step_executes hstep m with
  | idle none_called same =>
    rw [same.bridge] at hex
    exact absurd hex hno
  | call msg call receipt b is_called now exec bridge hashed =>
    have hacc := exec_accepted exec
    have hfunded := ((hacc.exists_iff X).mp (bridge ▸ hex)).resolve_left hno
    rw [bridge]
    cases hacc with
    | setTimeout | setOwner | ackSuccess | ackFailure | refund => cases hfunded
    | startTx dest txId hid =>
      have hchain := (hw.good.chains m).chainId
      have hid' : X = S.sys.sha256.hash
          (startWords m (S.cid m) msg.sender dest msg.value (w.shared.chain m).now) := by
        rw [← hchain, ← now]
        exact (Option.some.inj hfunded).symm
      refine absurd hX (hw.good.not_known hA (hH m _ ?_) hid' l)
      rw [hashed, hchain, ← now]
      exact List.mem_append_left _ (Option.mem_toList.mpr rfl)
    | sendTx i src dest timeout owner =>
      cases hfunded
      rw [(hw.good.chains m).owner] at owner
      refine ⟨hw.good.sender hstep is_called owner, ?_⟩
      rw [store_crossTxInfo, Function.update_self]
      exact now

omit [DecidableEq T] in
/-- The entries of a known transfer have the timeout of its record, cut to 63 bits. -/
theorem Good.dated {u : World T} (hu : S.Good u.shared) {X : Bytes} {timeout : ℕ}
    (htimeout : saturate (u.shared.books.record .layer2 X).timeout = timeout) :
    u.Dated S.sys X timeout := by
  intro key e hget hid
  obtain ⟨info, due, rfl, _, id, hd⟩ := hu.maps .start key e hget
  rw [CrossTx.info_ofInfo] at hid ⊢
  obtain rfl : id = X := S.sys.abi.bytesText_inj _ _ (hd.crosstxid.symm.trans hid)
  rw [hd.timeout, htimeout]

/-- As long as the agent's clock does not go back, a transfer from layer 2 that is late when its escrow
does not exist is never escrowed. -/
theorem leads_unescrowed (hA : S.Assumptions) (hw : S.Holds w) {X : Bytes}
    (hX : S.Known w.shared.books .layer2 X)
    (hlate : w.Late S.sys X (saturate (w.shared.books.record .layer2 X).timeout))
    (hno : ¬((w.shared.chain .layer1).bridge.crossTxInfo X).Exists) (h : World.Leads S.sys w w')
    (hH : ∀ l, ∀ words ∈ (w'.shared.chain l).hashed, words ∈ S.H) :
    ¬((w'.shared.chain .layer1).bridge.crossTxInfo X).Exists := by
  let J : World T → Prop := fun u => (S.Holds u ∧ S.Later w.shared.books u.shared.books) ∧
    u.Late S.sys X (saturate (w.shared.books.record .layer2 X).timeout) ∧
      ¬((u.shared.chain .layer1).bridge.crossTxInfo X).Exists
  have hJ : J w' := by
    induction h with
    | refl => exact ⟨⟨hw, Books.Later.refl _⟩, hlate, hno⟩
    | @tail u u' _ hmoves ih =>
      obtain ⟨label, hstep, _⟩ := id hmoves
      have hsteps := World.step_steps hstep
      obtain ⟨⟨hu, hlater⟩, hlate, hno⟩ := ih fun l words hmem => hH l words (hsteps.hashed_subset l hmem)
      have hdated : u.Dated S.sys X (saturate (w.shared.books.record .layer2 X).timeout) :=
        hu.good.dated (by rw [(hlater.source .layer2 X hX).timeout])
      refine ⟨⟨hu.step hA hsteps hH, hlater.trans (hu.later hA hsteps hH)⟩, hlate.moves hdated hmoves,
        fun hex => ?_⟩
      obtain ⟨⟨tx, hmem, hsends⟩, _⟩ := hu.escrow_executed hA hstep hH (hX.later hlater) hno hex
      exact hlate.pool tx hmem hsends
  exact hJ.2.2

end Scene

end CrosschainAgent
