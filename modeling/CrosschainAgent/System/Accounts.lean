import CrosschainAgent.Contract.Accounts
import CrosschainAgent.System.Chronicles

/-!
# The money of a transfer

Every coin that moves for a transfer, on both chains, in every run of the system: who paid how much
in, and who was paid how much, is told by its source record and its escrow. The invariant is that
every record tells its account; a step keeps it because the settled books rule out that an escrow is
refused or that a `StartTx` hits a record of another transfer.
-/

namespace CrosschainAgent

open Interaction Bridge Strings

variable {T : Type} [DecidableEq T]

namespace Scene

variable {S : Scene} {w w' : World T}

/-- A step moves the books forward. -/
theorem Holds.later (hA : S.Assumptions) (h : S.Holds w) {label : Label T}
    (hstep : World.Steps S.sys w label w')
    (hH : ∀ l, ∀ words ∈ (w'.shared.chain l).hashed, words ∈ S.H) :
    S.Later w.shared.books w'.shared.books := by
  cases hstep with
  | block l time hnow => exact (h.good.block hnow).2
  | user l sender value accepts call c stranger hexec =>
    refine (h.good.user hA stranger hexec fun words hmem => hH l words ?_).2
    rwa [setChain_chain_self]
  | execute l index accepts tx call c received decoded hexec =>
    exact (h.good.execute hA (List.mem_of_getElem? received) decoded hexec).2
  | deliver | confirm | timer => exact Books.Later.refl _
  | act t a event o k r shared hrunning hact =>
    have hprog : running w.tasks t = some (.op o k) := by rw [running, hrunning]; rfl
    obtain ⟨_, hlater, _⟩ := h.safe.act h.good hprog hact
    have hbooks : (World.proceed shared w.tasks t event (k r)).shared.books = shared.books := by
      simp only [Shared.books, World.proceed_chain]
    rw [hbooks]
    exact hlater
  | restart t answers shared hruns =>
    have hgood : S.Good { w.shared with agent := w.shared.agent.restarted, locks := fun _ => none } :=
      And.left (h.good.of_stores rfl
        (fun s key e (he : (∅ : InfoMap)[key]? = some e) => by simp at he) h.good.db)
    exact (initializeHandle_does.of_runs hgood hruns).2.1

/-- The agent submits no `StartTx`. -/
theorem Justified.not_startTx {B : Books} {l : Layer} {input : TxInput} {value : Int64}
    (hj : S.Justified B l input value) {src dest : Address} {amount : ℕ} :
    S.sys.abi.decodeCall input.function input.args ≠ some (.startTx src dest amount) := by
  intro hcall
  cases input with
  | sendTx crossTxId srcBid destBid amount timeout =>
    obtain ⟨info, id, hd, hvalue, hinput⟩ := hj
    rw [← hinput, hd.decodeCall] at hcall
    cases hcall
  | sendAckedTx crossTxId result errorDesc executeTime =>
    obtain ⟨id, rfl, hcomma, hquote, ⟨n, hn⟩, hwhat⟩ := hj
    obtain ⟨k, hk, hlt, hone⟩ := (verdict_of_ack hwhat).toInt
    rw [decodeCall_ack hk hlt hn hcomma hquote] at hcall
    cases hcall

/-- Only users start transfers. -/
theorem Good.starter (hw : S.Good w.shared) {label : Label T} (hstep : World.step S.sys w label = some w')
    {l : Layer} {msg : Msg} {src dest : Address} {amount : ℕ}
    (hcalled : World.called S.sys w l label = some (msg, .startTx src dest amount)) :
    msg.sender ≠ S.sys.owner l := by
  cases World.step_steps hstep with
  | block | deliver | confirm | timer | act | restart => cases hcalled
  | user l' sender value accepts call c stranger hexec =>
    simp only [World.called, Option.ite_none_right_eq_some, Option.some.injEq, Prod.mk.injEq] at hcalled
    obtain ⟨rfl, rfl, _⟩ := hcalled
    exact stranger
  | execute l' index accepts tx call c received decoded hexec =>
    simp only [World.called, Option.ite_none_right_eq_some, Option.bind_eq_bind,
      Option.bind_eq_some_iff, Option.pure_def, Option.some.injEq, Prod.mk.injEq] at hcalled
    obtain ⟨rfl, tx', hreceived, call', hdecoded, _, rfl⟩ := hcalled
    have hpool := (hw.chains l').pool tx' (List.mem_of_getElem? hreceived)
    exact absurd hdecoded ((hw.chains l').posted _ hpool).not_startTx

/-- The words that were hashed tell whose transfer it is. -/
def Transfers (S : Scene) (w : World T) : Prop :=
  ∀ l src dest amount time, startWords l (S.cid l) src dest amount time ∈ (w.shared.chain l).hashed →
    ∀ id, id = S.sys.sha256.hash (startWords l (S.cid l) src dest amount time) →
      src ≠ S.sys.owner l ∧ ((w.shared.chain l).bridge.crossTxInfo id).srcBid = src ∧
        ((w.shared.chain l).bridge.crossTxInfo id).amount = amount

/-- The invariant of a world and its chronicles: every record tells its account. -/
structure Kept (S : Scene) (w : World T) (s : Layer → Chronicle) : Prop where
  holds : S.Holds w
  wellFormed : ∀ l, (w.shared.chain l).bridge.WellFormed
  transfers : S.Transfers w
  accounted : ∀ l id, Accounted l (S.cid l) (S.sys.owner l)
    ((w.shared.chain l).bridge.crossTxInfo id) id (s l).accepted

omit [DecidableEq T] in
/-- What a `StartTx` hashes now was hashed in no closed block of either chain. -/
theorem Good.not_known (hA : S.Assumptions) (hw : S.Good w.shared) {l : Layer} {src dest : Address}
    {amount : ℕ} {id : Bytes}
    (hin : startWords l (S.cid l) src dest amount (w.shared.chain l).now ∈ S.H)
    (hid : id = S.sys.sha256.hash (startWords l (S.cid l) src dest amount (w.shared.chain l).now))
    (l' : Layer) : ¬S.Known w.shared.books l' id := by
  rintro ⟨src', dest', amount', time, hmem, hhash, htime⟩
  have hwords := hA.injOn (hw.books.hashedIn l' _ hmem) hin (hhash.trans hid)
  by_cases hl : l' = l
  · subst hl
    obtain ⟨_, _, _, rfl⟩ := startWords_inj hwords
    exact absurd htime (lt_irrefl _)
  · obtain rfl : l' = l.other := by cases l <;> cases l' <;> first | rfl | exact absurd rfl hl
    exact Books.startWords_layer hA.chainId_ne_zero hwords.symm

/-- Where a transfer that starts finds a record, it is the open record of the same transfer. -/
theorem Kept.again (hA : S.Assumptions) {s : Layer → Chronicle} (h : S.Kept w s) {l : Layer}
    {src dest : Address} {amount : ℕ} {id : Bytes}
    (hin : startWords l (S.cid l) src dest amount (w.shared.chain l).now ∈ S.H)
    (hid : id = S.sys.sha256.hash (startWords l (S.cid l) src dest amount (w.shared.chain l).now))
    (hex : ((w.shared.chain l).bridge.crossTxInfo id).Exists) :
    isStarted l (S.cid l) ((w.shared.chain l).bridge.crossTxInfo id).srcChainId = true ∧
      ((w.shared.chain l).bridge.crossTxInfo id).status = .init ∧
      ((w.shared.chain l).bridge.crossTxInfo id).srcBid = src ∧
      ((w.shared.chain l).bridge.crossTxInfo id).amount = amount := by
  have hbooks := h.holds.good.books
  have hunknown := h.holds.good.not_known hA hin hid
  have hst : isStarted l (S.cid l) ((w.shared.chain l).bridge.crossTxInfo id).srcChainId = true := by
    by_contra hno
    exact hunknown l.other (hbooks.sentKnown l id ⟨hex, Bool.not_eq_true _ ▸ hno⟩)
  refine ⟨hst, ?_, ?_⟩
  · by_contra hne
    exact hunknown l (hbooks.acked l id hst hex hne)
  · obtain ⟨words, hmem, hhash⟩ := hbooks.origin l id hex hst
    have hwords := hA.injOn (hbooks.hashedIn l _ hmem) hin (hhash.trans hid)
    exact (h.transfers l src dest amount _ (hwords ▸ hmem) id hid).2

/-- Every call that a step executes is orderly. -/
theorem Kept.orderly (hA : S.Assumptions) {s : Layer → Chronicle} (h : S.Kept w s) {label : Label T}
    (hstep : World.step S.sys w label = some w')
    (hH : ∀ l, ∀ words ∈ (w'.shared.chain l).hashed, words ∈ S.H) {l : Layer} {msg : Msg}
    {call : Call} {receipt : Receipt} (hnow : msg.timestamp = (w.shared.chain l).now)
    (hhashed : (w'.shared.chain l).hashed = (Entry.hashed l (w.shared.chain l).bridge.chainId
      ⟨msg, call, receipt⟩).toList ++ (w.shared.chain l).hashed) :
    Orderly l S.sys.sha256 (S.cid l) (S.sys.owner l) (w.shared.chain l).bridge
      (w'.shared.chain l).bridge msg call where
  wellFormed := h.wellFormed l
  chainId_eq := (h.holds.good.chains l).chainId
  owner_eq := (h.holds.good.chains l).owner
  again := by
    rintro src dest amount rfl id hid hex
    rw [hnow] at hid
    refine h.again hA (hH l _ ?_) hid hex
    rw [hhashed, (h.holds.good.chains l).chainId, ← hnow]
    exact List.mem_append_left _ (Option.mem_toList.mpr rfl)
  escrow id hex hst := by
    have hsteps := World.step_steps hstep
    have hsent := ((h.holds.later hA hsteps hH).sent l id ⟨hex, hst⟩).1
    exact ((h.holds.step hA hsteps hH).good.books.sentStatus l id hsent).imp_right And.left

/-- An accepted call keeps what the hashed words tell. -/
theorem Kept.transfers_call (hA : S.Assumptions) {s : Layer → Chronicle} (h : S.Kept w s)
    {l : Layer} {msg : Msg} {call : Call} {receipt : Receipt} {b : State}
    (hacc : Accepted l S.sys.sha256 (w.shared.chain l).bridge msg call b receipt)
    (hstranger : ∀ src dest amount, call = .startTx src dest amount → msg.sender ≠ S.sys.owner l)
    (hH : ∀ words ∈ (Entry.hashed l (w.shared.chain l).bridge.chainId ⟨msg, call, receipt⟩).toList ++
      (w.shared.chain l).hashed, words ∈ S.H)
    {src dest : Address} {amount time : ℕ}
    (hmem : startWords l (S.cid l) src dest amount time ∈
      (Entry.hashed l (w.shared.chain l).bridge.chainId ⟨msg, call, receipt⟩).toList ++
        (w.shared.chain l).hashed)
    {id : Bytes} (hid : id = S.sys.sha256.hash (startWords l (S.cid l) src dest amount time)) :
    src ≠ S.sys.owner l ∧ (b.crossTxInfo id).srcBid = src ∧ (b.crossTxInfo id).amount = amount := by
  have hchain := (h.holds.good.chains l).chainId
  have hold : startWords l (S.cid l) src dest amount time ∈ (w.shared.chain l).hashed →
      src ≠ S.sys.owner l ∧ ((w.shared.chain l).bridge.crossTxInfo id).srcBid = src ∧
        ((w.shared.chain l).bridge.crossTxInfo id).amount = amount :=
    fun hmem => h.transfers l src dest amount time hmem id hid
  cases hacc with
  | setTimeout | setOwner => exact hold (by simpa [Entry.hashed] using hmem)
  | startTx dest' txId htx =>
    rw [hchain] at htx
    simp only [Entry.hashed, hchain, Option.toList_some, List.singleton_append] at hmem hH
    have hnew := hH _ List.mem_cons_self
    by_cases hi : id = txId
    · have hwords := hA.injOn (hH _ hmem) hnew ((hid.symm.trans hi).trans htx)
      obtain ⟨rfl, rfl, rfl, rfl⟩ := startWords_inj hwords
      subst hi
      rw [store_crossTxInfo, Function.update_self]
      exact ⟨hstranger _ _ _ rfl, rfl, rfl⟩
    · rw [store_crossTxInfo, Function.update_of_ne hi]
      refine hold ((List.mem_cons.mp hmem).resolve_left fun hwords => hi ?_)
      rw [hid, htx, hwords]
  | sendTx i src' dest' timeout owner length nonzero inTime fresh =>
    have hmem : startWords l (S.cid l) src dest amount time ∈ (w.shared.chain l).hashed := by
      simpa [Entry.hashed] using hmem
    have hi : id ≠ i := by
      rintro rfl
      exact (h.holds.good.books.started l _ hmem).1 (hid ▸ fresh)
    rw [store_crossTxInfo, Function.update_of_ne hi]
    exact hold hmem
  | ackSuccess i | ackFailure i | refund i =>
    have hold := hold (by simpa [Entry.hashed] using hmem)
    by_cases hi : id = i
    · subst hi
      rw [store_crossTxInfo, Function.update_self]
      exact hold
    · rw [store_crossTxInfo, Function.update_of_ne hi]
      exact hold

/-- A step keeps the accounts. -/
theorem Kept.step (hA : S.Assumptions) {s : Layer → Chronicle} (h : S.Kept w s)
    (hs : ∀ l, (s l).state = (w.shared.chain l).bridge) {label : Label T}
    (hstep : World.step S.sys w label = some w')
    (hH : ∀ l, ∀ words ∈ (w'.shared.chain l).hashed, words ∈ S.H) :
    S.Kept w' fun l => (World.called S.sys w l label).toList.foldl (Bridge.step l S.sys.sha256) (s l) where
  holds := h.holds.step hA (World.step_steps hstep) hH
  wellFormed l := by
    cases World.step_executes hstep l with
    | idle none_called same => exact same.bridge ▸ h.wellFormed l
    | call msg call receipt b is_called now exec bridge =>
      exact bridge ▸ (exec_accepted exec).wellFormed (h.wellFormed l)
  transfers l src dest amount time hmem id hid := by
    cases World.step_executes hstep l with
    | idle none_called same =>
      rw [same.bridge]
      exact h.transfers l src dest amount time (same.hashed ▸ hmem) id hid
    | call msg call receipt b is_called now exec bridge hashed =>
      rw [bridge]
      refine h.transfers_call hA (exec_accepted exec) ?_ (hashed ▸ hH l) (hashed ▸ hmem) hid
      rintro src' dest' amount' rfl
      exact h.holds.good.starter hstep is_called
  accounted l id := by
    cases World.step_executes hstep l with
    | idle none_called same =>
      simp only [none_called, Option.toList_none, List.foldl_nil, same.bridge]
      exact h.accounted l id
    | call msg call receipt b is_called now exec bridge hashed =>
      have horderly := h.orderly hA hstep hH now hashed
      rw [bridge] at horderly ⊢
      have haccounted := (exec_accepted exec).accounted horderly (hA.chainId_ne_zero l) (h.accounted l) id
      simpa only [is_called, Option.toList_some, List.foldl_cons, List.foldl_nil, Bridge.step, hs l, exec]
        using haccounted

/-- Every run keeps the accounts. -/
theorem run_kept {sys : System} {chainId timeout now : Layer → ℕ} (hcid : ∀ l, chainId l ≠ 0)
    {labels : List (Label T)} {w : World T}
    (h : World.run sys (World.initial sys chainId timeout now) labels = some w)
    (hinj : Set.InjOn sys.sha256.hash w.hashedWords) :
    Scene.Kept ⟨sys, chainId, w.hashedWords⟩ w fun l =>
      World.chronicle sys l (World.initial sys chainId timeout now) labels := by
  let S : Scene := ⟨sys, chainId, w.hashedWords⟩
  have hA : S.Assumptions := ⟨hcid, hinj⟩
  refine World.chronicle_induction (P := fun u s => (∀ l, ∀ words ∈ (u.shared.chain l).hashed,
    words ∈ S.H) → S.Kept u s) (fun _ => ?_) ?_ h fun l words hmem => ⟨l, hmem⟩
  · exact
      { holds := initial_holds chainId timeout now _
        wellFormed := fun l => deploy_wellFormed _ _ _
        transfers := fun _ _ _ _ _ hmem => nomatch hmem
        accounted := fun l id => accounted_nil _ _ id }
  · intro u s label u' hs hu hstep hH
    have hsteps := World.step_steps hstep
    exact (hu fun l words hmem => hH l words (hsteps.hashed_subset l hmem)).step hA hs hstep hH

/-- The source record of a transfer that started. -/
theorem Kept.source {s : Layer → Chronicle} (h : S.Kept w s) {l : Layer} {X : Bytes} {time : ℕ}
    (hX : (time, Event.startTxEvent X) ∈ (w.shared.chain l).log) :
    ((w.shared.chain l).bridge.crossTxInfo X).Exists ∧
      isStarted l (S.cid l) ((w.shared.chain l).bridge.crossTxInfo X).srcChainId = true := by
  obtain ⟨src, dest, amount, hmem, rfl⟩ := (h.holds.good.chains l).log _ hX
  exact h.holds.good.books.started l _ hmem

/-- The escrow of a transfer copies its source record. -/
theorem Kept.escrow (hA : S.Assumptions) {s : Layer → Chronicle} (h : S.Kept w s) {l : Layer}
    {X : Bytes} {time : ℕ} (hX : (time, Event.startTxEvent X) ∈ (w.shared.chain l).log)
    (hex : ((w.shared.chain l.other).bridge.crossTxInfo X).Exists) :
    isStarted l.other (S.cid l.other) ((w.shared.chain l.other).bridge.crossTxInfo X).srcChainId = false ∧
      Books.Copies ((w.shared.chain l).bridge.crossTxInfo X)
        ((w.shared.chain l.other).bridge.crossTxInfo X) := by
  have hsent := h.holds.sent hA hX hex
  have hcopies := h.holds.good.books.sentCopies l.other X hsent
  rw [Layer.other_other] at hcopies
  exact ⟨hsent.2, hcopies⟩

end Scene

/-- The events about an id in the log of a chain. -/
theorem World.eventsOf_chronicle {sys : System} {chainId timeout now : Layer → ℕ}
    {labels : List (Label T)} {w : World T}
    (h : World.run sys (World.initial sys chainId timeout now) labels = some w) (l : Layer) (X : Bytes) :
    (((w.shared.chain l).log.map Prod.snd).filter fun event : Event => event.crossTxId = some X) =
      eventsOf (World.chronicle sys l (World.initial sys chainId timeout now) labels).accepted X := by
  have hlog := World.chronicle_log h l
  simp only [hlog, World.initial, Chain.deployed, List.nil_append, logged, eventsOf, List.map_flatMap,
    List.map_map, List.filter_flatMap]
  exact List.flatMap_congr fun e _ => congrArg _ (List.map_id _)

/-- The money of a transfer. In every run of the composed system, for every transfer that started on
a layer: its payer paid the amount, once for each `StartTx`; the owner paid the same amount, cut to
an `int64`, for an escrow on the other layer if there is one, and once at most; the source contract
paid the owner when the transfer succeeded and the payer when it was refunded, and nobody else; the
other contract paid the receiver of an acknowledged escrow, and nobody else; and where the receiver
was paid, the owner was, so that no transfer is paid out and refunded. -/
theorem settlement_payments {sys : System} {chainId timeout now : Layer → ℕ}
    (hcid : ∀ l, chainId l ≠ 0) {labels : List (Label T)} {w : World T}
    (h : World.run sys (World.initial sys chainId timeout now) labels = some w)
    (hinj : Set.InjOn sys.sha256.hash w.hashedWords) {l : Layer} {X : Bytes} {time : ℕ}
    (hX : (time, Event.startTxEvent X) ∈ (w.shared.chain l).log) :
    let source := (w.shared.chain l).bridge.crossTxInfo X
    let escrow := (w.shared.chain l.other).bridge.crossTxInfo X
    let es := (World.chronicle sys l (World.initial sys chainId timeout now) labels).accepted
    let es' := (World.chronicle sys l.other (World.initial sys chainId timeout now) labels).accepted
    (∃ n, depositsOf es X = List.replicate (n + 1) (source.srcBid, source.amount)) ∧
      paymentsOf es X = source.startedPayments (sys.owner l) ∧
      depositsOf es' X =
        (if escrow.Exists then [(sys.owner l.other, saturate source.amount)] else []) ∧
      paymentsOf es' X =
        (if escrow.status = .ackSuccess then [(source.destBid, saturate source.amount)] else []) ∧
      (paymentsOf es' X ≠ [] → paymentsOf es X = [(sys.owner l, source.amount)]) := by
  intro source escrow es es'
  have hkept := Scene.run_kept hcid h hinj
  have hA : Scene.Assumptions ⟨sys, chainId, w.hashedWords⟩ := ⟨hcid, hinj⟩
  obtain ⟨hex, hst⟩ := hkept.source hX
  obtain ⟨⟨n, hdeposits, _⟩, hpayments⟩ := (hkept.accounted l X).started hex hst
  have hpaid : escrow.status = .ackSuccess → source.status = .ackSuccess := by
    intro hs
    have hexists : escrow.Exists := fun hnil => by
      have hblank := congrArg CrossTxInfo.status (hkept.holds.good.books.blank l.other X hnil)
      exact nomatch hs.symm.trans hblank
    have hstatus := hkept.holds.good.books.sentStatus l.other X (hkept.holds.sent hA hX hexists)
    rw [Layer.other_other] at hstatus
    exact (hstatus.resolve_left fun hinit => nomatch hinit.symm.trans hs).2
  by_cases hexists : escrow.Exists
  · obtain ⟨hsent, hcopies⟩ := hkept.escrow hA hX hexists
    obtain ⟨hdeposits', hpayments', _⟩ := (hkept.accounted l.other X).sent hexists hsent
    have hpayments' : paymentsOf es' X =
        if escrow.status = .ackSuccess then [(source.destBid, saturate source.amount)] else [] := by
      rw [← hcopies.destBid, ← hcopies.amount]
      exact hpayments'
    refine ⟨⟨n, hdeposits⟩, hpayments, ?_, hpayments', fun hne => ?_⟩
    · rw [if_pos hexists, ← hcopies.amount]
      exact hdeposits'
    · have hs : escrow.status = .ackSuccess := by
        by_contra hno
        exact hne (hpayments'.trans (if_neg hno))
      exact hpayments.trans (if_pos (hpaid hs))
  · obtain ⟨hdeposits', hpayments', _⟩ := (hkept.accounted l.other X).blank hexists
    have hinit : escrow.status = .init :=
      congrArg CrossTxInfo.status (hkept.holds.good.books.blank l.other X (not_not.mp hexists))
    refine ⟨⟨n, hdeposits⟩, hpayments, ?_, ?_, fun hne => absurd hpayments' hne⟩
    · rw [if_neg hexists]
      exact hdeposits'
    · rw [hinit, if_neg (by decide)]
      exact hpayments'

/-- In the run that settles its transfer, layer 1 paid the owner the 5 coins of the transfer. -/
theorem settlement_payments_settledRun : ∃ w : World Unit,
    World.run Formats.system (World.initial Formats.system (fun _ => 2) (fun _ => 100) (fun _ => 3))
      Formats.settledRun = some w ∧
    paymentsOf (World.chronicle Formats.system .layer1
      (World.initial Formats.system (fun _ => 2) (fun _ => 100) (fun _ => 3))
      Formats.settledRun).accepted Formats.settledId = [(Formats.system.owner .layer1, 5)] := by
  obtain ⟨w, hrun, h1, h2, hlog, hsource, _⟩ := Formats.settledRun_run
  have hpayments := (settlement_payments (fun _ => by decide) hrun (Formats.injOn_single h1 h2)
    (List.mem_of_getElem? hlog)).2.1
  refine ⟨w, hrun, hpayments.trans ?_⟩
  rw [hsource]
  rfl

/-- The events of a transfer. In every run of the composed system, what the chain of a transfer logs
about it are its `StartTx` events, one for each deposit of its payer, and after them the one event that
closes its record, an ack or a refund; the other chain logs its `SendTx` once, when the escrow is
stored, and nothing else; and no ack is logged without a `SendTx`. -/
theorem settlement_events {sys : System} {chainId timeout now : Layer → ℕ}
    (hcid : ∀ l, chainId l ≠ 0) {labels : List (Label T)} {w : World T}
    (h : World.run sys (World.initial sys chainId timeout now) labels = some w)
    (hinj : Set.InjOn sys.sha256.hash w.hashedWords) {l : Layer} {X : Bytes} {time : ℕ}
    (hX : (time, Event.startTxEvent X) ∈ (w.shared.chain l).log) :
    let about := fun l' => ((w.shared.chain l').log.map Prod.snd).filter
      fun event : Event => event.crossTxId = some X
    let source := (w.shared.chain l).bridge.crossTxInfo X
    let es := (World.chronicle sys l (World.initial sys chainId timeout now) labels).accepted
    (∃ n, depositsOf es X = List.replicate (n + 1) (source.srcBid, source.amount) ∧
        about l = List.replicate (n + 1) (.startTxEvent X) ++ source.closing X) ∧
      about l.other = (if ((w.shared.chain l.other).bridge.crossTxInfo X).Exists
        then [.sendTxEvent X] else []) ∧
      (Event.sendAckedTxEvent X ∈ about l → about l.other = [.sendTxEvent X]) := by
  intro about source es
  have hkept := Scene.run_kept hcid h hinj
  have hA : Scene.Assumptions ⟨sys, chainId, w.hashedWords⟩ := ⟨hcid, hinj⟩
  have habout : ∀ l', about l' = eventsOf
      (World.chronicle sys l' (World.initial sys chainId timeout now) labels).accepted X :=
    fun l' => World.eventsOf_chronicle h l' X
  obtain ⟨hex, hst⟩ := hkept.source hX
  obtain ⟨⟨n, hdeposits, hevents⟩, _⟩ := (hkept.accounted l X).started hex hst
  have hother : about l.other = (if ((w.shared.chain l.other).bridge.crossTxInfo X).Exists
      then [.sendTxEvent X] else []) := by
    rw [habout]
    split
    next hexists =>
      obtain ⟨hsent, _⟩ := hkept.escrow hA hX hexists
      exact ((hkept.accounted l.other X).sent hexists hsent).2.2
    next hexists => exact ((hkept.accounted l.other X).blank hexists).2.2
  refine ⟨⟨n, hdeposits, (habout l).trans hevents⟩, hother, fun hack => ?_⟩
  rw [habout, hevents] at hack
  have hclosing := (List.mem_append.mp hack).resolve_left (by
    intro hmem
    cases List.eq_of_mem_replicate hmem)
  have hstatus : ((w.shared.chain l).bridge.crossTxInfo X).status = .ackSuccess := by
    by_contra hno
    simp only [CrossTxInfo.closing, if_neg hno] at hclosing
    split at hclosing <;> simp at hclosing
  have hknown := hkept.holds.good.books.acked l X hst hex (by
    intro hinit
    cases hinit.symm.trans hstatus)
  rw [hother]
  exact if_pos (hkept.holds.good.books.success l X hknown hstatus).1.1

/-- In the run that settles its transfer, layer 2 logged its `SendTx` once. -/
theorem settlement_events_settledRun : ∃ w : World Unit,
    World.run Formats.system (World.initial Formats.system (fun _ => 2) (fun _ => 100) (fun _ => 3))
      Formats.settledRun = some w ∧
    ((w.shared.chain .layer2).log.map Prod.snd).filter
      (fun event : Event => event.crossTxId = some Formats.settledId) =
        [.sendTxEvent Formats.settledId] := by
  obtain ⟨w, hrun, h1, h2, hlog, hsource, hescrow⟩ := Formats.settledRun_run
  have hevents := (settlement_events (fun _ => by decide) hrun (Formats.injOn_single h1 h2)
    (List.mem_of_getElem? hlog)).2.1
  refine ⟨w, hrun, hevents.trans (if_pos ?_)⟩
  rw [Layer.other, hescrow]
  decide

end CrosschainAgent
