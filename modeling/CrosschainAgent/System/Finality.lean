import CrosschainAgent.System.Accounts

/-!
# A settled transfer stays settled

Once a source record is no longer `INIT`, nothing that any user, any thread or any restart of the
agent does changes it again, but for its refund; and an escrow changes once at most, to
`ACK_SUCCESS`. So the escrow of a transfer that failed stays in its contract for good, and the payer
of a transfer that failed can take the refund at any time.
-/

namespace CrosschainAgent

open Interaction Bridge Strings

variable {T : Type} [DecidableEq T]

namespace Bridge

/-- The record is the same, or it was refunded in between. -/
def CrossTxInfo.RefundedFrom (r r' : CrossTxInfo) : Prop :=
  r' = r ∨ r.refunded = .todo ∧ r' = { r with refunded := .refunded }

/-- The record is the same, or it was acknowledged in between. -/
def CrossTxInfo.AckedFrom (r r' : CrossTxInfo) : Prop :=
  r' = r ∨ r.status = .init ∧ ∃ time, r' = { r with status := .ackSuccess, executeTimestamp := time }

/-- A refund leaves the status. -/
theorem CrossTxInfo.RefundedFrom.status_eq {r r' : CrossTxInfo} (h : r.RefundedFrom r') :
    r'.status = r.status := by
  rcases h with rfl | ⟨_, rfl⟩ <;> rfl

/-- Being refunded carries over two steps. -/
theorem CrossTxInfo.RefundedFrom.trans {r r' r'' : CrossTxInfo} (h : r.RefundedFrom r')
    (h' : r'.RefundedFrom r'') : r.RefundedFrom r'' := by
  rcases h with rfl | ⟨htodo, rfl⟩
  · exact h'
  · rcases h' with rfl | ⟨hno, _⟩
    · exact Or.inr ⟨htodo, rfl⟩
    · cases hno

/-- Being acknowledged carries over two steps. -/
theorem CrossTxInfo.AckedFrom.trans {r r' r'' : CrossTxInfo} (h : r.AckedFrom r')
    (h' : r'.AckedFrom r'') : r.AckedFrom r'' := by
  rcases h with rfl | ⟨hinit, time, rfl⟩
  · exact h'
  · rcases h' with rfl | ⟨hno, _⟩
    · exact Or.inr ⟨hinit, time, rfl⟩
    · cases hno

/-- A refund leaves the source chain. -/
theorem CrossTxInfo.RefundedFrom.srcChainId_eq {r r' : CrossTxInfo} (h : r.RefundedFrom r') :
    r'.srcChainId = r.srcChainId := by
  rcases h with rfl | ⟨_, rfl⟩ <;> rfl

/-- A refund neither creates nor removes a record. -/
theorem CrossTxInfo.RefundedFrom.exists_iff {r r' : CrossTxInfo} (h : r.RefundedFrom r') :
    r'.Exists ↔ r.Exists := by
  rcases h with rfl | ⟨_, rfl⟩ <;> rfl

/-- An ack leaves the source chain. -/
theorem CrossTxInfo.AckedFrom.srcChainId_eq {r r' : CrossTxInfo} (h : r.AckedFrom r') :
    r'.srcChainId = r.srcChainId := by
  rcases h with rfl | ⟨_, _, rfl⟩ <;> rfl

/-- An ack neither creates nor removes a record. -/
theorem CrossTxInfo.AckedFrom.exists_iff {r r' : CrossTxInfo} (h : r.AckedFrom r') :
    r'.Exists ↔ r.Exists := by
  rcases h with rfl | ⟨_, _, rfl⟩ <;> rfl

/-- What an accepted call does to an existing record that no `StartTx` hits. -/
theorem Accepted.record_step {l : Layer} {sha256 : Sha256} {b b' : State} {msg : Msg} {c : Call}
    {r : Receipt} (h : Accepted l sha256 b msg c b' r) {id : Bytes} (hex : (b.crossTxInfo id).Exists)
    (hmiss : ∀ src dest amount, c = .startTx src dest amount →
      id ≠ sha256.hash (startWords l b.chainId src dest amount msg.timestamp)) :
    (b.crossTxInfo id).RefundedFrom (b'.crossTxInfo id) ∨
      (b.crossTxInfo id).status = .init ∧
        ((∃ time, b'.crossTxInfo id =
            { b.crossTxInfo id with status := .ackSuccess, executeTimestamp := time }) ∨
          (b'.crossTxInfo id).status = .ackFail ∨ (b'.crossTxInfo id).status = .ackTimeout) := by
  cases h with
  | setTimeout | setOwner => exact Or.inl (Or.inl rfl)
  | startTx dest txId hid =>
    rw [store_crossTxInfo, Function.update_of_ne (hid ▸ hmiss _ _ _ rfl)]
    exact Or.inl (Or.inl rfl)
  | sendTx i src dest timeout owner length nonzero inTime fresh =>
    have hi : id ≠ i := by
      rintro rfl
      exact hex fresh
    rw [store_crossTxInfo, Function.update_of_ne hi]
    exact Or.inl (Or.inl rfl)
  | ackSuccess i desc time recipient events owner value length found init =>
    by_cases hi : id = i
    · subst hi
      rw [store_crossTxInfo, Function.update_self]
      exact Or.inr ⟨init, Or.inl ⟨time, rfl⟩⟩
    · rw [store_crossTxInfo, Function.update_of_ne hi]
      exact Or.inl (Or.inl rfl)
  | ackFailure i result desc time status desc' owner value length found init hdesc result_eq =>
    by_cases hi : id = i
    · subst hi
      rw [store_crossTxInfo, Function.update_self]
      refine Or.inr ⟨init, Or.inr ?_⟩
      exact result_eq.imp (fun heq => heq.2.1) fun heq => heq.2.1
    · rw [store_crossTxInfo, Function.update_of_ne hi]
      exact Or.inl (Or.inl rfl)
  | refund i value length found todo =>
    by_cases hi : id = i
    · subst hi
      rw [store_crossTxInfo, Function.update_self]
      exact Or.inl (Or.inr ⟨todo, rfl⟩)
    · rw [store_crossTxInfo, Function.update_of_ne hi]
      exact Or.inl (Or.inl rfl)

end Bridge

namespace Scene

variable {S : Scene} {w w' : World T}

/-- What a step does to a record of a known id. -/
theorem Holds.record_step (hA : S.Assumptions) (hw : S.Holds w) {label : Label T}
    (hstep : World.step S.sys w label = some w')
    (hH : ∀ l, ∀ words ∈ (w'.shared.chain l).hashed, words ∈ S.H) {l k : Layer} {X : Bytes}
    (hknown : S.Known w.shared.books k X) (hex : ((w.shared.chain l).bridge.crossTxInfo X).Exists) :
    ((w.shared.chain l).bridge.crossTxInfo X).RefundedFrom
        ((w'.shared.chain l).bridge.crossTxInfo X) ∨
      ((w.shared.chain l).bridge.crossTxInfo X).status = .init ∧
        ((∃ time, (w'.shared.chain l).bridge.crossTxInfo X =
            { (w.shared.chain l).bridge.crossTxInfo X with
              status := .ackSuccess, executeTimestamp := time }) ∨
          ((w'.shared.chain l).bridge.crossTxInfo X).status = .ackFail ∨
          ((w'.shared.chain l).bridge.crossTxInfo X).status = .ackTimeout) := by
  cases World.step_executes hstep l with
  | idle none_called same =>
    rw [same.bridge]
    exact Or.inl (Or.inl rfl)
  | call msg call receipt b is_called now exec bridge hashed =>
    rw [bridge]
    refine (exec_accepted exec).record_step hex ?_
    rintro src dest amount rfl hid
    have hchain := (hw.good.chains l).chainId
    rw [hchain, now] at hid
    refine hw.good.not_known hA (hH l _ ?_) hid k hknown
    rw [hashed, hchain, ← now]
    exact List.mem_append_left _ (Option.mem_toList.mpr rfl)

/-- A settled source record is refunded at most. -/
theorem Holds.source_step (hA : S.Assumptions) (hw : S.Holds w) {label : Label T}
    (hstep : World.step S.sys w label = some w')
    (hH : ∀ l, ∀ words ∈ (w'.shared.chain l).hashed, words ∈ S.H) {l : Layer} {X : Bytes}
    (hex : ((w.shared.chain l).bridge.crossTxInfo X).Exists)
    (hst : isStarted l (S.cid l) ((w.shared.chain l).bridge.crossTxInfo X).srcChainId = true)
    (hset : ((w.shared.chain l).bridge.crossTxInfo X).status ≠ .init) :
    ((w.shared.chain l).bridge.crossTxInfo X).RefundedFrom
      ((w'.shared.chain l).bridge.crossTxInfo X) :=
  (hw.record_step hA hstep hH (hw.good.books.acked l X hst hex hset) hex).resolve_right
    fun hinit => hset hinit.1

/-- An escrow is acknowledged at most. -/
theorem Holds.escrow_step (hA : S.Assumptions) (hw : S.Holds w)
    (hwell : ∀ l, (w.shared.chain l).bridge.WellFormed) {label : Label T}
    (hstep : World.step S.sys w label = some w')
    (hH : ∀ l, ∀ words ∈ (w'.shared.chain l).hashed, words ∈ S.H) {l : Layer} {X : Bytes}
    (hsent : S.Sent w.shared.books l X) :
    ((w.shared.chain l).bridge.crossTxInfo X).AckedFrom
      ((w'.shared.chain l).bridge.crossTxInfo X) := by
  have hsteps := World.step_steps hstep
  have hstatus := hw.good.books.sentStatus l X hsent
  have hsent' := ((hw.later hA hsteps hH).sent l X hsent).1
  have hstatus' := (hw.step hA hsteps hH).good.books.sentStatus l X hsent'
  rcases hw.record_step hA hstep hH (hw.good.books.sentKnown l X hsent) hsent.1 with
    (hsame | ⟨htodo, _⟩) | ⟨hinit, hack | hfail | htimeout⟩
  · exact Or.inl hsame
  · have hnone := ((hwell l).refunds X).mpr (hstatus.imp_right And.left)
    exact nomatch hnone.symm.trans htodo
  · exact Or.inr ⟨hinit, hack⟩
  · rcases hstatus' with hs | ⟨hs, _⟩ <;> exact nomatch hs.symm.trans hfail
  · rcases hstatus' with hs | ⟨hs, _⟩ <;> exact nomatch hs.symm.trans htimeout

/-- How one world came from another: settled source records were refunded at most, and escrows
acknowledged at most. -/
structure Continues (S : Scene) (w w' : World T) : Prop where
  source : ∀ l X, ((w.shared.chain l).bridge.crossTxInfo X).Exists →
    isStarted l (S.cid l) ((w.shared.chain l).bridge.crossTxInfo X).srcChainId = true →
    ((w.shared.chain l).bridge.crossTxInfo X).status ≠ .init →
      ((w.shared.chain l).bridge.crossTxInfo X).RefundedFrom
        ((w'.shared.chain l).bridge.crossTxInfo X)
  escrow : ∀ l X, S.Sent w.shared.books l X →
    ((w.shared.chain l).bridge.crossTxInfo X).AckedFrom
      ((w'.shared.chain l).bridge.crossTxInfo X)

/-- The invariant goes on along a run, and the records continue. -/
theorem run_continues (hA : S.Assumptions) (hw : S.Holds w)
    (hwell : ∀ l, (w.shared.chain l).bridge.WellFormed) {labels : List (Label T)}
    (h : World.run S.sys w labels = some w')
    (hH : ∀ l, ∀ words ∈ (w'.shared.chain l).hashed, words ∈ S.H) :
    S.Holds w' ∧ S.Continues w w' := by
  have hrun : S.Holds w' ∧ (∀ l, (w'.shared.chain l).bridge.WellFormed) ∧ S.Continues w w' := by
    refine World.run_induction (P := fun u => (∀ l, ∀ words ∈ (u.shared.chain l).hashed, words ∈ S.H) →
      S.Holds u ∧ (∀ l, (u.shared.chain l).bridge.WellFormed) ∧ S.Continues w u) ?_ ?_ h hH
    · exact fun _ => ⟨hw, hwell, fun _ _ _ _ _ => Or.inl rfl, fun _ _ _ => Or.inl rfl⟩
    · intro u label u' hu hstep hH'
      have hsteps := World.step_steps hstep
      obtain ⟨hhu, hwu, hcu⟩ := hu fun l words hmem => hH' l words (hsteps.hashed_subset l hmem)
      refine ⟨hhu.step hA hsteps hH', fun l => ?_, fun l X hex hst hset => ?_, fun l X hsent => ?_⟩
      · cases World.step_executes hstep l with
        | idle none_called same => exact same.bridge ▸ hwu l
        | call msg call receipt b is_called now exec bridge =>
          exact bridge ▸ (exec_accepted exec).wellFormed (hwu l)
      · have hsame := hcu.source l X hex hst hset
        exact hsame.trans (hhu.source_step hA hstep hH' (hsame.exists_iff.mpr hex)
          (hsame.srcChainId_eq ▸ hst) (hsame.status_eq ▸ hset))
      · have hsame := hcu.escrow l X hsent
        refine hsame.trans (hhu.escrow_step hA hwu hstep hH' ⟨hsame.exists_iff.mpr hsent.1, ?_⟩)
        have hsent' := hsent.2
        rwa [show (w.shared.books.record l X).srcChainId = _ from hsame.srcChainId_eq.symm] at hsent'
  exact ⟨hrun.1, hrun.2.2⟩

end Scene

/-- A settlement is final. Whatever happens after a world that a run of the system reaches: the source
record of a transfer that is no longer `INIT` stays as it is, but for its refund; the escrow of a
transfer stays as it is, but for one acknowledgement; and when the transfer failed at its source, its
escrow is never acknowledged, so that the owner's deposit stays in the contract. -/
theorem settlement_final {sys : System} {chainId timeout now : Layer → ℕ}
    (hcid : ∀ l, chainId l ≠ 0) {labels labels' : List (Label T)} {w w' : World T}
    (h : World.run sys (World.initial sys chainId timeout now) labels = some w)
    (h' : World.run sys w labels' = some w')
    (hinj : Set.InjOn sys.sha256.hash w'.hashedWords) {l : Layer} {X : Bytes} {time : ℕ}
    (hX : (time, Event.startTxEvent X) ∈ (w.shared.chain l).log) :
    let source := (w.shared.chain l).bridge.crossTxInfo X
    let escrow := (w.shared.chain l.other).bridge.crossTxInfo X
    (source.status ≠ .init →
      source.RefundedFrom ((w'.shared.chain l).bridge.crossTxInfo X)) ∧
    (escrow.Exists → escrow.AckedFrom ((w'.shared.chain l.other).bridge.crossTxInfo X)) ∧
    (escrow.Exists → source.status = .ackFail ∨ source.status = .ackTimeout →
      (w'.shared.chain l.other).bridge.crossTxInfo X = escrow ∧ escrow.owed = escrow.amount) := by
  intro source escrow
  let S : Scene := ⟨sys, chainId, w'.hashedWords⟩
  have hA : S.Assumptions := ⟨hcid, hinj⟩
  have hsub : ∀ l, ∀ words ∈ (w.shared.chain l).hashed, words ∈ S.H := by
    intro l words hmem
    refine ⟨l, World.run_induction (P := fun u => words ∈ (u.shared.chain l).hashed) hmem ?_ h'⟩
    intro u label u' hu hstep
    exact (World.step_steps hstep).hashed_subset l hu
  have hw : S.Holds w := Scene.run_holds (S := S) hA h hsub
  have hwell := World.run_wellFormed h
  obtain ⟨hw', hcontinues⟩ := Scene.run_continues hA hw hwell h' fun l words hmem => ⟨l, hmem⟩
  obtain ⟨hex, hst⟩ : source.Exists ∧ isStarted l (chainId l) source.srcChainId = true := by
    obtain ⟨src, dest, amount, hmem, rfl⟩ := (hw.good.chains l).log _ hX
    exact hw.good.books.started l _ hmem
  refine ⟨hcontinues.source l X hex hst, fun hescrow => ?_, fun hescrow hfailed => ?_⟩
  · exact hcontinues.escrow l.other X (hw.sent hA hX hescrow)
  · have hsent := hw.sent hA hX hescrow
    have hset : source.status ≠ .init := by
      rcases hfailed with hs | hs <;> rw [hs] <;> decide
    have hno : ∀ u : World T, S.Holds u → S.Sent u.shared.books l.other X →
        ((u.shared.chain l).bridge.crossTxInfo X).status = source.status →
        ((u.shared.chain l.other).bridge.crossTxInfo X).status = .init := by
      intro u hu hsent' hsame
      have hstatus := hu.good.books.sentStatus l.other X hsent'
      rw [Layer.other_other] at hstatus
      refine hstatus.resolve_right fun hboth => ?_
      have hsuccess := hsame.symm.trans hboth.2
      rcases hfailed with hs | hs <;> exact nomatch hs.symm.trans hsuccess
    have hinit : escrow.status = .init := hno w hw hsent rfl
    have hacked := hcontinues.escrow l.other X hsent
    have hsent' : S.Sent w'.shared.books l.other X := by
      refine ⟨hacked.exists_iff.mpr hescrow, ?_⟩
      have hchain := hsent.2
      rwa [show (w.shared.books.record l.other X).srcChainId = _ from hacked.srcChainId_eq.symm] at hchain
    have hinit' := hno w' hw' hsent' (hcontinues.source l X hex hst hset).status_eq
    refine ⟨?_, if_pos ⟨hescrow, Or.inl hinit⟩⟩
    rcases hacked with hsame | ⟨_, t, hack⟩
    · exact hsame
    · rw [hack] at hinit'
      cases hinit'

/-- What may follow the run that settles its source record: the ack event is handled, and the reply
executed on layer 2. -/
def Formats.repliedRun : List (Label Unit) :=
  [.block .layer1 5, .deliver () .layer1 1] ++
  acts () (recordReplies { sourceRecord with status := .ackSuccess, executeTimestamp := 4 } ++
    [.reply (ledgerReply 100), .posted (some "c".toList) (submitReply "c"), .stored true, .time 7, .go,
      .stored true, .go]) ++
  [.execute .layer2 1 (fun _ => true)]

/-- It is possible, and acknowledges the escrow. -/
theorem Formats.repliedRun_run : ∃ w w' : World Unit,
    World.run Formats.system (World.initial Formats.system (fun _ => 2) (fun _ => 100) (fun _ => 3))
      Formats.settledRun = some w ∧
    World.run Formats.system w repliedRun = some w' ∧
    (w'.shared.chain .layer1).hashed = [startWords .layer1 2 7 8 5 3] ∧
    (w'.shared.chain .layer2).hashed = [] ∧
    (w.shared.chain .layer1).log[0]? = some (3, .startTxEvent settledId) ∧
    (w.shared.chain .layer1).bridge.crossTxInfo settledId =
      { sourceRecord with status := .ackSuccess, executeTimestamp := 4 } ∧
    (w.shared.chain .layer2).bridge.crossTxInfo settledId = escrowRecord ∧
    ((w'.shared.chain .layer2).bridge.crossTxInfo settledId).status = .ackSuccess := by
  have hcheck : ((World.run Formats.system
      (World.initial Formats.system (fun _ => 2) (fun _ => 100) (fun _ => 3)) settledRun).any fun w =>
    (World.run Formats.system w repliedRun).any fun w' =>
      (w'.shared.chain .layer1).hashed = [startWords .layer1 2 7 8 5 3] ∧
      (w'.shared.chain .layer2).hashed = [] ∧
      (w.shared.chain .layer1).log[0]? = some (3, .startTxEvent settledId) ∧
      (w.shared.chain .layer1).bridge.crossTxInfo settledId =
        { sourceRecord with status := .ackSuccess, executeTimestamp := 4 } ∧
      (w.shared.chain .layer2).bridge.crossTxInfo settledId = escrowRecord ∧
      ((w'.shared.chain .layer2).bridge.crossTxInfo settledId).status = .ackSuccess) = true := by
    decide +kernel
  obtain ⟨w, hrun, hw⟩ := (Option.any_eq_true _ _).mp hcheck
  obtain ⟨w', hrun', hw'⟩ := (Option.any_eq_true _ _).mp hw
  exact ⟨w, w', hrun, hrun', of_decide_eq_true hw'⟩

/-- After the run that settles its source record the ack event is handled and the reply executed: the
source record is final, and the escrow was acknowledged once. -/
theorem settlement_final_settledRun : ∃ w w' : World Unit,
    World.run Formats.system (World.initial Formats.system (fun _ => 2) (fun _ => 100) (fun _ => 3))
      Formats.settledRun = some w ∧
    World.run Formats.system w Formats.repliedRun = some w' ∧
    ((w.shared.chain .layer1).bridge.crossTxInfo Formats.settledId).RefundedFrom
      ((w'.shared.chain .layer1).bridge.crossTxInfo Formats.settledId) ∧
    ((w.shared.chain .layer2).bridge.crossTxInfo Formats.settledId).AckedFrom
      ((w'.shared.chain .layer2).bridge.crossTxInfo Formats.settledId) ∧
    ((w'.shared.chain .layer2).bridge.crossTxInfo Formats.settledId).status = .ackSuccess := by
  obtain ⟨w, w', hrun, hrun', h1, h2, hlog, hsource, hescrow, hacked⟩ := Formats.repliedRun_run
  obtain ⟨hfinal, honce, _⟩ := settlement_final (fun _ => by decide) hrun hrun' (Formats.injOn_single h1 h2)
    (List.mem_of_getElem? hlog)
  refine ⟨w, w', hrun, hrun', hfinal ?_, honce ?_, hacked⟩
  · rw [hsource]
    decide
  · rw [show Layer.layer1.other = .layer2 from rfl, hescrow]
    decide

/-- A refund that is due and comes from the payer pays. -/
theorem Bridge.refund_eq_ok {b : State} {msg : Msg} {id : Bytes} (value : msg.value = 0)
    (length : id.length = 32) (todo : (b.crossTxInfo id).refunded = .todo)
    (exists_ : (b.crossTxInfo id).Exists) (payer : (b.crossTxInfo id).srcBid = msg.sender)
    (funds : (b.crossTxInfo id).amount ≤ b.balance)
    (taken : msg.accepts (b.crossTxInfo id).srcBid = true) :
    refund b msg id = .ok
      ({ b with balance := b.balance - (b.crossTxInfo id).amount }.store id
          { b.crossTxInfo id with refunded := .refunded },
        { events := [.refundEvent id],
          transfers := [((b.crossTxInfo id).srcBid, (b.crossTxInfo id).amount)] }) := by
  have hpos := List.length_pos_of_ne_nil exists_
  simp only [refund, nonPayable, require_bind_eq_ok, transfer_bind_eq_ok]
  exact ⟨value, length, hpos, todo, payer, funds, taken, rfl⟩

/-- The payer of a transfer that failed gets its money back. In every reachable world, whatever else
happened and whatever the agent does or does not: a user's `Refund` of a transfer that started on the
chain goes through exactly when the transfer failed or timed out and was not refunded yet, and the
user is the payer and can be paid. The refund pays the amount of the deposit, marks the record and
logs its event. -/
theorem refund_step_iff {sys : System} {chainId timeout now : Layer → ℕ}
    (hcid : ∀ l, chainId l ≠ 0) {labels : List (Label T)} {w w' : World T}
    (h : World.run sys (World.initial sys chainId timeout now) labels = some w)
    (hinj : Set.InjOn sys.sha256.hash w.hashedWords) {l : Layer} {X : Bytes} {time : ℕ}
    (hX : (time, Event.startTxEvent X) ∈ (w.shared.chain l).log) {sender : Address} {value : ℕ}
    {accepts : Address → Bool} :
    let c := w.shared.chain l
    let source := c.bridge.crossTxInfo X
    (World.step sys w (.user l sender value accepts (.refund X)) = some w' ↔
      ((source.status = .ackFail ∨ source.status = .ackTimeout) ∧ source.refunded ≠ .refunded) ∧
        sender = source.srcBid ∧ value = 0 ∧ accepts sender = true ∧
        w' = { w with shared := w.shared.setChain l { c with
          bridge := { c.bridge with balance := c.bridge.balance - source.amount }.store X
            { source with refunded := .refunded }
          log := c.log ++ [(c.now, .refundEvent X)] } }) ∧
      ((source.status = .ackFail ∨ source.status = .ackTimeout) ∧ source.refunded ≠ .refunded →
        source.amount ≤ c.bridge.balance) := by
  intro c source
  have hkept := Scene.run_kept hcid h hinj
  obtain ⟨hex, hst⟩ := hkept.source hX
  have hrefunds := (hkept.wellFormed l).refunds X
  have htodo : (source.status = .ackFail ∨ source.status = .ackTimeout) ∧
      source.refunded ≠ .refunded ↔ source.refunded = .todo := by
    change source.refunded = .none ↔ source.status = .init ∨ source.status = .ackSuccess at hrefunds
    cases hs : source.status <;> cases hr : source.refunded <;> simp_all
  have hstranger : source.srcBid ≠ sys.owner l := by
    obtain ⟨src, dest, amount, hmem, hid⟩ := (hkept.holds.good.chains l).log _ hX
    obtain ⟨hsrc, heq, _⟩ := hkept.transfers l src dest amount time hmem X hid.symm
    exact heq ▸ hsrc
  have hfunds : source.refunded = .todo → source.amount ≤ c.bridge.balance := by
    intro hr
    have hsound := @run_sound l sys.sha256 (sys.owner l) (chainId l) (timeout l)
      (World.calls sys l (World.initial sys chainId timeout now) labels)
    have hstate := World.chronicle_state h l
    have hle := @Chronicle.Sound.amount_le _ hsound X
    rw [show (Bridge.run l sys.sha256 (deploy (sys.owner l) (chainId l) (timeout l)) _).state = _
      from hstate] at hle
    exact hle ⟨hex, Or.inr hr⟩
  rw [htodo]
  refine ⟨⟨fun hstep => ?_, ?_⟩, hfunds⟩
  · cases World.step_steps hstep with
    | user _ _ _ _ _ c' stranger hexec =>
      obtain ⟨b, receipt, hacc, rfl⟩ := Chain.exec_accepted hexec
      cases hacc with
      | refund _ value length found todo payer funds taken =>
        refine ⟨todo, payer.symm, value, (congrArg accepts payer).symm.trans taken, ?_⟩
        simp [Entry.hashed, c, source]
  · rintro ⟨todo, rfl, rfl, taken, rfl⟩
    have hlength : X.length = 32 := by
      obtain ⟨src, dest, amount, _, rfl⟩ := (hkept.holds.good.chains l).log _ hX
      exact sys.sha256.length_hash _
    let msg : Msg := ⟨source.srcBid, 0, c.now, accepts⟩
    have hrefund := @Bridge.refund_eq_ok c.bridge msg X rfl hlength todo hex rfl (hfunds todo) taken
    simp only [World.step, if_neg hstranger, Chain.exec, Bridge.exec]
    rw [hrefund]
    simp [Entry.hashed, c, source]

/-- A transfer is started on layer 1, its escrow is not taken, and the failure is acknowledged. -/
def Formats.failedRun : List (Label Unit) :=
  [.user .layer1 7 5 (fun _ => true) (.startTx 7 8 5), .block .layer1 4, .deliver () .layer1 0] ++
  Formats.acts () (Formats.recordReplies Formats.sourceRecord ++ [.reply (Formats.ledgerReply 100),
    .posted none .error, .reply (Formats.ledgerReply 100),
    .posted (some "a".toList) (Formats.submitReply "a"), .stored true, .time 6, .go]) ++
  [.execute .layer1 0 (fun _ => true)]

/-- A run that ends with a failed transfer that waits for its refund. -/
theorem Formats.failedRun_run : ∃ w : World Unit,
    World.run Formats.system (World.initial Formats.system (fun _ => 2) (fun _ => 100) (fun _ => 3))
      Formats.failedRun = some w ∧
    (w.shared.chain .layer1).hashed = [startWords .layer1 2 7 8 5 3] ∧
    (w.shared.chain .layer2).hashed = [] ∧
    (w.shared.chain .layer1).log[0]? = some (3, .startTxEvent Formats.settledId) ∧
    (w.shared.chain .layer1).bridge.crossTxInfo Formats.settledId =
      { Formats.sourceRecord with
        status := .ackFail, refunded := .todo, errorDesc := "send tx failed".toList } := by
  have hcheck : ((World.run Formats.system
      (World.initial Formats.system (fun _ => 2) (fun _ => 100) (fun _ => 3)) Formats.failedRun).any fun w =>
    (w.shared.chain .layer1).hashed = [startWords .layer1 2 7 8 5 3] ∧
    (w.shared.chain .layer2).hashed = [] ∧
    (w.shared.chain .layer1).log[0]? = some (3, .startTxEvent Formats.settledId) ∧
    (w.shared.chain .layer1).bridge.crossTxInfo Formats.settledId =
      { Formats.sourceRecord with
        status := .ackFail, refunded := .todo, errorDesc := "send tx failed".toList }) = true := by
    decide +kernel
  obtain ⟨w, hrun, hw⟩ := (Option.any_eq_true _ _).mp hcheck
  exact ⟨w, hrun, of_decide_eq_true hw⟩

/-- After the escrow was not taken, the payer gets the 5 coins back. -/
theorem refund_step_iff_failedRun : ∃ w w' : World Unit,
    World.run Formats.system (World.initial Formats.system (fun _ => 2) (fun _ => 100) (fun _ => 3))
      Formats.failedRun = some w ∧
    World.step Formats.system w (.user .layer1 7 0 (fun _ => true) (.refund Formats.settledId)) = some w' ∧
    ((w'.shared.chain .layer1).bridge.crossTxInfo Formats.settledId).refunded = .refunded := by
  obtain ⟨w, hrun, h1, h2, hlog, hsource⟩ := Formats.failedRun_run
  refine ⟨w, _, hrun, ((refund_step_iff (fun _ => by decide) hrun (Formats.injOn_single h1 h2)
    (List.mem_of_getElem? hlog)).1.mpr ⟨?_, ?_, rfl, rfl, rfl⟩), ?_⟩
  · rw [hsource]
    decide
  · rw [hsource]
    rfl
  · rw [setChain_chain_self, store_crossTxInfo, Function.update_self]

end CrosschainAgent
