import CrosschainAgent.System.Safety

/-!
# What is relayed is what was recorded

The escrow of a transfer carries the accounts, the amount and the timeout of its source
record, the submission that stored it carries the amount as its value, and a success ack
carries the time of execution of the escrow. Numbers are relayed through `strtol`, so this
needs them below `2 ^ 63`; without that the escrow carries them saturated.
-/

namespace CrosschainAgent

open Interaction Bridge Strings

variable {T : Type} [DecidableEq T]

namespace Scene

variable {S : Scene} {w : World T} {l : Layer} {X : Bytes}

/-- A submitted `SendTx` of a transfer carries it and its amount. -/
theorem Holds.posted_sendTx (hw : S.Holds w) {srcBid destBid : Text}
    {amount timeout value : Int64}
    (hp : (TxInput.sendTx (S.sys.abi.bytesText X) srcBid destBid amount timeout, value) ∈
      (w.shared.chain l.other).posted) :
    value.toInt = saturate (w.shared.books.record l X).amount ∧
      srcBid = S.sys.abi.addressText (w.shared.books.record l X).srcBid ∧
      destBid = S.sys.abi.addressText (w.shared.books.record l X).destBid ∧
      amount.toInt = saturate (w.shared.books.record l X).amount ∧
      timeout.toInt = saturate (w.shared.books.record l X).timeout := by
  obtain ⟨info, id, hd, (rfl : value = amount), hinput⟩ := (hw.good.chains l.other).posted _ hp
  rw [Layer.other_other] at hd
  simp only [Handle.sendTxInput, TxInput.sendTx.injEq] at hinput
  obtain ⟨hcross, hsrc, hdest, hamount, htimeout⟩ := hinput
  obtain rfl := S.sys.abi.bytesText_inj _ _ (hd.crosstxid.symm.trans hcross)
  exact ⟨hamount ▸ hd.amount, hsrc ▸ hd.srcbid, hdest ▸ hd.destbid, hamount ▸ hd.amount,
    htimeout ▸ hd.timeout⟩

/-- A submitted success ack of a transfer on its own layer is for its escrow. -/
theorem Holds.posted_ack (hw : S.Holds w) (hsent : S.Sent w.shared.books l.other X) {errorDesc : Text}
    {executeTime value : Int64}
    (hp : (TxInput.sendAckedTx (S.sys.abi.bytesText X) crossResultSuccess errorDesc executeTime,
      value) ∈ (w.shared.chain l).posted) :
    executeTime.toInt = saturate (w.shared.books.record l.other X).executeTimestamp := by
  have hknown := hw.good.books.sentKnown l.other X hsent
  rw [Layer.other_other] at hknown
  obtain ⟨id, hid, _, _, _, hwhat⟩ := (hw.good.chains l).posted _ hp
  obtain rfl := S.sys.abi.bytesText_inj _ _ hid
  rcases hwhat with hack | hreply
  · exact (hack.success rfl).2
  · exact absurd hsent (hw.good.books.not_sent_of_known hreply.known)

end Scene

/-- The relay is faithful. In every run of the composed system, for every transfer that started
on a layer and has a record on the other one: the two records agree on the accounts, the
amount and the timeout; a `SendTx` of the transfer is submitted with its amount as the value,
and a success ack with the time of execution of the other record. -/
theorem relay_faithful {sys : System} {chainId timeout now : Layer → ℕ}
    (hcid : ∀ l, chainId l ≠ 0) {labels : List (Label T)} {w : World T}
    (h : World.run sys (World.initial sys chainId timeout now) labels = some w)
    (hinj : Set.InjOn sys.sha256.hash w.hashedWords) {l : Layer} {X : Bytes} {time : ℕ}
    (hX : (time, Event.startTxEvent X) ∈ (w.shared.chain l).log)
    (hdest : ((w.shared.chain l.other).bridge.crossTxInfo X).Exists)
    (hamount : ((w.shared.chain l).bridge.crossTxInfo X).amount < 2 ^ 63)
    (htimeout : ((w.shared.chain l).bridge.crossTxInfo X).timeout < 2 ^ 63)
    (hexecute : ((w.shared.chain l.other).bridge.crossTxInfo X).executeTimestamp < 2 ^ 63) :
    ((w.shared.chain l.other).bridge.crossTxInfo X).srcBid =
        ((w.shared.chain l).bridge.crossTxInfo X).srcBid ∧
    ((w.shared.chain l.other).bridge.crossTxInfo X).destBid =
        ((w.shared.chain l).bridge.crossTxInfo X).destBid ∧
    ((w.shared.chain l.other).bridge.crossTxInfo X).amount =
        ((w.shared.chain l).bridge.crossTxInfo X).amount ∧
    ((w.shared.chain l.other).bridge.crossTxInfo X).timeout =
        ((w.shared.chain l).bridge.crossTxInfo X).timeout ∧
    (∀ srcBid destBid amount timeout value,
      (TxInput.sendTx (sys.abi.bytesText X) srcBid destBid amount timeout, value) ∈
          (w.shared.chain l.other).posted →
        value.toInt = ((w.shared.chain l.other).bridge.crossTxInfo X).amount) ∧
    ∀ errorDesc executeTime value,
      (TxInput.sendAckedTx (sys.abi.bytesText X) crossResultSuccess errorDesc executeTime, value) ∈
          (w.shared.chain l).posted →
        executeTime.toInt =
          ((w.shared.chain l.other).bridge.crossTxInfo X).executeTimestamp := by
  obtain ⟨hA, hw⟩ := run_scene hcid h hinj
  have hsent := hw.sent hA hX hdest
  have hcopies := hw.good.books.sentCopies l.other X hsent
  rw [Layer.other_other] at hcopies
  have hsame : ((w.shared.chain l.other).bridge.crossTxInfo X).amount =
      ((w.shared.chain l).bridge.crossTxInfo X).amount :=
    hcopies.amount.trans (saturate_of_lt hamount)
  refine ⟨hcopies.srcBid, hcopies.destBid, hsame, hcopies.timeout.trans (saturate_of_lt htimeout),
    fun srcBid destBid amount timeout value hp => ?_, fun errorDesc executeTime value hp => ?_⟩
  · rw [(hw.posted_sendTx hp).1, hsame]
    exact congrArg Nat.cast (saturate_of_lt hamount)
  · rw [hw.posted_ack hsent hp]
    exact congrArg Nat.cast (saturate_of_lt hexecute)

/-- In the run that settles its transfer, the escrow carries what the source record says. -/
theorem relay_faithful_settledRun : ∃ w : World Unit,
    World.run Formats.system (World.initial Formats.system (fun _ => 2) (fun _ => 100) (fun _ => 3))
      Formats.settledRun = some w ∧
    ((w.shared.chain .layer2).bridge.crossTxInfo Formats.settledId).amount =
      ((w.shared.chain .layer1).bridge.crossTxInfo Formats.settledId).amount := by
  obtain ⟨w, hrun, h1, h2, hlog, hsource, hescrow⟩ := Formats.settledRun_run
  have hfaithful := relay_faithful (fun _ => by decide) hrun (Formats.injOn_single h1 h2)
    (List.mem_of_getElem? hlog) (by rw [Layer.other, hescrow]; decide) (by rw [hsource]; decide)
    (by rw [hsource]; decide) (by rw [Layer.other, hescrow]; decide)
  exact ⟨w, hrun, hfaithful.2.2.1⟩

end CrosschainAgent
