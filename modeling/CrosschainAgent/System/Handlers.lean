import CrosschainAgent.System.Steps

/-!
# The handlers submit and store only what is justified

One rule per function of the handlers: whatever the other threads, the chains and the network
do meanwhile, everything it submits and stores says something true of the books. What a
handler reads of a record was true when it was read, and what it makes of it stays true.
-/

namespace CrosschainAgent

open Interaction Bridge Strings HttpClient

variable {T : Type} [DecidableEq T] {S : Scene} {t : T} {w : Shared T} {α : Type}

namespace Scene

/-- The thread is safe, and its result satisfies `Q`. -/
abbrev Does (S : Scene) (t : T) (Q : α → Shared T → Prop) (p : AgentM α) (w : Shared T) : Prop :=
  Safe (S.rules T) t Q p w

/-- An operation that needs no justification. -/
theorem Does.perform {o : Op} (hpre : ∀ B, S.Pre B o) :
    S.Does t (fun _ _ => True) (perform o) w :=
  Safe.perform (fun _ _ _ => hpre _) fun _ _ _ _ _ _ _ _ _ => trivial

/-- An operation that is justified now stays justified. -/
theorem Does.perform_pre {o : Op} (hpre : S.Pre w.books o)
    (hlater : ∀ B, S.Later w.books B → S.Pre w.books o → S.Pre B o) :
    S.Does t (fun _ _ => True) (Interaction.perform o) w :=
  Safe.perform (fun w' hw' _ => hlater w'.books hw' hpre) fun _ _ _ _ _ _ _ _ _ => trivial

/-- A value that may be missing: the thread ends or goes on with it. -/
theorem Does.orTerminate {Q : α → Shared T → Prop} {x : Option α}
    (h : ∀ a, x = some a → ∀ w', S.Later w.books w'.books → S.Good w' → Q a w') :
    S.Does t Q (orTerminate x) w := by
  cases x with
  | none => exact fun _ _ _ => ⟨trivial, fun r => r.elim⟩
  | some a => exact Safe.pure (h a rfl)

/-- A sequence does what its parts do, when the first one promises nothing. -/
theorem Does.andThen {β : Type} {Q : β → Shared T → Prop} {p : AgentM α} {f : α → AgentM β}
    (hp : S.Does t (fun _ _ => True) p w)
    (hf : ∀ a w', S.Later w.books w'.books → S.Good w' → S.Does t Q (f a) w') :
    S.Does t Q (p >>= f) w :=
  Safe.bind (hp.mono fun a w' hw' hgood _ => hf a w' hw' hgood)

/-- Returning does nothing. -/
theorem Does.ret (a : α) : S.Does t (fun _ _ => True) (pure a) w := Safe.pure fun _ _ _ => trivial

/-- Asking for a height changes nothing. -/
theorem getLayerSeq_does (l : Layer) : S.Does t (fun _ _ => True) (getLayerSeq l) w :=
  Does.andThen (Does.perform fun _ => trivial) fun _ _ _ _ =>
    Does.orTerminate fun _ _ _ _ _ => trivial

/-- Some time since, the transaction with the hash had been executed. -/
def Confirms (S : Scene) (w : Shared T) (l : Layer) (txHash : Text) (found : Bool) (w' : Shared T) :
    Prop :=
  found = true → ∃ u : Shared T, S.Later w.books u.books ∧ S.Later u.books w'.books ∧ S.Good u ∧
    txHash ∈ (u.chain l).done

/-- A transaction that is reported as successful was executed. -/
theorem getTxResult_does (l : Layer) (txHash : Text) :
    S.Does t (S.Confirms w l txHash) (getTxResult l txHash) w := by
  refine Safe.bind (Safe.perform (fun _ _ _ => trivial) ?_)
  intro u resp u' hu hgood hact v hv _
  refine Safe.bind (Does.orTerminate fun result hresult w' hw' _ => Safe.pure fun w'' hw'' _ hfound => ?_)
  cases hact with
  | query _ _ _ truthful =>
    obtain ⟨⟨⟩, rfl⟩ := Option.isSome_iff_exists.mp hfound
    rw [Shared.truthful, hresult] at truthful
    exact ⟨u, hu, (Books.Later.trans hv hw').trans hw'', hgood, of_decide_eq_true truthful⟩

/-- Asking for the status of a transfer changes nothing. -/
theorem getCrossTxStatus_does (l : Layer) (crossTxId : Text) :
    S.Does t (fun _ _ => True) (getCrossTxStatus S.sys.su.conf l crossTxId) w := by
  unfold getCrossTxStatus HttpClient.getCrossTxInfo2
  refine Does.andThen (Does.andThen (Does.perform fun _ => trivial) fun _ _ _ _ =>
    Does.orTerminate fun _ _ _ _ _ => trivial) fun r _ _ _ => ?_
  cases r with
  | none => exact Does.ret _
  | some data =>
    exact Does.andThen (Does.orTerminate fun _ _ _ _ _ => trivial) fun _ _ _ _ =>
      Does.andThen (Does.orTerminate fun _ _ _ _ _ => trivial) fun _ _ _ _ => Does.ret _

/-- The data was returned by the contract at some time since. -/
def Answers (S : Scene) (w : Shared T) (l : Layer) (q : ContractQuery) (data : Option Text)
    (w' : Shared T) : Prop :=
  ∀ text, data = some text → ∃ u : Shared T, S.Later w.books u.books ∧ S.Later u.books w'.books ∧
    S.Good u ∧ text = S.sys.abi.queryText (u.chain l).bridge q

/-- A query of the contract of the endpoint's own layer. -/
theorem query_does {l : Layer} {input : QueryInput} {q : ContractQuery}
    (hq : S.sys.abi.decodeQuery input.function input.args = some q) :
    S.Does t (S.Answers w l q) (Interaction.perform
      (Op.http l (.callContract (S.sys.su.conf.crossContract l) input)) >>= fun resp =>
        CrosschainAgent.orTerminate (withBody readQueryData resp)) w := by
  refine Safe.bind (Safe.perform (fun _ _ _ => trivial) ?_)
  intro u resp u' hu hgood hact v hv _
  refine Does.orTerminate fun data hdata w' hw' _ text htext => ?_
  cases hact with
  | query _ _ _ truthful =>
    subst htext
    rw [Shared.truthful, hdata] at truthful
    obtain ⟨_, hanswer⟩ := of_decide_eq_true truthful
    rw [hq, Option.map_some, Option.some.injEq] at hanswer
    exact ⟨u, hu, Books.Later.trans hv hw', hgood, hanswer.symm⟩

/-- The message was read from the record of the id, its two halves one after the other. -/
def Reads (S : Scene) (w : Shared T) (l : Layer) (id : Bytes) (res : Option Protocol.CrossTxInfo)
    (w' : Shared T) : Prop :=
  ∀ info, res = some info → ∃ u v : Shared T, S.Later w.books u.books ∧ S.Later u.books v.books ∧
    S.Later v.books w'.books ∧ S.Good u ∧ S.Good v ∧
    info = S.sys.abi.infoOf (u.books.record l id) (v.books.record l id)

/-- A record that is read is one the contract had, or has by now. -/
theorem readCrossTxInfo_does (h : Handle) (l : Layer) (id : Bytes) :
    S.Does t (S.Reads w l id) (Handle.readCrossTxInfo S.sys.su h l (S.sys.abi.bytesText id)) w := by
  unfold Handle.readCrossTxInfo getLayerCrossTxInfo
  simp only [bind_assoc]
  refine Safe.bind ((query_does (S.sys.abi.decodeQuery_info1 id)).mono fun r1 w1 _ _ hr1 => ?_)
  cases r1 with
  | none => exact Safe.pure fun _ _ _ _ hnone => nomatch hnone
  | some text1 =>
    obtain ⟨u, hwu, huw1, hu, rfl⟩ := hr1 text1 rfl
    simp only [bind_assoc]
    refine Safe.bind ((query_does (S.sys.abi.decodeQuery_info2 id)).mono fun r2 w2 _ _ hr2 => ?_)
    cases r2 with
    | none => exact Safe.pure fun _ _ _ _ hnone => nomatch hnone
    | some text2 =>
      obtain ⟨v, hw1v, hvw2, hv, rfl⟩ := hr2 text2 rfl
      rw [pure_bind]
      dsimp only
      rw [NodeAbi.makeCrossTxInfo_queryText]
      refine Does.orTerminate fun a ha w' hw' _ info hinfo => ?_
      cases ha
      cases hinfo
      exact ⟨u, v, hwu, huw1.trans hw1v, hvw2.trans hw', hu, hv, rfl⟩

/-- A submission that was accepted with a hash was received under it. -/
def Receives (l : Layer) (input : TxInput) (amount : Int64) (txhash : Option Text) (w' : Shared T) :
    Prop :=
  ∀ hash, txhash = some hash → hash = [] ∨ ⟨hash, input, amount⟩ ∈ w'.books.received l

/-- A justified submission may be made, and an accepted one was received. -/
theorem sendTransaction_does {l : Layer} {input : TxInput} {amount : Int64}
    (hj : S.Justified w.books l input amount) :
    S.Does t (Receives l input amount) (Handle.sendTransaction S.sys.su l input amount) w := by
  refine Safe.bind ((getLayerSeq_does l).mono fun seq w' hw' _ _ => ?_)
  cases seq with
  | none => exact Safe.pure fun _ _ _ _ hnone => nomatch hnone
  | some seq =>
    refine Safe.bind (Safe.perform (fun _ hB _ => hj.later (hw'.trans hB)) ?_)
    intro u resp u' _ _ hact v hv _
    refine Does.orTerminate fun txhash hread w'' hw'' _ hash heq => ?_
    subst heq
    have haccepted : acceptedHash resp = some hash := by rw [acceptedHash, hread, Option.join_some]
    cases hact with
    | query _ _ _ truthful => cases truthful
    | lost _ _ _ _ _ unnamed => exact Or.inl (unnamed hash haccepted)
    | received _ _ _ _ _ hash' accepted =>
      refine (accepted hash haccepted).imp_right fun heq => ?_
      subst heq
      refine hw''.received l (hv.received l ?_)
      simp [Shared.books]

/-- What an entry stands for in a store. -/
theorem entryOk_ofInfo {B : Books} {s : Store} {info : Protocol.CrossTxInfo} (due : Int64)
    (hinfo : S.InfoOk B info s) : S.EntryOk B s info.crosstxid
      { CrossTx.ofInfo S.sys.su.codec info with sendAckTimeout := due } :=
  ⟨info, due, rfl, rfl, hinfo⟩

/-- The serialised form of right information is a right value. -/
theorem valueOk_ofInfo {B : Books} {s : Store} {info : Protocol.CrossTxInfo}
    (hinfo : S.InfoOk B info s) : S.ValueOk B (s.keyPrefix ++ info.crosstxid)
      (S.sys.su.codec.serializeAsString info) :=
  ⟨s, info, rfl, rfl, hinfo⟩

/-- Right information may be written to the database. -/
theorem dbPut_does {s : Store} {info : Protocol.CrossTxInfo} (hinfo : S.InfoOk w.books info s) :
    S.Does t (fun _ _ => True) (Interaction.perform (Op.dbPut (s.keyPrefix ++ info.crosstxid)
      (S.sys.su.codec.serializeAsString info))) w :=
  Does.perform_pre (valueOk_ofInfo hinfo) fun _ hB hpre => hpre.later hB

/-- Right information may be kept in a map, with any due time. -/
theorem emplace_does {s : Store} {info : Protocol.CrossTxInfo} (due : Int64)
    (hinfo : S.InfoOk w.books info s) :
    S.Does t (fun _ _ => True) (Interaction.perform (Op.emplace s info.crosstxid
      { CrossTx.ofInfo S.sys.su.codec info with sendAckTimeout := due })) w :=
  Does.perform_pre (entryOk_ofInfo due hinfo) fun _ hB hpre => hpre.later hB

/-- Right information may be saved. -/
theorem saveInfo_does {s : Store} {info : Protocol.CrossTxInfo} (hinfo : S.InfoOk w.books info s) :
    S.Does t (fun _ _ => True) (Handle.saveInfo s (CrossTx.ofInfo S.sys.su.codec info)) w :=
  Does.andThen (dbPut_does hinfo) fun _ _ hw' _ => emplace_does 0 (hinfo.later hw')

/-- Right information of an ack may be saved. -/
theorem saveAckInfo_does (h : Handle) {s : Store} {info : Protocol.CrossTxInfo}
    (hinfo : S.InfoOk w.books info s) :
    S.Does t (fun _ _ => True) (Handle.saveAckInfo h s (CrossTx.ofInfo S.sys.su.codec info)) w := by
  cases h with
  | layer1 =>
    exact Does.andThen (dbPut_does hinfo) fun _ _ hw' _ =>
      Does.andThen (Does.perform fun _ => trivial) fun _ _ hw'' _ =>
        emplace_does _ (hinfo.later (hw'.trans hw''))
  | layer2 =>
    exact Does.andThen (Does.perform fun _ => trivial) fun _ _ hw' _ =>
      Does.andThen (dbPut_does (hinfo.later hw')) fun _ _ hw'' _ =>
        emplace_does _ (hinfo.later (hw'.trans hw''))

/-- Forgetting an entry is always right. -/
theorem clearInfo_does (s : Store) (crossTxid : Text) :
    S.Does t (fun _ _ => True) (Handle.clearInfo s crossTxid) w :=
  Does.andThen (Does.perform fun _ => trivial) fun _ _ _ _ => Does.perform fun _ => trivial

/-- A known transfer may be submitted to the other layer. -/
theorem sendTxTo_does {h : Handle} {info : Protocol.CrossTxInfo} {id : Bytes}
    (hd : S.Describes w.books h info id) :
    S.Does t (fun _ _ => True) (Handle.sendTxTo S.sys.su h info) w := by
  have hj : S.Justified w.books h.other (Handle.sendTxInput info) info.amount :=
    ⟨info, id, by rwa [Layer.other_other], rfl, rfl⟩
  refine Safe.bind ((sendTransaction_does hj).mono fun txhash w' hw' _ hreceives => ?_)
  cases txhash with
  | none => exact Does.ret _
  | some txhash =>
    have hd' := hd.later hw'
    have hinfo : S.InfoOk w'.books { info with sendtxhash := txhash } (.send h) :=
      ⟨id, ⟨hd'.known, hd'.crosstxid, hd'.srcbid, hd'.destbid, hd'.amount, hd'.timeout, hd'.time⟩,
        (hreceives txhash rfl).imp_right fun hmem => ⟨info.amount, hmem⟩⟩
    exact Does.andThen (saveInfo_does hinfo) fun _ _ _ _ => Does.ret _

/-- No description of an error has a comma or a quote in it. -/
theorem errorDesc_plain (h : Handle) (info : Protocol.CrossTxInfo) :
    ',' ∉ Handle.errorDesc h info ∧ '\'' ∉ Handle.errorDesc h info := by
  unfold Handle.errorDesc
  split
  · decide
  · cases h <;> decide

/-- A justified ack may be submitted to the layer of the transfer. -/
theorem sendAckTo_does {h : Handle} {info : Protocol.CrossTxInfo} {id : Bytes}
    (ha : S.AckInfo w.books h info id) :
    S.Does t (fun _ _ => True) (Handle.sendAckTo S.sys.su h info) w := by
  obtain ⟨hcomma, hquote⟩ := errorDesc_plain h info
  have hj : S.Justified w.books h (Handle.sendAckedTxInput h info) 0 :=
    ⟨id, ha.crosstxid, hcomma, hquote, ha.time, Or.inl ha.ack⟩
  refine Safe.bind ((sendTransaction_does hj).mono fun txhash w' hw' _ _ => ?_)
  cases txhash with
  | none => exact Does.ret _
  | some txhash =>
    have hinfo : S.InfoOk w'.books (info.setAckHash h txhash) (.ack h) := by
      have ha' := ha.later hw'
      cases h <;> exact ⟨id, ha'.crosstxid, ha'.time, ha'.ack⟩
    exact Does.andThen (saveAckInfo_does h hinfo) fun _ _ _ _ => Does.ret _

/-- A justified reply may be submitted to the other layer. -/
theorem replyAckTo_does {h : Handle} {info : Protocol.CrossTxInfo} {id : Bytes}
    (hid : info.crosstxid = S.sys.abi.bytesText id)
    (hr : S.ReplyFor w.books h info.status info.executetimestamp id) :
    S.Does t (fun _ _ => True) (Handle.replyAckTo S.sys.su h info) w := by
  obtain ⟨hcomma, hquote⟩ := errorDesc_plain h info
  have hj : S.Justified w.books h.other (Handle.sendAckedTxInput h info) 0 :=
    ⟨id, hid, hcomma, hquote, ⟨_, hr.time⟩, Or.inr (by rwa [Layer.other_other])⟩
  refine Safe.bind ((sendTransaction_does hj).mono fun txhash w' hw' _ _ => ?_)
  cases txhash with
  | none => exact Does.ret _
  | some txhash =>
    have hinfo : S.InfoOk w'.books (info.setAckHash h.other txhash) (.reply h) := by
      have hr' := hr.later hw'
      cases h <;> exact ⟨id, hid, hr'⟩
    exact Does.andThen (saveAckInfo_does h hinfo) fun _ _ _ _ => Does.ret _

/-- The verdict on a known transfer may be anything but a success. -/
theorem Describes.ackInfo {B : Books} {h : Handle} {info : Protocol.CrossTxInfo} {id : Bytes}
    (hd : S.Describes B h info id) {status : Int32} (hstatus : Verdict status)
    (hne : status ≠ crossResultSuccess) : S.AckInfo B h { info with status := status } id :=
  ⟨hd.crosstxid, hd.time, ⟨hd.known, hstatus, fun hs => absurd hs hne⟩⟩

omit [DecidableEq T] in
/-- What is read of a known transfer on its own layer describes it. -/
theorem Reads.describes {h : Handle} {id : Bytes} {w' : Shared T} {info : Protocol.CrossTxInfo}
    (hk : S.Known w.books h id) (hr : S.Reads w h id (some info) w') :
    S.Describes w'.books h info id := by
  obtain ⟨u, v, hwu, huv, hvw', hu, hv, rfl⟩ := hr info rfl
  have hku := hk.later hwu
  have hkv := hku.later huv
  have hsame := huv.source h id hku
  have hsame' := hvw'.source h id hkv
  have hkey := hu.books.keyed h id (hu.books.of_known hku).1
  constructor
  case known => exact hkv.later hvw'
  case crosstxid => exact congrArg S.sys.abi.bytesText hkey
  case srcbid => rw [hsame'.srcBid, hsame.srcBid]; rfl
  case destbid => rw [hsame'.destBid, hsame.destBid]; rfl
  case amount => rw [hsame'.amount, hsame.amount]; exact stol_decimal _
  case timeout => rw [hsame'.timeout]; exact stol_decimal _
  case time => exact ⟨_, stol_decimal _⟩

omit [DecidableEq T] in
/-- What is read of an escrow backs a success ack of its transfer. -/
theorem Reads.ackInfo {h : Handle} {id : Bytes} {w' : Shared T} {info : Protocol.CrossTxInfo}
    (hs : S.Sent w.books h.other id) (hr : S.Reads w h.other id (some info) w') :
    S.AckInfo w'.books h { info with status := crossResultSuccess } id := by
  obtain ⟨u, v, hwu, huv, hvw', hu, hv, rfl⟩ := hr info rfl
  obtain ⟨hsent, _⟩ := hwu.sent h.other id hs
  obtain ⟨hsentv, _⟩ := huv.sent h.other id hsent
  obtain ⟨hsent', htime⟩ := hvw'.sent h.other id hsentv
  have hknown := (hv.books.sentKnown h.other id hsentv).later hvw'
  rw [Layer.other_other] at hknown
  refine ⟨congrArg S.sys.abi.bytesText (hu.books.keyed h.other id hsent.1), ⟨_, stol_decimal _⟩,
    ⟨hknown, Or.inl rfl, fun _ => ⟨hsent', ?_⟩⟩⟩
  rw [htime]
  exact stol_decimal _

omit [DecidableEq T] in
/-- What is read of a known transfer that succeeded on its own layer backs a reply. -/
theorem Reads.replyFor {h : Handle} {id : Bytes} {w' : Shared T} {info : Protocol.CrossTxInfo}
    (hk : S.Known w.books h id) (hsuccess : (w.books.record h id).status = .ackSuccess)
    (hr : S.Reads w h id (some info) w') : info.crosstxid = S.sys.abi.bytesText id ∧
      S.ReplyFor w'.books h info.status info.executetimestamp id := by
  have hcross := (hr.describes hk).crosstxid
  obtain ⟨u, v, hwu, huv, hvw', hu, hv, rfl⟩ := hr info rfl
  have hkv := (hk.later hwu).later huv
  have hdone : (w.books.record h id).status ≠ .init := by
    rw [hsuccess]
    decide
  have hstatus := ((hwu.trans huv).source h id hk).status hdone
  rw [hsuccess] at hstatus
  have hdone' : (v.books.record h id).status ≠ .init := by
    rw [hstatus]
    decide
  have hsame := hvw'.source h id hkv
  refine ⟨hcross, hkv.later hvw', ?_, (hsame.status hdone').trans hstatus, ?_⟩
  · change stoi (decimal (v.books.record h id).status.toNat) = crossResultSuccess
    rw [hstatus]
    decide
  · rw [hsame.executeTimestamp hdone']
    exact stol_decimal _

/-- The handler of a `SendTx` event keeps the invariant. -/
theorem handleSendTxEvent_does {h : Handle} {id : Bytes} (hs : S.Sent w.books h.other id) :
    S.Does t (fun _ _ => True)
      (Handle.handleSendTxEventWith S.sys.su h (S.sys.abi.bytesText id) crossResultSuccess) w := by
  refine Safe.bind ((readCrossTxInfo_does h h.other id).mono fun res w' hw' _ hr => ?_)
  cases res with
  | none => exact Does.ret _
  | some info =>
    refine Does.andThen (sendAckTo_does (hr.ackInfo hs)) fun ok _ _ _ => ?_
    cases ok with
    | false => exact Does.ret _
    | true => exact Does.andThen (clearInfo_does _ _) fun _ _ _ _ => Does.ret _

/-- The handler of an ack event keeps the invariant. -/
theorem handleSendAckdTxEvent_does {h : Handle} {id : Bytes} (hk : S.Known w.books h id)
    (hsuccess : (w.books.record h id).status = .ackSuccess) :
    S.Does t (fun _ _ => True)
      (Handle.handleSendAckdTxEvent S.sys.su h (S.sys.abi.bytesText id)) w := by
  refine Safe.bind ((readCrossTxInfo_does h h id).mono fun res w' hw' _ hr => ?_)
  cases res with
  | none => exact Does.ret _
  | some info =>
    obtain ⟨hcross, hreply⟩ := hr.replyFor hk hsuccess
    refine Does.andThen (replyAckTo_does hcross hreply) fun ok _ _ _ => ?_
    cases ok with
    | false => exact Does.ret _
    | true => exact Does.andThen (clearInfo_does _ _) fun _ _ _ _ => Does.ret _

/-- The handler of a start event of layer 1 keeps the invariant. -/
theorem layer1_handleStartTxEvent_does {id : Bytes} (hk : S.Known w.books .layer1 id) :
    S.Does t (fun _ _ => True)
      (Layer1ToLayer2Handle.handleStartTxEvent S.sys.su (S.sys.abi.bytesText id)) w := by
  refine Safe.bind ((readCrossTxInfo_does .layer1 .layer1 id).mono fun res w' hw' _ hr => ?_)
  cases res with
  | none => exact Does.ret _
  | some info =>
    have hd := hr.describes hk
    refine Does.andThen (sendTxTo_does hd) fun ok w'' hw'' _ => ?_
    cases ok with
    | false =>
      exact Does.andThen (sendAckTo_does ((hd.later hw'').ackInfo (Or.inr (Or.inl rfl)) (by decide)))
        fun _ _ _ _ => Does.ret _
    | true => exact Does.ret _

/-- The handler of a start event of layer 2 keeps the invariant. -/
theorem layer2_handleStartTxEvent_does {id : Bytes} (hk : S.Known w.books .layer2 id) :
    S.Does t (fun _ _ => True)
      (Layer2ToLayer1Handle.handleStartTxEvent S.sys.su (S.sys.abi.bytesText id)) w := by
  refine Safe.bind ((readCrossTxInfo_does .layer2 .layer2 id).mono fun res w' hw' _ hr => ?_)
  cases res with
  | none => exact Does.ret _
  | some info =>
    refine Does.andThen (getLayerSeq_does .layer2) fun seq w'' hw'' _ => ?_
    cases seq with
    | none => exact Does.ret _
    | some seq =>
      have hd := (hr.describes hk).later hw''
      exact Does.andThen (saveInfo_does (s := .start) ⟨id, hd.known, hd.crosstxid, hd.srcbid,
        hd.destbid, hd.amount, hd.timeout, hd.time⟩) fun _ _ _ _ => Does.ret _

/-- Every entry of a pass is what the invariant allows. -/
theorem entries_does (s : Store) : S.Does t
    (fun infos w' => ∀ p ∈ infos, S.EntryOk w'.books s p.1 p.2) (Interaction.perform (Op.entries s))
    w := by
  refine Safe.perform (fun _ _ _ => trivial) ?_
  intro w' r w'' _ hgood hact v hv _ p hp
  cases hact with
  | entries _ free =>
    have hget := Std.ExtTreeMap.mem_toList_iff_getElem?_eq_some.mp hp
    exact (hgood.maps s p.1 p.2 hget).later hv

/-- A pass over a locked map is safe when it is for each of its entries. -/
theorem pass_does {s : Store} {f : Text × CrossTx → AgentM Unit}
    (h : ∀ (w' : Shared T) key e, S.EntryOk w'.books s key e →
      S.Does t (fun _ _ => True) (f (key, e)) w') :
    S.Does t (fun _ _ => True) (do
      Interaction.perform (Op.lock s)
      let infos ← Interaction.perform (Op.entries s)
      infos.forM f
      Interaction.perform (Op.unlock s)) w := by
  refine Does.andThen (Does.perform fun _ => trivial) fun _ w1 _ _ => ?_
  refine Safe.bind ((entries_does s).mono fun infos w2 _ _ hinfos => ?_)
  refine Does.andThen (Safe.forM_later fun p hp w3 hw3 _ => ?_) fun _ _ _ _ =>
    Does.perform fun _ => trivial
  exact h w3 p.1 p.2 ((hinfos p hp).later hw3)

omit [DecidableEq T] in
/-- A message whose `SendTx` was executed under the hash it keeps has its escrow. -/
theorem Confirms.sent {h : Handle} {info : Protocol.CrossTxInfo} {id : Bytes} {w' : Shared T}
    (hd : S.Describes w.books h info id) (hs : Submitted w.books h info)
    (hc : S.Confirms w h.other info.sendtxhash true w') : S.Sent w'.books h.other id := by
  obtain ⟨u, hwu, huw', hu, hdone⟩ := hc rfl
  have hchain := hu.chains h.other
  rcases hs.later hwu with hnil | ⟨amount, hmem⟩
  · obtain ⟨tx, htx, hhash, _⟩ := hchain.done _ hdone
    exact absurd (hhash.trans hnil) (hchain.named tx htx)
  · exact (huw'.sent h.other id (hchain.executed hmem hdone _ _ _ _ _ (hd.later hwu).decodeCall)).1

/-- What is done about a `SendTx` without a receipt keeps the invariant. -/
theorem sendTxExpired_does {h : Handle} {key : Text} {e : CrossTx}
    (he : S.EntryOk w.books (.send h) key e) :
    S.Does t (fun _ _ => True) (Handle.sendTxExpired S.sys.su h e) w := by
  obtain ⟨info, due, rfl, _, id, hd, hsubmitted⟩ := he
  refine Safe.bind ((getTxResult_does _ _).mono fun found w' hw' _ hconfirms => ?_)
  have hd' := hd.later hw'
  cases found with
  | true =>
    have hid : (CrossTx.ofInfo S.sys.su.codec info).crossTxId = S.sys.abi.bytesText id :=
      hd.crosstxid
    refine Does.andThen ?_ fun _ _ _ _ => Does.ret _
    change S.Does t _ (Handle.handleSendTxEventWith S.sys.su h
      (CrossTx.ofInfo S.sys.su.codec info).crossTxId crossResultSuccess) w'
    rw [hid]
    exact handleSendTxEvent_does (hconfirms.sent hd hsubmitted)
  | false =>
    simp only [CrossTx.info_ofInfo]
    refine Does.andThen (sendAckTo_does (hd'.ackInfo (Or.inr (Or.inr rfl)) (by decide)))
      fun ok _ _ _ => ?_
    cases ok with
    | false => exact Does.ret _
    | true => exact clearInfo_does _ _

/-- What is done about an ack that is due keeps the invariant when sending it again does. -/
theorem ackExpired_does {s : Store} {l : Layer} {currentTime : Int64} {key : Text} {e : CrossTx}
    {resend : AgentM Bool}
    (h : ∀ w' : Shared T, S.Later w.books w'.books → S.Does t (fun _ _ => True) resend w') :
    S.Does t (fun _ _ => True) (Handle.ackExpired S.sys.su s l currentTime key e resend) w := by
  refine Safe.bind ((getTxResult_does _ _).mono fun found w1 hw1 _ _ => ?_)
  cases found with
  | true => exact clearInfo_does _ _
  | false =>
    refine Does.andThen (getCrossTxStatus_does _ _) fun status w2 hw2 _ => ?_
    by_cases hstatus : status = crossResultInit
    · simp only [hstatus, ne_eq, not_true_eq_false, if_false]
      exact Does.andThen (h w2 (hw1.trans hw2)) fun _ _ _ _ => Does.perform fun _ => trivial
    · simp only [ne_eq, hstatus, not_false_eq_true, if_true]
      exact clearInfo_does _ _

/-- Sending a due ack again keeps the invariant. -/
theorem sendAckExpired_does {h : Handle} {currentTime : Int64} {key : Text} {e : CrossTx}
    (he : S.EntryOk w.books (.ack h) key e) :
    S.Does t (fun _ _ => True) (Handle.sendAckExpired S.sys.su h currentTime key e) w := by
  obtain ⟨info, due, rfl, _, id, hack⟩ := he
  unfold Handle.sendAckExpired
  simp only [CrossTx.info_ofInfo]
  split
  · exact Does.andThen (sendAckTo_does hack) fun _ _ _ _ => Does.perform fun _ => trivial
  · exact ackExpired_does fun w' hw' => sendAckTo_does (hack.later hw')

/-- The pass over the send store keeps the invariant. -/
theorem sendTxTimeOut_does (h : Handle) :
    S.Does t (fun _ _ => True) (Handle.sendTxTimeOut S.sys.su h) w := by
  refine Does.andThen (Does.perform fun _ => trivial) fun now _ _ _ => pass_does fun w' key e he => ?_
  dsimp only
  split
  · exact sendTxExpired_does he
  · exact Does.ret _

/-- The pass over the ack store keeps the invariant. -/
theorem sendAckTimeOut_does (h : Handle) :
    S.Does t (fun _ _ => True) (Handle.sendAckTimeOut S.sys.su h) w := by
  refine Does.andThen (Does.perform fun _ => trivial) fun now _ _ _ => pass_does fun w' key e he => ?_
  dsimp only
  split
  · exact sendAckExpired_does he
  · exact Does.ret _

/-- The pass over the reply store keeps the invariant. -/
theorem replyAckTimeOut_does (h : Handle) :
    S.Does t (fun _ _ => True) (Handle.replyAckTimeOut S.sys.su h) w := by
  refine Does.andThen (Does.perform fun _ => trivial) fun now _ _ _ => pass_does fun w' key e he => ?_
  dsimp only
  split
  · obtain ⟨info, due, rfl, _, id, hid, hr⟩ := he
    refine ackExpired_does fun u hu => ?_
    rw [CrossTx.info_ofInfo]
    exact replyAckTo_does hid (hr.later hu)
  · exact Does.ret _

/-- What is done with a confirmed entry keeps the invariant. -/
theorem confirmed_does {info : Protocol.CrossTxInfo} {id : Bytes} {currentTime : Int64}
    (hd : S.Describes w.books .layer2 info id) :
    S.Does t (fun _ _ => True) (Layer2ToLayer1Handle.confirmed S.sys.su info currentTime) w := by
  unfold Layer2ToLayer1Handle.confirmed
  split
  · exact Does.andThen (sendAckTo_does (hd.ackInfo (Or.inr (Or.inr rfl)) (by decide)))
      fun _ _ _ _ => Does.ret _
  · refine Does.andThen (sendTxTo_does hd) fun ok _ _ _ => ?_
    cases ok with
    | false => exact Does.ret _
    | true => exact clearInfo_does _ _

/-- A confirmation of a height keeps the invariant. -/
theorem handleConfirmSeqEvent_does (confirmSeq : Int64) :
    S.Does t (fun _ _ => True) (Layer2ToLayer1Handle.handleConfirmSeqEvent S.sys.su confirmSeq)
      w := by
  refine pass_does fun w' key e he => ?_
  refine Does.andThen (Does.perform fun _ => trivial) fun now w'' hw'' _ => ?_
  obtain ⟨info, due, rfl, _, id, hd⟩ := he
  simp only [CrossTx.info_ofInfo]
  split
  · exact confirmed_does (hd.later hw'')
  · exact Does.ret _

/-- The pass over the start store keeps the invariant. -/
theorem startTxTimeOut_does :
    S.Does t (fun _ _ => True) (Layer2ToLayer1Handle.startTxTimeOut S.sys.su) w := by
  refine Does.andThen (Does.perform fun _ => trivial) fun now _ _ _ => pass_does fun w' key e he => ?_
  obtain ⟨info, due, rfl, _, id, hd⟩ := he
  simp only [CrossTx.info_ofInfo]
  split
  · refine Does.andThen (sendAckTo_does (hd.ackInfo (Or.inr (Or.inl rfl)) (by decide)))
      fun ok _ _ _ => ?_
    cases ok with
    | false => exact Does.ret _
    | true => exact clearInfo_does _ _
  · exact Does.ret _

/-- One round of the timer keeps the invariant. -/
theorem onTimer_does :
    S.Does t (fun _ _ => True) (HandleManager.onTimer S.sys.su) w := by
  refine Does.andThen ?_ fun _ _ _ _ => ?_
  · exact Does.andThen (sendTxTimeOut_does .layer1) fun _ _ _ _ =>
      Does.andThen (sendAckTimeOut_does .layer1) fun _ _ _ _ => replyAckTimeOut_does .layer1
  · exact Does.andThen startTxTimeOut_does fun _ _ _ _ =>
      Does.andThen (sendTxTimeOut_does .layer2) fun _ _ _ _ =>
        Does.andThen (sendAckTimeOut_does .layer2) fun _ _ _ _ => replyAckTimeOut_does .layer2

/-- What is loaded from the database is what the invariant allows. -/
theorem loadInfo_does (s : Store) (due : Bool) :
    S.Does t (fun _ _ => True) (Handle.loadInfo S.sys.su s due) w := by
  have hscan : S.Does t (fun res w' => ∀ values, res = some values → ∀ value ∈ values,
      ∃ info, value = S.sys.su.codec.serializeAsString info ∧ S.InfoOk w'.books info s)
      (Interaction.perform (Op.dbScan s.keyPrefix)) w := by
    refine Safe.perform (fun _ _ _ => trivial) ?_
    intro w' r w'' _ hgood hact v hv _ values hvalues value hmem
    cases hact with
    | dbScan _ ok =>
      rw [Option.ite_none_right_eq_some] at hvalues
      obtain ⟨_, hvalues⟩ := hvalues
      cases hvalues
      obtain ⟨key, hprefix, hget⟩ := AgentState.mem_valuesByPrefix.mp hmem
      obtain ⟨s', info, rfl, rfl, hinfo⟩ := hgood.db key value hget
      obtain rfl := Store.eq_of_keyPrefix hprefix (List.prefix_append _ _)
      exact ⟨info, rfl, hinfo.later hv⟩
  refine Safe.bind (hscan.mono fun res w1 _ _ hres => ?_)
  cases res with
  | none => exact Does.ret _
  | some values =>
    refine Safe.forM_later fun value hvalue w2 hw2 _ => ?_
    obtain ⟨info, rfl, hinfo⟩ := hres values rfl value hvalue
    have hinfo2 := hinfo.later hw2
    simp only [Handle.loadValue, S.sys.su.codec.parse_serialize]
    cases due with
    | false => exact emplace_does 0 hinfo2
    | true =>
      exact Does.andThen (Does.perform fun _ => trivial) fun _ _ hw3 _ =>
        emplace_does _ (hinfo2.later hw3)

/-- Loading the stores keeps the invariant. -/
theorem initializeHandle_does : S.Does t (fun _ _ => True) (HandleManager.initializeHandle S.sys.su) w := by
  refine Does.andThen ?_ fun _ _ _ _ => ?_
  · exact Does.andThen (loadInfo_does _ _) fun _ _ _ _ =>
      Does.andThen (loadInfo_does _ _) fun _ _ _ _ => loadInfo_does _ _
  · exact Does.andThen (loadInfo_does _ _) fun _ _ _ _ =>
      Does.andThen (loadInfo_does _ _) fun _ _ _ _ =>
        Does.andThen (loadInfo_does _ _) fun _ _ _ _ => loadInfo_does _ _

/-- The call a subscriber makes of an event of a closed block. -/
theorem tlog_does {l : Layer} {time : ℕ} {event : Event}
    {call : HandleManager.Call} (he : S.EventOk w.books l (time, event)) (htime : time < w.books.now l)
    (hcall : tlogOf S.sys.abi l event = some call) :
    S.Does t (fun _ _ => True) (HandleManager.run S.sys.su call) w := by
  cases event with
  | startTxEvent id =>
    cases hcall
    obtain ⟨src, dest, amount, hmem, hhash⟩ := he
    have hk : S.Known w.books l id := ⟨src, dest, amount, time, hmem, hhash, htime⟩
    cases l with
    | layer1 => exact layer1_handleStartTxEvent_does hk
    | layer2 => exact layer2_handleStartTxEvent_does hk
  | sendTxEvent id =>
    cases hcall
    cases l with
    | layer1 => exact handleSendTxEvent_does he
    | layer2 => exact handleSendTxEvent_does he
  | sendAckedTxEvent id =>
    cases hcall
    cases l with
    | layer1 => exact handleSendAckdTxEvent_does he.1 he.2
    | layer2 => exact handleSendAckdTxEvent_does he.1 he.2
  | refundEvent | setOwnerEvent | setTimeoutEvent => cases hcall

/-- The call for a confirmation keeps the invariant. -/
theorem confirm_does (confirmSeq : Int64) :
    S.Does t (fun _ _ => True) (HandleManager.run S.sys.su (.confirm confirmSeq)) w :=
  Does.andThen (handleConfirmSeqEvent_does confirmSeq) fun _ _ _ _ => Does.ret _

/-- The call of the timer keeps the invariant. -/
theorem timer_does :
    S.Does t (fun _ _ => True) (HandleManager.run S.sys.su .timer) w :=
  Does.andThen onTimer_does fun _ _ _ _ => Does.ret _

end Scene

end CrosschainAgent
