import CrosschainAgent.Session.Provenance

/-!
# What comes before a submission

A `SendTx` is submitted by the StartTx event of a layer-1 transfer, with the record it has just read,
or by a confirmation, for an entry of the start map that was not past its timeout when the clock was
last read. The passes over the start map acknowledge a transfer only under the lock of the map, and a
confirmation only when the last reading is past the timeout of the entry.
-/

namespace CrosschainAgent

open Interaction Std HttpClient

variable {su : Setup} {h : Handle} {steps more : List Step} {id : Text} {timeout : Int64}

/-- What the step read from the clock. -/
def Step.reading : Step → Option Int64
  | ⟨_, .highResolution, now⟩ => some now
  | _ => none

/-- What was last read from the clock. -/
def lastReading (steps : List Step) : Option Int64 := (steps.filterMap Step.reading).getLast?

/-- The lock of the start map was taken, and not given back. -/
def UnderLock (steps : List Step) : Prop :=
  (∃ step ∈ steps, step.op = .lock .start) ∧ ∀ step ∈ steps, step.op ≠ .unlock .start

/-- Since the lock of the start map was taken, the clock was last read when the timeout had not
passed. -/
def FoundInTime (timeout : Int64) (steps : List Step) : Prop :=
  ∃ before after now, steps = before ++ after ∧ UnderLock before ∧
    (∀ step ∈ after, step.op ≠ .unlock .start) ∧ lastReading after = some now ∧ ¬timeout < now

/-- The entry was found in the start map. -/
def Starts (su : Setup) (steps : List Step) (id : Text) (timeout : Int64) : Prop :=
  ∃ before infos, (⟨before, .entries .start, infos⟩ : Step) ∈ steps ∧ ∃ p ∈ infos,
    (p.2.info su.codec).crosstxid = id ∧ (p.2.info su.codec).timeout = timeout

/-- The operation submits the `SendTx` of the transfer to the other layer. -/
def Op.SendsTx (h : Handle) (id : Text) : Op → Prop
  | .http l (.submitTransaction _ (.sendTx crossTxId _ _ _ _) _ _) => l = h.other ∧ crossTxId = id
  | _ => False

/-- The call walks through the start map. -/
def HandlerCall.WalksStart : {h : Handle} → HandlerCall h → Prop
  | _, .handleConfirmSeqEvent _ | _, .startTxTimeOut => True
  | _, _ => False

/-- What comes before a `SendTx` of a call. -/
def Releasing (su : Setup) : {h : Handle} → Option (HandlerCall h) → List Step → Text → Prop
  | .layer1, some (.handleStartTxEvent crossTxid), steps, id => ∃ info rest seq,
      Replays (Handle.readCrossTxInfo su .layer1 .layer1 crossTxid) steps (some info) rest ∧
      Replays (getLayerSeq .layer2) rest (some seq) [] ∧ info.crosstxid = id
  | .layer2, some (.handleConfirmSeqEvent _), steps, id => ∃ timeout, Starts su steps id timeout ∧
      FoundInTime timeout steps
  | _, _, _, _ => False

/-- What comes before an ack of a call. -/
def Acking (su : Setup) : {h : Handle} → Option (HandlerCall h) → List Step → Text → Prop
  | _, some (.handleConfirmSeqEvent _), steps, id => UnderLock steps ∧ ∃ timeout now,
      Starts su steps id timeout ∧ lastReading steps = some now ∧ timeout < now
  | _, some .startTxTimeOut, steps, _ => UnderLock steps
  | _, _, _, _ => True

/-- What comes before an operation of a call. -/
structure Ordered (su : Setup) (call : Option (HandlerCall h)) (steps : List Step) (o : Op) : Prop where
  sendTx : ∀ id, o.SendsTx h id → Releasing su call steps id
  ack : ∀ id, o.AcksFor h id → Acking su call steps id

/-- On layer 1 it is the StartTx event that submits it. -/
theorem Releasing.layer1 {call : Option (HandlerCall .layer1)} (hreleasing : Releasing su call steps id) :
    ∃ crossTxid info rest seq, call = some (.handleStartTxEvent crossTxid) ∧
      Replays (Handle.readCrossTxInfo su .layer1 .layer1 crossTxid) steps (some info) rest ∧
      Replays (getLayerSeq .layer2) rest (some seq) [] ∧ info.crosstxid = id := by
  cases call with
  | none => exact hreleasing.elim
  | some call =>
    cases call with
    | handleStartTxEvent crossTxid =>
      obtain ⟨info, rest, seq, hread, hseq, hid⟩ := hreleasing
      exact ⟨crossTxid, info, rest, seq, rfl, hread, hseq, hid⟩
    | handleSendTxEvent | handleSendAckdTxEvent | sendTxTimeOut | sendAckTimeOut | replyAckTimeOut =>
      exact hreleasing.elim

/-- On layer 2 it is a confirmation. -/
theorem Releasing.layer2 {call : Option (HandlerCall .layer2)} (hreleasing : Releasing su call steps id) :
    ∃ confirmSeq timeout, call = some (.handleConfirmSeqEvent confirmSeq) ∧
      Starts su steps id timeout ∧ FoundInTime timeout steps := by
  cases call with
  | none => exact hreleasing.elim
  | some call =>
    cases call with
    | handleConfirmSeqEvent confirmSeq =>
      obtain ⟨timeout, hstarts, htime⟩ := hreleasing
      exact ⟨confirmSeq, timeout, rfl, hstarts, htime⟩
    | handleStartTxEvent | handleSendTxEvent | handleSendAckdTxEvent | sendTxTimeOut | sendAckTimeOut
    | replyAckTimeOut | startTxTimeOut => exact hreleasing.elim

/-- The last reading of the clock. -/
theorem lastReading_snoc (step : Step) :
    lastReading (steps ++ [step]) = (step.reading <|> lastReading steps) := by
  rw [lastReading, List.filterMap_append]
  cases hstep : step.reading with
  | none => rw [List.filterMap_cons_none hstep, List.filterMap_nil, List.append_nil]; rfl
  | some now => rw [List.filterMap_cons_some hstep, List.filterMap_nil, List.getLast?_concat]; rfl

/-- A reading in the later part is the last one. -/
theorem lastReading_append_of_some {now : Int64} (hlast : lastReading more = some now) :
    lastReading (steps ++ more) = some now := by
  rw [lastReading, List.filterMap_append, List.getLast?_append, ← lastReading, hlast]
  rfl

/-- A part without readings changes nothing. -/
theorem lastReading_append_of_none (hnone : ∀ step ∈ more, step.reading = none) :
    lastReading (steps ++ more) = lastReading steps := by
  rw [lastReading, List.filterMap_append, List.filterMap_eq_nil_iff.mpr hnone, List.append_nil]
  rfl

/-- The lock is held as long as it is not given back. -/
theorem UnderLock.append (hlock : UnderLock steps) (hmore : ∀ step ∈ more, step.op ≠ .unlock .start) :
    UnderLock (steps ++ more) := by
  obtain ⟨⟨step, hstep, hop⟩, hunlock⟩ := hlock
  exact ⟨⟨step, List.mem_append_left _ hstep, hop⟩, List.forall_mem_append.mpr ⟨hunlock, hmore⟩⟩

/-- What is in time is under the lock, and the last reading says so. -/
theorem FoundInTime.lock (htime : FoundInTime timeout steps) :
    UnderLock steps ∧ ∃ now, lastReading steps = some now ∧ ¬timeout < now := by
  obtain ⟨before, after, now, rfl, hlock, hafter, hlast, hnow⟩ := htime
  exact ⟨hlock.append hafter, now, lastReading_append_of_some hlast, hnow⟩

/-- What is in time after a step was so before it, or the step read the clock under the lock. -/
theorem FoundInTime.of_snoc {step : Step} (htime : FoundInTime timeout (steps ++ [step])) :
    step.reading = none ∧ FoundInTime timeout steps ∨
      UnderLock steps ∧ ∃ now, step.reading = some now ∧ ¬timeout < now := by
  obtain ⟨before, after, now, heq, hlock, hafter, hlast, hnow⟩ := htime
  rcases List.eq_nil_or_concat after with rfl | ⟨after', last, rfl⟩
  · cases hlast
  · rw [List.concat_eq_append, ← List.append_assoc] at heq
    obtain ⟨rfl, hstep⟩ := List.append_inj' heq rfl
    cases hstep
    rw [List.concat_eq_append] at hafter hlast
    have hafter' := (List.forall_mem_append.mp hafter).1
    rw [lastReading_snoc] at hlast
    cases hreading : step.reading with
    | none =>
      rw [hreading] at hlast
      exact Or.inl ⟨rfl, before, after', now, rfl, hlock, hafter', hlast, hnow⟩
    | some now' =>
      rw [hreading] at hlast
      cases hlast
      exact Or.inr ⟨hlock.append hafter', now, rfl, hnow⟩

/-- The operation neither submits a `SendTx` nor an ack to the source. -/
def Op.Mute (h : Handle) (o : Op) : Prop := ∀ id, ¬o.SendsTx h id ∧ ¬o.AcksFor h id

/-- A quiet operation is mute. -/
theorem mute_of_quiet (o : Op) (hquiet : o.Quiet) : o.Mute h := by
  intro id
  cases o with
  | http l request =>
    cases request with
    | submitTransaction => exact hquiet.elim
    | getLedger | callContract | getTransactionHistory =>
      exact ⟨fun hsends => hsends, fun ⟨_, hacks⟩ => hacks⟩
  | dbPut | dbDelete | emplace | erase | setAckTimeout => exact hquiet.elim
  | highResolution | dbScan | lock | unlock | entries | terminate =>
    exact ⟨fun hsends => hsends, fun ⟨_, hacks⟩ => hacks⟩

/-- What a save does is mute. -/
theorem saves_mute (store : Store) (info : Protocol.CrossTxInfo) : Op.Saves su (Op.Mute h) store info where
  dbPut _ := ⟨fun hsends => hsends, fun ⟨_, hacks⟩ => hacks⟩
  emplace _ _ := ⟨fun hsends => hsends, fun ⟨_, hacks⟩ => hacks⟩

/-- A reply goes to the other layer. -/
theorem mute_replyAckTo (info : Protocol.CrossTxInfo) : Uses (Op.Mute h) (Handle.replyAckTo su h info) := by
  refine uses_replyAckTo mute_of_quiet (fun maxSeq id => ⟨fun hsends => hsends, ?_⟩) fun _ =>
    saves_mute _ _
  rintro ⟨v, hl, -⟩
  exact h.other_ne hl

/-- A submission comes after the height of the layer was read. -/
theorem usesAfter_sendTransaction {P : List Step → Op → Prop} {l : Layer} {input : TxInput}
    {amount : Int64} (hquiet : ∀ steps o, o.Quiet → P steps o)
    (hsubmit : ∀ seq more, Replays (getLayerSeq l) more (some seq) [] → P (steps ++ more)
      (.http l (.submitTransaction (su.conf.crossContract l) input amount (seq + 200)))) :
    UsesAfter P (Handle.sendTransaction su l input amount) steps := by
  refine UsesAfter.bind (UsesAfter.of_uses (quiet_getLayerSeq l) fun o _ => hquiet _ o)
    fun seq more hreplays => ?_
  cases seq with
  | none => exact UsesAfter.pure _
  | some seq =>
    exact ⟨hsubmit seq more hreplays, fun _ _ =>
      UsesAfter.of_uses (quiet_orTerminate _) fun o _ => hquiet _ o⟩

section Ordered

variable {call : Option (HandlerCall h)} {info : Protocol.CrossTxInfo}

/-- Nothing need come before an operation that is mute. -/
theorem Op.Mute.ordered {o : Op} (hmute : o.Mute h) : Ordered su call steps o :=
  ⟨fun id hsends => absurd hsends (hmute id).1, fun id hacks => absurd hacks (hmute id).2⟩

/-- Nor before a program that is. -/
theorem ordered_of_mute {α : Type} {p : AgentM α} (hp : Uses (Op.Mute h) p) :
    UsesAfter (Ordered su call) p steps :=
  UsesAfter.of_uses hp fun _ _ hmute => hmute.ordered

/-- Nor before a quiet one. -/
theorem ordered_of_quiet {α : Type} {p : AgentM α} (hp : Uses Op.Quiet p) :
    UsesAfter (Ordered su call) p steps :=
  ordered_of_mute (hp.mono mute_of_quiet)

/-- Nor before a clear. -/
theorem ordered_clearInfo (store : Store) (key : Text) :
    UsesAfter (Ordered su call) (Handle.clearInfo store key) steps :=
  ordered_of_mute (uses_clearInfo (fun _ => ⟨fun hsends => hsends, fun ⟨_, hacks⟩ => hacks⟩)
    fun _ => ⟨fun hsends => hsends, fun ⟨_, hacks⟩ => hacks⟩)

/-- A `SendTx`, and its entry. -/
theorem ordered_sendTxTo (hreleasing : ∀ seq more, Replays (getLayerSeq h.other) more (some seq) [] →
      Releasing su call (steps ++ more) info.crosstxid) :
    UsesAfter (Ordered su call) (Handle.sendTxTo su h info) steps := by
  refine UsesAfter.bind (usesAfter_sendTransaction
    (fun _ o hquiet => (mute_of_quiet o hquiet).ordered) fun seq more hseq => ?_) fun txhash more _ => ?_
  · refine ⟨?_, fun id ⟨_, hacks⟩ => hacks.elim⟩
    rintro id ⟨-, rfl⟩
    exact hreleasing seq more hseq
  · cases txhash with
    | none => exact UsesAfter.pure _
    | some hash => exact ordered_of_mute (Uses.bind (uses_saveInfo (saves_mute _ _)) fun _ => Uses.pure _)

/-- An ack, and its entry. -/
theorem ordered_sendAckTo (hacking : ∀ more, (∀ step ∈ more, step.op.Asks) →
      Acking su call (steps ++ more) info.crosstxid) :
    UsesAfter (Ordered su call) (Handle.sendAckTo su h info) steps := by
  refine UsesAfter.bind (usesAfter_sendTransaction
    (fun _ o hquiet => (mute_of_quiet o hquiet).ordered) fun seq more hseq => ?_) fun txhash more _ => ?_
  · refine ⟨fun id hsends => hsends.elim, ?_⟩
    rintro id ⟨v, -, rfl, -⟩
    exact hacking more (Replays.uses (asks_getLayerSeq h) hseq)
  · cases txhash with
    | none => exact UsesAfter.pure _
    | some hash =>
      exact ordered_of_mute (Uses.bind (uses_saveAckInfo mute_of_quiet h (saves_mute _ _)) fun _ =>
        Uses.pure _)

section Free

variable (hfree : ∀ steps id, Acking su call steps id)

include hfree

/-- The ack of a call that need not wait for anything. -/
theorem ordered_handleSendTxEvent (crossTxid : Text) (status : Int32) :
    UsesAfter (Ordered su call) (Handle.handleSendTxEventWith su h crossTxid status) steps := by
  refine UsesAfter.bind (ordered_of_quiet (quiet_readCrossTxInfo _ _ _ _)) fun res _ _ => ?_
  cases res with
  | none => exact UsesAfter.pure _
  | some info =>
    exact UsesAfter.bind (ordered_sendAckTo fun _ _ => hfree _ _) fun ok _ _ => UsesAfter.ite
      (fun _ => UsesAfter.bind (ordered_clearInfo _ _) fun _ _ _ => UsesAfter.pure _)
      fun _ => UsesAfter.pure _

/-- The acks of a pass over the send map. -/
theorem ordered_sendTxExpired (e : CrossTx) :
    UsesAfter (Ordered su call) (Handle.sendTxExpired su h e) steps := by
  refine UsesAfter.bind (ordered_of_quiet (quiet_getTxResult _ _)) fun found _ _ =>
    UsesAfter.ite (fun _ => ?_) fun _ => ?_
  · exact UsesAfter.bind (ordered_handleSendTxEvent hfree _ _) fun _ _ _ => UsesAfter.pure _
  · exact UsesAfter.bind (ordered_sendAckTo fun _ _ => hfree _ _) fun ok _ _ =>
      UsesAfter.ite (fun _ => ordered_clearInfo _ _) fun _ => UsesAfter.pure _

end Free

/-- What an ack pass sends again. -/
theorem ordered_ackExpired {store : Store} {l : Layer} {now : Int64} {key : Text} {e : CrossTx}
    {resend : AgentM Bool} (hresend : ∀ more, UsesAfter (Ordered su call) resend (steps ++ more)) :
    UsesAfter (Ordered su call) (Handle.ackExpired su store l now key e resend) steps := by
  refine UsesAfter.bind (ordered_of_quiet (quiet_getTxResult _ _)) fun found more _ =>
    UsesAfter.ite (fun _ => ordered_clearInfo _ _) fun _ => ?_
  refine UsesAfter.bind (ordered_of_quiet (quiet_getCrossTxStatus _ _ _)) fun status more' _ =>
    UsesAfter.ite (fun _ => ordered_clearInfo _ _) fun _ => ?_
  rw [List.append_assoc]
  exact UsesAfter.bind (hresend _) fun _ _ _ => ordered_of_mute (Uses.perform fun _ =>
    ⟨fun hsends => hsends, fun ⟨_, hacks⟩ => hacks⟩)

/-- A pass, by its rounds. -/
theorem ordered_pass (pass : Pass h) (hround : ∀ now key e steps before infos,
      pass.Reaches su steps now e [] → ⟨before, .entries pass.store, infos⟩ ∈ steps →
      (key, e) ∈ infos → UsesAfter (Ordered su (some pass.call)) (pass.round su now (key, e)) steps) :
    UsesAfter (Ordered su (some pass.call)) (pass.call.run su) [] :=
  pass.usesAfter_run (fun _ o hquiet => (mute_of_quiet o hquiet).ordered) hround

end Ordered

/-- The operation does not give back the lock of the start map. -/
def Op.KeepsLock (o : Op) : Prop := o ≠ .unlock .start

/-- A question to a node gives back no lock. -/
theorem Op.Asks.keepsLock {o : Op} (hasks : o.Asks) : o.KeepsLock := by
  rintro rfl
  exact hasks

/-- Nor does a submission. -/
theorem keepsLock_sendTransaction (l : Layer) (input : TxInput) (amount : Int64) :
    Uses Op.KeepsLock (Handle.sendTransaction su l input amount) := by
  refine Uses.bind ((asks_getLayerSeq l).mono fun _ hasks => hasks.keepsLock) fun seq => ?_
  cases seq with
  | none => exact Uses.pure _
  | some seq =>
    exact Uses.bind (Uses.perform nofun) fun _ =>
      (asks_orTerminate _).mono fun _ hasks => hasks.keepsLock

/-- Nor does a `SendTx` with its entry. -/
theorem keepsLock_sendTxTo (info : Protocol.CrossTxInfo) :
    Uses Op.KeepsLock (Handle.sendTxTo su h info) := by
  refine Uses.bind (keepsLock_sendTransaction _ _ _) fun txhash => ?_
  cases txhash with
  | none => exact Uses.pure _
  | some hash =>
    exact Uses.bind (Uses.bind (Uses.perform nofun) fun _ => Uses.perform nofun) fun _ => Uses.pure _

/-- Nor does an ack with its entry. -/
theorem keepsLock_sendAckTo (info : Protocol.CrossTxInfo) :
    Uses Op.KeepsLock (Handle.sendAckTo su .layer2 info) := by
  refine Uses.bind (keepsLock_sendTransaction _ _ _) fun txhash => ?_
  cases txhash with
  | none => exact Uses.pure _
  | some hash =>
    exact Uses.bind (Uses.bind (Uses.perform nofun) fun _ => Uses.bind (Uses.perform nofun) fun _ =>
      Uses.perform nofun) fun _ => Uses.pure _

/-- Nor does a clear. -/
theorem keepsLock_clearInfo (store : Store) (key : Text) :
    Uses Op.KeepsLock (Handle.clearInfo store key) :=
  Uses.bind (Uses.perform nofun) fun _ => Uses.perform nofun

/-- The rounds of the passes over the start map keep its lock. -/
theorem Pass.keepsLock_round {pass : Pass .layer2} (hwalks : pass.call.WalksStart) (now : Int64)
    (p : Text × CrossTx) : Uses Op.KeepsLock (pass.round su now p) := by
  cases pass with
  | sendTxTimeOut | sendAckTimeOut | replyAckTimeOut => exact hwalks.elim
  | startTxTimeOut =>
    exact Uses.ite (Uses.bind (keepsLock_sendAckTo _) fun _ => Uses.ite (keepsLock_clearInfo _ _)
      (Uses.pure _)) (Uses.pure _)
  | handleConfirmSeqEvent confirmSeq =>
    refine Uses.bind (Uses.perform nofun) fun _ => Uses.ite (Uses.ite ?_ ?_) (Uses.pure _)
    · exact Uses.bind (keepsLock_sendAckTo _) fun _ => Uses.pure _
    · exact Uses.bind (keepsLock_sendTxTo _) fun _ => Uses.ite (keepsLock_clearInfo _ _) (Uses.pure _)

/-- The rounds are under the lock. -/
theorem Pass.Reaches.underLock {pass : Pass .layer2} (hwalks : pass.call.WalksStart) {now : Int64}
    {e : CrossTx} (hreaches : pass.Reaches su steps now e []) : UnderLock steps := by
  obtain ⟨done, key, after, begun, hprologue, hdone⟩ := hreaches
  have hstore : pass.store = .start := by
    cases pass with
    | sendTxTimeOut | sendAckTimeOut | replyAckTimeOut => exact hwalks.elim
    | startTxTimeOut | handleConfirmSeqEvent => rfl
  obtain ⟨first, rfl, hfirst⟩ := Replays.exists_prefix hprologue
  have hrounds : Uses Op.KeepsLock (done.forM (pass.round su now)) :=
    Uses.forM fun p _ => Pass.keepsLock_round hwalks now p
  refine UnderLock.append ⟨?_, Replays.uses (P := Op.KeepsLock) ?_ hfirst⟩ (hdone.uses hrounds)
  · obtain ⟨t, s1, hclock, hrun⟩ := runs_bind.mp hfirst
    obtain ⟨_, s2, hlock, hrun⟩ := runs_bind.mp hrun
    obtain ⟨before, hs1⟩ := runs_perform.mp hlock
    refine ⟨⟨before, .lock pass.store, ()⟩, (Replays.suffix hclock).subset ?_, congrArg Op.lock hstore⟩
    rw [hs1]
    exact List.mem_cons_self
  · have hclock : Uses Op.KeepsLock pass.clock := by
      cases pass with
      | sendTxTimeOut | sendAckTimeOut | replyAckTimeOut => exact hwalks.elim
      | startTxTimeOut => exact Uses.perform nofun
      | handleConfirmSeqEvent => exact Uses.pure _
    exact Uses.bind hclock fun _ => Uses.bind (Uses.perform nofun) fun _ =>
      Uses.bind (Uses.perform nofun) fun _ => Uses.pure _

/-- The entry of a round over the start map was found there. -/
theorem starts_of_mem {infos : List (Text × CrossTx)} {before : AgentState} {key : Text} {e : CrossTx}
    (hmem : (⟨before, .entries .start, infos⟩ : Step) ∈ steps) (hentry : (key, e) ∈ infos) :
    Starts su steps (e.info su.codec).crosstxid (e.info su.codec).timeout :=
  ⟨before, infos, hmem, _, hentry, rfl, rfl⟩

/-- What was found was found, whatever follows. -/
theorem Starts.append (hstarts : Starts su steps id timeout) (more : List Step) :
    Starts su (steps ++ more) id timeout := by
  obtain ⟨before, infos, hmem, hentry⟩ := hstarts
  exact ⟨before, infos, List.mem_append_left _ hmem, hentry⟩

/-- Questions to nodes read no clock. -/
theorem reading_of_asks (hasks : ∀ step ∈ steps, step.op.Asks) : ∀ step ∈ steps, step.reading = none := by
  rintro ⟨before, o, r⟩ hstep
  cases o with
  | highResolution => exact (hasks _ hstep).elim
  | http | dbPut | dbDelete | dbScan | lock | unlock | entries | emplace | erase | setAckTimeout
  | terminate => rfl

/-- The `StartTx` event of layer 1 submits what its query told. -/
theorem ordered_layer1_handleStartTxEvent (crossTxid : Text) :
    UsesAfter (Ordered su (some (.handleStartTxEvent crossTxid : HandlerCall .layer1)))
      (Layer1ToLayer2Handle.handleStartTxEvent su crossTxid) [] := by
  refine UsesAfter.bind (ordered_of_quiet (quiet_readCrossTxInfo _ _ _ _)) fun res more hread => ?_
  cases res with
  | none => exact UsesAfter.pure _
  | some info =>
    refine UsesAfter.bind (ordered_sendTxTo fun seq more' hseq =>
      ⟨info, more', seq, hread.append more', hseq, rfl⟩) fun ok _ _ => ?_
    cases ok with
    | true => exact UsesAfter.pure _
    | false => exact UsesAfter.bind (ordered_sendAckTo fun _ _ => trivial) fun _ _ _ => UsesAfter.pure _

/-- The `StartTx` event of layer 2 submits nothing. -/
theorem ordered_layer2_handleStartTxEvent (crossTxid : Text) :
    UsesAfter (Ordered su (some (.handleStartTxEvent crossTxid : HandlerCall .layer2)))
      (Layer2ToLayer1Handle.handleStartTxEvent su crossTxid) [] := by
  refine UsesAfter.bind (ordered_of_quiet (quiet_readCrossTxInfo _ _ _ _)) fun res _ _ => ?_
  cases res with
  | none => exact UsesAfter.pure _
  | some info =>
    refine UsesAfter.bind (ordered_of_quiet (quiet_getLayerSeq _)) fun seq _ _ => ?_
    cases seq with
    | none => exact UsesAfter.pure _
    | some seq => exact ordered_of_mute (Uses.bind (uses_saveInfo (saves_mute _ _)) fun _ => Uses.pure _)

/-- A confirmation submits under the lock, by the time it has just read. -/
theorem ordered_handleConfirmSeqEvent (confirmSeq : Int64) :
    UsesAfter (Ordered su (some (.handleConfirmSeqEvent confirmSeq : HandlerCall .layer2)))
      ((HandlerCall.handleConfirmSeqEvent confirmSeq).run su) [] := by
  refine ordered_pass (.handleConfirmSeqEvent confirmSeq) fun now key e steps before infos hreaches
    hmem hentry => ?_
  have hwalks : (Pass.handleConfirmSeqEvent confirmSeq).call.WalksStart := trivial
  have hlock : UnderLock steps := hreaches.underLock hwalks
  have hstarts : Starts su steps _ _ := starts_of_mem hmem hentry
  refine UsesAfter.bind (ordered_of_quiet (Uses.perform trivial)) fun clock more hclock => ?_
  obtain ⟨before', rfl⟩ := runs_perform.mp hclock
  have hkept : ∀ more' : List Step, (∀ step ∈ more', step.op.Asks) →
      ∀ step ∈ [⟨before', .highResolution, clock⟩] ++ more', step.op ≠ .unlock .start := by
    intro more' hasks step hstep
    rcases List.mem_append.mp hstep with hstep | hstep
    · rw [List.mem_singleton.mp hstep]
      exact nofun
    · exact (hasks step hstep).keepsLock
  refine UsesAfter.ite (fun _ => UsesAfter.ite (fun hlate => ?_) fun hearly => ?_) fun _ =>
    UsesAfter.pure _
  · refine UsesAfter.bind (ordered_sendAckTo fun more' hasks => ?_) fun _ _ _ => UsesAfter.pure _
    refine ⟨?_, _, clock, (hstarts.append _).append more', ?_, hlate⟩
    · rw [List.append_assoc]
      exact hlock.append (hkept more' hasks)
    · rw [lastReading_append_of_none (reading_of_asks hasks), lastReading_snoc]
      rfl
  · refine UsesAfter.bind (ordered_sendTxTo fun seq more' hseq => ?_) fun ok _ _ =>
      UsesAfter.ite (fun _ => ordered_clearInfo _ _) fun _ => UsesAfter.pure _
    have hasks := Replays.uses (asks_getLayerSeq _) hseq
    refine ⟨_, (hstarts.append _).append more', steps, _, clock, List.append_assoc _ _ _, hlock,
      hkept more' hasks, ?_, hearly⟩
    rw [lastReading_append_of_none (reading_of_asks hasks)]
    rfl

/-- Every call of a handler submits in order. -/
theorem run_ordered (call : HandlerCall h) : UsesAfter (Ordered su (some call)) (call.run su) [] := by
  cases call with
  | handleStartTxEvent crossTxid =>
    cases h with
    | layer1 => exact ordered_layer1_handleStartTxEvent crossTxid
    | layer2 => exact ordered_layer2_handleStartTxEvent crossTxid
  | handleSendTxEvent crossTxid =>
    have hfree : ∀ steps id, Acking su (some (.handleSendTxEvent crossTxid : HandlerCall h)) steps id :=
      fun _ _ => trivial
    exact ordered_handleSendTxEvent hfree _ _
  | handleSendAckdTxEvent crossTxid =>
    refine UsesAfter.bind (ordered_of_quiet (quiet_readCrossTxInfo _ _ _ _)) fun res _ _ => ?_
    cases res with
    | none => exact UsesAfter.pure _
    | some info =>
      exact UsesAfter.bind (ordered_of_mute (mute_replyAckTo _)) fun ok _ _ => UsesAfter.ite
        (fun _ => UsesAfter.bind (ordered_clearInfo _ _) fun _ _ _ => UsesAfter.pure _)
        fun _ => UsesAfter.pure _
  | sendTxTimeOut =>
    have hfree : ∀ steps id, Acking su (some (.sendTxTimeOut : HandlerCall h)) steps id :=
      fun _ _ => trivial
    exact ordered_pass .sendTxTimeOut fun now key e steps before infos _ _ _ => UsesAfter.ite
      (fun _ => ordered_sendTxExpired hfree _) fun _ => UsesAfter.pure _
  | sendAckTimeOut =>
    have hset : ∀ key t steps, UsesAfter (Ordered su (some (.sendAckTimeOut : HandlerCall h)))
        (perform (Op.setAckTimeout (.ack h) key t) : AgentM Unit) steps := fun key t steps =>
      ordered_of_mute (Uses.perform fun _ => ⟨fun hsends => hsends, fun ⟨_, hacks⟩ => hacks⟩)
    refine ordered_pass .sendAckTimeOut fun now key e steps before infos _ _ _ => UsesAfter.ite
      (fun _ => UsesAfter.ite (fun _ => ?_) fun _ => ?_) fun _ => UsesAfter.pure _
    · exact UsesAfter.bind (ordered_sendAckTo fun _ _ => trivial) fun _ _ _ => hset _ _ _
    · exact ordered_ackExpired fun _ => ordered_sendAckTo fun _ _ => trivial
  | replyAckTimeOut =>
    exact ordered_pass .replyAckTimeOut fun now key e steps before infos _ _ _ => UsesAfter.ite
      (fun _ => ordered_ackExpired fun _ => ordered_of_mute (mute_replyAckTo _)) fun _ => UsesAfter.pure _
  | handleConfirmSeqEvent confirmSeq => exact ordered_handleConfirmSeqEvent confirmSeq
  | startTxTimeOut =>
    refine ordered_pass .startTxTimeOut fun now key e steps before infos hreaches _ _ => ?_
    have hwalks : Pass.startTxTimeOut.call.WalksStart := trivial
    have hlock : UnderLock steps := hreaches.underLock hwalks
    refine UsesAfter.ite (fun _ => ?_) fun _ => UsesAfter.pure _
    exact UsesAfter.bind (ordered_sendAckTo fun more' hasks => hlock.append fun step hstep =>
      (hasks step hstep).keepsLock) fun ok _ _ => UsesAfter.ite (fun _ => ordered_clearInfo _ _) fun _ =>
      UsesAfter.pure _

/-- `Initialize` submits nothing. -/
theorem initializeHandle_ordered :
    UsesAfter (Ordered su (none : Option (HandlerCall h))) (HandlerCall.initializeHandle su h) [] := by
  have hload : ∀ store due, Uses (Op.Mute h) (Handle.loadInfo su store due) := by
    intro store due
    refine Uses.bind (Uses.perform (mute_of_quiet _ trivial)) fun values => ?_
    cases values with
    | none => exact Uses.pure _
    | some values =>
      refine Uses.forM fun value _ => ?_
      unfold Handle.loadValue
      cases su.codec.parseFromString value with
      | none => exact Uses.pure _
      | some info =>
        have hsaves : Op.Saves su (Op.Mute h) store info := saves_mute store info
        have hemplace := hsaves.emplace
        cases due with
        | false => exact Uses.perform (hemplace 0)
        | true => exact Uses.bind (Uses.perform (mute_of_quiet _ trivial)) fun _ => Uses.perform (hemplace _)
  refine ordered_of_mute ?_
  cases h with
  | layer1 => exact Uses.bind (hload _ _) fun _ => Uses.bind (hload _ _) fun _ => hload _ _
  | layer2 =>
    exact Uses.bind (hload _ _) fun _ => Uses.bind (hload _ _) fun _ => Uses.bind (hload _ _) fun _ =>
      hload _ _

end CrosschainAgent
