import CrosschainAgent.Library.Possible
import CrosschainAgent.System.Acts
import CrosschainAgent.System.QueryData

/-!
# What the agent can come to do

A thread that gets truthful and complete answers, and whose locks are free, makes the submission its
call is for, without the agent's clock moving on. Here is that submission for each handler, from
whatever state of the chains and the stores. A confirmation makes it only before the timeout of the
transfer, so the clock must not be past it.
-/

namespace CrosschainAgent

open Interaction HttpClient Strings

variable {T : Type} [DecidableEq T]

namespace Shared

/-- One operation during which the agent's clock stands still. -/
def still (sys : System) (t : T) (o : Op) (a : Answer) (w : Shared T) : Option (o.Resp × Shared T) :=
  (w.act sys t o a).filter fun p => p.2.clock = w.clock

/-- With some answers the thread, while the others and the clock rest, ends the program as `Q` says. -/
abbrev Can {α : Type} (sys : System) (t : T) (Q : α → Shared T → Prop) (p : AgentM α) (w : Shared T) :
    Prop :=
  Interaction.Can (still sys t) Q p w

/-- A transaction of the agent that the node of a chain received. -/
def received (w : Shared T) (l : Layer) (tx : AgentTx) : Shared T :=
  w.setChain l { w.chain l with
    posted := (tx.input, tx.amount) :: (w.chain l).posted
    pool := (w.chain l).pool ++ [tx] }

/-- The node of a chain received a submission, and the locks are as before. -/
def Submitted (w : Shared T) (l : Layer) (input : TxInput) (amount : Int64) (w' : Shared T) : Prop :=
  w'.locks = w.locks ∧ ∃ hash, w'.chain = (w.received l ⟨hash, input, amount⟩).chain

variable {sys : System} {t : T} {w : Shared T}

/-- One operation, and then the rest of the program. -/
theorem can_op {β : Type} {Q : β → Shared T → Prop} {o : Op} {a : Answer} {r : o.Resp} {w' : Shared T}
    (hact : w.act sys t o a = some (r, w')) (hclock : w'.clock = w.clock) {f : o.Resp → AgentM β}
    (hf : Can sys t Q (f r) w') : Can sys t Q (perform o >>= f) w := by
  have hstill : still sys t o a w = some (r, w') := by
    rw [still, hact, Option.filter_some, if_pos (decide_eq_true hclock)]
  exact Can.bind (Can.perform a hstill hf)

/-- The clock is read as it stands. -/
theorem can_highResolution {β : Type} {Q : β → Shared T → Prop} {f : Int64 → AgentM β}
    (hf : Can sys t Q (f w.clock) w) : Can sys t Q (CrosschainAgent.highResolution >>= f) w :=
  can_op (a := .time w.clock) rfl rfl hf

/-- A value that may be missing is there. -/
theorem can_orTerminate {α β : Type} {Q : β → Shared T → Prop} {x : Option α} {a : α} (hx : x = some a)
    {f : α → AgentM β} (h : Can sys t Q (f a) w) : Can sys t Q (CrosschainAgent.orTerminate x >>= f) w := by
  rw [hx]
  exact h

/-- A node answers a query of its contract. -/
theorem can_query {β : Type} {Q : β → Shared T → Prop} {l : Layer} {input : QueryInput}
    {q : ContractQuery} (hq : sys.abi.decodeQuery input.function input.args = some q)
    {f : Option Text → AgentM β}
    (h : Can sys t Q (f (some (sys.abi.queryText (w.chain l).bridge q))) w) :
    Can sys t Q ((perform (Op.http l (.callContract (sys.su.conf.crossContract l) input)) >>=
      fun resp => CrosschainAgent.orTerminate (withBody readQueryData resp)) >>= f) w := by
  rw [bind_assoc]
  have htrue : w.truthful sys l (Formats.queryReply (sys.abi.queryText (w.chain l).bridge q))
      (.callContract (sys.su.conf.crossContract l) input) = true := by
    rw [truthful, readQueryData_queryReply, hq]
    exact decide_eq_true ⟨rfl, rfl⟩
  have hact : w.act sys t (.http l (.callContract (sys.su.conf.crossContract l) input))
      (.reply (Formats.queryReply (sys.abi.queryText (w.chain l).bridge q))) =
      some (Formats.queryReply (sys.abi.queryText (w.chain l).bridge q), w) := by
    rw [act, if_pos htrue]
  exact can_op hact rfl (can_orTerminate (readQueryData_queryReply _) h)

/-- A record is read as it is. -/
theorem can_readCrossTxInfo {β : Type} {Q : β → Shared T → Prop} (h : Handle) (l : Layer) (X : Bytes)
    {f : Option Protocol.CrossTxInfo → AgentM β}
    (hf : Can sys t Q (f (some (sys.abi.infoOf ((w.chain l).bridge.crossTxInfo X)
      ((w.chain l).bridge.crossTxInfo X)))) w) :
    Can sys t Q (Handle.readCrossTxInfo sys.su h l (sys.abi.bytesText X) >>= f) w := by
  unfold Handle.readCrossTxInfo getLayerCrossTxInfo
  simp only [bind_assoc]
  refine can_query (sys.abi.decodeQuery_info1 X) ?_
  simp only [bind_assoc]
  refine can_query (sys.abi.decodeQuery_info2 X) ?_
  rw [pure_bind]
  exact can_orTerminate (sys.abi.makeCrossTxInfo_queryText h _ _ X) hf

/-- The height of a chain is read. -/
theorem can_getLayerSeq {β : Type} {Q : β → Shared T → Prop} (l : Layer) {f : Option Int64 → AgentM β}
    (hf : Can sys t Q (f (some 100)) w) : Can sys t Q (getLayerSeq l >>= f) w := by
  unfold getLayerSeq
  rw [bind_assoc]
  have hread : withBody readLedgerSeq (Formats.ledgerReply 100) = some (some 100) := by decide
  exact can_op (a := .reply (Formats.ledgerReply 100)) rfl rfl (can_orTerminate hread hf)

/-- A submission is received, and accepted. -/
theorem can_sendTransaction {β : Type} {Q : β → Shared T → Prop} (l : Layer) (input : TxInput)
    (amount : Int64) {f : Option Text → AgentM β}
    (hf : ∀ hash, Can sys t Q (f (some hash)) (w.received l ⟨hash, input, amount⟩)) :
    Can sys t Q (Handle.sendTransaction sys.su l input amount >>= f) w := by
  obtain ⟨hash, hhash⟩ := Infinite.exists_notMem_finset ([] :: (w.chain l).pool.map (·.hash)).toFinset
  rw [List.mem_toFinset, List.mem_cons, not_or] at hhash
  obtain ⟨hne, hfresh⟩ := hhash
  unfold Handle.sendTransaction
  rw [bind_assoc]
  refine can_getLayerSeq l ?_
  have haccepted : withBody checkTxResponse (Formats.submitReply (String.ofList hash)) =
      some (some hash) := by
    simp only [withBody, checkTxResponse, Formats.submitReply, Formats.object, Json.get,
      Json.asArray, List.map_cons, List.map_nil, List.lookup_cons,
      beq_self_eq_true, String.toList_ofList]
    rfl
  have hpost : w.post l input amount (some hash) (Formats.submitReply (String.ofList hash)) =
      some (w.received l ⟨hash, input, amount⟩) := by
    rw [post, acceptedHash, haccepted]
    exact if_pos ⟨by simp, hne, hfresh⟩
  have hact : w.act sys t (.http l (.submitTransaction (sys.su.conf.crossContract l) input amount
      (100 + 200))) (.posted (some hash) (Formats.submitReply (String.ofList hash))) =
      some (Formats.submitReply (String.ofList hash), w.received l ⟨hash, input, amount⟩) := by
    rw [act, if_pos rfl, hpost]
    rfl
  dsimp only
  rw [bind_assoc]
  exact can_op hact rfl (can_orTerminate haccepted (hf hash))

/-- A map is free to use while nobody holds its lock. -/
theorem mayUse_of_free {s : Store} (hfree : w.locks s = none) :
    w.mayUse t s = true := by
  rw [mayUse, hfree]

/-- A map is changed by a thread while no other thread holds its lock. -/
theorem can_emplace {β : Type} {Q : β → Shared T → Prop} {s : Store} (hfree : w.mayUse t s = true)
    (key : Text) (e : CrossTx) {f : Unit → AgentM β}
    (hf : Can sys t Q (f ())
      { w with agent := w.agent.setMap s ((w.agent.maps s).insertIfNew key e) }) :
    Can sys t Q (perform (Op.emplace s key e) >>= f) w := by
  have hact : w.act sys t (.emplace s key e) .go =
      some ((), { w with agent := w.agent.setMap s ((w.agent.maps s).insertIfNew key e) }) := by
    rw [act, if_pos hfree]
    rfl
  exact can_op hact rfl hf

/-- The same for removing an entry. -/
theorem can_erase {β : Type} {Q : β → Shared T → Prop} {s : Store} (hfree : w.mayUse t s = true)
    (key : Text) {f : Unit → AgentM β}
    (hf : Can sys t Q (f ()) { w with agent := w.agent.setMap s ((w.agent.maps s).erase key) }) :
    Can sys t Q (perform (Op.erase s key) >>= f) w := by
  have hact : w.act sys t (.erase s key) .go =
      some ((), { w with agent := w.agent.setMap s ((w.agent.maps s).erase key) }) := by
    rw [act, if_pos hfree]
    rfl
  exact can_op hact rfl hf

/-- An entry is stored, whatever the database does. -/
theorem can_saveInfo {β : Type} {Q : β → Shared T → Prop} {s : Store} (hfree : w.mayUse t s = true)
    (e : CrossTx) {f : Unit → AgentM β}
    (hf : Can sys t Q (f ())
      { w with agent := w.agent.setMap s ((w.agent.maps s).insertIfNew e.crossTxId e) }) :
    Can sys t Q (Handle.saveInfo s e >>= f) w := by
  unfold Handle.saveInfo
  rw [bind_assoc]
  exact can_op (a := .stored false) rfl rfl (can_emplace hfree _ e hf)

/-- An ack's entry is stored, with the time that is read for it. -/
theorem can_saveAckInfo {β : Type} {Q : β → Shared T → Prop} {s : Store} (hfree : w.mayUse t s = true)
    (h : Handle) (e : CrossTx) {f : Unit → AgentM β}
    (hf : ∀ w' : Shared T, w'.locks = w.locks → w'.chain = w.chain → Can sys t Q (f ()) w') :
    Can sys t Q (Handle.saveAckInfo h s e >>= f) w := by
  unfold Handle.saveAckInfo
  cases h with
  | layer1 =>
    simp only [bind_assoc]
    refine can_op (a := .stored false) rfl rfl (can_highResolution ?_)
    refine can_emplace ?_ _ _ (hf _ rfl rfl)
    exact hfree
  | layer2 =>
    simp only [bind_assoc]
    refine can_highResolution (can_op (a := .stored false) rfl rfl ?_)
    refine can_emplace ?_ _ _ (hf _ rfl rfl)
    exact hfree

/-- An entry is removed, whatever the database does. -/
theorem can_clearInfo {β : Type} {Q : β → Shared T → Prop} {s : Store} (hfree : w.mayUse t s = true)
    (crossTxid : Text) {f : Unit → AgentM β}
    (hf : ∀ w' : Shared T, w'.locks = w.locks → w'.chain = w.chain → Can sys t Q (f ()) w') :
    Can sys t Q (Handle.clearInfo s crossTxid >>= f) w := by
  unfold Handle.clearInfo
  rw [bind_assoc]
  exact can_op (a := .stored false) rfl rfl (can_erase hfree _ (hf _ rfl rfl))

/-- `SendTxToLayer2` and `SendTxToLayer1`. -/
theorem can_sendTxTo {β : Type} {Q : β → Shared T → Prop} (h : Handle) (info : Protocol.CrossTxInfo)
    (hfree : w.mayUse t (.send h) = true) {f : Bool → AgentM β}
    (hf : ∀ (hash : Text) (w' : Shared T), w'.locks = w.locks →
      w'.chain = (w.received h.other ⟨hash, Handle.sendTxInput info, info.amount⟩).chain →
        Can sys t Q (f true) w') :
    Can sys t Q (Handle.sendTxTo sys.su h info >>= f) w := by
  unfold Handle.sendTxTo
  rw [bind_assoc]
  refine can_sendTransaction _ _ _ fun hash => ?_
  simp only [bind_assoc]
  refine can_saveInfo ?_ _ (hf hash _ rfl rfl)
  exact hfree

/-- `SendAckToLayer1` and `SendAckToLayer2`. -/
theorem can_sendAckTo {β : Type} {Q : β → Shared T → Prop} (h : Handle) (info : Protocol.CrossTxInfo)
    (hfree : w.mayUse t (.ack h) = true) {f : Bool → AgentM β}
    (hf : ∀ (hash : Text) (w' : Shared T), w'.locks = w.locks →
      w'.chain = (w.received h ⟨hash, Handle.sendAckedTxInput h info, 0⟩).chain →
        Can sys t Q (f true) w') :
    Can sys t Q (Handle.sendAckTo sys.su h info >>= f) w := by
  unfold Handle.sendAckTo
  rw [bind_assoc]
  refine can_sendTransaction _ _ _ fun hash => ?_
  simp only [bind_assoc]
  refine can_saveAckInfo ?_ h _ fun w' hlocks hchain => hf hash w' hlocks hchain
  exact hfree

/-- `ReplyAckToLayer2` and `ReplyAckToLayer1`. -/
theorem can_replyAckTo {β : Type} {Q : β → Shared T → Prop} (h : Handle) (info : Protocol.CrossTxInfo)
    (hfree : w.mayUse t (.reply h) = true) {f : Bool → AgentM β}
    (hf : ∀ (hash : Text) (w' : Shared T), w'.locks = w.locks →
      w'.chain = (w.received h.other ⟨hash, Handle.sendAckedTxInput h info, 0⟩).chain →
        Can sys t Q (f true) w') :
    Can sys t Q (Handle.replyAckTo sys.su h info >>= f) w := by
  unfold Handle.replyAckTo
  rw [bind_assoc]
  refine can_sendTransaction _ _ _ fun hash => ?_
  simp only [bind_assoc]
  refine can_saveAckInfo ?_ h _ fun w' hlocks hchain => hf hash w' hlocks hchain
  exact hfree

/-- The `SendTx` event of the other layer is acknowledged as a success. -/
theorem can_handleSendTxEvent (h : Handle) (X : Bytes) (hfree : ∀ s, w.locks s = none)
    {r : Bridge.CrossTxInfo} (hr : (w.chain h.other).bridge.crossTxInfo X = r) :
    Can sys t (fun _ => w.Submitted h (Handle.sendAckedTxInput h
      { sys.abi.infoOf r r with status := crossResultSuccess }) 0)
      (Handle.handleSendTxEvent sys.su h (sys.abi.bytesText X)) w := by
  subst hr
  unfold Handle.handleSendTxEvent Handle.handleSendTxEventWith
  refine can_readCrossTxInfo h h.other X ?_
  refine can_sendAckTo h _ (mayUse_of_free (hfree _)) fun hash w' hlocks hchain => ?_
  refine can_clearInfo (mayUse_of_free (hlocks ▸ hfree _)) _ fun w'' hlocks' hchain' => ?_
  exact ⟨hlocks'.trans hlocks, hash, hchain'.trans hchain⟩

/-- The ack event of the source layer is replied to. -/
theorem can_handleSendAckdTxEvent (h : Handle) (X : Bytes) (hfree : ∀ s, w.locks s = none)
    {r : Bridge.CrossTxInfo} (hr : (w.chain h).bridge.crossTxInfo X = r) :
    Can sys t (fun _ => w.Submitted h.other (Handle.sendAckedTxInput h (sys.abi.infoOf r r)) 0)
      (Handle.handleSendAckdTxEvent sys.su h (sys.abi.bytesText X)) w := by
  subst hr
  unfold Handle.handleSendAckdTxEvent
  refine can_readCrossTxInfo h h X ?_
  refine can_replyAckTo h _ (mayUse_of_free (hfree _)) fun hash w' hlocks hchain => ?_
  refine can_clearInfo (mayUse_of_free (hlocks ▸ hfree _)) _ fun w'' hlocks' hchain' => ?_
  exact ⟨hlocks'.trans hlocks, hash, hchain'.trans hchain⟩

/-- A start event of layer 1 is escrowed at once. -/
theorem can_handleStartTxEvent_layer1 (X : Bytes) (hfree : ∀ s, w.locks s = none)
    {r : Bridge.CrossTxInfo} (hr : (w.chain .layer1).bridge.crossTxInfo X = r) :
    Can sys t (fun _ => w.Submitted .layer2 (Handle.sendTxInput (sys.abi.infoOf r r))
        (sys.abi.infoOf r r).amount)
      (Layer1ToLayer2Handle.handleStartTxEvent sys.su (sys.abi.bytesText X)) w := by
  subst hr
  unfold Layer1ToLayer2Handle.handleStartTxEvent
  refine can_readCrossTxInfo .layer1 .layer1 X ?_
  refine can_sendTxTo .layer1 _ (mayUse_of_free (hfree _)) fun hash w' hlocks hchain => ?_
  exact ⟨hlocks, hash, hchain⟩

/-- A start event of layer 2 is kept, with the height of layer 2. -/
theorem can_handleStartTxEvent_layer2 (X : Bytes) (hfree : ∀ s, w.locks s = none)
    (hempty : w.agent.maps .start = ∅) {r : Bridge.CrossTxInfo}
    (hr : (w.chain .layer2).bridge.crossTxInfo X = r) :
    let e := CrossTx.ofInfo sys.su.codec { sys.abi.infoOf r r with confirmseq := 100 }
    Can sys t (fun _ w' => w'.locks = w.locks ∧ w'.chain = w.chain ∧
        w'.agent.maps .start = (∅ : InfoMap).insertIfNew e.crossTxId e)
      (Layer2ToLayer1Handle.handleStartTxEvent sys.su (sys.abi.bytesText X)) w := by
  subst hr
  intro e
  unfold Layer2ToLayer1Handle.handleStartTxEvent
  refine can_readCrossTxInfo .layer2 .layer2 X ?_
  refine can_getLayerSeq .layer2 ?_
  refine can_saveInfo (mayUse_of_free (hfree _)) _ ?_
  exact ⟨rfl, rfl, by rw [AgentState.setMap_maps_self, hempty]⟩

/-- A thread takes a lock that is free, and gives it back. -/
theorem can_lock {β : Type} {Q : β → Shared T → Prop} {s : Store} (hfree : w.locks s = none)
    {f : Unit → AgentM β} (hf : Can sys t Q (f ()) (w.setLock s (some (t, 1)))) :
    Can sys t Q (perform (Op.lock s) >>= f) w := by
  have hact : w.act sys t (.lock s) .go = some ((), w.setLock s (some (t, 1))) := by
    rw [act, hfree]
  exact can_op hact rfl hf

/-- A thread gives back the lock it took once. -/
theorem can_unlock {β : Type} {Q : β → Shared T → Prop} {s : Store} (hheld : w.locks s = some (t, 1))
    {f : Unit → AgentM β} (hf : Can sys t Q (f ()) (w.setLock s none)) :
    Can sys t Q (perform (Op.unlock s) >>= f) w := by
  have hact : w.act sys t (.unlock s) .go = some ((), w.setLock s none) := by
    simp only [act, hheld, if_pos, le_refl]
  exact can_op hact rfl hf

/-- A map that got its only entry is read. -/
theorem can_entries {β : Type} {Q : β → Shared T → Prop} {s : Store} (hfree : w.mayUse t s = true)
    {key : Text} {e : CrossTx} (hkept : w.agent.maps s = (∅ : InfoMap).insertIfNew key e)
    {f : List (Text × CrossTx) → AgentM β} (hf : Can sys t Q (f [(key, e)]) w) :
    Can sys t Q (perform (Op.entries s) >>= f) w := by
  have hlist : ((∅ : InfoMap).insertIfNew key e).toList = [(key, e)] := rfl
  have hact : w.act sys t (.entries s) .go = some ((w.agent.maps s).toList, w) := by
    rw [act, if_pos hfree]
    rfl
  rw [hkept, hlist] at hact
  exact can_op hact rfl hf

/-- A confirmed entry in time is escrowed on layer 1. -/
theorem can_confirmed {Q : Unit → Shared T → Prop} {info : Protocol.CrossTxInfo} {currentTime : Int64}
    (hstart : w.mayUse t .start = true) (hsend : w.mayUse t (.send .layer2) = true)
    (htime : ¬info.timeout < currentTime)
    (hf : ∀ (hash : Text) (w' : Shared T), w'.locks = w.locks →
      w'.chain = (w.received .layer1 ⟨hash, Handle.sendTxInput info, info.amount⟩).chain → Q () w') :
    Can sys t Q (Layer2ToLayer1Handle.confirmed sys.su info currentTime) w := by
  unfold Layer2ToLayer1Handle.confirmed
  rw [if_neg htime]
  refine can_sendTxTo .layer2 info hsend fun hash w' hlocks hchain => ?_
  have hstart' : w'.mayUse t .start = true := by rwa [mayUse, hlocks]
  rw [if_pos rfl, ← bind_pure (Handle.clearInfo _ _)]
  exact can_clearInfo hstart' _ fun w'' hlocks' hchain' =>
    Can.pure (hf hash w'' (hlocks'.trans hlocks) (hchain'.trans hchain))

/-- A confirmation of its height escrows the transfer that is kept, if its timeout has not passed. -/
theorem can_handleConfirmSeqEvent {info : Protocol.CrossTxInfo} {confirmSeq : Int64}
    (hfree : ∀ s, w.locks s = none) (hconfirmed : info.confirmseq ≤ confirmSeq)
    (hintime : ¬info.timeout < w.clock)
    (hkept : w.agent.maps .start = (∅ : InfoMap).insertIfNew (CrossTx.ofInfo sys.su.codec info).crossTxId
      (CrossTx.ofInfo sys.su.codec info)) :
    Can sys t (fun _ => w.Submitted .layer1 (Handle.sendTxInput info) info.amount)
      (HandleManager.run sys.su (.confirm confirmSeq)) w := by
  have hrestored : Function.update (Function.update w.locks .start (some (t, 1))) .start none =
      w.locks := by
    rw [Function.update_idem, ← hfree .start, Function.update_eq_self]
  unfold HandleManager.run Layer2ToLayer1Handle.handleConfirmSeqEvent
  simp only [bind_assoc]
  refine can_lock (hfree _) ?_
  have hmine : (w.setLock .start (some (t, 1))).mayUse t .start = true := by
    simp [mayUse, setLock]
  refine can_entries hmine hkept ?_
  refine Can.bind ?_
  refine Can.bind ?_
  refine can_highResolution ?_
  rw [CrossTx.info_ofInfo, if_pos hconfirmed]
  have hother : (w.setLock .start (some (t, 1))).mayUse t (.send .layer2) = true := by
    simp [mayUse, setLock, hfree]
  refine can_confirmed hmine hother hintime fun hash w' hlocks hchain => ?_
  have hheld : w'.locks .start = some (t, 1) := by
    simp [hlocks, setLock]
  refine Can.pure (can_unlock hheld (Can.pure ⟨?_, hash, hchain⟩))
  change Function.update w'.locks Store.start none = w.locks
  rw [hlocks]
  exact hrestored

end Shared

namespace World

variable {sys : System} {t : T} {w w' w'' : World T}

/-- A run goes on from where another one ended. -/
theorem run_append {labels labels' : List (Label T)} (h : run sys w labels = some w')
    (h' : run sys w' labels' = some w'') : run sys w (labels ++ labels') = some w'' := by
  rw [run, List.foldlM_append]
  exact Option.bind_eq_some_iff.mpr ⟨w', h, h'⟩

/-- One step is a run. -/
theorem run_one {label : Label T} (h : step sys w label = some w') : run sys w [label] = some w' := by
  rw [run, List.foldlM_cons, h]
  rfl

/-- One step in which the agent's clock does not go back. -/
def Moves (sys : System) (w w' : World T) : Prop :=
  ∃ label, step sys w label = some w' ∧ w.shared.clock ≤ w'.shared.clock

/-- What a world can come to while the agent's clock does not go back. -/
abbrev Leads (sys : System) : World T → World T → Prop := Relation.ReflTransGen (Moves sys)

/-- It comes to it in a run. -/
theorem Leads.exists_run (h : Leads sys w w') : ∃ labels, run sys w labels = some w' := by
  induction h with
  | refl => exact ⟨[], rfl⟩
  | tail _ hmoves ih =>
    obtain ⟨labels, hrun⟩ := ih
    obtain ⟨label, hstep, _⟩ := hmoves
    exact ⟨labels ++ [label], run_append hrun (run_one hstep)⟩

/-- A step during which the clock stands still. -/
theorem leads_step {label : Label T} (hstep : step sys w label = some w')
    (hclock : w'.shared.clock = w.shared.clock) : Leads sys w w' :=
  .single ⟨label, hstep, hclock ▸ Int64.le_refl _⟩

/-- The agent starts again without what its database holds. -/
theorem step_restart (t : T) (w : World T) :
    step sys w (.restart t (List.replicate 7 (.stored false))) = some
      { shared := { w.shared with agent := w.shared.agent.restarted, locks := fun _ => none }
        tasks := fun _ => none } := rfl

/-- What a thread does after its task was set does not depend on the task. -/
theorem proceed_update (shared : Shared T) (tasks : T → Option Task) (t : T) (task : Option Task)
    (event : Option (Layer × ℕ)) (prog : AgentM Bool) :
    proceed shared (Function.update tasks t task) t event prog = proceed shared tasks t event prog := by
  cases prog <;> simp [proceed, Function.update_idem]

/-- A thread that goes on leaves the clock. -/
theorem proceed_clock (shared : Shared T) (tasks : T → Option Task) (t : T) (event : Option (Layer × ℕ))
    (prog : AgentM Bool) : (proceed shared tasks t event prog).shared.clock = shared.clock := by
  cases prog <;> rfl

/-- What a thread can come to with its call, alone, it comes to in the system. -/
theorem leads_acts {Q : Bool → Shared T → Prop} {prog : AgentM Bool} {shared : Shared T}
    (hcan : shared.Can sys t Q prog) (tasks : T → Option Task) (event : Option (Layer × ℕ)) :
    ∃ ok shared', Leads sys (proceed shared tasks t event prog) (proceed shared' tasks t event (.ret ok)) ∧
      shared'.clock = shared.clock ∧ Q ok shared' := by
  induction prog generalizing shared tasks with
  | ret ok => exact ⟨ok, shared, .refl, rfl, hcan⟩
  | op o k ih =>
    obtain ⟨answer, r, u, hstill, hk⟩ := hcan
    obtain ⟨hact, hclock⟩ := Option.filter_eq_some_iff.mp hstill
    have hclock : u.clock = shared.clock := of_decide_eq_true hclock
    obtain ⟨ok, shared', hleads, hclock', hQ⟩ := ih r hk (Function.update tasks t (some ⟨event, .op o k⟩))
    have hstep : step sys (proceed shared tasks t event (.op o k)) (.act t answer) =
        some (proceed u (Function.update tasks t (some ⟨event, .op o k⟩)) t event (k r)) := by
      rw [step]
      simp only [proceed, Function.update_self, Option.bind_eq_bind, Option.bind_some, hact,
        Option.pure_def]
    rw [proceed_update] at hstep
    rw [proceed_update, proceed_update] at hleads
    refine ⟨ok, shared', (leads_step hstep ?_).trans hleads, hclock'.trans hclock, hQ⟩
    rw [proceed_clock, proceed_clock, hclock]

/-- The program of a call starts with an operation. -/
theorem run_eq_op (su : Setup) (call : HandleManager.Call) :
    ∃ o k, HandleManager.run su call = .op o k := by
  cases call with
  | tlog l topic id => cases l <;> cases topic <;> exact ⟨_, _, rfl⟩
  | confirm seq => exact ⟨_, _, rfl⟩
  | timer => exact ⟨_, _, rfl⟩

/-- A thread that has nothing to do takes up a call and brings it to an end. -/
theorem leads_take {Q : Bool → Shared T → Prop} {label : Label T} {event : Option (Layer × ℕ)}
    {call : HandleManager.Call} (htake : step sys w label = w.take sys t event call)
    (hidle : w.tasks = fun _ => none)
    (hcan : Shared.Can sys t Q (HandleManager.run sys.su call)
      { w.shared with taken := event.toList ++ w.shared.taken }) :
    ∃ w', Leads sys w w' ∧ (w'.tasks = fun _ => none) ∧ w'.shared.clock = w.shared.clock ∧
      ∃ ok shared, Q ok shared ∧ w'.shared.chain = shared.chain ∧ w'.shared.locks = shared.locks ∧
        w'.shared.agent = shared.agent := by
  obtain ⟨ok, shared, hleads, hclock, hQ⟩ := leads_acts hcan w.tasks event
  obtain ⟨o, k, hop⟩ := run_eq_op sys.su call
  have hstep : step sys w label = some (proceed
      { w.shared with taken := event.toList ++ w.shared.taken } w.tasks t event
        (HandleManager.run sys.su call)) := by
    rw [htake, take, hidle, hop]
    rfl
  refine ⟨proceed shared w.tasks t event (.ret ok), (leads_step hstep (proceed_clock ..)).trans hleads, ?_,
    hclock, ok, shared, hQ, rfl, rfl, rfl⟩
  rw [proceed, hidle, Function.update_eq_self]

end World

end CrosschainAgent
