import CrosschainAgent.Session.Effects

/-!
# Under which key an entry is filed

The saves and `Initialize` file an entry under its own id, which is also the id of its message.
No call of a handler does otherwise, so this is so in every session, whatever the database held
at first and wherever the process was stopped.
-/

namespace CrosschainAgent

open Interaction Std HttpClient

variable {su : Setup} {h : Handle} {s s' : Session}

/-- An entry and its message carry the id. -/
structure CrossTx.FiledUnder (su : Setup) (key : Text) (e : CrossTx) : Prop where
  id : e.crossTxId = key
  info : (e.info su.codec).crosstxid = key

/-- An entry made of a transfer is filed under the id of the transfer. -/
theorem filedUnder_ofInfo (su : Setup) (info : Protocol.CrossTxInfo) (t : Int64) :
    CrossTx.FiledUnder su info.crosstxid { CrossTx.ofInfo su.codec info with sendAckTimeout := t } :=
  ⟨rfl, by rw [CrossTx.info_ofInfo]⟩

/-- Every entry of a map is filed under its own id. -/
def Session.WellKeyed (su : Setup) (store : Store) (s : Session) : Prop :=
  ∀ (key : Text) (e : CrossTx), (s.state.maps store)[key]? = some e → e.FiledUnder su key

/-- The operation inserts no entry under another id. -/
def Op.Files (su : Setup) : Op → Prop
  | .emplace _ key e => e.FiledUnder su key
  | _ => True

/-- What leaves the stores files nothing. -/
theorem Op.Remote.files {o : Op} (hremote : o.Remote) : o.Files su := by
  cases o with
  | emplace => exact hremote.elim
  | highResolution | http | dbPut | dbDelete | dbScan | lock | unlock | entries | erase
  | setAckTimeout | terminate => exact trivial

/-- An operation that files well leaves the map well keyed. -/
theorem Session.WellKeyed.act {store : Store} {o : Op} {r : o.Resp} (hs : s.WellKeyed su store)
    (hfiles : o.Files su) (hact : Session.act o s r s') : s'.WellKeyed su store := by
  intro key e hget
  rcases hact.1.entry_cases hget with ⟨old, t, hold, rfl⟩ | rfl
  · exact ⟨(hs key old hold).id, (hs key old hold).info⟩
  · exact hfiles

/-- Runs of programs that file their entries keep the keys. -/
theorem Session.WellKeyed.runs {α : Type} {store : Store} {p : AgentM α} {a : α}
    (hs : s.WellKeyed su store) (hp : Uses (Op.Files su) p) (hrun : Runs Session.act p s a s') :
    s'.WellKeyed su store :=
  hrun.of_uses (fun _ _ _ _ hfiles hact hu => hu.act hfiles hact) hp hs

/-- The operation submits the `SendTx` of the transfer on layer 1. -/
def Op.Releases (id : Text) : Op → Prop
  | .http .layer1 (.submitTransaction _ (.sendTx crossTxId _ _ _ _) _ _) => crossTxId = id
  | _ => False

instance (id : Text) (o : Op) : Decidable (o.Releases id) :=
  match o with
  | .http .layer1 (.submitTransaction _ (.sendTx crossTxId _ _ _ _) _ _) =>
    inferInstanceAs (Decidable (crossTxId = id))
  | .http .layer1 (.submitTransaction _ (.sendAckedTx _ _ _ _) _ _) | .http .layer1 .getLedger
  | .http .layer1 (.callContract _ _) | .http .layer1 (.getTransactionHistory _) | .http .layer2 _
  | .highResolution | .dbPut _ _ | .dbDelete _ | .dbScan _ | .lock _ | .unlock _ | .entries _
  | .emplace _ _ _ | .erase _ _ | .setAckTimeout _ _ _ | .terminate => inferInstanceAs (Decidable False)

/-- The call is a confirmation. -/
def HandlerCall.Confirms : {h : Handle} → HandlerCall h → Prop
  | _, .handleConfirmSeqEvent _ => True
  | _, _ => False

/-- The operations among which are all those of the handlers, but for a `SendTx` on layer 1. -/
structure Op.Covers (su : Setup) (P : Op → Prop) : Prop where
  quiet : ∀ o : Op, o.Quiet → P o
  submitAck : ∀ l contract id result desc time amount maxSeq,
    P (.http l (.submitTransaction contract (.sendAckedTx id result desc time) amount maxSeq))
  submitTx : ∀ contract id src dest amount timeout paid maxSeq,
    P (.http .layer2 (.submitTransaction contract (.sendTx id src dest amount timeout) paid maxSeq))
  dbPut : ∀ key value, P (.dbPut key value)
  dbDelete : ∀ key, P (.dbDelete key)
  emplace : ∀ store key e, e.FiledUnder su key → P (.emplace store key e)
  erase : ∀ store key, P (.erase store key)
  setAckTimeout : ∀ store key t, P (.setAckTimeout store key t)

/-- An operation releases one transfer at most. -/
theorem Op.Releases.unique {o : Op} {id id' : Text} (hreleases : o.Releases id)
    (hreleases' : o.Releases id') : id = id' := by
  unfold Op.Releases at hreleases hreleases'
  split at hreleases
  · exact hreleases.symm.trans hreleases'
  · exact hreleases.elim

/-- A weaker predicate covers as much. -/
theorem Op.Covers.mono {P Q : Op → Prop} (hP : Op.Covers su P) (hPQ : ∀ o, P o → Q o) :
    Op.Covers su Q where
  quiet o hquiet := hPQ _ (hP.quiet o hquiet)
  submitAck _ _ _ _ _ _ _ _ := hPQ _ (hP.submitAck _ _ _ _ _ _ _ _)
  submitTx _ _ _ _ _ _ _ _ := hPQ _ (hP.submitTx _ _ _ _ _ _ _ _)
  dbPut _ _ := hPQ _ (hP.dbPut _ _)
  dbDelete _ := hPQ _ (hP.dbDelete _)
  emplace _ _ _ hfiled := hPQ _ (hP.emplace _ _ _ hfiled)
  erase _ _ := hPQ _ (hP.erase _ _)
  setAckTimeout _ _ _ := hPQ _ (hP.setAckTimeout _ _ _)

/-- Filing under the right key covers what the handlers do to the stores. -/
theorem covers_files (su : Setup) : Op.Covers su (Op.Files su) where
  quiet _ hquiet := (Op.Quiet.remote hquiet).files
  submitAck _ _ _ _ _ _ _ _ := trivial
  submitTx _ _ _ _ _ _ _ _ := trivial
  dbPut _ _ := trivial
  dbDelete _ := trivial
  emplace _ _ _ hfiled := hfiled
  erase _ _ := trivial
  setAckTimeout _ _ _ := trivial

section Within

variable {P : Op → Prop} (hP : Op.Covers su P)

include hP

/-- Operations that submit nothing and change nothing are covered. -/
theorem within_of_quiet {α : Type} {p : AgentM α} (hp : Uses Op.Quiet p) : Uses P p :=
  hp.mono fun _ hquiet => hP.quiet _ hquiet

/-- Saving stays within what is covered. -/
theorem saves_within (store : Store) (info : Protocol.CrossTxInfo) : Op.Saves su P store info :=
  ⟨hP.dbPut _ _, fun t => hP.emplace _ _ _ (filedUnder_ofInfo su info t)⟩

/-- Forgetting an entry stays within what is covered. -/
theorem within_clearInfo (store : Store) (key : Text) : Uses P (Handle.clearInfo store key) :=
  uses_clearInfo (hP.dbDelete _) (hP.erase _ _)

/-- A `SendTx`, whose submission is covered, and its entry. -/
theorem within_sendTxTo (info : Protocol.CrossTxInfo)
    (hrelease : h = .layer2 → ∀ o : Op, o.Releases info.crosstxid → P o) :
    Uses P (Handle.sendTxTo su h info) := by
  refine uses_sendTxTo hP.quiet (fun maxSeq => ?_) fun _ => saves_within hP _ _
  cases h with
  | layer1 => exact hP.submitTx _ _ _ _ _ _ _ _
  | layer2 => exact hrelease rfl _ rfl

/-- An ack and its entry. -/
theorem within_sendAckTo (info : Protocol.CrossTxInfo) : Uses P (Handle.sendAckTo su h info) :=
  uses_sendAckTo hP.quiet (fun _ => hP.submitAck _ _ _ _ _ _ _ _) fun _ => saves_within hP _ _

/-- A reply and its entry. -/
theorem within_replyAckTo (info : Protocol.CrossTxInfo) : Uses P (Handle.replyAckTo su h info) :=
  uses_replyAckTo hP.quiet (fun _ => hP.submitAck _ _ _ _ _ _ _ _) fun _ => saves_within hP _ _

/-- The handler of a `SendTx` event stays within what is covered. -/
theorem within_handleSendTxEvent (crossTxid : Text) (status : Int32) :
    Uses P (Handle.handleSendTxEventWith su h crossTxid status) := by
  refine Uses.bind (within_of_quiet hP (quiet_readCrossTxInfo su h h.other crossTxid)) fun res => ?_
  cases res with
  | none => exact Uses.pure _
  | some info =>
    refine Uses.bind (within_sendAckTo hP _) fun ok => Uses.ite ?_ (Uses.pure _)
    exact Uses.bind (within_clearInfo hP _ _) fun _ => Uses.pure _

/-- The handler of an ack event stays within what is covered. -/
theorem within_handleSendAckdTxEvent (crossTxid : Text) :
    Uses P (Handle.handleSendAckdTxEvent su h crossTxid) := by
  refine Uses.bind (within_of_quiet hP (quiet_readCrossTxInfo su h h crossTxid)) fun res => ?_
  cases res with
  | none => exact Uses.pure _
  | some info =>
    refine Uses.bind (within_replyAckTo hP _) fun ok => Uses.ite ?_ (Uses.pure _)
    exact Uses.bind (within_clearInfo hP _ _) fun _ => Uses.pure _

/-- What is done about a `SendTx` without a receipt stays within what is covered. -/
theorem within_sendTxExpired (e : CrossTx) : Uses P (Handle.sendTxExpired su h e) := by
  refine Uses.bind (within_of_quiet hP (quiet_getTxResult _ _)) fun found => Uses.ite ?_ ?_
  · exact Uses.bind (within_handleSendTxEvent hP _ _) fun _ => Uses.pure _
  · exact Uses.bind (within_sendAckTo hP _) fun ok =>
      Uses.ite (within_clearInfo hP _ _) (Uses.pure _)

/-- What is done about a due ack stays within what is covered when sending it again does. -/
theorem within_ackExpired (store : Store) (l : Layer) (currentTime : Int64) (key : Text) (e : CrossTx)
    {resend : AgentM Bool} (hresend : Uses P resend) :
    Uses P (Handle.ackExpired su store l currentTime key e resend) :=
  uses_ackExpired hP.quiet (within_clearInfo hP _ _) hresend fun _ => hP.setAckTimeout _ _ _

/-- What is done about a due ack of the source layer stays within what is covered. -/
theorem within_sendAckExpired (currentTime : Int64) (key : Text) (e : CrossTx) :
    Uses P (Handle.sendAckExpired su h currentTime key e) :=
  uses_sendAckExpired hP.quiet (within_clearInfo hP _ _) (within_sendAckTo hP _) fun _ =>
    hP.setAckTimeout _ _ _

/-- A pass over a map uses what its rounds use. -/
theorem within_pass (store : Store) {f : Text × CrossTx → AgentM PUnit}
    (hf : ∀ p, Uses P (f p)) : Uses P (do
      perform (Op.lock store)
      let infos ← perform (Op.entries store)
      infos.forM f
      perform (Op.unlock store) : AgentM Unit) :=
  Uses.bind (Uses.perform (hP.quiet _ trivial)) fun _ =>
    Uses.bind (Uses.perform (hP.quiet _ trivial)) fun _ =>
      Uses.bind (Uses.forM fun p _ => hf p) fun _ => Uses.perform (hP.quiet _ trivial)

/-- The handler of a start event of layer 1 stays within what is covered. -/
theorem within_layer1_handleStartTxEvent (crossTxid : Text) :
    Uses P (Layer1ToLayer2Handle.handleStartTxEvent su crossTxid) := by
  refine Uses.bind (within_of_quiet hP (quiet_readCrossTxInfo su _ _ _)) fun res => ?_
  cases res with
  | none => exact Uses.pure _
  | some info =>
    refine Uses.bind (within_sendTxTo hP _ nofun) fun ok => ?_
    cases ok with
    | false => exact Uses.bind (within_sendAckTo hP _) fun _ => Uses.pure _
    | true => exact Uses.pure _

/-- The handler of a start event of layer 2 stays within what is covered. -/
theorem within_layer2_handleStartTxEvent (crossTxid : Text) :
    Uses P (Layer2ToLayer1Handle.handleStartTxEvent su crossTxid) := by
  refine Uses.bind (within_of_quiet hP (quiet_readCrossTxInfo su _ _ _)) fun res => ?_
  cases res with
  | none => exact Uses.pure _
  | some info =>
    refine Uses.bind (within_of_quiet hP (quiet_getLayerSeq _)) fun seq => ?_
    cases seq with
    | none => exact Uses.pure _
    | some seq => exact Uses.bind (uses_saveInfo (saves_within hP _ _)) fun _ => Uses.pure _

/-- A confirmed entry stays within what is covered when its own release does. -/
theorem within_confirmed (info : Protocol.CrossTxInfo) (currentTime : Int64)
    (hrelease : ∀ o : Op, o.Releases info.crosstxid → P o) :
    Uses P (Layer2ToLayer1Handle.confirmed su info currentTime) :=
  Uses.ite (Uses.bind (within_sendAckTo hP _) fun _ => Uses.pure _)
    (Uses.bind (within_sendTxTo hP _ fun _ => hrelease) fun _ =>
      Uses.ite (within_clearInfo hP _ _) (Uses.pure _))

/-- A call of a handler uses covered operations; a confirmation may release transfers too. -/
theorem within_run (call : HandlerCall h) (hrelease : call.Confirms →
    ∀ (o : Op) (id : Text), o.Releases id → P o) : Uses P (call.run su) := by
  have hclock : Uses P highResolution := Uses.perform (hP.quiet _ trivial)
  cases call with
  | handleStartTxEvent crossTxid =>
    cases h with
    | layer1 => exact within_layer1_handleStartTxEvent hP crossTxid
    | layer2 => exact within_layer2_handleStartTxEvent hP crossTxid
  | handleSendTxEvent crossTxid => exact within_handleSendTxEvent hP crossTxid _
  | handleSendAckdTxEvent crossTxid => exact within_handleSendAckdTxEvent hP crossTxid
  | sendTxTimeOut =>
    refine Uses.bind (Uses.bind hclock fun now => within_pass hP _ fun p => ?_) fun _ => Uses.pure _
    exact Uses.ite (within_sendTxExpired hP _) (Uses.pure _)
  | sendAckTimeOut =>
    refine Uses.bind (Uses.bind hclock fun now => within_pass hP _ fun p => ?_) fun _ => Uses.pure _
    exact Uses.ite (within_sendAckExpired hP _ _ _) (Uses.pure _)
  | replyAckTimeOut =>
    refine Uses.bind (Uses.bind hclock fun now => within_pass hP _ fun p => ?_) fun _ => Uses.pure _
    exact Uses.ite (within_ackExpired hP _ _ _ _ _ (within_replyAckTo hP _)) (Uses.pure _)
  | handleConfirmSeqEvent confirmSeq =>
    refine Uses.bind (within_pass hP _ fun p => Uses.bind hclock fun _ => ?_) fun _ => Uses.pure _
    exact Uses.ite (within_confirmed hP _ _ fun o => hrelease trivial o _) (Uses.pure _)
  | startTxTimeOut =>
    refine Uses.bind (Uses.bind hclock fun now => within_pass hP _ fun p => ?_) fun _ => Uses.pure _
    exact Uses.ite (Uses.bind (within_sendAckTo hP _) fun _ =>
      Uses.ite (within_clearInfo hP _ _) (Uses.pure _)) (Uses.pure _)

/-- Loading a store stays within what is covered. -/
theorem within_loadInfo (store : Store) (due : Bool) : Uses P (Handle.loadInfo su store due) := by
  refine Uses.bind (Uses.perform (hP.quiet _ trivial)) fun values => ?_
  cases values with
  | none => exact Uses.pure _
  | some values =>
    refine Uses.forM fun value _ => ?_
    unfold Handle.loadValue
    cases su.codec.parseFromString value with
    | none => exact Uses.pure _
    | some info =>
      cases due with
      | false => exact Uses.perform (hP.emplace _ _ _ (filedUnder_ofInfo su info 0))
      | true => exact Uses.bind (Uses.perform (hP.quiet _ trivial)) fun _ =>
          Uses.perform (hP.emplace _ _ _ (filedUnder_ofInfo su info _))

/-- So does `Initialize`, whatever the database holds. -/
theorem within_initializeHandle : Uses P (HandlerCall.initializeHandle su h) := by
  cases h with
  | layer1 => exact Uses.bind (within_loadInfo hP _ _) fun _ => Uses.bind (within_loadInfo hP _ _) fun _ =>
      within_loadInfo hP _ _
  | layer2 => exact Uses.bind (within_loadInfo hP _ _) fun _ => Uses.bind (within_loadInfo hP _ _) fun _ =>
      Uses.bind (within_loadInfo hP _ _) fun _ => within_loadInfo hP _ _

end Within

/-- A release files nothing under a wrong key. -/
theorem Op.Releases.files {o : Op} {id : Text} (hreleases : o.Releases id) : o.Files su := by
  cases o with
  | emplace => exact hreleases.elim
  | highResolution | http | dbPut | dbDelete | dbScan | lock | unlock | entries | erase
  | setAckTimeout | terminate => exact trivial

/-- Every call of a handler files well. -/
theorem run_files (call : HandlerCall h) : Uses (Op.Files su) (call.run su) :=
  within_run (covers_files su) call fun _ _ _ hreleases => hreleases.files

/-- `Initialize` files well, whatever the database holds. -/
theorem initializeHandle_files : Uses (Op.Files su) (HandlerCall.initializeHandle su h) :=
  within_initializeHandle (covers_files su)

/-- The sessions of a handler: calls, each completed or stopped on the way, and restarts, from any
database. -/
inductive Session.Reachable (su : Setup) (h : Handle) : Session → Prop
  | start (db : Database) : Reachable su h (Session.start db)
  | call {s s' : Session} (hs : Reachable su h s) (call : HandlerCall h)
      (hcall : Reaches Session.act (call.run su) s s') : Reachable su h s'
  | restart {s s' : Session} (hs : Reachable su h s)
      (hinit : Reaches Session.act (HandlerCall.initializeHandle su h) s.restarted s') : Reachable su h s'

/-- In every session, each map is well keyed. -/
theorem Session.Reachable.wellKeyed (hs : Session.Reachable su h s) (store : Store) :
    s.WellKeyed su store := by
  have hempty : ∀ u : Session, (∀ store, u.state.maps store = ∅) → u.WellKeyed su store := by
    intro u hu key e hget
    rw [hu, ExtTreeMap.getElem?_empty] at hget
    cases hget
  induction hs with
  | start db => exact hempty _ fun _ => rfl
  | call hs call hcall ih =>
    exact hcall.of_uses (fun o u r u' hfiles hact hu => hu.act hfiles hact) (run_files call) ih
  | restart hs hinit ih =>
    exact hinit.of_uses (fun o u r u' hfiles hact hu => hu.act hfiles hact) initializeHandle_files
      (hempty _ fun _ => rfl)

end CrosschainAgent
