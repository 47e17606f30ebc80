import CrosschainAgent.Session.Replay

/-!
# What a handler's functions do to the stores

The effect of each function that writes, and the frame: which entries a program can change at
most. The entries of a pending map are those of the messages saved under their own id.
-/

namespace CrosschainAgent

open Interaction Std

variable {su : Setup} {h : Handle} {s s' : Session}

/-- An operation of a session in which the database works. -/
abbrev Session.storedAct (o : Op) (s : Session) (r : o.Resp) (s' : Session) : Prop :=
  Session.act o s r s' ∧ Step.Stored ⟨s.state, o, r⟩

/-- A run whose database writes succeed is a run. -/
theorem runs_of_stored {α : Type} {p : AgentM α} {a : α} (hrun : Runs Session.storedAct p s a s') :
    Runs Session.act p s a s' :=
  hrun.map (f := id) fun _ _ _ _ hact => hact.1

/-- The operation writes no entry and no value but those of the given map and key. -/
def Op.Touches (F : Store → Text → Prop) : Op → Prop
  | .emplace store key _ | .erase store key | .setAckTimeout store key _ => F store key
  | .dbPut dbkey _ | .dbDelete dbkey => ∃ store key, dbkey = store.keyPrefix ++ key ∧ F store key
  | _ => True

/-- What leaves the stores touches nothing. -/
theorem Op.Remote.touches {o : Op} (hremote : o.Remote) (F : Store → Text → Prop) : o.Touches F := by
  cases o with
  | dbPut | dbDelete | emplace | erase | setAckTimeout => exact hremote.elim
  | highResolution | http | dbScan | lock | unlock | entries | terminate => exact trivial

/-- Programs that leave the stores touch nothing. -/
theorem touches_of_remote {α : Type} {p : AgentM α} (hp : Uses Op.Remote p)
    (F : Store → Text → Prop) : Uses (Op.Touches F) p :=
  hp.mono fun _ hremote => hremote.touches F

/-- Two states have the same entry and the same value for a map and a key. -/
structure AgentState.SameAt (a a' : AgentState) (store : Store) (key : Text) : Prop where
  map : (a'.maps store)[key]? = (a.maps store)[key]?
  db : a'.db[store.keyPrefix ++ key]? = a.db[store.keyPrefix ++ key]?

/-- A state is as it was at every key. -/
theorem AgentState.SameAt.refl (a : AgentState) (store : Store) (key : Text) : a.SameAt a store key :=
  ⟨rfl, rfl⟩

/-- Being as before at a key carries over two parts. -/
theorem AgentState.SameAt.trans {a a' a'' : AgentState} {store : Store} {key : Text}
    (hs : a.SameAt a' store key) (hs' : a'.SameAt a'' store key) : a.SameAt a'' store key :=
  ⟨hs'.map.trans hs.map, hs'.db.trans hs.db⟩

/-- What an operation does not touch stays. -/
theorem AgentState.Acts.same_of_touches {a a' : AgentState} {o : Op} {r : o.Resp}
    (hacts : a.Acts o r a') {F : Store → Text → Prop} (htouches : o.Touches F) {store : Store}
    {key : Text} (hkey : ¬F store key) : a.SameAt a' store key := by
  cases hacts with
  | highResolution | http | dbScan | lock | unlock | entries => exact .refl _ _ _
  | dbPut dbkey value ok =>
    obtain ⟨store', key', rfl, hF⟩ := htouches
    cases ok with
    | false => exact .refl _ _ _
    | true =>
      refine ⟨rfl, getElem?_written.trans (if_neg fun heq => ?_)⟩
      obtain ⟨rfl, rfl⟩ := Store.keyPrefix_append_inj heq
      exact hkey hF
  | dbDelete dbkey ok =>
    obtain ⟨store', key', rfl, hF⟩ := htouches
    cases ok with
    | false => exact .refl _ _ _
    | true =>
      refine ⟨rfl, getElem?_erased.trans (if_neg fun heq => ?_)⟩
      obtain ⟨rfl, rfl⟩ := Store.keyPrefix_append_inj heq
      exact hkey hF
  | emplace store' key' e =>
    have hne : ¬(store = store' ∧ key = key') := by
      rintro ⟨rfl, rfl⟩
      exact hkey htouches
    exact ⟨getElem?_setMap_of_ne a (fun k hk => getElem?_emplace.trans (if_neg hk)) hne, rfl⟩
  | erase store' key' =>
    have hne : ¬(store = store' ∧ key = key') := by
      rintro ⟨rfl, rfl⟩
      exact hkey htouches
    exact ⟨getElem?_setMap_of_ne a (fun k hk => getElem?_erased.trans (if_neg hk)) hne, rfl⟩
  | setAckTimeout store' key' t =>
    have hne : ¬(store = store' ∧ key = key') := by
      rintro ⟨rfl, rfl⟩
      exact hkey htouches
    exact ⟨getElem?_setMap_of_ne a (fun k hk => getElem?_setDue.trans (if_neg hk)) hne, rfl⟩

/-- What a program does not touch stays. -/
theorem same_of_touches {α : Type} {p : AgentM α} {F : Store → Text → Prop}
    (hp : Uses (Op.Touches F) p) {a : α} (hrun : Runs Session.act p s a s') {store : Store}
    {key : Text} (hkey : ¬F store key) : s.state.SameAt s'.state store key := by
  refine hrun.of_uses (J := fun u => s.state.SameAt u.state store key) ?_ hp (.refl _ _ _)
  intro o u r u' htouches hact hu
  exact hu.trans (hact.1.same_of_touches htouches hkey)

/-- The operations that save a message in a map are among these. -/
structure Op.Saves (su : Setup) (P : Op → Prop) (store : Store) (info : Protocol.CrossTxInfo) : Prop where
  dbPut : P (.dbPut (store.keyPrefix ++ info.crosstxid) (su.codec.serializeAsString info))
  emplace : ∀ t : Int64, P (.emplace store info.crosstxid
    { CrossTx.ofInfo su.codec info with sendAckTimeout := t })

section Uses

variable {P : Op → Prop} {info : Protocol.CrossTxInfo}

/-- A submission asks for the height and submits. -/
theorem uses_sendTransaction (hquiet : ∀ o : Op, o.Quiet → P o) {l : Layer} {input : TxInput}
    {amount : Int64} (hsubmit : ∀ maxSeq, P (.http l (.submitTransaction (su.conf.crossContract l)
      input amount maxSeq))) : Uses P (Handle.sendTransaction su l input amount) := by
  refine Uses.bind ((quiet_getLayerSeq l).mono hquiet) fun seq => ?_
  cases seq with
  | none => exact Uses.pure _
  | some seq =>
    exact Uses.bind (Uses.perform (hsubmit _)) fun _ => (quiet_orTerminate _).mono hquiet

/-- Saving an entry writes it to the database and to its map. -/
theorem uses_saveInfo {store : Store} (hsaves : Op.Saves su P store info) :
    Uses P (Handle.saveInfo store (CrossTx.ofInfo su.codec info)) :=
  Uses.bind (Uses.perform hsaves.dbPut) fun _ => Uses.perform (hsaves.emplace 0)

/-- Saving an ack reads the clock too. -/
theorem uses_saveAckInfo (hquiet : ∀ o : Op, o.Quiet → P o) (l : Handle) {store : Store}
    (hsaves : Op.Saves su P store info) :
    Uses P (Handle.saveAckInfo l store (CrossTx.ofInfo su.codec info)) := by
  have hclock : Uses P highResolution := Uses.perform (hquiet _ trivial)
  have hput : Uses P (perform (Op.dbPut (store.keyPrefix ++ info.crosstxid)
      (su.codec.serializeAsString info)) : AgentM Bool) := Uses.perform hsaves.dbPut
  have hemplace : ∀ t : Int64, Uses P (perform (Op.emplace store info.crosstxid
      { CrossTx.ofInfo su.codec info with sendAckTimeout := t }) : AgentM Unit) :=
    fun t => Uses.perform (hsaves.emplace t)
  cases l with
  | layer1 => exact Uses.bind hput fun _ => Uses.bind hclock fun _ => hemplace _
  | layer2 => exact Uses.bind hclock fun _ => Uses.bind hput fun _ => hemplace _

/-- Forgetting an entry deletes it from the database and from its map. -/
theorem uses_clearInfo {store : Store} {key : Text} (hdelete : P (.dbDelete (store.keyPrefix ++ key)))
    (herase : P (.erase store key)) : Uses P (Handle.clearInfo store key) :=
  Uses.bind (Uses.perform hdelete) fun _ => Uses.perform herase

/-- A submission, and the save of what was submitted. -/
theorem uses_sendTxTo (hquiet : ∀ o : Op, o.Quiet → P o)
    (hsubmit : ∀ maxSeq, P (.http h.other (.submitTransaction (su.conf.crossContract h.other)
      (Handle.sendTxInput info) info.amount maxSeq)))
    (hsaves : ∀ hash, Op.Saves su P (.send h) { info with sendtxhash := hash }) :
    Uses P (Handle.sendTxTo su h info) := by
  refine Uses.bind (uses_sendTransaction hquiet hsubmit) fun txhash => ?_
  cases txhash with
  | none => exact Uses.pure _
  | some hash => exact Uses.bind (uses_saveInfo (hsaves hash)) fun _ => Uses.pure _

/-- An ack is submitted, and saved with its hash. -/
theorem uses_sendAckTo (hquiet : ∀ o : Op, o.Quiet → P o)
    (hsubmit : ∀ maxSeq, P (.http h (.submitTransaction (su.conf.crossContract h)
      (Handle.sendAckedTxInput h info) 0 maxSeq)))
    (hsaves : ∀ hash, Op.Saves su P (.ack h) (info.setAckHash h hash)) :
    Uses P (Handle.sendAckTo su h info) := by
  refine Uses.bind (uses_sendTransaction hquiet hsubmit) fun txhash => ?_
  cases txhash with
  | none => exact Uses.pure _
  | some hash => exact Uses.bind (uses_saveAckInfo hquiet _ (hsaves hash)) fun _ => Uses.pure _

/-- A reply is submitted, and saved with its hash. -/
theorem uses_replyAckTo (hquiet : ∀ o : Op, o.Quiet → P o)
    (hsubmit : ∀ maxSeq, P (.http h.other (.submitTransaction (su.conf.crossContract h.other)
      (Handle.sendAckedTxInput h info) 0 maxSeq)))
    (hsaves : ∀ hash, Op.Saves su P (.reply h) (info.setAckHash h.other hash)) :
    Uses P (Handle.replyAckTo su h info) := by
  refine Uses.bind (uses_sendTransaction hquiet hsubmit) fun txhash => ?_
  cases txhash with
  | none => exact Uses.pure _
  | some hash => exact Uses.bind (uses_saveAckInfo hquiet _ (hsaves hash)) fun _ => Uses.pure _

/-- A due ack is forgotten, sent again or put off. -/
theorem uses_ackExpired (hquiet : ∀ o : Op, o.Quiet → P o) {store : Store} {l : Layer}
    {currentTime : Int64} {key : Text} {e : CrossTx} {resend : AgentM Bool}
    (hclear : Uses P (Handle.clearInfo store key)) (hresend : Uses P resend)
    (hset : ∀ t, P (.setAckTimeout store key t)) :
    Uses P (Handle.ackExpired su store l currentTime key e resend) := by
  refine Uses.bind ((quiet_getTxResult _ _).mono hquiet) fun found => Uses.ite hclear ?_
  refine Uses.bind ((quiet_getCrossTxStatus _ _ _).mono hquiet) fun status => Uses.ite hclear ?_
  exact Uses.bind hresend fun _ => Uses.perform (hset _)

/-- A due ack of the source layer is forgotten, sent again or put off. -/
theorem uses_sendAckExpired (hquiet : ∀ o : Op, o.Quiet → P o) {currentTime : Int64} {key : Text}
    {e : CrossTx} (hclear : Uses P (Handle.clearInfo (.ack h) key))
    (hresend : Uses P (Handle.sendAckTo su h (e.info su.codec)))
    (hset : ∀ t, P (.setAckTimeout (.ack h) key t)) :
    Uses P (Handle.sendAckExpired su h currentTime key e) :=
  Uses.ite (Uses.bind hresend fun _ => Uses.perform (hset _))
    (uses_ackExpired hquiet hclear hresend hset)

end Uses

section Touches

variable {F : Store → Text → Prop}

/-- What is quiet touches nothing. -/
theorem touches_of_quiet (o : Op) (hquiet : o.Quiet) : o.Touches F := hquiet.remote.touches F

/-- Saving an entry touches its key. -/
theorem saves_touches {store : Store} {info : Protocol.CrossTxInfo} (hF : F store info.crosstxid) :
    Op.Saves su (Op.Touches F) store info :=
  ⟨⟨store, info.crosstxid, rfl, hF⟩, fun _ => hF⟩

/-- Forgetting an entry touches its key. -/
theorem clearInfo_touches {store : Store} {key : Text} (hF : F store key) :
    Uses (Op.Touches F) (Handle.clearInfo store key) :=
  uses_clearInfo ⟨store, key, rfl, hF⟩ hF

/-- A `SendTx` touches the key of its transfer in the send store. -/
theorem sendTxTo_touches {info : Protocol.CrossTxInfo} (hF : F (.send h) info.crosstxid) :
    Uses (Op.Touches F) (Handle.sendTxTo su h info) :=
  uses_sendTxTo touches_of_quiet (fun _ => trivial) fun _ => saves_touches hF

/-- An ack touches the key of its transfer in the ack store. -/
theorem sendAckTo_touches {info : Protocol.CrossTxInfo} (hF : F (.ack h) info.crosstxid) :
    Uses (Op.Touches F) (Handle.sendAckTo su h info) := by
  refine uses_sendAckTo touches_of_quiet (fun _ => trivial) fun hash => saves_touches ?_
  rwa [Protocol.CrossTxInfo.crosstxid_setAckHash]

/-- A reply touches the key of its transfer in the reply store. -/
theorem replyAckTo_touches {info : Protocol.CrossTxInfo} (hF : F (.reply h) info.crosstxid) :
    Uses (Op.Touches F) (Handle.replyAckTo su h info) := by
  refine uses_replyAckTo touches_of_quiet (fun _ => trivial) fun hash => saves_touches ?_
  rwa [Protocol.CrossTxInfo.crosstxid_setAckHash]

/-- A due ack touches its key and what sending it again touches. -/
theorem ackExpired_touches {store : Store} {l : Layer} {currentTime : Int64} {key : Text} {e : CrossTx}
    {resend : AgentM Bool} (hF : F store key) (hresend : Uses (Op.Touches F) resend) :
    Uses (Op.Touches F) (Handle.ackExpired su store l currentTime key e resend) :=
  uses_ackExpired touches_of_quiet (clearInfo_touches hF) hresend fun _ => hF

/-- A due ack of the source layer touches its key and its id. -/
theorem sendAckExpired_touches {currentTime : Int64} {key : Text} {e : CrossTx}
    (hkey : F (.ack h) key) (hid : F (.ack h) (e.info su.codec).crosstxid) :
    Uses (Op.Touches F) (Handle.sendAckExpired su h currentTime key e) :=
  uses_sendAckExpired touches_of_quiet (clearInfo_touches hkey) (sendAckTo_touches hid) fun _ => hkey

end Touches

/-- An accepted or rejected submission of `SendTx`. -/
theorem sendTxTo_cases {S : Type} {act : (o : Op) → S → o.Resp → S → Prop} {s s' : S}
    {info : Protocol.CrossTxInfo} {ok : Bool} (hrun : Runs act (Handle.sendTxTo su h info) s ok s') :
    (ok = false ∧ Runs act
      (Handle.sendTransaction su h.other (Handle.sendTxInput info) info.amount) s none s') ∨
    ∃ hash t, ok = true ∧ Runs act
      (Handle.sendTransaction su h.other (Handle.sendTxInput info) info.amount) s (some hash) t ∧
      Runs act (Handle.saveInfo (.send h)
        (CrossTx.ofInfo su.codec { info with sendtxhash := hash })) t () s' := by
  obtain ⟨txhash, t, hsend, hrun⟩ := runs_bind.mp hrun
  cases txhash with
  | none =>
    obtain ⟨rfl, rfl⟩ := runs_pure.mp hrun
    exact Or.inl ⟨rfl, hsend⟩
  | some hash =>
    obtain ⟨_, u, hsave, hrun⟩ := runs_bind.mp hrun
    obtain ⟨rfl, rfl⟩ := runs_pure.mp hrun
    exact Or.inr ⟨hash, t, rfl, hsend, hsave⟩

/-- An accepted or rejected submission of an ack to the source. -/
theorem sendAckTo_cases {S : Type} {act : (o : Op) → S → o.Resp → S → Prop} {s s' : S}
    {info : Protocol.CrossTxInfo} {ok : Bool} (hrun : Runs act (Handle.sendAckTo su h info) s ok s') :
    (ok = false ∧ Runs act
      (Handle.sendTransaction su h (Handle.sendAckedTxInput h info) 0) s none s') ∨
    ∃ hash t, ok = true ∧ Runs act
      (Handle.sendTransaction su h (Handle.sendAckedTxInput h info) 0) s (some hash) t ∧
      Runs act (Handle.saveAckInfo h (.ack h)
        (CrossTx.ofInfo su.codec (info.setAckHash h hash))) t () s' := by
  obtain ⟨txhash, t, hsend, hrun⟩ := runs_bind.mp hrun
  cases txhash with
  | none =>
    obtain ⟨rfl, rfl⟩ := runs_pure.mp hrun
    exact Or.inl ⟨rfl, hsend⟩
  | some hash =>
    obtain ⟨_, u, hsave, hrun⟩ := runs_bind.mp hrun
    obtain ⟨rfl, rfl⟩ := runs_pure.mp hrun
    exact Or.inr ⟨hash, t, rfl, hsend, hsave⟩

/-- An accepted or rejected submission of an ack to the destination. -/
theorem replyAckTo_cases {S : Type} {act : (o : Op) → S → o.Resp → S → Prop} {s s' : S}
    {info : Protocol.CrossTxInfo} {ok : Bool} (hrun : Runs act (Handle.replyAckTo su h info) s ok s') :
    (ok = false ∧ Runs act
      (Handle.sendTransaction su h.other (Handle.sendAckedTxInput h info) 0) s none s') ∨
    ∃ hash t, ok = true ∧ Runs act
      (Handle.sendTransaction su h.other (Handle.sendAckedTxInput h info) 0) s (some hash) t ∧
      Runs act (Handle.saveAckInfo h (.reply h)
        (CrossTx.ofInfo su.codec (info.setAckHash h.other hash))) t () s' := by
  obtain ⟨txhash, t, hsend, hrun⟩ := runs_bind.mp hrun
  cases txhash with
  | none =>
    obtain ⟨rfl, rfl⟩ := runs_pure.mp hrun
    exact Or.inl ⟨rfl, hsend⟩
  | some hash =>
    obtain ⟨_, u, hsave, hrun⟩ := runs_bind.mp hrun
    obtain ⟨rfl, rfl⟩ := runs_pure.mp hrun
    exact Or.inr ⟨hash, t, rfl, hsend, hsave⟩

/-- What a save leaves in the database. -/
theorem saveInfo_db {store : Store} {e : CrossTx}
    (hrun : Runs Session.storedAct (Handle.saveInfo store e) s () s') :
    s'.state.db = s.state.db.insert (store.keyPrefix ++ e.crossTxId) e.crossTxInfo := by
  obtain ⟨ok, t, hput, hemplace⟩ := runs_bind.mp hrun
  obtain ⟨hact, hok⟩ := runs_perform.mp hput
  have hok : ok = true := hok
  rw [(runs_perform.mp hemplace).1.1.emplace_eq, AgentState.setMap_db, hact.1.dbPut_eq, if_pos hok]

/-- A saved ack is in the database under its key. -/
theorem saveAckInfo_db {l : Handle} {store : Store} {e : CrossTx}
    (hrun : Runs Session.storedAct (Handle.saveAckInfo l store e) s () s') :
    s'.state.db = s.state.db.insert (store.keyPrefix ++ e.crossTxId) e.crossTxInfo := by
  cases l with
  | layer1 =>
    obtain ⟨ok, t, hput, hrun⟩ := runs_bind.mp hrun
    obtain ⟨now, u, hclock, hemplace⟩ := runs_bind.mp hrun
    obtain ⟨hact, hok⟩ := runs_perform.mp hput
    have hok : ok = true := hok
    rw [(runs_perform.mp hemplace).1.1.emplace_eq, AgentState.setMap_db,
      (runs_perform.mp hclock).1.1.eq_of_remote trivial, hact.1.dbPut_eq, if_pos hok]
  | layer2 =>
    obtain ⟨now, t, hclock, hrun⟩ := runs_bind.mp hrun
    obtain ⟨ok, u, hput, hemplace⟩ := runs_bind.mp hrun
    obtain ⟨hact, hok⟩ := runs_perform.mp hput
    have hok : ok = true := hok
    rw [(runs_perform.mp hemplace).1.1.emplace_eq, AgentState.setMap_db, hact.1.dbPut_eq, if_pos hok,
      (runs_perform.mp hclock).1.1.eq_of_remote trivial]

end CrosschainAgent
