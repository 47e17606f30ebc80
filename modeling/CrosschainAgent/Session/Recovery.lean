import CrosschainAgent.Session.Calls
import CrosschainAgent.System.Formats

/-!
# What a restart finds

`Save` overwrites the database value but leaves an entry the map already has, so the two agree
only while nothing is saved over a different message. In a session without such a save every
map of the handler and the database hold the same messages, the ones of the most recent
submissions, and `Initialize` rebuilds the maps from the database.
-/

namespace CrosschainAgent

open Interaction Std

variable (su : Setup) (h : Handle)

/-- The step saves a message over a different one. -/
def Step.Resaves : Step → Prop
  | ⟨before, .dbPut key value, _⟩ => ∃ old, before.db[key]? = some old ∧ old ≠ value
  | _ => False

/-- What an entry carries of its submission: the hash, and the result code of an ack. -/
def Store.submission (s : Store) (info : Protocol.CrossTxInfo) : Option Submission :=
  match s with
  | .start => none
  | .send h => some ⟨.send h, info.crosstxid, info.sendtxhash, none⟩
  | .ack h => some ⟨.ack h, info.crosstxid, info.ackHash h, some info.status⟩
  | .reply h => some ⟨.reply h, info.crosstxid, info.ackHash h.other, some info.status⟩

/-- A map and the database agree on a key: both have nothing, or the same message, which
carries the most recent submission of its stage. -/
def Session.Agrees (s : Session) (store : Store) (key : Text) : Prop :=
  (s.state.maps store)[key]? = none ∧ s.state.db[store.keyPrefix ++ key]? = none ∨
  ∃ info due, info.crosstxid = key ∧
    (s.state.maps store)[key]? =
      some { CrossTx.ofInfo su.codec info with sendAckTimeout := due } ∧
    s.state.db[store.keyPrefix ++ key]? = some (su.codec.serializeAsString info) ∧
    ∀ sub, store.submission info = some sub → latest h s.trace store key = some sub

/-- The maps of the handler agree with the database. -/
def Session.Coherent (s : Session) : Prop :=
  ∀ store, store.handle = h → ∀ key, s.Agrees su h store key

/-- An operation of a session in which the database works and nothing is saved over a
different message. -/
abbrev Session.cleanAct (o : Op) (s : Session) (r : o.Resp) (s' : Session) : Prop :=
  Session.act o s r s' ∧ Step.Stored ⟨s.state, o, r⟩ ∧ ¬Step.Resaves ⟨s.state, o, r⟩

variable {su h} {s s' : Session}

/-- Neither the stores nor the most recent submissions changed. -/
structure Session.Same (h : Handle) (s s' : Session) : Prop where
  state : s'.state = s.state
  latest : ∀ store key, latest h s'.trace store key = latest h s.trace store key

/-- A session is as it was. -/
theorem Session.Same.refl (s : Session) : s.Same h s := ⟨rfl, fun _ _ => rfl⟩

/-- Being as before carries over two parts. -/
theorem Session.Same.trans {s'' : Session} (hs : s.Same h s') (hs' : s'.Same h s'') : s.Same h s'' :=
  ⟨hs'.state.trans hs.state, fun store key => (hs'.latest store key).trans (hs.latest store key)⟩

/-- A session that is as before is as coherent. -/
theorem Session.Coherent.same (hs : s.Coherent su h) (hsame : s.Same h s') : s'.Coherent su h := by
  intro store hstore key
  unfold Session.Agrees
  rw [hsame.state, hsame.latest]
  exact hs store hstore key

/-- A quiet operation changes nothing. -/
theorem same_of_quiet {o : Op} {r : o.Resp} (hquiet : o.Quiet) (hact : Session.cleanAct o s r s') :
    s.Same h s' := by
  obtain ⟨⟨hstate, htrace⟩, _, _⟩ := hact
  refine ⟨hstate.eq_of_quiet hquiet, fun store key => ?_⟩
  rw [htrace, latest_cons, Step.submission_of_quiet hquiet]

/-- A quiet program changes nothing. -/
theorem same_of_uses {α : Type} {p : AgentM α} {a : α} (hp : Uses Op.Quiet p)
    (hrun : Runs Session.cleanAct p s a s') : s.Same h s' := by
  refine hrun.of_uses (J := fun u => s.Same h u) ?_ hp (Session.Same.refl s)
  intro o u r u' hquiet hact hu
  exact hu.trans (same_of_quiet hquiet hact)

/-- The most recent submission after another one, given the hash it was accepted with. -/
def latestAfter (h : Handle) (l : Layer) (input : TxInput) (old : Option Submission) (store : Store)
    (key : Text) : Option Text → Option Submission
  | some hash => if stageOf h l input = store ∧ input.crossTxId = key then
      some ⟨stageOf h l input, input.crossTxId, hash, input.result⟩ else old
  | none => old

/-- What a submission leaves: the stores, and itself if it was accepted. -/
theorem sendTransaction_latest {l : Layer} {input : TxInput} {amount : Int64} {txhash : Option Text}
    (hrun : Runs Session.cleanAct (Handle.sendTransaction su l input amount) s txhash s') :
    s'.state = s.state ∧ ∀ store key, latest h s'.trace store key =
      latestAfter h l input (latest h s.trace store key) store key txhash := by
  unfold Handle.sendTransaction at hrun
  obtain ⟨seq, s1, hseq, hrun⟩ := runs_bind.mp hrun
  have hsame : s.Same h s1 := same_of_uses (quiet_getLayerSeq l) hseq
  cases seq with
  | none =>
    obtain ⟨rfl, rfl⟩ := runs_pure.mp hrun
    exact ⟨hsame.state, hsame.latest⟩
  | some seq =>
    obtain ⟨response, s2, hpost, hrun⟩ := runs_bind.mp hrun
    obtain ⟨⟨hstate, htrace⟩, _, _⟩ := runs_perform.mp hpost
    obtain ⟨hread, rfl⟩ := runs_orTerminate hrun
    refine ⟨hstate.http_eq.trans hsame.state, fun store key => ?_⟩
    have haccepted : acceptedHash response = txhash := by rw [acceptedHash, hread, Option.join_some]
    rw [htrace, latest_cons, Step.submission, haccepted, hsame.latest]
    cases txhash <;> rfl

/-- What holds after an accepted submission, until its entry is saved: the maps still agree but
for the key it is about, where the submission is the most recent. -/
structure Session.Awaits (su : Setup) (h : Handle) (s : Session) (store : Store)
    (info : Protocol.CrossTxInfo) : Prop where
  others : ∀ store', store'.handle = h → ∀ key, ¬(store' = store ∧ key = info.crosstxid) →
    s.Agrees su h store' key
  held : (s.state.maps store)[info.crosstxid]? = none ∧
      s.state.db[store.keyPrefix ++ info.crosstxid]? = none ∨
    ∃ info' due, info'.crosstxid = info.crosstxid ∧
      (s.state.maps store)[info.crosstxid]? =
        some { CrossTx.ofInfo su.codec info' with sendAckTimeout := due } ∧
      s.state.db[store.keyPrefix ++ info.crosstxid]? = some (su.codec.serializeAsString info')
  newest : ∀ sub, store.submission info = some sub →
    latest h s.trace store info.crosstxid = some sub

/-- A session that is as before awaits the same entry. -/
theorem Session.Awaits.same {store : Store} {info : Protocol.CrossTxInfo}
    (hs : s.Awaits su h store info) (hsame : s.Same h s') : s'.Awaits su h store info := by
  refine ⟨fun store' hstore' key hne => ?_, ?_, fun sub hsub => ?_⟩
  · unfold Session.Agrees
    rw [hsame.state, hsame.latest]
    exact hs.others store' hstore' key hne
  · rw [hsame.state]
    exact hs.held
  · rw [hsame.latest]
    exact hs.newest sub hsub

/-- An operation on the stores leaves the most recent submissions. -/
theorem latest_of_stores {o : Op} {r : o.Resp} (hact : Session.act o s r s')
    (hnone : Step.submission h ⟨s.state, o, r⟩ = none) (store : Store) (key : Text) :
    latest h s'.trace store key = latest h s.trace store key := by
  rw [hact.2, latest_cons, hnone]

/-- The codec tells messages apart. -/
theorem serialize_inj {info info' : Protocol.CrossTxInfo}
    (heq : su.codec.serializeAsString info = su.codec.serializeAsString info') : info = info' := by
  have hparse := congrArg su.codec.parseFromString heq
  rw [su.codec.parse_serialize, su.codec.parse_serialize] at hparse
  exact Option.some_inj.mp hparse

/-- The database write and the map insertion of a save restore the agreement. -/
theorem save_coherent {store : Store} {info : Protocol.CrossTxInfo} (due : Int64)
    (hs : s.Awaits su h store info) {s1 s2 s3 : Session} {ok : Bool} {r : Unit}
    (hput : Session.cleanAct (.dbPut (store.keyPrefix ++ info.crosstxid)
      (su.codec.serializeAsString info)) s ok s1)
    (hmid : s1.Same h s2)
    (hemplace : Session.cleanAct (.emplace store info.crosstxid
      { CrossTx.ofInfo su.codec info with sendAckTimeout := due }) s2 r s3) :
    s3.Coherent su h := by
  obtain ⟨hputact, hok, hclean⟩ := hput
  have hok : ok = true := hok
  have hdb : s1.state = { s.state with
      db := s.state.db.insert (store.keyPrefix ++ info.crosstxid) (su.codec.serializeAsString info) } := by
    rw [hputact.1.dbPut_eq, hok, if_pos rfl]
  have hstate := hemplace.1.1.emplace_eq
  rw [hmid.state, hdb] at hstate
  have hlatest : ∀ store' key, latest h s3.trace store' key = latest h s.trace store' key := by
    intro store' key
    rw [latest_of_stores hemplace.1 rfl, hmid.latest, latest_of_stores hputact rfl]
  intro store' hstore' key
  unfold Session.Agrees
  rw [hstate, hlatest]
  by_cases hkey : store' = store ∧ key = info.crosstxid
  · obtain ⟨rfl, rfl⟩ := hkey
    refine Or.inr ?_
    simp only [AgentState.setMap_maps_self, AgentState.setMap_db, AgentState.getElem?_emplace,
      AgentState.getElem?_written, if_true]
    rcases hs.held with ⟨hmap, _⟩ | ⟨info', due', _, hmap, hvalue⟩
    · exact ⟨info, due, rfl, by rw [hmap, Option.none_or], rfl, hs.newest⟩
    · have hsame : su.codec.serializeAsString info' = su.codec.serializeAsString info :=
        not_not.mp fun hne => hclean ⟨_, hvalue, hne⟩
      obtain rfl := serialize_inj hsame
      exact ⟨info', due', rfl, by rw [hmap, Option.some_or], rfl, hs.newest⟩
  · have hdbkey : store'.keyPrefix ++ key ≠ store.keyPrefix ++ info.crosstxid := fun heq =>
      hkey (Store.keyPrefix_append_inj heq)
    rw [AgentState.getElem?_setMap_of_ne _
      (fun k hk => AgentState.getElem?_emplace.trans (if_neg hk)) hkey, AgentState.setMap_db,
      AgentState.getElem?_written, if_neg hdbkey]
    exact hs.others store' hstore' key hkey

/-- A save keeps the agreement exactly when it is not over a different message. -/
theorem save_coherent_iff {store : Store} {info : Protocol.CrossTxInfo} {due : Int64}
    (hstore : store.handle = h) (hs : s.Awaits su h store info) {s1 s2 s3 : Session} {r : Unit}
    (hput : Session.act (.dbPut (store.keyPrefix ++ info.crosstxid)
      (su.codec.serializeAsString info)) s true s1)
    (hmid : s1.Same h s2)
    (hemplace : Session.act (.emplace store info.crosstxid
      { CrossTx.ofInfo su.codec info with sendAckTimeout := due }) s2 r s3) :
    s3.Coherent su h ↔ ¬Step.Resaves ⟨s.state, .dbPut (store.keyPrefix ++ info.crosstxid)
      (su.codec.serializeAsString info), true⟩ := by
  constructor
  · rintro hcoherent ⟨old, hold, hne⟩
    have hstate := hemplace.1.emplace_eq
    rw [hmid.state, hput.1.dbPut_eq, if_pos rfl] at hstate
    have hagrees := hcoherent store hstore info.crosstxid
    unfold Session.Agrees at hagrees
    simp only [hstate, AgentState.setMap_maps_self, AgentState.setMap_db, AgentState.getElem?_emplace,
      AgentState.getElem?_written, if_true] at hagrees
    rcases hs.held with ⟨_, hnone⟩ | ⟨info', due', _, hmap, hvalue⟩
    · exact nomatch hnone.symm.trans hold
    · obtain rfl := Option.some_inj.mp (hvalue.symm.trans hold)
      rcases hagrees with ⟨_, hno⟩ | ⟨info'', due'', _, hmap'', hvalue'', _⟩
      · cases hno
      · rw [hmap, Option.some_or] at hmap''
        have hbytes := congrArg CrossTx.crossTxInfo (Option.some_inj.mp hmap'')
        exact hne (hbytes.trans (Option.some_inj.mp hvalue'').symm)
  · intro hclean
    exact save_coherent due hs ⟨hput, rfl, hclean⟩ hmid ⟨hemplace, trivial, fun hno => hno⟩

/-- A save for which nothing was submitted, or right after its submission. -/
theorem saveInfo_coherent {store : Store} {info : Protocol.CrossTxInfo}
    (hs : s.Awaits su h store info)
    (hrun : Runs Session.cleanAct (Handle.saveInfo store (CrossTx.ofInfo su.codec info)) s () s') :
    s'.Coherent su h := by
  obtain ⟨ok, s1, hput, hemplace⟩ := runs_bind.mp hrun
  exact save_coherent 0 hs (runs_perform.mp hput) (Session.Same.refl s1)
    (runs_perform.mp hemplace)

/-- An awaited ack that is saved makes the session coherent again. -/
theorem saveAckInfo_coherent {l : Handle} {store : Store} {info : Protocol.CrossTxInfo}
    (hs : s.Awaits su h store info)
    (hrun : Runs Session.cleanAct (Handle.saveAckInfo l store (CrossTx.ofInfo su.codec info)) s () s') :
    s'.Coherent su h := by
  cases l with
  | layer1 =>
    obtain ⟨ok, s1, hput, hrun⟩ := runs_bind.mp hrun
    obtain ⟨now, s2, hclock, hemplace⟩ := runs_bind.mp hrun
    have hmid : s1.Same h s2 := same_of_quiet (by trivial) (runs_perform.mp hclock)
    exact save_coherent _ hs (runs_perform.mp hput) hmid (runs_perform.mp hemplace)
  | layer2 =>
    obtain ⟨now, s1, hclock, hrun⟩ := runs_bind.mp hrun
    obtain ⟨ok, s2, hput, hemplace⟩ := runs_bind.mp hrun
    have hsame : s.Same h s1 := same_of_quiet (by trivial) (runs_perform.mp hclock)
    exact save_coherent _ (hs.same hsame) (runs_perform.mp hput) (Session.Same.refl s2)
      (runs_perform.mp hemplace)

/-- Clearing a key removes it from the map and the database. -/
theorem clearInfo_coherent {store : Store} {key : Text} (hs : s.Coherent su h)
    (hrun : Runs Session.cleanAct (Handle.clearInfo store key) s () s') : s'.Coherent su h := by
  obtain ⟨ok, s1, hdelete, herase⟩ := runs_bind.mp hrun
  obtain ⟨hdeleteact, hok, _⟩ := runs_perform.mp hdelete
  obtain ⟨heraseact, _, _⟩ := runs_perform.mp herase
  have hok : ok = true := hok
  have hdb : s1.state = { s.state with db := s.state.db.erase (store.keyPrefix ++ key) } := by
    rw [hdeleteact.1.dbDelete_eq, hok, if_pos rfl]
  have hstate := heraseact.1.erase_eq
  rw [hdb] at hstate
  intro store' hstore' key'
  unfold Session.Agrees
  rw [hstate, latest_of_stores heraseact rfl, latest_of_stores hdeleteact rfl]
  by_cases hkey : store' = store ∧ key' = key
  · obtain ⟨rfl, rfl⟩ := hkey
    refine Or.inl ?_
    simp only [AgentState.setMap_maps_self, AgentState.setMap_db, AgentState.getElem?_erased, if_true,
      and_self]
  · have hdbkey : store'.keyPrefix ++ key' ≠ store.keyPrefix ++ key := fun heq =>
      hkey (Store.keyPrefix_append_inj heq)
    rw [AgentState.getElem?_setMap_of_ne _
      (fun k hk => AgentState.getElem?_erased.trans (if_neg hk)) hkey, AgentState.setMap_db,
      AgentState.getElem?_erased, if_neg hdbkey]
    exact hs store' hstore' key'

/-- The due time of an entry does not matter. -/
theorem setAckTimeout_coherent {store : Store} {key : Text} {time : Int64} {r : Unit}
    (hs : s.Coherent su h)
    (hact : Session.cleanAct (.setAckTimeout store key time) s r s') : s'.Coherent su h := by
  intro store' hstore' key'
  unfold Session.Agrees
  rw [hact.1.1.setAckTimeout_eq, latest_of_stores hact.1 rfl, AgentState.setMap_db]
  by_cases hkey : store' = store ∧ key' = key
  · obtain ⟨rfl, rfl⟩ := hkey
    rw [AgentState.setMap_maps_self, AgentState.getElem?_setDue, if_pos rfl]
    rcases hs store' hstore' key' with ⟨hmap, hvalue⟩ | ⟨info, due, hid, hmap, hvalue, hsub⟩
    · exact Or.inl ⟨by rw [hmap, Option.map_none], hvalue⟩
    · exact Or.inr ⟨info, time, hid, by rw [hmap, Option.map_some], hvalue, hsub⟩
  · rw [AgentState.getElem?_setMap_of_ne _
      (fun k hk => AgentState.getElem?_setDue.trans (if_neg hk)) hkey]
    exact hs store' hstore' key'

/-- The maps still agree with the database after an accepted submission, but for the key of its
stage. -/
theorem awaits_of_submission {l : Layer} {input : TxInput} {amount : Int64} {hash : Text}
    {store : Store} {info : Protocol.CrossTxInfo} (hs : s.Coherent su h) (hstore : store.handle = h)
    (hrun : Runs Session.cleanAct (Handle.sendTransaction su l input amount) s (some hash) s')
    (hsub : store.submission info = some ⟨stageOf h l input, input.crossTxId, hash, input.result⟩)
    (hstage : stageOf h l input = store) (hid : input.crossTxId = info.crosstxid) :
    s'.Awaits su h store info := by
  obtain ⟨hstate, hlatest⟩ := sendTransaction_latest (h := h) hrun
  refine ⟨fun store' hstore' key hne => ?_, ?_, fun sub hsub' => ?_⟩
  · unfold Session.Agrees
    rw [hstate, hlatest, latestAfter, if_neg fun heq => hne ⟨heq.1.symm.trans hstage, heq.2.symm.trans hid⟩]
    exact hs store' hstore' key
  · rw [hstate]
    rcases hs store hstore info.crosstxid with hnone | ⟨info', due, hid', hmap, hvalue, _⟩
    · exact Or.inl hnone
    · exact Or.inr ⟨info', due, hid', hmap, hvalue⟩
  · rw [hlatest, latestAfter, if_pos ⟨hstage, hid⟩]
    exact hsub.symm.trans hsub'

/-- The start map waits for no submission. -/
theorem awaits_start {info : Protocol.CrossTxInfo} (hs : s.Coherent su .layer2) :
    s.Awaits su .layer2 .start info where
  others store' hstore' key _ := hs store' hstore' key
  held := (hs .start rfl info.crosstxid).imp_right fun ⟨info', due, hid, hmap, hvalue, _⟩ =>
    ⟨info', due, hid, hmap, hvalue⟩
  newest _ hsub := nomatch hsub

/-- A rejected submission leaves everything. -/
theorem same_of_rejected {l : Layer} {input : TxInput} {amount : Int64}
    (hrun : Runs Session.cleanAct (Handle.sendTransaction su l input amount) s none s') :
    s.Same h s' := by
  obtain ⟨hstate, hlatest⟩ := sendTransaction_latest (h := h) hrun
  exact ⟨hstate, hlatest⟩

/-- The program keeps the maps of the handler and the database in agreement. -/
def KeepsCoherent (su : Setup) (h : Handle) {α : Type} (p : AgentM α) : Prop :=
  ∀ s a s', Runs Session.cleanAct p s a s' → s.Coherent su h → s'.Coherent su h

namespace KeepsCoherent

variable {α β : Type}

/-- Quiet programs keep the stores coherent. -/
theorem quiet {p : AgentM α} (hp : Uses Op.Quiet p) : KeepsCoherent su h p :=
  fun _ _ _ hrun hs => hs.same (same_of_uses hp hrun)

/-- A program without operations keeps the stores coherent. -/
theorem pure (a : α) : KeepsCoherent su h (Pure.pure a) := quiet (Uses.pure a)

/-- A sequence keeps the stores coherent when its parts do. -/
theorem bind {p : AgentM α} {f : α → AgentM β} (hp : KeepsCoherent su h p)
    (hf : ∀ a, KeepsCoherent su h (f a)) : KeepsCoherent su h (p >>= f) := by
  intro s b s' hrun hs
  obtain ⟨a, t, hrunp, hrunf⟩ := runs_bind.mp hrun
  exact hf a t b s' hrunf (hp s a t hrunp hs)

/-- A loop keeps the stores coherent when its rounds do. -/
theorem forM {γ : Type} {f : γ → AgentM PUnit} {xs : List γ} (hf : ∀ x, KeepsCoherent su h (f x)) :
    KeepsCoherent su h (xs.forM f) :=
  fun _ _ _ hrun hs => hrun.forM hs fun x _ t t' ht hx => hf x t ⟨⟩ t' hx ht

/-- A conditional keeps the stores coherent when its branches do. -/
theorem ite {c : Prop} [Decidable c] {p q : AgentM α} (hp : KeepsCoherent su h p)
    (hq : KeepsCoherent su h q) : KeepsCoherent su h (if c then p else q) := by
  split
  · exact hp
  · exact hq

end KeepsCoherent

/-- Forgetting an entry keeps the stores coherent. -/
theorem clearInfo_keeps (store : Store) (key : Text) :
    KeepsCoherent su h (Handle.clearInfo store key) :=
  fun _ _ _ hrun hs => clearInfo_coherent hs hrun

/-- A due time is no part of what is coherent. -/
theorem setAckTimeout_keeps (store : Store) (key : Text) (time : Int64) :
    KeepsCoherent su h (perform (Op.setAckTimeout store key time)) :=
  fun _ _ _ hrun hs => setAckTimeout_coherent hs (runs_perform.mp hrun)

/-- A `SendTx` is submitted and saved coherently. -/
theorem sendTxTo_keeps (info : Protocol.CrossTxInfo) :
    KeepsCoherent su h (Handle.sendTxTo su h info) := by
  intro s ok s' hrun hs
  obtain ⟨txhash, s1, hsend, hrun⟩ := runs_bind.mp hrun
  cases txhash with
  | none =>
    obtain ⟨_, rfl⟩ := runs_pure.mp hrun
    exact hs.same (same_of_rejected hsend)
  | some hash =>
    obtain ⟨_, s2, hsave, hrun⟩ := runs_bind.mp hrun
    obtain ⟨_, rfl⟩ := runs_pure.mp hrun
    have hawaits : s1.Awaits su h (.send h) { info with sendtxhash := hash } :=
      awaits_of_submission hs rfl hsend rfl rfl rfl
    exact saveInfo_coherent hawaits hsave

/-- An ack is submitted and saved coherently. -/
theorem sendAckTo_keeps (info : Protocol.CrossTxInfo) :
    KeepsCoherent su h (Handle.sendAckTo su h info) := by
  intro s ok s' hrun hs
  obtain ⟨txhash, s1, hsend, hrun⟩ := runs_bind.mp hrun
  cases txhash with
  | none =>
    obtain ⟨_, rfl⟩ := runs_pure.mp hrun
    exact hs.same (same_of_rejected hsend)
  | some hash =>
    obtain ⟨_, s2, hsave, hrun⟩ := runs_bind.mp hrun
    obtain ⟨_, rfl⟩ := runs_pure.mp hrun
    have hstage : stageOf h h (Handle.sendAckedTxInput h info) = .ack h := if_pos rfl
    refine saveAckInfo_coherent (awaits_of_submission hs rfl hsend ?_ hstage ?_) hsave
    · rw [hstage, Store.submission]
      simp [Handle.sendAckedTxInput, TxInput.crossTxId, TxInput.result]
    · simp [Handle.sendAckedTxInput, TxInput.crossTxId]

/-- A reply is submitted and saved coherently. -/
theorem replyAckTo_keeps (info : Protocol.CrossTxInfo) :
    KeepsCoherent su h (Handle.replyAckTo su h info) := by
  intro s ok s' hrun hs
  obtain ⟨txhash, s1, hsend, hrun⟩ := runs_bind.mp hrun
  cases txhash with
  | none =>
    obtain ⟨_, rfl⟩ := runs_pure.mp hrun
    exact hs.same (same_of_rejected hsend)
  | some hash =>
    obtain ⟨_, s2, hsave, hrun⟩ := runs_bind.mp hrun
    obtain ⟨_, rfl⟩ := runs_pure.mp hrun
    have hstage : stageOf h h.other (Handle.sendAckedTxInput h info) = .reply h :=
      if_neg h.other_ne
    refine saveAckInfo_coherent (awaits_of_submission hs rfl hsend ?_ hstage ?_) hsave
    · rw [hstage, Store.submission]
      simp [Handle.sendAckedTxInput, TxInput.crossTxId, TxInput.result]
    · simp [Handle.sendAckedTxInput, TxInput.crossTxId]

open KeepsCoherent in
/-- The handler of a `SendTx` event keeps the stores coherent. -/
theorem handleSendTxEvent_keeps (crossTxid : Text) (status : Int32) :
    KeepsCoherent su h (Handle.handleSendTxEventWith su h crossTxid status) := by
  refine bind (quiet (quiet_readCrossTxInfo su h h.other crossTxid)) fun res => ?_
  cases res with
  | none => exact pure _
  | some info =>
    refine bind (sendAckTo_keeps _) fun ok => ite ?_ (pure _)
    exact bind (clearInfo_keeps _ _) fun _ => pure _

open KeepsCoherent in
/-- The handler of an ack event keeps the stores coherent. -/
theorem handleSendAckdTxEvent_keeps (crossTxid : Text) :
    KeepsCoherent su h (Handle.handleSendAckdTxEvent su h crossTxid) := by
  refine bind (quiet (quiet_readCrossTxInfo su h h crossTxid)) fun res => ?_
  cases res with
  | none => exact pure _
  | some info =>
    refine bind (replyAckTo_keeps _) fun ok => ite ?_ (pure _)
    exact bind (clearInfo_keeps _ _) fun _ => pure _

open KeepsCoherent in
/-- A pass over a map keeps what each of its rounds keeps. -/
theorem pass_keeps (store : Store) {f : Text × CrossTx → AgentM PUnit}
    (hf : ∀ p, KeepsCoherent su h (f p)) :
    KeepsCoherent su h (do
      perform (Op.lock store)
      let infos ← perform (Op.entries store)
      infos.forM f
      perform (Op.unlock store)) :=
  bind (quiet (Uses.perform trivial)) fun _ => bind (quiet (Uses.perform trivial)) fun _ =>
    bind (forM hf) fun _ => quiet (Uses.perform trivial)

open KeepsCoherent in
/-- What is done about a `SendTx` without a receipt keeps the stores coherent. -/
theorem sendTxExpired_keeps (e : CrossTx) : KeepsCoherent su h (Handle.sendTxExpired su h e) := by
  refine bind (quiet (quiet_getTxResult _ _)) fun found => ite ?_ ?_
  · exact bind (handleSendTxEvent_keeps _ _) fun _ => pure _
  · exact bind (sendAckTo_keeps _) fun ok => ite (clearInfo_keeps _ _) (pure _)

open KeepsCoherent in
/-- What is done about a due ack keeps the stores coherent when sending it again does. -/
theorem ackExpired_keeps (store : Store) (l : Layer) (currentTime : Int64) (key : Text) (e : CrossTx)
    {resend : AgentM Bool} (hresend : KeepsCoherent su h resend) :
    KeepsCoherent su h (Handle.ackExpired su store l currentTime key e resend) := by
  refine bind (quiet (quiet_getTxResult _ _)) fun found => ite (clearInfo_keeps _ _) ?_
  refine bind (quiet (quiet_getCrossTxStatus _ _ _)) fun status => ite (clearInfo_keeps _ _) ?_
  exact bind hresend fun _ => setAckTimeout_keeps _ _ _

open KeepsCoherent in
/-- The pass over the send store keeps the stores coherent. -/
theorem sendTxTimeOut_keeps : KeepsCoherent su h (Handle.sendTxTimeOut su h) :=
  bind (quiet (Uses.perform trivial)) fun _ => pass_keeps _ fun _ => ite (sendTxExpired_keeps _) (pure _)

open KeepsCoherent in
/-- The pass over the ack store keeps the stores coherent. -/
theorem sendAckTimeOut_keeps : KeepsCoherent su h (Handle.sendAckTimeOut su h) := by
  refine bind (quiet (Uses.perform trivial)) fun now => pass_keeps _ fun p => ite ?_ (pure _)
  refine ite ?_ (ackExpired_keeps _ _ _ _ _ (sendAckTo_keeps _))
  exact bind (sendAckTo_keeps _) fun _ => setAckTimeout_keeps _ _ _

open KeepsCoherent in
/-- The pass over the reply store keeps the stores coherent. -/
theorem replyAckTimeOut_keeps : KeepsCoherent su h (Handle.replyAckTimeOut su h) :=
  bind (quiet (Uses.perform trivial)) fun _ => pass_keeps _ fun _ =>
    ite (ackExpired_keeps _ _ _ _ _ (replyAckTo_keeps _)) (pure _)

open KeepsCoherent in
/-- The handler of a start event of layer 1 keeps the stores coherent. -/
theorem layer1_handleStartTxEvent_keeps (crossTxid : Text) :
    KeepsCoherent su .layer1 (Layer1ToLayer2Handle.handleStartTxEvent su crossTxid) := by
  refine bind (quiet (quiet_readCrossTxInfo su _ _ _)) fun res => ?_
  cases res with
  | none => exact pure _
  | some info =>
    refine bind (sendTxTo_keeps _) fun ok => ?_
    cases ok with
    | false => exact bind (sendAckTo_keeps _) fun _ => pure _
    | true => exact pure _

open KeepsCoherent in
/-- The handler of a start event of layer 2 keeps the stores coherent. -/
theorem layer2_handleStartTxEvent_keeps (crossTxid : Text) :
    KeepsCoherent su .layer2 (Layer2ToLayer1Handle.handleStartTxEvent su crossTxid) := by
  refine bind (quiet (quiet_readCrossTxInfo su _ _ _)) fun res => ?_
  cases res with
  | none => exact pure _
  | some info =>
    refine bind (quiet (quiet_getLayerSeq _)) fun seq => ?_
    cases seq with
    | none => exact pure _
    | some seq =>
      exact bind (fun s _ s' hrun hs => saveInfo_coherent (awaits_start hs) hrun) fun _ => pure _

open KeepsCoherent in
/-- A confirmation of a height keeps the stores coherent. -/
theorem handleConfirmSeqEvent_keeps (confirmSeq : Int64) :
    KeepsCoherent su .layer2 (Layer2ToLayer1Handle.handleConfirmSeqEvent su confirmSeq) := by
  refine pass_keeps _ fun p => bind (quiet (Uses.perform trivial)) fun now => ite (ite ?_ ?_) (pure _)
  · exact bind (sendAckTo_keeps _) fun _ => pure _
  · exact bind (sendTxTo_keeps _) fun ok => ite (clearInfo_keeps _ _) (pure _)

open KeepsCoherent in
/-- The pass over the start store keeps the stores coherent. -/
theorem startTxTimeOut_keeps : KeepsCoherent su .layer2 (Layer2ToLayer1Handle.startTxTimeOut su) := by
  refine bind (quiet (Uses.perform trivial)) fun now => pass_keeps _ fun p => ite ?_ (pure _)
  exact bind (sendAckTo_keeps _) fun ok => ite (clearInfo_keeps _ _) (pure _)

open KeepsCoherent in
/-- Every call of a handler keeps its maps and the database in agreement. -/
theorem run_keeps (call : HandlerCall h) : KeepsCoherent su h (call.run su) := by
  cases call with
  | handleStartTxEvent crossTxid =>
    cases h with
    | layer1 => exact layer1_handleStartTxEvent_keeps crossTxid
    | layer2 => exact layer2_handleStartTxEvent_keeps crossTxid
  | handleSendTxEvent crossTxid => exact handleSendTxEvent_keeps crossTxid _
  | handleSendAckdTxEvent crossTxid => exact handleSendAckdTxEvent_keeps crossTxid
  | sendTxTimeOut => exact bind sendTxTimeOut_keeps fun _ => pure _
  | sendAckTimeOut => exact bind sendAckTimeOut_keeps fun _ => pure _
  | replyAckTimeOut => exact bind replyAckTimeOut_keeps fun _ => pure _
  | handleConfirmSeqEvent confirmSeq => exact bind (handleConfirmSeqEvent_keeps _) fun _ => pure _
  | startTxTimeOut => exact bind startTxTimeOut_keeps fun _ => pure _

/-- Completed calls keep the maps and the database in agreement, unless one of them saves a
message over a different one. -/
theorem completes_coherent {calls : List (HandlerCall h)} (hrun : Session.Completes su calls s s')
    (hclean : ∀ step ∈ s'.trace, step.Stored ∧ ¬step.Resaves) (hs : s.Coherent su h) :
    s'.Coherent su h := by
  induction hrun with
  | nil => exact hs
  | cons first rest ih =>
    have hruns := Session.runs_of_trace (fun step => step.Stored ∧ ¬step.Resaves) first
      fun step hstep => hclean step (rest.trace_suffix.subset hstep)
    exact ih hclean (run_keeps _ _ _ _ hruns hs)

/-- An entry without its due time. -/
def CrossTx.undue (e : CrossTx) : CrossTx := { e with sendAckTimeout := 0 }

/-- The entry for a key among the values that were scanned. -/
def scanned (su : Setup) (values : List Text) (key : Text) : Option CrossTx :=
  values.findSome? fun value => (su.codec.parseFromString value).bind fun info =>
    if info.crosstxid = key then some (CrossTx.ofInfo su.codec info) else none

/-- What was loaded: the database and the other maps are as before, and the map has the entries
of the values it had nothing for. -/
structure Loads (su : Setup) (store : Store) (values : List Text) (s s' : Session) : Prop where
  db : s'.state.db = s.state.db
  others : ∀ store', store' ≠ store → s'.state.maps store' = s.state.maps store'
  entries : ∀ key, ((s'.state.maps store)[key]?).map CrossTx.undue =
    (((s.state.maps store)[key]?).map CrossTx.undue).or (scanned su values key)

/-- Loading no value changes nothing. -/
theorem Loads.refl (store : Store) (s : Session) : Loads su store [] s s where
  db := rfl
  others _ _ := rfl
  entries key := by rw [scanned, List.findSome?_nil, Option.or_none]

/-- The first value of a key is the one that is loaded. -/
theorem scanned_cons (value : Text) (values : List Text) (key : Text) :
    scanned su (value :: values) key = (scanned su [value] key).or (scanned su values key) := by
  simp only [scanned, List.findSome?_cons, List.findSome?_nil]
  cases (su.codec.parseFromString value).bind fun info =>
    if info.crosstxid = key then some (CrossTx.ofInfo su.codec info) else none <;> rfl

/-- Values are loaded one after another. -/
theorem Loads.cons {store : Store} {value : Text} {values : List Text} {t : Session}
    (hs : Loads su store [value] s t) (ht : Loads su store values t s') :
    Loads su store (value :: values) s s' where
  db := ht.db.trans hs.db
  others store' hne := (ht.others store' hne).trans (hs.others store' hne)
  entries key := by rw [ht.entries, hs.entries, scanned_cons value values, Option.or_assoc]

/-- An insertion loads the entry it inserts. -/
theorem emplace_loads {store : Store} {value : Text} {info : Protocol.CrossTxInfo} (due : Int64)
    {r : Unit} (hparse : su.codec.parseFromString value = some info)
    (hact : Session.act (.emplace store info.crosstxid
      { CrossTx.ofInfo su.codec info with sendAckTimeout := due }) s r s') :
    Loads su store [value] s s' := by
  have hstate := hact.1.emplace_eq
  refine ⟨by rw [hstate, AgentState.setMap_db], fun store' hne => ?_, fun key => ?_⟩
  · rw [hstate, AgentState.setMap_maps_of_ne _ _ hne]
  · rw [hstate, AgentState.setMap_maps_self, AgentState.getElem?_emplace, scanned,
      List.findSome?_cons, hparse, Option.bind_some]
    by_cases hkey : key = info.crosstxid
    · subst hkey
      rw [if_pos rfl, if_pos rfl]
      cases (s.state.maps store)[info.crosstxid]? <;> rfl
    · rw [if_neg hkey, if_neg (Ne.symm hkey), List.findSome?_nil, Option.or_none]

/-- A step that leaves the stores loads nothing. -/
theorem Loads.of_state {store : Store} {values : List Text} {t : Session}
    (hs : Loads su store values t s') (heq : t.state = s.state) : Loads su store values s s' where
  db := hs.db.trans (congrArg AgentState.db heq)
  others store' hne := by rw [hs.others store' hne, heq]
  entries key := by rw [hs.entries, heq]

/-- One value is loaded. -/
theorem loadValue_loads {store : Store} {due : Bool} {value : Text}
    (hrun : Runs Session.act (Handle.loadValue su store due value) s () s') :
    Loads su store [value] s s' := by
  unfold Handle.loadValue at hrun
  cases hparse : su.codec.parseFromString value with
  | none =>
    rw [hparse] at hrun
    obtain ⟨_, rfl⟩ := runs_pure.mp hrun
    refine ⟨rfl, fun _ _ => rfl, fun key => ?_⟩
    rw [scanned, List.findSome?_cons, hparse, Option.bind_none, List.findSome?_nil, Option.or_none]
  | some info =>
    rw [hparse] at hrun
    cases due with
    | false => exact emplace_loads 0 hparse (runs_perform.mp hrun)
    | true =>
      obtain ⟨now, t, hclock, hemplace⟩ := runs_bind.mp hrun
      have hstate : t.state = s.state := (runs_perform.mp hclock).1.eq_of_quiet (by trivial)
      exact (emplace_loads _ hparse (runs_perform.mp hemplace)).of_state hstate

/-- All values of a scan are loaded. -/
theorem loadValues_loads {store : Store} {due : Bool} {values : List Text}
    (hrun : Runs Session.act (values.forM (Handle.loadValue su store due)) s ⟨⟩ s') :
    Loads su store values s s' := by
  induction values generalizing s with
  | nil =>
    obtain ⟨_, rfl⟩ := runs_pure.mp hrun
    exact Loads.refl store s'
  | cons value values ih =>
    obtain ⟨_, t, hvalue, hrest⟩ := runs_bind.mp hrun
    exact (loadValue_loads hvalue).cons (ih hrest)

/-- A map is filled from the database. -/
theorem loadInfo_loads {store : Store} {due : Bool}
    (hrun : Runs Session.act (Handle.loadInfo su store due) s () s')
    (hstored : ∀ step ∈ s'.trace, step.Stored) :
    Loads su store (AgentState.valuesByPrefix s.state.db store.keyPrefix) s s' := by
  obtain ⟨values, t, hscan, hrun⟩ := runs_bind.mp hrun
  obtain ⟨hstate, htrace⟩ := runs_perform.mp hscan
  obtain ⟨hsame, hvalues⟩ := hstate.dbScan_eq
  have hsome : values.isSome := by
    refine hstored ⟨s.state, .dbScan store.keyPrefix, values⟩ ((Session.trace_suffix hrun).subset ?_)
    rw [htrace]
    exact List.mem_cons_self
  cases values with
  | none => cases hsome
  | some values =>
    rw [← hvalues values rfl]
    exact (loadValues_loads hrun).of_state hsame

/-- The maps of a handler, and whether their entries are given a due time. -/
def storesOf : Handle → List (Store × Bool)
  | .layer1 => [(.send .layer1, false), (.ack .layer1, true), (.reply .layer1, true)]
  | .layer2 => [(.start, false), (.send .layer2, false), (.ack .layer2, true), (.reply .layer2, true)]

/-- `InitializeHandle` loads the stores of its handle one after another. -/
theorem initializeHandle_eq (su : Setup) (h : Handle) : HandlerCall.initializeHandle su h =
    (storesOf h).forM fun p => Handle.loadInfo su p.1 p.2 := by
  cases h with
  | layer1 =>
    simp [HandlerCall.initializeHandle, Layer1ToLayer2Handle.initializeHandle, storesOf]
  | layer2 =>
    simp [HandlerCall.initializeHandle, Layer2ToLayer1Handle.initializeHandle, storesOf]

/-- The stores that are loaded are the stores of the handle. -/
theorem mem_storesOf {h : Handle} {store : Store} :
    store ∈ (storesOf h).map (·.1) ↔ store.handle = h := by
  cases h <;> cases store with
  | start => decide
  | send l | ack l | reply l => cases l <;> decide

/-- Maps that are filled one after the other do not disturb each other. -/
theorem loadAll_entries {stores : List (Store × Bool)} (hnodup : (stores.map (·.1)).Nodup)
    (hrun : Runs Session.act (stores.forM fun p => Handle.loadInfo su p.1 p.2) s ⟨⟩ s')
    (hstored : ∀ step ∈ s'.trace, step.Stored) (store : Store) (key : Text) :
    ((s'.state.maps store)[key]?).map CrossTx.undue =
      (((s.state.maps store)[key]?).map CrossTx.undue).or
        (if store ∈ stores.map (·.1) then
          scanned su (AgentState.valuesByPrefix s.state.db store.keyPrefix) key
        else none) := by
  induction stores generalizing s with
  | nil =>
    obtain ⟨_, rfl⟩ := runs_pure.mp hrun
    rw [List.map_nil, if_neg List.not_mem_nil, Option.or_none]
  | cons p stores ih =>
    obtain ⟨_, t, hload, hrest⟩ := runs_bind.mp hrun
    have hloads := loadInfo_loads hload fun step hstep =>
      hstored step ((Session.trace_suffix hrest).subset hstep)
    rw [List.map_cons, List.nodup_cons] at hnodup
    rw [ih hnodup.2 hrest, hloads.db, List.map_cons]
    by_cases hstore : store = p.1
    · rw [hstore, if_neg hnodup.1, Option.or_none, if_pos List.mem_cons_self]
      exact hloads.entries key
    · rw [hloads.others store hstore]
      simp [hstore]

/-- `Initialize` fills every map of the handler from the database, and no other. -/
theorem initializeHandle_entries (hempty : ∀ store, s.state.maps store = ∅)
    (hrun : Runs Session.act (HandlerCall.initializeHandle su h) s () s')
    (hstored : ∀ step ∈ s'.trace, step.Stored) (store : Store) (key : Text) :
    ((s'.state.maps store)[key]?).map CrossTx.undue =
      if store.handle = h then
        scanned su (AgentState.valuesByPrefix s.state.db store.keyPrefix) key
      else none := by
  have hnodup : ((storesOf h).map (·.1)).Nodup := by cases h <;> decide
  rw [initializeHandle_eq] at hrun
  have hentries := loadAll_entries hnodup hrun hstored store key
  rw [hempty, ExtTreeMap.getElem?_empty, Option.map_none, Option.none_or] at hentries
  rwa [if_congr mem_storesOf rfl rfl] at hentries

/-- What is scanned under the prefix of a map comes from a key of that map alone. -/
theorem exists_of_scanned {db : Database} {store : Store} {key : Text} {e : CrossTx}
    (hscan : scanned su (AgentState.valuesByPrefix db store.keyPrefix) key = some e) :
    ∃ id value info, db[store.keyPrefix ++ id]? = some value ∧
      su.codec.parseFromString value = some info ∧ info.crosstxid = key ∧
      e = CrossTx.ofInfo su.codec info ∧
      ∀ store', store'.keyPrefix <+: store.keyPrefix ++ id → store' = store := by
  obtain ⟨value, hmem, hvalue⟩ := List.exists_of_findSome?_eq_some hscan
  obtain ⟨dbkey, ⟨id, rfl⟩, hget⟩ := AgentState.mem_valuesByPrefix.mp hmem
  obtain ⟨info, hparse, hinfo⟩ := Option.bind_eq_some_iff.mp hvalue
  rw [Option.ite_none_right_eq_some] at hinfo
  obtain ⟨hid, he⟩ := hinfo
  exact ⟨id, value, info, hget, hparse, hid, (Option.some_inj.mp he).symm,
    fun store' hprefix => Store.eq_of_keyPrefix hprefix (List.prefix_append _ _)⟩

/-- Where a map agrees with the database, the scan finds its entries. -/
theorem scanned_of_coherent (hs : s.Coherent su h) {store : Store} (hstore : store.handle = h)
    (key : Text) : scanned su (AgentState.valuesByPrefix s.state.db store.keyPrefix) key =
      ((s.state.maps store)[key]?).map CrossTx.undue := by
  have hfound : ∀ e, scanned su (AgentState.valuesByPrefix s.state.db store.keyPrefix) key = some e →
      ((s.state.maps store)[key]?).map CrossTx.undue = some e := by
    intro e he
    obtain ⟨id, value, info, hget, hparse, hid, rfl, _⟩ := exists_of_scanned he
    rcases hs store hstore id with ⟨_, hnone⟩ | ⟨info', due, hid', hmap, hvalue, _⟩
    · exact nomatch hnone.symm.trans hget
    · obtain rfl := Option.some_inj.mp (hvalue.symm.trans hget)
      rw [su.codec.parse_serialize] at hparse
      obtain rfl := Option.some_inj.mp hparse
      obtain rfl := hid'.symm.trans hid
      rw [hmap]
      rfl
  cases hscan : scanned su (AgentState.valuesByPrefix s.state.db store.keyPrefix) key with
  | some e => exact (hfound e hscan).symm
  | none =>
    rcases hs store hstore key with ⟨hmap, _⟩ | ⟨info, due, hid, hmap, hvalue, _⟩
    · rw [hmap, Option.map_none]
    · have hmem : su.codec.serializeAsString info ∈
          AgentState.valuesByPrefix s.state.db store.keyPrefix :=
        AgentState.mem_valuesByPrefix.mpr ⟨_, List.prefix_append _ _, hvalue⟩
      have hnone := List.findSome?_eq_none_iff.mp hscan _ hmem
      rw [su.codec.parse_serialize, Option.bind_some, if_pos hid] at hnone
      cases hnone

/-- What `Initialize` makes of a database, given the maps before the restart. -/
structure Rebuilds (su : Setup) (h : Handle) (s s' : Session) : Prop where
  /-- every map is what it was, due times aside -/
  maps : ∀ store : Store, store.handle = h → ∀ key : Text,
    ((s'.state.maps store)[key]?).map CrossTx.undue = ((s.state.maps store)[key]?).map CrossTx.undue
  /-- every entry comes from a key of its own map -/
  separate : ∀ (store : Store) (key : Text) (e : CrossTx), (s'.state.maps store)[key]? = some e → store.handle = h ∧
    ∃ id value info, s.state.db[store.keyPrefix ++ id]? = some value ∧
      su.codec.parseFromString value = some info ∧ e.undue = CrossTx.ofInfo su.codec info ∧
      ∀ store', store'.keyPrefix <+: store.keyPrefix ++ id → store' = store

/-- A restart over a coherent session rebuilds its maps from the database. -/
theorem initializeHandle_rebuilds (hs : s.Coherent su h)
    (hrun : Runs Session.act (HandlerCall.initializeHandle su h) s.restarted () s')
    (hstored : ∀ step ∈ s'.trace, step.Stored) : Rebuilds su h s s' where
  maps store hstore key := by
    rw [initializeHandle_entries (fun _ => rfl) hrun hstored, if_pos hstore]
    exact scanned_of_coherent hs hstore key
  separate store key e he := by
    have hentries := initializeHandle_entries (fun _ => rfl) hrun hstored store key
    rw [he, Option.map_some] at hentries
    split at hentries
    next hstore =>
      obtain ⟨id, value, info, hget, hparse, _, hundue, hsep⟩ := exists_of_scanned hentries.symm
      exact ⟨hstore, id, value, info, hget, hparse, hundue, hsep⟩
    next => cases hentries

/-- A process that finds nothing of the handler in the database starts in agreement. -/
theorem start_coherent {db : Database}
    (hdb : ∀ store : Store, store.handle = h → ∀ key, db[store.keyPrefix ++ key]? = none) :
    (Session.start db).Coherent su h :=
  fun store hstore key => Or.inl ⟨ExtTreeMap.getElem?_empty, hdb store hstore key⟩

/-- A restart loses nothing. After any completed calls of a handler in which the database
works and nothing is saved over a different message, the maps and the database hold the same
messages, which carry the most recent submissions, and `Initialize` rebuilds the maps, with no
entry of another map or of the other handler. -/
theorem restart_equivalent {db : Database}
    (hdb : ∀ store : Store, store.handle = h → ∀ key, db[store.keyPrefix ++ key]? = none)
    {calls : List (HandlerCall h)} (hrun : Session.Completes su calls (Session.start db) s)
    (hclean : ∀ step ∈ s.trace, step.Stored ∧ ¬step.Resaves) :
    s.Coherent su h ∧ ∀ s', Runs Session.act (HandlerCall.initializeHandle su h) s.restarted () s' →
      (∀ step ∈ s'.trace, step.Stored) → Rebuilds su h s s' := by
  have hs := completes_coherent hrun hclean (start_coherent hdb)
  exact ⟨hs, fun s' hinit hstored => initializeHandle_rebuilds hs hinit hstored⟩

/-- Where a map agrees with the database, the bytes of its entries are the values. -/
theorem Session.Coherent.bytes_eq (hs : s.Coherent su h) {store : Store} (hstore : store.handle = h)
    (key : Text) : ((s.state.maps store)[key]?).map CrossTx.crossTxInfo =
      s.state.db[store.keyPrefix ++ key]? := by
  rcases hs store hstore key with ⟨hmap, hvalue⟩ | ⟨info, due, _, hmap, hvalue, _⟩
  · rw [hmap, hvalue, Option.map_none]
  · rw [hmap, hvalue, Option.map_some]
    rfl

instance (step : Step) : Decidable step.Resaves :=
  match step with
  | ⟨before, .dbPut key value, _⟩ =>
    decidable_of_iff (before.db[key]?.any (· ≠ value) = true) (by
      simp [Step.Resaves, Option.any_eq_true])
  | ⟨_, .highResolution, _⟩ | ⟨_, .http _ _, _⟩ | ⟨_, .dbDelete _, _⟩ | ⟨_, .dbScan _, _⟩
  | ⟨_, .lock _, _⟩ | ⟨_, .unlock _, _⟩ | ⟨_, .entries _, _⟩ | ⟨_, .emplace _ _ _, _⟩
  | ⟨_, .erase _ _, _⟩ | ⟨_, .setAckTimeout _ _ _, _⟩ | ⟨_, .terminate, _⟩ =>
    inferInstanceAs (Decidable False)

namespace Formats

/-- The calls of the layer-1 handler for a transfer: it is escrowed, then acknowledged. -/
def ackedCalls : List (HandlerCall .layer1 × List Answer) :=
  [(.handleStartTxEvent (hexText settledId), recordReplies sourceRecord ++
      [.reply (ledgerReply 100), .reply (submitReply "a"), .stored true, .go]),
    (.handleSendTxEvent (hexText settledId), recordReplies escrowRecord ++
      [.reply (ledgerReply 100), .reply (submitReply "b"), .stored true, .time 6, .go, .stored true,
        .go])]

/-- The pass that submits the ack again. -/
def resendCall : HandlerCall .layer1 × List Answer :=
  (.sendAckTimeOut, [.time 100000000, .go, .go, .reply (ledgerReply 100), .reply (submitReply "c"),
    .stored true, .time 100000000, .go, .go, .go])

end Formats

/-- The calls that escrow and acknowledge a transfer leave an ack entry, and it is in the database
too. -/
theorem restart_equivalent_ackedCalls : ∃ s, Session.Completes Formats.system.su
    (Formats.ackedCalls.map (·.1)) (Session.start ∅) s ∧
    (s.state.maps (.ack .layer1))[Formats.hexText Formats.settledId]?.isSome ∧
    s.Coherent Formats.system.su .layer1 := by
  have hcheck : ((Session.complete Formats.system.su Formats.ackedCalls (Session.start ∅)).any fun s =>
      (s.state.maps (.ack .layer1))[Formats.hexText Formats.settledId]?.isSome ∧
      ∀ step ∈ s.trace, step.Stored ∧ ¬step.Resaves) = true := by
    decide +kernel
  obtain ⟨s, hrun, hs⟩ := (Option.any_eq_true _ _).mp hcheck
  obtain ⟨hheld, hclean⟩ := of_decide_eq_true hs
  have hcompletes := Session.completes_of_complete hrun
  have hrestart := restart_equivalent (fun _ _ _ => ExtTreeMap.getElem?_empty) hcompletes hclean
  exact ⟨s, hcompletes, hheld, hrestart.1⟩

/-- After the ack is submitted again, the map and the database differ. -/
theorem resend_diverges : ∃ s, Session.Completes Formats.system.su
    ((Formats.ackedCalls ++ [Formats.resendCall]).map (·.1)) (Session.start ∅) s ∧
    (∀ step ∈ s.trace, step.Stored) ∧ ¬s.Coherent Formats.system.su .layer1 := by
  have hcheck : ((Session.complete Formats.system.su (Formats.ackedCalls ++ [Formats.resendCall])
      (Session.start ∅)).any fun s =>
      (∀ step ∈ s.trace, step.Stored) ∧
      ((s.state.maps (.ack .layer1))[Formats.hexText Formats.settledId]?).map CrossTx.crossTxInfo ≠
        s.state.db[Store.keyPrefix (.ack .layer1) ++ Formats.hexText Formats.settledId]?) = true := by
    decide +kernel
  obtain ⟨s, hrun, hs⟩ := (Option.any_eq_true _ _).mp hcheck
  obtain ⟨hstored, hdiffers⟩ := of_decide_eq_true hs
  exact ⟨s, Session.completes_of_complete hrun, hstored, fun hcoherent =>
    hdiffers (hcoherent.bytes_eq rfl _)⟩

end CrosschainAgent
