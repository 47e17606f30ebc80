import CrosschainAgent.Session.StartEvent
import CrosschainAgent.Session.Verdicts

/-!
# Events that are delivered again

A handler asks the node about the transfer of an event and submits what the event calls for,
whatever it did before; that it has handled the event shows only in its stores. Handling an event
again changes nothing exactly when the submission is not accepted or what is saved and cleared
finds the stores as it would leave them.
-/

namespace CrosschainAgent

open Interaction Std HttpClient

variable {su : Setup} {h : Handle} {s t s' : Session} {id : Text} {steps rest : List Step}

namespace AgentState

variable {a : AgentState} {store store' : Store} {key key' value : Text} {e : CrossTx} {ok : Bool}

/-- What a save leaves, if the database takes it or not. -/
def saved (a : AgentState) (store : Store) (key value : Text) (e : CrossTx) (ok : Bool) : AgentState :=
  { maps := Function.update a.maps store ((a.maps store).insertIfNew key e)
    db := if ok then a.db.insert (store.keyPrefix ++ key) value else a.db }

/-- What a clear leaves. -/
def cleared (a : AgentState) (store : Store) (key : Text) (ok : Bool) : AgentState :=
  { maps := Function.update a.maps store ((a.maps store).erase key)
    db := if ok then a.db.erase (store.keyPrefix ++ key) else a.db }

/-- Adding an entry changes nothing exactly when its key is taken. -/
theorem insertIfNew_eq_self_iff {m : InfoMap} : m.insertIfNew key e = m ↔ (m[key]?).isSome := by
  constructor
  · intro heq
    rw [← heq, getElem?_emplace, if_pos rfl]
    cases m[key]? <;> rfl
  · intro hsome
    apply ExtTreeMap.ext_getElem?
    intro k
    rw [getElem?_emplace]
    split
    next heq =>
      rw [heq, Option.or_of_isSome hsome]
    next => rfl

/-- Writing a value changes nothing exactly when it is there. -/
theorem insert_eq_self_iff {db : Database} : db.insert key value = db ↔ db[key]? = some value := by
  constructor
  · intro heq
    rw [← heq, getElem?_written, if_pos rfl]
  · intro hget
    apply ExtTreeMap.ext_getElem?
    intro k
    rw [getElem?_written]
    split
    next heq => rw [heq, hget]
    next => rfl

/-- Erasing a key changes nothing exactly when it is not there. -/
theorem erase_eq_self_iff {α : Type} {m : ExtTreeMap Text α compare} :
    m.erase key = m ↔ m[key]? = none := by
  constructor
  · intro heq
    rw [← heq, getElem?_erased, if_pos rfl]
  · intro hget
    apply ExtTreeMap.ext_getElem?
    intro k
    rw [getElem?_erased]
    split
    next heq => rw [heq, hget]
    next => rfl

/-- Saving an entry changes nothing exactly when it is kept already. -/
theorem saved_eq_self_iff : a.saved store key value e ok = a ↔
    ((a.maps store)[key]?).isSome ∧ (ok = true → a.db[store.keyPrefix ++ key]? = some value) := by
  obtain ⟨maps, db⟩ := a
  rw [saved, mk.injEq, Function.update_eq_self_iff, insertIfNew_eq_self_iff]
  cases ok <;> simp [insert_eq_self_iff]

/-- Forgetting an entry changes nothing exactly when it is not kept. -/
theorem cleared_eq_self_iff : a.cleared store key ok = a ↔
    (a.maps store)[key]? = none ∧ (ok = true → a.db[store.keyPrefix ++ key]? = none) := by
  obtain ⟨maps, db⟩ := a
  rw [cleared, mk.injEq, Function.update_eq_self_iff, erase_eq_self_iff]
  cases ok <;> simp [erase_eq_self_iff]

/-- Forgetting an entry twice is forgetting it once. -/
theorem cleared_cleared : (a.cleared store key ok).cleared store key ok = a.cleared store key ok := by
  rw [cleared_eq_self_iff]
  cases ok <;> simp [cleared]

/-- A save and a clear of another map can be exchanged. -/
theorem cleared_saved (hne : store ≠ store') (put delete : Bool) :
    (a.saved store key value e put).cleared store' key' delete =
      (a.cleared store' key' delete).saved store key value e put := by
  have hkey : store.keyPrefix ++ key ≠ store'.keyPrefix ++ key' := fun heq =>
    hne (Store.keyPrefix_append_inj heq).1
  simp only [saved, cleared, mk.injEq, Function.update_of_ne hne, Function.update_of_ne hne.symm,
    Function.update_comm hne, true_and]
  apply ExtTreeMap.ext_getElem?
  intro k
  cases put <;> cases delete <;> simp only [if_true, if_false, Bool.false_eq_true, getElem?_erased,
    getElem?_written]
  grind

/-- A save and a clear of another map leave the stores when each of them does. -/
theorem cleared_saved_eq_self_iff (hne : store ≠ store') {put delete : Bool} :
    (a.saved store key value e put).cleared store' key' delete = a ↔
      a.saved store key value e put = a ∧ a.cleared store' key' delete = a := by
  constructor
  · intro heq
    have hcleared : a.cleared store' key' delete = a := by
      rw [← heq, cleared_cleared]
    rw [cleared_saved hne, hcleared] at heq
    exact ⟨heq, hcleared⟩
  · rintro ⟨hsaved, hcleared⟩
    rw [hsaved, hcleared]

end AgentState

/-- The operation was performed and returned this. -/
def Answered (o : Op) (r : o.Resp) (steps : List Step) : Prop := ∃ before, ⟨before, o, r⟩ ∈ steps

/-- What is answered is answered in one of the two parts. -/
theorem answered_append {o : Op} {r : o.Resp} :
    Answered o r (steps ++ rest) ↔ Answered o r steps ∨ Answered o r rest := by
  simp only [Answered, List.mem_append, exists_or]

/-- The stores are as a save of the entry would leave them: the map has its key, and the database
its value, if it takes it. -/
def AgentState.Has (a : AgentState) (store : Store) (e : CrossTx) (steps : List Step) : Prop :=
  ((a.maps store)[e.crossTxId]?).isSome ∧
    (Answered (.dbPut (store.keyPrefix ++ e.crossTxId) e.crossTxInfo) true steps →
      a.db[store.keyPrefix ++ e.crossTxId]? = some e.crossTxInfo)

/-- The stores are as a clear would leave them: neither the map nor the database has the key, if
the database deletes it. -/
def AgentState.Lacks (a : AgentState) (store : Store) (key : Text) (steps : List Step) : Prop :=
  (a.maps store)[key]? = none ∧
    (Answered (.dbDelete (store.keyPrefix ++ key)) true steps → a.db[store.keyPrefix ++ key]? = none)

namespace Session

/-- The entry was saved between two sessions. -/
def Saves (s t : Session) (store : Store) (e : CrossTx) : Prop :=
  ∃ e' ok steps, t.state = s.state.saved store e.crossTxId e.crossTxInfo e' ok ∧ s.Since t steps ∧
    (Answered (.dbPut (store.keyPrefix ++ e.crossTxId) e.crossTxInfo) true steps ↔ ok = true) ∧
    ∀ key, ¬Answered (.dbDelete key) true steps

/-- The key was cleared between two sessions. -/
def Clears (s t : Session) (store : Store) (key : Text) : Prop :=
  ∃ ok steps, t.state = s.state.cleared store key ok ∧ s.Since t steps ∧
    (Answered (.dbDelete (store.keyPrefix ++ key)) true steps ↔ ok = true) ∧
    ∀ key value, ¬Answered (.dbPut key value) true steps

/-- An operation is the one step since it. -/
theorem since_act {o : Op} {r : o.Resp} (hact : act o s r t) : s.Since t [⟨s.state, o, r⟩] := hact.2

/-- Saving an entry saves it, with what the database says. -/
theorem saves_saveInfo {store : Store} {e : CrossTx}
    (hrun : Runs act (Handle.saveInfo store e) s () t) : s.Saves t store e := by
  obtain ⟨ok, u, hput, hemplace⟩ := runs_bind.mp hrun
  have hput := runs_perform.mp hput
  have hemplace := runs_perform.mp hemplace
  refine ⟨e, ok, _, ?_, (since_act hput).trans (since_act hemplace), ?_, ?_⟩
  · rw [hemplace.1.emplace_eq, hput.1.dbPut_eq]
    cases ok <;> rfl
  · simp [Answered]
  · simp [Answered]

/-- Saving an ack saves it, with some due time. -/
theorem saves_saveAckInfo {l : Handle} {store : Store} {e : CrossTx}
    (hrun : Runs act (Handle.saveAckInfo l store e) s () t) : s.Saves t store e := by
  cases l with
  | layer1 =>
    obtain ⟨ok, u, hput, hrun⟩ := runs_bind.mp hrun
    obtain ⟨now, v, hclock, hemplace⟩ := runs_bind.mp hrun
    have hput := runs_perform.mp hput
    have hclock := runs_perform.mp hclock
    have hemplace := runs_perform.mp hemplace
    refine ⟨{ e with sendAckTimeout := now + microUnitsPerSec * 60 }, ok, _, ?_,
      (since_act hput).trans ((since_act hclock).trans (since_act hemplace)), ?_, ?_⟩
    · rw [hemplace.1.emplace_eq, hclock.1.eq_of_remote trivial, hput.1.dbPut_eq]
      cases ok <;> rfl
    · simp [Answered]
    · simp [Answered]
  | layer2 =>
    obtain ⟨now, u, hclock, hrun⟩ := runs_bind.mp hrun
    obtain ⟨ok, v, hput, hemplace⟩ := runs_bind.mp hrun
    have hput := runs_perform.mp hput
    have hclock := runs_perform.mp hclock
    have hemplace := runs_perform.mp hemplace
    refine ⟨{ e with sendAckTimeout := now + microUnitsPerSec * 60 }, ok, _, ?_,
      (since_act hclock).trans ((since_act hput).trans (since_act hemplace)), ?_, ?_⟩
    · rw [hemplace.1.emplace_eq, hput.1.dbPut_eq, hclock.1.eq_of_remote trivial]
      cases ok <;> rfl
    · simp [Answered]
    · simp [Answered]

/-- Forgetting an entry clears it, with what the database says. -/
theorem clears_clearInfo {store : Store} {key : Text}
    (hrun : Runs act (Handle.clearInfo store key) s () t) : s.Clears t store key := by
  obtain ⟨ok, u, hdelete, herase⟩ := runs_bind.mp hrun
  have hdelete := runs_perform.mp hdelete
  have herase := runs_perform.mp herase
  refine ⟨ok, _, ?_, (since_act hdelete).trans (since_act herase), ?_, ?_⟩
  · rw [herase.1.erase_eq, hdelete.1.dbDelete_eq]
    cases ok <;> rfl
  · simp [Answered]
  · simp [Answered]

/-- A save leaves the stores when they have the entry. -/
theorem Saves.state_eq_iff {store : Store} {e : CrossTx} (hsaves : s.Saves t store e)
    (hsince : s.Since t steps) : t.state = s.state ↔ s.state.Has store e steps := by
  obtain ⟨e', ok, first, hstate, hfirst, hput, _⟩ := hsaves
  rw [hfirst.unique hsince, hstate, AgentState.saved_eq_self_iff, AgentState.Has, hput]

/-- A save and a clear of another map leave the stores when they have the entry and lack the key. -/
theorem Saves.clears_state_eq_iff {store store' : Store} {e : CrossTx} {key : Text}
    (hsaves : s.Saves t store e) (hclears : t.Clears s' store' key) (hne : store ≠ store')
    (hsince : s.Since s' steps) :
    s'.state = s.state ↔ s.state.Has store e steps ∧ s.state.Lacks store' key steps := by
  obtain ⟨e', ok, first, hstate, hfirst, hput, hnoDelete⟩ := hsaves
  obtain ⟨ok', second, hstate', hsecond, hdelete, hnoPut⟩ := hclears
  have hput' : Answered (.dbPut (store.keyPrefix ++ e.crossTxId) e.crossTxInfo) true
      (first ++ second) ↔ ok = true := by
    rw [answered_append, hput, or_iff_left (hnoPut _ _)]
  have hdelete' : Answered (.dbDelete (store'.keyPrefix ++ key)) true (first ++ second) ↔ ok' = true := by
    rw [answered_append, hdelete, or_iff_right (hnoDelete _)]
  rw [(hfirst.trans hsecond).unique hsince, hstate', hstate, AgentState.cleared_saved_eq_self_iff hne,
    AgentState.saved_eq_self_iff, AgentState.cleared_eq_self_iff, AgentState.Has, AgentState.Lacks,
    hput', hdelete']

end Session

/-- Every result that these operations submit for the transfer was submitted before. -/
def Familiar (trace : List Step) (id : Text) (steps : List Step) : Prop :=
  ∀ l v, (∃ step ∈ steps, step.op.Acks l id v) → ∃ step ∈ trace, step.op.Acks l id v

/-- The ack of the message, if it gets to be submitted, has a result that was submitted before. -/
def AckFamiliar (trace : List Step) (id : Text) (l : Layer) (info : Protocol.CrossTxInfo)
    (steps : List Step) : Prop :=
  ∀ seq rest, Replays (getLayerSeq l) steps (some seq) rest → info.crosstxid = id →
    ∃ step ∈ trace, step.op.Acks l id info.status

/-- What handling an event needs to change nothing. The layer-1 StartTx event: either the escrow is
accepted and the stores have it, or the failure ack is known, and the stores have it if it is
accepted. The layer-2 StartTx event: the stores have the entry as it is saved with the height. A
SendTx or a SendAcked event: the ack is known and, if it is accepted, the stores have it and lack
what it clears. -/
def Harmless (su : Setup) (h : Handle) (s : Session) (id : Text) :
    HandleManager.Topic → List Step → Prop
  | .startTxTopic, steps => ∀ info rest,
      Replays (Handle.readCrossTxInfo su h h id) steps (some info) rest →
      match h with
      | .layer1 =>
        (∀ hash rest', Replays (Handle.sendTransaction su .layer2 (Handle.sendTxInput info)
            info.amount) rest (some hash) rest' →
          s.state.Has (.send .layer1) (CrossTx.ofInfo su.codec { info with sendtxhash := hash }) rest') ∧
        ∀ rest', Replays (Handle.sendTransaction su .layer2 (Handle.sendTxInput info) info.amount)
            rest none rest' →
          AckFamiliar s.trace id .layer1 { info with status := crossResultFailed } rest' ∧
          ∀ hash rest'', Replays (Handle.sendTransaction su .layer1
              (Handle.sendAckedTxInput .layer1 { info with status := crossResultFailed }) 0)
              rest' (some hash) rest'' →
            s.state.Has (.ack .layer1) (CrossTx.ofInfo su.codec
              (Protocol.CrossTxInfo.setAckHash { info with status := crossResultFailed } .layer1 hash)) rest''
      | .layer2 => ∀ seq rest', Replays (getLayerSeq .layer2) rest (some seq) rest' →
          s.state.Has .start (CrossTx.ofInfo su.codec { info with confirmseq := seq }) rest'
  | .sendTxTopic, steps => ∀ info rest,
      Replays (Handle.readCrossTxInfo su h h.other id) steps (some info) rest →
      AckFamiliar s.trace id h { info with status := crossResultSuccess } rest ∧
      ∀ hash rest', Replays (Handle.sendTransaction su h
          (Handle.sendAckedTxInput h { info with status := crossResultSuccess }) 0)
          rest (some hash) rest' →
        s.state.Has (.ack h) (CrossTx.ofInfo su.codec
          (Protocol.CrossTxInfo.setAckHash { info with status := crossResultSuccess } h hash)) rest' ∧
        s.state.Lacks (.send h) id rest'
  | .ackTxTopic, steps => ∀ info rest,
      Replays (Handle.readCrossTxInfo su h h id) steps (some info) rest →
      AckFamiliar s.trace id h.other info rest ∧
      ∀ hash rest', Replays (Handle.sendTransaction su h.other (Handle.sendAckedTxInput h info) 0)
          rest (some hash) rest' →
        s.state.Has (.reply h) (CrossTx.ofInfo su.codec (info.setAckHash h.other hash)) rest' ∧
        s.state.Lacks (.ack h) id rest'

/-- The handler of an event. -/
def HandlerCall.ofTopic {h : Handle} : HandleManager.Topic → Text → HandlerCall h
  | .startTxTopic, crossTxId => .handleStartTxEvent crossTxId
  | .sendTxTopic, crossTxId => .handleSendTxEvent crossTxId
  | .ackTxTopic, crossTxId => .handleSendAckdTxEvent crossTxId

section Familiar

variable {trace : List Step} {α : Type} {p : AgentM α} {a : α}

/-- The operation submits no ack. -/
def Op.NoAck (o : Op) : Prop := ∀ l id v, ¬o.Acks l id v

/-- What is quiet acknowledges nothing. -/
theorem Op.Quiet.noAck (o : Op) (hquiet : o.Quiet) : o.NoAck := by
  intro l id v hacks
  cases o with
  | http _ request =>
    cases request with
    | submitTransaction => exact hquiet
    | getLedger | callContract | getTransactionHistory => exact hacks
  | highResolution | dbPut | dbDelete | dbScan | lock | unlock | entries | emplace | erase
  | setAckTimeout | terminate => exact hacks

/-- What acknowledges nothing leaves the acks to the rest. -/
theorem acks_iff_of_noAck (hp : Uses Op.NoAck p) (hreplays : Replays p steps a rest) (l : Layer)
    (v : Int32) : (∃ step ∈ steps, step.op.Acks l id v) ↔ ∃ step ∈ rest, step.op.Acks l id v :=
  performed_iff (hp.mono fun _ hnoAck => hnoAck l id v) hreplays

/-- What acknowledges nothing leaves to the rest whether its acks are familiar. -/
theorem familiar_iff_of_noAck (hp : Uses Op.NoAck p) (hreplays : Replays p steps a rest) :
    Familiar trace id steps ↔ Familiar trace id rest :=
  forall_congr' fun l => forall_congr' fun v => imp_congr_left (acks_iff_of_noAck hp hreplays l v)

/-- No steps acknowledge anything new. -/
theorem familiar_nil : Familiar trace id [] := fun _ _ hacks => by simp at hacks

/-- What a submission of an ack adds. -/
theorem familiar_iff_of_ack {info : Protocol.CrossTxInfo} {l : Layer} {txhash : Option Text}
    (hreplays : Replays (Handle.sendTransaction su l (Handle.sendAckedTxInput h info) 0) steps txhash rest) :
    Familiar trace id steps ↔ AckFamiliar trace id l info steps ∧ Familiar trace id rest := by
  obtain ⟨res, u, hseq, hrun⟩ := runs_bind.mp hreplays
  rw [familiar_iff_of_noAck ((quiet_getLayerSeq l).mono Op.Quiet.noAck) hseq]
  cases res with
  | none =>
    obtain ⟨_, rfl⟩ := runs_pure.mp hrun
    refine (and_iff_right ?_).symm
    intro seq rest' hseq' _
    exact nomatch (Replays.unique hseq hseq').1
  | some seq =>
    obtain ⟨r, w, hsubmit, hcheck⟩ := runs_bind.mp hrun
    obtain ⟨before, rfl⟩ := runs_perform.mp hsubmit
    obtain ⟨_, rfl⟩ := runs_orTerminate hcheck
    constructor
    · intro hfamiliar
      constructor
      · intro seq' rest' _ hid
        exact hfamiliar l info.status ⟨_, List.mem_cons_self, rfl, hid, rfl⟩
      · rintro l' v ⟨step, hstep, hacks⟩
        exact hfamiliar l' v ⟨step, List.mem_cons_of_mem _ hstep, hacks⟩
    · rintro ⟨hack, hfamiliar⟩ l' v ⟨step, hstep, hacks⟩
      rcases List.mem_cons.mp hstep with rfl | hstep
      · obtain ⟨rfl, hid, rfl⟩ := hacks
        exact hack seq _ hseq hid
      · exact hfamiliar l' v ⟨step, hstep, hacks⟩

/-- Saving an entry acknowledges nothing. -/
theorem noAck_saves (store : Store) (info : Protocol.CrossTxInfo) : Op.Saves su Op.NoAck store info :=
  ⟨fun _ _ _ hacks => hacks, fun _ _ _ _ hacks => hacks⟩

/-- Forgetting an entry acknowledges nothing. -/
theorem noAck_clearInfo (store : Store) (key : Text) : Uses Op.NoAck (Handle.clearInfo store key) :=
  uses_clearInfo (fun _ _ _ hacks => hacks) fun _ _ _ hacks => hacks

/-- A run without acks. -/
theorem familiar_of_run (hp : Uses Op.NoAck p) (hrun : Runs Session.act p s a s')
    (hsince : s.Since s' steps) : Familiar trace id steps := by
  obtain ⟨steps', hsince', hreplays⟩ := Session.replays hrun
  rw [← hsince'.unique hsince] at hreplays
  exact (familiar_iff_of_noAck hp hreplays).mpr familiar_nil

end Familiar

/-- An ack that is not accepted changes nothing; what an accepted one changes, is changed by what
follows it. -/
theorem ack_harmless_iff {trace : List Step} {l : Layer} {info : Protocol.CrossTxInfo}
    {q : Text → AgentM Unit} {C : AgentState → Text → List Step → Prop}
    (hq : ∀ hash, Uses Op.NoAck (q hash))
    (hC : ∀ {hash t rest}, Runs Session.act (q hash) t () s' → t.Since s' rest →
      (s'.state = t.state ↔ C t.state hash rest))
    (hcases : Runs Session.act (Handle.sendTransaction su l (Handle.sendAckedTxInput h info) 0) s none s' ∨
      ∃ hash t, Runs Session.act (Handle.sendTransaction su l (Handle.sendAckedTxInput h info) 0) s
        (some hash) t ∧ Runs Session.act (q hash) t () s')
    (hsince : s.Since s' steps) :
    s'.state = s.state ∧ Familiar trace id steps ↔ AckFamiliar trace id l info steps ∧
      ∀ hash rest, Replays (Handle.sendTransaction su l (Handle.sendAckedTxInput h info) 0) steps
        (some hash) rest → C s.state hash rest := by
  have hremote := remote_sendTransaction su l (Handle.sendAckedTxInput h info) 0
  rcases hcases with hsend | ⟨hash, t, hsend, htail⟩
  · have hreplays := hsince.replays_append hsend (Session.Since.refl s')
    rw [familiar_iff_of_ack hreplays, and_iff_right (state_of_remote hremote hsend),
      and_iff_left familiar_nil, and_iff_left hreplays.forall_some_of_none]
  · obtain ⟨rest, hrest, hreplays, _⟩ := hsince.split hsend htail
    rw [familiar_iff_of_ack hreplays, hreplays.forall_some_iff,
      and_iff_left (familiar_of_run (hq hash) htail hrest), ← state_of_remote hremote hsend,
      hC htail hrest, and_comm]

/-- What is saved after an ack. -/
theorem noAck_saveAckInfo (store : Store) (info : Protocol.CrossTxInfo) :
    Uses Op.NoAck (Handle.saveAckInfo h store (CrossTx.ofInfo su.codec info)) :=
  uses_saveAckInfo Op.Quiet.noAck h (noAck_saves store info)

/-- An ack to the source, and what is cleared after it. -/
theorem sendAckTo_clear_cases {store' : Store} {key : Text} {info : Protocol.CrossTxInfo} {ok : Bool}
    (hrun : Runs Session.act (do
      if ← Handle.sendAckTo su h info then
        Handle.clearInfo store' key
        return true
      else
        return false) s ok s') :
    Runs Session.act (Handle.sendTransaction su h (Handle.sendAckedTxInput h info) 0) s none s' ∨
    ∃ hash t, Runs Session.act (Handle.sendTransaction su h (Handle.sendAckedTxInput h info) 0) s
        (some hash) t ∧
      Runs Session.act (do
        Handle.saveAckInfo h (.ack h) (CrossTx.ofInfo su.codec (info.setAckHash h hash))
        Handle.clearInfo store' key) t () s' := by
  obtain ⟨sent, t, hsend, hrun⟩ := runs_bind.mp hrun
  rcases sendAckTo_cases hsend with ⟨rfl, hsubmit⟩ | ⟨hash, u, rfl, hsubmit, hsave⟩
  · obtain ⟨_, rfl⟩ := runs_pure.mp hrun
    exact Or.inl hsubmit
  · obtain ⟨_, v, hclear, hrun⟩ := runs_bind.mp hrun
    obtain ⟨_, rfl⟩ := runs_pure.mp hrun
    exact Or.inr ⟨hash, u, hsubmit, runs_bind.mpr ⟨(), t, hsave, hclear⟩⟩

/-- An ack to the destination, and what is cleared after it. -/
theorem replyAckTo_clear_cases {store' : Store} {key : Text} {info : Protocol.CrossTxInfo} {ok : Bool}
    (hrun : Runs Session.act (do
      if ← Handle.replyAckTo su h info then
        Handle.clearInfo store' key
        return true
      else
        return false) s ok s') :
    Runs Session.act (Handle.sendTransaction su h.other (Handle.sendAckedTxInput h info) 0) s none s' ∨
    ∃ hash t, Runs Session.act (Handle.sendTransaction su h.other (Handle.sendAckedTxInput h info) 0) s
        (some hash) t ∧
      Runs Session.act (do
        Handle.saveAckInfo h (.reply h) (CrossTx.ofInfo su.codec (info.setAckHash h.other hash))
        Handle.clearInfo store' key) t () s' := by
  obtain ⟨sent, t, hsend, hrun⟩ := runs_bind.mp hrun
  rcases replyAckTo_cases hsend with ⟨rfl, hsubmit⟩ | ⟨hash, u, rfl, hsubmit, hsave⟩
  · obtain ⟨_, rfl⟩ := runs_pure.mp hrun
    exact Or.inl hsubmit
  · obtain ⟨_, v, hclear, hrun⟩ := runs_bind.mp hrun
    obtain ⟨_, rfl⟩ := runs_pure.mp hrun
    exact Or.inr ⟨hash, u, hsubmit, runs_bind.mpr ⟨(), t, hsave, hclear⟩⟩

/-- An ack that is followed by the clear of another map. -/
theorem ack_clear_harmless_iff {trace : List Step} {l : Layer} {store store' : Store} {key : Text}
    {info : Protocol.CrossTxInfo} (hne : store ≠ store')
    (hcases : Runs Session.act (Handle.sendTransaction su l (Handle.sendAckedTxInput h info) 0) s none s' ∨
      ∃ hash t, Runs Session.act (Handle.sendTransaction su l (Handle.sendAckedTxInput h info) 0) s
        (some hash) t ∧ Runs Session.act (do
          Handle.saveAckInfo h store (CrossTx.ofInfo su.codec (info.setAckHash l hash))
          Handle.clearInfo store' key) t () s')
    (hsince : s.Since s' steps) :
    s'.state = s.state ∧ Familiar trace id steps ↔ AckFamiliar trace id l info steps ∧
      ∀ hash rest, Replays (Handle.sendTransaction su l (Handle.sendAckedTxInput h info) 0) steps
        (some hash) rest →
      s.state.Has store (CrossTx.ofInfo su.codec (info.setAckHash l hash)) rest ∧
        s.state.Lacks store' key rest := by
  refine ack_harmless_iff (C := fun a hash rest =>
    a.Has store (CrossTx.ofInfo su.codec (info.setAckHash l hash)) rest ∧ a.Lacks store' key rest)
    (fun hash => ?_) (fun hrun hrest => ?_) hcases hsince
  · exact Uses.bind (noAck_saveAckInfo _ _) fun _ => noAck_clearInfo _ _
  · obtain ⟨_, u, hsave, hclear⟩ := runs_bind.mp hrun
    exact (Session.saves_saveAckInfo hsave).clears_state_eq_iff (Session.clears_clearInfo hclear) hne hrest

/-- An ack that nothing is cleared after. -/
theorem ack_alone_harmless_iff {trace : List Step} {info : Protocol.CrossTxInfo} {ok : Bool}
    (hrun : Runs Session.act (Handle.sendAckTo su h info) s ok s') (hsince : s.Since s' steps) :
    s'.state = s.state ∧ Familiar trace id steps ↔ AckFamiliar trace id h info steps ∧
      ∀ hash rest, Replays (Handle.sendTransaction su h (Handle.sendAckedTxInput h info) 0) steps
        (some hash) rest → s.state.Has (.ack h) (CrossTx.ofInfo su.codec (info.setAckHash h hash)) rest := by
  refine ack_harmless_iff
    (q := fun hash => Handle.saveAckInfo h (.ack h) (CrossTx.ofInfo su.codec (info.setAckHash h hash)))
    (C := fun a hash rest => a.Has (.ack h) (CrossTx.ofInfo su.codec (info.setAckHash h hash)) rest)
    (fun hash => ?_) (fun hsave hrest => ?_) ?_ hsince
  · exact noAck_saveAckInfo _ _
  · exact (Session.saves_saveAckInfo hsave).state_eq_iff hrest
  · rcases sendAckTo_cases hrun with ⟨_, hsubmit⟩ | ⟨hash, t, _, hsubmit, hsave⟩
    · exact Or.inl hsubmit
    · exact Or.inr ⟨hash, t, hsubmit, hsave⟩

/-- A program that only asks changes nothing, and what follows decides. -/
theorem quiet_harmless_iff {α : Type} {p : AgentM α} {a : α} {trace : List Step} (hquiet : Uses Op.Quiet p)
    (hrun : Runs Session.act p s a t) (hreplays : Replays p steps a rest) :
    s'.state = s.state ∧ Familiar trace id steps ↔ s'.state = t.state ∧ Familiar trace id rest := by
  rw [state_of_remote (remote_of_quiet hquiet) hrun,
    familiar_iff_of_noAck (hquiet.mono Op.Quiet.noAck) hreplays]

/-- The handling of a SendTx event. -/
theorem sendTxEvent_harmless_iff {ok : Bool} (hrun : Runs Session.act (Handle.handleSendTxEvent su h id) s ok s')
    (hsince : s.Since s' steps) :
    s'.state = s.state ∧ Familiar s.trace id steps ↔ Harmless su h s id .sendTxTopic steps := by
  obtain ⟨res, t, hread, hrun⟩ := runs_bind.mp hrun
  obtain ⟨rest, hrest, hreplays, _⟩ := hsince.split hread hrun
  have hquiet := quiet_readCrossTxInfo su h h.other id
  have hstate := state_of_remote (remote_of_quiet hquiet) hread
  rw [quiet_harmless_iff hquiet hread hreplays]
  cases res with
  | none =>
    obtain ⟨_, rfl⟩ := runs_pure.mp hrun
    rw [Session.Since.unique (Session.Since.refl _) hrest]
    exact iff_of_true ⟨rfl, familiar_nil⟩ hreplays.forall_some_of_none
  | some info =>
    rw [Harmless, hreplays.forall_some_iff, ← hstate]
    exact ack_clear_harmless_iff nofun (sendAckTo_clear_cases hrun) hrest

/-- The handling of a SendAcked event. -/
theorem sendAckdTxEvent_harmless_iff {ok : Bool}
    (hrun : Runs Session.act (Handle.handleSendAckdTxEvent su h id) s ok s') (hsince : s.Since s' steps) :
    s'.state = s.state ∧ Familiar s.trace id steps ↔ Harmless su h s id .ackTxTopic steps := by
  obtain ⟨res, t, hread, hrun⟩ := runs_bind.mp hrun
  obtain ⟨rest, hrest, hreplays, _⟩ := hsince.split hread hrun
  have hquiet := quiet_readCrossTxInfo su h h id
  have hstate := state_of_remote (remote_of_quiet hquiet) hread
  rw [quiet_harmless_iff hquiet hread hreplays]
  cases res with
  | none =>
    obtain ⟨_, rfl⟩ := runs_pure.mp hrun
    rw [Session.Since.unique (Session.Since.refl _) hrest]
    exact iff_of_true ⟨rfl, familiar_nil⟩ hreplays.forall_some_of_none
  | some info =>
    rw [Harmless, hreplays.forall_some_iff, ← hstate]
    exact ack_clear_harmless_iff nofun (replyAckTo_clear_cases hrun) hrest

/-- Submitting a `SendTx` acknowledges nothing. -/
theorem noAck_sendTransaction_sendTx {l : Layer} {info : Protocol.CrossTxInfo} :
    Uses Op.NoAck (Handle.sendTransaction su l (Handle.sendTxInput info) info.amount) :=
  uses_sendTransaction Op.Quiet.noAck fun _ _ _ _ hacks => hacks

/-- Saving a transfer acknowledges nothing. -/
theorem noAck_saveInfo (store : Store) (info : Protocol.CrossTxInfo) :
    Uses Op.NoAck (Handle.saveInfo store (CrossTx.ofInfo su.codec info)) :=
  uses_saveInfo (noAck_saves store info)

/-- A save that is not an ack changes nothing when the stores have the entry. -/
theorem save_harmless_iff {trace : List Step} {store : Store} {info : Protocol.CrossTxInfo}
    (hrun : Runs Session.act (Handle.saveInfo store (CrossTx.ofInfo su.codec info)) s () s')
    (hsince : s.Since s' steps) :
    s'.state = s.state ∧ Familiar trace id steps ↔
      s.state.Has store (CrossTx.ofInfo su.codec info) steps := by
  rw [(Session.saves_saveInfo hrun).state_eq_iff hsince]
  exact and_iff_left (familiar_of_run (noAck_saveInfo store info) hrun hsince)

/-- The handling of a StartTx event on layer 1. -/
theorem layer1_startTxEvent_harmless_iff {ok : Bool}
    (hrun : Runs Session.act (Layer1ToLayer2Handle.handleStartTxEvent su id) s ok s')
    (hsince : s.Since s' steps) :
    s'.state = s.state ∧ Familiar s.trace id steps ↔
      Harmless su .layer1 s id .startTxTopic steps := by
  obtain ⟨res, t, hread, hrun⟩ := runs_bind.mp hrun
  obtain ⟨rest, hrest, hreplays, _⟩ := hsince.split hread hrun
  have hquiet := quiet_readCrossTxInfo su .layer1 .layer1 id
  have hstate := state_of_remote (remote_of_quiet hquiet) hread
  rw [quiet_harmless_iff hquiet hread hreplays]
  cases res with
  | none =>
    obtain ⟨_, rfl⟩ := runs_pure.mp hrun
    rw [Session.Since.unique (Session.Since.refl _) hrest]
    exact iff_of_true ⟨rfl, familiar_nil⟩ hreplays.forall_some_of_none
  | some info =>
    rw [Harmless, hreplays.forall_some_iff, ← hstate]
    obtain ⟨sent, u, hsend, hrun⟩ := runs_bind.mp hrun
    have hremote := remote_sendTransaction su .layer2 (Handle.sendTxInput info) info.amount
    change _ ↔ (_ ∧ _)
    rcases sendTxTo_cases hsend with ⟨rfl, hsubmit⟩ | ⟨hash, v, rfl, hsubmit, hsave⟩
    · -- the escrow was not accepted, so its failure is acknowledged
      change Runs Session.act (Handle.sendTransaction su .layer2 _ _) _ _ _ at hsubmit
      obtain ⟨rest', hrest', hreplays', _⟩ := hrest.split hsubmit hrun
      obtain ⟨_, w, hack, hrun⟩ := runs_bind.mp hrun
      obtain ⟨_, rfl⟩ := runs_pure.mp hrun
      rw [hreplays'.forall_iff, and_iff_right hreplays'.forall_some_of_none,
        familiar_iff_of_noAck noAck_sendTransaction_sendTx hreplays', ← state_of_remote hremote hsubmit]
      exact ack_alone_harmless_iff hack hrest'
    · obtain ⟨_, rfl⟩ := runs_pure.mp hrun
      change Runs Session.act (Handle.sendTransaction su .layer2 _ _) _ _ _ at hsubmit
      obtain ⟨rest', hrest', hreplays', _⟩ := hrest.split hsubmit hsave
      rw [hreplays'.forall_some_iff, and_iff_left hreplays'.forall_none_of_some,
        familiar_iff_of_noAck noAck_sendTransaction_sendTx hreplays', ← state_of_remote hremote hsubmit]
      exact save_harmless_iff hsave hrest'

/-- The handling of a StartTx event on layer 2. -/
theorem layer2_startTxEvent_harmless_iff {ok : Bool}
    (hrun : Runs Session.act (Layer2ToLayer1Handle.handleStartTxEvent su id) s ok s')
    (hsince : s.Since s' steps) :
    s'.state = s.state ∧ Familiar s.trace id steps ↔
      Harmless su .layer2 s id .startTxTopic steps := by
  obtain ⟨res, t, hread, hrun⟩ := runs_bind.mp hrun
  obtain ⟨rest, hrest, hreplays, _⟩ := hsince.split hread hrun
  have hquiet := quiet_readCrossTxInfo su .layer2 .layer2 id
  have hstate := state_of_remote (remote_of_quiet hquiet) hread
  rw [quiet_harmless_iff hquiet hread hreplays]
  cases res with
  | none =>
    obtain ⟨_, rfl⟩ := runs_pure.mp hrun
    rw [Session.Since.unique (Session.Since.refl _) hrest]
    exact iff_of_true ⟨rfl, familiar_nil⟩ hreplays.forall_some_of_none
  | some info =>
    rw [Harmless, hreplays.forall_some_iff, ← hstate]
    obtain ⟨seq, u, hseq, hrun⟩ := runs_bind.mp hrun
    obtain ⟨rest', hrest', hreplays', _⟩ := hrest.split hseq hrun
    have hquiet' := quiet_getLayerSeq .layer2
    have hstate' := state_of_remote (remote_of_quiet hquiet') hseq
    rw [quiet_harmless_iff hquiet' hseq hreplays', ← hstate']
    cases seq with
    | none =>
      obtain ⟨_, rfl⟩ := runs_pure.mp hrun
      rw [Session.Since.unique (Session.Since.refl _) hrest']
      exact iff_of_true ⟨rfl, familiar_nil⟩ hreplays'.forall_some_of_none
    | some seq =>
      obtain ⟨_, v, hsave, hrun⟩ := runs_bind.mp hrun
      obtain ⟨_, rfl⟩ := runs_pure.mp hrun
      rw [hreplays'.forall_some_iff]
      exact save_harmless_iff hsave hrest'

/-- Handling an event, in whatever state, leaves the stores and submits no result for its transfer
that was not submitted before, exactly when its submission is not accepted or repeats what the
stores have. -/
theorem redelivery_harmless_iff {topic : HandleManager.Topic} {ok : Bool}
    (hrun : Runs Session.act ((HandlerCall.ofTopic topic id : HandlerCall h).run su) s ok s')
    (hsince : s.Since s' steps) :
    s'.state = s.state ∧ Familiar s.trace id steps ↔ Harmless su h s id topic steps := by
  cases topic with
  | startTxTopic =>
    cases h with
    | layer1 => exact layer1_startTxEvent_harmless_iff hrun hsince
    | layer2 => exact layer2_startTxEvent_harmless_iff hrun hsince
  | sendTxTopic => exact sendTxEvent_harmless_iff hrun hsince
  | ackTxTopic => exact sendAckdTxEvent_harmless_iff hrun hsince

namespace Formats

/-- The SendTx event of the transfer is acknowledged; delivered again, its ack is rejected. -/
def sentAnswers : List Answer := recordReplies escrowRecord ++
  [.reply (ledgerReply 100), .reply (submitReply "b"), .stored true, .time 6, .go, .stored true, .go]

def rejectedAnswers : List Answer := recordReplies escrowRecord ++ [.reply (ledgerReply 100), .reply .error]

/-- The StartTx event of the transfer is delivered again: the second escrow is rejected, and its
failure is acknowledged. -/
def restartAnswers : List Answer := recordReplies sourceRecord ++
  [.reply (ledgerReply 110), .reply .error, .reply (ledgerReply 110), .reply (submitReply "f"),
    .stored true, .time 6, .go]

end Formats

/-- Two states with the same entries and values are the same. -/
theorem AgentState.eq_of_toList {a a' : AgentState}
    (hmaps : ∀ store ∈ Store.all, (a'.maps store).toList = (a.maps store).toList)
    (hdb : a'.db.toList = a.db.toList) : a' = a := by
  obtain ⟨maps, db⟩ := a
  obtain ⟨maps', db'⟩ := a'
  rw [mk.injEq]
  refine ⟨funext fun store => ?_, ExtTreeMap.toList_inj.mp hdb⟩
  exact ExtTreeMap.toList_inj.mp (hmaps store store.mem_all)

/-- A call that is completed twice, given the answers it gets. -/
theorem completed_twice (su : Setup) (call : HandlerCall h) (first second : List Answer)
    (P : Session → Session → Prop)
    [∀ s s', Decidable (P s s')]
    (hcheck : ((Session.complete su [(call, first)] (Session.start ∅)).any fun s =>
      (Session.complete su [(call, second)] s).any fun s' => decide (P s s')) = true) :
    ∃ s s' ok steps, Session.Completes su [call] (Session.start ∅) s ∧
      Runs Session.act (call.run su) s ok s' ∧ s.Since s' steps ∧ P s s' := by
  obtain ⟨s, hfirst, hcheck⟩ := (Option.any_eq_true _ _).mp hcheck
  obtain ⟨s', hsecond, hP⟩ := (Option.any_eq_true _ _).mp hcheck
  cases Session.completes_of_complete hsecond with
  | cons hrun hrest =>
    cases hrest
    obtain ⟨steps, hsince, _⟩ := Session.replays hrun
    exact ⟨s, s', _, steps, Session.completes_of_complete hfirst, hrun, hsince, of_decide_eq_true hP⟩

/-- The operation acknowledges the transfer to the layer, if it acknowledges anything. -/
def Op.AcksOnly (l : Layer) (id : Text) (v : Int32) : Op → Bool
  | .http l' (.submitTransaction _ (.sendAckedTx crossTxId result _ _) _ _) =>
    l' = l ∧ crossTxId = id ∧ result = v
  | _ => true

/-- An operation that acknowledges only this acknowledges nothing else. -/
theorem Op.AcksOnly.eq {o : Op} {l l' : Layer} {id' : Text} {v v' : Int32}
    (honly : o.AcksOnly l id v = true) (hacks : o.Acks l' id' v') : l' = l ∧ v' = v := by
  cases o with
  | http l'' request =>
    cases request with
    | submitTransaction contract input amount maxSeq =>
      cases input with
      | sendAckedTx crossTxId result desc time =>
        obtain ⟨rfl, rfl, rfl⟩ := hacks
        obtain ⟨rfl, rfl, rfl⟩ := of_decide_eq_true honly
        exact ⟨rfl, rfl⟩
      | sendTx => exact hacks.elim
    | getLedger | callContract | getTransactionHistory => exact hacks.elim
  | highResolution | dbPut | dbDelete | dbScan | lock | unlock | entries | emplace | erase
  | setAckTimeout | terminate => exact hacks.elim

/-- A SendTx event that is delivered again, and whose ack the node rejects, changes nothing. -/
theorem redelivery_harmless_rejected : ∃ s s' ok steps,
    Session.Completes Formats.system.su [(HandlerCall.ofTopic .sendTxTopic
      (Formats.hexText Formats.settledId) : HandlerCall .layer1)] (Session.start ∅) s ∧
    Runs Session.act ((HandlerCall.ofTopic .sendTxTopic (Formats.hexText Formats.settledId) :
      HandlerCall .layer1).run Formats.system.su) s ok s' ∧ s.Since s' steps ∧
    (s.state.maps (.ack .layer1)).contains (Formats.hexText Formats.settledId) ∧
    (s'.state = s.state ∧ Familiar s.trace (Formats.hexText Formats.settledId) steps) ∧
    Harmless Formats.system.su .layer1 s (Formats.hexText Formats.settledId) .sendTxTopic steps := by
  obtain ⟨s, s', ok, steps, hcompletes, hrun, hsince, hheld, hmaps, hdb, hknown, honly⟩ :=
    completed_twice Formats.system.su (HandlerCall.ofTopic .sendTxTopic
      (Formats.hexText Formats.settledId) : HandlerCall .layer1)
      Formats.sentAnswers Formats.rejectedAnswers (fun s s' =>
        (s.state.maps (.ack .layer1)).contains (Formats.hexText Formats.settledId) ∧
        (∀ store ∈ Store.all, (s'.state.maps store).toList = (s.state.maps store).toList) ∧
        s'.state.db.toList = s.state.db.toList ∧
        (∃ step ∈ s.trace, step.op.Acks .layer1 (Formats.hexText Formats.settledId) crossResultSuccess) ∧
        ∀ step ∈ s'.trace, step.op.AcksOnly .layer1 (Formats.hexText Formats.settledId)
          crossResultSuccess = true) (by decide +kernel)
  have hsame : s'.state = s.state ∧ Familiar s.trace (Formats.hexText Formats.settledId) steps := by
    refine ⟨AgentState.eq_of_toList hmaps hdb, ?_⟩
    rintro l v ⟨step, hstep, hacks⟩
    obtain ⟨rfl, rfl⟩ := Op.AcksOnly.eq (honly step (hsince.mem_trace hstep)) hacks
    exact hknown
  exact ⟨s, s', ok, steps, hcompletes, hrun, hsince, hheld, hsame,
    (redelivery_harmless_iff hrun hsince).mp hsame⟩

/-- A StartTx event that is delivered again after its escrow was accepted: the second escrow is
rejected, and the transfer is acknowledged as failed. -/
theorem redelivery_fails : ∃ s s' ok steps,
    Session.Completes Formats.system.su [(HandlerCall.ofTopic .startTxTopic
      (Formats.hexText Formats.settledId) : HandlerCall .layer1)] (Session.start ∅) s ∧
    Runs Session.act ((HandlerCall.ofTopic .startTxTopic (Formats.hexText Formats.settledId) :
      HandlerCall .layer1).run Formats.system.su) s ok s' ∧ s.Since s' steps ∧
    s'.state ≠ s.state ∧ ¬Familiar s.trace (Formats.hexText Formats.settledId) steps := by
  obtain ⟨s, s', ok, steps, hcompletes, hrun, hsince, hnew, hold, hacked⟩ :=
    completed_twice Formats.system.su (HandlerCall.ofTopic .startTxTopic
      (Formats.hexText Formats.settledId) : HandlerCall .layer1)
      Formats.startAnswers Formats.restartAnswers (fun s s' =>
        s'.state.db.toList ≠ s.state.db.toList ∧
        (∀ step ∈ s.trace, ¬step.op.Acks .layer1 (Formats.hexText Formats.settledId) crossResultFailed) ∧
        ∃ step ∈ s'.trace, step.op.Acks .layer1 (Formats.hexText Formats.settledId) crossResultFailed)
      (by decide +kernel)
  refine ⟨s, s', ok, steps, hcompletes, hrun, hsince, fun heq => hnew (by rw [heq]), fun hfamiliar => ?_⟩
  obtain ⟨step, hstep, hacks⟩ := hacked
  rw [hsince] at hstep
  rcases List.mem_append.mp hstep with hstep | hstep
  · obtain ⟨step', hstep', hacks'⟩ := hfamiliar _ _ ⟨step, List.mem_reverse.mp hstep, hacks⟩
    exact hold step' hstep' hacks'
  · exact hold step hstep hacks

end CrosschainAgent
