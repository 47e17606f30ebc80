import CrosschainAgent.Session.Effects
import CrosschainAgent.System.Formats

/-!
# What the handling of a StartTx event leaves

A deposit is attended to as long as a value of the database speaks of it. The handling of its
StartTx event leaves one only when its last submission is accepted: a query that fails, and on
layer 1 a compensating ack that fails, end it with nothing.
-/

namespace CrosschainAgent

open Interaction Std HttpClient

variable {su : Setup} {h : Handle} {s s' : Session}

/-- The database has an entry of a transfer for one of the maps of the handler. -/
def Session.Persisted (h : Handle) (s : Session) (crossTxid : Text) : Prop :=
  ∃ store : Store, store.handle = h ∧ (s.state.db[store.keyPrefix ++ crossTxid]?).isSome

/-- What has to go right in the handling of a StartTx event: the record of the transfer is read
and, on layer 1, the `SendTx` or the compensating ack is accepted, on layer 2 the height is read. -/
def Attended (su : Setup) (h : Handle) (crossTxid : Text) (steps : List Step) : Prop :=
  ∃ info rest, Replays (Handle.readCrossTxInfo su h h crossTxid) steps (some info) rest ∧
    info.crosstxid = crossTxid ∧
    match h with
    | .layer1 =>
      (∃ hash rest', Replays (Handle.sendTransaction su .layer2 (Handle.sendTxInput info) info.amount)
        rest (some hash) rest') ∨
      ∃ rest', Replays (Handle.sendTransaction su .layer2 (Handle.sendTxInput info) info.amount)
        rest none rest' ∧ ∃ hash rest'', Replays (Handle.sendTransaction su .layer1
          (Handle.sendAckedTxInput .layer1 { info with status := crossResultFailed }) 0)
          rest' (some hash) rest''
    | .layer2 => ∃ seq rest', Replays (getLayerSeq .layer2) rest (some seq) rest'

/-- Whether a transfer is kept depends on the stores only. -/
theorem persisted_of_state (hstate : s'.state = s.state) {crossTxid : Text} :
    s'.Persisted h crossTxid ↔ s.Persisted h crossTxid := by
  unfold Session.Persisted
  rw [hstate]

/-- A write adds the transfer it is about. -/
theorem persisted_of_insert {store : Store} {id value crossTxid : Text} (hstore : store.handle = h)
    (hdb : s'.state.db = s.state.db.insert (store.keyPrefix ++ id) value) :
    s'.Persisted h crossTxid ↔ s.Persisted h crossTxid ∨ id = crossTxid := by
  unfold Session.Persisted
  simp only [hdb, AgentState.getElem?_written]
  constructor
  · rintro ⟨store', hstore', hsome⟩
    split at hsome
    next heq => exact Or.inr (Store.keyPrefix_append_inj heq).2.symm
    next => exact Or.inl ⟨store', hstore', hsome⟩
  · rintro (⟨store', hstore', hsome⟩ | rfl)
    · refine ⟨store', hstore', ?_⟩
      split
      · rfl
      · exact hsome
    · exact ⟨store, hstore, by rw [if_pos rfl]; rfl⟩

/-- The first operations of a call read the record. -/
theorem readCrossTxInfo_first {β : Type} {l : Layer} {crossTxid : Text} {steps : List Step} {b : β}
    {k : Option Protocol.CrossTxInfo → AgentM β}
    (hrun : Runs Session.storedAct (Handle.readCrossTxInfo su h l crossTxid >>= k) s b s')
    (hsince : s.Since s' steps) :
    ∃ res t rest, Replays (Handle.readCrossTxInfo su h l crossTxid) steps res rest ∧
      t.state = s.state ∧ t.Since s' rest ∧ Runs Session.storedAct (k res) t b s' := by
  obtain ⟨res, t, hread, hk⟩ := runs_bind.mp hrun
  obtain ⟨rest, hrest, _⟩ := Session.replays (runs_of_stored hk)
  refine ⟨res, t, rest, hsince.replays_append (runs_of_stored hread) hrest, ?_, hrest, hk⟩
  exact state_of_remote (remote_of_quiet (quiet_readCrossTxInfo su h l crossTxid))
    (runs_of_stored hread)

/-- A submission leaves the stores; it can be replayed. -/
theorem sendTransaction_next {l : Layer} {input : TxInput} {amount : Int64} {txhash : Option Text}
    {t : Session} {rest : List Step}
    (hsend : Runs Session.storedAct (Handle.sendTransaction su l input amount) s txhash t)
    {steps : List Step} (hsince : s.Since s' steps) (hrest : t.Since s' rest) :
    t.state = s.state ∧ Replays (Handle.sendTransaction su l input amount) steps txhash rest :=
  ⟨state_of_remote (remote_sendTransaction su l input amount) (runs_of_stored hsend),
    hsince.replays_append (runs_of_stored hsend) hrest⟩

/-- What was answered with nothing was not answered with something. -/
theorem Replays.not_accepted {α : Type} {p : AgentM (Option α)} {steps rest : List Step}
    (hreplays : Replays p steps none rest) : ¬∃ a rest', Replays p steps (some a) rest' := by
  rintro ⟨a, rest', hreplays'⟩
  exact hreplays.not_exists_some (C := fun _ _ => True) ⟨a, rest', hreplays', trivial⟩

/-- A submission that saves its entry, if it is accepted. -/
theorem sendAckTo_persisted {info : Protocol.CrossTxInfo} {ok : Bool} {steps : List Step}
    (hrun : Runs Session.storedAct (Handle.sendAckTo su h info) s ok s') (hsince : s.Since s' steps)
    {crossTxid : Text} : s'.Persisted h crossTxid ↔ s.Persisted h crossTxid ∨
      info.crosstxid = crossTxid ∧ ∃ hash rest, Replays
        (Handle.sendTransaction su h (Handle.sendAckedTxInput h info) 0) steps (some hash) rest := by
  rcases sendAckTo_cases hrun with ⟨_, hsend⟩ | ⟨hash, t, _, hsend, hsave⟩
  · obtain ⟨hstate, hreplays⟩ := sendTransaction_next hsend hsince (Session.Since.refl s')
    rw [persisted_of_state hstate]
    exact ⟨Or.inl, Or.rec id fun hand => absurd hand.2 hreplays.not_accepted⟩
  · obtain ⟨rest, hrest, _⟩ := Session.replays (runs_of_stored hsave)
    obtain ⟨hstate, hreplays⟩ := sendTransaction_next hsend hsince hrest
    have hdb := saveAckInfo_db hsave
    have hid : (CrossTx.ofInfo su.codec (info.setAckHash h hash)).crossTxId = info.crosstxid :=
      Protocol.CrossTxInfo.crosstxid_setAckHash info h hash
    rw [hid] at hdb
    have hstore : (Store.ack h).handle = h := rfl
    rw [persisted_of_insert hstore hdb, persisted_of_state hstate]
    exact or_congr_right ⟨fun heq => ⟨heq, hash, rest, hreplays⟩, fun hand => hand.1⟩

/-- The handling of a StartTx event on layer 1. -/
theorem layer1_persisted_iff {crossTxid : Text} {ok : Bool} {steps : List Step}
    (hrun : Runs Session.storedAct (Layer1ToLayer2Handle.handleStartTxEvent su crossTxid) s ok s')
    (hsince : s.Since s' steps) : s'.Persisted .layer1 crossTxid ↔
      s.Persisted .layer1 crossTxid ∨ Attended su .layer1 crossTxid steps := by
  obtain ⟨res, t, rest, hread, hstate, hrest, hrun⟩ := readCrossTxInfo_first hrun hsince
  cases res with
  | none =>
    obtain ⟨_, rfl⟩ := runs_pure.mp hrun
    rw [persisted_of_state hstate]
    exact ⟨Or.inl, Or.rec id fun hattended => (hread.not_exists_some hattended).elim⟩
  | some info =>
    -- what was read is the record of the transfer, or nothing is attended to
    have hattended : Attended su .layer1 crossTxid steps ↔ info.crosstxid = crossTxid ∧
        ((∃ hash rest', Replays (Handle.sendTransaction su .layer2 (Handle.sendTxInput info)
          info.amount) rest (some hash) rest') ∨
        ∃ rest', Replays (Handle.sendTransaction su .layer2 (Handle.sendTxInput info) info.amount)
          rest none rest' ∧ ∃ hash rest'', Replays (Handle.sendTransaction su .layer1
            (Handle.sendAckedTxInput .layer1 { info with status := crossResultFailed }) 0)
            rest' (some hash) rest'') := hread.exists_some_iff
    rw [hattended, ← persisted_of_state hstate]
    obtain ⟨sent, u, hsend, hrun⟩ := runs_bind.mp hrun
    rcases sendTxTo_cases hsend with ⟨rfl, hsubmit⟩ | ⟨hash, v, rfl, hsubmit, hsave⟩
    · -- the escrow was not accepted, so its failure is acknowledged
      obtain ⟨_, w, hack, hrun⟩ := runs_bind.mp hrun
      obtain ⟨_, rfl⟩ := runs_pure.mp hrun
      obtain ⟨steps', hsince', _⟩ := Session.replays (runs_of_stored hack)
      obtain ⟨hstate', hreplays⟩ := sendTransaction_next hsubmit hrest hsince'
      rw [sendAckTo_persisted hack hsince', persisted_of_state hstate']
      refine or_congr_right (and_congr_right fun _ => ?_)
      constructor
      · exact fun hacked => Or.inr ⟨steps', hreplays, hacked⟩
      · rintro (hsent | ⟨rest', hreplays', hacked⟩)
        · exact absurd hsent hreplays.not_accepted
        · obtain ⟨_, rfl⟩ := hreplays.unique hreplays'
          exact hacked
    · obtain ⟨_, rfl⟩ := runs_pure.mp hrun
      obtain ⟨steps', hsince', _⟩ := Session.replays (runs_of_stored hsave)
      obtain ⟨hstate', hreplays⟩ := sendTransaction_next hsubmit hrest hsince'
      have hstore : (Store.send .layer1).handle = .layer1 := rfl
      rw [persisted_of_insert hstore (saveInfo_db hsave), persisted_of_state hstate']
      exact or_congr_right ⟨fun heq => ⟨heq, Or.inl ⟨hash, steps', hreplays⟩⟩, fun hand => hand.1⟩

/-- The handling of a StartTx event on layer 2. -/
theorem layer2_persisted_iff {crossTxid : Text} {ok : Bool} {steps : List Step}
    (hrun : Runs Session.storedAct (Layer2ToLayer1Handle.handleStartTxEvent su crossTxid) s ok s')
    (hsince : s.Since s' steps) : s'.Persisted .layer2 crossTxid ↔
      s.Persisted .layer2 crossTxid ∨ Attended su .layer2 crossTxid steps := by
  obtain ⟨res, t, rest, hread, hstate, hrest, hrun⟩ := readCrossTxInfo_first hrun hsince
  cases res with
  | none =>
    obtain ⟨_, rfl⟩ := runs_pure.mp hrun
    rw [persisted_of_state hstate]
    exact ⟨Or.inl, Or.rec id fun hattended => (hread.not_exists_some hattended).elim⟩
  | some info =>
    have hattended : Attended su .layer2 crossTxid steps ↔ info.crosstxid = crossTxid ∧
        ∃ seq rest', Replays (getLayerSeq .layer2) rest (some seq) rest' := hread.exists_some_iff
    rw [hattended, ← persisted_of_state hstate]
    obtain ⟨seq, u, hseq, hrun⟩ := runs_bind.mp hrun
    have hstate' := state_of_remote (remote_of_quiet (quiet_getLayerSeq .layer2)) (runs_of_stored hseq)
    obtain ⟨steps', hsince', _⟩ := Session.replays (runs_of_stored hrun)
    have hreplays := hrest.replays_append (runs_of_stored hseq) hsince'
    cases seq with
    | none =>
      obtain ⟨_, rfl⟩ := runs_pure.mp hrun
      rw [persisted_of_state hstate']
      exact ⟨Or.inl, Or.rec id fun hand => absurd hand.2 hreplays.not_accepted⟩
    | some seq =>
      obtain ⟨_, v, hsave, hrun⟩ := runs_bind.mp hrun
      obtain ⟨_, rfl⟩ := runs_pure.mp hrun
      have hstore : Store.start.handle = .layer2 := rfl
      rw [persisted_of_insert hstore (saveInfo_db hsave), persisted_of_state hstate']
      exact or_congr_right ⟨fun heq => ⟨heq, seq, steps', hreplays⟩, fun hand => hand.1⟩

/-- A transfer has an entry in the database after the handling of its StartTx event exactly when it
had one before or everything that had to go right did. -/
theorem startEvent_persisted_iff {crossTxid : Text} {ok : Bool} {steps : List Step}
    (hrun : Runs Session.act (HandlerCall.startEventOf su h crossTxid) s ok s')
    (hsince : s.Since s' steps) (hstored : ∀ step ∈ steps, step.Stored) :
    s'.Persisted h crossTxid ↔ s.Persisted h crossTxid ∨ Attended su h crossTxid steps := by
  have hruns := Session.runs_of_since Step.Stored hrun hsince hstored
  cases h with
  | layer1 => exact layer1_persisted_iff hruns hsince
  | layer2 => exact layer2_persisted_iff hruns hsince

/-- A deposit on layer 1 whose escrow is accepted has an entry. -/
theorem startEvent_persisted_escrowed : ∃ s steps, (Session.start ∅).Since s steps ∧
    Runs Session.act (HandlerCall.startEventOf Formats.system.su .layer1
      (Formats.hexText Formats.settledId)) (Session.start ∅) true s ∧
    s.Persisted .layer1 (Formats.hexText Formats.settledId) ∧
    Attended Formats.system.su .layer1 (Formats.hexText Formats.settledId) steps := by
  have hcheck : ((runWith Session.step (HandlerCall.startEventOf Formats.system.su .layer1
      (Formats.hexText Formats.settledId)) Formats.startAnswers (Session.start ∅)).any fun result =>
    result.1 = true ∧
        (result.2.state.db[Store.keyPrefix (.send .layer1) ++
          Formats.hexText Formats.settledId]?).isSome ∧
        ∀ step ∈ result.2.trace, step.Stored) = true := by
    decide +kernel
  obtain ⟨⟨ok, s⟩, hrun, hs⟩ := (Option.any_eq_true _ _).mp hcheck
  obtain ⟨rfl, hheld, hstored⟩ := of_decide_eq_true hs
  have hruns := Session.runs_of_answers hrun
  obtain ⟨steps, hsince, _⟩ := Session.replays hruns
  have hpersisted : s.Persisted .layer1 (Formats.hexText Formats.settledId) :=
    ⟨.send .layer1, rfl, hheld⟩
  have hiff := startEvent_persisted_iff hruns hsince fun step hstep =>
    hstored step (hsince.mem_trace hstep)
  refine ⟨s, steps, hsince, hruns, hpersisted, (hiff.mp hpersisted).resolve_left ?_⟩
  rintro ⟨store, _, hsome⟩
  have hempty : (Session.start ∅).state.db[store.keyPrefix ++ Formats.hexText Formats.settledId]? = none :=
    ExtTreeMap.getElem?_empty
  rw [hempty] at hsome
  cases hsome

/-- A deposit on layer 1 whose record could not be queried has none. -/
theorem startEvent_dropped : ∃ s, Runs Session.act (HandlerCall.startEventOf
      Formats.system.su .layer1 (Formats.hexText Formats.settledId)) (Session.start ∅) false s ∧
    (∀ step ∈ s.trace, step.Stored) ∧
    ¬s.Persisted .layer1 (Formats.hexText Formats.settledId) := by
  have hcheck : ((runWith Session.step (HandlerCall.startEventOf Formats.system.su .layer1
      (Formats.hexText Formats.settledId)) [.reply .error] (Session.start ∅)).any fun result =>
        result.1 = false ∧ (∀ step ∈ result.2.trace, step.Stored) ∧
        ∀ store ∈ Store.all, (result.2.state.db[store.keyPrefix ++
          Formats.hexText Formats.settledId]?).isNone) = true := by
    decide +kernel
  obtain ⟨⟨ok, s⟩, hrun, hs⟩ := (Option.any_eq_true _ _).mp hcheck
  obtain ⟨rfl, hstored, hnone⟩ := of_decide_eq_true hs
  refine ⟨s, Session.runs_of_answers hrun, hstored, ?_⟩
  rintro ⟨store, _, hsome⟩
  have hempty := Option.isNone_iff_eq_none.mp (hnone store store.mem_all)
  rw [hempty] at hsome
  cases hsome

end CrosschainAgent
