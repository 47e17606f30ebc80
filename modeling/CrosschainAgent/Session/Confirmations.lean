import CrosschainAgent.Session.Filing
import CrosschainAgent.System.Formats

/-!
# The confirmations behind a release

A transfer that starts on layer 2 waits in the start map for its height to be confirmed. It is
released, by a `SendTx` on layer 1, only after a `Submit` log of the manager contract has
confirmed that height. The manager looks neither at the result a log reports nor at the agent it
is about, so a release is as good as the logs are.
-/

namespace CrosschainAgent

open Interaction Std

variable {su : ManagerSetup} {Counts : Protocol.ManagerContractTlog → Prop}

/-- The log reports that a submission of this agent succeeded. -/
def ManagerSetup.ReportsSuccess (su : ManagerSetup) (managerLog : Protocol.ManagerContractTlog) :
    Prop :=
  managerLog.submit.errorCode = .codeSuccess ∧
    managerLog.submit.agentId.toInt64 = su.layer2Id

instance (su : ManagerSetup) (managerLog : Protocol.ManagerContractTlog) :
    Decidable (su.ReportsSuccess managerLog) := inferInstanceAs (Decidable (_ ∧ _))

/-- An operation of the manager that was performed: the stores before it, and what it returned. -/
structure ManagerStep where
  before : AgentState
  op : ManagerOp
  resp : op.Resp

/-- The stores, and the operations so far, the newest first. -/
structure ManagerSession where
  state : AgentState
  trace : List ManagerStep

/-- One operation of the manager on the stores. -/
def AgentState.managerStep : (o : ManagerOp) → Answer → AgentState → Option (o.Resp × AgentState)
  | .agent o, answer, a => AgentState.step o answer a
  | .managerLog _, .go, a => some ((), a)
  | .getAccountBase _ _, .reply r, a => some (r, a)
  | .submitSetTimeout _ _ _, .reply r, a => some (r, a)
  | _, _, _ => none

/-- What an operation of the manager does to the stores. -/
def AgentState.ManagerActs (a : AgentState) : (o : ManagerOp) → o.Resp → AgentState → Prop
  | .agent o, r, a' => a.Acts o r a'
  | .managerLog _, _, a' => a' = a
  | .getAccountBase _ _, _, a' => a' = a
  | .submitSetTimeout _ _ _, _, a' => a' = a

namespace ManagerSession

/-- One operation, which is added to the trace. -/
def step (o : ManagerOp) (answer : Answer) (s : ManagerSession) : Option (o.Resp × ManagerSession) :=
  (AgentState.managerStep o answer s.state).map fun (r, state) =>
    (r, ⟨state, ⟨s.state, o, r⟩ :: s.trace⟩)

/-- What an operation may do. -/
def act (o : ManagerOp) (s : ManagerSession) (r : o.Resp) (s' : ManagerSession) : Prop :=
  s.state.ManagerActs o r s'.state ∧ s'.trace = ⟨s.state, o, r⟩ :: s.trace

/-- An executed operation of the manager is one the stores allow. -/
theorem step_act {o : ManagerOp} {answer : Answer} {s s' : ManagerSession} {r : o.Resp}
    (h : step o answer s = some (r, s')) : act o s r s' := by
  obtain ⟨⟨r', state⟩, hstep, heq⟩ := Option.map_eq_some_iff.mp h
  cases heq
  refine ⟨?_, rfl⟩
  cases o with
  | agent o => exact AgentState.step_acts hstep
  | managerLog | getAccountBase | submitSetTimeout =>
    cases answer <;> cases hstep
    rfl

/-- A process that starts with a database. -/
def start (db : Database) : ManagerSession := ⟨⟨fun _ => ∅, db⟩, []⟩

/-- The process is started again: the maps are empty. -/
def restarted (s : ManagerSession) : ManagerSession := { s with state := s.state.restarted }

/-- The sessions of the manager: messages and timers in any order, each handled to its end or
stopped on the way, and restarts, from any database. -/
inductive Reachable (su : ManagerSetup) : ManagerSession → Prop
  | start (db : Database) : Reachable su (start db)
  | handle {s s' : ManagerSession} (hs : Reachable su s) (event : HandleManager.Event)
      (hhandle : Reaches act (HandleManager.handle su event) s s') : Reachable su s'
  | restart {s s' : ManagerSession} (hs : Reachable su s)
      (hinit : Reaches act (HandleManager.initializeManager su) s.restarted s') : Reachable su s'

/-- Handle events one after the other, given the answers each of them gets. -/
def handleAll (su : ManagerSetup) :
    List (HandleManager.Event × List Answer) → ManagerSession → Option ManagerSession
  | [], s => some s
  | (event, answers) :: rest, s =>
    match runWith step (HandleManager.handle su event) answers s with
    | some (_, t) => handleAll su rest t
    | none => none

/-- What is reached by handling further events is reachable. -/
theorem Reachable.handleAll {s s' : ManagerSession} (hs : Reachable su s)
    {events : List (HandleManager.Event × List Answer)}
    (hrun : ManagerSession.handleAll su events s = some s') : Reachable su s' := by
  induction events generalizing s with
  | nil =>
    cases hrun
    exact hs
  | cons p events ih =>
    unfold ManagerSession.handleAll at hrun
    split at hrun
    next ok t hfirst =>
      have hstep : ∀ o answer u r u', step o answer u = some (r, u') → act o u r u' :=
        fun _ _ _ _ _ => step_act
      exact ih (hs.handle p.1 (runs_of_runWith hstep hfirst).reaches) hrun
    next => cases hrun

end ManagerSession

/-- The operation submits the `SendTx` of the transfer on layer 1. -/
def ManagerOp.Releases (id : Text) : ManagerOp → Prop
  | .agent o => o.Releases id
  | _ => False

instance (id : Text) (o : ManagerOp) : Decidable (o.Releases id) :=
  match o with
  | .agent o => inferInstanceAs (Decidable (o.Releases id))
  | .managerLog _ | .getAccountBase _ _ | .submitSetTimeout _ _ _ => inferInstanceAs (Decidable False)

/-- The log of the manager contract that was parsed. -/
def ManagerStep.managerLog : ManagerStep → Option Protocol.ManagerContractTlog
  | ⟨_, .managerLog managerLog, _⟩ => some managerLog
  | _ => none

/-- The transfer is recorded with the height at which its deposit was seen. -/
def ManagerStep.Records (su : ManagerSetup) (id : Text) (confirmseq : Int64) : ManagerStep → Prop
  | ⟨_, .agent (.emplace .start key e), _⟩ => key = id ∧ (e.info su.codec).confirmseq = confirmseq
  | _ => False

/-- A `Submit` log that counts confirms the height. -/
def ManagerStep.Confirms (Counts : Protocol.ManagerContractTlog → Prop) (confirmseq : Int64) :
    ManagerStep → Prop
  | ⟨_, .managerLog managerLog, _⟩ => managerLog.tlogType = .topicSubmit ∧ Counts managerLog ∧
      confirmseq ≤ managerLog.submit.confirmSeq
  | _ => False

/-- The transfer was recorded with a height that was then, or before, confirmed. -/
def MayRelease (su : ManagerSetup) (Counts : Protocol.ManagerContractTlog → Prop) (id : Text)
    (trace : List ManagerStep) : Prop :=
  ∃ confirmseq, (∃ step ∈ trace, step.Records su id confirmseq) ∧
    ∃ step ∈ trace, step.Confirms Counts confirmseq

/-- Every release of the trace was preceded by what permits it. -/
def Gated (su : ManagerSetup) (Counts : Protocol.ManagerContractTlog → Prop)
    (trace : List ManagerStep) : Prop :=
  ∀ step earlier, step :: earlier <:+ trace → ∀ id, step.op.Releases id →
    MayRelease su Counts id earlier

/-- A `Submit` log counts, or every height that it covers and that is waited for has been confirmed
before. -/
def ManagerStep.Warranted (su : ManagerSetup) (Counts : Protocol.ManagerContractTlog → Prop)
    (earlier : List ManagerStep) : ManagerStep → Prop
  | ⟨before, .managerLog managerLog, _⟩ => managerLog.tlogType = .topicSubmit →
      Counts managerLog ∨ ∀ (id : Text) (e : CrossTx), (before.maps .start)[id]? = some e →
        (e.info su.codec).confirmseq ≤ managerLog.submit.confirmSeq →
        ∃ step ∈ earlier, step.Confirms Counts (e.info su.codec).confirmseq
  | _ => True

/-- Every step of the trace is warranted. -/
def Warranted (su : ManagerSetup) (Counts : Protocol.ManagerContractTlog → Prop)
    (trace : List ManagerStep) : Prop :=
  ∀ step earlier, step :: earlier <:+ trace → step.Warranted su Counts earlier

/-- What was warranted when the trace ended was warranted before. -/
theorem Warranted.suffix {trace earlier : List ManagerStep} (h : Warranted su Counts trace)
    (hsuffix : earlier <:+ trace) : Warranted su Counts earlier :=
  fun step rest hrest => h step rest (hrest.trans hsuffix)

/-- A trace is warranted if each of its logs counts. -/
theorem warranted_of_counts {trace : List ManagerStep}
    (h : ∀ managerLog ∈ trace.filterMap ManagerStep.managerLog, Counts managerLog) :
    Warranted su Counts trace := by
  rintro ⟨before, op, r⟩ earlier hsuffix
  cases op with
  | managerLog managerLog =>
    exact fun _ => Or.inl (h _ (List.mem_filterMap.mpr ⟨_, hsuffix.subset List.mem_cons_self, rfl⟩))
  | agent | getAccountBase | submitSetTimeout => exact trivial

/-- Nothing may be released if no log counts. -/
theorem not_mayRelease {id : Text} {trace : List ManagerStep}
    (h : ∀ managerLog ∈ trace.filterMap ManagerStep.managerLog, ¬Counts managerLog) :
    ¬MayRelease su Counts id trace := by
  rintro ⟨confirmseq, _, ⟨before, op, r⟩, hmem, hconfirms⟩
  cases op with
  | managerLog managerLog =>
    exact h _ (List.mem_filterMap.mpr ⟨_, hmem, rfl⟩) hconfirms.2.1
  | agent | getAccountBase | submitSetTimeout => exact hconfirms

/-- What may be released may be released later. -/
theorem MayRelease.later {id : Text} {earlier trace : List ManagerStep}
    (h : MayRelease su Counts id earlier) (hsuffix : earlier <:+ trace) :
    MayRelease su Counts id trace := by
  obtain ⟨confirmseq, ⟨record, hrecord, hrecords⟩, confirm, hconfirm, hconfirms⟩ := h
  exact ⟨confirmseq, ⟨record, hsuffix.subset hrecord, hrecords⟩, confirm, hsuffix.subset hconfirm,
    hconfirms⟩

/-- One more step is gated when its release is. -/
theorem gated_cons {step : ManagerStep} {trace : List ManagerStep} (h : Gated su Counts trace)
    (hstep : ∀ id, step.op.Releases id → MayRelease su Counts id trace) :
    Gated su Counts (step :: trace) := by
  intro other earlier hsuffix id hreleases
  rcases List.suffix_cons_iff.mp hsuffix with heq | hsuffix
  · cases heq
    exact hstep id hreleases
  · exact h other earlier hsuffix id hreleases

/-- Every entry of the start map is filed under its own id, and it was recorded. -/
def Rooted (su : ManagerSetup) (s : ManagerSession) : Prop :=
  ∀ (id : Text) (e : CrossTx), (s.state.maps .start)[id]? = some e → e.FiledUnder su.toSetup id ∧
    ∃ step ∈ s.trace, step.Records su id (e.info su.codec).confirmseq

/-- Whether the start store is rooted depends on the stores, and the trace only grows. -/
theorem rooted_of_state {s s' : ManagerSession} (h : Rooted su s) (hstate : s'.state = s.state)
    (hsuffix : s.trace <:+ s'.trace) : Rooted su s' := by
  intro id e hget
  rw [hstate] at hget
  obtain ⟨hfiled, step, hstep, hrecords⟩ := h id e hget
  exact ⟨hfiled, step, hsuffix.subset hstep, hrecords⟩

/-- The operation files well. -/
def ManagerOp.Files (su : ManagerSetup) : ManagerOp → Prop
  | .agent o => o.Files su.toSetup
  | _ => True

/-- An operation that files well leaves the entries rooted. -/
theorem rooted_of_act {s s' : ManagerSession} {o : ManagerOp} {r : o.Resp} (h : Rooted su s)
    (hfiles : o.Files su) (hact : ManagerSession.act o s r s') : Rooted su s' := by
  have hsuffix : s.trace <:+ s'.trace := by
    rw [hact.2]
    exact List.suffix_cons _ _
  cases o with
  | agent o =>
    intro id e hget
    have hacts : s.state.Acts o r s'.state := hact.1
    rcases hacts.entry_cases hget with ⟨old, t, hold, rfl⟩ | rfl
    · obtain ⟨hfiled, step, hstep, hrecords⟩ := h id old hold
      exact ⟨⟨hfiled.id, hfiled.info⟩, step, hsuffix.subset hstep, hrecords⟩
    · refine ⟨hfiles, ⟨s.state, .agent (.emplace .start id e), r⟩, ?_, rfl, rfl⟩
      rw [hact.2]
      exact List.mem_cons_self
  | managerLog | getAccountBase | submitSetTimeout => exact rooted_of_state h hact.1 hsuffix

/-- How the manager may use its operations in a session whose steps are warranted: a release needs
what permits it. -/
def gateRules (su : ManagerSetup) (Counts : Protocol.ManagerContractTlog → Prop) :
    Rules Unit ManagerOp ManagerOp.Resp ManagerSession where
  Inv s := Gated su Counts s.trace ∧ Rooted su s
  Later s s' := s.trace <:+ s'.trace
  Rely _ s s' := s' = s
  Pre _ o s := o.Files su ∧ ∀ id, o.Releases id → MayRelease su Counts id s.trace
  act _ o s r s' := ManagerSession.act o s r s' ∧ Warranted su Counts s'.trace
  later_refl _ := List.suffix_rfl
  later_trans _ _ _ h h' := h.trans h'
  rely_refl _ _ := rfl
  rely_trans _ _ _ _ h h' := h'.trans h
  later_of_rely _ s s' h := h ▸ List.suffix_rfl
  sound _ o s r s' hinv hpre hact := by
    have htrace := hact.1.2
    refine ⟨⟨?_, rooted_of_act hinv.2 hpre.1 hact.1⟩, ?_, fun _ hne => absurd rfl hne⟩
    · rw [htrace]
      exact gated_cons hinv.1 hpre.2
    · rw [htrace]
      exact List.suffix_cons _ _

/-- The operation files well and releases nothing. -/
def Op.Withholds (su : Setup) (o : Op) : Prop := o.Files su ∧ ∀ id, ¬o.Releases id

/-- The operation files well and releases nothing. -/
def ManagerOp.Withholds (su : ManagerSetup) (o : ManagerOp) : Prop :=
  o.Files su ∧ ∀ id, ¬o.Releases id

/-- What is quiet releases nothing. -/
theorem Op.Quiet.withholds {su : Setup} {o : Op} (hquiet : o.Quiet) : o.Withholds su := by
  refine ⟨hquiet.remote.files, fun id hreleases => ?_⟩
  cases o with
  | http l request =>
    cases request with
    | submitTransaction => exact hquiet
    | getLedger | callContract | getTransactionHistory => cases l <;> exact hreleases
  | highResolution | dbPut | dbDelete | dbScan | lock | unlock | entries | emplace | erase
  | setAckTimeout | terminate => exact hreleases

/-- Releasing nothing covers what the handlers do to the stores. -/
theorem covers_withholds (su : Setup) : Op.Covers su (Op.Withholds su) where
  quiet _ hquiet := hquiet.withholds
  submitAck l _ _ _ _ _ _ _ := ⟨trivial, fun _ hreleases => by cases l <;> exact hreleases⟩
  submitTx _ _ _ _ _ _ _ _ := ⟨trivial, fun _ hreleases => hreleases⟩
  dbPut _ _ := ⟨trivial, fun _ hreleases => hreleases⟩
  dbDelete _ := ⟨trivial, fun _ hreleases => hreleases⟩
  emplace _ _ _ hfiled := ⟨hfiled, fun _ hreleases => hreleases⟩
  erase _ _ := ⟨trivial, fun _ hreleases => hreleases⟩
  setAckTimeout _ _ _ := ⟨trivial, fun _ hreleases => hreleases⟩

section Safe

/-- What releases nothing is safe. -/
theorem safe_of_withholds {α : Type} {p : ManagerM α} (hp : Uses (ManagerOp.Withholds su) p)
    {s : ManagerSession} : Safe (gateRules su Counts) () (fun _ _ => True) p s :=
  Safe.of_uses_later hp fun _ _ ho _ _ => ⟨ho.1, fun id hreleases => absurd hreleases (ho.2 id)⟩

/-- What releases nothing in the agent releases nothing in the manager. -/
theorem withholds_ofAgent {α : Type} {p : AgentM α} (hp : Uses (Op.Withholds su.toSetup) p) :
    Uses (ManagerOp.Withholds su) (ManagerM.ofAgent p) :=
  Uses.embed hp

/-- The heights that are waited for and that a log covers are confirmed. -/
def Covered (su : ManagerSetup) (Counts : Protocol.ManagerContractTlog → Prop) (confirmSeq : Int64)
    (s : ManagerSession) : Prop :=
  ∀ (id : Text) (e : CrossTx), (s.state.maps .start)[id]? = some e →
    (e.info su.codec).confirmseq ≤ confirmSeq →
    ∃ step ∈ s.trace, step.Confirms Counts (e.info su.codec).confirmseq

/-- What is covered stays covered. -/
theorem Covered.later {confirmSeq : Int64} {s s' : ManagerSession}
    (h : Covered su Counts confirmSeq s) (hstate : s'.state = s.state)
    (hsuffix : s.trace <:+ s'.trace) : Covered su Counts confirmSeq s' := by
  intro id e hget hle
  rw [hstate] at hget
  obtain ⟨step, hstep, hconfirms⟩ := h id e hget hle
  exact ⟨step, hsuffix.subset hstep, hconfirms⟩

/-- A covered entry may be released. -/
theorem mayRelease_of_covered {confirmSeq : Int64} {s : ManagerSession}
    (h : Covered su Counts confirmSeq s) (hrooted : Rooted su s) {id : Text} {e : CrossTx}
    (hget : (s.state.maps .start)[id]? = some e)
    (hle : (e.info su.codec).confirmseq ≤ confirmSeq) :
    MayRelease su Counts (e.info su.codec).crosstxid s.trace := by
  obtain ⟨hfiled, step, hstep, hrecords⟩ := hrooted id e hget
  rw [hfiled.info]
  exact ⟨_, ⟨step, hstep, hrecords⟩, h id e hget hle⟩

/-- The round of an entry that may be released, if the height of the log covers it. -/
theorem safe_round {confirmSeq : Int64} {s : ManagerSession} (e : CrossTx)
    (h : (e.info su.codec).confirmseq ≤ confirmSeq →
      MayRelease su Counts (e.info su.codec).crosstxid s.trace) :
    Safe ((gateRules su Counts).comap ManagerOp.agent fun _ r => r) () (fun _ _ => True) (do
      let currentTime ← highResolution
      let info := e.info su.codec
      if info.confirmseq ≤ confirmSeq then
        Layer2ToLayer1Handle.confirmed su.toSetup info currentTime : AgentM Unit) s := by
  let P : Op → Prop := fun o => o.Withholds su.toSetup ∨
    (e.info su.codec).confirmseq ≤ confirmSeq ∧ o.Releases (e.info su.codec).crosstxid
  have hP : Op.Covers su.toSetup P := (covers_withholds su.toSetup).mono fun _ => Or.inl
  have huses : Uses P (do
      let currentTime ← highResolution
      let info := e.info su.codec
      if info.confirmseq ≤ confirmSeq then
        Layer2ToLayer1Handle.confirmed su.toSetup info currentTime : AgentM Unit) := by
    refine Uses.bind (Uses.perform (hP.quiet _ trivial)) fun now => ?_
    by_cases hle : (e.info su.codec).confirmseq ≤ confirmSeq
    · simp only [if_pos hle]
      exact within_confirmed hP _ _ fun o hreleases => Or.inr ⟨hle, hreleases⟩
    · simp only [if_neg hle]
      exact Uses.pure _
  refine Safe.of_uses_later huses fun o s' ho hlater _ => ?_
  rcases ho with ho | ⟨hle, hreleases⟩
  · exact ⟨ho.1, fun id hreleases => absurd hreleases (ho.2 id)⟩
  · refine ⟨hreleases.files, fun id hreleases' => ?_⟩
    rw [← Op.Releases.unique hreleases hreleases']
    exact (h hle).later hlater

/-- A confirmation releases what the log covers. -/
theorem safe_handleConfirmSeqEvent {confirmSeq : Int64} {s : ManagerSession}
    (h : Covered su Counts confirmSeq s) : Safe (gateRules su Counts) () (fun _ _ => True)
      (ManagerM.ofAgent (Layer2ToLayer1Handle.handleConfirmSeqEvent su.toSetup confirmSeq)) s := by
  have hpre : ∀ (o : Op) (u : ManagerSession), o.Quiet →
      ((gateRules su Counts).comap ManagerOp.agent fun _ r => r).Pre () o u := by
    intro o u hquiet
    have hwithholds : o.Withholds su.toSetup := hquiet.withholds
    exact ⟨hwithholds.1, fun id hreleases => absurd hreleases (hwithholds.2 id)⟩
  refine Safe.embed (Safe.bind (Safe.perform (fun u _ _ => hpre _ u trivial) ?_))
  rintro u ⟨⟩ _ rfl _ ⟨_, _, hlock, _⟩ t rfl _
  -- the entries are those at the time of the log
  have hcovered := h.later (AgentState.Acts.eq_of_quiet hlock.1 trivial) (hlock.2 ▸ List.suffix_cons _ _)
  refine Safe.bind (Safe.perform (fun v _ _ => hpre _ v trivial) ?_)
  rintro v infos _ rfl hinv ⟨_, rfl, hentries, _⟩ w rfl _
  refine Safe.bind ((Safe.forM_later fun p hp w' hlater _ => safe_round p.2 fun hle => ?_).mono ?_)
  · have hget : (v.state.maps .start)[p.1]? = some p.2 := by
      rw [(AgentState.Acts.entries_eq hentries.1).2] at hp
      exact ExtTreeMap.mem_toList_iff_getElem?_eq_some.mp hp
    have hmay := mayRelease_of_covered hcovered hinv.2 hget hle
    exact (hmay.later (hentries.2 ▸ List.suffix_cons _ _)).later hlater
  · exact fun _ w' _ _ _ => Safe.perform (fun v' _ _ => hpre _ v' trivial) fun _ _ _ _ _ _ _ _ _ => trivial

/-- The update of the period releases nothing. -/
theorem withholds_updatePeriod (period : Int64) : Uses (ManagerOp.Withholds su)
    (HandleManager.updatePeriodToLayer2CrossContract su period) := by
  have hP := covers_withholds su.toSetup
  refine Uses.bind (withholds_ofAgent (within_of_quiet hP (quiet_getLayerSeq _))) fun seq => ?_
  cases seq with
  | none => exact Uses.pure _
  | some layer2Seq =>
    refine Uses.bind (Uses.perform ⟨trivial, fun _ hreleases => hreleases⟩) fun _ => ?_
    exact Uses.bind (withholds_ofAgent (within_of_quiet hP (quiet_orTerminate _))) fun _ => Uses.pure _

/-- The handler of an event releases nothing. -/
theorem withholds_onTopic {su : Setup} (l : Layer) (topic : HandleManager.Topic) (crossTxId : Text) :
    Uses (Op.Withholds su) (HandleManager.onTopic su l topic crossTxId) := by
  have hP := covers_withholds su
  cases l <;> cases topic
  case layer1.startTxTopic => exact within_layer1_handleStartTxEvent hP crossTxId
  case layer2.startTxTopic => exact within_layer2_handleStartTxEvent hP crossTxId
  case layer1.sendTxTopic | layer2.sendTxTopic => exact within_handleSendTxEvent hP crossTxId _
  case layer1.ackTxTopic | layer2.ackTxTopic => exact within_handleSendAckdTxEvent hP crossTxId

/-- The timer releases nothing. -/
theorem withholds_onTimer {su : Setup} : Uses (Op.Withholds su) (HandleManager.onTimer su) := by
  have hpasses : ∀ (h : Handle), ∀ call ∈ HandlerCall.passes h,
      Uses (Op.Withholds su) (call.run su >>= fun _ => pure ⟨⟩ : AgentM PUnit) := by
    intro h call hcall
    refine Uses.bind (within_run (covers_withholds su) call fun hconfirms => ?_) fun _ => Uses.pure _
    cases call <;> first | exact hconfirms.elim | simp [HandlerCall.passes] at hcall
  unfold HandleManager.onTimer
  rw [HandlerCall.layer1_onTimer_eq, HandlerCall.layer2_onTimer_eq]
  exact Uses.bind (Uses.forM (hpasses .layer1)) fun _ => Uses.forM (hpasses .layer2)

/-- The check of the balance releases nothing. -/
theorem withholds_checkBalance (l : Layer) :
    Uses (ManagerOp.Withholds su) (HandleManager.checkBalance su l) := by
  have hP := covers_withholds su.toSetup
  refine Uses.bind (Uses.bind (Uses.perform ⟨trivial, fun _ hreleases => hreleases⟩) fun resp =>
    withholds_ofAgent (within_of_quiet hP (quiet_orTerminate _))) fun balance => ?_
  cases balance with
  | none => exact Uses.pure _
  | some balance => exact Uses.pure _

/-- The start of the manager releases nothing. -/
theorem withholds_initializeManager :
    Uses (ManagerOp.Withholds su) (HandleManager.initializeManager su) := by
  have hP := covers_withholds su.toSetup
  have hlayer2 : Uses (ManagerOp.Withholds su) (HandleManager.checkLayer2Balance su) :=
    Uses.ite (Uses.pure _) (withholds_checkBalance _)
  refine Uses.bind hlayer2 fun ok => Uses.ite (Uses.pure _) ?_
  refine Uses.bind (withholds_checkBalance _) fun ok => Uses.ite (Uses.pure _) ?_
  refine Uses.bind (withholds_ofAgent ?_) fun _ => Uses.pure _
  have hload : ∀ h, Uses (Op.Withholds su.toSetup) (HandlerCall.initializeHandle su.toSetup h) :=
    fun _ => within_initializeHandle hP
  exact Uses.bind (hload .layer1) fun _ => hload .layer2

/-- A log that is warranted releases only what may be released. -/
theorem safe_onManagerLog (managerLog : Protocol.ManagerContractTlog) {s : ManagerSession} :
    Safe (gateRules su Counts) () (fun _ _ => True) (HandleManager.onManagerLog su managerLog) s := by
  refine Safe.bind (Safe.perform (fun u _ _ => ⟨trivial, fun _ hreleases => hreleases.elim⟩) ?_)
  rintro u ⟨⟩ _ rfl _ ⟨hlog, hwarranted⟩ t rfl _
  rw [hlog.2] at hwarranted
  have hstep := hwarranted _ _ List.suffix_rfl
  split
  case h_1 hsubmit =>
    refine safe_handleConfirmSeqEvent fun id e hget hle => ?_
    rw [hlog.2]
    rcases hstep hsubmit with hcounts | hcovered
    · exact ⟨_, List.mem_cons_self, hsubmit, hcounts, hle⟩
    · have hstate : t.state = u.state := hlog.1
      rw [hstate] at hget
      obtain ⟨step, hmem, hconfirms⟩ := hcovered id e hget hle
      exact ⟨step, List.mem_cons_of_mem _ hmem, hconfirms⟩
  case h_2 => exact safe_of_withholds (Uses.bind (withholds_updatePeriod _) fun _ => Uses.pure _)
  case h_3 => exact safe_of_withholds (Uses.pure _)

/-- Manager logs release what they may only. -/
theorem safe_onManagerLogs (tlogs : List Text) {s : ManagerSession} :
    Safe (gateRules su Counts) () (fun _ _ => True) (HandleManager.onManagerLogs su tlogs) s := by
  induction tlogs generalizing s with
  | nil => exact safe_of_withholds (Uses.pure _)
  | cons tlog tlogs ih =>
    unfold HandleManager.onManagerLogs
    split
    next => exact safe_of_withholds (Uses.pure _)
    next managerLog _ => exact Safe.bind ((safe_onManagerLog managerLog).mono fun _ _ _ _ _ => ih)

/-- Every call of the manager keeps to the rules. -/
theorem safe_handle (event : HandleManager.Event) {s : ManagerSession} :
    Safe (gateRules su Counts) () (fun _ _ => True) (HandleManager.handle su event) s := by
  have hP := covers_withholds su.toSetup
  have hcross : ∀ l tlogRes, Uses (ManagerOp.Withholds su)
      (HandleManager.onCrossContractTlog su l tlogRes) := by
    intro l tlogRes
    refine Uses.bind (withholds_ofAgent (within_of_quiet hP (quiet_orTerminate _))) fun tlog => ?_
    refine Uses.bind (withholds_ofAgent (within_of_quiet hP (quiet_orTerminate _))) fun id => ?_
    split
    next => exact withholds_ofAgent (withholds_onTopic _ _ _)
    next => exact Uses.pure _
  cases event with
  | onLayer1SubscribeResponse msg =>
    change Safe _ () _ (HandleManager.onLayer1SubscribeResponse su msg) s
    unfold HandleManager.onLayer1SubscribeResponse
    split
    next => exact safe_of_withholds (Uses.pure _)
    next tlogRes _ =>
      split
      next => exact safe_of_withholds (hcross _ _)
      next =>
        split
        next =>
          refine Safe.bind (Safe.mono (safe_of_withholds
            (withholds_ofAgent (within_of_quiet hP (quiet_orTerminate _)))) fun tlog _ _ _ _ => ?_)
          exact safe_onManagerLogs tlog.tlog
        next => exact safe_of_withholds (Uses.pure _)
  | onLayer2SubscribeResponse msg =>
    change Safe _ () _ (HandleManager.onLayer2SubscribeResponse su msg) s
    unfold HandleManager.onLayer2SubscribeResponse
    split
    next => exact safe_of_withholds (Uses.pure _)
    next => exact safe_of_withholds (Uses.ite (Uses.pure _) (hcross _ _))
  | onTimer => exact safe_of_withholds (Uses.bind (withholds_ofAgent withholds_onTimer) fun _ => Uses.pure _)

end Safe

namespace ManagerSession

/-- A trace that is warranted was warranted at every step. -/
theorem gated_of_reaches {α : Type} {p : ManagerM α} {s s' : ManagerSession}
    (hsafe : Safe (gateRules su Counts) () (fun _ _ => True) p s)
    (hinv : (gateRules su Counts).Inv s) (hreaches : Reaches act p s s')
    (hwarranted : Warranted su Counts s'.trace) : (gateRules su Counts).Inv s' := by
  have hback : ∀ o u r u', act o u r u' → Warranted su Counts u'.trace → Warranted su Counts u.trace := by
    intro o u r u' hact hu'
    rw [hact.2] at hu'
    exact hu'.suffix (List.suffix_cons _ _)
  exact (hsafe.of_reaches hinv (hreaches.of_last hback hwarranted).2).1

/-- What the session had done before is the end of what it has done. -/
theorem trace_suffix {α : Type} {p : ManagerM α} {s s' : ManagerSession} (h : Reaches act p s s') :
    s.trace <:+ s'.trace := by
  refine h.invariant (J := fun u => s.trace <:+ u.trace) ?_ List.suffix_rfl
  intro o u r u' hact hu
  rw [hact.2]
  exact hu.trans (List.suffix_cons _ _)

/-- In a session whose steps are warranted, every release was permitted. -/
theorem Reachable.gated {s : ManagerSession} (hs : Reachable su s)
    (hwarranted : Warranted su Counts s.trace) : (gateRules su Counts).Inv s := by
  have hempty : ∀ u : ManagerSession, u.state.maps .start = ∅ → Rooted su u := by
    intro u hu id e hget
    rw [hu, ExtTreeMap.getElem?_empty] at hget
    cases hget
  induction hs with
  | start db =>
    refine ⟨fun step earlier hsuffix => ?_, hempty _ rfl⟩
    exact absurd hsuffix.length_le (by simp [ManagerSession.start])
  | handle hs event hhandle ih =>
    have hinv := ih (hwarranted.suffix (trace_suffix hhandle))
    exact gated_of_reaches (safe_handle event) hinv hhandle hwarranted
  | restart hs hinit ih =>
    have hsuffix := trace_suffix hinit
    have hinv := ih (hwarranted.suffix hsuffix)
    refine gated_of_reaches (safe_of_withholds withholds_initializeManager) ?_ hinit hwarranted
    exact ⟨hinv.1, hempty _ rfl⟩

end ManagerSession

/-- A transfer is released on layer 1 only after a `Submit` log has confirmed a height at which it
was recorded. -/
theorem released_submitted {s : ManagerSession} (hs : ManagerSession.Reachable su s) :
    Gated su (fun _ => True) s.trace := by
  have hwarranted : Warranted su (fun _ => True) s.trace := warranted_of_counts fun _ _ => trivial
  exact (hs.gated hwarranted).1

/-- The log reports success for this agent, provided that no other log covers a height that is
waited for and was not confirmed by one that does. -/
theorem released_confirmed {s : ManagerSession} (hs : ManagerSession.Reachable su s)
    (hwarranted : Warranted su su.ReportsSuccess s.trace) : Gated su su.ReportsSuccess s.trace :=
  (hs.gated hwarranted).1

/-- A session in which a given submission is logged once a deposit was recorded releases it. -/
theorem exists_released {b : Bytes} {P : Protocol.ManagerContractTlog → Prop} [DecidablePred P]
    (hcheck : ((ManagerSession.handleAll Formats.managerSetup (Formats.releasingEvents b)
      (ManagerSession.start ∅)).any fun s =>
        (∀ managerLog ∈ s.trace.filterMap ManagerStep.managerLog, P managerLog) ∧
        ∃ tail ∈ s.trace.tails, tail.head?.any fun step =>
          step.op.Releases (Formats.hexText Formats.waitingId)) = true) :
    ∃ s step earlier, ManagerSession.Reachable Formats.managerSetup s ∧
      (∀ managerLog ∈ s.trace.filterMap ManagerStep.managerLog, P managerLog) ∧
      step :: earlier <:+ s.trace ∧ step.op.Releases (Formats.hexText Formats.waitingId) := by
  obtain ⟨s, hrun, hs⟩ := (Option.any_eq_true _ _).mp hcheck
  obtain ⟨hlogs, tail, hmem, hhead⟩ := of_decide_eq_true hs
  obtain ⟨step, hstep, hreleases⟩ := (Option.any_eq_true _ _).mp hhead
  obtain ⟨earlier, rfl⟩ := List.head?_eq_some_iff.mp hstep
  exact ⟨s, step, earlier, (ManagerSession.Reachable.start ∅).handleAll hrun, hlogs,
    (List.mem_tails _ _).mp hmem, of_decide_eq_true hreleases⟩

/-- A submission that succeeded releases the deposit. -/
theorem released_confirmed_succeeded : ∃ s step earlier,
    ManagerSession.Reachable Formats.managerSetup s ∧
    Warranted Formats.managerSetup Formats.managerSetup.ReportsSuccess s.trace ∧
    step :: earlier <:+ s.trace ∧ step.op.Releases (Formats.hexText Formats.waitingId) ∧
    MayRelease Formats.managerSetup Formats.managerSetup.ReportsSuccess
      (Formats.hexText Formats.waitingId) earlier := by
  obtain ⟨s, step, earlier, hs, hlogs, hsuffix, hreleases⟩ := exists_released
    (b := Formats.succeededBytes) (P := Formats.managerSetup.ReportsSuccess) (by decide +kernel)
  have hwarranted : Warranted Formats.managerSetup _ s.trace := warranted_of_counts hlogs
  exact ⟨s, step, earlier, hs, hwarranted, hsuffix, hreleases,
    released_confirmed hs hwarranted step earlier hsuffix _ hreleases⟩

/-- So does one that failed. -/
theorem released_failed : ∃ s, ManagerSession.Reachable Formats.managerSetup s ∧
    ¬Gated Formats.managerSetup Formats.managerSetup.ReportsSuccess s.trace := by
  obtain ⟨s, step, earlier, hs, hlogs, hsuffix, hreleases⟩ := exists_released
    (b := Formats.failedBytes) (P := fun managerLog => ¬Formats.managerSetup.ReportsSuccess managerLog)
    (by decide +kernel)
  refine ⟨s, hs, fun hgated => not_mayRelease (fun managerLog hmem => ?_)
    (hgated step earlier hsuffix _ hreleases)⟩
  have hsub := ((List.suffix_cons step earlier).trans hsuffix).sublist.filterMap ManagerStep.managerLog
  exact hlogs managerLog (hsub.subset hmem)

end CrosschainAgent
