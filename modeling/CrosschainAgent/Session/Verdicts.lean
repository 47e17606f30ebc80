import CrosschainAgent.Session.Rounds
import CrosschainAgent.Session.Threads

/-!
# On which occasion a result is decided

Every ack to the source of a transfer carries a result that was decided at one of six places: a
layer-1 StartTx event whose escrow is refused, a SendTx event, a send entry past its timeout whose
transaction is found or missing, and, on layer 2, a start entry past its timeout that is confirmed
or timed out. A call acknowledges a transfer only on such an occasion, or with the result of an
entry it found in the ack map, and it keeps nothing in a map without the grounds for it.
-/

namespace CrosschainAgent

open Interaction Std HttpClient

variable {su : Setup} {h : Handle} {steps more : List Step} {id : Text} {v : Int32}

/-- The operation submits an ack with the result to the source of the transfer. -/
def Op.Acks (h : Handle) (id : Text) (v : Int32) : Op → Prop
  | .http l (.submitTransaction _ (.sendAckedTx crossTxId result _ _) _ _) =>
    l = h ∧ crossTxId = id ∧ result = v
  | _ => False

/-- The operation submits an ack of the transfer to its source. -/
def Op.AcksFor (h : Handle) (id : Text) (o : Op) : Prop := ∃ v, o.Acks h id v

instance (h : Handle) (id : Text) (v : Int32) (o : Op) : Decidable (o.Acks h id v) :=
  match o with
  | .http l (.submitTransaction _ (.sendAckedTx crossTxId result _ _) _ _) =>
    inferInstanceAs (Decidable (l = h ∧ crossTxId = id ∧ result = v))
  | .http _ (.submitTransaction _ (.sendTx _ _ _ _ _) _ _) | .http _ .getLedger
  | .http _ (.callContract _ _) | .http _ (.getTransactionHistory _) | .highResolution | .dbPut _ _
  | .dbDelete _ | .dbScan _ | .lock _ | .unlock _ | .entries _ | .emplace _ _ _ | .erase _ _
  | .setAckTimeout _ _ _ | .terminate => inferInstanceAs (Decidable False)

/-- The step submitted the `SendTx` of the transfer, and it was accepted. -/
def Step.Accepts (h : Handle) (id : Text) : Step → Prop
  | ⟨_, .http l (.submitTransaction _ (.sendTx crossTxId _ _ _ _) _ _), r⟩ =>
    l = h.other ∧ crossTxId = id ∧ (acceptedHash r).isSome
  | _ => False

/-- The step read the message from the map or from its part of the database. -/
def Step.Reads (su : Setup) (store : Store) (info : Protocol.CrossTxInfo) : Step → Prop
  | ⟨_, .entries s, infos⟩ => s = store ∧ ∃ p ∈ infos, p.2.info su.codec = info
  | ⟨_, .dbScan keyPrefix, values⟩ => keyPrefix = store.keyPrefix ∧ ∃ found, values = some found ∧
      ∃ value ∈ found, su.codec.parseFromString value = some info
  | _ => False

/-- The entry was made from its message. -/
def CrossTx.Made (su : Setup) (e : CrossTx) : Prop :=
  ∃ info t, e = { CrossTx.ofInfo su.codec info with sendAckTimeout := t }

/-- Two messages are about one transfer, with one result and one timeout. -/
structure Protocol.CrossTxInfo.Alike (info info' : Protocol.CrossTxInfo) : Prop where
  crosstxid : info.crosstxid = info'.crosstxid
  status : info.status = info'.status
  timeout : info.timeout = info'.timeout

/-- A hash makes no difference. -/
theorem alike_setAckHash (info : Protocol.CrossTxInfo) (l : Layer) (hash : Text) :
    info.Alike (info.setAckHash l hash) := by
  cases l <;> exact ⟨rfl, rfl, rfl⟩

/-- A pass has come to the round of an entry. -/
def Pass.Reaches (su : Setup) (pass : Pass h) (steps : List Step) (currentTime : Int64) (e : CrossTx)
    (rest : List Step) : Prop :=
  ∃ done key more begun, Replays pass.prologue steps (currentTime, done ++ (key, e) :: more) begun ∧
    Replays (done.forM (pass.round su currentTime)) begun ⟨⟩ rest

/-- The places at which a result is decided. -/
inductive Occasion where
  | refused
  | sent
  | found
  | missing
  | confirmedLate
  | timedOut
  deriving DecidableEq

/-- The result that is acknowledged. -/
def Occasion.result : Occasion → Int32
  | .refused | .timedOut => crossResultFailed
  | .sent | .found => crossResultSuccess
  | .missing | .confirmedLate => crossResultTimeout

/-- The transfer is given up before any `SendTx` of it is accepted. -/
def Occasion.AtStart : Occasion → Prop
  | .refused | .confirmedLate | .timedOut => True
  | .sent | .found | .missing => False

/-- The steps of a call meet an occasion to acknowledge a transfer. -/
inductive Meets (su : Setup) (steps : List Step) (id : Text) : {h : Handle} → HandlerCall h → Occasion → Prop
  | refused {crossTxid : Text} {info : Protocol.CrossTxInfo} {rest rest' : List Step}
      (read : Replays (Handle.readCrossTxInfo su .layer1 .layer1 crossTxid) steps (some info) rest)
      (send : Replays (Handle.sendTransaction su .layer2 (Handle.sendTxInput info) info.amount) rest
        none rest')
      (about : info.crosstxid = id) :
      Meets su steps id (.handleStartTxEvent crossTxid : HandlerCall .layer1) .refused
  | sent {h : Handle} {crossTxid : Text} {info : Protocol.CrossTxInfo} {rest : List Step}
      (read : Replays (Handle.readCrossTxInfo su h h.other crossTxid) steps (some info) rest)
      (about : info.crosstxid = id) :
      Meets su steps id (.handleSendTxEvent crossTxid : HandlerCall h) .sent
  | found {h : Handle} {now : Int64} {e : CrossTx} {info : Protocol.CrossTxInfo}
      {rest rest' rest'' : List Step}
      (reaches : (Pass.sendTxTimeOut : Pass h).Reaches su steps now e rest)
      (late : e.sendTxTimeout < now)
      (result : Replays (getTxResult h.other e.sendTxHash) rest true rest')
      (read : Replays (Handle.readCrossTxInfo su h h.other e.crossTxId) rest' (some info) rest'')
      (about : info.crosstxid = id) : Meets su steps id (.sendTxTimeOut : HandlerCall h) .found
  | missing {h : Handle} {now : Int64} {e : CrossTx} {rest rest' : List Step}
      (reaches : (Pass.sendTxTimeOut : Pass h).Reaches su steps now e rest)
      (late : e.sendTxTimeout < now)
      (result : Replays (getTxResult h.other e.sendTxHash) rest false rest')
      (about : (e.info su.codec).crosstxid = id) :
      Meets su steps id (.sendTxTimeOut : HandlerCall h) .missing
  | confirmedLate {confirmSeq start now : Int64} {e : CrossTx} {rest rest' : List Step}
      (reaches : (Pass.handleConfirmSeqEvent confirmSeq).Reaches su steps start e rest)
      (confirmed : (e.info su.codec).confirmseq ≤ confirmSeq)
      (clock : Replays highResolution rest now rest') (late : (e.info su.codec).timeout < now)
      (about : (e.info su.codec).crosstxid = id) :
      Meets su steps id (.handleConfirmSeqEvent confirmSeq) .confirmedLate
  | timedOut {now : Int64} {e : CrossTx} {rest : List Step}
      (reaches : Pass.startTxTimeOut.Reaches su steps now e rest) (late : e.sendTxTimeout < now)
      (about : (e.info su.codec).crosstxid = id) : Meets su steps id .startTxTimeOut .timedOut

/-- What a pass has reached it has reached whatever follows. -/
theorem Pass.Reaches.append {pass : Pass h} {now : Int64} {e : CrossTx} {rest : List Step}
    (hreaches : pass.Reaches su steps now e rest) (more : List Step) :
    pass.Reaches su (steps ++ more) now e (rest ++ more) := by
  obtain ⟨done, key, after, begun, hprologue, hdone⟩ := hreaches
  exact ⟨done, key, after, begun ++ more, hprologue.append more, hdone.append more⟩

/-- The entries of a pass come from the operation that read its map. -/
theorem Pass.mem_of_prologue {pass : Pass h} {now : Int64} {infos : List (Text × CrossTx)}
    {rest : List Step} (hprologue : Replays pass.prologue steps (now, infos) rest) :
    ∃ before, (⟨before, .entries pass.store, infos⟩ : Step) ∈ steps := by
  obtain ⟨_, s1, hclock, hrun⟩ := runs_bind.mp hprologue
  obtain ⟨_, s2, hlock, hrun⟩ := runs_bind.mp hrun
  obtain ⟨infos', s3, hentries, hrun⟩ := runs_bind.mp hrun
  obtain ⟨hpair, _⟩ := runs_pure.mp hrun
  obtain ⟨-, rfl⟩ := Prod.mk.inj hpair
  obtain ⟨before, hs2⟩ := runs_perform.mp hentries
  refine ⟨before, (Replays.suffix hclock).subset ((Replays.suffix hlock).subset ?_)⟩
  rw [hs2]
  exact List.mem_cons_self

/-- The entry of a round was in the map. -/
theorem Pass.Reaches.mem {pass : Pass h} {now : Int64} {e : CrossTx} {rest : List Step}
    (hreaches : pass.Reaches su steps now e rest) :
    ∃ before infos key, (⟨before, .entries pass.store, infos⟩ : Step) ∈ steps ∧ (key, e) ∈ infos := by
  obtain ⟨done, key, more, begun, hprologue, _⟩ := hreaches
  obtain ⟨before, hmem⟩ := Pass.mem_of_prologue hprologue
  exact ⟨before, _, key, hmem, List.mem_append_right _ List.mem_cons_self⟩

/-- A pass performs, beside what its rounds perform after one another, only quiet operations. -/
theorem Pass.usesAfter_run {P : List Step → Op → Prop} (pass : Pass h)
    (hquiet : ∀ steps o, o.Quiet → P steps o) (hround : ∀ now key e steps before infos,
      pass.Reaches su steps now e [] → ⟨before, .entries pass.store, infos⟩ ∈ steps →
      (key, e) ∈ infos → UsesAfter P (pass.round su now (key, e)) steps) :
    UsesAfter P (pass.call.run su) [] := by
  have hprologue : Uses Op.Quiet pass.prologue := by
    have hclock : Uses Op.Quiet pass.clock := by
      cases pass with
      | handleConfirmSeqEvent confirmSeq => exact Uses.pure _
      | sendTxTimeOut | sendAckTimeOut | replyAckTimeOut | startTxTimeOut => exact Uses.perform trivial
    exact Uses.bind hclock fun _ => Uses.bind (Uses.perform trivial) fun _ =>
      Uses.bind (Uses.perform trivial) fun _ => Uses.pure _
  have hallowed : ∀ {α : Type} {p : AgentM α} {steps}, Uses Op.Quiet p → UsesAfter P p steps :=
    fun hp => UsesAfter.of_uses hp fun o more ho => hquiet _ o ho
  rw [Pass.run_eq_prologue]
  refine UsesAfter.bind (hallowed hprologue) fun ⟨now, infos⟩ more hreplays => ?_
  refine UsesAfter.bind (UsesAfter.bind (UsesAfter.forM fun done x rest mine heq hdone => ?_)
    fun _ _ _ => hallowed (Uses.perform trivial)) fun _ _ _ => UsesAfter.pure _
  obtain ⟨key, e⟩ := x
  have hreaches : pass.Reaches su (more ++ mine) now e [] :=
    ⟨done, key, rest, mine, heq ▸ hreplays.append mine, hdone⟩
  obtain ⟨before, hmem⟩ := Pass.mem_of_prologue hreplays
  refine hround now key e _ before infos hreaches (List.mem_append_left _ hmem) ?_
  rw [heq]
  exact List.mem_append_right _ List.mem_cons_self

/-- An occasion that was met was met, whatever follows. -/
theorem Meets.append {call : HandlerCall h} {occ : Occasion} (hmeets : Meets su steps id call occ)
    (more : List Step) : Meets su (steps ++ more) id call occ := by
  cases hmeets with
  | refused read send about => exact .refused (read.append more) (send.append more) about
  | sent read about => exact .sent (read.append more) about
  | found reaches late result read about =>
    exact .found (reaches.append more) late (result.append more) (read.append more) about
  | missing reaches late result about =>
    exact .missing (reaches.append more) late (result.append more) about
  | confirmedLate reaches confirmed clock late about =>
    exact .confirmedLate (reaches.append more) confirmed (clock.append more) late about
  | timedOut reaches late about => exact .timedOut (reaches.append more) late about

section Grounds

variable {call : Option (HandlerCall h)} {store : Store} {info : Protocol.CrossTxInfo}

/-- The call met the occasion, and then submitted an ack of the transfer. -/
def Voices (su : Setup) (call : Option (HandlerCall h)) (steps : List Step) (id : Text) (occ : Occasion) :
    Prop :=
  ∃ c, call = some c ∧ ∃ before step after, steps = before ++ step :: after ∧
    Meets su before id c occ ∧ step.op.AcksFor h id

/-- The StartTx event of the call read a record of the transfer with the timeout. -/
def Records (su : Setup) (call : Option (HandlerCall h)) (steps : List Step) (id : Text)
    (timeout : Int64) : Prop :=
  ∃ crossTxid info rest, call = some (.handleStartTxEvent crossTxid) ∧
    Replays (Handle.readCrossTxInfo su h h crossTxid) steps (some info) rest ∧
    info.crosstxid = id ∧ info.timeout = timeout

/-- What a call did before it keeps a message in a map. -/
def Grounds (su : Setup) (call : Option (HandlerCall h)) (steps : List Step) :
    Store → Protocol.CrossTxInfo → Prop
  | .ack _, info => ∃ occ, Voices su call steps info.crosstxid occ ∧ occ.result = info.status
  | .send _, info => ∃ step ∈ steps, step.Accepts h info.crosstxid
  | .start, info => Records su call steps info.crosstxid info.timeout
  | .reply _, _ => True

/-- The message was kept in the map before, or there are grounds to keep it. -/
def Traced (su : Setup) (call : Option (HandlerCall h)) (steps : List Step) (store : Store)
    (info : Protocol.CrossTxInfo) : Prop :=
  Grounds su call steps store info ∨
    ∃ step ∈ steps, ∃ info', step.Reads su store info' ∧ info'.Alike info

/-- The call met an occasion for the result, or it read the result from the ack map. -/
def Answers (su : Setup) (call : Option (HandlerCall h)) (steps : List Step)
    (info : Protocol.CrossTxInfo) : Prop :=
  (∃ c, call = some c ∧ ∃ occ, Meets su steps info.crosstxid c occ ∧ occ.result = info.status) ∨
    ∃ step ∈ steps, ∃ info', step.Reads su (.ack h) info' ∧ info'.Alike info

/-- An ack carries a result that was decided, and what is kept has its grounds. -/
def Warrants (su : Setup) (call : Option (HandlerCall h)) (steps : List Step) : Op → Prop
  | .emplace store _ e => e.Made su ∧ Traced su call steps store (e.info su.codec)
  | .dbPut key value => ∃ store info, key = store.keyPrefix ++ info.crosstxid ∧
      value = su.codec.serializeAsString info ∧ Traced su call steps store info
  | .http l (.submitTransaction _ (.sendAckedTx crossTxId result _ _) _ _) => l = h →
      ∃ info, info.crosstxid = crossTxId ∧ info.status = result ∧ Answers su call steps info
  | _ => True

/-- What was voiced stays voiced. -/
theorem Voices.append {occ : Occasion} (hvoices : Voices su call steps id occ) (more : List Step) :
    Voices su call (steps ++ more) id occ := by
  obtain ⟨c, hcall, before, step, after, rfl, hmeets, hacks⟩ := hvoices
  exact ⟨c, hcall, before, step, after ++ more, by simp, hmeets, hacks⟩

/-- What was recorded stays recorded. -/
theorem Records.append {timeout : Int64} (hrecords : Records su call steps id timeout)
    (more : List Step) : Records su call (steps ++ more) id timeout := by
  obtain ⟨crossTxid, info, rest, hcall, hread, hinfo⟩ := hrecords
  exact ⟨crossTxid, info, rest ++ more, hcall, hread.append more, hinfo⟩

/-- Grounds are there to stay. -/
theorem Grounds.append (hgrounds : Grounds su call steps store info) (more : List Step) :
    Grounds su call (steps ++ more) store info := by
  cases store with
  | ack l =>
    obtain ⟨occ, hvoices, hresult⟩ := hgrounds
    exact ⟨occ, hvoices.append more, hresult⟩
  | send l =>
    obtain ⟨step, hstep, haccepts⟩ := hgrounds
    exact ⟨step, List.mem_append_left _ hstep, haccepts⟩
  | start =>
    have hrecords : Records su call steps info.crosstxid info.timeout := hgrounds
    exact hrecords.append more
  | reply l => exact trivial

/-- What can be traced can be traced later. -/
theorem Traced.append (htraced : Traced su call steps store info) (more : List Step) :
    Traced su call (steps ++ more) store info := by
  rcases htraced with hgrounds | ⟨step, hstep, hreads⟩
  · exact Or.inl (hgrounds.append more)
  · exact Or.inr ⟨step, List.mem_append_left _ hstep, hreads⟩

/-- An answer that is known stays known. -/
theorem Answers.append (hanswers : Answers su call steps info) (more : List Step) :
    Answers su call (steps ++ more) info := by
  rcases hanswers with ⟨c, hcall, occ, hmeets, hresult⟩ | ⟨step, hstep, hreads⟩
  · exact Or.inl ⟨c, hcall, occ, hmeets.append more, hresult⟩
  · exact Or.inr ⟨step, List.mem_append_left _ hstep, hreads⟩

/-- An operation that was warranted is warranted later. -/
theorem Warrants.append {o : Op} (hwarrants : Warrants su call steps o) (more : List Step) :
    Warrants su call (steps ++ more) o := by
  cases o with
  | http l request =>
    cases request with
    | submitTransaction contract input =>
      cases input with
      | sendTx => exact trivial
      | sendAckedTx =>
        intro hl
        obtain ⟨info, hid, hstatus, hanswers⟩ := hwarrants hl
        exact ⟨info, hid, hstatus, hanswers.append more⟩
    | getLedger | callContract | getTransactionHistory => exact trivial
  | dbPut =>
    obtain ⟨store, info, hkey, hvalue, htraced⟩ := hwarrants
    exact ⟨store, info, hkey, hvalue, htraced.append more⟩
  | emplace => exact ⟨hwarrants.1, hwarrants.2.append more⟩
  | highResolution | dbDelete | dbScan | lock | unlock | entries | erase | setAckTimeout
  | terminate => exact trivial

/-- A quiet operation needs no warrant. -/
theorem warrants_of_quiet_op (o : Op) (hquiet : o.Quiet) : Warrants su call steps o := by
  cases o with
  | http l request =>
    cases request with
    | submitTransaction => exact hquiet.elim
    | getLedger | callContract | getTransactionHistory => exact trivial
  | dbPut | emplace => exact hquiet.elim
  | highResolution | dbDelete | dbScan | lock | unlock | entries | erase | setAckTimeout
  | terminate => exact trivial

/-- What is warranted from the first is warranted throughout. -/
theorem warrants_of_uses {α : Type} {p : AgentM α} (hp : Uses (Warrants su call steps) p) :
    UsesAfter (Warrants su call) p steps :=
  UsesAfter.of_uses hp fun _ more hwarrants => hwarrants.append more

/-- A quiet program needs no warrant. -/
theorem warrants_of_quiet {α : Type} {p : AgentM α} (hp : Uses Op.Quiet p) :
    UsesAfter (Warrants su call) p steps :=
  warrants_of_uses (hp.mono warrants_of_quiet_op)

/-- Nor does a program that clears an entry. -/
theorem warrants_clearInfo (store : Store) (key : Text) :
    UsesAfter (Warrants su call) (Handle.clearInfo store key) steps :=
  ⟨trivial, fun _ _ => ⟨trivial, fun _ _ => trivial⟩⟩

/-- A message that can be traced may be saved. -/
theorem saves_warrants (htraced : Traced su call steps store info) :
    Op.Saves su (Warrants su call steps) store info where
  dbPut := ⟨store, info, rfl, rfl, htraced⟩
  emplace t := ⟨⟨info, t, rfl⟩, by rwa [CrossTx.info_ofInfo]⟩

/-- The submission of a transaction that was accepted. -/
theorem submitted_of_accepted {l : Layer} {input : TxInput} {amount : Int64} {hash : Text}
    (hreplays : Replays (Handle.sendTransaction su l input amount) steps (some hash) []) :
    ∃ front before maxSeq r, acceptedHash r = some hash ∧ steps = front ++ [⟨before,
      .http l (.submitTransaction (su.conf.crossContract l) input amount maxSeq), r⟩] := by
  obtain ⟨seq, front, second, rfl, hseq, hrest⟩ := replays_bind hreplays
  cases seq with
  | none => cases (runs_pure.mp hrest).1
  | some seq =>
    obtain ⟨r, mid, ⟨before, rfl⟩, hread⟩ := hrest
    obtain ⟨haccepted, rfl⟩ := runs_orTerminate hread
    exact ⟨front, before, _, r, by rw [acceptedHash, haccepted, Option.join_some], rfl⟩

/-- A send entry is kept for a `SendTx` that was accepted. -/
theorem warrants_sendTxTo (info : Protocol.CrossTxInfo) :
    UsesAfter (Warrants su call) (Handle.sendTxTo su h info) steps := by
  refine UsesAfter.bind (warrants_of_uses (uses_sendTransaction warrants_of_quiet_op fun _ => trivial))
    fun txhash more hreplays => ?_
  cases txhash with
  | none => exact UsesAfter.pure _
  | some hash =>
    obtain ⟨front, before, maxSeq, r, haccepted, rfl⟩ := submitted_of_accepted hreplays
    have haccepts : Step.Accepts h info.crosstxid ⟨before, .http h.other (.submitTransaction
        (su.conf.crossContract h.other) (Handle.sendTxInput info) info.amount maxSeq), r⟩ :=
      ⟨rfl, rfl, by rw [haccepted, Option.isSome_some]⟩
    have hgrounds : Grounds su call (steps ++ (front ++ [⟨before, .http h.other (.submitTransaction
        (su.conf.crossContract h.other) (Handle.sendTxInput info) info.amount maxSeq), r⟩])) (.send h)
        { info with sendtxhash := hash } :=
      ⟨_, List.mem_append_right _ (List.mem_append_right _ List.mem_cons_self), haccepts⟩
    exact UsesAfter.bind (warrants_of_uses (uses_saveInfo (saves_warrants (Or.inl hgrounds))))
      fun _ _ _ => UsesAfter.pure _

/-- An ack is warranted by an answer that is known, and its entry by the ack. -/
theorem warrants_sendAckTo (hanswers : Answers su call steps info) :
    UsesAfter (Warrants su call) (Handle.sendAckTo su h info) steps := by
  refine UsesAfter.bind (warrants_of_uses (uses_sendTransaction warrants_of_quiet_op
    fun _ _ => ⟨info, rfl, rfl, hanswers⟩)) fun txhash more hreplays => ?_
  cases txhash with
  | none => exact UsesAfter.pure _
  | some hash =>
    obtain ⟨front, before, maxSeq, r, -, rfl⟩ := submitted_of_accepted hreplays
    have halike := alike_setAckHash info h hash
    have htraced : Traced su call (steps ++ (front ++ [⟨before, .http h (.submitTransaction
        (su.conf.crossContract h) (Handle.sendAckedTxInput h info) 0 maxSeq), r⟩])) (.ack h)
        (info.setAckHash h hash) := by
      rcases hanswers with ⟨c, hcall, occ, hmeets, hresult⟩ | ⟨step, hstep, info', hreads, halike'⟩
      · rw [halike.crosstxid] at hmeets
        rw [halike.status] at hresult
        refine Or.inl ⟨occ, ⟨c, hcall, steps ++ front, ⟨before, .http h (.submitTransaction
          (su.conf.crossContract h) (Handle.sendAckedTxInput h info) 0 maxSeq), r⟩, [], ?_,
          hmeets.append front, ?_⟩, hresult⟩
        · rw [List.append_assoc]
        · exact ⟨info.status, rfl, halike.crosstxid, rfl⟩
      · exact Or.inr ⟨step, List.mem_append_left _ hstep, info', hreads,
          halike'.crosstxid.trans halike.crosstxid, halike'.status.trans halike.status,
          halike'.timeout.trans halike.timeout⟩
    exact UsesAfter.bind (warrants_of_uses (uses_saveAckInfo warrants_of_quiet_op h
      (saves_warrants htraced))) fun _ _ _ => UsesAfter.pure _

/-- A reply needs none: it goes to the other layer. -/
theorem warrants_replyAckTo (info : Protocol.CrossTxInfo) :
    UsesAfter (Warrants su call) (Handle.replyAckTo su h info) steps := by
  refine warrants_of_uses (uses_replyAckTo warrants_of_quiet_op
    (fun _ heq => absurd heq h.other_ne) fun hash => saves_warrants (Or.inl trivial))

/-- The ack of a SendTx event is warranted by the record that was read. -/
theorem warrants_handleSendTxEvent {crossTxid : Text}
    (hread : ∀ info more, Replays (Handle.readCrossTxInfo su h h.other crossTxid) more (some info) [] →
      Answers su call (steps ++ more) { info with status := crossResultSuccess }) :
    UsesAfter (Warrants su call) (Handle.handleSendTxEventWith su h crossTxid crossResultSuccess)
      steps := by
  refine UsesAfter.bind (warrants_of_quiet (quiet_readCrossTxInfo _ _ _ _)) fun res more hreplays => ?_
  cases res with
  | none => exact UsesAfter.pure _
  | some info =>
    refine UsesAfter.bind (warrants_sendAckTo (hread info more hreplays)) fun ok more' _ => ?_
    cases ok with
    | true => exact UsesAfter.bind (warrants_clearInfo _ _) fun _ _ _ => UsesAfter.pure _
    | false => exact UsesAfter.pure _

/-- An entry of an ack pass that is past its due time is warranted by what is sent again. -/
theorem warrants_ackExpired {l : Layer} {now : Int64} {key : Text} {e : CrossTx}
    {resend : AgentM Bool} (hresend : ∀ more, UsesAfter (Warrants su call) resend (steps ++ more)) :
    UsesAfter (Warrants su call) (Handle.ackExpired su store l now key e resend) steps := by
  have hclear : ∀ steps', UsesAfter (Warrants su call) (Handle.clearInfo store key) steps' :=
    fun _ => warrants_clearInfo store key
  refine UsesAfter.bind (warrants_of_quiet (quiet_getTxResult _ _)) fun found more _ => ?_
  cases found with
  | true => exact hclear _
  | false =>
    refine UsesAfter.bind (warrants_of_quiet (quiet_getCrossTxStatus _ _ _)) fun status more' _ => ?_
    split
    · exact hclear _
    · rw [List.append_assoc]
      exact UsesAfter.bind (hresend _) fun _ _ _ => ⟨trivial, fun _ _ => trivial⟩

/-- A pass is warranted if its rounds are. -/
theorem warrants_pass (pass : Pass h) (hround : ∀ now key e steps before infos,
      pass.Reaches su steps now e [] → ⟨before, .entries pass.store, infos⟩ ∈ steps →
      (key, e) ∈ infos → UsesAfter (Warrants su (some pass.call)) (pass.round su now (key, e)) steps) :
    UsesAfter (Warrants su (some pass.call)) (pass.call.run su) [] :=
  pass.usesAfter_run (fun _ o hquiet => warrants_of_quiet_op o hquiet) hround

/-- The StartTx event of a layer-1 transfer is acknowledged when its escrow was refused. -/
theorem warrants_layer1_handleStartTxEvent (crossTxid : Text) :
    UsesAfter (Warrants su (some (.handleStartTxEvent crossTxid : HandlerCall .layer1)))
      (Layer1ToLayer2Handle.handleStartTxEvent su crossTxid) [] := by
  refine UsesAfter.bind (warrants_of_quiet (quiet_readCrossTxInfo _ _ _ _)) fun res more hread => ?_
  cases res with
  | none => exact UsesAfter.pure _
  | some info =>
    refine UsesAfter.bind (warrants_sendTxTo info) fun ok more' hsend => ?_
    cases ok with
    | true => exact UsesAfter.pure _
    | false =>
      rcases sendTxTo_cases hsend with ⟨_, hnone⟩ | ⟨_, _, htrue, _⟩
      · exact UsesAfter.bind (warrants_sendAckTo (Or.inl ⟨_, rfl, .refused,
          .refused (hread.append more') hnone rfl, rfl⟩)) fun _ _ _ => UsesAfter.pure _
      · cases htrue

/-- The StartTx event of a layer-2 transfer is kept with the record that was read. -/
theorem warrants_layer2_handleStartTxEvent (crossTxid : Text) :
    UsesAfter (Warrants su (some (.handleStartTxEvent crossTxid : HandlerCall .layer2)))
      (Layer2ToLayer1Handle.handleStartTxEvent su crossTxid) [] := by
  refine UsesAfter.bind (warrants_of_quiet (quiet_readCrossTxInfo _ _ _ _)) fun res more hread => ?_
  cases res with
  | none => exact UsesAfter.pure _
  | some info =>
    refine UsesAfter.bind (warrants_of_quiet (quiet_getLayerSeq _)) fun seq more' _ => ?_
    cases seq with
    | none => exact UsesAfter.pure _
    | some seq =>
      refine UsesAfter.bind (warrants_of_uses (uses_saveInfo (saves_warrants (Or.inl ?_)))) fun _ _ _ =>
        UsesAfter.pure _
      exact ⟨crossTxid, info, more', rfl, hread.append more', rfl, rfl⟩

end Grounds

/-- Every call of a handler has a warrant for what it submits and keeps. -/
theorem run_warrants (call : HandlerCall h) :
    UsesAfter (Warrants su (some call)) (call.run su) [] := by
  cases call with
  | handleStartTxEvent crossTxid =>
    cases h with
    | layer1 => exact warrants_layer1_handleStartTxEvent crossTxid
    | layer2 => exact warrants_layer2_handleStartTxEvent crossTxid
  | handleSendTxEvent crossTxid =>
    exact warrants_handleSendTxEvent fun info more hread => Or.inl ⟨_, rfl, .sent, .sent hread rfl, rfl⟩
  | handleSendAckdTxEvent crossTxid =>
    refine UsesAfter.bind (warrants_of_quiet (quiet_readCrossTxInfo _ _ _ _)) fun res _ _ => ?_
    cases res with
    | none => exact UsesAfter.pure _
    | some info =>
      exact UsesAfter.bind (warrants_replyAckTo info) fun ok _ _ => UsesAfter.ite
        (fun _ => UsesAfter.bind (warrants_clearInfo _ _) fun _ _ _ => UsesAfter.pure _)
        fun _ => UsesAfter.pure _
  | sendTxTimeOut =>
    refine warrants_pass .sendTxTimeOut fun now key e steps before infos hreaches _ _ => ?_
    refine UsesAfter.ite (fun hlate => ?_) fun _ => UsesAfter.pure _
    refine UsesAfter.bind (warrants_of_quiet (quiet_getTxResult _ _)) fun found more hfound => ?_
    cases found with
    | true =>
      refine UsesAfter.bind (warrants_handleSendTxEvent fun info more' hread => ?_) fun _ _ _ =>
        UsesAfter.pure _
      have hreaches' : (Pass.sendTxTimeOut : Pass h).Reaches su (steps ++ more ++ more') now e
          (more ++ more') := by
        rw [List.append_assoc]
        exact hreaches.append _
      exact Or.inl ⟨_, rfl, .found, .found hreaches' hlate (hfound.append more') hread rfl, rfl⟩
    | false =>
      refine UsesAfter.bind (warrants_sendAckTo (Or.inl ⟨_, rfl, .missing,
        .missing (hreaches.append more) hlate hfound rfl, rfl⟩)) fun ok _ _ => ?_
      exact UsesAfter.ite (fun _ => warrants_clearInfo _ _) fun _ => UsesAfter.pure _
  | sendAckTimeOut =>
    refine warrants_pass .sendAckTimeOut fun now key e steps before infos _ hmem hentry => ?_
    have hfound : Answers su (some (Pass.sendAckTimeOut : Pass h).call) steps (e.info su.codec) :=
      Or.inr ⟨_, hmem, e.info su.codec, ⟨rfl, _, hentry, rfl⟩, rfl, rfl, rfl⟩
    refine UsesAfter.ite (fun _ => UsesAfter.ite (fun _ => ?_) fun _ => ?_) fun _ => UsesAfter.pure _
    · exact UsesAfter.bind (warrants_sendAckTo hfound) fun _ _ _ => ⟨trivial, fun _ _ => trivial⟩
    · exact warrants_ackExpired fun more => warrants_sendAckTo (hfound.append more)
  | replyAckTimeOut =>
    refine warrants_pass .replyAckTimeOut fun now key e steps before infos _ _ _ => ?_
    exact UsesAfter.ite (fun _ => warrants_ackExpired fun more => warrants_replyAckTo _) fun _ =>
      UsesAfter.pure _
  | handleConfirmSeqEvent confirmSeq =>
    refine warrants_pass (.handleConfirmSeqEvent confirmSeq) fun now key e steps before infos hreaches _ _ => ?_
    refine UsesAfter.bind (warrants_of_quiet (Uses.perform trivial)) fun clock more hclock => ?_
    refine UsesAfter.ite (fun hseq => UsesAfter.ite (fun hlate => ?_) fun _ => ?_) fun _ =>
      UsesAfter.pure _
    · exact UsesAfter.bind (warrants_sendAckTo (Or.inl ⟨_, rfl, .confirmedLate,
        .confirmedLate (hreaches.append more) hseq hclock hlate rfl, rfl⟩)) fun _ _ _ => UsesAfter.pure _
    · exact UsesAfter.bind (warrants_sendTxTo _) fun ok _ _ =>
        UsesAfter.ite (fun _ => warrants_clearInfo _ _) fun _ => UsesAfter.pure _
  | startTxTimeOut =>
    refine warrants_pass .startTxTimeOut fun now key e steps before infos hreaches _ _ => ?_
    refine UsesAfter.ite (fun hlate => ?_) fun _ => UsesAfter.pure _
    exact UsesAfter.bind (warrants_sendAckTo (Or.inl ⟨_, rfl, .timedOut,
      .timedOut hreaches hlate rfl, rfl⟩)) fun ok _ _ =>
      UsesAfter.ite (fun _ => warrants_clearInfo _ _) fun _ => UsesAfter.pure _

/-- What is loaded into a map was read from its part of the database. -/
theorem loadInfo_warrants (store : Store) (due : Bool) :
    UsesAfter (Warrants su (none : Option (HandlerCall h))) (Handle.loadInfo su store due) steps := by
  refine UsesAfter.bind (warrants_of_quiet (Uses.perform trivial)) fun values more hscan => ?_
  obtain ⟨before, hmore⟩ := runs_perform.mp hscan
  cases values with
  | none => exact UsesAfter.pure _
  | some values =>
    refine UsesAfter.forM fun done value rest mine hvalues _ => ?_
    have hmem : value ∈ values := hvalues ▸ List.mem_append_right _ List.mem_cons_self
    unfold Handle.loadValue
    cases hparse : su.codec.parseFromString value with
    | none => exact UsesAfter.pure _
    | some info =>
      have htraced : Traced su (none : Option (HandlerCall h)) (steps ++ more ++ mine) store info := by
        refine Or.inr ⟨⟨before, .dbScan store.keyPrefix, some values⟩, ?_, info,
          ⟨rfl, values, rfl, value, hmem, hparse⟩, rfl, rfl, rfl⟩
        rw [hmore]
        exact List.mem_append_left _ (List.mem_append_right _ List.mem_cons_self)
      have hemplace := (saves_warrants htraced).emplace
      cases due with
      | false => exact warrants_of_uses (Uses.perform (hemplace 0))
      | true => exact warrants_of_uses (Uses.bind (Uses.perform trivial) fun now =>
          Uses.perform (hemplace _))

/-- `Initialize` keeps only what the database holds. -/
theorem initializeHandle_warrants :
    UsesAfter (Warrants su (none : Option (HandlerCall h))) (HandlerCall.initializeHandle su h) steps := by
  cases h with
  | layer1 => exact UsesAfter.bind (loadInfo_warrants _ _) fun _ _ _ =>
      UsesAfter.bind (loadInfo_warrants _ _) fun _ _ _ => loadInfo_warrants _ _
  | layer2 => exact UsesAfter.bind (loadInfo_warrants _ _) fun _ _ _ =>
      UsesAfter.bind (loadInfo_warrants _ _) fun _ _ _ =>
        UsesAfter.bind (loadInfo_warrants _ _) fun _ _ _ => loadInfo_warrants _ _

end CrosschainAgent
