import CrosschainAgent.Library.Iteration
import CrosschainAgent.Session.Filing
import CrosschainAgent.System.Formats

/-!
# The loops of the timer and confirm passes

A pass loops over a pending map by an iterator, and `Clear*` erases from the same map. The loop
is followed here element by element: it is safe, and examines every entry once, as long as no
round erases its own entry.
-/

namespace CrosschainAgent

open Interaction Iteration Std HttpClient

/-- The passes that loop over a pending map. -/
inductive Pass : Handle → Type
  | sendTxTimeOut {h : Handle} : Pass h
  | sendAckTimeOut {h : Handle} : Pass h
  | replyAckTimeOut {h : Handle} : Pass h
  | startTxTimeOut : Pass .layer2
  | handleConfirmSeqEvent (confirmSeq : Int64) : Pass .layer2

variable {su : Setup} {h : Handle} {s s' : Session}

/-- A submission of the program was accepted. -/
def SubmissionAccepted (p : AgentM (Option Text)) (steps : List Step) : Prop :=
  ∃ hash rest, Replays p steps (some hash) rest

namespace Pass

/-- The call of a pass. -/
def call : {h : Handle} → Pass h → HandlerCall h
  | _, .sendTxTimeOut => .sendTxTimeOut
  | _, .sendAckTimeOut => .sendAckTimeOut
  | _, .replyAckTimeOut => .replyAckTimeOut
  | _, .startTxTimeOut => .startTxTimeOut
  | _, .handleConfirmSeqEvent confirmSeq => .handleConfirmSeqEvent confirmSeq

/-- The map a pass loops over. -/
def store : {h : Handle} → Pass h → Store
  | h, .sendTxTimeOut => .send h
  | h, .sendAckTimeOut => .ack h
  | h, .replyAckTimeOut => .reply h
  | _, .startTxTimeOut => .start
  | _, .handleConfirmSeqEvent _ => .start

variable (su)

/-- The round of a pass for one entry. The confirm pass reads the clock in every round, the others
once. -/
def round (currentTime : Int64) : {h : Handle} → Pass h → Text × CrossTx → AgentM PUnit
  | h, .sendTxTimeOut, (_, e) => do
    if e.sendTxTimeout < currentTime then
      Handle.sendTxExpired su h e
  | h, .sendAckTimeOut, (key, e) => do
    if e.sendAckTimeout < currentTime then
      Handle.sendAckExpired su h currentTime key e
  | h, .replyAckTimeOut, (key, e) => do
    if e.sendAckTimeout < currentTime then
      Handle.ackExpired su (.reply h) h.other currentTime key e
        (Handle.replyAckTo su h (e.info su.codec))
  | _, .startTxTimeOut, (key, e) => do
    if e.sendTxTimeout < currentTime then
      if ← Handle.sendAckTo su .layer2 { e.info su.codec with status := crossResultFailed } then
        Handle.clearInfo .start key
  | _, .handleConfirmSeqEvent confirmSeq, (_, e) => do
    let currentTime ← highResolution
    let info := e.info su.codec
    if info.confirmseq ≤ confirmSeq then
      Layer2ToLayer1Handle.confirmed su info currentTime

/-- The clock of a pass. -/
def clock : {h : Handle} → Pass h → AgentM Int64
  | _, .handleConfirmSeqEvent _ => pure 0
  | _, _ => highResolution

/-- A pass is a loop of its rounds under the lock of its map. -/
theorem run_eq (pass : Pass h) : pass.call.run su = (do
    let currentTime ← pass.clock
    perform (Op.lock pass.store)
    let infos ← perform (Op.entries pass.store)
    infos.forM (pass.round su currentTime)
    perform (Op.unlock pass.store)
    return true : AgentM Bool) := by
  cases pass with
  | sendTxTimeOut =>
    simp only [call, HandlerCall.run, Handle.sendTxTimeOut, clock, store, bind_assoc]
    rfl
  | sendAckTimeOut =>
    simp only [call, HandlerCall.run, Handle.sendAckTimeOut, clock, store, bind_assoc]
    rfl
  | replyAckTimeOut =>
    simp only [call, HandlerCall.run, Handle.replyAckTimeOut, clock, store, bind_assoc]
    rfl
  | startTxTimeOut =>
    simp only [call, HandlerCall.run, Layer2ToLayer1Handle.startTxTimeOut, clock, store, bind_assoc]
    rfl
  | handleConfirmSeqEvent confirmSeq =>
    simp only [call, HandlerCall.run, Layer2ToLayer1Handle.handleConfirmSeqEvent, clock, store,
      bind_assoc, pure_bind]
    rfl

end Pass

section Touches

variable {F : Store → Text → Prop}

/-- The handler of a `SendTx` event touches the ack store and the key of its transfer. -/
theorem handleSendTxEvent_touches {crossTxid : Text} {status : Int32} (hack : ∀ id, F (.ack h) id)
    (hsend : F (.send h) crossTxid) :
    Uses (Op.Touches F) (Handle.handleSendTxEventWith su h crossTxid status) := by
  refine Uses.bind (touches_of_remote (remote_of_quiet (quiet_readCrossTxInfo su _ _ _)) F)
    fun res => ?_
  cases res with
  | none => exact Uses.pure _
  | some info =>
    refine Uses.bind (sendAckTo_touches (hack _)) fun ok => Uses.ite ?_ (Uses.pure _)
    exact Uses.bind (clearInfo_touches hsend) fun _ => Uses.pure _

/-- A `SendTx` without a receipt touches the ack store and its own keys. -/
theorem sendTxExpired_touches {e : CrossTx} (hack : ∀ id, F (.ack h) id)
    (hsend : F (.send h) e.crossTxId) (hinfo : F (.send h) (e.info su.codec).crosstxid) :
    Uses (Op.Touches F) (Handle.sendTxExpired su h e) := by
  refine Uses.bind (touches_of_remote (remote_of_quiet (quiet_getTxResult _ _)) F) fun found =>
    Uses.ite ?_ ?_
  · exact Uses.bind (handleSendTxEvent_touches hack hsend) fun _ => Uses.pure _
  · exact Uses.bind (sendAckTo_touches (hack _)) fun _ =>
      Uses.ite (clearInfo_touches hinfo) (Uses.pure _)

/-- A confirmed entry touches the other stores and its own key. -/
theorem confirmed_touches {info : Protocol.CrossTxInfo} {currentTime : Int64}
    (hother : ∀ store id, store ≠ .start → F store id) (hstart : F .start info.crosstxid) :
    Uses (Op.Touches F) (Layer2ToLayer1Handle.confirmed su info currentTime) := by
  refine Uses.ite ?_ ?_
  · exact Uses.bind (sendAckTo_touches (hother _ _ (by decide))) fun _ => Uses.pure _
  · exact Uses.bind (sendTxTo_touches (hother _ _ (by decide))) fun _ =>
      Uses.ite (clearInfo_touches hstart) (Uses.pure _)

/-- A round leaves the other entries of its map. -/
theorem Pass.round_touches {pass : Pass h} {currentTime : Int64} {key : Text} {e : CrossTx}
    (he : e.FiledUnder su key) :
    Uses (Op.Touches fun store id => store = pass.store → id = key)
      (pass.round su currentTime (key, e)) := by
  have hid : e.crossTxId = key := he.id
  have hinfo : (e.info su.codec).crosstxid = key := he.info
  cases pass with
  | sendTxTimeOut =>
    have hack : ∀ (id : Text), Store.ack h = Store.send h → id = key := fun _ heq => nomatch heq
    exact Uses.ite (sendTxExpired_touches hack (fun _ => hid) fun _ => hinfo) (Uses.pure _)
  | sendAckTimeOut =>
    exact Uses.ite (sendAckExpired_touches (fun _ => rfl) fun _ => hinfo) (Uses.pure _)
  | replyAckTimeOut =>
    exact Uses.ite (ackExpired_touches (fun _ => rfl) (replyAckTo_touches fun _ => hinfo)) (Uses.pure _)
  | startTxTimeOut =>
    refine Uses.ite (Uses.bind (sendAckTo_touches fun heq => nomatch heq) fun _ => ?_) (Uses.pure _)
    exact Uses.ite (clearInfo_touches fun _ => rfl) (Uses.pure _)
  | handleConfirmSeqEvent confirmSeq =>
    refine Uses.bind (Uses.perform trivial) fun now => Uses.ite ?_ (Uses.pure _)
    exact confirmed_touches (fun _ _ hne heq => absurd heq hne) fun _ => hinfo

end Touches

/-- An entry was erased from a map. -/
def Erases (store : Store) (key : Text) (steps : List Step) : Prop :=
  ∃ step ∈ steps, step.op = .erase store key

/-- The operation erases no entry. -/
def Op.Keeps : Op → Prop
  | .erase _ _ => False
  | _ => True

/-- What leaves the stores keeps the entries. -/
theorem Op.Remote.keeps {o : Op} (hremote : o.Remote) : o.Keeps := by
  cases o with
  | erase => exact hremote.elim
  | highResolution | http | dbPut | dbDelete | dbScan | lock | unlock | entries | emplace
  | setAckTimeout | terminate => exact trivial

section Erases

variable {store : Store} {key : Text} {steps rest : List Step}

/-- Programs that leave the stores keep the entries. -/
theorem keeps_of_remote {α : Type} {p : AgentM α} (hp : Uses Op.Remote p) : Uses Op.Keeps p :=
  hp.mono fun _ hremote => hremote.keeps

/-- What a program without erasure performed decides nothing. -/
theorem erases_iff_of_keeps {α : Type} {p : AgentM α} {a : α} (hp : Uses Op.Keeps p)
    (hreplays : Replays p steps a rest) : Erases store key steps ↔ Erases store key rest := by
  refine performed_iff (P := fun o => o = .erase store key) (hp.mono ?_) hreplays
  rintro _ hkeeps rfl
  exact hkeeps

/-- No steps erase nothing. -/
theorem not_erases_nil : ¬Erases store key [] := fun ⟨_, hstep, _⟩ => List.not_mem_nil hstep

/-- `Clear*` erases. -/
theorem erases_clearInfo {r : Unit} (hreplays : Replays (Handle.clearInfo store key) steps r rest) :
    Erases store key steps := by
  obtain ⟨ok, mid, hdelete, herase⟩ := runs_bind.mp hreplays
  obtain ⟨before, rfl⟩ := runs_perform.mp hdelete
  obtain ⟨before', rfl⟩ := runs_perform.mp herase
  exact ⟨_, List.mem_cons_of_mem _ List.mem_cons_self, rfl⟩

/-- What is quiet keeps the entries. -/
theorem keeps_of_quiet (o : Op) (hquiet : o.Quiet) : o.Keeps := hquiet.remote.keeps

/-- Sending an ack keeps the entries. -/
theorem sendAckTo_keepsEntries (info : Protocol.CrossTxInfo) :
    Uses Op.Keeps (Handle.sendAckTo su h info) :=
  uses_sendAckTo keeps_of_quiet (fun _ => trivial) fun _ => ⟨trivial, fun _ => trivial⟩

/-- The ack of a message to its source is accepted. -/
abbrev AckAccepted (su : Setup) (h : Handle) (info : Protocol.CrossTxInfo) (steps : List Step) : Prop :=
  SubmissionAccepted (Handle.sendTransaction su h (Handle.sendAckedTxInput h info) 0) steps

/-- A submission is accepted exactly when it returns a hash. -/
theorem accepted_iff {p : AgentM (Option Text)} {txhash : Option Text}
    (hreplays : Replays p steps txhash rest) : SubmissionAccepted p steps ↔ txhash.isSome := by
  constructor
  · rintro ⟨hash, rest', hreplays'⟩
    rw [← (hreplays.unique hreplays').1]
    rfl
  · intro hsome
    obtain ⟨hash, rfl⟩ := Option.isSome_iff_exists.mp hsome
    exact ⟨hash, rest, hreplays⟩

/-- An ack is sent exactly when its submission is accepted. -/
theorem sendAckTo_ok_iff {info : Protocol.CrossTxInfo} {ok : Bool}
    (hreplays : Replays (Handle.sendAckTo su h info) steps ok rest) :
    ok = true ↔ AckAccepted su h info steps := by
  rcases sendAckTo_cases hreplays with ⟨rfl, hsend⟩ | ⟨hash, t, rfl, hsend, _⟩
  · exact (accepted_iff hsend).symm
  · exact (accepted_iff hsend).symm

/-- A `SendTx` is sent exactly when its submission is accepted. -/
theorem sendTxTo_ok_iff {info : Protocol.CrossTxInfo} {ok : Bool}
    (hreplays : Replays (Handle.sendTxTo su h info) steps ok rest) : ok = true ↔
      SubmissionAccepted (Handle.sendTransaction su h.other (Handle.sendTxInput info) info.amount) steps := by
  rcases sendTxTo_cases hreplays with ⟨rfl, hsend⟩ | ⟨hash, t, rfl, hsend, _⟩
  · exact (accepted_iff hsend).symm
  · exact (accepted_iff hsend).symm

/-- A submission, and the removal of the entry if it is accepted. -/
theorem erases_clearIf {p : AgentM Bool} {r : PUnit} {C : Prop} (hp : Uses Op.Keeps p)
    (hok : ∀ ok rest, Replays p steps ok rest → (ok = true ↔ C))
    (hreplays : Replays (do if ← p then Handle.clearInfo store key) steps r []) :
    Erases store key steps ↔ C := by
  obtain ⟨ok, mid, hfirst, hrest⟩ := runs_bind.mp hreplays
  rw [erases_iff_of_keeps hp hfirst, ← hok ok mid hfirst]
  cases ok with
  | true => exact iff_of_true (erases_clearInfo hrest) rfl
  | false =>
    obtain ⟨_, rfl⟩ := runs_pure.mp hrest
    exact iff_of_false not_erases_nil Bool.false_ne_true

/-- `handleSendTxEvent` erases the send entry when the record is read and its ack accepted. -/
theorem sendTxEvent_erases {crossTxid : Text} {status : Int32} {ok : Bool}
    (hreplays : Replays (Handle.handleSendTxEventWith su h crossTxid status) steps ok []) :
    Erases (.send h) crossTxid steps ↔ ∃ info rest,
      Replays (Handle.readCrossTxInfo su h h.other crossTxid) steps (some info) rest ∧
        AckAccepted su h { info with status := status } rest := by
  obtain ⟨res, rest, hread, hreplays⟩ := runs_bind.mp hreplays
  rw [erases_iff_of_keeps (keeps_of_remote (remote_of_quiet (quiet_readCrossTxInfo su _ _ _))) hread]
  cases res with
  | none =>
    obtain ⟨_, rfl⟩ := runs_pure.mp hreplays
    exact iff_of_false not_erases_nil (Replays.not_exists_some hread)
  | some info =>
    rw [Replays.exists_some_iff hread]
    obtain ⟨acked, mid, hack, hreplays⟩ := runs_bind.mp hreplays
    rw [erases_iff_of_keeps (sendAckTo_keepsEntries _) hack, ← sendAckTo_ok_iff hack]
    cases acked with
    | true =>
      obtain ⟨_, last, hclear, _⟩ := runs_bind.mp hreplays
      exact iff_of_true (erases_clearInfo hclear) rfl
    | false =>
      obtain ⟨_, rfl⟩ := runs_pure.mp hreplays
      exact iff_of_false not_erases_nil Bool.false_ne_true

end Erases

/-- The answers of the nodes let a pass drop an ack entry: its transaction took effect, or the
contract does not answer with `INIT`. -/
def AckSettled (su : Setup) (l : Layer) (key : Text) (e : CrossTx) (steps : List Step) : Prop :=
  ∃ found rest, Replays (getTxResult l (e.ackHash l)) steps found rest ∧
    (found = true ∨ ∃ status rest', Replays (getCrossTxStatus su.conf l key) rest status rest' ∧
      status ≠ crossResultInit)

/-- The answers of the nodes let a pass or the confirm handler dispose of an entry. -/
def Pass.Disposes (su : Setup) (currentTime : Int64) :
    {h : Handle} → Pass h → Text → CrossTx → List Step → Prop
  | h, .sendTxTimeOut, key, e, steps => e.sendTxTimeout < currentTime ∧
    ∃ found rest, Replays (getTxResult h.other e.sendTxHash) steps found rest ∧
      if found then ∃ info rest',
        Replays (Handle.readCrossTxInfo su h h.other key) rest (some info) rest' ∧
          AckAccepted su h { info with status := crossResultSuccess } rest'
      else AckAccepted su h { e.info su.codec with status := crossResultTimeout } rest
  | h, .sendAckTimeOut, key, e, steps => e.sendAckTimeout < currentTime ∧
    (e.info su.codec).status ≠ crossResultSuccess ∧ AckSettled su h key e steps
  | h, .replyAckTimeOut, key, e, steps => e.sendAckTimeout < currentTime ∧
    AckSettled su h.other key e steps
  | _, .startTxTimeOut, _, e, steps => e.sendTxTimeout < currentTime ∧
    AckAccepted su .layer2 { e.info su.codec with status := crossResultFailed } steps
  | _, .handleConfirmSeqEvent confirmSeq, _, e, steps =>
    (e.info su.codec).confirmseq ≤ confirmSeq ∧
    ∃ now rest, Replays highResolution steps now rest ∧ ¬(e.info su.codec).timeout < now ∧
      SubmissionAccepted (Handle.sendTransaction su .layer1 (Handle.sendTxInput (e.info su.codec))
        (e.info su.codec).amount) rest

section Disposes

variable {key : Text} {e : CrossTx} {steps : List Step} {currentTime : Int64}

/-- Sending a `SendTx` keeps the entries. -/
theorem sendTxTo_keepsEntries (info : Protocol.CrossTxInfo) :
    Uses Op.Keeps (Handle.sendTxTo su h info) :=
  uses_sendTxTo keeps_of_quiet (fun _ => trivial) fun _ => ⟨trivial, fun _ => trivial⟩

/-- Sending a reply keeps the entries. -/
theorem replyAckTo_keepsEntries (info : Protocol.CrossTxInfo) :
    Uses Op.Keeps (Handle.replyAckTo su h info) :=
  uses_replyAckTo keeps_of_quiet (fun _ => trivial) fun _ => ⟨trivial, fun _ => trivial⟩

/-- Putting an ack off keeps the entries. -/
theorem setAckTimeout_keepsEntries (store : Store) (key : Text) (time : Int64) :
    Uses Op.Keeps (perform (Op.setAckTimeout store key time) : AgentM Unit) := Uses.perform trivial

/-- A round that is not due does nothing. -/
theorem erases_ite {store : Store} {c D : Prop} [Decidable c] {p : AgentM PUnit}
    (hp : Replays p steps ⟨⟩ [] → (Erases store key steps ↔ D))
    (hreplays : Replays (if c then p else pure ⟨⟩) steps ⟨⟩ []) :
    Erases store key steps ↔ c ∧ D := by
  split at hreplays
  next hc => rw [hp hreplays, and_iff_right hc]
  next hc =>
    obtain ⟨_, rfl⟩ := runs_pure.mp hreplays
    exact iff_of_false not_erases_nil fun h => hc h.1

/-- A due ack is erased exactly when it turns out to be settled. -/
theorem ackExpired_erases {store : Store} {l : Layer} {resend : AgentM Bool}
    (hresend : Uses Op.Keeps resend)
    (hreplays : Replays (Handle.ackExpired su store l currentTime key e resend) steps ⟨⟩ []) :
    Erases store key steps ↔ AckSettled su l key e steps := by
  obtain ⟨found, rest, hfound, hreplays⟩ := runs_bind.mp hreplays
  rw [erases_iff_of_keeps (keeps_of_remote (remote_of_quiet (quiet_getTxResult _ _))) hfound,
    AckSettled, Replays.exists_iff hfound]
  cases found with
  | true => exact iff_of_true (erases_clearInfo hreplays) (Or.inl rfl)
  | false =>
    obtain ⟨status, rest', hstatus, hreplays⟩ := runs_bind.mp hreplays
    rw [erases_iff_of_keeps (keeps_of_remote (remote_of_quiet (quiet_getCrossTxStatus _ _ _))) hstatus,
      Replays.exists_iff hstatus, or_iff_right Bool.false_ne_true]
    split at hreplays
    next hne => exact iff_of_true (erases_clearInfo hreplays) hne
    next heq =>
      obtain ⟨_, mid, hresent, hset⟩ := runs_bind.mp hreplays
      rw [erases_iff_of_keeps hresend hresent,
        erases_iff_of_keeps (setAckTimeout_keepsEntries _ _ _) hset]
      exact iff_of_false not_erases_nil heq

/-- A due ack of the source layer is erased exactly when it is a failure that is settled. -/
theorem sendAckExpired_erases
    (hreplays : Replays (Handle.sendAckExpired su h currentTime key e) steps ⟨⟩ []) :
    Erases (.ack h) key steps ↔
      (e.info su.codec).status ≠ crossResultSuccess ∧ AckSettled su h key e steps := by
  unfold Handle.sendAckExpired at hreplays
  dsimp only at hreplays
  split at hreplays
  next hsuccess =>
    obtain ⟨_, mid, hresent, hset⟩ := runs_bind.mp hreplays
    rw [erases_iff_of_keeps (sendAckTo_keepsEntries _) hresent,
      erases_iff_of_keeps (setAckTimeout_keepsEntries _ _ _) hset]
    exact iff_of_false not_erases_nil fun h => h.1 hsuccess
  next hfailed =>
    rw [ackExpired_erases (sendAckTo_keepsEntries _) hreplays, and_iff_right hfailed]

/-- A `SendTx` is erased exactly when its receipt was found and its ack accepted. -/
theorem sendTxExpired_erases (he : e.FiledUnder su key)
    (hreplays : Replays (Handle.sendTxExpired su h e) steps ⟨⟩ []) :
    Erases (.send h) key steps ↔
      ∃ found rest, Replays (getTxResult h.other e.sendTxHash) steps found rest ∧
        if found then ∃ info rest',
          Replays (Handle.readCrossTxInfo su h h.other key) rest (some info) rest' ∧
            AckAccepted su h { info with status := crossResultSuccess } rest'
        else AckAccepted su h { e.info su.codec with status := crossResultTimeout } rest := by
  obtain ⟨found, rest, hfound, hreplays⟩ := runs_bind.mp hreplays
  rw [erases_iff_of_keeps (keeps_of_remote (remote_of_quiet (quiet_getTxResult _ _))) hfound,
    Replays.exists_iff hfound]
  cases found with
  | true =>
    obtain ⟨_, mid, hevent, hend⟩ := runs_bind.mp hreplays
    obtain ⟨_, rfl⟩ := runs_pure.mp hend
    rw [he.id] at hevent
    exact sendTxEvent_erases hevent
  | false =>
    rw [show key = (e.info su.codec).crosstxid from he.info.symm]
    exact erases_clearIf (sendAckTo_keepsEntries _) (fun _ _ => sendAckTo_ok_iff) hreplays

/-- A round erases its own entry exactly when the answers of the nodes let it dispose of it. -/
theorem Pass.erases_iff (pass : Pass h) (he : e.FiledUnder su key)
    (hreplays : Replays (pass.round su currentTime (key, e)) steps ⟨⟩ []) :
    Erases pass.store key steps ↔ pass.Disposes su currentTime key e steps := by
  cases pass with
  | sendTxTimeOut => exact erases_ite (sendTxExpired_erases he) hreplays
  | sendAckTimeOut => exact erases_ite sendAckExpired_erases hreplays
  | replyAckTimeOut => exact erases_ite (ackExpired_erases (replyAckTo_keepsEntries _)) hreplays
  | startTxTimeOut =>
    exact erases_ite (erases_clearIf (sendAckTo_keepsEntries _) fun _ _ => sendAckTo_ok_iff) hreplays
  | handleConfirmSeqEvent confirmSeq =>
    obtain ⟨now, rest, hclock, hreplays⟩ := runs_bind.mp hreplays
    have hkeeps : Uses Op.Keeps highResolution := ⟨trivial, fun _ => trivial⟩
    rw [erases_iff_of_keeps hkeeps hclock, Pass.Disposes, Replays.exists_iff hclock]
    refine erases_ite (fun hreplays => ?_) hreplays
    unfold Layer2ToLayer1Handle.confirmed at hreplays
    split at hreplays
    next hlate =>
      obtain ⟨_, mid, hack, hend⟩ := runs_bind.mp hreplays
      obtain ⟨_, rfl⟩ := runs_pure.mp hend
      rw [erases_iff_of_keeps (sendAckTo_keepsEntries _) hack]
      exact iff_of_false not_erases_nil fun h => h.1 hlate
    next hintime =>
      rw [and_iff_right hintime, show key = (e.info su.codec).crosstxid from he.info.symm]
      exact erases_clearIf (sendTxTo_keepsEntries _) (fun _ _ => sendTxTo_ok_iff) hreplays

end Disposes

/-- An entry that is not erased stays. -/
theorem kept_of_not_erases {α : Type} {p : AgentM α} {a : α} {store : Store} {key : Text}
    {s t : Session} {steps : List Step} (hrun : Runs Session.act p s a t) (hsince : s.Since t steps)
    (hkept : ¬Erases store key steps) (hs : ((s.state.maps store)[key]?).isSome) :
    ((t.state.maps store)[key]?).isSome := by
  have hruns := Session.runs_of_since (fun step => step.op ≠ .erase store key) hrun hsince
    fun step hstep herase => hkept ⟨step, hstep, herase⟩
  exact hruns.invariant (J := fun u => ((u.state.maps store)[key]?).isSome)
    (fun o u r u' hact hu => hact.1.1.kept hact.2 hu) hs

/-- An examined entry, and the operations of its round with their answers. -/
structure Examined where
  entry : CrossTx
  steps : List Step

namespace Pass

variable {pass : Pass h} {currentTime : Int64}

/-- The order of the keys of a map. -/
def precedes (j k : Text) : Bool := decide (compare j k = .lt)

/-- The order of the keys is strict. -/
theorem precedes_asymm (j k : Text) (h : precedes j k) : ¬precedes k j := by
  have hlt : compare j k = .lt := of_decide_eq_true h
  intro hgt
  have hlt' : compare k j = .lt := of_decide_eq_true hgt
  rw [OrientedCmp.gt_of_lt hlt] at hlt'
  cases hlt'

/-- The keys of the map of the pass, in order. -/
def keys (pass : Pass h) (s : Session) : List Text := (s.state.maps pass.store).keys

/-- The keys of a pass are visited in their order. -/
theorem keys_sorted (pass : Pass h) (s : Session) :
    (pass.keys s).Pairwise fun j k => precedes j k = true :=
  ExtTreeMap.ordered_keys.imp fun hlt => decide_eq_true hlt

/-- The round for the entry the map has under the key. -/
def Examines (su : Setup) (currentTime : Int64) (pass : Pass h) (s : Session) (key : Text)
    (x : Examined) (t : Session) : Prop :=
  (s.state.maps pass.store)[key]? = some x.entry ∧
    Runs Session.act (pass.round su currentTime (key, x.entry)) s ⟨⟩ t ∧ s.Since t x.steps

/-- The loop of the pass from an iterator on. An iterator stays valid until its element is erased. -/
abbrev Walk (su : Setup) (currentTime : Int64) (pass : Pass h) :
    Option Text → Session → List (Text × Examined) → Outcome → Session → Prop :=
  Iteration.Walk precedes pass.keys (pass.Examines su currentTime)
    fun key x => Erases pass.store key x.steps

/-- The keys of a pass are the keys of its map. -/
theorem mem_keys {pass : Pass h} {s : Session} {key : Text} :
    key ∈ pass.keys s ↔ ((s.state.maps pass.store)[key]?).isSome := by
  rw [keys, ExtTreeMap.mem_keys, ExtTreeMap.mem_iff_isSome_getElem?]

/-- Maps with the same members have the same keys in the same order. -/
theorem keys_eq {s t : Session} (hmem : ∀ key, key ∈ pass.keys t ↔ key ∈ pass.keys s) :
    pass.keys t = pass.keys s := by
  have hperm : (pass.keys t).Perm (pass.keys s) :=
    (List.perm_ext_iff_of_nodup ExtTreeMap.nodup_keys ExtTreeMap.nodup_keys).mpr hmem
  refine hperm.eq_of_pairwise ?_ (pass.keys_sorted t) (pass.keys_sorted s)
  exact fun j k _ _ hjk hkj => absurd hkj (precedes_asymm j k hjk)

/-- A round leaves the other entries of its map. -/
theorem same_of_examines {s t : Session} {key : Text} {x : Examined}
    (hs : s.WellKeyed su pass.store) (hround : pass.Examines su currentTime s key x t) {other : Text}
    (hne : other ≠ key) : (t.state.maps pass.store)[other]? = (s.state.maps pass.store)[other]? :=
  (same_of_touches (round_touches (hs key x.entry hround.1)) hround.2.1 fun h => hne (h rfl)).map

/-- A round files its entries under their ids. -/
theorem round_files (pass : Pass h) (currentTime : Int64) (p : Text × CrossTx) :
    Uses (Op.Files su) (pass.round su currentTime p) := by
  have hP := covers_files su
  cases pass with
  | sendTxTimeOut => exact Uses.ite (within_sendTxExpired hP _) (Uses.pure _)
  | sendAckTimeOut => exact Uses.ite (within_sendAckExpired hP _ _ _) (Uses.pure _)
  | replyAckTimeOut =>
    exact Uses.ite (within_ackExpired hP _ _ _ _ _ (within_replyAckTo hP _)) (Uses.pure _)
  | startTxTimeOut =>
    exact Uses.ite (Uses.bind (within_sendAckTo hP _) fun _ =>
      Uses.ite (within_clearInfo hP _ _) (Uses.pure _)) (Uses.pure _)
  | handleConfirmSeqEvent confirmSeq =>
    have hrelease : ∀ id (o : Op), o.Releases id → o.Files su := fun _ _ hreleases => hreleases.files
    exact Uses.bind (Uses.perform trivial) fun _ =>
      Uses.ite (within_confirmed hP _ _ (hrelease _)) (Uses.pure _)

/-- A round that does not erase its entry leaves the keys of the map. -/
theorem examines_keeps (s : Session) (key : Text) (x : Examined) (t : Session)
    (hs : s.WellKeyed su pass.store) (hround : pass.Examines su currentTime s key x t)
    (hkept : ¬Erases pass.store key x.steps) :
    pass.keys t = pass.keys s ∧ t.WellKeyed su pass.store := by
  have hkey : ((s.state.maps pass.store)[key]?).isSome := by
    rw [hround.1]
    rfl
  refine ⟨keys_eq fun other => ?_, ?_⟩
  · by_cases heq : other = key
    · rw [heq, mem_keys, mem_keys]
      exact iff_of_true (kept_of_not_erases hround.2.1 hround.2.2 hkept hkey) hkey
    · rw [mem_keys, mem_keys, same_of_examines hs hround heq]
  · exact hs.runs (pass.round_files currentTime _) hround.2.1

/-- The rounds of a loop that comes to its end are those of the entries there were, which is how the
pass is written. -/
theorem runs_of_visits {s s' : Session} {entries : List (Text × CrossTx)}
    {rounds : List (Text × Examined)} (hs : s.WellKeyed su pass.store)
    (hentries : ∀ p ∈ entries, (s.state.maps pass.store)[p.1]? = some p.2)
    (hnodup : (entries.map Prod.fst).Nodup)
    (hvisits : Visits (pass.Examines su currentTime) (entries.map Prod.fst) s rounds s') :
    Runs Session.act (entries.forM (pass.round su currentTime)) s ⟨⟩ s' := by
  induction entries generalizing s rounds with
  | nil =>
    cases hvisits
    exact runs_pure.mpr ⟨rfl, rfl⟩
  | cons p entries ih =>
    cases hvisits with
    | @cons _ _ _ t _ x rounds hround hrest =>
      obtain ⟨hnotin, hnodup⟩ := List.nodup_cons.mp hnodup
      have hentry : x.entry = p.2 :=
        Option.some_inj.mp (hround.1.symm.trans (hentries p List.mem_cons_self))
      have hrun := hround.2.1
      rw [hentry] at hrun
      have ht : t.WellKeyed su pass.store := hs.runs (pass.round_files currentTime _) hrun
      refine runs_bind.mpr ⟨⟨⟩, t, hrun, ih ht (fun q hq => ?_) hnodup hrest⟩
      have hne : q.1 ≠ p.1 := fun heq => hnotin (heq ▸ List.mem_map_of_mem hq)
      rw [same_of_examines hs hround hne]
      exact hentries q (List.mem_cons_of_mem _ hq)

/-- A loop that comes to its end has made the rounds of all entries. -/
theorem visits_of_walk {s s' : Session} {rounds : List (Text × Examined)}
    (hs : s.WellKeyed su pass.store)
    (hwalk : pass.Walk su currentTime (pass.keys s).head? s rounds .finished s') :
    Visits (pass.Examines su currentTime) (pass.keys s) s rounds s' := by
  have hall : pass.keys s = [] ++ pass.keys s := rfl
  exact hwalk.visits (J := Session.WellKeyed su pass.store) precedes_asymm
    pass.keys_sorted (fun s key x t ht _ => examines_keeps s key x t ht) hs hall

/-- A walk that comes to its end does what the loop over the entries of its beginning does. -/
theorem runs_of_walk {s s' : Session} {rounds : List (Text × Examined)}
    (hs : s.WellKeyed su pass.store)
    (hwalk : pass.Walk su currentTime (pass.keys s).head? s rounds .finished s') :
    Runs Session.act ((s.state.maps pass.store).toList.forM (pass.round su currentTime)) s ⟨⟩ s' := by
  have hvisits := visits_of_walk hs hwalk
  have hkeys : (s.state.maps pass.store).toList.map Prod.fst = pass.keys s :=
    ExtTreeMap.map_fst_toList_eq_keys
  rw [← hkeys] at hvisits
  refine runs_of_visits hs (fun p hp => ?_) ?_ hvisits
  · exact ExtTreeMap.mem_toList_iff_getElem?_eq_some.mp hp
  · rw [hkeys]
    exact ExtTreeMap.nodup_keys

/-- The loop of a pass comes to its end, with every entry examined once, when no round erases its own
entry. -/
theorem walk_finished_iff {s s' : Session} {rounds : List (Text × Examined)} {out : Outcome}
    (hs : s.WellKeyed su pass.store)
    (hwalk : pass.Walk su currentTime (pass.keys s).head? s rounds out s') :
    (out = .finished ∧ rounds.map Prod.fst = pass.keys s) ↔ ∀ p ∈ rounds, ¬Erases pass.store p.1 p.2.steps := by
  have hall : pass.keys s = [] ++ pass.keys s := rfl
  exact hwalk.finished_iff (J := Session.WellKeyed su pass.store) precedes_asymm
    pass.keys_sorted (fun s key x t ht _ => examines_keeps s key x t ht) hs hall

/-- The rounds of a loop that erase their entry are those that dispose of it. -/
theorem walk_erases_iff {s s' : Session} {pos : Option Text} {rounds : List (Text × Examined)}
    {out : Outcome} (hs : s.WellKeyed su pass.store)
    (hwalk : pass.Walk su currentTime pos s rounds out s') :
    ∀ p ∈ rounds, Erases pass.store p.1 p.2.steps ↔
      pass.Disposes su currentTime p.1 p.2.entry p.2.steps := by
  refine hwalk.forall_rounds (J := Session.WellKeyed su pass.store)
    (P := fun key x => Erases pass.store key x.steps ↔
      pass.Disposes su currentTime key x.entry x.steps) ?_ ?_ hs
  · exact fun s key x t ht hround hkept => (examines_keeps s key x t ht hround hkept).2
  · intro s key x t ht hround
    obtain ⟨steps, hsince, hreplays⟩ := Session.replays hround.2.1
    obtain rfl := hsince.unique hround.2.2
    exact pass.erases_iff (ht key x.entry hround.1) hreplays

/-- The loop of a pass comes to its end, with every entry examined once, exactly when the answers
of the nodes let it dispose of no entry that it examines; else it advances an iterator without an
element. -/
theorem iterates_iff {s s' : Session} {rounds : List (Text × Examined)} {out : Outcome}
    (hs : s.WellKeyed su pass.store)
    (hwalk : pass.Walk su currentTime (pass.keys s).head? s rounds out s') :
    (out = .finished ∧ rounds.map Prod.fst = pass.keys s) ↔
      ∀ p ∈ rounds, ¬pass.Disposes su currentTime p.1 p.2.entry p.2.steps := by
  rw [walk_finished_iff hs hwalk]
  exact forall₂_congr fun p hp => not_congr (walk_erases_iff hs hwalk p hp)

/-- A round that keeps its entry is followed by the rounds of the entries behind it. -/
theorem walk_next {s t s' : Session} {key : Text} {x : Examined} {done rest : List Text}
    {rounds : List (Text × Examined)} {out : Outcome} (hs : s.WellKeyed su pass.store)
    (hkeys : pass.keys s = done ++ key :: rest) (hround : pass.Examines su currentTime s key x t)
    (hkept : ¬Erases pass.store key x.steps) (hrest : pass.Walk su currentTime rest.head? t rounds out s') :
    pass.Walk su currentTime (some key) s ((key, x) :: rounds) out s' := by
  have hsame := (examines_keeps s key x t hs hround hkept).1
  exact Walk.next precedes_asymm pass.keys_sorted hround hkept (hsame.trans hkeys) hrest

/-- The loop over two entries that their rounds keep. -/
theorem walk_pair {s t s' : Session} {key key' : Text} {x x' : Examined} (hs : s.WellKeyed su pass.store)
    (hkeys : pass.keys s = [key, key']) (hround : pass.Examines su currentTime s key x t)
    (hround' : pass.Examines su currentTime t key' x' s') (hkept : ¬Erases pass.store key x.steps)
    (hkept' : ¬Erases pass.store key' x'.steps) :
    pass.Walk su currentTime (pass.keys s).head? s [(key, x), (key', x')] .finished s' := by
  obtain ⟨hsame, ht⟩ := examines_keeps s key x t hs hround hkept
  have hkeys' : pass.keys t = [key] ++ [key'] := hsame.trans hkeys
  have hall : pass.keys s = [] ++ key :: [key'] := hkeys
  rw [hkeys]
  exact walk_next hs hall hround hkept
    (walk_next ht hkeys' hround' hkept' (Iteration.Walk.finished s'))

/-- The round for an entry, given its answers. -/
def examineWith (su : Setup) (currentTime : Int64) (pass : Pass h) (key : Text) (answers : List Answer)
    (s : Session) : Option (Examined × Session) := do
  let e ← (s.state.maps pass.store)[key]?
  let (_, t) ← runWith Session.step (pass.round su currentTime (key, e)) answers s
  return (⟨e, (t.trace.take (t.trace.length - s.trace.length)).reverse⟩, t)

/-- A round with given answers is a round. -/
theorem examines_of_examineWith {s t : Session} {key : Text} {answers : List Answer} {x : Examined}
    (hrun : pass.examineWith su currentTime key answers s = some (x, t)) :
    pass.Examines su currentTime s key x t := by
  simp only [examineWith, Option.bind_eq_bind, Option.bind_eq_some_iff, Option.pure_def,
    Option.some.injEq, Prod.mk.injEq] at hrun
  obtain ⟨e, hget, ⟨⟨⟩, u⟩, hround, rfl, rfl⟩ := hrun
  have hruns := Session.runs_of_answers hround
  obtain ⟨steps, hsince, _⟩ := Session.replays hruns
  have htrace : u.trace = steps.reverse ++ s.trace := hsince
  have hsteps : (u.trace.take (u.trace.length - s.trace.length)).reverse = steps := by
    rw [htrace, List.length_append, Nat.add_sub_cancel, List.take_left, List.reverse_reverse]
  exact ⟨hget, hruns, hsteps ▸ hsince⟩

instance (o : Op) : Decidable o.Keeps :=
  match o with
  | .erase _ _ => inferInstanceAs (Decidable False)
  | .highResolution | .http _ _ | .dbPut _ _ | .dbDelete _ | .dbScan _ | .lock _ | .unlock _
  | .entries _ | .emplace _ _ _ | .setAckTimeout _ _ _ | .terminate => inferInstanceAs (Decidable True)

/-- Steps that keep the entries erase none. -/
theorem not_erases_of_keeps {store : Store} {key : Text} {steps : List Step}
    (hkeeps : ∀ step ∈ steps, step.op.Keeps) : ¬Erases store key steps := by
  rintro ⟨step, hstep, herase⟩
  have hkeep := hkeeps step hstep
  rw [herase] at hkeep
  exact hkeep

/-- The pass over the send entries of layer 1. -/
abbrev sends : Pass .layer1 := .sendTxTimeOut

/-- The id of a transfer. -/
def firstId : Text := Formats.hexText Formats.settledId

/-- The id of another one. -/
def secondId : Text := Formats.hexText (Formats.settledId ++ Formats.settledId)

/-- The answers to the StartTx event of the second transfer, which times out at 203. -/
def secondAnswers : List Answer :=
  Formats.recordReplies { Formats.sourceRecord with
    crossTxId := Formats.settledId ++ Formats.settledId, timeout := 203 } ++
      [.reply (Formats.ledgerReply 100), .reply (Formats.submitReply "c"), .stored true, .go]

/-- A session with the send entries of the two transfers, and three rounds: after its timeout the first
entry is kept when its ack is not accepted, and removed when it is; the second is kept before its
timeout. -/
theorem exists_escrowed : ∃ s x x' t s' u, Session.Reachable Formats.system.su .layer1 s ∧
    sends.keys s = [firstId, secondId] ∧
    (sends.Examines Formats.system.su 150 s firstId x t ∧ sends.Examines Formats.system.su 150 t secondId x' s') ∧
    (x.entry.sendTxTimeout < 150 ∧ ¬x'.entry.sendTxTimeout < 150) ∧
    ((∀ step ∈ x.steps, step.op.Keeps) ∧ ∀ step ∈ x'.steps, step.op.Keeps) ∧
    Runs Session.act (sends.round Formats.system.su 150 (firstId, x.entry)) s ⟨⟩ u ∧
    (u.state.maps (.send .layer1))[firstId]? = none := by
  have hcheck : ((runWith Session.step ((HandlerCall.handleStartTxEvent firstId : HandlerCall .layer1).run
      Formats.system.su) Formats.startAnswers (Session.start ∅)).any fun r₁ =>
    (runWith Session.step ((HandlerCall.handleStartTxEvent secondId : HandlerCall .layer1).run
      Formats.system.su) secondAnswers r₁.2).any fun r =>
    (sends.examineWith Formats.system.su 150 firstId [.reply .error, .reply (Formats.ledgerReply 100),
      .reply .error] r.2).any fun y =>
    (sends.examineWith Formats.system.su 150 secondId [] y.2).any fun y' =>
    (runWith Session.step (sends.round Formats.system.su 150 (firstId, y.1.entry)) [.reply .error,
      .reply (Formats.ledgerReply 100), .reply (Formats.submitReply "b"), .stored true, .time 6, .go,
      .stored true, .go] r.2).any fun r' =>
        sends.keys r.2 = [firstId, secondId] ∧
        (y.1.entry.sendTxTimeout < 150 ∧ ¬y'.1.entry.sendTxTimeout < 150) ∧
        ((∀ step ∈ y.1.steps, step.op.Keeps) ∧ ∀ step ∈ y'.1.steps, step.op.Keeps) ∧
        ((r'.2.state.maps (.send .layer1))[firstId]?).isNone) = true := by
    decide +kernel
  obtain ⟨⟨ok₁, s₁⟩, hrun₁, hcheck⟩ := (Option.any_eq_true _ _).mp hcheck
  obtain ⟨⟨ok, s⟩, hrun, hcheck⟩ := (Option.any_eq_true _ _).mp hcheck
  obtain ⟨⟨x, t⟩, hround, hcheck⟩ := (Option.any_eq_true _ _).mp hcheck
  obtain ⟨⟨x', s'⟩, hround', hcheck⟩ := (Option.any_eq_true _ _).mp hcheck
  obtain ⟨⟨⟨⟩, u⟩, hremoves, hcheck⟩ := (Option.any_eq_true _ _).mp hcheck
  obtain ⟨hkeys, hdue, hkeeps, hnone⟩ := of_decide_eq_true hcheck
  have hcall₁ : Reaches Session.act ((HandlerCall.handleStartTxEvent firstId : HandlerCall .layer1).run
      Formats.system.su) (Session.start ∅) s₁ := (Session.runs_of_answers hrun₁).reaches
  have hcall : Reaches Session.act ((HandlerCall.handleStartTxEvent secondId : HandlerCall .layer1).run
      Formats.system.su) s₁ s := (Session.runs_of_answers hrun).reaches
  exact ⟨s, x, x', t, s', u, .call (.call (.start ∅) _ hcall₁) _ hcall, hkeys,
    ⟨examines_of_examineWith hround, examines_of_examineWith hround'⟩, hdue, hkeeps,
    Session.runs_of_answers hremoves, Option.isNone_iff_eq_none.mp hnone⟩

/-- A pass over two entries keeps the one that is due, since its ack is not accepted, and the one that
is not. -/
theorem iterates_escrowed : ∃ s rounds s', sends.keys s = [firstId, secondId] ∧
    rounds.map (fun p => decide (p.2.entry.sendTxTimeout < 150)) = [true, false] ∧
    sends.Walk Formats.system.su 150 (sends.keys s).head? s rounds .finished s' ∧
    rounds.map Prod.fst = sends.keys s ∧
    ∀ p ∈ rounds, ¬sends.Disposes Formats.system.su 150 p.1 p.2.entry p.2.steps := by
  obtain ⟨s, x, x', t, s', _, hs, hkeys, ⟨hround, hround'⟩, ⟨hdue, hlater⟩, ⟨hkeeps, hkeeps'⟩, _⟩ :=
    exists_escrowed
  have hwalk := walk_pair (hs.wellKeyed _) hkeys hround hround' (not_erases_of_keeps hkeeps)
    (not_erases_of_keeps hkeeps')
  have hmap : [(firstId, x), (secondId, x')].map Prod.fst = sends.keys s := hkeys.symm
  refine ⟨s, _, s', hkeys, ?_, hwalk, hmap, (iterates_iff (hs.wellKeyed _) hwalk).mp ⟨rfl, hmap⟩⟩
  simp [hdue, hlater]

/-- A pass after the timeout whose ack is accepted erases the entry its iterator stands on. -/
theorem iterates_erased : ∃ s rounds s', Session.Reachable Formats.system.su .layer1 s ∧
    sends.Walk Formats.system.su 150 (sends.keys s).head? s rounds .undefined s' := by
  obtain ⟨s, x, _, _, _, u, hs, hkeys, ⟨⟨hget, _⟩, _⟩, _, _, hruns, hnone⟩ := exists_escrowed
  obtain ⟨steps, hsince, _⟩ := Session.replays hruns
  have herased : Erases sends.store firstId steps := by
    by_contra hkept
    have hsome := kept_of_not_erases hruns hsince hkept (Option.isSome_iff_exists.mpr ⟨x.entry, hget⟩)
    have hnone' : (u.state.maps sends.store)[firstId]? = none := hnone
    rw [hnone'] at hsome
    cases hsome
  refine ⟨s, [(firstId, ⟨x.entry, steps⟩)], u, hs, ?_⟩
  rw [hkeys]
  exact .invalid ⟨hget, hruns, hsince⟩ herased

end Pass

end CrosschainAgent
