import CrosschainAgent.Glue.Stores

/-!
# Sessions of one handler

A handler at work: its calls follow each other, each acting alone on the stores, while the
clock, the database and the nodes answer its operations in any way. The session keeps a trace
of what was done, with the stores as they were before each operation.
-/

namespace CrosschainAgent

open Interaction Std

/-- An operation that was performed: the stores before it, and what it returned. -/
structure Step where
  before : AgentState
  op : Op
  resp : op.Resp

/-- The database operation succeeded, if the step is one. -/
def Step.Stored : Step → Prop
  | ⟨_, .dbPut _ _, ok⟩ => ok = true
  | ⟨_, .dbDelete _, ok⟩ => ok = true
  | ⟨_, .dbScan _, values⟩ => values.isSome
  | _ => True

instance (step : Step) : Decidable step.Stored :=
  match step with
  | ⟨_, .dbPut _ _, ok⟩ => inferInstanceAs (Decidable (ok = true))
  | ⟨_, .dbDelete _, ok⟩ => inferInstanceAs (Decidable (ok = true))
  | ⟨_, .dbScan _, values⟩ => inferInstanceAs (Decidable (values.isSome = true))
  | ⟨_, .highResolution, _⟩ | ⟨_, .http _ _, _⟩ | ⟨_, .lock _, _⟩ | ⟨_, .unlock _, _⟩
  | ⟨_, .entries _, _⟩ | ⟨_, .emplace _ _ _, _⟩ | ⟨_, .erase _ _, _⟩
  | ⟨_, .setAckTimeout _ _ _, _⟩ | ⟨_, .terminate, _⟩ => inferInstanceAs (Decidable True)

/-- The stores, and the operations so far, the newest first. -/
structure Session where
  state : AgentState
  trace : List Step

namespace AgentState

/-- One operation on the stores, by what it returns and what it leaves. -/
inductive Acts (a : AgentState) : (o : Op) → o.Resp → AgentState → Prop
  | highResolution (t : Int64) : Acts a .highResolution t a
  | http (endpoint : Layer) (request : Request) (r : HttpResult) : Acts a (.http endpoint request) r a
  | dbPut (key value : Text) (ok : Bool) : Acts a (.dbPut key value) ok
      (if ok then { a with db := a.db.insert key value } else a)
  | dbDelete (key : Text) (ok : Bool) : Acts a (.dbDelete key) ok
      (if ok then { a with db := a.db.erase key } else a)
  | dbScan (keyPrefix : Text) (ok : Bool) : Acts a (.dbScan keyPrefix)
      (if ok then some (valuesByPrefix a.db keyPrefix) else none) a
  | lock (s : Store) : Acts a (.lock s) () a
  | unlock (s : Store) : Acts a (.unlock s) () a
  | entries (s : Store) : Acts a (.entries s) (a.maps s).toList a
  | emplace (s : Store) (key : Text) (e : CrossTx) : Acts a (.emplace s key e) ()
      (a.setMap s ((a.maps s).insertIfNew key e))
  | erase (s : Store) (key : Text) : Acts a (.erase s key) () (a.setMap s ((a.maps s).erase key))
  | setAckTimeout (s : Store) (key : Text) (t : Int64) : Acts a (.setAckTimeout s key t) ()
      (a.setMap s (setDue (a.maps s) key t))

/-- Every operation on the stores is one of these. -/
theorem step_acts {a a' : AgentState} {o : Op} {answer : Answer} {r : o.Resp}
    (h : step o answer a = some (r, a')) : Acts a o r a' := by
  unfold step at h
  split at h <;> cases h
  case h_1 => exact .highResolution _
  case h_2 => exact .http _ _ _
  case h_3 => exact .dbPut _ _ _
  case h_4 => exact .dbDelete _ _
  case h_5 => exact .dbScan _ _
  case h_6 => exact .lock _
  case h_7 => exact .unlock _
  case h_8 => exact .entries _
  case h_9 => exact .emplace _ _ _
  case h_10 => exact .erase _ _
  case h_11 => exact .setAckTimeout _ _ _

/-- A request leaves the agent's state. -/
theorem Acts.http_eq {a a' : AgentState} {l : Layer} {request : Request} {r : HttpResult}
    (h : Acts a (.http l request) r a') : a' = a := by
  cases h
  rfl

/-- A value is written when the database says so. -/
theorem Acts.dbPut_eq {a a' : AgentState} {key value : Text} {ok : Bool}
    (h : Acts a (.dbPut key value) ok a') :
    a' = if ok then { a with db := a.db.insert key value } else a := by
  cases h
  rfl

/-- A key is deleted when the database says so. -/
theorem Acts.dbDelete_eq {a a' : AgentState} {key : Text} {ok : Bool}
    (h : Acts a (.dbDelete key) ok a') : a' = if ok then { a with db := a.db.erase key } else a := by
  cases h
  rfl

/-- A scan that succeeds lists the values under its key prefix. -/
theorem Acts.dbScan_eq {a a' : AgentState} {keyPrefix : Text} {values : Option (List Text)}
    (h : Acts a (.dbScan keyPrefix) values a') :
    a' = a ∧ ∀ vs, values = some vs → vs = valuesByPrefix a.db keyPrefix := by
  cases h with
  | dbScan _ ok =>
    refine ⟨rfl, fun vs hvs => ?_⟩
    cases ok <;> cases hvs
    rfl

/-- The entries of a map are listed as they are. -/
theorem Acts.entries_eq {a a' : AgentState} {s : Store} {infos : List (Text × CrossTx)}
    (h : Acts a (.entries s) infos a') : a' = a ∧ infos = (a.maps s).toList := by
  cases h
  exact ⟨rfl, rfl⟩

/-- An entry is added unless its key is taken. -/
theorem Acts.emplace_eq {a a' : AgentState} {s : Store} {key : Text} {e : CrossTx} {r : Unit}
    (h : Acts a (.emplace s key e) r a') :
    a' = a.setMap s ((a.maps s).insertIfNew key e) := by
  cases h
  rfl

/-- An entry is erased. -/
theorem Acts.erase_eq {a a' : AgentState} {s : Store} {key : Text} {r : Unit}
    (h : Acts a (.erase s key) r a') : a' = a.setMap s ((a.maps s).erase key) := by
  cases h
  rfl

/-- A due time is set. -/
theorem Acts.setAckTimeout_eq {a a' : AgentState} {s : Store} {key : Text} {t : Int64} {r : Unit}
    (h : Acts a (.setAckTimeout s key t) r a') : a' = a.setMap s (setDue (a.maps s) key t) := by
  cases h
  rfl

/-- An entry of a map was there before, its due time aside, or it was inserted. -/
theorem Acts.entry_cases {a a' : AgentState} {o : Op} {r : o.Resp} (h : Acts a o r a') {s : Store}
    {key : Text} {e : CrossTx} (hget : (a'.maps s)[key]? = some e) :
    (∃ old t, (a.maps s)[key]? = some old ∧ e = { old with sendAckTimeout := t }) ∨
      o = .emplace s key e := by
  cases h with
  | highResolution | http | dbScan | lock | unlock | entries => exact Or.inl ⟨e, _, hget, rfl⟩
  | dbPut _ _ ok | dbDelete _ ok =>
    cases ok <;> exact Or.inl ⟨e, _, hget, rfl⟩
  | emplace s' key' e' =>
    by_cases heq : s = s' ∧ key = key'
    · obtain ⟨rfl, rfl⟩ := heq
      rw [setMap_maps_self, getElem?_emplace, if_pos rfl] at hget
      cases hold : (a.maps s)[key]? with
      | none =>
        rw [hold, Option.none_or] at hget
        cases hget
        exact Or.inr rfl
      | some old =>
        rw [hold, Option.some_or] at hget
        cases hget
        exact Or.inl ⟨_, _, rfl, rfl⟩
    · rw [getElem?_setMap_of_ne a (fun k hk => getElem?_emplace.trans (if_neg hk)) heq] at hget
      exact Or.inl ⟨e, _, hget, rfl⟩
  | erase s' key' =>
    by_cases heq : s = s' ∧ key = key'
    · obtain ⟨rfl, rfl⟩ := heq
      rw [setMap_maps_self, getElem?_erased, if_pos rfl] at hget
      cases hget
    · rw [getElem?_setMap_of_ne a (fun k hk => getElem?_erased.trans (if_neg hk)) heq] at hget
      exact Or.inl ⟨e, _, hget, rfl⟩
  | setAckTimeout s' key' t =>
    by_cases heq : s = s' ∧ key = key'
    · obtain ⟨rfl, rfl⟩ := heq
      rw [setMap_maps_self, getElem?_setDue, if_pos rfl] at hget
      obtain ⟨old, hold, rfl⟩ := Option.map_eq_some_iff.mp hget
      exact Or.inl ⟨old, t, hold, rfl⟩
    · rw [getElem?_setMap_of_ne a (fun k hk => getElem?_setDue.trans (if_neg hk)) heq] at hget
      exact Or.inl ⟨e, _, hget, rfl⟩

/-- An entry of a map stays until it is erased. -/
theorem Acts.kept {a a' : AgentState} {o : Op} {r : o.Resp} (h : Acts a o r a') {s : Store}
    {key : Text} (hne : o ≠ .erase s key) (hsome : ((a.maps s)[key]?).isSome) :
    ((a'.maps s)[key]?).isSome := by
  cases h with
  | highResolution | http | dbScan | lock | unlock | entries => exact hsome
  | dbPut _ _ ok | dbDelete _ ok => cases ok <;> exact hsome
  | emplace s' key' e =>
    by_cases heq : s = s' ∧ key = key'
    · obtain ⟨rfl, rfl⟩ := heq
      rw [setMap_maps_self, getElem?_emplace, if_pos rfl, Option.isSome_or]
      exact Bool.or_eq_true_iff.mpr (Or.inl hsome)
    · rwa [getElem?_setMap_of_ne a (fun k hk => getElem?_emplace.trans (if_neg hk)) heq]
  | erase s' key' =>
    have heq : ¬(s = s' ∧ key = key') := by
      rintro ⟨rfl, rfl⟩
      exact hne rfl
    rwa [getElem?_setMap_of_ne a (fun k hk => getElem?_erased.trans (if_neg hk)) heq]
  | setAckTimeout s' key' t =>
    by_cases heq : s = s' ∧ key = key'
    · obtain ⟨rfl, rfl⟩ := heq
      rwa [setMap_maps_self, getElem?_setDue, if_pos rfl, Option.isSome_map]
    · rwa [getElem?_setMap_of_ne a (fun k hk => getElem?_setDue.trans (if_neg hk)) heq]

/-- A value of the database was there before, or it was written. -/
theorem Acts.value_cases {a a' : AgentState} {o : Op} {r : o.Resp} (h : Acts a o r a')
    {key value : Text} (hget : a'.db[key]? = some value) :
    a.db[key]? = some value ∨ o = .dbPut key value := by
  cases h with
  | highResolution | http | dbScan | lock | unlock | entries | emplace | erase | setAckTimeout =>
    exact Or.inl hget
  | dbPut key' value' ok =>
    cases ok with
    | false => exact Or.inl hget
    | true =>
      simp only [if_true, getElem?_written] at hget
      split at hget
      next heq =>
        cases hget
        rw [heq]
        exact Or.inr rfl
      next => exact Or.inl hget
  | dbDelete key' ok =>
    cases ok with
    | false => exact Or.inl hget
    | true =>
      simp only [if_true, getElem?_erased] at hget
      split at hget
      next => cases hget
      next => exact Or.inl hget

end AgentState

/-- A program goes on after `orTerminate` only with the value. -/
theorem runs_orTerminate {S α : Type} {act : (o : Op) → S → o.Resp → S → Prop} {x : Option α} {s s' : S}
    {a : α} (h : Runs act (orTerminate x) s a s') : x = some a ∧ s' = s := by
  cases x with
  | none =>
    obtain ⟨r, _⟩ := h
    exact r.elim
  | some b =>
    obtain ⟨rfl, rfl⟩ := runs_pure.mp h
    exact ⟨rfl, rfl⟩

namespace Session

/-- One operation, which is added to the trace. -/
def step (o : Op) (answer : Answer) (s : Session) : Option (o.Resp × Session) :=
  (AgentState.step o answer s.state).map fun (r, state) => (r, ⟨state, ⟨s.state, o, r⟩ :: s.trace⟩)

/-- What an operation may do. -/
def act (o : Op) (s : Session) (r : o.Resp) (s' : Session) : Prop :=
  s.state.Acts o r s'.state ∧ s'.trace = ⟨s.state, o, r⟩ :: s.trace

/-- An executed operation is one the stores allow. -/
theorem step_act {o : Op} {answer : Answer} {s s' : Session} {r : o.Resp}
    (h : step o answer s = some (r, s')) : act o s r s' := by
  obtain ⟨⟨r', state⟩, hstep, heq⟩ := Option.map_eq_some_iff.mp h
  cases heq
  exact ⟨AgentState.step_acts hstep, rfl⟩

/-- What is computed from a list of answers is a run of the session. -/
theorem runs_of_answers {α : Type} {p : AgentM α} {answers : List Answer} {s s' : Session} {a : α}
    (h : runWith step p answers s = some (a, s')) : Runs act p s a s' := by
  have hstep : ∀ o answer u r u', step o answer u = some (r, u') → act o u r u' :=
    fun _ _ _ _ _ => step_act
  exact runs_of_runWith hstep h

/-- A process that starts with a database. -/
def start (db : Database) : Session := ⟨⟨fun _ => ∅, db⟩, []⟩

/-- The process is started again: the maps are empty. -/
def restarted (s : Session) : Session := { s with state := s.state.restarted }

/-- A program only adds to the trace. -/
theorem trace_suffix {α : Type} {p : AgentM α} {s s' : Session} {a : α} (h : Runs act p s a s') :
    s.trace <:+ s'.trace := by
  refine h.invariant (J := fun u => s.trace <:+ u.trace) ?_ List.suffix_rfl
  intro o u r u' hact hu
  rw [hact.2]
  exact hu.trans (List.suffix_cons _ _)

/-- When all steps of a run are of a kind, each operation is. -/
theorem runs_of_trace {α : Type} (ok : Step → Prop) {p : AgentM α} {s s' : Session} {a : α}
    (h : Runs act p s a s') (htrace : ∀ step ∈ s'.trace, ok step) :
    Runs (fun o u r u' => act o u r u' ∧ ok ⟨u.state, o, r⟩) p s a s' := by
  induction p generalizing s with
  | ret b => exact h
  | op o k ih =>
    obtain ⟨r, t, hact, hk⟩ := h
    refine ⟨r, t, ⟨hact, htrace _ ((trace_suffix hk).subset ?_)⟩, ih r hk⟩
    rw [hact.2]
    exact List.mem_cons_self

end Session

/-- The operations that neither submit anything nor change a store. -/
def Op.Quiet : Op → Prop
  | .highResolution | .http _ .getLedger | .http _ (.callContract _ _)
  | .http _ (.getTransactionHistory _) | .dbScan _ | .lock _ | .unlock _ | .entries _
  | .terminate => True
  | _ => False

/-- A quiet operation leaves the stores. -/
theorem AgentState.Acts.eq_of_quiet {a a' : AgentState} {o : Op} {r : o.Resp} (h : a.Acts o r a')
    (hquiet : o.Quiet) : a' = a := by
  cases h with
  | highResolution | http | dbScan | lock | unlock | entries => rfl
  | dbPut | dbDelete | emplace | erase | setAckTimeout => exact hquiet.elim

/-- The operations that ask a node, or end the process. -/
def Op.Asks : Op → Prop
  | .http _ .getLedger | .http _ (.callContract _ _) | .http _ (.getTransactionHistory _)
  | .terminate => True
  | _ => False

/-- Asking a node is quiet. -/
theorem Op.Asks.quiet {o : Op} (hasks : o.Asks) : o.Quiet := by
  cases o with
  | http l request =>
    cases request with
    | submitTransaction => exact hasks.elim
    | getLedger | callContract | getTransactionHistory => exact trivial
  | terminate => exact trivial
  | highResolution | dbPut | dbDelete | dbScan | lock | unlock | entries | emplace | erase
  | setAckTimeout => exact hasks.elim

/-- A value that may be missing asks nothing. -/
theorem asks_orTerminate {α : Type} (x : Option α) : Uses Op.Asks (orTerminate x) := by
  cases x with
  | none => exact ⟨trivial, fun r => r.elim⟩
  | some a => exact trivial

/-- The height is only asked for. -/
theorem asks_getLayerSeq (l : Layer) : Uses Op.Asks (HttpClient.getLayerSeq l) :=
  Uses.bind (Uses.perform trivial) fun _ => asks_orTerminate _

/-- The result of a transaction is only asked for. -/
theorem asks_getTxResult (l : Layer) (txHash : Text) :
    Uses Op.Asks (HttpClient.getTxResult l txHash) :=
  Uses.bind (Uses.perform trivial) fun _ => Uses.bind (asks_orTerminate _) fun _ => Uses.pure _

/-- The status of a transfer is only asked for. -/
theorem asks_getCrossTxStatus (conf : Configure) (l : Layer) (crossTxId : Text) :
    Uses Op.Asks (HttpClient.getCrossTxStatus conf l crossTxId) := by
  refine Uses.bind (Uses.bind (Uses.perform trivial) fun _ => asks_orTerminate _) fun r => ?_
  cases r with
  | none => exact Uses.pure _
  | some data =>
    exact Uses.bind (asks_orTerminate _) fun _ =>
      Uses.bind (asks_orTerminate _) fun _ => Uses.pure _

/-- A record is only asked for. -/
theorem asks_readCrossTxInfo (su : Setup) (h : Handle) (l : Layer) (crossTxid : Text) :
    Uses Op.Asks (Handle.readCrossTxInfo su h l crossTxid) := by
  have hquery : ∀ input, Uses Op.Asks (perform (Op.http l (.callContract
      (su.conf.crossContract l) input)) >>= fun resp =>
        orTerminate (HttpClient.withBody HttpClient.readQueryData resp)) := fun _ =>
    Uses.bind (Uses.perform trivial) fun _ => asks_orTerminate _
  refine Uses.bind (Uses.bind (hquery _) fun r1 => ?_) fun r => ?_
  · cases r1 with
    | none => exact Uses.pure _
    | some text1 =>
      refine Uses.bind (hquery _) fun r2 => ?_
      cases r2 with
      | none => exact Uses.pure _
      | some text2 => exact Uses.pure _
  · cases r with
    | none => exact Uses.pure _
    | some texts => exact asks_orTerminate _

/-- What only asks is quiet. -/
theorem quiet_of_asks {α : Type} {p : AgentM α} (hp : Uses Op.Asks p) : Uses Op.Quiet p :=
  hp.mono fun _ hasks => hasks.quiet

/-- A value that may be missing is quiet. -/
theorem quiet_orTerminate {α : Type} (x : Option α) : Uses Op.Quiet (orTerminate x) :=
  quiet_of_asks (asks_orTerminate x)

/-- Asking for the height is quiet. -/
theorem quiet_getLayerSeq (l : Layer) : Uses Op.Quiet (HttpClient.getLayerSeq l) :=
  quiet_of_asks (asks_getLayerSeq l)

/-- Asking for the result of a transaction is quiet. -/
theorem quiet_getTxResult (l : Layer) (txHash : Text) :
    Uses Op.Quiet (HttpClient.getTxResult l txHash) :=
  quiet_of_asks (asks_getTxResult l txHash)

/-- Asking for the status of a transfer is quiet. -/
theorem quiet_getCrossTxStatus (conf : Configure) (l : Layer) (crossTxId : Text) :
    Uses Op.Quiet (HttpClient.getCrossTxStatus conf l crossTxId) :=
  quiet_of_asks (asks_getCrossTxStatus conf l crossTxId)

/-- Reading a record is quiet. -/
theorem quiet_readCrossTxInfo (su : Setup) (h : Handle) (l : Layer) (crossTxid : Text) :
    Uses Op.Quiet (Handle.readCrossTxInfo su h l crossTxid) :=
  quiet_of_asks (asks_readCrossTxInfo su h l crossTxid)

/-- The handler a pending map belongs to. -/
def Store.handle : Store → Handle
  | .start => .layer2
  | .send h | .ack h | .reply h => h

/-- The transfer an input is about. -/
def TxInput.crossTxId : TxInput → Text
  | .sendTx crossTxId _ _ _ _ => crossTxId
  | .sendAckedTx crossTxId _ _ _ => crossTxId

/-- The result code of an ack. -/
def TxInput.result : TxInput → Option Int32
  | .sendTx _ _ _ _ _ => none
  | .sendAckedTx _ result _ _ => some result

/-- The map in which a handler keeps what it submits to a layer. -/
def stageOf (h : Handle) (l : Layer) : TxInput → Store
  | .sendTx _ _ _ _ _ => .send h
  | .sendAckedTx _ _ _ _ => if l = h then .ack h else .reply h

/-- An accepted submission of a handler: its stage, its transfer, the hash it was accepted
with, and its result code. -/
structure Submission where
  stage : Store
  crossTxId : Text
  hash : Text
  result : Option Int32
  deriving DecidableEq

/-- The accepted submission a step made. -/
def Step.submission (h : Handle) : Step → Option Submission
  | ⟨_, .http l (.submitTransaction _ input _ _), r⟩ =>
    (acceptedHash r).map fun hash => ⟨stageOf h l input, input.crossTxId, hash, input.result⟩
  | _ => none

/-- A quiet step submits nothing. -/
theorem Step.submission_of_quiet {h : Handle} {before : AgentState} {o : Op} {r : o.Resp}
    (hquiet : o.Quiet) : Step.submission h ⟨before, o, r⟩ = none := by
  cases o with
  | http l request =>
    cases request with
    | submitTransaction => exact hquiet.elim
    | getLedger | callContract | getTransactionHistory => rfl
  | highResolution | dbPut | dbDelete | dbScan | lock | unlock | entries | emplace | erase
  | setAckTimeout | terminate => rfl

/-- The most recent submission made for a transfer at a stage. -/
def latest (h : Handle) (trace : List Step) (s : Store) (id : Text) : Option Submission :=
  (trace.filterMap (Step.submission h)).find? fun sub => sub.stage = s ∧ sub.crossTxId = id

/-- The latest submission of a stage is the newest step's, or that of the steps before. -/
theorem latest_cons (h : Handle) (step : Step) (trace : List Step) (s : Store) (id : Text) :
    latest h (step :: trace) s id = match step.submission h with
      | some sub => if sub.stage = s ∧ sub.crossTxId = id then some sub else latest h trace s id
      | none => latest h trace s id := by
  unfold latest
  cases hsub : step.submission h with
  | none => rw [List.filterMap_cons_none hsub]
  | some sub =>
    rw [List.filterMap_cons_some hsub, List.find?_cons]
    by_cases hmatch : sub.stage = s ∧ sub.crossTxId = id
    · simp [hmatch]
    · simp [hmatch]

/-- A call of a handler: one of its event handlers, or one pass of its timer. Only
`Layer2ToLayer1Handle` waits for confirmations. -/
inductive HandlerCall : Handle → Type
  | handleStartTxEvent {h : Handle} (crossTxid : Text) : HandlerCall h
  | handleSendTxEvent {h : Handle} (crossTxid : Text) : HandlerCall h
  | handleSendAckdTxEvent {h : Handle} (crossTxid : Text) : HandlerCall h
  | sendTxTimeOut {h : Handle} : HandlerCall h
  | sendAckTimeOut {h : Handle} : HandlerCall h
  | replyAckTimeOut {h : Handle} : HandlerCall h
  | handleConfirmSeqEvent (confirmSeq : Int64) : HandlerCall .layer2
  | startTxTimeOut : HandlerCall .layer2

namespace HandlerCall

variable (su : Setup)

/-- `HandleStartTxEvent` of the handler. -/
def startEventOf : (h : Handle) → Text → AgentM Bool
  | .layer1 => Layer1ToLayer2Handle.handleStartTxEvent su
  | .layer2 => Layer2ToLayer1Handle.handleStartTxEvent su

/-- The program of a call, with its return value. -/
def run : {h : Handle} → HandlerCall h → AgentM Bool
  | h, .handleStartTxEvent crossTxid => startEventOf su h crossTxid
  | h, .handleSendTxEvent crossTxid => Handle.handleSendTxEvent su h crossTxid
  | h, .handleSendAckdTxEvent crossTxid => Handle.handleSendAckdTxEvent su h crossTxid
  | h, .sendTxTimeOut => do
    Handle.sendTxTimeOut su h
    return true
  | h, .sendAckTimeOut => do
    Handle.sendAckTimeOut su h
    return true
  | h, .replyAckTimeOut => do
    Handle.replyAckTimeOut su h
    return true
  | _, .handleConfirmSeqEvent confirmSeq => do
    Layer2ToLayer1Handle.handleConfirmSeqEvent su confirmSeq
    return true
  | _, .startTxTimeOut => do
    Layer2ToLayer1Handle.startTxTimeOut su
    return true

/-- The passes of one `OnTimer`. -/
def passes : (h : Handle) → List (HandlerCall h)
  | .layer1 => [.sendTxTimeOut, .sendAckTimeOut, .replyAckTimeOut]
  | .layer2 => [.startTxTimeOut, .sendTxTimeOut, .sendAckTimeOut, .replyAckTimeOut]

/-- The timer of layer 1 makes its passes one after another. -/
theorem layer1_onTimer_eq : Layer1ToLayer2Handle.onTimer su =
    (passes .layer1).forM fun call => call.run su >>= fun _ => pure ⟨⟩ := by
  simp [passes, run, Layer1ToLayer2Handle.onTimer]

/-- The timer of layer 2 makes its passes one after another. -/
theorem layer2_onTimer_eq : Layer2ToLayer1Handle.onTimer su =
    (passes .layer2).forM fun call => call.run su >>= fun _ => pure ⟨⟩ := by
  simp [passes, run, Layer2ToLayer1Handle.onTimer]

/-- `Initialize` of the handler. -/
def initializeHandle : Handle → AgentM Unit
  | .layer1 => Layer1ToLayer2Handle.initializeHandle su
  | .layer2 => Layer2ToLayer1Handle.initializeHandle su

end HandlerCall

/-- The calls are completed one after the other. -/
inductive Session.Completes (su : Setup) {h : Handle} : List (HandlerCall h) → Session → Session → Prop
  | nil (s : Session) : Completes su [] s s
  | cons {call : HandlerCall h} {calls : List (HandlerCall h)} {s t s' : Session} {ok : Bool}
      (first : Runs Session.act (call.run su) s ok t) (rest : Completes su calls t s') :
      Completes su (call :: calls) s s'

/-- Complete calls, given the answers each of them gets. -/
def Session.complete (su : Setup) {h : Handle} :
    List (HandlerCall h × List Answer) → Session → Option Session
  | [], s => some s
  | (call, answers) :: rest, s =>
    match runWith Session.step (call.run su) answers s with
    | some (_, t) => Session.complete su rest t
    | none => none

/-- Calls that are executed to their end complete. -/
theorem Session.completes_of_complete {su : Setup} {h : Handle}
    {calls : List (HandlerCall h × List Answer)} {s s' : Session}
    (hrun : Session.complete su calls s = some s') :
    Session.Completes su (calls.map (·.1)) s s' := by
  induction calls generalizing s with
  | nil =>
    cases hrun
    exact .nil _
  | cons p calls ih =>
    unfold Session.complete at hrun
    split at hrun
    next ok t hfirst =>
      exact .cons (Session.runs_of_answers hfirst) (ih hrun)
    next => cases hrun

/-- Completed calls only add to the trace. -/
theorem Session.Completes.trace_suffix {su : Setup} {h : Handle} {calls : List (HandlerCall h)}
    {s s' : Session} (hrun : Session.Completes su calls s s') : s.trace <:+ s'.trace := by
  induction hrun with
  | nil => exact List.suffix_rfl
  | cons first rest ih => exact (Session.trace_suffix first).trans ih

end CrosschainAgent
