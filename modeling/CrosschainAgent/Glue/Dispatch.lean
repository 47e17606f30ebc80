import CrosschainAgent.Glue.Manager
import CrosschainAgent.System.Formats

/-!
# The dispatch of a cross contract's logs

A message of a cross contract carries any number of logs, each with any number of entries. The logs
with a configured topic ask for one handler call each, with their first entry. What the manager does
with a message is compared, as a program, with these calls made one after the other.
-/

namespace CrosschainAgent

open Interaction HttpClient Handle HandleManager

namespace HandleManager

variable (su : ManagerSetup) (l : Layer)

/-- The handler call a log asks for: none without a configured topic, or without an entry. -/
def callFor (tlog : Protocol.Tlog) : Option (Topic × Text) := do
  let topic ← topicOf su l tlog.topic
  let crossTxId ← tlog.tlog.head?
  return (topic, crossTxId)

/-- The handler calls the logs of a message ask for, in order. -/
def callsFor (tlogs : List Protocol.Tlog) : List (Topic × Text) := tlogs.filterMap (callFor su l)

/-- The call of a handler, as the manager makes it. -/
def callHandler (call : Topic × Text) : ManagerM Bool :=
  ManagerM.ofAgent (onTopic su.toSetup l call.1 call.2)

/-- The program makes these handler calls and does nothing else; what it returns depends on what they
return. -/
def Dispatches (p : ManagerM Bool) (calls : List (Topic × Text)) : Prop :=
  ∃ ret : List Bool → Bool, p = (do
    let rets ← calls.mapM (callHandler su l)
    return ret rets)

/-- `OnLayer1SubscribeResponse` and `OnLayer2SubscribeResponse`. -/
def onSubscribeResponse (msg : Text) : ManagerM Bool :=
  match l with
  | .layer1 => onLayer1SubscribeResponse su msg
  | .layer2 => onLayer2SubscribeResponse su msg

variable {su l} {tlogs rest : List Protocol.Tlog} {tlog : Protocol.Tlog} {res : Protocol.TlogSubscribeResponse}

/-- A handler call begins with a request. -/
theorem callHandler_eq (call : Topic × Text) : ∃ endpoint request k,
    callHandler su l call = .op (.agent (.http endpoint request)) k := by
  obtain ⟨topic, crossTxId⟩ := call
  cases l <;> cases topic <;> exact ⟨_, _, _, rfl⟩

/-- A handler call returns false when its first request fails. -/
theorem callHandler_returns (call : Topic × Text) :
    Runs (fun _ (_ : Unit) _ _ => True) (callHandler su l call) () false () := by
  obtain ⟨topic, crossTxId⟩ := call
  cases l <;> cases topic <;> exact ⟨HttpResult.error, (), trivial, rfl, rfl⟩

/-- A sequence of calls that is not empty begins with a request. -/
theorem dispatches_cons {p : ManagerM Bool} {call : Topic × Text} {calls : List (Topic × Text)}
    (hp : Dispatches su l p (call :: calls)) : ∃ endpoint request k,
      p = .op (.agent (.http endpoint request)) k := by
  obtain ⟨ret, rfl⟩ := hp
  obtain ⟨endpoint, request, k, hcall⟩ := @callHandler_eq su l call
  rw [List.mapM_cons, hcall]
  exact ⟨endpoint, request, _, rfl⟩

/-- A program that returns at once makes no call. -/
theorem dispatches_pure_iff {ok : Bool} {calls : List (Topic × Text)} :
    Dispatches su l (pure ok) calls ↔ calls = [] := by
  constructor
  · intro hp
    cases calls with
    | nil => rfl
    | cons call calls =>
      obtain ⟨endpoint, request, k, heq⟩ := dispatches_cons hp
      cases heq
  · rintro rfl
    exact ⟨fun _ => ok, by simp⟩

/-- A program that ends the process makes no sequence of calls. -/
theorem not_dispatches_terminate {k : Empty → ManagerM Bool} {calls : List (Topic × Text)} :
    ¬Dispatches su l (.op (.agent .terminate) k) calls := by
  intro hp
  cases calls with
  | nil =>
    obtain ⟨ret, heq⟩ := hp
    rw [List.mapM_nil, pure_bind] at heq
    cases heq
  | cons call calls =>
    obtain ⟨endpoint, request, k, heq⟩ := dispatches_cons hp
    cases heq

/-- One call makes a sequence of calls only if there is no other. -/
theorem dispatches_call_iff {call : Topic × Text} {calls : List (Topic × Text)} :
    Dispatches su l (callHandler su l call) (call :: calls) ↔ calls = [] := by
  constructor
  · rintro ⟨ret, heq⟩
    have hseq : callHandler su l call >>= pure = callHandler su l call >>= fun ok => do
        let rets ← calls.mapM (callHandler su l)
        return ret (ok :: rets) := by
      simpa [List.mapM_cons, bind_assoc] using heq
    have hrest := (callHandler_returns call).bind_inj hseq
    exact dispatches_pure_iff.mp ⟨fun rets => ret (false :: rets), hrest⟩
  · rintro rfl
    exact ⟨fun rets => rets.headD false, by simp⟩

/-- A log makes no call exactly when its topic is unknown or its text empty. -/
theorem callFor_eq_none_iff : callFor su l tlog = none ↔ topicOf su l tlog.topic = none ∨ tlog.tlog = [] := by
  rw [callFor]
  cases topicOf su l tlog.topic with
  | none => simp
  | some topic => cases tlog.tlog <;> simp

/-- Logs make no call exactly when none of them does. -/
theorem callsFor_eq_nil_iff : callsFor su l tlogs = [] ↔
    ∀ tlog ∈ tlogs, topicOf su l tlog.topic = none ∨ tlog.tlog = [] := by
  rw [callsFor, List.filterMap_eq_nil_iff]
  exact forall₂_congr fun _ _ => callFor_eq_none_iff

/-- The manager looks at the first log only, and at its first entry before its topic. -/
theorem onCrossContractTlog_dispatches_iff :
    Dispatches su l (onCrossContractTlog su l res) (callsFor su l res.tlogs) ↔
      ∃ tlog rest, res.tlogs = tlog :: rest ∧ tlog.tlog ≠ [] ∧
        ∀ other ∈ rest, topicOf su l other.topic = none ∨ other.tlog = [] := by
  cases htlogs : res.tlogs with
  | nil =>
    have hend : ∃ k, onCrossContractTlog su l res = .op (.agent .terminate) k := by
      rw [onCrossContractTlog, htlogs]
      exact ⟨_, rfl⟩
    obtain ⟨k, hend⟩ := hend
    rw [hend]
    exact iff_of_false not_dispatches_terminate (by simp)
  | cons tlog rest =>
    cases hentries : tlog.tlog with
    | nil =>
      have hend : ∃ k, onCrossContractTlog su l res = .op (.agent .terminate) k := by
        rw [onCrossContractTlog, htlogs]
        change ∃ k, (ManagerM.ofAgent (orTerminate tlog.tlog[0]?) >>= _) = _
        rw [hentries]
        exact ⟨_, rfl⟩
      obtain ⟨k, hend⟩ := hend
      rw [hend]
      exact iff_of_false not_dispatches_terminate (by simp [hentries])
    | cons crossTxId entries =>
      have hcond : (∃ tlog' rest', tlog :: rest = tlog' :: rest' ∧ tlog'.tlog ≠ [] ∧
          ∀ other ∈ rest', topicOf su l other.topic = none ∨ other.tlog = []) ↔
          callsFor su l rest = [] := by
        rw [callsFor_eq_nil_iff]
        constructor
        · rintro ⟨_, _, heq, _, hrest⟩
          cases heq
          exact hrest
        · exact fun hrest => ⟨tlog, rest, rfl, by simp [hentries], hrest⟩
      rw [hcond]
      cases htopic : topicOf su l tlog.topic with
      | none =>
        have hfirst : onCrossContractTlog su l res = return false := by
          rw [onCrossContractTlog, htlogs]
          change (ManagerM.ofAgent (orTerminate tlog.tlog[0]?) >>= _) = _
          rw [hentries, htopic]
          rfl
        have hcalls : callsFor su l (tlog :: rest) = callsFor su l rest :=
          List.filterMap_cons_none (callFor_eq_none_iff.mpr (Or.inl htopic))
        rw [hfirst, hcalls]
        exact dispatches_pure_iff
      | some topic =>
        have hfirst : onCrossContractTlog su l res = callHandler su l (topic, crossTxId) := by
          rw [onCrossContractTlog, htlogs]
          change (ManagerM.ofAgent (orTerminate tlog.tlog[0]?) >>= _) = _
          rw [hentries, htopic]
          rfl
        have hcall : callFor su l tlog = some (topic, crossTxId) := by
          simp [callFor, htopic, hentries]
        have hcalls : callsFor su l (tlog :: rest) = (topic, crossTxId) :: callsFor su l rest :=
          List.filterMap_cons_some hcall
        rw [hfirst, hcalls]
        exact dispatches_call_iff

/-- A message of the cross contract goes to its dispatch. -/
theorem onSubscribeResponse_eq {msg : Text} (hmsg : su.parseTlogSubscribeResponse msg = some res)
    (haddress : res.address = su.conf.crossContract l) :
    onSubscribeResponse su l msg = onCrossContractTlog su l res := by
  cases l with
  | layer1 => simp [onSubscribeResponse, onLayer1SubscribeResponse, hmsg, haddress]
  | layer2 => simp [onSubscribeResponse, onLayer2SubscribeResponse, hmsg, haddress]

/-- The calls the logs of a message of a cross contract ask for are made, one after the other,
exactly when the message has a first log with an entry and no other log asks for a call. -/
theorem dispatches_iff {msg : Text} (hmsg : su.parseTlogSubscribeResponse msg = some res)
    (haddress : res.address = su.conf.crossContract l) :
    Dispatches su l (onSubscribeResponse su l msg) (callsFor su l res.tlogs) ↔
      ∃ tlog rest, res.tlogs = tlog :: rest ∧ tlog.tlog ≠ [] ∧
        ∀ other ∈ rest, topicOf su l other.topic = none ∨ other.tlog = [] := by
  rw [onSubscribeResponse_eq hmsg haddress]
  exact onCrossContractTlog_dispatches_iff

/-- A message with the logs of two deposits, and one without a log. -/
def twoDeposits : Protocol.TlogSubscribeResponse :=
  ⟨"did:bid:bridge".toList, [⟨"StartTx".toList, [Formats.hexText Formats.waitingId]⟩,
    ⟨"StartTx".toList, [Formats.hexText Formats.settledId]⟩]⟩

def noDeposit : Protocol.TlogSubscribeResponse := ⟨"did:bid:bridge".toList, []⟩

/-- A manager that can decode these messages. -/
def relaySetup : ManagerSetup :=
  { Formats.managerSetup with
    parseTlogSubscribeResponse := fun msg =>
      [Formats.waitingMessage, twoDeposits, noDeposit].find? (Formats.responseText · = msg) }

/-- The message of a waiting transfer is dispatched. -/
theorem dispatches_iff_waiting : Dispatches relaySetup .layer2
    (onSubscribeResponse relaySetup .layer2 (Formats.responseText Formats.waitingMessage))
    [(.startTxTopic, Formats.hexText Formats.waitingId)] := by
  have hmsg : relaySetup.parseTlogSubscribeResponse (Formats.responseText Formats.waitingMessage) =
      some Formats.waitingMessage := by
    decide +kernel
  have hcalls : callsFor relaySetup .layer2 Formats.waitingMessage.tlogs =
      [(.startTxTopic, Formats.hexText Formats.waitingId)] := by
    decide +kernel
  rw [← hcalls]
  refine (dispatches_iff hmsg rfl).mpr ⟨_, [], rfl, List.cons_ne_nil _ _, ?_⟩
  exact fun _ hother => absurd hother List.not_mem_nil

/-- The log of a second deposit is skipped, and a message without a log is indexed past its end. -/
theorem dispatch_skips_second_log :
    ¬Dispatches relaySetup .layer2 (onSubscribeResponse relaySetup .layer2
      (Formats.responseText twoDeposits)) (callsFor relaySetup .layer2 twoDeposits.tlogs) ∧
    ¬Dispatches relaySetup .layer2 (onSubscribeResponse relaySetup .layer2
      (Formats.responseText noDeposit)) (callsFor relaySetup .layer2 noDeposit.tlogs) := by
  have htwo : relaySetup.parseTlogSubscribeResponse (Formats.responseText twoDeposits) =
      some twoDeposits := by
    decide +kernel
  have hnone : relaySetup.parseTlogSubscribeResponse (Formats.responseText noDeposit) =
      some noDeposit := by
    decide +kernel
  rw [onSubscribeResponse_eq htwo rfl, onSubscribeResponse_eq hnone rfl,
    onCrossContractTlog_dispatches_iff, onCrossContractTlog_dispatches_iff]
  constructor
  · rintro ⟨tlog, rest, htlogs, _, hrest⟩
    cases htlogs
    have hsecond := hrest _ List.mem_cons_self
    revert hsecond
    decide +kernel
  · rintro ⟨tlog, rest, htlogs, _⟩
    cases htlogs

end HandleManager

end CrosschainAgent
