import CrosschainAgent.Session.Rounds

/-!
# What an ack timeout finds out

The timeout of a failure ack or of a reply ack asks the node of the chain the ack was sent to
about its transaction, and then for the record; but the contract it asks about is always that of
layer 2. A success ack is never looked up.
-/

namespace CrosschainAgent

open Interaction Std HttpClient

variable {su : Setup} {h : Handle} {s s' t t' : Session} {currentTime : Int64} {key : Text}
  {e : CrossTx} {steps : List Step}

/-- The acks that a timeout looks up. -/
inductive AckKind where
  | failureAck
  | replyAck
  deriving DecidableEq

namespace AckKind

/-- The chain the ack was sent to. -/
def target (h : Handle) : AckKind → Layer
  | .failureAck => h
  | .replyAck => h.other

/-- The pass that times the ack out. -/
def pass (h : Handle) : AckKind → Pass h
  | .failureAck => .sendAckTimeOut
  | .replyAck => .replyAckTimeOut

/-- The entry is an expired ack of the kind. -/
def Due (su : Setup) (currentTime : Int64) (e : CrossTx) : AckKind → Prop
  | .failureAck => e.sendAckTimeout < currentTime ∧ (e.info su.codec).status ≠ crossResultSuccess
  | .replyAck => e.sendAckTimeout < currentTime

/-- The submission of the ack. -/
def resend (su : Setup) (h : Handle) (e : CrossTx) : AckKind → AgentM Bool
  | .failureAck => Handle.sendAckTo su h (e.info su.codec)
  | .replyAck => Handle.replyAckTo su h (e.info su.codec)

end AckKind

/-- Truthful nodes: a transaction of the ack that is reported as executed has settled the record,
and a contract query is answered only for the contract that the layer has, with its record. -/
structure Truthful (su : Setup) (l : Layer) (key : Text) (e : CrossTx) (status : Int32)
    (steps : List Step) : Prop where
  history : ∀ rest, Replays (getTxResult l (e.ackHash l)) steps true rest → status ≠ crossResultInit
  query : ∀ before address r data,
    ⟨before, .http l (.callContract address (crossTxInfo2Input key)), r⟩ ∈ steps →
      withBody readQueryData r = some (some data) → address = su.conf.crossContract l ∧
        ∀ tokens token, infoList data = some tokens → tokens[0]? = some token →
          Strings.stoi token = status

/-- The node reported the transaction of the ack as executed. -/
def AckExecuted (l : Layer) (e : CrossTx) (steps : List Step) : Prop :=
  ∃ rest, Replays (getTxResult l (e.ackHash l)) steps true rest

/-- The query of the record was answered with data. -/
def RecordAnswered (su : Setup) (l : Layer) (key : Text) (e : CrossTx) (steps : List Step) : Prop :=
  ∃ rest data rest', Replays (getTxResult l (e.ackHash l)) steps false rest ∧
    Replays (getCrossTxInfo2 su.conf l .layer2 key) rest (some data) rest'

/-- The ledger height for the next submission was answered. -/
def HeightAnswered (su : Setup) (l : Layer) (key : Text) (e : CrossTx) (steps : List Step) : Prop :=
  ∃ rest status rest' seq rest'', Replays (getTxResult l (e.ackHash l)) steps false rest ∧
    Replays (getCrossTxStatus su.conf l key) rest status rest' ∧
    Replays (getLayerSeq l) rest' (some seq) rest''

/-- The ack was submitted again. -/
def Resubmitted (su : Setup) (h : Handle) (l : Layer) (e : CrossTx) (steps : List Step) : Prop :=
  ∃ step ∈ steps, ∃ maxLedgerSeq, step.op = .http l (.submitTransaction (su.conf.crossContract l)
    (Handle.sendAckedTxInput h (e.info su.codec)) 0 maxLedgerSeq)

/-- What a timeout of an ack should do: drop the entry of an ack that the target has recorded, and
submit the others again. -/
def Consults (su : Setup) (h : Handle) (kind : AckKind) (status : Int32) (key : Text) (e : CrossTx)
    (s' : Session) (steps : List Step) : Prop :=
  (status ≠ crossResultInit → (s'.state.maps (kind.pass h).store)[key]? = none) ∧
  (status = crossResultInit → ((s'.state.maps (kind.pass h).store)[key]?).isSome ∧
    Resubmitted su h (kind.target h) e steps)

/-- A removal of the entry is seen. -/
theorem clearInfo_removes {store : Store} {r : Unit}
    (hrun : Runs Session.act (Handle.clearInfo store key) s r s') : (s'.state.maps store)[key]? = none := by
  obtain ⟨ok, u, _, herase⟩ := runs_bind.mp hrun
  rw [(runs_perform.mp herase).1.erase_eq, AgentState.setMap_maps_self, AgentState.getElem?_erased,
    if_pos rfl]

/-- What the query of a status saw. -/
theorem getCrossTxStatus_cases {conf : Configure} {l : Layer} {status : Int32} {rest : List Step}
    (hreplays : Replays (getCrossTxStatus conf l key) steps status rest) :
    (status = crossResultInit ∧ Replays (getCrossTxInfo2 conf l .layer2 key) steps none rest) ∨
    ∃ data tokens token, Replays (getCrossTxInfo2 conf l .layer2 key) steps (some data) rest ∧
      infoList data = some tokens ∧ tokens[0]? = some token ∧ Strings.stoi token = status := by
  obtain ⟨res, mid, hquery, hreplays⟩ := runs_bind.mp hreplays
  cases res with
  | none =>
    obtain ⟨rfl, rfl⟩ := runs_pure.mp hreplays
    exact Or.inl ⟨rfl, hquery⟩
  | some data =>
    obtain ⟨tokens, _, htokens, hread⟩ := runs_bind.mp hreplays
    obtain ⟨hinfo, rfl⟩ := runs_orTerminate htokens
    obtain ⟨token, _, htoken, hend⟩ := runs_bind.mp hread
    obtain ⟨hfirst, rfl⟩ := runs_orTerminate htoken
    obtain ⟨rfl, rfl⟩ := runs_pure.mp hend
    exact Or.inr ⟨data, tokens, token, hquery, hinfo, hfirst, rfl⟩

/-- The answer that a query with data got. -/
theorem mem_of_getCrossTxInfo2 {conf : Configure} {l contract : Layer} {data : Text} {rest : List Step}
    (hreplays : Replays (getCrossTxInfo2 conf l contract key) steps (some data) rest) :
    ∃ before r, ⟨before, .http l (.callContract (conf.crossContract contract)
      (crossTxInfo2Input key)), r⟩ ∈ steps ∧ withBody readQueryData r = some (some data) := by
  obtain ⟨r, mid, hquery, hread⟩ := runs_bind.mp hreplays
  obtain ⟨before, rfl⟩ := runs_perform.mp hquery
  exact ⟨before, r, List.mem_cons_self, (runs_orTerminate hread).1⟩

/-- A program that submits nothing decides nothing about it. -/
theorem resubmitted_iff_of_quiet {α : Type} {p : AgentM α} {a : α} {l : Layer} {rest : List Step}
    (hp : Uses Op.Quiet p) (hreplays : Replays p steps a rest) :
    Resubmitted su h l e steps ↔ Resubmitted su h l e rest := by
  refine performed_iff (P := fun o => ∃ maxLedgerSeq, o = Op.http l (.submitTransaction
    (su.conf.crossContract l) (Handle.sendAckedTxInput h (e.info su.codec)) 0 maxLedgerSeq))
    (hp.mono ?_) hreplays
  rintro _ hquiet ⟨maxLedgerSeq, rfl⟩
  exact hquiet

/-- Putting an ack off submits nothing. -/
theorem not_resubmitted_of_setAckTimeout {l : Layer} {store : Store} {time : Int64} {r : Unit}
    (hset : Replays (perform (Op.setAckTimeout store key time)) steps r []) :
    ¬Resubmitted su h l e steps := by
  obtain ⟨before, rfl⟩ := runs_perform.mp hset
  rintro ⟨step, hstep, maxLedgerSeq, hop⟩
  obtain rfl := List.mem_singleton.mp hstep
  cases hop

/-- A submission is made when the ledger height is answered. -/
theorem resend_submits {kind : AckKind} {ok : Bool} {rest : List Step}
    (hreplays : Replays (kind.resend su h e) steps ok rest)
    (hrest : ¬Resubmitted su h (kind.target h) e rest) :
    Resubmitted su h (kind.target h) e steps ↔
      ∃ seq rest', Replays (getLayerSeq (kind.target h)) steps (some seq) rest' := by
  have hcases : ∃ txhash mid, Replays (Handle.sendTransaction su (kind.target h)
      (Handle.sendAckedTxInput h (e.info su.codec)) 0) steps txhash mid ∧ (txhash = none → mid = rest) := by
    cases kind with
    | failureAck | replyAck =>
      obtain ⟨txhash, mid, hsend, hreplays⟩ := runs_bind.mp hreplays
      refine ⟨txhash, mid, hsend, ?_⟩
      rintro rfl
      exact (runs_pure.mp hreplays).2.symm
  obtain ⟨txhash, mid, hsend, hnone⟩ := hcases
  obtain ⟨seq, u, hseq, hsend⟩ := runs_bind.mp hsend
  have hperformed : Resubmitted su h (kind.target h) e steps ↔ Resubmitted su h (kind.target h) e u :=
    resubmitted_iff_of_quiet (quiet_getLayerSeq _) hseq
  cases seq with
  | none =>
    obtain ⟨rfl, rfl⟩ := runs_pure.mp hsend
    rw [← hnone rfl] at hrest
    refine iff_of_false (fun hsubmitted => hrest (hperformed.mp hsubmitted)) ?_
    rintro ⟨seq, rest', hseq'⟩
    exact nomatch (Replays.unique hseq hseq').1
  | some seq =>
    obtain ⟨r, v, hsubmit, _⟩ := runs_bind.mp hsend
    obtain ⟨before, rfl⟩ := runs_perform.mp hsubmit
    exact iff_of_true (hperformed.mpr ⟨_, List.mem_cons_self, _, rfl⟩) ⟨seq, _, hseq⟩

/-- What a truthful node answers about the status. -/
theorem Truthful.status_eq {l : Layer} {status found : Int32} {mid rest : List Step}
    (htruth : Truthful su l key e status steps) (hmid : mid <:+ steps)
    (hreplays : Replays (getCrossTxStatus su.conf l key) mid found rest) :
    (found = crossResultInit ∧ Replays (getCrossTxInfo2 su.conf l .layer2 key) mid none rest) ∨
    (found = status ∧ ∃ data, Replays (getCrossTxInfo2 su.conf l .layer2 key) mid (some data) rest) := by
  rcases getCrossTxStatus_cases hreplays with hinit | ⟨data, tokens, token, hquery, hinfo, hfirst, rfl⟩
  · exact Or.inl hinit
  · obtain ⟨before, r, hmem, hbody⟩ := mem_of_getCrossTxInfo2 hquery
    have hstatus := (htruth.query before _ r data (hmid.subset hmem) hbody).2
    exact Or.inr ⟨hstatus tokens token hinfo hfirst, data, hquery⟩

/-- A truthful node answers the query only where the ack went to layer 2, or where both layers have
the same contract address. -/
theorem Truthful.answered {l : Layer} {status : Int32} (htruth : Truthful su l key e status steps)
    (hanswered : RecordAnswered su l key e steps) :
    su.conf.crossContract .layer2 = su.conf.crossContract l := by
  obtain ⟨rest, data, rest', hfound, hquery⟩ := hanswered
  obtain ⟨before, r, hmem, hbody⟩ := mem_of_getCrossTxInfo2 hquery
  exact (htruth.query before _ r data (Replays.suffix hfound |>.subset hmem) hbody).1

/-- What the round of an expired ack does. -/
theorem ackExpired_outcome {store : Store} {l : Layer} {resend : AgentM Bool}
    (hresend : Uses Op.Keeps resend) (hentry : (t.state.maps store)[key]? = some e)
    (hrun : Runs Session.act (Handle.ackExpired su store l currentTime key e resend) t ⟨⟩ t')
    (hsince : t.Since t' steps) :
    (AckSettled su l key e steps ∧ (t'.state.maps store)[key]? = none) ∨
    (((t'.state.maps store)[key]?).isSome ∧ ∃ mid rest ok last,
      Replays (getTxResult l (e.ackHash l)) steps false mid ∧
      Replays (getCrossTxStatus su.conf l key) mid crossResultInit rest ∧
      Replays resend rest ok last ∧
      Replays (perform (Op.setAckTimeout store key (currentTime + microUnitsPerSec * 60))) last () []) := by
  obtain ⟨all, hall, hreplays⟩ := Session.replays hrun
  obtain rfl := hsince.unique hall
  have herases := ackExpired_erases hresend hreplays
  obtain ⟨found, u, hfound, hrest⟩ := runs_bind.mp hrun
  obtain ⟨mid, hmid, hfound', -⟩ := hsince.split hfound hrest
  cases found with
  | true => exact Or.inl ⟨⟨true, mid, hfound', Or.inl rfl⟩, clearInfo_removes hrest⟩
  | false =>
    obtain ⟨status, v, hstatus, hrest⟩ := runs_bind.mp hrest
    split at hrest
    next hne =>
      obtain ⟨rest, -, hstatus', -⟩ := hmid.split hstatus hrest
      exact Or.inl ⟨⟨false, mid, hfound', Or.inr ⟨status, rest, hstatus', hne⟩⟩, clearInfo_removes hrest⟩
    next heq =>
      obtain rfl := not_not.mp heq
      obtain ⟨rest, -, hstatus', hrest'⟩ := hmid.split hstatus hrest
      obtain ⟨ok, last, hresent, hset⟩ := runs_bind.mp hrest'
      refine Or.inr ⟨kept_of_not_erases hrun hsince (fun herased => ?_) (by rw [hentry]; rfl),
        mid, rest, ok, last, hfound', hstatus', hresent, hset⟩
      have hsettled := herases.mp herased
      rw [AckSettled, Replays.exists_iff hfound', Replays.exists_iff hstatus'] at hsettled
      exact hsettled.elim Bool.false_ne_true (fun hne => hne rfl)

/-- Sending again keeps the entries. -/
theorem AckKind.resend_keepsEntries (kind : AckKind) : Uses Op.Keeps (kind.resend su h e) := by
  cases kind with
  | failureAck => exact sendAckTo_keepsEntries _
  | replyAck => exact replyAckTo_keepsEntries _

/-- The round of a due ack entry. -/
theorem AckKind.round_eq {kind : AckKind} (hdue : kind.Due su currentTime e) :
    (kind.pass h).round su currentTime (key, e) = Handle.ackExpired su (kind.pass h).store
      (kind.target h) currentTime key e (kind.resend su h e) := by
  cases kind with
  | failureAck =>
    change (if e.sendAckTimeout < currentTime then Handle.sendAckExpired su h currentTime key e
      else pure ⟨⟩) = _
    rw [if_pos hdue.1]
    exact if_neg hdue.2
  | replyAck => exact if_pos hdue

/-- The timeout of an ack does what it should exactly when the ack is not recorded and can be
submitted, or is recorded and this is seen: by its transaction, or by the query of the record. -/
theorem consults_iff {kind : AckKind} {status : Int32} (hs : s.WellKeyed su (kind.pass h).store)
    (hround : (kind.pass h).RoundIn su s s' currentTime key e t t') (hdue : kind.Due su currentTime e)
    (hsince : t.Since t' steps) (htruth : Truthful su (kind.target h) key e status steps) :
    Consults su h kind status key e s' steps ↔
      if status = crossResultInit then HeightAnswered su (kind.target h) key e steps
      else AckExecuted (kind.target h) e steps ∨ RecordAnswered su (kind.target h) key e steps := by
  have hafter := hround.after hs
  have hentry := (hround.before hs).2
  obtain ⟨_, _, _, -, -, hrun, -⟩ := hround
  rw [kind.round_eq hdue] at hrun
  unfold Consults
  rw [hafter]
  rcases ackExpired_outcome kind.resend_keepsEntries hentry hrun hsince with
    ⟨⟨found, mid, hfound, hsettled⟩, hgone⟩ | ⟨hkept, mid, rest, ok, last, hfound, hstatus, hresent, hset⟩
  · -- the entry is dropped, for a reason that a truthful node gives only for a settled record
    have hseen : status ≠ crossResultInit ∧ (AckExecuted (kind.target h) e steps ∨
        RecordAnswered su (kind.target h) key e steps) := by
      cases found with
      | true => exact ⟨htruth.history mid hfound, Or.inl ⟨mid, hfound⟩⟩
      | false =>
        obtain ⟨answer, rest, hstatus, hne⟩ := hsettled.resolve_left Bool.false_ne_true
        rcases htruth.status_eq (Replays.suffix hfound) hstatus with ⟨hinit, -⟩ | ⟨rfl, data, hquery⟩
        · exact absurd hinit hne
        · exact ⟨hne, Or.inr ⟨mid, data, rest, hfound, hquery⟩⟩
    rw [if_neg hseen.1]
    exact iff_of_true ⟨fun _ => hgone, fun hinit => absurd hinit hseen.1⟩ hseen.2
  · -- the entry is kept, and the ack submitted again
    have hne : (t'.state.maps (kind.pass h).store)[key]? ≠ none := by
      rw [← Option.isSome_iff_ne_none]
      exact hkept
    by_cases hinit : status = crossResultInit
    · rw [if_pos hinit]
      have hlast : ¬Resubmitted su h (kind.target h) e last := not_resubmitted_of_setAckTimeout hset
      have hsubmits : Resubmitted su h (kind.target h) e steps ↔
          ∃ seq rest', Replays (getLayerSeq (kind.target h)) rest (some seq) rest' := by
        rw [resubmitted_iff_of_quiet (quiet_getTxResult _ _) hfound,
          resubmitted_iff_of_quiet (quiet_getCrossTxStatus _ _ _) hstatus, resend_submits hresent hlast]
      have hheight : HeightAnswered su (kind.target h) key e steps ↔
          ∃ seq rest', Replays (getLayerSeq (kind.target h)) rest (some seq) rest' := by
        constructor
        · rintro ⟨mid', answer, rest', seq, rest'', hfound', hstatus', hseq⟩
          obtain ⟨-, rfl⟩ := Replays.unique hfound hfound'
          obtain ⟨-, rfl⟩ := Replays.unique hstatus hstatus'
          exact ⟨seq, rest'', hseq⟩
        · rintro ⟨seq, rest', hseq⟩
          exact ⟨mid, _, rest, seq, rest', hfound, hstatus, hseq⟩
      rw [hheight, ← hsubmits]
      exact ⟨fun hconsults => (hconsults.2 hinit).2, fun hresubmitted =>
        ⟨fun hne' => absurd hinit hne', fun _ => ⟨hkept, hresubmitted⟩⟩⟩
    · rw [if_neg hinit]
      refine iff_of_false (fun h => hne (h.1 hinit)) ?_
      rintro (⟨mid', hfound'⟩ | ⟨mid', data, rest', hfound', hquery⟩)
      · exact nomatch (Replays.unique hfound hfound').1
      · obtain ⟨-, rfl⟩ := Replays.unique hfound hfound'
        rcases htruth.status_eq (Replays.suffix hfound) hstatus with ⟨-, hnone⟩ | ⟨heq, -⟩
        · exact nomatch (Replays.unique hquery hnone).1
        · exact hinit heq.symm

/-- What the ack pass should do with a success ack that the source has recorded: reply on the other
chain, and submit nothing to the source. -/
def Recovers (su : Setup) (h : Handle) (key : Text) (e : CrossTx) (s' : Session) (steps : List Step) :
    Prop :=
  (s'.state.maps (.ack h))[key]? = none ∧ ((s'.state.maps (.reply h))[key]?).isSome ∧
    (∃ step ∈ steps, ∃ result errorDesc executeTime maxLedgerSeq,
      step.op = .http h.other (.submitTransaction (su.conf.crossContract h.other)
        (.sendAckedTx key result errorDesc executeTime) 0 maxLedgerSeq)) ∧
    ¬Resubmitted su h h e steps

/-- The round of an expired success ack submits it again and keeps it. -/
theorem successAck_outcome (hs : s.WellKeyed su (.ack h))
    (hround : (Pass.sendAckTimeOut : Pass h).RoundIn su s s' currentTime key e t t')
    (hdue : e.sendAckTimeout < currentTime)
    (hsuccess : (e.info su.codec).status = crossResultSuccess) (hsince : t.Since t' steps) :
    ((s'.state.maps (.ack h))[key]?).isSome ∧ (Resubmitted su h h e steps ↔
      ∃ seq rest, Replays (getLayerSeq h) steps (some seq) rest) := by
  have hafter := hround.after hs
  have hentry := (hround.before hs).2
  have hkeyed := (hround.before hs).1 key e hentry
  obtain ⟨_, _, _, -, -, hrun, -⟩ := hround
  obtain ⟨all, hall, hreplays⟩ := Session.replays hrun
  obtain rfl := hall.unique hsince
  have hkept : ¬Erases (.ack h) key steps := fun herased =>
    (((Pass.sendAckTimeOut : Pass h).erases_iff hkeyed hreplays).mp herased).2.1 hsuccess
  refine ⟨?_, ?_⟩
  · rw [show (s'.state.maps (.ack h))[key]? = (t'.state.maps (.ack h))[key]? from hafter]
    exact kept_of_not_erases hrun hsince hkept (Option.isSome_iff_exists.mpr ⟨e, hentry⟩)
  · have hresend : (Pass.sendAckTimeOut : Pass h).round su currentTime (key, e) = (do
        let _ret ← AckKind.failureAck.resend su h e
        perform (Op.setAckTimeout (.ack h) key (currentTime + microUnitsPerSec * 60))) := by
      change (if e.sendAckTimeout < currentTime then Handle.sendAckExpired su h currentTime key e
        else pure ⟨⟩) = _
      rw [if_pos hdue]
      exact if_pos hsuccess
    rw [hresend] at hreplays
    obtain ⟨ok, last, hresent, hset⟩ := runs_bind.mp hreplays
    exact resend_submits hresent (not_resubmitted_of_setAckTimeout hset)

/-- No ack pass recovers a success ack, whatever the source has recorded: the entry is still there
afterwards. -/
theorem successAck_not_recovered (hs : s.WellKeyed su (.ack h))
    (hround : (Pass.sendAckTimeOut : Pass h).RoundIn su s s' currentTime key e t t')
    (hdue : e.sendAckTimeout < currentTime)
    (hsuccess : (e.info su.codec).status = crossResultSuccess) (hsince : t.Since t' steps) :
    ¬Recovers su h key e s' steps := by
  have hkept := (successAck_outcome hs hround hdue hsuccess hsince).1
  rintro ⟨hgone, -⟩
  rw [hgone] at hkept
  cases hkept

/-- The node did not answer the step with the data of a query. -/
def Step.Unanswered : Step → Prop
  | ⟨_, .http _ (.callContract _ _), r⟩ => (withBody readQueryData r).join = none
  | _ => True

instance (step : Step) : Decidable step.Unanswered :=
  match step with
  | ⟨_, .http _ (.callContract _ _), r⟩ =>
    inferInstanceAs (Decidable ((withBody readQueryData r).join = none))
  | ⟨_, .http _ .getLedger, _⟩ | ⟨_, .http _ (.submitTransaction _ _ _ _), _⟩
  | ⟨_, .http _ (.getTransactionHistory _), _⟩ | ⟨_, .highResolution, _⟩ | ⟨_, .dbPut _ _, _⟩
  | ⟨_, .dbDelete _, _⟩ | ⟨_, .dbScan _, _⟩ | ⟨_, .lock _, _⟩ | ⟨_, .unlock _, _⟩
  | ⟨_, .entries _, _⟩ | ⟨_, .emplace _ _ _, _⟩ | ⟨_, .erase _ _, _⟩
  | ⟨_, .setAckTimeout _ _ _, _⟩ | ⟨_, .terminate, _⟩ => inferInstanceAs (Decidable True)

/-- Where no query is answered, the nodes are truthful about a settled record. -/
theorem truthful_of_unanswered {l : Layer} {status : Int32} (hstatus : status ≠ crossResultInit)
    (hunanswered : ∀ step ∈ steps, step.Unanswered) : Truthful su l key e status steps where
  history _ _ := hstatus
  query before address r data hmem hbody := by
    have hnone : (withBody readQueryData r).join = none := hunanswered _ hmem
    rw [hbody] at hnone
    cases hnone

namespace Formats

/-- A configuration with two different contract addresses. -/
def twoContracts : Setup where
  conf := { crossContract := fun
    | .layer1 => "did:bid:bridge1".toList
    | .layer2 => "did:bid:bridge2".toList }
  codec := codec

/-- A process of the layer-1 handler that starts with one ack entry in the database. -/
def ackSession (status : Int32) : Option Session :=
  (runWith Session.step (HandlerCall.initializeHandle twoContracts .layer1)
    [.stored true, .stored true, .time 6, .go, .stored true] (Session.start ((∅ : Database).insert
      (Store.keyPrefix (.ack .layer1) ++ hexText settledId) (codec.serializeAsString
        { crosstxid := hexText settledId, srcbid := bidText 7, destbid := bidText 8, amount := 5,
          status := status, timeout := 103, sendacktol1hash := "b".toList }))).restarted).map (·.2)

/-- The ack pass over that entry, a hundred seconds later. -/
def ackRound (status : Int32) (mine : List Answer) :
    Option (Session × Int64 × CrossTx × Session × Session × Session) :=
  (ackSession status).bind fun s => ((Pass.sendAckTimeOut : Pass .layer1).roundWith twoContracts
    (hexText settledId) [.time 100000000, .go, .go] mine [.go] s).map fun r => (s, r)

/-- What `ackRound` computes is the round of the entry in a session of the handler. -/
theorem roundIn_of_ackRound {status : Int32} {mine : List Answer}
    (hrun : ackRound status mine = some (s, currentTime, e, t, t', s')) :
    Session.Reachable twoContracts .layer1 s ∧
      (Pass.sendAckTimeOut : Pass .layer1).RoundIn twoContracts s s' currentTime (hexText settledId) e
        t t' := by
  obtain ⟨u, hsession, hround⟩ := Option.bind_eq_some_iff.mp hrun
  obtain ⟨r, hround, heq⟩ := Option.map_eq_some_iff.mp hround
  cases heq
  obtain ⟨⟨_, v⟩, hinit, rfl⟩ := Option.map_eq_some_iff.mp hsession
  exact ⟨.restart (.start _) (Session.runs_of_answers hinit).reaches, Pass.roundIn_of_roundWith hround⟩

/-- The node of layer 1 answers a query about a contract that it does not have with an error. -/
def noContractReply : HttpResult :=
  .response (some (object [("result", object [("query_rets", .arr [object
    [("error", object [("data", .str "contract not exist".toList)])]])])]))

end Formats

/-- A settled failure ack is dropped when the node reports its transaction. -/
theorem consults_executed : ∃ s s' t t' currentTime e steps, t.Since t' steps ∧
    (AckKind.failureAck.pass .layer1).RoundIn Formats.twoContracts s s' currentTime
      (Formats.hexText Formats.settledId) e t t' ∧
    (AckExecuted .layer1 e steps ∨
      RecordAnswered Formats.twoContracts .layer1 (Formats.hexText Formats.settledId) e steps) := by
  have hcheck : ((Formats.ackRound 2 [.reply (Formats.historyReply 0), .stored true, .go]).any
      fun (_, currentTime, e, _, t', s') => e.sendAckTimeout < currentTime ∧
        (e.info Formats.twoContracts.codec).status ≠ crossResultSuccess ∧
        ((s'.state.maps (.ack .layer1))[Formats.hexText Formats.settledId]?).isNone ∧
        ∀ step ∈ t'.trace, step.Unanswered) = true := by
    decide +kernel
  obtain ⟨⟨s, currentTime, e, t, t', s'⟩, hrun, hs⟩ := (Option.any_eq_true _ _).mp hcheck
  obtain ⟨hdue, hfailed, hgone, hunanswered⟩ := of_decide_eq_true hs
  obtain ⟨hreachable, hround⟩ := Formats.roundIn_of_ackRound hrun
  obtain ⟨_, _, _, -, -, hmine, -⟩ := id hround
  obtain ⟨steps, hsince, -⟩ := Session.replays hmine
  have hstatus : (2 : Int32) ≠ crossResultInit := by decide
  have htruth : Truthful Formats.twoContracts .layer1 (Formats.hexText Formats.settledId) e 2 steps :=
    truthful_of_unanswered hstatus fun step hstep => hunanswered step (hsince.mem_trace hstep)
  have hexpired : AckKind.failureAck.Due Formats.twoContracts currentTime e := ⟨hdue, hfailed⟩
  change (AckKind.failureAck.pass .layer1).RoundIn Formats.twoContracts s s' _ _ _ _ _ at hround
  have hiff := consults_iff (hreachable.wellKeyed _) hround hexpired hsince htruth
  rw [if_neg hstatus] at hiff
  exact ⟨s, s', t, t', currentTime, e, steps, hsince, hround, hiff.mp
    ⟨fun _ => Option.isNone_iff_eq_none.mp hgone, fun hinit => absurd hinit hstatus⟩⟩

/-- A failure ack that layer 1 has recorded is kept when its transaction is not found: the query that
follows asks layer 1 about the contract of layer 2. -/
theorem consults_wrong_contract : ∃ s s' t t' currentTime e steps, t.Since t' steps ∧
    Session.Reachable Formats.twoContracts .layer1 s ∧
    (AckKind.failureAck.pass .layer1).RoundIn Formats.twoContracts s s' currentTime
      (Formats.hexText Formats.settledId) e t t' ∧
    AckKind.failureAck.Due Formats.twoContracts currentTime e ∧
    Truthful Formats.twoContracts .layer1 (Formats.hexText Formats.settledId) e crossResultFailed
      steps ∧
    ¬Consults Formats.twoContracts .layer1 .failureAck crossResultFailed
      (Formats.hexText Formats.settledId) e s' steps := by
  have hcheck : ((Formats.ackRound 2 [.reply .error, .reply Formats.noContractReply,
      .reply (Formats.ledgerReply 100), .reply (Formats.submitReply "c"), .stored true,
      .time 100000000, .go, .go]).any
      fun (_, currentTime, e, _, t', s') => e.sendAckTimeout < currentTime ∧
        (e.info Formats.twoContracts.codec).status ≠ crossResultSuccess ∧
        ((s'.state.maps (.ack .layer1))[Formats.hexText Formats.settledId]?).isSome ∧
        ∀ step ∈ t'.trace, step.Unanswered) = true := by
    decide +kernel
  obtain ⟨⟨s, currentTime, e, t, t', s'⟩, hrun, hs⟩ := (Option.any_eq_true _ _).mp hcheck
  obtain ⟨hdue, hfailed, hkept, hunanswered⟩ := of_decide_eq_true hs
  obtain ⟨hreachable, hround⟩ := Formats.roundIn_of_ackRound hrun
  obtain ⟨_, _, _, -, -, hmine, -⟩ := id hround
  obtain ⟨steps, hsince, -⟩ := Session.replays hmine
  have hstatus : crossResultFailed ≠ crossResultInit := by decide
  refine ⟨s, s', t, t', currentTime, e, steps, hsince, hreachable, hround, ⟨hdue, hfailed⟩,
    truthful_of_unanswered hstatus fun step hstep => hunanswered step (hsince.mem_trace hstep), ?_⟩
  rintro ⟨hgone, -⟩
  have hnone : (s'.state.maps (.ack .layer1))[Formats.hexText Formats.settledId]? = none := hgone hstatus
  rw [hnone] at hkept
  cases hkept

/-- An expired success ack in a pass whose calls all succeed. -/
theorem exists_successAck : ∃ s s' t t' currentTime e steps, t.Since t' steps ∧
    Session.Reachable Formats.twoContracts .layer1 s ∧
    (Pass.sendAckTimeOut : Pass .layer1).RoundIn Formats.twoContracts s s' currentTime
      (Formats.hexText Formats.settledId) e t t' ∧
    e.sendAckTimeout < currentTime ∧
    (e.info Formats.twoContracts.codec).status = crossResultSuccess ∧
    (s'.state.maps (.reply .layer1))[Formats.hexText Formats.settledId]? = none := by
  have hcheck : ((Formats.ackRound 1 [.reply (Formats.ledgerReply 100),
      .reply (Formats.submitReply "c"), .stored true, .time 100000000, .go, .go]).any
      fun (_, currentTime, e, _, _, s') => e.sendAckTimeout < currentTime ∧
        (e.info Formats.twoContracts.codec).status = crossResultSuccess ∧
        ((s'.state.maps (.reply .layer1))[Formats.hexText Formats.settledId]?).isNone) = true := by
    decide +kernel
  obtain ⟨⟨s, currentTime, e, t, t', s'⟩, hrun, hs⟩ := (Option.any_eq_true _ _).mp hcheck
  obtain ⟨hdue, hsuccess, hnone⟩ := of_decide_eq_true hs
  obtain ⟨hreachable, hround⟩ := Formats.roundIn_of_ackRound hrun
  obtain ⟨_, _, _, -, -, hmine, -⟩ := id hround
  obtain ⟨steps, hsince, -⟩ := Session.replays hmine
  exact ⟨s, s', t, t', currentTime, e, steps, hsince, hreachable, hround, hdue, hsuccess,
    Option.isNone_iff_eq_none.mp hnone⟩

/-- The ack entry of the run is still there afterwards. -/
theorem successAck_not_recovered_settled : ∃ s s' t t' currentTime e steps, t.Since t' steps ∧
    (Pass.sendAckTimeOut : Pass .layer1).RoundIn Formats.twoContracts s s' currentTime
      (Formats.hexText Formats.settledId) e t t' ∧
    ¬Recovers Formats.twoContracts .layer1 (Formats.hexText Formats.settledId) e s' steps := by
  obtain ⟨s, s', t, t', currentTime, e, steps, hsince, hreachable, hround, hdue, hsuccess, -⟩ :=
    exists_successAck
  exact ⟨s, s', t, t', currentTime, e, steps, hsince, hround,
    successAck_not_recovered (hreachable.wellKeyed _) hround hdue hsuccess hsince⟩

/-- In the run no reply is left, although all calls succeed. -/
theorem successAck_no_reply : ∃ s s' t t' currentTime e steps, t.Since t' steps ∧
    Session.Reachable Formats.twoContracts .layer1 s ∧
    (Pass.sendAckTimeOut : Pass .layer1).RoundIn Formats.twoContracts s s' currentTime
      (Formats.hexText Formats.settledId) e t t' ∧
    e.sendAckTimeout < currentTime ∧
    (e.info Formats.twoContracts.codec).status = crossResultSuccess ∧
    ¬Recovers Formats.twoContracts .layer1 (Formats.hexText Formats.settledId) e s' steps := by
  obtain ⟨s, s', t, t', currentTime, e, steps, hsince, hreachable, hround, hdue, hsuccess, hnone⟩ :=
    exists_successAck
  refine ⟨s, s', t, t', currentTime, e, steps, hsince, hreachable, hround, hdue, hsuccess, ?_⟩
  rintro ⟨-, hreply, -⟩
  rw [hnone] at hreply
  cases hreply

end CrosschainAgent
