import CrosschainAgent.Session.Rounds
import CrosschainAgent.Session.Submissions

/-!
# The entries of a confirm pass

A confirm pass submits one transaction for every entry whose height is confirmed: `SendTx` on layer 1,
or, once the timeout of the transfer has passed, an ack on layer 2. What becomes of the entry is decided
by the answer, and only a `SendTx` that is accepted removes it.
-/

namespace CrosschainAgent

open Interaction Iteration Std HttpClient

variable {su : Setup} {confirmSeq now : Int64} {s s' t : Session} {key : Text} {e : CrossTx}
  {steps rest : List Step}

/-- The operation submits a transaction about the transfer. -/
def Op.SubmitsFor (id : Text) : Op → Prop
  | .http _ (.submitTransaction _ input _ _) => input.crossTxId = id
  | _ => False

/-- The map and the database have no entry under the key. -/
def AgentState.Gone (a : AgentState) (store : Store) (key : Text) : Prop :=
  (a.maps store)[key]? = none ∧ a.db[store.keyPrefix ++ key]? = none

/-- The submission that a confirmed message calls for: `SendTx` on layer 1, or an ack with the result
`TIMEOUT` on layer 2 if its timeout has passed. -/
def confirmedSubmission (su : Setup) (info : Protocol.CrossTxInfo) (currentTime : Int64) :
    AgentM (Option Text) :=
  if info.timeout < currentTime then
    Handle.sendTransaction su .layer2
      (Handle.sendAckedTxInput .layer2 { info with status := crossResultTimeout }) 0
  else
    Handle.sendTransaction su .layer1 (Handle.sendTxInput info) info.amount

/-- Exactly one submission was attempted for the entry, the one it calls for at the time that was read
before. -/
def AttemptedOnce (su : Setup) (key : Text) (e : CrossTx) (steps : List Step) (txhash : Option Text) :
    Prop :=
  ∃ before first now mine after, steps = before ++ ⟨first, .highResolution, now⟩ :: (mine ++ after) ∧
    Replays (confirmedSubmission su (e.info su.codec) now) mine txhash [] ∧
    ∀ step ∈ before ++ after, ¬step.op.SubmitsFor key

/-- The pass has treated the entry as it should between two sessions. An entry that is not confirmed is
left alone. For one that is, one submission was attempted, and the entry is gone if that was accepted
and unchanged otherwise. -/
def Treated (su : Setup) (confirmSeq : Int64) (s s' : Session) (key : Text) (e : CrossTx)
    (steps : List Step) : Prop :=
  if (e.info su.codec).confirmseq ≤ confirmSeq then
    ∃ txhash, AttemptedOnce su key e steps txhash ∧
      if txhash.isSome then s'.state.Gone .start key else s.state.SameAt s'.state .start key
  else
    (∀ step ∈ steps, ¬step.op.SubmitsFor key) ∧ s.state.SameAt s'.state .start key

/-- The submission for a confirmed entry was accepted in its round, at the given time. -/
def ConfirmedAccepted (su : Setup) (confirmSeq : Int64) (e : CrossTx) (steps : List Step)
    (now : Int64) : Prop :=
  (e.info su.codec).confirmseq ≤ confirmSeq ∧ ∃ rest, Replays highResolution steps now rest ∧
    SubmissionAccepted (confirmedSubmission su (e.info su.codec) now) rest

section Submissions

/-- What is quiet submits nothing. -/
theorem Op.Quiet.not_submitsFor {o : Op} (hquiet : o.Quiet) (id : Text) : ¬o.SubmitsFor id := by
  cases o with
  | http l request =>
    cases request with
    | submitTransaction => exact hquiet.elim
    | getLedger | callContract | getTransactionHistory => exact False.elim
  | highResolution | dbPut | dbDelete | dbScan | lock | unlock | entries | emplace | erase
  | setAckTimeout | terminate => exact False.elim

instance (id : Text) (o : Op) : Decidable (o.SubmitsFor id) :=
  match o with
  | .http _ (.submitTransaction _ input _ _) => inferInstanceAs (Decidable (input.crossTxId = id))
  | .http _ .getLedger | .http _ (.callContract _ _) | .http _ (.getTransactionHistory _)
  | .highResolution | .dbPut _ _ | .dbDelete _ | .dbScan _ | .lock _ | .unlock _ | .entries _
  | .emplace _ _ _ | .erase _ _ | .setAckTimeout _ _ _ | .terminate => inferInstanceAs (Decidable False)

/-- The answers to the submissions about a transfer. -/
def answersFor (key : Text) (steps : List Step) : List HttpResult :=
  answers (steps.filter fun step => step.op.SubmitsFor key)

/-- The answers of two parts are the answers of each. -/
theorem answersFor_append : answersFor key (steps ++ rest) = answersFor key steps ++ answersFor key rest := by
  rw [answersFor, List.filter_append, answers_append, answersFor, answersFor]

/-- Steps without a submission for the key have no answers for it. -/
theorem answersFor_eq_nil (hnone : ∀ step ∈ steps, ¬step.op.SubmitsFor key) : answersFor key steps = [] := by
  rw [answersFor, List.filter_eq_nil_iff.mpr fun step hstep => by simpa using hnone step hstep]
  rfl

/-- The answer to one submission for the key. -/
theorem answersFor_singleton {step : Step} (hsubmits : step.op.SubmitsFor key) :
    answersFor key [step] = answers [step] := by
  have hself : [step].filter (fun step => step.op.SubmitsFor key) = [step] :=
    List.filter_eq_self.mpr fun other hother => by
      rw [List.mem_singleton.mp hother]
      exact decide_eq_true hsubmits
  rw [answersFor, hself]

/-- A submission about a transfer has one answer at most, which decides what it returns. -/
theorem sendTransaction_answersFor {l : Layer} {input : TxInput} {amount : Int64} {txhash : Option Text}
    (hid : input.crossTxId = key)
    (hreplays : Replays (Handle.sendTransaction su l input amount) steps txhash []) :
    txhash = (answersFor key steps).head?.bind acceptedHash := by
  obtain ⟨seq, first, second, rfl, hseq, hrest⟩ := replays_bind hreplays
  have hnone : answersFor key first = [] := answersFor_eq_nil fun step hstep =>
    (hseq.uses (quiet_getLayerSeq l) step hstep).not_submitsFor key
  rw [answersFor_append, hnone, List.nil_append]
  cases seq with
  | none =>
    obtain ⟨rfl, rfl⟩ := runs_pure.mp hrest
    rfl
  | some seq =>
    obtain ⟨r, mid, ⟨before, rfl⟩, hread⟩ := hrest
    obtain ⟨haccepted, rfl⟩ := runs_orTerminate hread
    have hanswer : acceptedHash r = txhash := by rw [acceptedHash, haccepted, Option.join_some]
    have hsubmits : (Op.http l (.submitTransaction (su.conf.crossContract l) input amount (seq + 200))).SubmitsFor
        key := hid
    rw [answersFor_singleton hsubmits]
    exact hanswer.symm

/-- The hash of a confirmed submission is that of its first answer. -/
theorem confirmedSubmission_answersFor {info : Protocol.CrossTxInfo} {txhash : Option Text}
    (hid : info.crosstxid = key)
    (hreplays : Replays (confirmedSubmission su info now) steps txhash []) :
    txhash = (answersFor key steps).head?.bind acceptedHash := by
  unfold confirmedSubmission at hreplays
  split at hreplays
  · refine sendTransaction_answersFor ?_ hreplays
    exact hid
  · refine sendTransaction_answersFor ?_ hreplays
    exact hid

/-- A submission for a confirmed entry that was accepted has an accepted answer in its round. -/
theorem ConfirmedAccepted.answered (hid : (e.info su.codec).crosstxid = key)
    (haccepted : ConfirmedAccepted su confirmSeq e steps now) :
    ((answersFor key steps).head?.bind acceptedHash).isSome := by
  obtain ⟨_, rest, hclock, hash, rest', hreplays⟩ := haccepted
  obtain ⟨before, rfl⟩ := runs_perform.mp hclock
  obtain ⟨mine, rfl, hmine⟩ := hreplays.exists_prefix
  have hclock : answersFor key (⟨before, .highResolution, now⟩ :: (mine ++ rest')) =
      answersFor key (mine ++ rest') := rfl
  have hhash := confirmedSubmission_answersFor hid hmine
  rw [hclock, answersFor_append, List.head?_append]
  cases hhead : (answersFor key mine).head? with
  | none =>
    rw [hhead] at hhash
    cases hhash
  | some r =>
    rw [hhead] at hhash
    rw [Option.some_or, ← hhash]
    rfl

/-- The attempt that was made is determined by the operations. -/
theorem AttemptedOnce.txhash_eq {txhash : Option Text} (hid : (e.info su.codec).crosstxid = key)
    (hattempted : AttemptedOnce su key e steps txhash) :
    txhash = (answersFor key steps).head?.bind acceptedHash := by
  obtain ⟨before, first, now, mine, after, rfl, hreplays, hnone⟩ := hattempted
  obtain ⟨hbefore, hafter⟩ := List.forall_mem_append.mp hnone
  have hclock : answersFor key (⟨first, .highResolution, now⟩ :: (mine ++ after)) =
      answersFor key (mine ++ after) := rfl
  rw [confirmedSubmission_answersFor hid hreplays, answersFor_append, hclock, answersFor_append,
    answersFor_eq_nil hbefore, answersFor_eq_nil hafter, List.nil_append, List.append_nil]

/-- Saving an entry submits nothing. -/
theorem not_submitsFor_saves {store : Store} {info : Protocol.CrossTxInfo} (id : Text) :
    Op.Saves su (fun o => ¬o.SubmitsFor id) store info := ⟨fun h => h, fun _ h => h⟩

/-- A submission and what follows it when it is accepted. -/
theorem replays_then {α β : Type} {p : AgentM α} {q : AgentM β} {a : α} {b : β} {u : Session}
    (hfirst : Runs Session.act p s a u) (hrest : Runs Session.act q u b t) (hsince : s.Since t steps) :
    ∃ mine after, steps = mine ++ after ∧ Replays p mine a [] ∧ Replays q after b [] ∧
      u.Since t after := by
  obtain ⟨mine, hmine, hreplays⟩ := Session.replays hfirst
  obtain ⟨after, hafter, hreplays'⟩ := Session.replays hrest
  exact ⟨mine, after, (hmine.trans hafter).unique hsince, hreplays, hreplays', hafter⟩

/-- A timeout ack leaves the start entries, whether it is accepted or not. -/
theorem sendAckTo_attempt {info : Protocol.CrossTxInfo} {ok : Bool}
    (hrun : Runs Session.act (Handle.sendAckTo su .layer2 info) s ok t) (hsince : s.Since t steps) :
    ∃ txhash mine after, steps = mine ++ after ∧ Replays (Handle.sendTransaction su .layer2
        (Handle.sendAckedTxInput .layer2 info) 0) mine txhash [] ∧
      (∀ step ∈ after, ¬step.op.SubmitsFor key) ∧ s.state.SameAt t.state .start key := by
  rcases sendAckTo_cases hrun with ⟨_, hsend⟩ | ⟨hash, u, _, hsend, hsave⟩
  · obtain ⟨mine, hmine, hreplays⟩ := Session.replays hsend
    obtain rfl := hmine.unique hsince
    refine ⟨none, steps, [], (List.append_nil _).symm, hreplays, nofun, ?_⟩
    rw [state_of_remote (remote_sendTransaction ..) hsend]
    exact .refl _ _ _
  · obtain ⟨mine, after, rfl, hmine, hafter, _⟩ := replays_then hsend hsave hsince
    refine ⟨some hash, mine, after, rfl, hmine, hafter.uses (P := fun o => ¬o.SubmitsFor key) ?_, ?_⟩
    · exact uses_saveAckInfo (fun o hquiet => hquiet.not_submitsFor key) _ (not_submitsFor_saves key)
    · rw [← state_of_remote (remote_sendTransaction ..) hsend]
      have htouches : Uses (Op.Touches fun store _ => store = .ack .layer2) (Handle.saveAckInfo .layer2
          (.ack .layer2) (CrossTx.ofInfo su.codec (info.setAckHash .layer2 hash))) :=
        uses_saveAckInfo touches_of_quiet _ (saves_touches rfl)
      exact same_of_touches htouches hsave nofun

/-- A `SendTx` that is accepted clears the start entry, in the database if that deletes it. -/
theorem sendTxTo_attempt {info : Protocol.CrossTxInfo} {r : PUnit} (hid : info.crosstxid = key)
    (hrun : Runs Session.act (do
      if ← Handle.sendTxTo su .layer2 info then
        Handle.clearInfo .start info.crosstxid) s r t) (hsince : s.Since t steps) :
    ∃ txhash mine after, steps = mine ++ after ∧ Replays (Handle.sendTransaction su .layer1
        (Handle.sendTxInput info) info.amount) mine txhash [] ∧
      (∀ step ∈ after, ¬step.op.SubmitsFor key) ∧
      (txhash = none ∧ s.state.SameAt t.state .start key ∨
        txhash.isSome ∧ (t.state.maps .start)[key]? = none ∧
          (t.state.db[Store.start.keyPrefix ++ key]? = none ↔
            Answered (.dbDelete (Store.start.keyPrefix ++ key)) true after ∨
            s.state.db[Store.start.keyPrefix ++ key]? = none)) := by
  obtain ⟨ok, u, hfirst, hrun⟩ := runs_bind.mp hrun
  rcases sendTxTo_cases hfirst with ⟨rfl, hsend⟩ | ⟨hash, v, rfl, hsend, hsave⟩
  · obtain ⟨_, rfl⟩ := runs_pure.mp hrun
    obtain ⟨mine, hmine, hreplays⟩ := Session.replays hsend
    obtain rfl := hmine.unique hsince
    refine ⟨none, steps, [], (List.append_nil _).symm, hreplays, nofun, Or.inl ⟨rfl, ?_⟩⟩
    rw [state_of_remote (remote_sendTransaction ..) hsend]
    exact .refl _ _ _
  · rw [hid] at hrun
    have hrest : Runs Session.act (do
        Handle.saveInfo (.send .layer2) (CrossTx.ofInfo su.codec { info with sendtxhash := hash })
        Handle.clearInfo .start key) v () t := runs_bind.mpr ⟨_, u, hsave, hrun⟩
    obtain ⟨mine, after, rfl, hmine, hafter, hsinceAfter⟩ := replays_then hsend hrest hsince
    refine ⟨some hash, mine, after, rfl, hmine, hafter.uses (P := fun o => ¬o.SubmitsFor key) ?_, Or.inr ⟨rfl, ?_⟩⟩
    · exact Uses.bind (uses_saveInfo (not_submitsFor_saves key)) fun _ => uses_clearInfo id id
    · obtain ⟨e', put, first, hstate, hfirst', _, hnoDelete⟩ := Session.saves_saveInfo hsave
      obtain ⟨delete, second, hstate', hsecond, hdelete, _⟩ := Session.clears_clearInfo hrun
      obtain rfl := (hfirst'.trans hsecond).unique hsinceAfter
      rw [answered_append, or_iff_right (hnoDelete _), hdelete]
      have hv : v.state = s.state := state_of_remote (remote_sendTransaction ..) hsend
      have hsame : s.state.SameAt u.state .start key := by
        rw [← hv]
        have htouches : Uses (Op.Touches fun store _ => store = .send .layer2) (Handle.saveInfo
            (.send .layer2) (CrossTx.ofInfo su.codec { info with sendtxhash := hash })) :=
          uses_saveInfo (saves_touches rfl)
        exact same_of_touches htouches hsave nofun
      rw [hstate', ← hsame.db]
      cases delete <;> simp [AgentState.cleared]

/-- What a round does with its entry: nothing unless it is confirmed, and nothing but the attempt unless
it is accepted. An ack that is accepted leaves the entry, a `SendTx` that is accepted clears it. -/
theorem confirmRound_cases (he : e.FiledUnder su key)
    (hrun : Runs Session.act ((Pass.handleConfirmSeqEvent confirmSeq).round su now (key, e)) s ⟨⟩ t)
    (hsince : s.Since t steps) :
    ∃ currentTime rest, steps = ⟨s.state, .highResolution, currentTime⟩ :: rest ∧
      (¬(e.info su.codec).confirmseq ≤ confirmSeq ∧ rest = [] ∧ s.state.SameAt t.state .start key ∨
        (e.info su.codec).confirmseq ≤ confirmSeq ∧ ∃ txhash mine after, rest = mine ++ after ∧
          Replays (confirmedSubmission su (e.info su.codec) currentTime) mine txhash [] ∧
          (∀ step ∈ after, ¬step.op.SubmitsFor key) ∧
          (txhash = none ∧ s.state.SameAt t.state .start key ∨
            txhash.isSome ∧ (e.info su.codec).timeout < currentTime ∧
              s.state.SameAt t.state .start key ∨
            txhash.isSome ∧ ¬(e.info su.codec).timeout < currentTime ∧
              (t.state.maps .start)[key]? = none ∧ (t.state.db[Store.start.keyPrefix ++ key]? = none ↔
                Answered (.dbDelete (Store.start.keyPrefix ++ key)) true after ∨
                s.state.db[Store.start.keyPrefix ++ key]? = none))) := by
  obtain ⟨currentTime, s1, hclock, hrun⟩ := runs_bind.mp hrun
  have hact := runs_perform.mp hclock
  have hs1 : s1.state = s.state := hact.1.eq_of_remote trivial
  obtain ⟨rest, hrest, hreplays⟩ := Session.replays hrun
  obtain rfl := ((Session.since_act hact).trans hrest).unique hsince
  refine ⟨currentTime, rest, rfl, ?_⟩
  by_cases hconfirmed : (e.info su.codec).confirmseq ≤ confirmSeq
  · refine Or.inr ⟨hconfirmed, ?_⟩
    rw [if_pos hconfirmed] at hrun
    rw [← hs1]
    unfold Layer2ToLayer1Handle.confirmed at hrun
    split at hrun
    next hlate =>
      obtain ⟨ok, u, hack, hend⟩ := runs_bind.mp hrun
      obtain ⟨_, rfl⟩ := runs_pure.mp hend
      obtain ⟨txhash, mine, after, heq, hmine, hnone, hsame⟩ := sendAckTo_attempt hack hrest
      refine ⟨txhash, mine, after, heq, ?_, hnone, ?_⟩
      · rwa [confirmedSubmission, if_pos hlate]
      · cases txhash with
        | none => exact Or.inl ⟨rfl, hsame⟩
        | some hash => exact Or.inr (Or.inl ⟨rfl, hlate, hsame⟩)
    next hintime =>
      obtain ⟨txhash, mine, after, heq, hmine, hnone, hcases⟩ := sendTxTo_attempt he.info hrun hrest
      refine ⟨txhash, mine, after, heq, ?_, hnone, ?_⟩
      · rwa [confirmedSubmission, if_neg hintime]
      · rcases hcases with ⟨hrejected, hsame⟩ | ⟨haccepted, hgone⟩
        · exact Or.inl ⟨hrejected, hsame⟩
        · exact Or.inr (Or.inr ⟨haccepted, hintime, hgone⟩)
  · refine Or.inl ⟨hconfirmed, ?_⟩
    rw [if_neg hconfirmed] at hrun
    obtain ⟨_, rfl⟩ := runs_pure.mp hrun
    rw [hs1]
    exact ⟨(Session.Since.refl _).unique hrest, .refl _ _ _⟩

end Submissions

section Round

/-- A database that deletes was asked to by none but the operations that clear. -/
theorem not_answered_delete {α : Type} {p : AgentM α} {a : α} {k : Text} (hp : Uses Op.Remote p)
    (hreplays : Replays p steps a []) : ¬Answered (.dbDelete k) true steps := by
  rintro ⟨before, hstep⟩
  exact hreplays.uses hp _ hstep

/-- The submission of a confirmed entry leaves the stores. -/
theorem remote_confirmedSubmission (info : Protocol.CrossTxInfo) (currentTime : Int64) :
    Uses Op.Remote (confirmedSubmission su info currentTime) :=
  Uses.ite (remote_sendTransaction ..) (remote_sendTransaction ..)

/-- An entry for which one submission was attempted is treated as it should by what is left of it. -/
theorem AttemptedOnce.treated_iff {txhash : Option Text} (he : e.FiledUnder su key)
    (hattempted : AttemptedOnce su key e steps txhash)
    (hconfirmed : (e.info su.codec).confirmseq ≤ confirmSeq) : Treated su confirmSeq s t key e steps ↔
      if txhash.isSome then t.state.Gone .start key else s.state.SameAt t.state .start key := by
  rw [Treated, if_pos hconfirmed]
  constructor
  · rintro ⟨other, hother, hleft⟩
    rwa [hother.txhash_eq he.info, ← hattempted.txhash_eq he.info] at hleft
  · exact fun hleft => ⟨txhash, hattempted, hleft⟩

/-- When a submission of a round is accepted. -/
theorem confirmedAccepted_iff {txhash : Option Text} {first : AgentState} {currentTime other : Int64}
    {mine after : List Step} (hconfirmed : (e.info su.codec).confirmseq ≤ confirmSeq)
    (hmine : Replays (confirmedSubmission su (e.info su.codec) currentTime) mine txhash []) :
    ConfirmedAccepted su confirmSeq e (⟨first, .highResolution, currentTime⟩ :: (mine ++ after)) other ↔
      other = currentTime ∧ txhash.isSome := by
  have hclock : Replays highResolution (⟨first, .highResolution, currentTime⟩ :: (mine ++ after))
      currentTime (mine ++ after) := runs_perform.mpr ⟨_, rfl⟩
  have hsubmission := hmine.append after
  constructor
  · rintro ⟨-, rest, hother, hsome⟩
    obtain ⟨rfl, rfl⟩ := hclock.unique hother
    exact ⟨rfl, (accepted_iff hsubmission).mp hsome⟩
  · rintro ⟨rfl, hsome⟩
    exact ⟨hconfirmed, _, hclock, (accepted_iff hsubmission).mpr hsome⟩

/-- A submission that was accepted is a `SendTx`, and the database deleted the entry after it or did not
have it. -/
def ClearedAfter (su : Setup) (confirmSeq : Int64) (s : Session) (key : Text) (e : CrossTx)
    (steps : List Step) : Prop :=
  ∀ currentTime, ConfirmedAccepted su confirmSeq e steps currentTime →
    ¬(e.info su.codec).timeout < currentTime ∧
      (Answered (.dbDelete (Store.start.keyPrefix ++ key)) true steps ∨
        s.state.db[Store.start.keyPrefix ++ key]? = none)

/-- What a round attempts, and when it treats its entry as it should. -/
theorem treated_round_iff (he : e.FiledUnder su key) (hget : (s.state.maps .start)[key]? = some e)
    (hrun : Runs Session.act ((Pass.handleConfirmSeqEvent confirmSeq).round su now (key, e)) s ⟨⟩ t)
    (hsince : s.Since t steps) :
    ((e.info su.codec).confirmseq ≤ confirmSeq → ∃ txhash, AttemptedOnce su key e steps txhash) ∧
    (Treated su confirmSeq s t key e steps ↔ ClearedAfter su confirmSeq s key e steps) := by
  obtain ⟨currentTime, rest, rfl, ⟨hnot, rfl, hsame⟩ | ⟨hconfirmed, txhash, mine, after, rfl, hmine, hnone,
    hcases⟩⟩ := confirmRound_cases he hrun hsince
  · rw [Treated, if_neg hnot]
    refine ⟨fun h => absurd h hnot, iff_of_true ⟨fun step hstep => ?_, hsame⟩ ?_⟩
    · cases List.mem_singleton.mp hstep
      exact False.elim
    · exact fun _ haccepted => absurd haccepted.1 hnot
  · have hattempted : AttemptedOnce su key e (⟨s.state, .highResolution, currentTime⟩ :: (mine ++ after))
        txhash := ⟨[], s.state, currentTime, mine, after, rfl, hmine, hnone⟩
    refine ⟨fun _ => ⟨txhash, hattempted⟩, ?_⟩
    rw [hattempted.treated_iff he hconfirmed, ClearedAfter]
    simp only [confirmedAccepted_iff hconfirmed hmine, and_imp, forall_eq]
    rcases hcases with ⟨rfl, hsame⟩ | ⟨hsome, hlate, hsame⟩ | ⟨hsome, hintime, hmap, hdb⟩
    · exact iff_of_true hsame nofun
    · rw [if_pos hsome]
      refine iff_of_false (fun hgone => ?_) fun hall => (hall hsome).1 hlate
      rw [AgentState.Gone, hsame.map, hget] at hgone
      cases hgone.1
    · have hdelete : Answered (.dbDelete (Store.start.keyPrefix ++ key)) true
          (⟨s.state, .highResolution, currentTime⟩ :: (mine ++ after)) ↔
          Answered (.dbDelete (Store.start.keyPrefix ++ key)) true after := by
        have hclock : ¬Answered (.dbDelete (Store.start.keyPrefix ++ key)) true
            [⟨s.state, .highResolution, currentTime⟩] := by
          simp [Answered]
        have hsend := not_answered_delete (k := Store.start.keyPrefix ++ key)
          (remote_confirmedSubmission _ _) hmine
        rw [← List.singleton_append, answered_append, answered_append, or_iff_right hclock,
          or_iff_right hsend]
      rw [if_pos hsome, hdelete, AgentState.Gone, hdb]
      exact ⟨fun hgone _ => ⟨hintime, hgone.2⟩, fun hall => ⟨hmap, (hall hsome).2⟩⟩

end Round

section Rounds

variable {rounds : List (Text × Examined)} {ks : List Text} {out : Outcome}

/-- The rounds of a confirm pass. -/
abbrev ConfirmRound (su : Setup) (confirmSeq now : Int64) : Session → Text → Examined → Session → Prop :=
  (Pass.handleConfirmSeqEvent confirmSeq).Examines su now

/-- A round submits nothing about another transfer. -/
theorem not_submitsFor_round {id : Text} (he : e.FiledUnder su key) (hne : key ≠ id) :
    Uses (fun o => ¬o.SubmitsFor id)
      ((Pass.handleConfirmSeqEvent confirmSeq).round su now (key, e)) := by
  have hid : (e.info su.codec).crosstxid ≠ id := fun heq => hne (he.info.symm.trans heq)
  have hquiet : ∀ o : Op, o.Quiet → ¬o.SubmitsFor id := fun o ho => ho.not_submitsFor id
  refine Uses.bind (Uses.perform fun h => h) fun currentTime => Uses.ite (Uses.ite ?_ ?_) (Uses.pure _)
  · exact Uses.bind (uses_sendAckTo hquiet (fun _ => hid) fun _ => not_submitsFor_saves id)
      fun _ => Uses.pure _
  · refine Uses.bind (uses_sendTxTo hquiet (fun _ => hid) fun _ => not_submitsFor_saves id) fun _ => ?_
    exact Uses.ite (uses_clearInfo (fun h => h) fun h => h) (Uses.pure _)

/-- The rounds of other entries leave an entry and submit nothing about it. -/
theorem visits_other (hvisits : Visits (ConfirmRound su confirmSeq now) ks s rounds s')
    (hs : s.WellKeyed su .start) (hother : key ∉ ks) :
    s'.WellKeyed su .start ∧ s.state.SameAt s'.state .start key ∧
      ∀ p ∈ rounds, ∀ step ∈ p.2.steps, ¬step.op.SubmitsFor key := by
  induction hvisits with
  | nil s => exact ⟨hs, .refl _ _ _, nofun⟩
  | @cons k ks s t s' x rounds hround rest ih =>
    obtain ⟨hne, hother⟩ := not_or.mp (mt List.mem_cons.mpr hother)
    obtain ⟨hget, hrun, hsince⟩ := hround
    have he : x.entry.FiledUnder su k := hs k x.entry hget
    have ht : t.WellKeyed su .start := hs.runs (Pass.round_files _ now _) hrun
    obtain ⟨hs', hsame, hnone⟩ := ih ht hother
    refine ⟨hs', ?_, List.forall_mem_cons.mpr ⟨?_, hnone⟩⟩
    · exact (same_of_touches (Pass.round_touches he) hrun fun h => hne (h rfl)).trans hsame
    · obtain ⟨steps, hmine, hreplays⟩ := Session.replays hrun
      obtain rfl := hmine.unique hsince
      exact hreplays.uses (not_submitsFor_round he (Ne.symm hne))

/-- A round of the loop, seen from the whole loop: the entry is the one there was, and the other rounds
neither touch it nor submit anything about it. -/
theorem visits_around (hvisits : Visits (ConfirmRound su confirmSeq now) ks s rounds s')
    (hs : s.WellKeyed su .start) (hnodup : ks.Nodup) {p : Text × Examined} (hp : p ∈ rounds) :
    ∃ before after t t', rounds = before ++ p :: after ∧ t.WellKeyed su .start ∧
      ConfirmRound su confirmSeq now t p.1 p.2 t' ∧ s.state.SameAt t.state .start p.1 ∧
      t'.state.SameAt s'.state .start p.1 ∧
      ∀ q ∈ before ++ after, ∀ step ∈ q.2.steps, ¬step.op.SubmitsFor p.1 := by
  obtain ⟨before, after, rfl⟩ := List.append_of_mem hp
  have hkeys := hvisits.map_fst
  obtain ⟨t, t', hbefore, hround, hafter⟩ := hvisits.split
  rw [← hkeys, List.map_append, List.map_cons, List.nodup_append] at hnodup
  obtain ⟨-, hcons, hdisjoint⟩ := hnodup
  have hnotBefore : p.1 ∉ before.map Prod.fst := fun hmem =>
    hdisjoint p.1 hmem p.1 List.mem_cons_self rfl
  obtain ⟨ht, hsame, hnone⟩ := visits_other hbefore hs hnotBefore
  have ht' : t'.WellKeyed su .start := ht.runs (Pass.round_files _ now _) hround.2.1
  obtain ⟨-, hsame', hnone'⟩ := visits_other hafter ht' (List.nodup_cons.mp hcons).1
  exact ⟨before, after, t, t', rfl, ht, hround, hsame, hsame',
    List.forall_mem_append.mpr ⟨hnone, hnone'⟩⟩

/-- The operations of all rounds. -/
def allSteps (rounds : List (Text × Examined)) : List Step := rounds.flatMap fun p => p.2.steps

/-- A round treats its entry as it should exactly when the loop around it does. -/
theorem treated_around_iff {t' : Session} {before after : List (Text × Examined)} {x : Examined}
    (he : e.FiledUnder su key)
    (hattempt : (e.info su.codec).confirmseq ≤ confirmSeq → ∃ txhash, AttemptedOnce su key e x.steps txhash)
    (hsame : s.state.SameAt t.state .start key) (hsame' : t'.state.SameAt s'.state .start key)
    (hnone : ∀ q ∈ before ++ after, ∀ step ∈ q.2.steps, ¬step.op.SubmitsFor key) :
    Treated su confirmSeq s s' key e (allSteps (before ++ (key, x) :: after)) ↔
      Treated su confirmSeq t t' key e x.steps := by
  have hsteps : allSteps (before ++ (key, x) :: after) = allSteps before ++ (x.steps ++ allSteps after) := by
    simp [allSteps]
  obtain ⟨hbefore, hafter⟩ := List.forall_mem_append.mp hnone
  have hnoneBefore : ∀ step ∈ allSteps before, ¬step.op.SubmitsFor key := by
    simpa [allSteps] using fun step k y hy hstep => hbefore (k, y) hy step hstep
  have hnoneAfter : ∀ step ∈ allSteps after, ¬step.op.SubmitsFor key := by
    simpa [allSteps] using fun step k y hy hstep => hafter (k, y) hy step hstep
  have hkept : s.state.SameAt s'.state .start key ↔ t.state.SameAt t'.state .start key := by
    constructor
    · intro hall
      exact ⟨by rw [← hsame'.map, hall.map, hsame.map], by rw [← hsame'.db, hall.db, hsame.db]⟩
    · exact fun hround => hsame.trans (hround.trans hsame')
  rw [hsteps]
  by_cases hconfirmed : (e.info su.codec).confirmseq ≤ confirmSeq
  · obtain ⟨txhash, hmine⟩ := hattempt hconfirmed
    have hall : AttemptedOnce su key e (allSteps before ++ (x.steps ++ allSteps after)) txhash := by
      obtain ⟨first, state, currentTime, mine, last, heq, hreplays, hnone⟩ := hmine
      obtain ⟨hfirst, hlast⟩ := List.forall_mem_append.mp hnone
      refine ⟨allSteps before ++ first, state, currentTime, mine, last ++ allSteps after, ?_, hreplays, ?_⟩
      · rw [heq]
        simp
      · exact List.forall_mem_append.mpr ⟨List.forall_mem_append.mpr ⟨hnoneBefore, hfirst⟩,
          List.forall_mem_append.mpr ⟨hlast, hnoneAfter⟩⟩
    rw [hall.treated_iff he hconfirmed, hmine.treated_iff he hconfirmed, hkept, AgentState.Gone,
      AgentState.Gone, hsame'.map, hsame'.db]
  · rw [Treated, Treated, if_neg hconfirmed, if_neg hconfirmed, hkept]
    refine and_congr_left fun _ => ⟨fun hall step hstep => ?_, fun hmine => ?_⟩
    · exact hall step (List.mem_append_right _ (List.mem_append_left _ hstep))
    · exact List.forall_mem_append.mpr ⟨hnoneBefore, List.forall_mem_append.mpr ⟨hmine, hnoneAfter⟩⟩

/-- The pass has treated every entry of the start map as it should. -/
def AllTreated (su : Setup) (confirmSeq : Int64) (s s' : Session) (rounds : List (Text × Examined)) :
    Prop :=
  ∀ key e, (s.state.maps .start)[key]? = some e → Treated su confirmSeq s s' key e (allSteps rounds)

/-- The rounds of all entries treat them as they should exactly when each round does. -/
theorem allTreated_iff (hs : s.WellKeyed su .start)
    (hvisits : Visits (ConfirmRound su confirmSeq now)
      ((Pass.handleConfirmSeqEvent confirmSeq).keys s) s rounds s') :
    AllTreated su confirmSeq s s' rounds ↔
      ∀ p ∈ rounds, ClearedAfter su confirmSeq s p.1 p.2.entry p.2.steps := by
  have hround : ∀ p ∈ rounds, (s.state.maps .start)[p.1]? = some p.2.entry ∧
      (Treated su confirmSeq s s' p.1 p.2.entry (allSteps rounds) ↔
        ClearedAfter su confirmSeq s p.1 p.2.entry p.2.steps) := by
    intro p hp
    obtain ⟨before, after, t, t', rfl, ht, ⟨hget, hrun, hsince⟩, hsame, hsame', hnone⟩ :=
      visits_around hvisits hs ExtTreeMap.nodup_keys hp
    have he : p.2.entry.FiledUnder su p.1 := ht p.1 p.2.entry hget
    obtain ⟨hattempt, hiff⟩ := treated_round_iff he hget hrun hsince
    rw [treated_around_iff he hattempt hsame hsame' hnone, hiff, ← hsame.map]
    refine ⟨hget, ?_⟩
    rw [ClearedAfter, ClearedAfter, hsame.db]
  constructor
  · exact fun hall p hp => (hround p hp).2.mp (hall p.1 p.2.entry (hround p hp).1)
  · intro hall key e hget
    have hkey : key ∈ rounds.map Prod.fst := by
      rw [hvisits.map_fst, Pass.mem_keys]
      exact Option.isSome_iff_exists.mpr ⟨e, hget⟩
    obtain ⟨p, hp, rfl⟩ := List.mem_map.mp hkey
    obtain ⟨hentry, hiff⟩ := hround p hp
    cases hget.symm.trans hentry
    exact hiff.mpr (hall p hp)

/-- The loop comes to its end and has treated every entry as it should exactly when no submission for
a confirmed entry is accepted. -/
theorem confirms_iff_rejected (hs : s.WellKeyed su .start)
    (hwalk : (Pass.handleConfirmSeqEvent confirmSeq).Walk su now
      ((Pass.handleConfirmSeqEvent confirmSeq).keys s).head? s rounds out s') :
    out = .finished ∧ AllTreated su confirmSeq s s' rounds ↔
      ∀ p ∈ rounds, ∀ currentTime, ¬ConfirmedAccepted su confirmSeq p.2.entry p.2.steps currentTime := by
  have hkeyed : s.WellKeyed su (Pass.handleConfirmSeqEvent confirmSeq).store := hs
  have hend := Pass.walk_finished_iff hkeyed hwalk
  have herases := Pass.walk_erases_iff hkeyed hwalk
  constructor
  · rintro ⟨rfl, hall⟩ p hp currentTime haccepted
    have hvisits := Pass.visits_of_walk hkeyed hwalk
    have hintime := ((allTreated_iff hs hvisits).mp hall p hp currentTime haccepted).1
    obtain ⟨hconfirmed, rest, hclock, hsubmission⟩ := haccepted
    rw [confirmedSubmission, if_neg hintime] at hsubmission
    exact hend.mp ⟨rfl, hvisits.map_fst⟩ p hp
      ((herases p hp).mpr ⟨hconfirmed, currentTime, rest, hclock, hintime, hsubmission⟩)
  · intro hrejected
    have hkept : ∀ p ∈ rounds, ¬Erases .start p.1 p.2.steps := by
      intro p hp herased
      obtain ⟨hconfirmed, currentTime, rest, hclock, hintime, hsubmission⟩ := (herases p hp).mp herased
      refine hrejected p hp currentTime ⟨hconfirmed, rest, hclock, ?_⟩
      rwa [confirmedSubmission, if_neg hintime]
    obtain ⟨rfl, _⟩ := hend.mpr hkept
    refine ⟨rfl, (allTreated_iff hs (Pass.visits_of_walk hkeyed hwalk)).mpr fun p hp currentTime haccepted => ?_⟩
    exact False.elim (hrejected p hp currentTime haccepted)

end Rounds

/-- A confirm pass treats all entries as it should, and its loop comes to its end, exactly when no
submission for a confirmed entry is accepted: a `SendTx` that is accepted erases the element that the
loop stands on, and an ack that is accepted leaves its entry. Rounds of all entries treat them as they
should exactly when none of the accepted submissions is an ack, and the database deletes what it is
asked to. -/
theorem confirms_exactly_iff (su : Setup) (confirmSeq now : Int64) (s s' : Session)
    (hs : s.WellKeyed su .start) (rounds : List (Text × Examined)) :
    (∀ out, (Pass.handleConfirmSeqEvent confirmSeq).Walk su now
        ((Pass.handleConfirmSeqEvent confirmSeq).keys s).head? s rounds out s' →
      (out = .finished ∧ AllTreated su confirmSeq s s' rounds ↔ ∀ p ∈ rounds, ∀ currentTime,
        ¬ConfirmedAccepted su confirmSeq p.2.entry p.2.steps currentTime)) ∧
    (Visits (ConfirmRound su confirmSeq now) ((Pass.handleConfirmSeqEvent confirmSeq).keys s) s rounds s' →
      (AllTreated su confirmSeq s s' rounds ↔
        ∀ p ∈ rounds, ClearedAfter su confirmSeq s p.1 p.2.entry p.2.steps)) :=
  ⟨fun _ hwalk => confirms_iff_rejected hs hwalk, fun hvisits => allTreated_iff hs hvisits⟩

section Waiting

open Pass

/-- A transfer that waits for its height. -/
abbrev waitingCall (id : Text) : HandlerCall .layer2 := .handleStartTxEvent id

/-- The answers to a StartTx event of layer 2 at a height, for a transfer that times out at 103. -/
def waitingAnswers (id : Bytes) (seq : ℤ) : List Answer :=
  Formats.recordReplies { Formats.sourceRecord with crossTxId := id } ++
    [.reply (Formats.ledgerReply seq), .stored true, .go]

/-- The session after two StartTx events, at the heights 100 and 120. -/
def waitingSession : Option Session := do
  let (_, s) ← runWith Session.step ((waitingCall firstId).run Formats.system.su)
    (waitingAnswers Formats.settledId 100) (Session.start ∅)
  let (_, s') ← runWith Session.step ((waitingCall secondId).run Formats.system.su)
    (waitingAnswers (Formats.settledId ++ Formats.settledId) 120) s
  return s'

/-- It is reachable. -/
theorem reachable_of_waitingSession (hrun : waitingSession = some s) :
    Session.Reachable Formats.system.su .layer2 s := by
  simp only [waitingSession, Option.bind_eq_bind, Option.bind_eq_some_iff, Option.pure_def,
    Option.some.injEq] at hrun
  obtain ⟨⟨ok, t⟩, hfirst, ⟨ok', _⟩, hsecond, rfl⟩ := hrun
  have hcall : Reaches Session.act ((waitingCall firstId).run Formats.system.su) (Session.start ∅) t :=
    (Session.runs_of_answers hfirst).reaches
  exact .call (.call (.start ∅) _ hcall) _ (Session.runs_of_answers hsecond).reaches

/-- The confirmation of the height 110. -/
abbrev confirms : Pass .layer2 := .handleConfirmSeqEvent 110

/-- The rounds of the two entries, given their answers. -/
def confirmsWith (first second : List Answer) : Option (Session × Examined × Examined × Session) := do
  let s ← waitingSession
  let (x, t) ← confirms.examineWith Formats.system.su 0 firstId first s
  let (x', s') ← confirms.examineWith Formats.system.su 0 secondId second t
  return (s, x, x', s')

/-- When neither erases its entry they are the loop of the confirmation. -/
theorem walk_of_confirmsWith {first second : List Answer} {x x' : Examined}
    (hrun : confirmsWith first second = some (s, x, x', s')) (hkeys : confirms.keys s = [firstId, secondId])
    (hkeeps : ∀ step ∈ x.steps ++ x'.steps, step.op.Keeps) :
    Session.Reachable Formats.system.su .layer2 s ∧ (s.state.maps .start)[firstId]? = some x.entry ∧
      confirms.Walk Formats.system.su 0 (confirms.keys s).head? s [(firstId, x), (secondId, x')] .finished s' := by
  simp only [confirmsWith, Option.bind_eq_bind, Option.bind_eq_some_iff, Option.pure_def,
    Option.some.injEq, Prod.mk.injEq] at hrun
  obtain ⟨_, hs, ⟨_, t⟩, hfirst, ⟨_, _⟩, hsecond, rfl, rfl, rfl, rfl⟩ := hrun
  have hreachable := reachable_of_waitingSession hs
  have hround := examines_of_examineWith hfirst
  exact ⟨hreachable, hround.1, walk_pair (hreachable.wellKeyed _) hkeys hround (examines_of_examineWith hsecond)
    (not_erases_of_keeps fun step hstep => hkeeps step (List.mem_append_left _ hstep))
    (not_erases_of_keeps fun step hstep => hkeeps step (List.mem_append_right _ hstep))⟩

/-- A confirmation keeps the entry that it confirms, since its `SendTx` is not accepted, and the one that
it does not confirm. -/
theorem confirms_exactly_waiting : ∃ s s' rounds, confirms.keys s = [firstId, secondId] ∧
    rounds.map (fun p => decide ((p.2.entry.info Formats.system.su.codec).confirmseq ≤ 110)) = [true, false] ∧
    AllTreated Formats.system.su 110 s s' rounds := by
  have hcheck : ((confirmsWith [.time 50, .reply (Formats.ledgerReply 100), .reply .error] [.time 51]).any
      fun (s, x, x', _) => confirms.keys s = [firstId, secondId] ∧
        (∀ step ∈ x.steps ++ x'.steps, step.op.Keeps) ∧
        (x.entry.info Formats.system.su.codec).confirmseq ≤ 110 ∧
        ¬(x'.entry.info Formats.system.su.codec).confirmseq ≤ 110 ∧
        (answersFor firstId x.steps).head?.bind acceptedHash = none) = true := by
    decide +kernel
  obtain ⟨⟨s, x, x', s'⟩, hrun, hcheck⟩ := (Option.any_eq_true _ _).mp hcheck
  obtain ⟨hkeys, hkeeps, hconfirmed, hwaits, hrejected⟩ := of_decide_eq_true hcheck
  obtain ⟨hs, hget, hwalk⟩ := walk_of_confirmsWith hrun hkeys hkeeps
  have hiff := (confirms_exactly_iff Formats.system.su 110 0 s s' (hs.wellKeyed _) _).1 _ hwalk
  refine ⟨s, s', _, hkeys, by simp [hconfirmed, hwaits], (hiff.mpr fun p hp currentTime haccepted => ?_).2⟩
  rcases List.mem_pair.mp hp with rfl | rfl
  · have he : x.entry.FiledUnder Formats.system.su firstId := hs.wellKeyed .start _ _ hget
    have hanswered := haccepted.answered he.info
    rw [hrejected] at hanswered
    cases hanswered
  · exact hwaits haccepted.1

/-- An ack for an entry past its timeout that is accepted leaves the entry. -/
theorem confirms_keeps_late : ∃ s s' rounds, Session.Reachable Formats.system.su .layer2 s ∧
    confirms.Walk Formats.system.su 0 (confirms.keys s).head? s rounds .finished s' ∧
    ¬AllTreated Formats.system.su 110 s s' rounds := by
  have hcheck : ((confirmsWith [.time 200, .reply (Formats.ledgerReply 100), .reply (Formats.submitReply "b"),
      .time 201, .stored true, .go] [.time 202]).any fun (s, x, x', s') =>
        confirms.keys s = [firstId, secondId] ∧
        (∀ step ∈ x.steps ++ x'.steps, step.op.Keeps) ∧
        (x.entry.info Formats.system.su.codec).confirmseq ≤ 110 ∧
        ((answersFor firstId (x.steps ++ x'.steps)).head?.bind acceptedHash).isSome ∧
        ((s'.state.maps .start)[firstId]?).isSome) = true := by
    decide +kernel
  obtain ⟨⟨s, x, x', s'⟩, hrun, hcheck⟩ := (Option.any_eq_true _ _).mp hcheck
  obtain ⟨hkeys, hkeeps, hconfirmed, haccepted, hkept⟩ := of_decide_eq_true hcheck
  obtain ⟨hs, hget, hwalk⟩ := walk_of_confirmsWith hrun hkeys hkeeps
  refine ⟨s, s', _, hs, hwalk, fun hall => ?_⟩
  have hsteps : allSteps [(firstId, x), (secondId, x')] = x.steps ++ x'.steps := by
    simp [allSteps]
  have htreated := hall firstId x.entry hget
  rw [hsteps, Treated, if_pos hconfirmed] at htreated
  obtain ⟨txhash, hattempted, hleft⟩ := htreated
  have he : x.entry.FiledUnder Formats.system.su firstId := hs.wellKeyed .start _ _ hget
  have hsome : txhash.isSome := by rwa [hattempted.txhash_eq he.info]
  rw [if_pos hsome] at hleft
  rw [hleft.1] at hkept
  cases hkept

end Waiting

end CrosschainAgent
