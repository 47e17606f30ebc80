import CrosschainAgent.Glue.SubmitResponse
import CrosschainAgent.Session.Redelivery

/-!
# What is saved of a submission

`SendTx`, `SendAck` and `ReplyAck` submit a transaction and save an entry with the hash that the answer
is read to have, which `GetTxResult` polls later. The map keeps an entry that it already has for the
transfer, so that the saved hash and the polled one can differ.
-/

namespace CrosschainAgent

open Interaction Std HttpClient

variable {su : Setup} {h : Handle} {s t s' : Session} {steps rest : List Step}

/-- The functions of a handler that submit a transaction and save it. -/
inductive Sender where
  | sendTx
  | sendAck
  | replyAck
  deriving DecidableEq

namespace Sender

def run (su : Setup) (h : Handle) : Sender → Protocol.CrossTxInfo → AgentM Bool
  | .sendTx => Handle.sendTxTo su h
  | .sendAck => Handle.sendAckTo su h
  | .replyAck => Handle.replyAckTo su h

/-- The map that keeps what was submitted. -/
def store (h : Handle) : Sender → Store
  | .sendTx => .send h
  | .sendAck => .ack h
  | .replyAck => .reply h

/-- The hash of an entry that `GetTxResult` is asked about. -/
def polled (h : Handle) (e : CrossTx) : Sender → Text
  | .sendTx => e.sendTxHash
  | .sendAck => e.ackHash h
  | .replyAck => e.ackHash h.other

end Sender

/-- The answer to a submission, if the step is one. -/
def Step.answer : Step → Option HttpResult
  | ⟨_, .http _ (.submitTransaction _ _ _ _), r⟩ => some r
  | _ => none

/-- The answers to the submissions that were made. -/
def answers (steps : List Step) : List HttpResult := steps.filterMap Step.answer

/-- The operation saves a message or an entry. -/
def Op.Writes : Op → Prop
  | .dbPut _ _ | .emplace _ _ _ => True
  | _ => False

/-- What the operation saves is polled with the hash. -/
def Op.PolledWith (su : Setup) (h : Handle) (sender : Sender) (txhash : Text) : Op → Prop
  | .dbPut _ value => ∃ info, su.codec.parseFromString value = some info ∧
      sender.polled h (CrossTx.ofInfo su.codec info) = txhash
  | .emplace _ _ e => sender.polled h e = txhash
  | _ => True

/-- Whatever was saved is of a transaction that the node accepted, with its hash, and the entry that the
map has for the transfer in the end is polled with it. -/
def SavesSoundly (su : Setup) (h : Handle) (sender : Sender) (id : Text) (s' : Session)
    (steps : List Step) : Prop :=
  ∀ step ∈ steps, step.op.Writes → ∃ body txhash, .response body ∈ answers steps ∧
    AcceptedBy body txhash ∧ step.op.PolledWith su h sender txhash ∧
    ∃ e, (s'.state.maps (sender.store h))[id]? = some e ∧ sender.polled h e = txhash

/-- The answer is accepted only as that of a node that accepted the transaction, and an entry that the
map already has for the transfer has the hash of the last result. -/
def SoundAnswer (h : Handle) (sender : Sender) (id : Text) (s : Session) (body : Option Json) : Prop :=
  NoGap body ∧ ∀ doc results last e, body = some doc → doc.get "results".toList = some (.arr results) →
    results.getLast? = some last → (∀ result ∈ results, Passes result) →
    (s.state.maps (sender.store h))[id]? = some e → hashOf last = some (sender.polled h e)

/-- The answers of two parts are the answers of each. -/
theorem answers_append : answers (steps ++ rest) = answers steps ++ answers rest := List.filterMap_append

/-- What is quiet writes nothing. -/
theorem Op.Quiet.not_writes {o : Op} (hquiet : o.Quiet) : ¬o.Writes := by
  cases o with
  | dbPut | emplace => exact hquiet.elim
  | highResolution | http | dbDelete | dbScan | lock | unlock | entries | erase | setAckTimeout
  | terminate => exact False.elim

/-- A quiet step answers no submission. -/
theorem Step.answer_of_quiet {step : Step} (hquiet : step.op.Quiet) : step.answer = none := by
  obtain ⟨before, o, r⟩ := step
  cases o with
  | http l request =>
    cases request with
    | submitTransaction => exact hquiet.elim
    | getLedger | callContract | getTransactionHistory => rfl
  | highResolution | dbScan | lock | unlock | entries | terminate => rfl
  | dbPut | dbDelete | emplace | erase | setAckTimeout => exact hquiet.elim

/-- A quiet program submits and saves nothing. -/
theorem answers_of_quiet {α : Type} {p : AgentM α} {a : α} (hp : Uses Op.Quiet p)
    (hreplays : Replays p steps a []) :
    answers steps = [] ∧ ∀ step ∈ steps, ¬step.op.Writes := by
  have hquiet := hreplays.uses hp
  constructor
  · exact List.filterMap_eq_nil_iff.mpr fun step hstep => Step.answer_of_quiet (hquiet step hstep)
  · exact fun step hstep => (hquiet step hstep).not_writes

/-- A submission has one answer at most, which is accepted with the hash it returns. -/
theorem sendTransaction_answers {l : Layer} {input : TxInput} {amount : Int64} {txhash : Option Text}
    (hreplays : Replays (Handle.sendTransaction su l input amount) steps txhash []) :
    (∀ step ∈ steps, ¬step.op.Writes) ∧
      (answers steps = [] ∧ txhash = none ∨
        ∃ r, answers steps = [r] ∧ acceptedHash r = txhash) := by
  obtain ⟨seq, first, second, rfl, hseq, hrest⟩ := replays_bind hreplays
  obtain ⟨hnone, hfirst⟩ := answers_of_quiet (quiet_getLayerSeq l) hseq
  cases seq with
  | none =>
    obtain ⟨rfl, rfl⟩ := runs_pure.mp hrest
    rw [List.append_nil]
    exact ⟨hfirst, Or.inl ⟨hnone, rfl⟩⟩
  | some seq =>
    obtain ⟨r, mid, ⟨before, rfl⟩, hread⟩ := hrest
    obtain ⟨haccepted, rfl⟩ := runs_orTerminate hread
    refine ⟨List.forall_mem_append.mpr ⟨hfirst, ?_⟩, Or.inr ⟨r, ?_, ?_⟩⟩
    · simp [Op.Writes]
    · rw [answers_append, hnone]
      rfl
    · rw [acceptedHash, haccepted, Option.join_some]

/-- What a save leaves, and what it performed: nothing was submitted, all that was saved is polled with
the hash, and the map has the entry unless it had one. -/
structure SavedWith (su : Setup) (h : Handle) (sender : Sender) (id txhash : Text) (s t : Session)
    (steps : List Step) : Prop where
  since : s.Since t steps
  answers : answers steps = []
  polled : ∀ step ∈ steps, step.op.PolledWith su h sender txhash
  writes : ∃ step ∈ steps, step.op.Writes
  entry : ∃ e, (t.state.maps (sender.store h))[id]? =
    ((s.state.maps (sender.store h))[id]?).or (some e) ∧ sender.polled h e = txhash

section Save

variable {sender : Sender} {info : Protocol.CrossTxInfo} {txhash : Text}

/-- A saved entry is kept unless its key was taken. -/
theorem AgentState.saved_maps {a : AgentState} {store : Store} {key value : Text} {e : CrossTx}
    {ok : Bool} : ((a.saved store key value e ok).maps store)[key]? =
      ((a.maps store)[key]?).or (some e) := by
  simp only [saved, Function.update_self, getElem?_emplace, if_true]

/-- The hash that is polled does not depend on the due time. -/
theorem Sender.polled_due (e : CrossTx) (due : Int64) :
    sender.polled h { e with sendAckTimeout := due } = sender.polled h e := by
  cases sender with
  | sendTx => rfl
  | sendAck => cases h <;> rfl
  | replyAck => cases h <;> rfl

/-- A write of the message and an insertion of its entry, with nothing but readings of the clock beside
them. -/
theorem savedWith_of_saved {e : CrossTx} (ok : Bool) (due : Int64)
    (hpolled : sender.polled h (CrossTx.ofInfo su.codec info) = txhash)
    (he : e = { CrossTx.ofInfo su.codec info with sendAckTimeout := due }) (hsince : s.Since t steps)
    (hops : ∀ step ∈ steps, step.op = .highResolution ∨
      (∃ key, step.op = .dbPut key (su.codec.serializeAsString info)) ∨
      ∃ store key, step.op = .emplace store key e)
    (hwrites : ∃ step ∈ steps, step.op.Writes)
    (hstate : t.state = s.state.saved (sender.store h) info.crosstxid (su.codec.serializeAsString info) e
      ok) : SavedWith su h sender info.crosstxid txhash s t steps := by
  have hentry : sender.polled h e = txhash := by
    rw [he, Sender.polled_due, hpolled]
  refine ⟨hsince, List.filterMap_eq_nil_iff.mpr fun step hstep => ?_, fun step hstep => ?_, hwrites, e,
    ?_, hentry⟩
  · obtain ⟨before, o, r⟩ := step
    rcases hops _ hstep with rfl | ⟨key, rfl⟩ | ⟨store, key, rfl⟩ <;> rfl
  · obtain ⟨before, o, r⟩ := step
    rcases hops _ hstep with rfl | ⟨key, rfl⟩ | ⟨store, key, rfl⟩
    · exact trivial
    · exact ⟨info, su.codec.parse_serialize info, hpolled⟩
    · exact hentry
  · rw [hstate, AgentState.saved_maps]

/-- A `SendTx` is saved with its hash. -/
theorem savedWith_saveInfo
    (hrun : Runs Session.act (Handle.saveInfo (.send h) (CrossTx.ofInfo su.codec info)) s () t) :
    ∃ steps, SavedWith su h .sendTx info.crosstxid info.sendtxhash s t steps := by
  obtain ⟨ok, u, hput, hemplace⟩ := runs_bind.mp hrun
  have hput := runs_perform.mp hput
  have hemplace := runs_perform.mp hemplace
  refine ⟨_, savedWith_of_saved ok 0 rfl rfl
    ((Session.since_act hput).trans (Session.since_act hemplace)) ?_ ?_ ?_⟩
  · simp [CrossTx.ofInfo]
  · simp [Op.Writes]
  · rw [hemplace.1.emplace_eq, hput.1.dbPut_eq]
    cases ok <;> rfl

/-- An ack is saved with its hash. -/
theorem savedWith_saveAckInfo (hpolled : sender.polled h (CrossTx.ofInfo su.codec info) = txhash)
    (hrun : Runs Session.act (Handle.saveAckInfo h (sender.store h) (CrossTx.ofInfo su.codec info)) s ()
      t) : ∃ steps, SavedWith su h sender info.crosstxid txhash s t steps := by
  cases h with
  | layer1 =>
    obtain ⟨ok, u, hput, hrun⟩ := runs_bind.mp hrun
    obtain ⟨now, v, hclock, hemplace⟩ := runs_bind.mp hrun
    have hput := runs_perform.mp hput
    have hclock := runs_perform.mp hclock
    have hemplace := runs_perform.mp hemplace
    refine ⟨_, savedWith_of_saved ok (now + microUnitsPerSec * 60) hpolled rfl ((Session.since_act hput).trans
      ((Session.since_act hclock).trans (Session.since_act hemplace))) ?_ ?_ ?_⟩
    · simp [CrossTx.ofInfo]
    · simp [Op.Writes]
    · rw [hemplace.1.emplace_eq, hclock.1.eq_of_remote trivial, hput.1.dbPut_eq]
      cases ok <;> rfl
  | layer2 =>
    obtain ⟨now, u, hclock, hrun⟩ := runs_bind.mp hrun
    obtain ⟨ok, v, hput, hemplace⟩ := runs_bind.mp hrun
    have hput := runs_perform.mp hput
    have hclock := runs_perform.mp hclock
    have hemplace := runs_perform.mp hemplace
    refine ⟨_, savedWith_of_saved ok (now + microUnitsPerSec * 60) hpolled rfl ((Session.since_act hclock).trans
      ((Session.since_act hput).trans (Session.since_act hemplace))) ?_ ?_ ?_⟩
    · simp [CrossTx.ofInfo]
    · simp [Op.Writes]
    · rw [hemplace.1.emplace_eq, hput.1.dbPut_eq, hclock.1.eq_of_remote trivial]
      cases ok <;> rfl

/-- A sender submits, and saves what is accepted. -/
theorem Sender.run_cases {ok : Bool} (hrun : Runs Session.act (sender.run su h info) s ok s') :
    ∃ l input amount, Runs Session.act (Handle.sendTransaction su l input amount) s none s' ∨
      ∃ hash t steps, Runs Session.act (Handle.sendTransaction su l input amount) s (some hash) t ∧
        SavedWith su h sender info.crosstxid hash t s' steps := by
  cases sender with
  | sendTx =>
    refine ⟨h.other, Handle.sendTxInput info, info.amount, ?_⟩
    rcases sendTxTo_cases hrun with ⟨_, hsend⟩ | ⟨hash, t, _, hsend, hsave⟩
    · exact Or.inl hsend
    · obtain ⟨steps, hsaved⟩ := savedWith_saveInfo hsave
      exact Or.inr ⟨hash, t, steps, hsend, hsaved⟩
  | sendAck =>
    refine ⟨h, Handle.sendAckedTxInput h info, 0, ?_⟩
    rcases sendAckTo_cases hrun with ⟨_, hsend⟩ | ⟨hash, t, _, hsend, hsave⟩
    · exact Or.inl hsend
    · have hpolled : Sender.polled h (CrossTx.ofInfo su.codec (info.setAckHash h hash)) .sendAck = hash := by
        cases h <;> rfl
      obtain ⟨steps, hsaved⟩ := savedWith_saveAckInfo hpolled hsave
      rw [Protocol.CrossTxInfo.crosstxid_setAckHash] at hsaved
      exact Or.inr ⟨hash, t, steps, hsend, hsaved⟩
  | replyAck =>
    refine ⟨h.other, Handle.sendAckedTxInput h info, 0, ?_⟩
    rcases replyAckTo_cases hrun with ⟨_, hsend⟩ | ⟨hash, t, _, hsend, hsave⟩
    · exact Or.inl hsend
    · have hpolled : Sender.polled h (CrossTx.ofInfo su.codec (info.setAckHash h.other hash)) .replyAck =
          hash := by
        cases h <;> rfl
      obtain ⟨steps, hsaved⟩ := savedWith_saveAckInfo hpolled hsave
      rw [Protocol.CrossTxInfo.crosstxid_setAckHash] at hsaved
      exact Or.inr ⟨hash, t, steps, hsend, hsaved⟩

end Save

/-- An answer that is not accepted leaves nothing saved, whatever it is. -/
theorem savesSoundly_of_not_writes {sender : Sender} {id : Text}
    (hnone : ∀ step ∈ steps, ¬step.op.Writes) : SavesSoundly su h sender id s' steps :=
  fun step hstep hwrites => False.elim (hnone step hstep hwrites)

/-- A rejected answer saves nothing, which is sound. -/
theorem soundAnswer_of_rejected {sender : Sender} {id : Text} {body : Option Json}
    (hrejected : acceptedHash (.response body) = none) : SoundAnswer h sender id s body := by
  have hnoGap : NoGap body := by
    rw [← acceptedBy_iff_noGap, hrejected]
    exact nofun
  refine ⟨hnoGap, fun doc results last e hbody hvalue hlast hpasses _ => ?_⟩
  obtain ⟨hash, hhash⟩ := Option.isSome_iff_exists.mp (hpasses last (List.mem_of_getLast? hlast)).2
  have haccepted := hnoGap.accepted_iff.mpr ⟨doc, results, last, hbody, hvalue, hlast, hpasses, hhash⟩
  rw [hrejected] at haccepted
  cases haccepted

/-- An operation writes one polled hash at most. -/
theorem Op.PolledWith.unique {sender : Sender} {o : Op} {hash txhash : Text}
    (hpolled : o.PolledWith su h sender hash) (hpolled' : o.PolledWith su h sender txhash)
    (hwrites : o.Writes) : txhash = hash := by
  cases o with
  | dbPut key value =>
    obtain ⟨info, hparse, rfl⟩ := hpolled
    obtain ⟨info', hparse', rfl⟩ := hpolled'
    rw [hparse] at hparse'
    cases hparse'
    rfl
  | emplace store key e => exact hpolled'.symm.trans hpolled
  | highResolution | http | dbDelete | dbScan | lock | unlock | entries | erase | setAckTimeout
  | terminate => exact hwrites.elim

/-- An answer that is accepted leaves something saved with its hash. -/
theorem savesSoundly_accepted_iff {sender : Sender} {id hash : Text} {body : Option Json} {e : CrossTx}
    (hanswers : answers steps = [.response body]) (haccepted : acceptedHash (.response body) = some hash)
    (hops : ∀ step ∈ steps, step.op.Writes → step.op.PolledWith su h sender hash)
    (hwrites : ∃ step ∈ steps, step.op.Writes)
    (hentry : (s'.state.maps (sender.store h))[id]? =
      ((s.state.maps (sender.store h))[id]?).or (some e)) (hpolled : sender.polled h e = hash) :
    SavesSoundly su h sender id s' steps ↔ SoundAnswer h sender id s body := by
  constructor
  · intro hsound
    obtain ⟨step, hstep, hwrite⟩ := hwrites
    obtain ⟨body', txhash, hbody, hacceptedBy, hpolled', e', he', htxhash⟩ := hsound step hstep hwrite
    obtain rfl := (hops step hstep hwrite).unique hpolled' hwrite
    rw [hanswers] at hbody
    cases List.mem_singleton.mp hbody
    have hnoGap : NoGap body := by
      rw [← acceptedBy_iff_noGap]
      intro other hother
      rw [haccepted] at hother
      cases hother
      exact hacceptedBy
    refine ⟨hnoGap, fun doc results last old hdoc hvalue hlast hpasses hold => ?_⟩
    rw [hentry, hold, Option.some_or] at he'
    cases he'
    obtain ⟨doc', results', last', hdoc', hvalue', hlast', _, hhash⟩ := hnoGap.accepted_iff.mp haccepted
    cases hdoc.symm.trans hdoc'
    cases hvalue.symm.trans hvalue'
    cases hlast.symm.trans hlast'
    rw [hhash, htxhash]
  · rintro ⟨hnoGap, hstale⟩ step hstep hwrite
    have hbody : HttpResult.response body ∈ answers steps := by
      rw [hanswers]
      exact List.mem_cons_self
    refine ⟨body, hash, hbody, acceptedBy_iff_noGap.mpr hnoGap hash haccepted, hops step hstep hwrite, ?_⟩
    rw [hentry]
    cases hold : (s.state.maps (sender.store h))[id]? with
    | none => exact ⟨e, rfl, hpolled⟩
    | some old =>
      obtain ⟨doc, results, last, hdoc, hvalue, hlast, hpasses, hhash⟩ := hnoGap.accepted_iff.mp haccepted
      have heq := hstale doc results last old hdoc hvalue hlast hpasses hold
      rw [hhash] at heq
      exact ⟨old, rfl, (Option.some.inj heq).symm⟩

/-- In every run of a sender, what is saved is sound exactly when every answer is. -/
theorem savesSoundly_iff {sender : Sender} {info : Protocol.CrossTxInfo} {ok : Bool}
    (hrun : Runs Session.act (sender.run su h info) s ok s') (hsince : s.Since s' steps) :
    SavesSoundly su h sender info.crosstxid s' steps ↔
      ∀ body, .response body ∈ answers steps → SoundAnswer h sender info.crosstxid s body := by
  obtain ⟨l, input, amount, hsend | ⟨hash, t, second, hsend, hsaved⟩⟩ := Sender.run_cases hrun
  · obtain ⟨mine, hmine, hreplays⟩ := Session.replays hsend
    obtain rfl := hsince.unique hmine
    obtain ⟨hnone, hanswers⟩ := sendTransaction_answers hreplays
    refine iff_of_true (savesSoundly_of_not_writes hnone) fun body hbody => ?_
    rcases hanswers with ⟨hempty, _⟩ | ⟨r, hone, hrejected⟩
    · rw [hempty] at hbody
      cases hbody
    · rw [hone] at hbody
      cases List.mem_singleton.mp hbody
      exact soundAnswer_of_rejected hrejected
  · obtain ⟨mine, hmine, hreplays⟩ := Session.replays hsend
    obtain rfl := hsince.unique (hmine.trans hsaved.since)
    obtain ⟨hnone, hanswers⟩ := sendTransaction_answers hreplays
    have hone : ∃ body, answers (mine ++ second) = [.response body] ∧
        acceptedHash (.response body) = some hash := by
      rw [answers_append, hsaved.answers, List.append_nil]
      obtain ⟨_, hnothing⟩ | ⟨r, hone, haccepted⟩ := hanswers
      · cases hnothing
      · cases r with
        | error => cases haccepted
        | response body => exact ⟨body, hone, haccepted⟩
    obtain ⟨body, hone, haccepted⟩ := hone
    obtain ⟨e, hentry, hpolled⟩ := hsaved.entry
    obtain ⟨step, hstep, hwrite⟩ := hsaved.writes
    rw [state_of_remote (remote_sendTransaction ..) hsend] at hentry
    rw [savesSoundly_accepted_iff hone haccepted ?_ ⟨step, List.mem_append_right _ hstep, hwrite⟩ hentry
      hpolled, hone]
    · simp
    · intro step hstep hwrite
      rcases List.mem_append.mp hstep with hstep | hstep
      · exact False.elim (hnone step hstep hwrite)
      · exact hsaved.polled step hstep

/-- A submit response is accepted as the answer of a node that accepted the transaction exactly when
it has no gap, and in every run of a sender what is saved is sound exactly when every answer is. -/
theorem submission_sound_iff (sender : Sender) (info : Protocol.CrossTxInfo) (ok : Bool)
    (body : Option Json) (hrun : Runs Session.act (sender.run su h info) s ok s')
    (hsince : s.Since s' steps) :
    ((∀ txhash, acceptedHash (.response body) = some txhash → AcceptedBy body txhash) ↔ NoGap body) ∧
      (SavesSoundly su h sender info.crosstxid s' steps ↔
        ∀ body, .response body ∈ answers steps → SoundAnswer h sender info.crosstxid s body) :=
  ⟨acceptedBy_iff_noGap, savesSoundly_iff hrun hsince⟩

/-- The answers to `SendTx` and its save by a node that accepts the transaction. -/
def acceptedAnswers : List Answer :=
  [.reply (Formats.ledgerReply 100), .reply (Formats.submitReply "4a"), .stored true, .go]

/-- A reply with a hash leaves no gap. -/
theorem noGap_submitReply : ∀ body, HttpResult.response body = Formats.submitReply "4a" → NoGap body := by
  rintro _ ⟨⟩ doc value hdoc hvalue
  cases hdoc
  cases hvalue
  refine ⟨_, _, rfl, rfl, fun _ => ⟨fun result hresult => ?_, nofun⟩⟩
  cases List.mem_singleton.mp hresult
  exact ⟨.int 0, rfl, rfl⟩

/-- A submission that is accepted can be made. -/
theorem exists_submission : ∃ s' steps,
    Runs Session.act (Sender.sendTx.run Formats.system.su .layer1 { crosstxid := "7f".toList })
      (Session.start ∅) true s' ∧ (Session.start ∅).Since s' steps ∧
    answers steps = [Formats.submitReply "4a"] := by
  have hcheck : (runWith Session.step (Sender.sendTx.run Formats.system.su .layer1
      { crosstxid := "7f".toList }) acceptedAnswers (Session.start ∅)).map
        (fun r => (r.1, answers r.2.trace.reverse)) = some (true, [Formats.submitReply "4a"]) := by
    rfl
  obtain ⟨⟨ok, s'⟩, hrun, hpair⟩ := Option.map_eq_some_iff.mp hcheck
  cases (Prod.mk.inj hpair).1
  refine ⟨s', s'.trace.reverse, Session.runs_of_answers hrun, ?_, (Prod.mk.inj hpair).2⟩
  simp [Session.Since, Session.start]

/-- What was saved with the answer is sound. -/
theorem submission_sound_iff_accepted : ∃ s' steps, answers steps = [Formats.submitReply "4a"] ∧
    SavesSoundly Formats.system.su .layer1 .sendTx "7f".toList s' steps := by
  obtain ⟨s', steps, hrun, hsince, hanswers⟩ := exists_submission
  have hempty : ((Session.start ∅).state.maps (Sender.sendTx.store .layer1))["7f".toList]? = none :=
    ExtTreeMap.getElem?_empty
  refine ⟨s', steps, hanswers, (submission_sound_iff .sendTx _ _ none hrun hsince).2.mpr ?_⟩
  rw [hanswers]
  intro body hbody
  refine ⟨noGap_submitReply body (List.mem_singleton.mp hbody), fun _ _ _ e _ _ _ _ he => ?_⟩
  rw [hempty] at he
  cases he

/-- A document without results is accepted with an empty hash. -/
theorem submission_unsound_no_results : acceptedHash (.response (some (.obj []))) = some [] ∧
    ¬AcceptedBy (some (.obj [])) [] := by
  refine ⟨rfl, ?_⟩
  rintro ⟨doc, results, _, _, _, hne, _⟩
  exact hne rfl

end CrosschainAgent
