import CrosschainAgent.Session.Verdicts

/-!
# The stages of a transfer in one call

What a call of `Layer1ToLayer2Handle` saves and clears, and what it performed before: an entry is
saved under the id of the event or under the id of an entry that the pass found in its map, and a
map is cleared at once after the database. Once a call has saved an ack it owes the clear of the
send entry, and a call that has ended owes nothing.
-/

namespace CrosschainAgent

open Interaction Std HttpClient

variable {su : Setup} {steps more : List Step} {id id' : Text} {store : Store}

/-- The operation writes a value of the transfer. -/
def Op.PutsAt (store : Store) (id : Text) : Op → Prop
  | .dbPut key _ => key = store.keyPrefix ++ id
  | _ => False

/-- The operation saves an entry of the transfer, in the database or in the map. -/
def Op.SavesAt (store : Store) (id : Text) : Op → Prop
  | .dbPut key _ => key = store.keyPrefix ++ id
  | .emplace store' key _ => store' = store ∧ key = id
  | _ => False

/-- A write to the database saves. -/
theorem Op.PutsAt.savesAt {o : Op} (hputs : o.PutsAt store id) : o.SavesAt store id := by
  cases o with
  | dbPut => exact hputs
  | highResolution | http | dbDelete | dbScan | lock | unlock | entries | emplace | erase
  | setAckTimeout | terminate => exact hputs.elim

/-- What saves is not remote. -/
theorem Op.SavesAt.not_remote {o : Op} (hsaves : o.SavesAt store id) : ¬o.Remote := by
  cases o with
  | dbPut | emplace => exact False.elim
  | highResolution | http | dbDelete | dbScan | lock | unlock | entries | erase
  | setAckTimeout | terminate => exact hsaves.elim

/-- A write is of one map and one transfer. -/
theorem Op.PutsAt.unique {o : Op} {store' : Store} (hputs : o.PutsAt store id)
    (hputs' : o.PutsAt store' id') : store = store' ∧ id = id' := by
  cases o with
  | dbPut => exact Store.keyPrefix_append_inj (hputs.symm.trans hputs')
  | highResolution | http | dbDelete | dbScan | lock | unlock | entries | emplace | erase
  | setAckTimeout | terminate => exact hputs.elim

/-- The id of the record in a response. -/
def readId (r : HttpResult) : Option Text := do
  (← infoList (← (withBody readQueryData r).join))[2]?

/-- A record that the step read has the id that was asked for. -/
def Step.Own : Step → Prop
  | ⟨_, .http _ (.callContract _ input), r⟩ => ∀ token ∈ readId r,
      input.function = (crossTxInfo1Input token).function → input = crossTxInfo1Input token
  | _ => True

/-- Different ids are asked for differently. -/
theorem crossTxInfo1Input_inj (heq : crossTxInfo1Input id = crossTxInfo1Input id') : id = id' := by
  have hargs := congrArg QueryInput.args heq
  exact List.append_cancel_left (List.append_cancel_right hargs)

/-- A message has the id of the record it is made from. -/
theorem crosstxid_makeCrossTxInfo {h : Handle} {text1 text2 : Text} {info : Protocol.CrossTxInfo}
    (hmake : Handle.makeCrossTxInfo h text1 text2 = some (some info)) :
    ∃ tokens, infoList text1 = some tokens ∧ tokens[2]? = some info.crosstxid := by
  unfold Handle.makeCrossTxInfo at hmake
  split at hmake
  next => cases hmake
  next =>
    cases h <;>
      · obtain ⟨tokens, htokens, hmake⟩ := Option.bind_eq_some_iff.mp hmake
        obtain ⟨_, _, hmake⟩ := Option.bind_eq_some_iff.mp hmake
        obtain ⟨_, _, hmake⟩ := Option.bind_eq_some_iff.mp hmake
        obtain ⟨token, htoken, hmake⟩ := Option.bind_eq_some_iff.mp hmake
        -- the fields that follow do not matter here
        iterate 7 obtain ⟨_, _, hmake⟩ := Option.bind_eq_some_iff.mp hmake
        cases hmake
        exact ⟨tokens, htokens, htoken⟩

/-- A record that was read has the id that was asked for. -/
theorem own_readCrossTxInfo {h : Handle} {l : Layer} {info : Protocol.CrossTxInfo} {rest : List Step}
    (hreplays : Replays (Handle.readCrossTxInfo su h l id) steps (some info) rest)
    (hown : ∀ step ∈ steps, step.Own) : info.crosstxid = id := by
  obtain ⟨res, mid, hquery, hmake⟩ := runs_bind.mp hreplays
  cases res with
  | none => cases (runs_pure.mp hmake).1
  | some texts =>
    obtain ⟨text1, text2⟩ := texts
    obtain ⟨tokens, htokens, htoken⟩ := crosstxid_makeCrossTxInfo (runs_orTerminate hmake).1
    obtain ⟨res1, mid1, hquery1, hquery2⟩ := runs_bind.mp hquery
    obtain ⟨r, mid2, hhttp, hread⟩ := runs_bind.mp hquery1
    obtain ⟨before, rfl⟩ := runs_perform.mp hhttp
    have hread1 := (runs_orTerminate hread).1
    have htext : res1 = some text1 := by
      cases res1 with
      | none => cases (runs_pure.mp hquery2).1
      | some text =>
        obtain ⟨res2, mid3, _, hpair⟩ := runs_bind.mp hquery2
        cases res2 with
        | none => cases (runs_pure.mp hpair).1
        | some text' =>
          cases (runs_pure.mp hpair).1
          rfl
    subst htext
    have hid : readId r = some info.crosstxid := by
      simp [readId, hread1, htokens, htoken]
    have hfirst : Step.Own ⟨before, .http l (.callContract (su.conf.crossContract l)
        (crossTxInfo1Input id)), r⟩ := hown _ List.mem_cons_self
    exact (crossTxInfo1Input_inj (hfirst _ hid rfl)).symm

/-- An operation that begins something was performed, and since then none that ends it. -/
def Owing (begins ends : Op → Prop) (steps : List Step) : Prop :=
  ∃ before step after, steps = before ++ step :: after ∧ begins step.op ∧ ∀ later ∈ after, ¬ends later.op

section Owing

variable {begins ends : Op → Prop}

/-- Something is owed when the later part owes it, or the earlier and the later does not end it. -/
theorem owing_append : Owing begins ends (steps ++ more) ↔
    Owing begins ends more ∨ Owing begins ends steps ∧ ∀ step ∈ more, ¬ends step.op := by
  constructor
  · rintro ⟨before, step, after, heq, hbegins, hends⟩
    rcases List.append_eq_append_iff.mp heq with ⟨mid, hbefore, hmore⟩ | ⟨mid, hsteps, hafter⟩
    · exact Or.inl ⟨mid, step, after, hmore, hbegins, hends⟩
    · cases mid with
      | nil => exact Or.inl ⟨[], step, after, hafter.symm, hbegins, hends⟩
      | cons first mid =>
        obtain ⟨rfl, rfl⟩ := List.cons.inj hafter
        exact Or.inr ⟨⟨before, step, mid, hsteps, hbegins, fun later hlater =>
          hends later (List.mem_append_left _ hlater)⟩, fun later hlater =>
          hends later (List.mem_append_right _ hlater)⟩
  · rintro (⟨before, step, after, rfl, hbegins, hends⟩ | ⟨⟨before, step, after, rfl, hbegins, hends⟩, hmore⟩)
    · exact ⟨steps ++ before, step, after, (List.append_assoc _ _ _).symm, hbegins, hends⟩
    · refine ⟨before, step, after ++ more, by simp, hbegins, fun later hlater => ?_⟩
      exact (List.mem_append.mp hlater).elim (hends later) (hmore later)

/-- One step owes what it begins. -/
theorem owing_singleton {step : Step} : Owing begins ends [step] ↔ begins step.op := by
  constructor
  · rintro ⟨before, step', after, heq, hbegins, _⟩
    have hmem : step' ∈ [step] := heq ▸ List.mem_append_right before List.mem_cons_self
    rwa [List.mem_singleton.mp hmem] at hbegins
  · exact fun hbegins => ⟨[], step, [], rfl, hbegins, fun _ hlater => absurd hlater List.not_mem_nil⟩

/-- Steps that begin nothing owe nothing. -/
theorem not_owing_of_forall (hsteps : ∀ step ∈ steps, ¬begins step.op) : ¬Owing begins ends steps := by
  rintro ⟨before, step, after, rfl, hbegins, _⟩
  exact hsteps step (List.mem_append_right _ List.mem_cons_self) hbegins

/-- What begins nothing, after which nothing was owed. -/
theorem not_owing_append (hsteps : ¬Owing begins ends steps) (hmore : ¬Owing begins ends more) :
    ¬Owing begins ends (steps ++ more) := by
  rw [owing_append]
  rintro (hmore' | ⟨hsteps', _⟩)
  · exact hmore hmore'
  · exact hsteps hsteps'

end Owing

/-- The pass found an entry of the transfer in the map. -/
def Snapshot (su : Setup) (steps : List Step) (store : Store) (id : Text) : Prop :=
  ∃ before infos, ⟨before, .entries store, infos⟩ ∈ steps ∧
    ∃ p ∈ infos, p.2.crossTxId = id ∨ (p.2.info su.codec).crosstxid = id

/-- An entry that was found stays found. -/
theorem Snapshot.append (hsnapshot : Snapshot su steps store id) (more : List Step) :
    Snapshot su (steps ++ more) store id := by
  obtain ⟨before, infos, hmem, hentry⟩ := hsnapshot
  exact ⟨before, infos, List.mem_append_left _ hmem, hentry⟩

/-- What comes before a write of a call. -/
def Begins (su : Setup) (call : HandlerCall .layer1) (steps : List Step) : Store → Text → Prop
  | .send .layer1, id => call = .handleStartTxEvent id ∧ ∀ step ∈ steps, step.op.Remote
  | .ack .layer1, id => call = .handleSendTxEvent id ∨
      (call = .handleStartTxEvent id ∧ ∀ step ∈ steps, step.op.Remote) ∨
      (call = .sendTxTimeOut ∧ Snapshot su steps (.send .layer1) id) ∨
      (call = .sendAckTimeOut ∧ Snapshot su steps (.ack .layer1) id)
  | .reply .layer1, id => call = .handleSendAckdTxEvent id ∨
      (call = .replyAckTimeOut ∧ Snapshot su steps (.reply .layer1) id)
  | _, _ => False

/-- What comes before an insertion of a call: the write, and for a send entry nothing else. -/
def Begun (su : Setup) (call : HandlerCall .layer1) (steps : List Step) : Store → Text → Prop
  | .send .layer1, id => call = .handleStartTxEvent id ∧
      (∃ step ∈ steps, step.op.PutsAt (.send .layer1) id) ∧
      ∀ step ∈ steps, step.op.Remote ∨ step.op.PutsAt (.send .layer1) id
  | .ack .layer1, id => ∃ step ∈ steps, step.op.PutsAt (.ack .layer1) id
  | .reply .layer1, id => (∃ step ∈ steps, step.op.PutsAt (.reply .layer1) id) ∧
      (call = .handleSendAckdTxEvent id ∨ (call = .replyAckTimeOut ∧ Snapshot su steps (.reply .layer1) id))
  | _, _ => False

/-- What comes before a clear of a call. -/
def Clears (su : Setup) (call : HandlerCall .layer1) (steps : List Step) : Store → Text → Prop
  | .send .layer1, id => call = .handleSendTxEvent id ∨
      (call = .sendTxTimeOut ∧ Snapshot su steps (.send .layer1) id)
  | .ack .layer1, id => ∀ id', call = .handleSendAckdTxEvent id' → id' = id
  | .reply .layer1, _ => True
  | _, _ => False

/-- What comes before an operation of a call. -/
def Staged (su : Setup) (call : HandlerCall .layer1) (steps : List Step) : Op → Prop
  | .dbPut key _ => ∃ store id, key = store.keyPrefix ++ id ∧ Begins su call steps store id
  | .emplace store id e => e.FiledUnder su id ∧ Begun su call steps store id
  | .dbDelete key => ∃ store id, key = store.keyPrefix ++ id ∧ Clears su call steps store id
  | .erase store id => Clears su call steps store id ∧ ∃ done before ok,
      steps = done ++ [⟨before, .dbDelete (store.keyPrefix ++ id), ok⟩]
  | _ => True

/-- As long as the records that were read are those that were asked for. -/
def StagedIf (su : Setup) (call : HandlerCall .layer1) (steps : List Step) (o : Op) : Prop :=
  (∀ step ∈ steps, step.Own) → Staged su call steps o

section Staged

variable {call : HandlerCall .layer1} {info : Protocol.CrossTxInfo} {key : Text}

/-- What leaves the stores is staged at any point. -/
theorem staged_of_remote {o : Op} (hremote : o.Remote) : Staged su call steps o := by
  cases o with
  | dbPut | dbDelete | emplace | erase | setAckTimeout => exact hremote.elim
  | highResolution | http | dbScan | lock | unlock | entries | terminate => exact trivial

/-- Programs that leave the stores are staged. -/
theorem stagedIf_of_remote {α : Type} {p : AgentM α} (hp : Uses Op.Remote p) :
    UsesAfter (StagedIf su call) p steps :=
  UsesAfter.of_uses hp fun _ _ hremote _ => staged_of_remote hremote

/-- Quiet programs are staged. -/
theorem stagedIf_of_quiet {α : Type} {p : AgentM α} (hp : Uses Op.Quiet p) :
    UsesAfter (StagedIf su call) p steps :=
  stagedIf_of_remote (remote_of_quiet hp)

/-- A write and the insertion that follows it. -/
theorem stagedIf_saveInfo
    (hbegins : (∀ step ∈ steps, step.Own) → Begins su call steps store info.crosstxid)
    (hbegun : ∀ step : Step, step.op.PutsAt store info.crosstxid → (∀ step ∈ steps, step.Own) →
      Begun su call (steps ++ [step]) store info.crosstxid) :
    UsesAfter (StagedIf su call) (Handle.saveInfo store (CrossTx.ofInfo su.codec info)) steps := by
  refine ⟨fun hown => ⟨store, _, rfl, hbegins hown⟩, fun before ok => ⟨fun hown => ?_, fun _ _ => trivial⟩⟩
  refine ⟨filedUnder_ofInfo su info 0, hbegun _ rfl fun step hstep => ?_⟩
  exact hown step (List.mem_append_left _ hstep)

/-- Saving an ack is staged when its write and its insertion are. -/
theorem stagedIf_saveAckInfo
    (hbegins : (∀ step ∈ steps, step.Own) → Begins su call steps store info.crosstxid)
    (hbegun : ∀ more, (∃ step ∈ more, step.op.PutsAt store info.crosstxid) → (∀ step ∈ steps, step.Own) →
      Begun su call (steps ++ more) store info.crosstxid) :
    UsesAfter (StagedIf su call) (Handle.saveAckInfo .layer1 store (CrossTx.ofInfo su.codec info)) steps := by
  refine ⟨fun hown => ⟨store, _, rfl, hbegins hown⟩, fun before ok => ⟨fun _ => trivial, fun before' now =>
    ⟨fun hown => ?_, fun _ _ => trivial⟩⟩⟩
  refine ⟨filedUnder_ofInfo su info _, ?_⟩
  rw [List.append_assoc] at hown ⊢
  refine hbegun _ ⟨_, List.mem_cons_self, rfl⟩ fun step hstep => ?_
  exact hown step (List.mem_append_left _ hstep)

/-- Forgetting an entry is staged when its clear is. -/
theorem stagedIf_clearInfo
    (hclears : ∀ more, (∀ step ∈ steps, step.Own) → Clears su call (steps ++ more) store key) :
    UsesAfter (StagedIf su call) (Handle.clearInfo store key) steps := by
  refine ⟨fun hown => ⟨store, key, rfl, ?_⟩, fun before ok => ⟨fun hown => ⟨?_, steps, before, ok, rfl⟩,
    fun _ _ => trivial⟩⟩
  · simpa using hclears [] hown
  · exact hclears _ fun step hstep => hown step (List.mem_append_left _ hstep)

/-- An ack to the source, at the end of which nothing was saved but the ack. -/
theorem stagedIf_sendAckTo (hbegins : ∀ more, (∀ step ∈ more, step.op.Remote) →
      (∀ step ∈ steps ++ more, step.Own) → Begins su call (steps ++ more) (.ack .layer1) info.crosstxid) :
    UsesAfter (StagedIf su call) (Handle.sendAckTo su .layer1 info) steps := by
  have hremote := remote_sendTransaction su .layer1 (Handle.sendAckedTxInput .layer1 info) 0
  refine UsesAfter.bind (stagedIf_of_remote hremote) fun txhash more hreplays => ?_
  cases txhash with
  | none => exact UsesAfter.pure _
  | some hash =>
    have hid : (info.setAckHash .layer1 hash).crosstxid = info.crosstxid :=
      Protocol.CrossTxInfo.crosstxid_setAckHash info .layer1 hash
    refine UsesAfter.bind (stagedIf_saveAckInfo (fun hown => ?_) fun more' hput _ => ?_) fun _ _ _ =>
      UsesAfter.pure _
    · rw [hid]
      exact hbegins more (Replays.uses hremote hreplays) hown
    · obtain ⟨step, hstep, hputs⟩ := hput
      exact ⟨step, List.mem_append_right _ hstep, hputs⟩

/-- An ack to the destination. -/
theorem stagedIf_replyAckTo (hbegins : ∀ more, (∀ step ∈ steps, step.Own) →
      Begins su call (steps ++ more) (.reply .layer1) info.crosstxid) :
    UsesAfter (StagedIf su call) (Handle.replyAckTo su .layer1 info) steps := by
  have hremote := remote_sendTransaction su .layer2 (Handle.sendAckedTxInput .layer1 info) 0
  refine UsesAfter.bind (stagedIf_of_remote hremote) fun txhash more hreplays => ?_
  cases txhash with
  | none => exact UsesAfter.pure _
  | some hash =>
    have hid : (info.setAckHash .layer2 hash).crosstxid = info.crosstxid :=
      Protocol.CrossTxInfo.crosstxid_setAckHash info .layer2 hash
    refine UsesAfter.bind (stagedIf_saveAckInfo (fun hown => ?_) fun more' hput hown => ?_) fun _ _ _ =>
      UsesAfter.pure _
    · change Begins su call (steps ++ more) (.reply .layer1) (info.setAckHash .layer2 hash).crosstxid
      rw [hid]
      exact hbegins more fun step hstep => hown step (List.mem_append_left _ hstep)
    · obtain ⟨step, hstep, hputs⟩ := hput
      refine ⟨⟨step, List.mem_append_right _ hstep, hputs⟩, ?_⟩
      change call = .handleSendAckdTxEvent (info.setAckHash .layer2 hash).crosstxid ∨ _ ∧
        Snapshot su _ _ (info.setAckHash .layer2 hash).crosstxid
      rw [hid, List.append_assoc]
      exact hbegins (more ++ more') fun step hstep => hown step (List.mem_append_left _ hstep)

/-- The handler of a `SendTx` event is staged when its ack and its clear are. -/
theorem stagedIf_handleSendTxEvent {status : Int32}
    (hbegins : ∀ more, Begins su call (steps ++ more) (.ack .layer1) id)
    (hclears : ∀ more, Clears su call (steps ++ more) (.send .layer1) id) :
    UsesAfter (StagedIf su call) (Handle.handleSendTxEventWith su .layer1 id status) steps := by
  refine UsesAfter.bind (stagedIf_of_quiet (quiet_readCrossTxInfo _ _ _ _)) fun res more hread => ?_
  cases res with
  | none => exact UsesAfter.pure _
  | some info =>
    refine UsesAfter.bind (stagedIf_sendAckTo fun more' _ hown => ?_) fun ok more' _ => ?_
    · have hid : info.crosstxid = id := own_readCrossTxInfo hread fun step hstep =>
        hown step (List.mem_append_left _ (List.mem_append_right _ hstep))
      change Begins su call _ (.ack .layer1) info.crosstxid
      rw [hid, List.append_assoc]
      exact hbegins _
    · cases ok with
      | false => exact UsesAfter.pure _
      | true =>
        refine UsesAfter.bind (stagedIf_clearInfo fun more'' _ => ?_) fun _ _ _ => UsesAfter.pure _
        simp only [List.append_assoc]
        exact hclears _

/-- A due ack is staged when its clear is, and sending it again. -/
theorem stagedIf_ackExpired {l : Layer} {now : Int64} {e : CrossTx} {resend : AgentM Bool}
    (hclears : ∀ more, Clears su call (steps ++ more) store key)
    (hresend : ∀ more, UsesAfter (StagedIf su call) resend (steps ++ more)) :
    UsesAfter (StagedIf su call) (Handle.ackExpired su store l now key e resend) steps := by
  have hclear : ∀ more, UsesAfter (StagedIf su call) (Handle.clearInfo store key) (steps ++ more) := by
    intro more
    refine stagedIf_clearInfo fun more' _ => ?_
    rw [List.append_assoc]
    exact hclears _
  refine UsesAfter.bind (stagedIf_of_quiet (quiet_getTxResult _ _)) fun found more _ => ?_
  cases found with
  | true => exact hclear more
  | false =>
    refine UsesAfter.bind (stagedIf_of_quiet (quiet_getCrossTxStatus _ _ _)) fun status more' _ => ?_
    rw [List.append_assoc]
    split
    · exact hclear _
    · exact UsesAfter.bind (hresend _) fun _ _ _ => ⟨fun _ => trivial, fun _ _ => trivial⟩

/-- The handling of a StartTx event: only an accepted submission comes before the write of the send
entry, and nothing but a rejected one before that of the ack. -/
theorem stagedIf_handleStartTxEvent :
    UsesAfter (StagedIf su (.handleStartTxEvent id)) (Layer1ToLayer2Handle.handleStartTxEvent su id) [] := by
  have hquiet := quiet_readCrossTxInfo su .layer1 .layer1 id
  refine UsesAfter.bind (stagedIf_of_quiet hquiet) fun res more hread => ?_
  have hmore : ∀ step ∈ more, step.op.Remote := Replays.uses (remote_of_quiet hquiet) hread
  cases res with
  | none => exact UsesAfter.pure _
  | some info =>
    have hid : (∀ step ∈ more, step.Own) → info.crosstxid = id := own_readCrossTxInfo hread
    have hremote := remote_sendTransaction su .layer2 (Handle.sendTxInput info) info.amount
    have hsend : UsesAfter (StagedIf su (.handleStartTxEvent id)) (Handle.sendTxTo su .layer1 info) more := by
      refine UsesAfter.bind (stagedIf_of_remote hremote) fun txhash more' hreplays => ?_
      have hall : ∀ step ∈ more ++ more', step.op.Remote := fun step hstep =>
        (List.mem_append.mp hstep).elim (hmore step) (Replays.uses hremote hreplays step)
      cases txhash with
      | none => exact UsesAfter.pure _
      | some hash =>
        refine UsesAfter.bind (stagedIf_saveInfo (fun hown => ?_) fun step hputs hown => ?_) fun _ _ _ =>
          UsesAfter.pure _
        · have hid := hid fun step hstep => hown step (List.mem_append_left _ hstep)
          exact ⟨congrArg _ hid.symm, hall⟩
        · have hid := hid fun step hstep => hown step (List.mem_append_left _ hstep)
          refine ⟨congrArg _ hid.symm, ⟨step, List.mem_append_right _ List.mem_cons_self, hputs⟩, ?_⟩
          intro step' hstep'
          rcases List.mem_append.mp hstep' with hstep' | hstep'
          · exact Or.inl (hall step' hstep')
          · rw [List.mem_singleton.mp hstep']
            exact Or.inr hputs
    refine UsesAfter.bind hsend fun ok more' hreplays => ?_
    cases ok with
    | true => exact UsesAfter.pure _
    | false =>
      rcases sendTxTo_cases hreplays with ⟨_, hnone⟩ | ⟨_, _, htrue, _⟩
      · refine UsesAfter.bind (stagedIf_sendAckTo fun more'' hmore'' hown => Or.inr (Or.inl ⟨?_, ?_⟩))
          fun _ _ _ => UsesAfter.pure _
        · have hid := hid fun step hstep =>
            hown step (List.mem_append_left _ (List.mem_append_left _ hstep))
          exact congrArg _ hid.symm
        · intro step hstep
          rcases List.mem_append.mp hstep with hstep | hstep
          · exact (List.mem_append.mp hstep).elim (hmore step) (Replays.uses hremote hnone step)
          · exact hmore'' step hstep
      · cases htrue

/-- Every call of the layer-1 handler keeps to its stages. -/
theorem run_stagedIf (call : HandlerCall .layer1) : UsesAfter (StagedIf su call) (call.run su) [] := by
  cases call with
  | handleStartTxEvent crossTxid => exact stagedIf_handleStartTxEvent
  | handleSendTxEvent crossTxid =>
    exact stagedIf_handleSendTxEvent (fun _ => Or.inl rfl) fun _ => Or.inl rfl
  | handleSendAckdTxEvent crossTxid =>
    refine UsesAfter.bind (stagedIf_of_quiet (quiet_readCrossTxInfo _ _ _ _)) fun res more hread => ?_
    cases res with
    | none => exact UsesAfter.pure _
    | some info =>
      refine UsesAfter.bind (stagedIf_replyAckTo fun more' hown => Or.inl ?_) fun ok more' _ => ?_
      · exact congrArg _ (own_readCrossTxInfo hread hown).symm
      · cases ok with
        | false => exact UsesAfter.pure _
        | true =>
          refine UsesAfter.bind (stagedIf_clearInfo fun more'' _ id' heq => ?_) fun _ _ _ =>
            UsesAfter.pure _
          cases heq
          rfl
  | sendTxTimeOut =>
    refine Pass.sendTxTimeOut.usesAfter_run (fun _ o hquiet _ => staged_of_remote hquiet.remote)
      fun now key e steps before infos _ hmem hentry => ?_
    have hfiled : Snapshot su steps (.send .layer1) e.crossTxId := ⟨before, infos, hmem, _, hentry, Or.inl rfl⟩
    have hinfo : Snapshot su steps (.send .layer1) (e.info su.codec).crosstxid :=
      ⟨before, infos, hmem, _, hentry, Or.inr rfl⟩
    refine UsesAfter.ite (fun _ => ?_) fun _ => UsesAfter.pure _
    refine UsesAfter.bind (stagedIf_of_quiet (quiet_getTxResult _ _)) fun found more _ => ?_
    cases found with
    | true =>
      refine UsesAfter.bind (stagedIf_handleSendTxEvent (fun more' => ?_) fun more' => ?_) fun _ _ _ =>
        UsesAfter.pure _
      · exact Or.inr (Or.inr (Or.inl ⟨rfl, (hfiled.append more).append more'⟩))
      · exact Or.inr ⟨rfl, (hfiled.append more).append more'⟩
    | false =>
      refine UsesAfter.bind (stagedIf_sendAckTo fun more' _ _ => ?_) fun ok more' _ => ?_
      · exact Or.inr (Or.inr (Or.inl ⟨rfl, (hinfo.append more).append more'⟩))
      · cases ok with
        | false => exact UsesAfter.pure _
        | true =>
          refine stagedIf_clearInfo fun more'' _ => Or.inr ⟨rfl, ?_⟩
          exact ((hinfo.append more).append more').append more''
  | sendAckTimeOut =>
    refine Pass.sendAckTimeOut.usesAfter_run (fun _ o hquiet _ => staged_of_remote hquiet.remote)
      fun now key e steps before infos _ hmem hentry => ?_
    have hinfo : Snapshot su steps (.ack .layer1) (e.info su.codec).crosstxid :=
      ⟨before, infos, hmem, _, hentry, Or.inr rfl⟩
    have hresend : ∀ more, UsesAfter (StagedIf su .sendAckTimeOut)
        (Handle.sendAckTo su .layer1 (e.info su.codec)) (steps ++ more) := fun more =>
      stagedIf_sendAckTo fun more' _ _ =>
        Or.inr (Or.inr (Or.inr ⟨rfl, (hinfo.append more).append more'⟩))
    refine UsesAfter.ite (fun _ => UsesAfter.ite (fun _ => ?_) fun _ => ?_) fun _ => UsesAfter.pure _
    · have hfirst := hresend []
      rw [List.append_nil] at hfirst
      exact UsesAfter.bind hfirst fun _ _ _ => ⟨fun _ => trivial, fun _ _ => trivial⟩
    · exact stagedIf_ackExpired (fun _ _ hcall => nomatch hcall) hresend
  | replyAckTimeOut =>
    refine Pass.replyAckTimeOut.usesAfter_run (fun _ o hquiet _ => staged_of_remote hquiet.remote)
      fun now key e steps before infos _ hmem hentry => ?_
    have hinfo : Snapshot su steps (.reply .layer1) (e.info su.codec).crosstxid :=
      ⟨before, infos, hmem, _, hentry, Or.inr rfl⟩
    refine UsesAfter.ite (fun _ => stagedIf_ackExpired (fun _ => trivial) fun more => ?_) fun _ =>
      UsesAfter.pure _
    exact stagedIf_replyAckTo fun more' _ => Or.inr ⟨rfl, (hinfo.append more).append more'⟩

end Staged

section Ends

variable {first second : List Step} {info : Protocol.CrossTxInfo} {key : Text} {store' : Store}

/-- The call has saved an ack of the transfer and is to clear its send entry. -/
abbrev OwesSend (steps : List Step) (id : Text) : Prop :=
  Owing (Op.PutsAt (.ack .layer1) id) (· = .erase (.send .layer1) id) steps

/-- The call has saved a reply for the transfer and is to clear its ack entry. -/
abbrev OwesAck (steps : List Step) (id : Text) : Prop :=
  Owing (Op.PutsAt (.reply .layer1) id) (· = .erase (.ack .layer1) id) steps

/-- Steps that leave the stores owe nothing. -/
theorem not_owing_of_remote {ends : Op → Prop} (hsteps : ∀ step ∈ steps, step.op.Remote) :
    ¬Owing (Op.PutsAt store id) ends steps :=
  not_owing_of_forall fun step hstep hputs => hputs.savesAt.not_remote (hsteps step hstep)

/-- Forgetting an entry is a deletion and an erasure. -/
theorem replays_clearInfo {r : Unit} (hreplays : Replays (Handle.clearInfo store key) steps r []) :
    ∃ before ok before', steps = [⟨before, .dbDelete (store.keyPrefix ++ key), ok⟩,
      ⟨before', .erase store key, ()⟩] := by
  obtain ⟨ok, mid, ⟨before, rfl⟩, hreplays⟩ := hreplays
  obtain ⟨⟨⟩, rest, ⟨before', rfl⟩, hend⟩ := hreplays
  obtain ⟨_, rfl⟩ := hend
  exact ⟨before, ok, before', rfl⟩

/-- What a save writes. -/
theorem putsAt_saveAckInfo {l : Handle} {r : Unit}
    (hreplays : Replays (Handle.saveAckInfo l store (CrossTx.ofInfo su.codec info)) steps r [])
    {step : Step} (hstep : step ∈ steps) (hputs : step.op.PutsAt store id) : id = info.crosstxid := by
  have huses : Uses (fun o => o.PutsAt store id → id = info.crosstxid)
      (Handle.saveAckInfo l store (CrossTx.ofInfo su.codec info)) := by
    refine uses_saveAckInfo (fun o hquiet hputs => ?_) l ⟨fun hputs => ?_, fun _ hputs => hputs.elim⟩
    · exact absurd hquiet.remote hputs.savesAt.not_remote
    · exact (List.append_cancel_left hputs).symm
  exact Replays.uses huses hreplays step hstep hputs

/-- A save of an ack that a clear of the same transfer follows. -/
theorem not_owing_save_clear {l : Handle} {r r' : Unit} (hkey : info.crosstxid = key)
    (hsave : Replays (Handle.saveAckInfo l store (CrossTx.ofInfo su.codec info)) first r [])
    (hclear : Replays (Handle.clearInfo store' key) second r' []) :
    ¬Owing (Op.PutsAt store id) (· = .erase store' id) (first ++ second) := by
  obtain ⟨before, ok, before', rfl⟩ := replays_clearInfo hclear
  rw [owing_append]
  rintro (hsecond | ⟨⟨pre, step, post, rfl, hputs, _⟩, hends⟩)
  · refine not_owing_of_forall (fun step hstep hputs => ?_) hsecond
    simp only [List.mem_cons, List.not_mem_nil, or_false] at hstep
    rcases hstep with rfl | rfl <;> exact hputs
  · have hid := putsAt_saveAckInfo hsave (List.mem_append_right _ List.mem_cons_self) hputs
    exact hends _ (List.mem_cons_of_mem _ List.mem_cons_self) (by rw [hid, hkey])

/-- An ack to the source, whether it is accepted or not, and the clear that follows it. -/
theorem sendAckTo_owes_nothing {ok : Bool} (hkey : info.crosstxid = key)
    (hack : Replays (Handle.sendAckTo su .layer1 info) first ok [])
    (hclear : ok = true → ∃ r, Replays (Handle.clearInfo (.send .layer1) key) second r [])
    (hnone : ok = false → second = []) : ¬OwesSend (first ++ second) id := by
  have hremote := remote_sendTransaction su .layer1 (Handle.sendAckedTxInput .layer1 info) 0
  rcases sendAckTo_cases hack with ⟨rfl, hsend⟩ | ⟨hash, mid, rfl, hsend, hsave⟩
  · rw [hnone rfl, List.append_nil]
    exact not_owing_of_remote (Replays.uses hremote hsend)
  · obtain ⟨r, hclear⟩ := hclear rfl
    obtain ⟨sent, rfl, hsent⟩ := Replays.exists_prefix hsend
    rw [List.append_assoc]
    refine not_owing_append (not_owing_of_remote (Replays.uses hremote hsent)) ?_
    refine not_owing_save_clear ?_ hsave hclear
    rw [Protocol.CrossTxInfo.crosstxid_setAckHash, hkey]

/-- An ack to the destination, whether it is accepted or not, and the clear that follows it. -/
theorem replyAckTo_owes_nothing {ok : Bool} (hkey : info.crosstxid = key)
    (hack : Replays (Handle.replyAckTo su .layer1 info) first ok [])
    (hclear : ok = true → ∃ r, Replays (Handle.clearInfo (.ack .layer1) key) second r [])
    (hnone : ok = false → second = []) : ¬OwesAck (first ++ second) id := by
  have hremote := remote_sendTransaction su .layer2 (Handle.sendAckedTxInput .layer1 info) 0
  rcases replyAckTo_cases hack with ⟨rfl, hsend⟩ | ⟨hash, mid, rfl, hsend, hsave⟩
  · rw [hnone rfl, List.append_nil]
    exact not_owing_of_remote (Replays.uses hremote hsend)
  · obtain ⟨r, hclear⟩ := hclear rfl
    obtain ⟨sent, rfl, hsent⟩ := Replays.exists_prefix hsend
    rw [List.append_assoc]
    refine not_owing_append (not_owing_of_remote (Replays.uses hremote hsent)) ?_
    refine not_owing_save_clear ?_ hsave hclear
    rw [Protocol.CrossTxInfo.crosstxid_setAckHash, hkey]

/-- The handler of a `SendTx` event, once it returned, has cleared what it acknowledged. -/
theorem handleSendTxEvent_owes_nothing {status : Int32} {ok : Bool}
    (hreplays : Replays (Handle.handleSendTxEventWith su .layer1 key status) steps ok [])
    (hown : ∀ step ∈ steps, step.Own) : ¬OwesSend steps id := by
  obtain ⟨res, read, rest, rfl, hread, hreplays⟩ := replays_bind hreplays
  have hquiet := quiet_readCrossTxInfo su .layer1 Layer.layer1.other key
  refine not_owing_append (not_owing_of_remote (Replays.uses (remote_of_quiet hquiet) hread)) ?_
  cases res with
  | none =>
    obtain ⟨_, rfl⟩ := runs_pure.mp hreplays
    exact not_owing_of_remote fun step hstep => absurd hstep List.not_mem_nil
  | some info =>
    have hkey : info.crosstxid = key := own_readCrossTxInfo hread fun step hstep =>
      hown step (List.mem_append_left _ hstep)
    obtain ⟨sent, first, second, rfl, hack, hreplays⟩ := replays_bind hreplays
    have hacked : Protocol.CrossTxInfo.crosstxid { info with status := status } = key := hkey
    refine sendAckTo_owes_nothing hacked hack (fun htrue => ?_) fun hfalse => ?_
    · subst htrue
      obtain ⟨r, clear, last, rfl, hclear, hend⟩ := replays_bind hreplays
      obtain ⟨_, rfl⟩ := runs_pure.mp hend
      rw [List.append_nil]
      exact ⟨r, hclear⟩
    · subst hfalse
      exact (runs_pure.mp hreplays).2.symm

/-- The handler of an ack event, once it returned, has cleared what it replied to. -/
theorem handleSendAckdTxEvent_owes_nothing {ok : Bool}
    (hreplays : Replays (Handle.handleSendAckdTxEvent su .layer1 key) steps ok [])
    (hown : ∀ step ∈ steps, step.Own) : ¬OwesAck steps id := by
  obtain ⟨res, read, rest, rfl, hread, hreplays⟩ := replays_bind hreplays
  have hquiet := quiet_readCrossTxInfo su .layer1 .layer1 key
  refine not_owing_append (not_owing_of_remote (Replays.uses (remote_of_quiet hquiet) hread)) ?_
  cases res with
  | none =>
    obtain ⟨_, rfl⟩ := runs_pure.mp hreplays
    exact not_owing_of_remote fun step hstep => absurd hstep List.not_mem_nil
  | some info =>
    have hkey : info.crosstxid = key := own_readCrossTxInfo hread fun step hstep =>
      hown step (List.mem_append_left _ hstep)
    obtain ⟨sent, first, second, rfl, hack, hreplays⟩ := replays_bind hreplays
    refine replyAckTo_owes_nothing hkey hack (fun htrue => ?_) fun hfalse => ?_
    · subst htrue
      obtain ⟨r, clear, last, rfl, hclear, hend⟩ := replays_bind hreplays
      obtain ⟨_, rfl⟩ := runs_pure.mp hend
      rw [List.append_nil]
      exact ⟨r, hclear⟩
    · subst hfalse
      exact (runs_pure.mp hreplays).2.symm

/-- What is done about a `SendTx` without a receipt, once done, leaves nothing owed. -/
theorem sendTxExpired_owes_nothing {e : CrossTx}
    (hreplays : Replays (Handle.sendTxExpired su .layer1 e) steps () [])
    (hown : ∀ step ∈ steps, step.Own) : ¬OwesSend steps id := by
  obtain ⟨found, query, rest, rfl, hquery, hreplays⟩ := replays_bind hreplays
  have hquiet := quiet_getTxResult Layer.layer1.other e.sendTxHash
  refine not_owing_append (not_owing_of_remote (Replays.uses (remote_of_quiet hquiet) hquery)) ?_
  cases found with
  | true =>
    obtain ⟨ok, handled, last, rfl, hhandled, hend⟩ := replays_bind hreplays
    obtain ⟨_, rfl⟩ := runs_pure.mp hend
    rw [List.append_nil] at hown ⊢
    exact handleSendTxEvent_owes_nothing hhandled fun step hstep =>
      hown step (List.mem_append_right _ hstep)
  | false =>
    obtain ⟨ok, first, second, rfl, hack, hreplays⟩ := replays_bind hreplays
    refine sendAckTo_owes_nothing rfl hack (fun htrue => ?_) fun hfalse => ?_
    · subst htrue
      exact ⟨_, hreplays⟩
    · subst hfalse
      exact (runs_pure.mp hreplays).2.symm

/-- A loop owes nothing if none of its rounds does. -/
theorem forM_owes_nothing {α : Type} {begins ends : Op → Prop} {f : α → AgentM PUnit} {xs : List α}
    {r : PUnit} (hround : ∀ x ∈ xs, ∀ round r, Replays (f x) round r [] → (∀ step ∈ round, step.Own) →
      ¬Owing begins ends round) (hreplays : Replays (xs.forM f) steps r [])
    (hown : ∀ step ∈ steps, step.Own) : ¬Owing begins ends steps := by
  induction xs generalizing steps with
  | nil =>
    obtain ⟨_, rfl⟩ := runs_pure.mp hreplays
    exact not_owing_of_forall fun step hstep => absurd hstep List.not_mem_nil
  | cons x xs ih =>
    obtain ⟨r', first, second, rfl, hfirst, hrest⟩ := replays_bind hreplays
    refine not_owing_append (hround x List.mem_cons_self first r' hfirst fun step hstep => ?_) ?_
    · exact hown step (List.mem_append_left _ hstep)
    · exact ih (fun y hy => hround y (List.mem_cons_of_mem _ hy)) hrest fun step hstep =>
        hown step (List.mem_append_right _ hstep)

/-- The pass over the send store, once it returned, owes nothing. -/
theorem sendTxTimeOut_owes_nothing {ok : Bool}
    (hreplays : Replays ((HandlerCall.sendTxTimeOut : HandlerCall .layer1).run su) steps ok [])
    (hown : ∀ step ∈ steps, step.Own) : ¬OwesSend steps id := by
  have hrun := Pass.run_eq_prologue su (Pass.sendTxTimeOut : Pass .layer1)
  change Replays (Pass.call .sendTxTimeOut |>.run su) steps ok [] at hreplays
  rw [hrun] at hreplays
  obtain ⟨⟨now, infos⟩, first, second, rfl, hprologue, hreplays⟩ := replays_bind hreplays
  obtain ⟨_, rounds, last, rfl, hepilogue, hend⟩ := replays_bind hreplays
  obtain ⟨_, rfl⟩ := runs_pure.mp hend
  obtain ⟨_, loop, unlock, rfl, hloop, hunlock⟩ := replays_bind hepilogue
  have hquiet : Uses Op.Remote (Pass.sendTxTimeOut : Pass .layer1).prologue :=
    Uses.bind (Uses.perform trivial) fun _ => Uses.bind (Uses.perform trivial) fun _ =>
      Uses.bind (Uses.perform trivial) fun _ => Uses.pure _
  have hremote : Uses Op.Remote (perform (Op.unlock (.send .layer1)) : AgentM Unit) := Uses.perform trivial
  rw [List.append_nil]
  refine not_owing_append (not_owing_of_remote (Replays.uses hquiet hprologue)) (not_owing_append ?_
    (not_owing_of_remote (Replays.uses hremote hunlock)))
  refine forM_owes_nothing (fun x _ round r hround hown' => ?_) hloop fun step hstep =>
    hown step (List.mem_append_right _ (List.mem_append_left _ (List.mem_append_left _ hstep)))
  obtain ⟨key, e⟩ := x
  change Replays (if e.sendTxTimeout < now then Handle.sendTxExpired su .layer1 e else pure ()) round r
    [] at hround
  split at hround
  next => exact sendTxExpired_owes_nothing hround hown'
  next =>
    obtain ⟨_, rfl⟩ := runs_pure.mp hround
    exact not_owing_of_remote fun step hstep => absurd hstep List.not_mem_nil

/-- A SendTx event whose ack was accepted has cleared the send entry. -/
theorem handleSendTxEvent_erases (hreplays : Replays (Handle.handleSendTxEvent su .layer1 key) steps true []) :
    ∃ step ∈ steps, step.op = .erase (.send .layer1) key := by
  obtain ⟨res, read, rest, rfl, _, hreplays⟩ := replays_bind hreplays
  cases res with
  | none => cases (runs_pure.mp hreplays).1
  | some info =>
    obtain ⟨sent, first, second, rfl, _, hreplays⟩ := replays_bind hreplays
    cases sent with
    | false => cases (runs_pure.mp hreplays).1
    | true =>
      obtain ⟨r, clear, last, rfl, hclear, _⟩ := replays_bind hreplays
      obtain ⟨before, ok, before', rfl⟩ := replays_clearInfo hclear
      exact ⟨⟨before', .erase (.send .layer1) key, ()⟩, by simp, rfl⟩

/-- A SendAcked event whose reply was accepted has cleared the ack entry. -/
theorem handleSendAckdTxEvent_erases
    (hreplays : Replays (Handle.handleSendAckdTxEvent su .layer1 key) steps true []) :
    ∃ step ∈ steps, step.op = .erase (.ack .layer1) key := by
  obtain ⟨res, read, rest, rfl, _, hreplays⟩ := replays_bind hreplays
  cases res with
  | none => cases (runs_pure.mp hreplays).1
  | some info =>
    obtain ⟨sent, first, second, rfl, _, hreplays⟩ := replays_bind hreplays
    cases sent with
    | false => cases (runs_pure.mp hreplays).1
    | true =>
      obtain ⟨r, clear, last, rfl, hclear, _⟩ := replays_bind hreplays
      obtain ⟨before, ok, before', rfl⟩ := replays_clearInfo hclear
      exact ⟨⟨before', .erase (.ack .layer1) key, ()⟩, by simp, rfl⟩

end Ends

end CrosschainAgent
