import CrosschainAgent.Session.Stages
import CrosschainAgent.Session.Redelivery

/-!
# Stages under interleaving

The threads of `Layer1ToLayer2Handle` interleave as in `Session/Threads`. When every save of an
entry comes before the event that is to clear it is taken up, a transfer that two of the three
maps hold is one that some thread is about to clear, so none is held twice when no thread is at
work, and a map never takes back what its event has cleared.
-/

namespace CrosschainAgent

open Interaction Std HttpClient

variable {su : Setup} {T : Type}

/-- The map or the database has an entry of the transfer. -/
def AgentState.Holds (a : AgentState) (store : Store) (id : Text) : Prop :=
  ((a.maps store)[id]?).isSome ∨ (a.db[store.keyPrefix ++ id]?).isSome

/-- The call handles an event of a contract. -/
def HandlerCall.IsEvent : {h : Handle} → HandlerCall h → Prop
  | _, .handleStartTxEvent _ | _, .handleSendTxEvent _ | _, .handleSendAckdTxEvent _ => True
  | _, _ => False

/-- The job is to clear the send entry of the transfer: it saved the ack of its SendTx event, or
that of the entry past its timeout. -/
def Job.OwesSend (j : Job .layer1) (id : Text) : Prop :=
  ((∃ crossTxid, j.call = some (.handleSendTxEvent crossTxid)) ∨ j.call = some .sendTxTimeOut) ∧
    CrosschainAgent.OwesSend j.steps id

/-- The job is to clear the ack entry of the transfer: it saved the reply of its SendAcked event. -/
def Job.OwesAck (j : Job .layer1) (id : Text) : Prop :=
  (∃ crossTxid, j.call = some (.handleSendAckdTxEvent crossTxid)) ∧
    CrosschainAgent.OwesAck j.steps id

/-- The last operation of the job deleted the value of the transfer. -/
def Job.Deleted (j : Job .layer1) (store : Store) (id : Text) : Prop :=
  ∃ done before ok, j.steps = done ++ [⟨before, .dbDelete (store.keyPrefix ++ id), ok⟩]

namespace Work

variable {w w' : Work .layer1 T} {call : HandlerCall .layer1} {P Q : Op → Prop} {id : Text}

/-- The call was taken up. -/
def Took (w : Work .layer1 T) (call : HandlerCall .layer1) : Prop :=
  ∃ j, w.Has j ∧ j.call = some call

/-- An operation was performed, for whatever call. -/
def Performed (w : Work .layer1 T) (P : Op → Prop) : Prop :=
  ∃ j, w.Has j ∧ ∃ step ∈ j.steps, P step.op

/-- An operation was performed for the call. -/
def PerformedFor (w : Work .layer1 T) (call : HandlerCall .layer1) (P : Op → Prop) : Prop :=
  ∃ j, w.Has j ∧ j.call = some call ∧ ∃ step ∈ j.steps, P step.op

/-- An ack of the transfer was written. -/
abbrev AckPut (w : Work .layer1 T) (id : Text) : Prop := w.Performed (Op.PutsAt (.ack .layer1) id)

/-- The StartTx event of the transfer inserted its send entry. -/
abbrev Emplaced (w : Work .layer1 T) (id : Text) : Prop :=
  w.PerformedFor (.handleStartTxEvent id) fun o => ∃ e, o = .emplace (.send .layer1) id e

/-- The SendAcked event of the transfer wrote a reply. -/
abbrev Replied (w : Work .layer1 T) (id : Text) : Prop :=
  w.PerformedFor (.handleSendAckdTxEvent id) (Op.PutsAt (.reply .layer1) id)

/-- How an entry got into its map. -/
def Inserted (w : Work .layer1 T) : Store → Text → Prop
  | .send .layer1, id => w.Emplaced id
  | .ack .layer1, id => w.AckPut id
  | .reply .layer1, id => w.Replied id
  | _, _ => False

/-- How a value got into the database. -/
def Written (w : Work .layer1 T) : Store → Text → Prop
  | .send .layer1, id => w.PerformedFor (.handleStartTxEvent id) (Op.SavesAt (.send .layer1) id)
  | .ack .layer1, id => w.AckPut id
  | .reply .layer1, id => w.Replied id
  | _, _ => False

/-- What was taken up stays taken up. -/
theorem Took.continues (htook : w.Took call) (hcontinues : w'.Continues w) : w'.Took call := by
  obtain ⟨j, hhas, hcall⟩ := htook
  obtain ⟨more, hhas'⟩ := hcontinues j hhas
  exact ⟨_, hhas', hcall⟩

/-- What was performed stays performed. -/
theorem Performed.continues (hperformed : w.Performed P) (hcontinues : w'.Continues w) :
    w'.Performed P := by
  obtain ⟨j, hhas, step, hstep, hP⟩ := hperformed
  obtain ⟨more, hhas'⟩ := hcontinues j hhas
  exact ⟨_, hhas', step, List.mem_append_left _ hstep, hP⟩

/-- What was performed for a call stays performed for it. -/
theorem PerformedFor.continues (hperformed : w.PerformedFor call P) (hcontinues : w'.Continues w) :
    w'.PerformedFor call P := by
  obtain ⟨j, hhas, hcall, step, hstep, hP⟩ := hperformed
  obtain ⟨more, hhas'⟩ := hcontinues j hhas
  exact ⟨_, hhas', hcall, step, List.mem_append_left _ hstep, hP⟩

/-- A call that something was performed for was taken up. -/
theorem PerformedFor.took (hperformed : w.PerformedFor call P) : w.Took call := by
  obtain ⟨j, hhas, hcall, _⟩ := hperformed
  exact ⟨j, hhas, hcall⟩

/-- What was inserted stays inserted. -/
theorem Inserted.continues {store : Store} (hinserted : w.Inserted store id)
    (hcontinues : w'.Continues w) : w'.Inserted store id := by
  cases store with
  | start => exact hinserted
  | send h =>
    cases h with
    | layer1 =>
      have hemplaced : w.Emplaced id := hinserted
      exact PerformedFor.continues hemplaced hcontinues
    | layer2 => exact hinserted
  | ack h =>
    cases h with
    | layer1 =>
      have hput : w.AckPut id := hinserted
      exact Performed.continues hput hcontinues
    | layer2 => exact hinserted
  | reply h =>
    cases h with
    | layer1 =>
      have hreplied : w.Replied id := hinserted
      exact PerformedFor.continues hreplied hcontinues
    | layer2 => exact hinserted

/-- What was written stays written. -/
theorem Written.continues {store : Store} (hwritten : w.Written store id)
    (hcontinues : w'.Continues w) : w'.Written store id := by
  cases store with
  | start => exact hwritten
  | send h =>
    cases h with
    | layer1 =>
      have hsaved : w.PerformedFor (.handleStartTxEvent id) (Op.SavesAt (.send .layer1) id) := hwritten
      exact PerformedFor.continues hsaved hcontinues
    | layer2 => exact hwritten
  | ack h =>
    cases h with
    | layer1 =>
      have hput : w.AckPut id := hwritten
      exact Performed.continues hput hcontinues
    | layer2 => exact hwritten
  | reply h =>
    cases h with
    | layer1 =>
      have hreplied : w.Replied id := hwritten
      exact PerformedFor.continues hreplied hcontinues
    | layer2 => exact hwritten

/-- What was inserted was written before. -/
theorem Inserted.written {store : Store} (hinserted : w.Inserted store id) : w.Written store id := by
  cases store with
  | start => exact hinserted
  | send h =>
    cases h with
    | layer1 =>
      obtain ⟨j, hhas, hcall, step, hstep, e, hop⟩ := hinserted
      exact ⟨j, hhas, hcall, step, hstep, by rw [hop]; exact ⟨rfl, rfl⟩⟩
    | layer2 => exact hinserted
  | ack h | reply h => cases h <;> exact hinserted

end Work

/-- An entry that an operation leaves was there, or the operation saved it. -/
theorem AgentState.Acts.holds {a a' : AgentState} {o : Op} {r : o.Resp} (hacts : a.Acts o r a')
    {store : Store} {id : Text} (hholds : a'.Holds store id) : a.Holds store id ∨ o.SavesAt store id := by
  rcases hholds with hmap | hdb
  · obtain ⟨e, hget⟩ := Option.isSome_iff_exists.mp hmap
    rcases hacts.entry_cases hget with ⟨old, due, hold, -⟩ | rfl
    · exact Or.inl (Or.inl (Option.isSome_iff_exists.mpr ⟨old, hold⟩))
    · exact Or.inr ⟨rfl, rfl⟩
  · obtain ⟨value, hget⟩ := Option.isSome_iff_exists.mp hdb
    rcases hacts.value_cases hget with hold | rfl
    · exact Or.inl (Or.inr (Option.isSome_iff_exists.mpr ⟨value, hold⟩))
    · exact Or.inr rfl

/-- What was not in the database is in neither place once it is erased. -/
theorem AgentState.Acts.not_holds_of_erase {a a' : AgentState} {store : Store} {id : Text} {r : Unit}
    (hacts : a.Acts (.erase store id) r a') (hdb : a.db[store.keyPrefix ++ id]? = none) :
    ¬a'.Holds store id := by
  rw [hacts.erase_eq]
  rintro (hmap | hvalue)
  · rw [AgentState.setMap_maps_self, AgentState.getElem?_erased, if_pos rfl] at hmap
    cases hmap
  · rw [AgentState.setMap_db, hdb] at hvalue
    cases hvalue

section InTime

/-- The operation saves nothing that the call is to clear, or that came before it. -/
def Op.InTime (o : Op) : HandlerCall .layer1 → Prop
  | .handleSendTxEvent id => ¬o.SavesAt (.send .layer1) id
  | .handleSendAckdTxEvent id => ¬o.SavesAt (.send .layer1) id ∧ ¬o.SavesAt (.ack .layer1) id
  | _ => True

/-- A SendAcked event of a transfer that is still to be cleared from the send map comes after an
ack was saved. -/
def AgentState.Ripe (a : AgentState) : HandlerCall .layer1 → Prop
  | .handleSendAckdTxEvent id => a.Holds (.send .layer1) id → a.Holds (.ack .layer1) id
  | _ => True

/-- Each event is taken up once, and a SendAcked event not before the ack was saved. -/
structure Work.TakesInTime (w : Work .layer1 T) (call : HandlerCall .layer1) : Prop where
  once : call.IsEvent → ∀ j, w.Has j → j.call ≠ some call
  ripe : w.state.Ripe call

/-- The database works, the nodes return the records that were asked for, and an entry is saved
before the event that is to clear it is taken up. -/
structure Work.ActsInTime (w : Work .layer1 T) (step : Step) : Prop where
  stored : step.Stored
  own : step.Own
  early : ∀ j, w.Has j → ∀ call, j.call = some call → step.op.InTime call

variable [DecidableEq T]

/-- The next operation of a program is in time. -/
def Crew.NextInTime (c : Crew .layer1 T) (t : T) (answer : Answer) : AgentM Bool → Prop
  | .op o _ => ∀ after ∈ c.work.step t o answer, c.work.ActsInTime ⟨c.work.state, o, after.1⟩
  | .ret _ => True

/-- The step is in time, and the process is not started again. -/
def Crew.LabelInTime (c : Crew .layer1 T) : Crew.Label .layer1 T → Prop
  | .take _ call => c.work.TakesInTime call
  | .act t answer => ∀ p ∈ c.tasks t, c.NextInTime t answer p
  | .restart _ => False

/-- A run in which every step is in time. -/
def Crew.InTime (su : Setup) (c : Crew .layer1 T) : List (Crew.Label .layer1 T) → Prop
  | [] => True
  | label :: rest => c.LabelInTime label ∧ ∀ c' ∈ c.step su label, Crew.InTime su c' rest

end InTime

/-- What comes before a write. -/
theorem Staged.begins {call : HandlerCall .layer1} {steps : List Step} {o : Op} {store : Store} {id : Text}
    (hstaged : Staged su call steps o) (hputs : o.PutsAt store id) : Begins su call steps store id := by
  cases o with
  | dbPut key value =>
    obtain ⟨store', id', hkey, hbegins⟩ := hstaged
    have hputs : key = store.keyPrefix ++ id := hputs
    obtain ⟨rfl, rfl⟩ := Store.keyPrefix_append_inj (hputs.symm.trans hkey)
    exact hbegins
  | highResolution | http | dbDelete | dbScan | lock | unlock | entries | emplace | erase
  | setAckTimeout | terminate => exact hputs.elim

/-- A send entry is saved by its StartTx event, which saved nothing else before. -/
theorem Staged.saves_send {call : HandlerCall .layer1} {steps : List Step} {o : Op} {id : Text}
    (hstaged : Staged su call steps o) (hsaves : o.SavesAt (.send .layer1) id) :
    call = .handleStartTxEvent id ∧
      ∀ step ∈ steps, step.op.Remote ∨ step.op.PutsAt (.send .layer1) id := by
  cases o with
  | dbPut key value =>
    have hputs : Op.PutsAt (.send .layer1) id (.dbPut key value) := hsaves
    obtain ⟨hcall, hremote⟩ := Staged.begins hstaged hputs
    exact ⟨hcall, fun step hstep => Or.inl (hremote step hstep)⟩
  | emplace store key e =>
    obtain ⟨rfl, rfl⟩ := hsaves
    exact ⟨hstaged.2.1, hstaged.2.2.2⟩
  | highResolution | http | dbDelete | dbScan | lock | unlock | entries | erase | setAckTimeout
  | terminate => exact hsaves.elim

namespace Work

variable [DecidableEq T] {w w' : Work .layer1 T} {t : T} {o : Op} {r : o.Resp}
  {call call' : HandlerCall .layer1} {P : Op → Prop} {id : Text} {store : Store}

namespace Acts

/-- An operation takes no call up. -/
theorem took (hacts : Work.Acts t o w r w') (htook : w'.Took call) : w.Took call := by
  obtain ⟨j, hhas, hcall⟩ := htook
  rcases hacts.has_cases hhas with hhas | rfl
  · exact ⟨j, hhas, hcall⟩
  · exact ⟨w.job t, w.has_job t, hcall⟩

/-- What was performed after an operation was performed before, or by it. -/
theorem performed (hacts : Work.Acts t o w r w') (hperformed : w'.Performed P) : w.Performed P ∨ P o := by
  obtain ⟨j, hhas, step, hstep, hP⟩ := hperformed
  rcases hacts.mem_steps hhas hstep with ⟨j', hhas', hstep⟩ | rfl
  · exact Or.inl ⟨j', hhas', step, hstep, hP⟩
  · exact Or.inr hP

/-- What was performed for a call after an operation was performed before, or by it. -/
theorem performedFor (hacts : Work.Acts t o w r w') (hperformed : w'.PerformedFor call P) :
    w.PerformedFor call P ∨ (w.job t).call = some call ∧ P o := by
  obtain ⟨j, hhas, hcall, step, hstep, hP⟩ := hperformed
  rcases hacts.has_cases hhas with hhas | rfl
  · exact Or.inl ⟨j, hhas, hcall, step, hstep, hP⟩
  · rcases List.mem_append.mp hstep with hstep | hstep
    · exact Or.inl ⟨w.job t, w.has_job t, hcall, step, hstep, hP⟩
    · obtain rfl := List.mem_singleton.mp hstep
      exact Or.inr ⟨hcall, hP⟩

/-- The job of the thread, with its new step. -/
theorem has_self (hacts : Work.Acts t o w r w') :
    w'.Has ⟨(w.job t).call, (w.job t).steps ++ [⟨w.state, o, r⟩]⟩ :=
  hacts.job_self ▸ w'.has_job t

/-- An operation was performed once it is. -/
theorem performed_self (hacts : Work.Acts t o w r w') (hP : P o) : w'.Performed P :=
  ⟨_, hacts.has_self, _, List.mem_append_right _ List.mem_cons_self, hP⟩

/-- An operation was performed for the call of its thread once it is. -/
theorem performedFor_self (hacts : Work.Acts t o w r w') (hcall : (w.job t).call = some call) (hP : P o) :
    w'.PerformedFor call P :=
  ⟨_, hacts.has_self, hcall, _, List.mem_append_right _ List.mem_cons_self, hP⟩

end Acts

/-- A thread is to clear the send entry of the transfer. -/
def OwesSend (w : Work .layer1 T) (id : Text) : Prop := ∃ t, (w.job t).OwesSend id

/-- A thread is to clear the ack entry of the transfer. -/
def OwesAck (w : Work .layer1 T) (id : Text) : Prop := ∃ t, (w.job t).OwesAck id

/-- What holds of the stores and the jobs when every step was in time. -/
structure Tidy (su : Setup) (w : Work .layer1 T) : Prop where
  own : ∀ j, w.Has j → ∀ step ∈ j.steps, step.Own
  filed : ∀ (store : Store) (key : Text) (e : CrossTx), (w.state.maps store)[key]? = some e →
    e.FiledUnder su key
  sole : ∀ t call, (w.job t).call = some call → call.IsEvent →
    (∀ j ∈ w.past, j.call ≠ some call) ∧ ∀ t', (w.job t').call = some call → t' = t
  snapshots : ∀ j, w.Has j → ∀ store id, Snapshot su j.steps store id → w.Inserted store id
  maps : ∀ (store : Store) (id : Text), ((w.state.maps store)[id]?).isSome → w.Inserted store id
  values : ∀ (store : Store) (id : Text), (w.state.db[store.keyPrefix ++ id]?).isSome → w.Written store id
  acked : ∀ id, w.AckPut id → w.Took (.handleSendTxEvent id) ∨
    w.PerformedFor (.handleStartTxEvent id) (Op.PutsAt (.ack .layer1) id) ∨ w.Emplaced id
  conflict : ∀ id, w.state.Holds (.send .layer1) id → w.AckPut id → w.OwesSend id
  sealed : ∀ id, w.state.Holds (.send .layer1) id → w.Took (.handleSendAckdTxEvent id) → w.OwesSend id
  answered : ∀ id, w.state.Holds (.ack .layer1) id → w.Replied id → w.OwesAck id
  deletedSend : ∀ t id, (w.job t).Deleted (.send .layer1) id →
    w.state.db[(Store.send .layer1).keyPrefix ++ id]? = none ∧
      (w.Took (.handleSendTxEvent id) ∨ w.Emplaced id)
  deletedAck : ∀ t id, (w.job t).call = some (.handleSendAckdTxEvent id) →
    (w.job t).Deleted (.ack .layer1) id → w.state.db[(Store.ack .layer1).keyPrefix ++ id]? = none
  sent : ∀ id, w.PerformedFor (.handleSendTxEvent id) (· = .erase (.send .layer1) id) →
    ¬w.state.Holds (.send .layer1) id
  got : ∀ id, w.PerformedFor (.handleSendAckdTxEvent id) (· = .erase (.ack .layer1) id) →
    ¬w.state.Holds (.ack .layer1) id

omit [DecidableEq T] in
/-- What was performed for the event of a thread, the thread performed. -/
theorem Tidy.performedFor_job (hw : w.Tidy su) (hcall : (w.job t).call = some call) (hevent : call.IsEvent)
    (hperformed : w.PerformedFor call P) : ∃ step ∈ (w.job t).steps, P step.op := by
  obtain ⟨j, hhas, hcall', hsteps⟩ := hperformed
  obtain ⟨hpast, hjobs⟩ := hw.sole t call hcall hevent
  rcases hhas with hmem | ⟨t', rfl⟩
  · exact absurd hcall' (hpast j hmem)
  · rwa [← hjobs t' hcall']

omit [DecidableEq T] in
/-- What a map or the database holds was saved at its stage. -/
theorem Tidy.written (hw : w.Tidy su) (hholds : w.state.Holds store id) : w.Written store id := by
  rcases hholds with hmap | hdb
  · exact (hw.maps store id hmap).written
  · exact hw.values store id hdb

/-- A thread makes an operation of its call, in time. -/
structure Moves (su : Setup) (t : T) (call : HandlerCall .layer1) (o : Op) (w : Work .layer1 T)
    (r : o.Resp) (w' : Work .layer1 T) : Prop where
  tidy : w.Tidy su
  acts : Work.Acts t o w r w'
  called : (w.job t).call = some call
  staged : Staged su call (w.job t).steps o
  inTime : w.ActsInTime ⟨w.state, o, r⟩

/-- A send entry is saved before any ack, and by nobody else. -/
theorem Moves.save_send (hmoves : Moves su t call o w r w') (hsaves : o.SavesAt (.send .layer1) id) :
    ¬w.Took (.handleSendTxEvent id) ∧ ¬w.Took (.handleSendAckdTxEvent id) ∧ ¬w.Emplaced id ∧
      ¬w.AckPut id := by
  obtain ⟨rfl, hsteps⟩ := Staged.saves_send hmoves.staged hsaves
  have hsend : ¬w.Took (.handleSendTxEvent id) := by
    rintro ⟨j, hhas, hcall⟩
    exact hmoves.inTime.early j hhas _ hcall hsaves
  have hack : ¬w.Took (.handleSendAckdTxEvent id) := by
    rintro ⟨j, hhas, hcall⟩
    exact (hmoves.inTime.early j hhas _ hcall).1 hsaves
  have hemplaced : ¬w.Emplaced id := by
    intro hemplaced
    obtain ⟨step, hstep, e, hop⟩ := hmoves.tidy.performedFor_job hmoves.called trivial hemplaced
    have hdone := hsteps step hstep
    rw [hop] at hdone
    rcases hdone with hremote | hputs
    · exact hremote
    · exact hputs
  refine ⟨hsend, hack, hemplaced, fun hput => ?_⟩
  rcases hmoves.tidy.acked id hput with htook | hstart | hemplaced'
  · exact hsend htook
  · obtain ⟨step, hstep, hputs⟩ := hmoves.tidy.performedFor_job hmoves.called trivial hstart
    rcases hsteps step hstep with hremote | hputs'
    · exact hputs.savesAt.not_remote hremote
    · exact nomatch (hputs.unique hputs').1
  · exact hemplaced hemplaced'

/-- An ack is saved before the SendAcked event is taken up. -/
theorem Moves.save_ack (hmoves : Moves su t call o w r w') (hsaves : o.SavesAt (.ack .layer1) id) :
    ¬w.Took (.handleSendAckdTxEvent id) := by
  rintro ⟨j, hhas, hcall⟩
  exact (hmoves.inTime.early j hhas _ hcall).2 hsaves

namespace Moves

variable (hmoves : Moves su t call o w r w')
include hmoves

/-- Every record that was read is still the one that was asked for. -/
theorem own : ∀ j, w'.Has j → ∀ step ∈ j.steps, step.Own := by
  intro j hhas step hstep
  rcases hmoves.acts.mem_steps hhas hstep with ⟨j', hhas', hstep⟩ | rfl
  · exact hmoves.tidy.own j' hhas' step hstep
  · exact hmoves.inTime.own

/-- Every entry is still filed under its id. -/
theorem filed : ∀ (store : Store) (key : Text) (e : CrossTx), (w'.state.maps store)[key]? = some e →
    e.FiledUnder su key := by
  intro store key e hget
  rcases hmoves.acts.state.entry_cases hget with ⟨old, due, hold, rfl⟩ | rfl
  · obtain ⟨hid, hinfo⟩ := hmoves.tidy.filed store key old hold
    exact ⟨hid, hinfo⟩
  · exact hmoves.staged.1

/-- Each event is still handled by one job only. -/
theorem sole : ∀ t' call', (w'.job t').call = some call' → call'.IsEvent →
    (∀ j ∈ w'.past, j.call ≠ some call') ∧ ∀ t'', (w'.job t'').call = some call' → t'' = t' := by
  have hcalls : ∀ t', (w'.job t').call = (w.job t').call := by
    intro t'
    by_cases heq : t' = t
    · rw [heq, hmoves.acts.job_self]
    · rw [hmoves.acts.job_of_ne heq]
  intro t' call' hcall hevent
  rw [hcalls] at hcall
  obtain ⟨hpast, hjobs⟩ := hmoves.tidy.sole t' call' hcall hevent
  rw [hmoves.acts.past]
  exact ⟨hpast, fun t'' hcall' => hjobs t'' (hcalls t'' ▸ hcall')⟩

/-- Whatever a pass found was inserted. -/
theorem snapshots : ∀ j, w'.Has j → ∀ store id, Snapshot su j.steps store id → w'.Inserted store id := by
  rintro j hhas store id ⟨before, infos, hmem, ⟨key, e⟩, hentry, hid⟩
  refine Inserted.continues ?_ hmoves.acts.continues
  rcases hmoves.acts.mem_steps hhas hmem with ⟨j', hhas', hmem'⟩ | hnew
  · exact hmoves.tidy.snapshots j' hhas' store id ⟨before, infos, hmem', (key, e), hentry, hid⟩
  · obtain ⟨rfl, rfl, hresp⟩ := Step.mk.inj hnew
    cases hresp
    rw [hmoves.acts.state.entries_eq.2] at hentry
    have hget := ExtTreeMap.mem_toList_iff_getElem?_eq_some.mp hentry
    obtain ⟨hfiled, hinfo⟩ := hmoves.tidy.filed store key e hget
    obtain rfl : key = id := by
      rcases hid with hid | hid
      · exact hfiled.symm.trans hid
      · exact hinfo.symm.trans hid
    exact hmoves.tidy.maps store key (Option.isSome_iff_exists.mpr ⟨e, hget⟩)

/-- What a pass found in a map was inserted there. -/
theorem found (hsnapshot : Snapshot su (w.job t).steps store id) : w.Inserted store id :=
  hmoves.tidy.snapshots _ (w.has_job t) store id hsnapshot

/-- What is written to the database was written. -/
theorem put (hputs : o.PutsAt store id) : w'.Written store id := by
  have hbegins := Staged.begins hmoves.staged hputs
  cases store with
  | start => exact hbegins
  | send h =>
    cases h with
    | layer1 =>
      obtain ⟨rfl, _⟩ := hbegins
      exact hmoves.acts.performedFor_self hmoves.called hputs.savesAt
    | layer2 => exact hbegins
  | ack h =>
    cases h with
    | layer1 => exact hmoves.acts.performed_self hputs
    | layer2 => exact hbegins
  | reply h =>
    cases h with
    | layer1 =>
      rcases hbegins with rfl | ⟨-, hsnapshot⟩
      · exact hmoves.acts.performedFor_self hmoves.called hputs
      · have hreplied : w.Replied id := hmoves.found hsnapshot
        exact PerformedFor.continues hreplied hmoves.acts.continues
    | layer2 => exact hbegins

/-- Whatever is in a map was inserted. -/
theorem maps : ∀ (store : Store) (id : Text), ((w'.state.maps store)[id]?).isSome → w'.Inserted store id := by
  intro store id hsome
  obtain ⟨e, hget⟩ := Option.isSome_iff_exists.mp hsome
  rcases hmoves.acts.state.entry_cases hget with ⟨old, due, hold, -⟩ | rfl
  · exact (hmoves.tidy.maps store id (Option.isSome_iff_exists.mpr ⟨old, hold⟩)).continues
      hmoves.acts.continues
  · have hcontinues := hmoves.acts.continues
    have hbegun := hmoves.staged.2
    cases store with
    | start => exact hbegun
    | send h =>
      cases h with
      | layer1 =>
        obtain ⟨rfl, _⟩ := hbegun
        have hemplaced : w'.Emplaced id := hmoves.acts.performedFor_self hmoves.called ⟨e, rfl⟩
        exact hemplaced
      | layer2 => exact hbegun
    | ack h =>
      cases h with
      | layer1 =>
        obtain ⟨step, hstep, hputs⟩ := hbegun
        have hput : w.AckPut id := ⟨_, w.has_job t, step, hstep, hputs⟩
        exact Performed.continues hput hcontinues
      | layer2 => exact hbegun
    | reply h =>
      cases h with
      | layer1 =>
        obtain ⟨⟨step, hstep, hputs⟩, rfl | ⟨-, hsnapshot⟩⟩ := hbegun
        · have hreplied : w.Replied id := ⟨_, w.has_job t, hmoves.called, step, hstep, hputs⟩
          exact PerformedFor.continues hreplied hcontinues
        · have hreplied : w.Replied id := hmoves.found hsnapshot
          exact PerformedFor.continues hreplied hcontinues
      | layer2 => exact hbegun

/-- Whatever is in the database was written. -/
theorem values : ∀ (store : Store) (id : Text), (w'.state.db[store.keyPrefix ++ id]?).isSome →
    w'.Written store id := by
  intro store id hsome
  obtain ⟨value, hget⟩ := Option.isSome_iff_exists.mp hsome
  rcases hmoves.acts.state.value_cases hget with hold | rfl
  · exact (hmoves.tidy.values store id (Option.isSome_iff_exists.mpr ⟨value, hold⟩)).continues
      hmoves.acts.continues
  · exact hmoves.put rfl

/-- Whatever was acknowledged had its `SendTx` event, or its start event wrote the ack or kept the transfer.
-/
theorem acked : ∀ id, w'.AckPut id → w'.Took (.handleSendTxEvent id) ∨
    w'.PerformedFor (.handleStartTxEvent id) (Op.PutsAt (.ack .layer1) id) ∨ w'.Emplaced id := by
  intro id hput
  have hcontinues := hmoves.acts.continues
  have hold : w.AckPut id → w'.Took (.handleSendTxEvent id) ∨
      w'.PerformedFor (.handleStartTxEvent id) (Op.PutsAt (.ack .layer1) id) ∨ w'.Emplaced id := by
    intro hput
    rcases hmoves.tidy.acked id hput with htook | hstart | hemplaced
    · exact Or.inl (htook.continues hcontinues)
    · exact Or.inr (Or.inl (hstart.continues hcontinues))
    · exact Or.inr (Or.inr (hemplaced.continues hcontinues))
  rcases hmoves.acts.performed hput with hput | hputs
  · exact hold hput
  · rcases Staged.begins hmoves.staged hputs with rfl | ⟨rfl, _⟩ | ⟨-, hsnapshot⟩ | ⟨-, hsnapshot⟩
    · exact Or.inl ⟨_, hmoves.acts.has_self, hmoves.called⟩
    · exact Or.inr (Or.inl (hmoves.acts.performedFor_self hmoves.called hputs))
    · have hemplaced : w.Emplaced id := hmoves.found hsnapshot
      exact Or.inr (Or.inr (hemplaced.continues hcontinues))
    · exact hold (hmoves.found hsnapshot)

/-- What was deleted last, and is erased now, is in neither place. -/
theorem not_holds_of_erase_send (hop : o = .erase (.send .layer1) id) :
    ¬w'.state.Holds (.send .layer1) id := by
  subst hop
  obtain ⟨-, hdeleted⟩ := hmoves.staged
  exact hmoves.acts.state.not_holds_of_erase (hmoves.tidy.deletedSend t id hdeleted).1

/-- An ack entry that its event erases is nowhere kept. -/
theorem not_holds_of_erase_ack (hcall : call = .handleSendAckdTxEvent id)
    (hop : o = .erase (.ack .layer1) id) : ¬w'.state.Holds (.ack .layer1) id := by
  subst hop hcall
  obtain ⟨-, hdeleted⟩ := hmoves.staged
  exact hmoves.acts.state.not_holds_of_erase (hmoves.tidy.deletedAck t id hmoves.called hdeleted)

/-- What a thread owes it still owes, unless it has just paid. -/
theorem owesSend (howes : w.OwesSend id) (hholds : w'.state.Holds (.send .layer1) id) : w'.OwesSend id := by
  obtain ⟨t', hcall, hsteps⟩ := howes
  refine ⟨t', ?_⟩
  by_cases heq : t' = t
  · subst heq
    rw [hmoves.acts.job_self]
    refine ⟨hcall, owing_append.mpr (Or.inr ⟨hsteps, fun step hstep hop => ?_⟩)⟩
    obtain rfl := List.mem_singleton.mp hstep
    exact hmoves.not_holds_of_erase_send hop hholds
  · rw [hmoves.acts.job_of_ne heq]
    exact ⟨hcall, hsteps⟩

/-- A reply that owes the clear of an ack still owes it. -/
theorem owesAck (howes : w.OwesAck id) (hholds : w'.state.Holds (.ack .layer1) id) : w'.OwesAck id := by
  obtain ⟨t', ⟨crossTxid, hcall⟩, hsteps⟩ := howes
  refine ⟨t', ?_⟩
  by_cases heq : t' = t
  · subst heq
    rw [hmoves.acts.job_self]
    refine ⟨⟨crossTxid, hcall⟩, owing_append.mpr (Or.inr ⟨hsteps, fun step hstep hop => ?_⟩)⟩
    obtain rfl := List.mem_singleton.mp hstep
    have hop : o = .erase (.ack .layer1) id := hop
    obtain rfl : call = .handleSendAckdTxEvent crossTxid :=
      Option.some_inj.mp (hmoves.called.symm.trans hcall)
    have hclears := hmoves.staged
    rw [hop] at hclears
    obtain rfl := hclears.1 crossTxid rfl
    exact hmoves.not_holds_of_erase_ack rfl hop hholds
  · rw [hmoves.acts.job_of_ne heq]
    exact ⟨⟨crossTxid, hcall⟩, hsteps⟩

/-- A send entry that outlives its ack is still to be cleared. -/
theorem conflict : ∀ id, w'.state.Holds (.send .layer1) id → w'.AckPut id → w'.OwesSend id := by
  intro id hholds hput
  have hput := hmoves.acts.performed hput
  rcases hmoves.acts.state.holds hholds with hold | hsaves
  · -- the entry was there before
    rcases hput with hput | hputs
    · exact hmoves.owesSend (hmoves.tidy.conflict id hold hput) hholds
    have howes : call = .handleSendTxEvent id ∨ call = .sendTxTimeOut → w'.OwesSend id := by
      intro hcall
      refine ⟨t, ?_⟩
      rw [hmoves.acts.job_self]
      refine ⟨?_, owing_append.mpr (Or.inl (owing_singleton.mpr hputs))⟩
      rcases hcall with rfl | rfl
      · exact Or.inl ⟨id, hmoves.called⟩
      · exact Or.inr hmoves.called
    rcases Staged.begins hmoves.staged hputs with rfl | ⟨rfl, hremote⟩ | ⟨rfl, _⟩ | ⟨-, hsnapshot⟩
    · exact howes (Or.inl rfl)
    · -- a StartTx event that saves an ack has saved nothing before
      have hwritten : w.PerformedFor (.handleStartTxEvent id) (Op.SavesAt (.send .layer1) id) :=
        hmoves.tidy.written hold
      obtain ⟨step, hstep, hsaves⟩ := hmoves.tidy.performedFor_job hmoves.called trivial hwritten
      exact absurd (hremote step hstep) hsaves.not_remote
    · exact howes (Or.inr rfl)
    · exact hmoves.owesSend (hmoves.tidy.conflict id hold (hmoves.found hsnapshot)) hholds
  · -- the entry is saved now, when there is no ack yet
    obtain ⟨-, -, -, hnone⟩ := hmoves.save_send hsaves
    rcases hput with hput | hputs
    · exact absurd hput hnone
    · cases o with
      | dbPut key value =>
        have hkey : key = (Store.send .layer1).keyPrefix ++ id := hsaves
        exact nomatch (Store.keyPrefix_append_inj (hkey.symm.trans hputs)).1
      | highResolution | http | dbDelete | dbScan | lock | unlock | entries | emplace | erase
      | setAckTimeout | terminate => exact hputs.elim

/-- A send entry that outlives the ack event is still to be cleared. -/
theorem sealed : ∀ id, w'.state.Holds (.send .layer1) id → w'.Took (.handleSendAckdTxEvent id) →
    w'.OwesSend id := by
  intro id hholds htook
  have htook := hmoves.acts.took htook
  rcases hmoves.acts.state.holds hholds with hold | hsaves
  · exact hmoves.owesSend (hmoves.tidy.sealed id hold htook) hholds
  · exact absurd htook (hmoves.save_send hsaves).2.1

/-- An ack entry that outlives its reply is still to be cleared. -/
theorem answered : ∀ id, w'.state.Holds (.ack .layer1) id → w'.Replied id → w'.OwesAck id := by
  intro id hholds hreplied
  rcases hmoves.acts.performedFor hreplied with hreplied | ⟨hcall, hputs⟩
  · rcases hmoves.acts.state.holds hholds with hold | hsaves
    · exact hmoves.owesAck (hmoves.tidy.answered id hold hreplied) hholds
    · exact absurd hreplied.took (hmoves.save_ack hsaves)
  · refine ⟨t, ?_⟩
    rw [hmoves.acts.job_self]
    exact ⟨⟨id, hcall⟩, owing_append.mpr (Or.inl (owing_singleton.mpr hputs))⟩

/-- A value stays away unless it is written. -/
theorem db_none (hnone : w.state.db[store.keyPrefix ++ id]? = none) (hsaves : ¬o.SavesAt store id) :
    w'.state.db[store.keyPrefix ++ id]? = none := by
  cases hget : w'.state.db[store.keyPrefix ++ id]? with
  | none => rfl
  | some value =>
    rcases hmoves.acts.state.value_cases hget with hold | rfl
    · rw [hnone] at hold
      cases hold
    · exact absurd rfl hsaves

/-- A job whose last operation is a delete has just made it. -/
theorem deleted_self (hdeleted : (w'.job t).Deleted store id) : o = .dbDelete (store.keyPrefix ++ id) := by
  obtain ⟨done, before, ok, hsteps⟩ := hdeleted
  rw [hmoves.acts.job_self] at hsteps
  obtain ⟨-, hstep⟩ := List.append_inj' hsteps rfl
  obtain ⟨-, hop, -⟩ := Step.mk.inj (List.cons.inj hstep).1
  exact hop

/-- A deleted value is not in the database. -/
theorem db_none_of_delete (hop : o = .dbDelete (store.keyPrefix ++ id)) :
    w'.state.db[store.keyPrefix ++ id]? = none := by
  subst hop
  have hstored : r = true := hmoves.inTime.stored
  rw [hmoves.acts.state.dbDelete_eq, if_pos hstored]
  exact AgentState.getElem?_erased.trans (if_pos rfl)

/-- A send entry whose value was just deleted is not in the database, and had its event or was kept. -/
theorem deletedSend : ∀ t' id, (w'.job t').Deleted (.send .layer1) id →
    w'.state.db[(Store.send .layer1).keyPrefix ++ id]? = none ∧
      (w'.Took (.handleSendTxEvent id) ∨ w'.Emplaced id) := by
  intro t' id hdeleted
  have hcontinues := hmoves.acts.continues
  by_cases heq : t' = t
  · subst heq
    have hop := hmoves.deleted_self hdeleted
    refine ⟨hmoves.db_none_of_delete hop, ?_⟩
    have hclears := hmoves.staged
    rw [hop] at hclears
    obtain ⟨store', id', hkey, hclears⟩ := hclears
    obtain ⟨rfl, rfl⟩ := Store.keyPrefix_append_inj hkey
    rcases hclears with rfl | ⟨-, hsnapshot⟩
    · exact Or.inl ⟨_, hmoves.acts.has_self, hmoves.called⟩
    · have hemplaced : w.Emplaced id := hmoves.found hsnapshot
      exact Or.inr (hemplaced.continues hcontinues)
  · rw [hmoves.acts.job_of_ne heq] at hdeleted
    obtain ⟨hnone, hclosing⟩ := hmoves.tidy.deletedSend t' id hdeleted
    refine ⟨hmoves.db_none hnone fun hsaves => ?_, ?_⟩
    · obtain ⟨hsend, -, hemplaced, -⟩ := hmoves.save_send hsaves
      exact hclosing.elim hsend hemplaced
    · rcases hclosing with htook | hemplaced
      · exact Or.inl (htook.continues hcontinues)
      · exact Or.inr (hemplaced.continues hcontinues)

/-- An ack entry whose value was just deleted is not in the database. -/
theorem deletedAck : ∀ t' id, (w'.job t').call = some (.handleSendAckdTxEvent id) →
    (w'.job t').Deleted (.ack .layer1) id →
    w'.state.db[(Store.ack .layer1).keyPrefix ++ id]? = none := by
  intro t' id hcall hdeleted
  by_cases heq : t' = t
  · subst heq
    exact hmoves.db_none_of_delete (hmoves.deleted_self hdeleted)
  · rw [hmoves.acts.job_of_ne heq] at hcall hdeleted
    refine hmoves.db_none (hmoves.tidy.deletedAck t' id hcall hdeleted) fun hsaves => ?_
    exact hmoves.save_ack hsaves ⟨_, w.has_job t', hcall⟩

/-- A send entry that its event erased is nowhere kept. -/
theorem sent : ∀ id, w'.PerformedFor (.handleSendTxEvent id) (· = .erase (.send .layer1) id) →
    ¬w'.state.Holds (.send .layer1) id := by
  intro id hperformed hholds
  rcases hmoves.acts.performedFor hperformed with hperformed | ⟨-, hop⟩
  · rcases hmoves.acts.state.holds hholds with hold | hsaves
    · exact hmoves.tidy.sent id hperformed hold
    · exact (hmoves.save_send hsaves).1 hperformed.took
  · exact hmoves.not_holds_of_erase_send hop hholds

/-- An ack entry that its event erased is nowhere kept. -/
theorem got : ∀ id, w'.PerformedFor (.handleSendAckdTxEvent id) (· = .erase (.ack .layer1) id) →
    ¬w'.state.Holds (.ack .layer1) id := by
  intro id hperformed hholds
  rcases hmoves.acts.performedFor hperformed with hperformed | ⟨hcall, hop⟩
  · rcases hmoves.acts.state.holds hholds with hold | hsaves
    · exact hmoves.tidy.got id hperformed hold
    · exact hmoves.save_ack hsaves hperformed.took
  · obtain rfl := Option.some_inj.mp (hmoves.called.symm.trans hcall)
    exact hmoves.not_holds_of_erase_ack rfl hop hholds

/-- An operation in time keeps what holds of the stores and the jobs. -/
theorem tidy' : w'.Tidy su where
  own := hmoves.own
  filed := hmoves.filed
  sole := hmoves.sole
  snapshots := hmoves.snapshots
  maps := hmoves.maps
  values := hmoves.values
  acked := hmoves.acked
  conflict := hmoves.conflict
  sealed := hmoves.sealed
  answered := hmoves.answered
  deletedSend := hmoves.deletedSend
  deletedAck := hmoves.deletedAck
  sent := hmoves.sent
  got := hmoves.got

end Moves

section Take

/-- Taking a call up performs nothing. -/
theorem performed_take {call : Option (HandlerCall .layer1)} (hperformed : (w.take t call).Performed P) :
    w.Performed P := by
  obtain ⟨j, hhas, step, hstep, hP⟩ := hperformed
  rcases has_take hhas with hhas | rfl
  · exact ⟨j, hhas, step, hstep, hP⟩
  · exact absurd hstep List.not_mem_nil

/-- Taking a call up performs nothing for any call. -/
theorem performedFor_take {call' : Option (HandlerCall .layer1)}
    (hperformed : (w.take t call').PerformedFor call P) : w.PerformedFor call P := by
  obtain ⟨j, hhas, hcall, step, hstep, hP⟩ := hperformed
  rcases has_take hhas with hhas | rfl
  · exact ⟨j, hhas, hcall, step, hstep, hP⟩
  · exact absurd hstep List.not_mem_nil

/-- What was taken up was taken up before, or is the call. -/
theorem took_take (htook : (w.take t (some call')).Took call) : w.Took call ∨ call = call' := by
  obtain ⟨j, hhas, hcall⟩ := htook
  rcases has_take hhas with hhas | rfl
  · exact Or.inl ⟨j, hhas, hcall⟩
  · exact Or.inr (Option.some_inj.mp hcall).symm

/-- An event that is taken up for the first time is taken up by one thread. -/
theorem sole_take (hw : w.Tidy su) (honce : call.IsEvent → ∀ j, w.Has j → j.call ≠ some call) :
    ∀ t' call', ((w.take t (some call)).job t').call = some call' → call'.IsEvent →
      (∀ j ∈ (w.take t (some call)).past, j.call ≠ some call') ∧
        ∀ t'', ((w.take t (some call)).job t'').call = some call' → t'' = t' := by
  intro t' call' hcall hevent
  by_cases heq : t' = t
  · subst heq
    rw [take_job_self] at hcall
    cases hcall
    refine ⟨fun j hmem => ?_, fun t'' hcall' => ?_⟩
    · rcases List.mem_cons.mp hmem with rfl | hmem
      · exact honce hevent _ (w.has_job t')
      · exact honce hevent j (Or.inl hmem)
    · by_contra hne
      rw [take_job_of_ne _ _ hne] at hcall'
      exact honce hevent _ (w.has_job t'') hcall'
  · rw [take_job_of_ne _ _ heq] at hcall
    obtain ⟨hpast, hjobs⟩ := hw.sole t' call' hcall hevent
    refine ⟨fun j hmem => ?_, fun t'' hcall' => ?_⟩
    · rcases List.mem_cons.mp hmem with rfl | hmem
      · exact fun hcall' => heq (hjobs t hcall').symm
      · exact hpast j hmem
    · by_cases heq' : t'' = t
      · subst heq'
        rw [take_job_self] at hcall'
        cases hcall'
        exact absurd hcall (honce hevent _ (w.has_job t'))
      · rw [take_job_of_ne _ _ heq'] at hcall'
        exact hjobs t'' hcall'

/-- What is owed is owed by another thread than the one that takes up a call. -/
theorem OwesSend.take {call' : Option (HandlerCall .layer1)} (howes : w.OwesSend id)
    (hidle : ¬(w.job t).OwesSend id) : (w.take t call').OwesSend id := by
  obtain ⟨t', howes⟩ := howes
  refine ⟨t', ?_⟩
  rwa [take_job_of_ne]
  rintro rfl
  exact hidle howes

/-- A clear that is owed is still owed when an idle thread takes a call up. -/
theorem OwesAck.take {call' : Option (HandlerCall .layer1)} (howes : w.OwesAck id)
    (hidle : ¬(w.job t).OwesAck id) : (w.take t call').OwesAck id := by
  obtain ⟨t', howes⟩ := howes
  refine ⟨t', ?_⟩
  rwa [take_job_of_ne]
  rintro rfl
  exact hidle howes

/-- A job that deleted something is not the one that is taken up. -/
theorem deleted_take {call' : Option (HandlerCall .layer1)} {t' : T}
    (hdeleted : ((w.take t call').job t').Deleted store id) : (w.take t call').job t' = w.job t' := by
  refine take_job_of_ne _ _ ?_
  rintro rfl
  obtain ⟨done, before, ok, hsteps⟩ := hdeleted
  rw [take_job_self] at hsteps
  exact List.cons_ne_nil _ _ (List.append_eq_nil_iff.mp hsteps.symm).2

/-- A call that is taken up in time, by a thread that owes nothing. -/
theorem Tidy.take (hw : w.Tidy su) (htime : w.TakesInTime call) (hsend : ∀ id, ¬(w.job t).OwesSend id)
    (hack : ∀ id, ¬(w.job t).OwesAck id) : (w.take t (some call)).Tidy su := by
  have hcontinues := w.continues_take t (some call)
  refine ⟨?_, hw.filed, sole_take hw htime.once, ?_, ?_, ?_, ?_, ?_, ?_, ?_, ?_, ?_, ?_, ?_⟩
  · intro j hhas step hstep
    rcases has_take hhas with hhas | rfl
    · exact hw.own j hhas step hstep
    · exact absurd hstep List.not_mem_nil
  · intro j hhas store id hsnapshot
    rcases has_take hhas with hhas | rfl
    · exact (hw.snapshots j hhas store id hsnapshot).continues hcontinues
    · obtain ⟨_, _, hmem, _⟩ := hsnapshot
      exact absurd hmem List.not_mem_nil
  · exact fun store id hsome => (hw.maps store id hsome).continues hcontinues
  · exact fun store id hsome => (hw.values store id hsome).continues hcontinues
  · intro id hput
    rcases hw.acked id (performed_take hput) with htook | hstart | hemplaced
    · exact Or.inl (htook.continues hcontinues)
    · exact Or.inr (Or.inl (hstart.continues hcontinues))
    · exact Or.inr (Or.inr (hemplaced.continues hcontinues))
  · exact fun id hholds hput => (hw.conflict id hholds (performed_take hput)).take (hsend id)
  · intro id hholds htook
    refine OwesSend.take ?_ (hsend id)
    rcases took_take htook with htook | rfl
    · exact hw.sealed id hholds htook
    · exact hw.conflict id hholds (hw.written (htime.ripe hholds))
  · exact fun id hholds hreplied => (hw.answered id hholds (performedFor_take hreplied)).take (hack id)
  · intro t' id hdeleted
    rw [deleted_take hdeleted] at hdeleted
    obtain ⟨hnone, hclosing⟩ := hw.deletedSend t' id hdeleted
    refine ⟨hnone, ?_⟩
    rcases hclosing with htook | hemplaced
    · exact Or.inl (htook.continues hcontinues)
    · exact Or.inr (hemplaced.continues hcontinues)
  · intro t' id hcall hdeleted
    rw [deleted_take hdeleted] at hcall hdeleted
    exact hw.deletedAck t' id hcall hdeleted
  · exact fun id hperformed => hw.sent id (performedFor_take hperformed)
  · exact fun id hperformed => hw.got id (performedFor_take hperformed)

end Take

end Work

/-- A call that has ended owes nothing. -/
theorem Job.not_owesSend {j : Job .layer1} {id : Text} (hended : ∀ call, j.call = some call →
      ∃ b, Replays (call.run su) j.steps b []) (hown : ∀ step ∈ j.steps, step.Own) : ¬j.OwesSend id := by
  rintro ⟨⟨crossTxid, hcall⟩ | hcall, howes⟩
  · obtain ⟨b, hreplays⟩ := hended _ hcall
    exact handleSendTxEvent_owes_nothing hreplays hown howes
  · obtain ⟨b, hreplays⟩ := hended _ hcall
    exact sendTxTimeOut_owes_nothing hreplays hown howes

/-- A job that ended owes no clear of an ack. -/
theorem Job.not_owesAck {j : Job .layer1} {id : Text} (hended : ∀ call, j.call = some call →
      ∃ b, Replays (call.run su) j.steps b []) (hown : ∀ step ∈ j.steps, step.Own) : ¬j.OwesAck id := by
  rintro ⟨⟨crossTxid, hcall⟩, howes⟩
  obtain ⟨b, hreplays⟩ := hended _ hcall
  exact handleSendAckdTxEvent_owes_nothing hreplays hown howes

namespace Crew

variable [DecidableEq T] {c c' : Crew .layer1 T} {t : T}

/-- What holds of the threads when every step was in time. -/
structure Tidy (su : Setup) (c : Crew .layer1 T) : Prop where
  work : c.work.Tidy su
  running : ∀ t p, c.tasks t = some p → ∃ call, (c.work.job t).call = some call ∧
    UsesAfter (StagedIf su call) p (c.work.job t).steps ∧
    ∀ b more, Replays p more b [] → Replays (call.run su) ((c.work.job t).steps ++ more) b []
  ended : ∀ t, c.tasks t = none → ∀ call, (c.work.job t).call = some call →
    ∃ b, Replays (call.run su) (c.work.job t).steps b []

omit [DecidableEq T] in
/-- A crew that starts with empty stores is tidy. -/
theorem tidy_start : (Crew.start ∅ : Crew .layer1 T).Tidy su where
  work := by
    have hmap : ∀ (store : Store) (id : Text),
        ((Crew.start ∅ : Crew .layer1 T).work.state.maps store)[id]? = none :=
      fun _ _ => ExtTreeMap.getElem?_empty
    have hdb : ∀ key : Text, (Crew.start ∅ : Crew .layer1 T).work.state.db[key]? = none :=
      fun _ => ExtTreeMap.getElem?_empty
    have hholds : ∀ (store : Store) (id : Text), ¬(Crew.start ∅ : Crew .layer1 T).work.state.Holds store id := by
      intro store id hholds
      rw [AgentState.Holds, hmap, hdb] at hholds
      exact hholds.elim nofun nofun
    have hsteps : ∀ j, (Crew.start ∅ : Crew .layer1 T).work.Has j → j = ⟨none, []⟩ := by
      rintro j (hmem | ⟨t, rfl⟩)
      · cases hmem
      · rfl
    refine ⟨?_, ?_, ?_, ?_, ?_, ?_, ?_, ?_, ?_, ?_, ?_, ?_, ?_, ?_⟩
    · intro j hhas step hstep
      rw [hsteps j hhas] at hstep
      cases hstep
    · intro store key e hget
      rw [hmap] at hget
      cases hget
    · exact fun t call hcall => nomatch hcall
    · rintro j hhas store id ⟨before, infos, hmem, _⟩
      rw [hsteps j hhas] at hmem
      cases hmem
    · intro store id hsome
      rw [hmap] at hsome
      cases hsome
    · intro store id hsome
      rw [hdb] at hsome
      cases hsome
    · rintro id ⟨j, hhas, step, hstep, _⟩
      rw [hsteps j hhas] at hstep
      cases hstep
    · exact fun id hheld => absurd hheld (hholds _ id)
    · exact fun id hheld => absurd hheld (hholds _ id)
    · exact fun id hheld => absurd hheld (hholds _ id)
    · rintro t id ⟨done, before, ok, hdone⟩
      exact absurd (List.append_eq_nil_iff.mp hdone.symm).2 (List.cons_ne_nil _ _)
    · exact fun t id hcall => nomatch hcall
    · exact fun id _ => hholds _ id
    · exact fun id _ => hholds _ id
  running := fun t p hrunning => nomatch hrunning
  ended := fun t _ call hcall => nomatch hcall

omit [DecidableEq T] in
/-- A thread that is idle owes nothing. -/
theorem Tidy.idle (hc : c.Tidy su) (hidle : c.tasks t = none) (id : Text) :
    ¬(c.work.job t).OwesSend id ∧ ¬(c.work.job t).OwesAck id :=
  ⟨Job.not_owesSend (hc.ended t hidle) (hc.work.own _ (c.work.has_job t)),
    Job.not_owesAck (hc.ended t hidle) (hc.work.own _ (c.work.has_job t))⟩

/-- An idle thread takes up a call in time. -/
theorem Tidy.take (hc : c.Tidy su) {call : HandlerCall .layer1} (hidle : c.tasks t = none)
    (htime : c.work.TakesInTime call) :
    (⟨c.work.take t (some call), Function.update c.tasks t (some (call.run su))⟩ :
      Crew .layer1 T).Tidy su where
  work := hc.work.take htime (fun id => (hc.idle hidle id).1) fun id => (hc.idle hidle id).2
  running := by
    intro t' p hp
    rcases update_some_cases hp with ⟨rfl, rfl⟩ | ⟨hne, hp⟩
    · refine ⟨call, ?_, ?_, fun b more hreplays => ?_⟩
      · rw [Work.take_job_self]
      · rw [Work.take_job_self]
        exact run_stagedIf call
      · rw [Work.take_job_self]
        exact hreplays
    · rw [Work.take_job_of_ne _ _ hne]
      exact hc.running t' p hp
  ended := by
    intro t' hnone call' hcall
    have hne : t' ≠ t := by
      rintro rfl
      change Function.update c.tasks t' (some (call.run su)) t' = none at hnone
      rw [Function.update_self] at hnone
      cases hnone
    change Function.update c.tasks t (some (call.run su)) t' = none at hnone
    rw [Function.update_of_ne hne] at hnone
    rw [Work.take_job_of_ne _ _ hne] at hcall ⊢
    exact hc.ended t' hnone call' hcall

/-- The next operation of a thread, in time. -/
theorem Tidy.act (hc : c.Tidy su) {o : Op} {k : o.Resp → AgentM Bool} {r : o.Resp}
    {work : Work .layer1 T} (hrunning : c.tasks t = some (.op o k)) (hacts : Work.Acts t o c.work r work)
    (htime : c.work.ActsInTime ⟨c.work.state, o, r⟩) :
    (⟨work, Function.update c.tasks t (remaining (k r))⟩ : Crew .layer1 T).Tidy su := by
  obtain ⟨call, hcall, ⟨hstaged, hrest⟩, hreplays⟩ := hc.running t _ hrunning
  have hmoves : Work.Moves su t call o c.work r work :=
    ⟨hc.work, hacts, hcall, hstaged (hc.work.own _ (c.work.has_job t)), htime⟩
  have hnext : ∀ b more, Replays (k r) more b [] →
      Replays (call.run su) ((work.job t).steps ++ more) b [] := by
    intro b more hmore
    rw [hacts.job_self, List.append_assoc]
    exact hreplays b _ ⟨r, more, ⟨c.work.state, rfl⟩, hmore⟩
  have hself : (work.job t).call = some call := by rw [hacts.job_self, hcall]
  have hafter : UsesAfter (StagedIf su call) (k r) (work.job t).steps := by
    rw [hacts.job_self]
    exact hrest c.work.state r
  refine ⟨hmoves.tidy', ?_, ?_⟩
  · intro t' p hp
    by_cases heq : t' = t
    · subst heq
      change Function.update c.tasks t' (remaining (k r)) t' = some p at hp
      rw [Function.update_self] at hp
      cases hkr : k r with
      | ret b =>
        rw [hkr] at hp
        cases hp
      | op o' k' =>
        rw [hkr] at hp hafter hnext
        cases hp
        exact ⟨call, hself, hafter, hnext⟩
    · change Function.update c.tasks t (remaining (k r)) t' = some p at hp
      rw [Function.update_of_ne heq] at hp
      rw [hacts.job_of_ne heq]
      exact hc.running t' p hp
  · intro t' hnone call' hcall'
    by_cases heq : t' = t
    · subst heq
      change Function.update c.tasks t' (remaining (k r)) t' = none at hnone
      rw [Function.update_self] at hnone
      cases hkr : k r with
      | ret b =>
        rw [hkr] at hnext
        obtain rfl := Option.some_inj.mp (hself.symm.trans hcall')
        refine ⟨b, ?_⟩
        simpa using hnext b [] ⟨rfl, rfl⟩
      | op o' k' =>
        rw [hkr] at hnone
        cases hnone
    · change Function.update c.tasks t (remaining (k r)) t' = none at hnone
      rw [Function.update_of_ne heq] at hnone
      rw [hacts.job_of_ne heq] at hcall' ⊢
      exact hc.ended t' hnone call' hcall'

/-- In a run in time, every step keeps what holds of the threads. -/
theorem Tidy.run {labels : List (Label .layer1 T)} (hc : c.Tidy su) (htime : c.InTime su labels)
    (hrun : c.run su labels = some c') : c'.Tidy su := by
  induction labels generalizing c with
  | nil =>
    cases hrun
    exact hc
  | cons label labels ih =>
    rw [Crew.run, List.foldlM_cons] at hrun
    obtain ⟨u, hu, hrest⟩ := Option.bind_eq_some_iff.mp hrun
    obtain ⟨hlabel, hlater⟩ := htime
    refine ih ?_ (hlater u hu) hrest
    cases label with
    | take t call =>
      cases step_steps hu with
      | take _ _ hidle => exact hc.take hidle hlabel
    | act t answer =>
      simp only [Crew.step] at hu
      split at hu
      next o k hrunning =>
        obtain ⟨⟨r, work⟩, hwork, rfl⟩ := Option.map_eq_some_iff.mp hu
        have hnext : c.NextInTime t answer (.op o k) := hlabel _ hrunning
        exact hc.act hrunning (Work.step_acts hwork) (hnext _ hwork)
      next => cases hu
    | restart t => exact hlabel.elim

end Crew

/-- The stages of the layer-1 handler. -/
theorem Store.stage_cases {store : Store} (hstore : store.handle = .layer1) :
    store = .send .layer1 ∨ store = .ack .layer1 ∨ store = .reply .layer1 := by
  cases store with
  | start => cases hstore
  | send h => exact Or.inl (congrArg _ hstore)
  | ack h => exact Or.inr (Or.inl (congrArg _ hstore))
  | reply h => exact Or.inr (Or.inr (congrArg _ hstore))

/-- No transfer is at two stages of the layer-1 handler. -/
def AgentState.OneStage (a : AgentState) : Prop :=
  ∀ (id : Text) (store store' : Store), store.handle = .layer1 → store'.handle = .layer1 →
    a.Holds store id → a.Holds store' id → store = store'

/-- The call was handled with success. -/
def Work.Handled (su : Setup) (w : Work .layer1 T) (call : HandlerCall .layer1) : Prop :=
  ∃ j, w.Has j ∧ j.call = some call ∧ Replays (call.run su) j.steps true []

section Conclusion

variable [DecidableEq T] {c : Crew .layer1 T} {id : Text}

omit [DecidableEq T] in
/-- While no thread is at work, nothing is owed, and no transfer is at two stages. -/
theorem Crew.Tidy.oneStage (hc : c.Tidy su) (hidle : ∀ t, c.tasks t = none) : c.work.state.OneStage := by
  have hsend : ∀ id, ¬c.work.OwesSend id := fun id ⟨t, howes⟩ => (hc.idle (hidle t) id).1 howes
  have hack : ∀ id, ¬c.work.OwesAck id := fun id ⟨t, howes⟩ => (hc.idle (hidle t) id).2 howes
  have hreplied : ∀ id, c.work.state.Holds (.reply .layer1) id → c.work.Replied id :=
    fun id hholds => hc.work.written hholds
  have hput : ∀ id, c.work.state.Holds (.ack .layer1) id → c.work.AckPut id :=
    fun id hholds => hc.work.written hholds
  have hsendAck : ∀ id, c.work.state.Holds (.send .layer1) id → ¬c.work.state.Holds (.ack .layer1) id :=
    fun id hheld hheld' => hsend id (hc.work.conflict id hheld (hput id hheld'))
  have hsendReply : ∀ id, c.work.state.Holds (.send .layer1) id →
      ¬c.work.state.Holds (.reply .layer1) id :=
    fun id hheld hheld' => hsend id (hc.work.sealed id hheld (hreplied id hheld').took)
  have hackReply : ∀ id, c.work.state.Holds (.ack .layer1) id →
      ¬c.work.state.Holds (.reply .layer1) id :=
    fun id hheld hheld' => hack id (hc.work.answered id hheld (hreplied id hheld'))
  intro id store store' hstore hstore' hheld hheld'
  rcases Store.stage_cases hstore with rfl | rfl | rfl <;>
    rcases Store.stage_cases hstore' with rfl | rfl | rfl
  case inl.inl | inr.inl.inr.inl | inr.inr.inr.inr => rfl
  case inl.inr.inl => exact absurd hheld' (hsendAck id hheld)
  case inl.inr.inr => exact absurd hheld' (hsendReply id hheld)
  case inr.inl.inl => exact absurd hheld (hsendAck id hheld')
  case inr.inl.inr.inr => exact absurd hheld' (hackReply id hheld)
  case inr.inr.inl => exact absurd hheld (hsendReply id hheld')
  case inr.inr.inr.inl => exact absurd hheld (hackReply id hheld')

omit [DecidableEq T] in
/-- A handled `SendTx` event leaves no send entry. -/
theorem Crew.Tidy.not_holds_send (hc : c.Tidy su) (hhandled : c.work.Handled su (.handleSendTxEvent id)) :
    ¬c.work.state.Holds (.send .layer1) id := by
  obtain ⟨j, hhas, hcall, hreplays⟩ := hhandled
  exact hc.work.sent id ⟨j, hhas, hcall, handleSendTxEvent_erases hreplays⟩

omit [DecidableEq T] in
/-- A handled ack event leaves no ack entry. -/
theorem Crew.Tidy.not_holds_ack (hc : c.Tidy su)
    (hhandled : c.work.Handled su (.handleSendAckdTxEvent id)) :
    ¬c.work.state.Holds (.ack .layer1) id := by
  obtain ⟨j, hhas, hcall, hreplays⟩ := hhandled
  exact hc.work.got id ⟨j, hhas, hcall, handleSendAckdTxEvent_erases hreplays⟩

/-- In a run in time, no transfer is at two stages while no thread is at work, and none is ever
again at a stage whose event was handled. -/
theorem stages_never_reopen {labels : List (Crew.Label .layer1 T)}
    (hrun : (Crew.start ∅ : Crew .layer1 T).run su labels = some c)
    (htime : (Crew.start ∅ : Crew .layer1 T).InTime su labels) :
    ((∀ t, c.tasks t = none) → c.work.state.OneStage) ∧
      ∀ id, (c.work.Handled su (.handleSendTxEvent id) → ¬c.work.state.Holds (.send .layer1) id) ∧
        (c.work.Handled su (.handleSendAckdTxEvent id) → ¬c.work.state.Holds (.ack .layer1) id) := by
  have hc : c.Tidy su := Crew.Tidy.run Crew.tidy_start htime hrun
  exact ⟨hc.oneStage, fun id => ⟨hc.not_holds_send, hc.not_holds_ack⟩⟩

end Conclusion

deriving instance DecidableEq for HandlerCall

section Decidable

variable [DecidableEq T] {h : Handle}

instance (store : Store) (id : Text) (o : Op) : Decidable (o.SavesAt store id) :=
  match o with
  | .dbPut key _ => inferInstanceAs (Decidable (key = store.keyPrefix ++ id))
  | .emplace store' key _ => inferInstanceAs (Decidable (store' = store ∧ key = id))
  | .highResolution | .http _ _ | .dbDelete _ | .dbScan _ | .lock _ | .unlock _ | .entries _
  | .erase _ _ | .setAckTimeout _ _ _ | .terminate => inferInstanceAs (Decidable False)

instance (step : Step) : Decidable step.Own :=
  match step with
  | ⟨_, .http _ (.callContract _ input), r⟩ => inferInstanceAs (Decidable (∀ token ∈ readId r,
      input.function = (crossTxInfo1Input token).function → input = crossTxInfo1Input token))
  | ⟨_, .http _ .getLedger, _⟩ | ⟨_, .http _ (.submitTransaction _ _ _ _), _⟩
  | ⟨_, .http _ (.getTransactionHistory _), _⟩ | ⟨_, .highResolution, _⟩ | ⟨_, .dbPut _ _, _⟩
  | ⟨_, .dbDelete _, _⟩ | ⟨_, .dbScan _, _⟩ | ⟨_, .lock _, _⟩ | ⟨_, .unlock _, _⟩ | ⟨_, .entries _, _⟩
  | ⟨_, .emplace _ _ _, _⟩ | ⟨_, .erase _ _, _⟩ | ⟨_, .setAckTimeout _ _ _, _⟩
  | ⟨_, .terminate, _⟩ => inferInstanceAs (Decidable True)

instance (call : HandlerCall h) : Decidable call.IsEvent :=
  match call with
  | .handleStartTxEvent _ | .handleSendTxEvent _ | .handleSendAckdTxEvent _ =>
    inferInstanceAs (Decidable True)
  | .sendTxTimeOut | .sendAckTimeOut | .replyAckTimeOut | .handleConfirmSeqEvent _ | .startTxTimeOut =>
    inferInstanceAs (Decidable False)

instance (o : Op) (call : HandlerCall .layer1) : Decidable (o.InTime call) :=
  match call with
  | .handleSendTxEvent id => inferInstanceAs (Decidable ¬o.SavesAt (.send .layer1) id)
  | .handleSendAckdTxEvent id => inferInstanceAs
      (Decidable (¬o.SavesAt (.send .layer1) id ∧ ¬o.SavesAt (.ack .layer1) id))
  | .handleStartTxEvent _ | .sendTxTimeOut | .sendAckTimeOut | .replyAckTimeOut =>
    inferInstanceAs (Decidable True)

instance (a : AgentState) (store : Store) (id : Text) : Decidable (a.Holds store id) :=
  inferInstanceAs (Decidable (((a.maps store)[id]?).isSome ∨ (a.db[store.keyPrefix ++ id]?).isSome))

instance (a : AgentState) (call : HandlerCall .layer1) : Decidable (a.Ripe call) :=
  match call with
  | .handleSendAckdTxEvent id =>
    inferInstanceAs (Decidable (a.Holds (.send .layer1) id → a.Holds (.ack .layer1) id))
  | .handleStartTxEvent _ | .handleSendTxEvent _ | .sendTxTimeOut | .sendAckTimeOut
  | .replyAckTimeOut => inferInstanceAs (Decidable True)

omit [DecidableEq T] in
/-- What holds of all jobs holds of the past ones and of the present ones. -/
theorem Work.forall_has {w : Work h T} {P : Job h → Prop} :
    (∀ j, w.Has j → P j) ↔ (∀ j ∈ w.past, P j) ∧ ∀ t, P (w.job t) := by
  constructor
  · exact fun hall => ⟨fun j hmem => hall j (Or.inl hmem), fun t => hall _ (w.has_job t)⟩
  · rintro ⟨hpast, hjobs⟩ j (hmem | ⟨t, rfl⟩)
    · exact hpast j hmem
    · exact hjobs t

instance [Fintype T] (w : Work h T) (P : Job h → Prop) [DecidablePred P] :
    Decidable (∀ j, w.Has j → P j) := decidable_of_iff' _ Work.forall_has

instance [Fintype T] (w : Work .layer1 T) (call : HandlerCall .layer1) :
    Decidable (w.TakesInTime call) :=
  decidable_of_iff ((call.IsEvent → ∀ j, w.Has j → j.call ≠ some call) ∧ w.state.Ripe call)
    ⟨fun hand => ⟨hand.1, hand.2⟩, fun htime => ⟨htime.once, htime.ripe⟩⟩

instance [Fintype T] (w : Work .layer1 T) (step : Step) : Decidable (w.ActsInTime step) :=
  decidable_of_iff (step.Stored ∧ step.Own ∧ ∀ j, w.Has j → ∀ call ∈ j.call, step.op.InTime call)
    ⟨fun hand => ⟨hand.1, hand.2.1, hand.2.2⟩, fun htime => ⟨htime.stored, htime.own, htime.early⟩⟩

instance [Fintype T] (c : Crew .layer1 T) (t : T) (answer : Answer) (p : AgentM Bool) :
    Decidable (c.NextInTime t answer p) :=
  match p with
  | .op o _ => inferInstanceAs
      (Decidable (∀ after ∈ c.work.step t o answer, c.work.ActsInTime ⟨c.work.state, o, after.1⟩))
  | .ret _ => inferInstanceAs (Decidable True)

instance [Fintype T] (c : Crew .layer1 T) (label : Crew.Label .layer1 T) : Decidable (c.LabelInTime label) :=
  match label with
  | .take _ call => inferInstanceAs (Decidable (c.work.TakesInTime call))
  | .act t answer => inferInstanceAs (Decidable (∀ p ∈ c.tasks t, c.NextInTime t answer p))
  | .restart _ => inferInstanceAs (Decidable False)

instance decidableInTime [Fintype T] (su : Setup) : (c : Crew .layer1 T) →
    (labels : List (Crew.Label .layer1 T)) → Decidable (c.InTime su labels)
  | _, [] => inferInstanceAs (Decidable True)
  | c, label :: rest =>
    have : ∀ c', Decidable (Crew.InTime su c' rest) := fun c' => decidableInTime su c' rest
    inferInstanceAs (Decidable (c.LabelInTime label ∧ ∀ c' ∈ c.step su label, Crew.InTime su c' rest))

end Decidable

namespace Formats

/-- The thread takes up a call and makes its operations. -/
def threadOf (t : Bool) (call : HandlerCall .layer1) (answers : List Answer) :
    List (Crew.Label .layer1 Bool) :=
  .take t call :: answers.map (Crew.Label.act t)

/-- The reply to the SendAcked event of the transfer is accepted. -/
def repliedAnswers : List Answer := recordReplies sourceRecord ++
  [.reply (ledgerReply 120), .reply (submitReply "c"), .stored true, .time 7, .go, .stored true, .go]

/-- Each event of the transfer is taken up after the entry it clears was saved, while the other
thread goes through a map. -/
def orderlyStages : List (Crew.Label .layer1 Bool) :=
  threadOf false (.handleStartTxEvent (hexText settledId)) startAnswers ++
    threadOf false .sendTxTimeOut [.time 5, .go] ++
    threadOf true (.handleSendTxEvent (hexText settledId)) (sentAnswers.take 4) ++
    [.act false .go, .act false .go] ++ (sentAnswers.drop 4).map (Crew.Label.act true) ++
    threadOf true (.handleSendAckdTxEvent (hexText settledId)) repliedAnswers

/-- The SendTx event of the transfer is handled between the submission of its escrow and the save
of its entry. -/
def overtakenStages : List (Crew.Label .layer1 Bool) :=
  threadOf false (.handleStartTxEvent (hexText settledId)) (startAnswers.take 4) ++
    threadOf true (.handleSendTxEvent (hexText settledId)) sentAnswers ++
    (startAnswers.drop 4).map (Crew.Label.act false)

end Formats

/-- The call that a step takes up. -/
def Crew.Label.call? {h : Handle} : Crew.Label h T → Option (HandlerCall h)
  | .take _ call => some call
  | .act _ _ | .restart _ => none

/-- A transfer that goes through its stages in time is a reply at last. -/
theorem stages_never_reopen_orderly : ∃ c : Crew .layer1 Bool,
    (Crew.start ∅ : Crew .layer1 Bool).run Formats.system.su Formats.orderlyStages = some c ∧
    (∀ t, c.tasks t = none) ∧ c.work.state.Holds (.reply .layer1) (Formats.hexText Formats.settledId) ∧
    c.work.state.OneStage := by
  have hcheck : (((Crew.start ∅ : Crew .layer1 Bool).run Formats.system.su Formats.orderlyStages).any
      fun c => (∀ t, (c.tasks t).isNone) ∧
        c.work.state.Holds (.reply .layer1) (Formats.hexText Formats.settledId)) = true := by
    decide +kernel
  have htime : (Crew.start ∅ : Crew .layer1 Bool).InTime Formats.system.su Formats.orderlyStages := by
    decide +kernel
  obtain ⟨c, hrun, hc⟩ := (Option.any_eq_true _ _).mp hcheck
  obtain ⟨hidle, hreply⟩ := of_decide_eq_true hc
  have hidle : ∀ t, c.tasks t = none := fun t => Option.isNone_iff_eq_none.mp (hidle t)
  exact ⟨c, hrun, hidle, hreply, (stages_never_reopen hrun htime).1 hidle⟩

/-- A SendTx event that overtakes the save of its entry leaves the transfer at two stages. -/
theorem stages_reopen : ∃ c : Crew .layer1 Bool,
    (Crew.start ∅ : Crew .layer1 Bool).run Formats.system.su Formats.overtakenStages = some c ∧
    (Formats.overtakenStages.filterMap Crew.Label.call?).Nodup ∧ (∀ t, c.tasks t = none) ∧
    c.work.Took (.handleSendTxEvent (Formats.hexText Formats.settledId)) ∧
    c.work.state.Holds (.send .layer1) (Formats.hexText Formats.settledId) ∧
    c.work.state.Holds (.ack .layer1) (Formats.hexText Formats.settledId) ∧ ¬c.work.state.OneStage := by
  have hcheck : (((Crew.start ∅ : Crew .layer1 Bool).run Formats.system.su Formats.overtakenStages).any
      fun c => (∀ t, (c.tasks t).isNone) ∧
        (c.work.job true).call = some (.handleSendTxEvent (Formats.hexText Formats.settledId)) ∧
        c.work.state.Holds (.send .layer1) (Formats.hexText Formats.settledId) ∧
        c.work.state.Holds (.ack .layer1) (Formats.hexText Formats.settledId)) = true := by
    decide +kernel
  obtain ⟨c, hrun, hc⟩ := (Option.any_eq_true _ _).mp hcheck
  obtain ⟨hidle, hcall, hsend, hack⟩ := of_decide_eq_true hc
  refine ⟨c, hrun, by decide +kernel, fun t => Option.isNone_iff_eq_none.mp (hidle t),
    ⟨_, c.work.has_job true, hcall⟩, hsend, hack, fun hone => ?_⟩
  exact nomatch hone _ _ _ rfl rfl hsend hack

end CrosschainAgent
