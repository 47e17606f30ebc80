import CrosschainAgent.Session.Verdicts

/-!
# Where the messages of a handler come from

Whatever the threads of a handler keep in a map or in the database, read back or load again, some
call had the grounds to keep: an ack was submitted on an occasion that decided its result, a
`SendTx` was accepted, a StartTx event read the record. So every ack to a source, sent again after
any number of passes and restarts, carries the result of an occasion that some call met.
-/

namespace CrosschainAgent

open Interaction Std

variable {su : Setup} {h : Handle} {T : Type} {id : Text} {v : Int32} {store : Store}
  {info info' : Protocol.CrossTxInfo} {occ : Occasion}

/-- Every operation of the job is allowed after those before it. -/
def Job.Heeds (P : Option (HandlerCall h) → List Step → Op → Prop) (j : Job h) : Prop :=
  ∀ before step after, j.steps = before ++ step :: after → P j.call before step.op

/-- Every operation of the threads is allowed, and so is all that they may still perform. -/
structure Crew.Heeds (P : Option (HandlerCall h) → List Step → Op → Prop) (c : Crew h T) : Prop where
  jobs : ∀ j, c.work.Has j → j.Heeds P
  tasks : ∀ t p, c.tasks t = some p → UsesAfter (P (c.work.job t).call) p (c.work.job t).steps

section Heeds

variable [DecidableEq T] {P : Option (HandlerCall h) → List Step → Op → Prop} {c c' : Crew h T}

omit [DecidableEq T] in
/-- The job that has performed nothing yet. -/
theorem Job.heeds_nil (call : Option (HandlerCall h)) : Job.Heeds P ⟨call, []⟩ :=
  fun _ _ _ heq => absurd heq.symm (List.append_ne_nil_of_right_ne_nil _ (List.cons_ne_nil _ _))

omit [DecidableEq T] in
/-- The job goes on with an operation that is allowed. -/
theorem Job.Heeds.snoc {j : Job h} {step : Step} (hj : j.Heeds P) (hstep : P j.call j.steps step.op) :
    Job.Heeds P ⟨j.call, j.steps ++ [step]⟩ := by
  intro before step' after heq
  rcases List.eq_nil_or_concat after with rfl | ⟨after', last, rfl⟩
  · obtain ⟨hbefore, hlast⟩ := List.append_inj' heq rfl
    cases hlast
    exact hbefore ▸ hstep
  · change j.steps ++ [step] = _ at heq
    rw [List.concat_eq_append, ← List.cons_append, ← List.append_assoc] at heq
    exact hj before step' after' (List.append_inj' heq rfl).1

/-- A thread takes up a job whose program does only what is allowed. -/
theorem Crew.Heeds.take (hc : c.Heeds P) {t : T} {call : Option (HandlerCall h)} {p : AgentM Bool}
    (hp : UsesAfter (P call) p []) (hpast : c'.work.past = (c.work.take t call).past)
    (hjob : c'.work.job = (c.work.take t call).job)
    (htasks : ∀ t' q, c'.tasks t' = some q → t' = t ∧ q = p ∨ t' ≠ t ∧ c.tasks t' = some q) :
    c'.Heeds P where
  jobs j hj := by
    have hhas : (c.work.take t call).Has j := by
      unfold Work.Has at hj ⊢
      rwa [hpast, hjob] at hj
    rcases Work.has_take hhas with hj | rfl
    · exact hc.jobs j hj
    · exact Job.heeds_nil call
  tasks t' q hq := by
    rw [hjob]
    rcases htasks t' q hq with ⟨rfl, rfl⟩ | ⟨hne, hq⟩
    · rw [Work.take_job_self]
      exact hp
    · rw [Work.take_job_of_ne _ _ hne]
      exact hc.tasks t' q hq

/-- A thread performs its next operation. -/
theorem Crew.Heeds.act (hc : c.Heeds P) {t : T} {o : Op} {k : o.Resp → AgentM Bool} {r : o.Resp}
    {work : Work h T} (hrunning : c.tasks t = some (.op o k)) (hacts : Work.Acts t o c.work r work) :
    (⟨work, Function.update c.tasks t (Crew.remaining (k r))⟩ : Crew h T).Heeds P := by
  obtain ⟨hallowed, hk⟩ := hc.tasks t _ hrunning
  refine ⟨fun j hj => ?_, fun t' q hq => ?_⟩
  · rcases hacts.has_cases hj with hj | rfl
    · exact hc.jobs j hj
    · exact (hc.jobs _ (c.work.has_job t)).snoc hallowed
  · change Function.update c.tasks t (Crew.remaining (k r)) t' = some q at hq
    by_cases heq : t' = t
    · subst heq
      rw [Function.update_self] at hq
      have hrest := hk c.work.state r
      rw [hacts.job_self]
      cases hkr : k r with
      | ret b =>
        rw [hkr] at hq
        cases hq
      | op o' k' =>
        rw [hkr] at hq hrest
        cases hq
        exact hrest
    · rw [Function.update_of_ne heq] at hq
      rw [hacts.job_of_ne heq]
      exact hc.tasks t' q hq

omit [DecidableEq T] in
/-- At first no operation was performed. -/
theorem Crew.heeds_start {db : Database} : (Crew.start db : Crew h T).Heeds P := by
  refine ⟨fun j hj => ?_, fun t p hp => by cases hp⟩
  rcases hj with hpast | ⟨t, rfl⟩
  · exact absurd hpast List.not_mem_nil
  · exact Job.heeds_nil none

/-- A step keeps what the programs of all calls keep. -/
theorem Crew.Heeds.steps (hc : c.Heeds P)
    (hcalls : ∀ call : HandlerCall h, UsesAfter (P (some call)) (call.run su) [])
    (hinit : UsesAfter (P none) (HandlerCall.initializeHandle su h) []) {label : Crew.Label h T}
    (hsteps : Crew.Steps su c label c') : c'.Heeds P := by
  cases hsteps with
  | take t call hidle =>
    exact hc.take (hcalls call) rfl rfl fun _ _ hq => Crew.update_some_cases hq
  | act t answer o k r work hrunning hacts => exact hc.act hrunning hacts
  | restart t =>
    have hprogram : UsesAfter (P none) (do
        HandlerCall.initializeHandle su h
        return true : AgentM Bool) [] := UsesAfter.bind hinit fun _ _ _ => UsesAfter.pure _
    refine hc.take hprogram rfl rfl fun t' q hq => ?_
    have hq' : Function.update (fun _ : T => (none : Option (AgentM Bool))) t (some _) t' = some q := hq
    rcases Crew.update_some_cases hq' with hself | ⟨_, hnone⟩
    · exact Or.inl hself
    · cases hnone

end Heeds

namespace Work

/-- A call met the occasion for the transfer, and then submitted an ack of it. -/
def Voiced (su : Setup) (w : Work h T) (id : Text) (occ : Occasion) : Prop :=
  ∃ j, w.Has j ∧ Voices su j.call j.steps id occ

/-- A `SendTx` of the transfer was accepted. -/
def Accepted (w : Work h T) (id : Text) : Prop := ∃ j, w.Has j ∧ ∃ step ∈ j.steps, step.Accepts h id

/-- A StartTx event read a record of the transfer with the timeout. -/
def Recorded (su : Setup) (w : Work h T) (id : Text) (timeout : Int64) : Prop :=
  ∃ j, w.Has j ∧ Records su j.call j.steps id timeout

/-- A call had the grounds to keep the message in the map. -/
def Founded (su : Setup) (w : Work h T) (store : Store) (info : Protocol.CrossTxInfo) : Prop :=
  ∃ j, w.Has j ∧ Grounds su j.call j.steps store info

/-- What was voiced stays voiced. -/
theorem Voiced.continues {w w' : Work h T} (hvoiced : w.Voiced su id occ) (hcontinues : w'.Continues w) :
    w'.Voiced su id occ := by
  obtain ⟨j, hhas, hvoices⟩ := hvoiced
  obtain ⟨more, hhas'⟩ := hcontinues j hhas
  exact ⟨_, hhas', hvoices.append more⟩

/-- What was accepted stays accepted. -/
theorem Accepted.continues {w w' : Work h T} (haccepted : w.Accepted id) (hcontinues : w'.Continues w) :
    w'.Accepted id := by
  obtain ⟨j, hhas, step, hstep, haccepts⟩ := haccepted
  obtain ⟨more, hhas'⟩ := hcontinues j hhas
  exact ⟨_, hhas', step, List.mem_append_left _ hstep, haccepts⟩

/-- What was recorded stays recorded. -/
theorem Recorded.continues {w w' : Work h T} {timeout : Int64} (hrecorded : w.Recorded su id timeout)
    (hcontinues : w'.Continues w) : w'.Recorded su id timeout := by
  obtain ⟨j, hhas, hrecords⟩ := hrecorded
  obtain ⟨more, hhas'⟩ := hcontinues j hhas
  exact ⟨_, hhas', hrecords.append more⟩

/-- What is founded stays founded. -/
theorem Founded.continues {w w' : Work h T} (hfounded : w.Founded su store info)
    (hcontinues : w'.Continues w) : w'.Founded su store info := by
  obtain ⟨j, hhas, hgrounds⟩ := hfounded
  obtain ⟨more, hhas'⟩ := hcontinues j hhas
  exact ⟨_, hhas', hgrounds.append more⟩

/-- Messages that are alike have the same grounds. -/
theorem Founded.alike {w : Work h T} (hfounded : w.Founded su store info) (halike : info.Alike info') :
    w.Founded su store info' := by
  obtain ⟨j, hhas, hgrounds⟩ := hfounded
  refine ⟨j, hhas, ?_⟩
  cases store with
  | ack l =>
    obtain ⟨occ, hvoices, hresult⟩ := hgrounds
    exact ⟨occ, halike.crosstxid ▸ hvoices, hresult.trans halike.status⟩
  | send l =>
    obtain ⟨step, hstep, haccepts⟩ := hgrounds
    exact ⟨step, hstep, halike.crosstxid ▸ haccepts⟩
  | start =>
    have hrecords : Records su j.call j.steps info.crosstxid info.timeout := hgrounds
    rw [halike.crosstxid, halike.timeout] at hrecords
    exact hrecords
  | reply l => exact trivial

end Work

/-- An entry has the id and the timeout of its message. -/
theorem CrossTx.Made.eq {e : CrossTx} (hmade : e.Made su) : e.crossTxId = (e.info su.codec).crosstxid ∧
    e.sendTxTimeout = (e.info su.codec).timeout := by
  obtain ⟨info, t, rfl⟩ := hmade
  rw [CrossTx.info_ofInfo]
  exact ⟨rfl, rfl⟩

/-- The time at which an entry is due is not part of its message. -/
theorem CrossTx.Made.due {e : CrossTx} (hmade : e.Made su) (t : Int64) :
    CrossTx.Made su { e with sendAckTimeout := t } := by
  obtain ⟨info, t', rfl⟩ := hmade
  exact ⟨info, t, rfl⟩

namespace Crew

/-- Everything that is kept or was read back has its grounds. -/
structure Accountable (su : Setup) (c : Crew h T) : Prop where
  reads : ∀ j, c.work.Has j → ∀ step ∈ j.steps, ∀ store info, step.Reads su store info →
    c.work.Founded su store info
  entries : ∀ j, c.work.Has j → ∀ before store infos, ⟨before, .entries store, infos⟩ ∈ j.steps →
    ∀ p ∈ infos, p.2.Made su
  map : ∀ store (key : Text) e, (c.work.state.maps store)[key]? = some e →
    e.Made su ∧ c.work.Founded su store (e.info su.codec)
  db : ∀ (store : Store) (key value : Text) info, store.keyPrefix <+: key →
    c.work.state.db[key]? = some value → su.codec.parseFromString value = some info →
    c.work.Founded su store info

/-- What a thread may keep is founded. -/
theorem Accountable.founded {c : Crew h T} (hc : c.Accountable su) {t : T}
    (htraced : Traced su (c.work.job t).call (c.work.job t).steps store info) :
    c.work.Founded su store info := by
  rcases htraced with hgrounds | ⟨step, hstep, info', hreads, halike⟩
  · exact ⟨_, c.work.has_job t, hgrounds⟩
  · exact (hc.reads _ (c.work.has_job t) step hstep store info' hreads).alike halike

variable [DecidableEq T]

omit [DecidableEq T] in
/-- At first nothing is kept. -/
theorem accountable_start : (start ∅ : Crew h T).Accountable su := by
  have hnone : ∀ j : Job h, (start ∅ : Crew h T).work.Has j → j.steps = [] := by
    rintro j (hpast | ⟨t, rfl⟩)
    · exact absurd hpast List.not_mem_nil
    · rfl
  refine ⟨fun j hj step hstep => ?_, fun j hj before store infos hstep => ?_, fun store key e hget => ?_,
    fun store key value info _ hget => ?_⟩
  · rw [hnone j hj] at hstep
    cases hstep
  · rw [hnone j hj] at hstep
    cases hstep
  · rw [start, ExtTreeMap.getElem?_empty] at hget
    cases hget
  · rw [start, ExtTreeMap.getElem?_empty] at hget
    cases hget

/-- A thread takes up a job. -/
theorem Accountable.take {c c' : Crew h T} (hc : c.Accountable su) {t : T}
    {call : Option (HandlerCall h)} (hpast : c'.work.past = (c.work.take t call).past)
    (hjob : c'.work.job = (c.work.take t call).job) (hmap : ∀ store (key : Text) e,
      (c'.work.state.maps store)[key]? = some e → (c.work.state.maps store)[key]? = some e)
    (hdb : c'.work.state.db = c.work.state.db) : c'.Accountable su := by
  have hhas : ∀ j, c'.work.Has j ↔ (c.work.take t call).Has j := fun j => by
    unfold Work.Has
    rw [hpast, hjob]
  have hcontinues : c'.work.Continues c.work := by
    intro j hj
    obtain ⟨more, hmore⟩ := c.work.continues_take t call j hj
    exact ⟨more, (hhas _).mpr hmore⟩
  have hold : ∀ j, c'.work.Has j → ∀ step ∈ j.steps, c.work.Has j := by
    intro j hj step hstep
    rcases Work.has_take ((hhas j).mp hj) with hj | rfl
    · exact hj
    · exact absurd hstep List.not_mem_nil
  refine ⟨fun j hj step hstep store info hreads => ?_, fun j hj before store infos hstep => ?_,
    fun store key e hget => ?_, fun store key value info hkey hget hparse => ?_⟩
  · exact (hc.reads j (hold j hj step hstep) step hstep store info hreads).continues hcontinues
  · exact hc.entries j (hold j hj _ hstep) before store infos hstep
  · obtain ⟨hmade, hfounded⟩ := hc.map store key e (hmap store key e hget)
    exact ⟨hmade, hfounded.continues hcontinues⟩
  · rw [hdb] at hget
    exact (hc.db store key value info hkey hget hparse).continues hcontinues

/-- A thread performs an operation that it has a warrant for. -/
theorem Accountable.act {c : Crew h T} (hc : c.Accountable su) {t : T} {o : Op} {r : o.Resp}
    {work : Work h T} {tasks : T → Option (AgentM Bool)}
    (hwarrants : Warrants su (c.work.job t).call (c.work.job t).steps o)
    (hacts : Work.Acts t o c.work r work) : (⟨work, tasks⟩ : Crew h T).Accountable su := by
  have hcontinues := hacts.continues
  refine ⟨fun j hj step hstep store info hreads => ?_, fun j hj before store infos hstep p hp => ?_,
    fun store key e hget => ?_, fun store key value info hkey hget hparse => ?_⟩
  · rcases hacts.mem_steps hj hstep with ⟨j', hj', hstep⟩ | rfl
    · exact (hc.reads j' hj' step hstep store info hreads).continues hcontinues
    · cases o with
      | entries store =>
        obtain ⟨rfl, p, hp, rfl⟩ := hreads
        rw [hacts.state.entries_eq.2] at hp
        exact (hc.map _ p.1 p.2 (ExtTreeMap.mem_toList_iff_getElem?_eq_some.mp hp)).2.continues hcontinues
      | dbScan keyPrefix =>
        obtain ⟨rfl, found, rfl, value, hvalue, hparse⟩ := hreads
        rw [hacts.state.dbScan_eq.2 found rfl] at hvalue
        obtain ⟨key, hkey, hget⟩ := AgentState.mem_valuesByPrefix.mp hvalue
        exact (hc.db store key value info hkey hget hparse).continues hcontinues
      | highResolution | http | dbPut | dbDelete | lock | unlock | emplace | erase | setAckTimeout
      | terminate => exact hreads.elim
  · rcases hacts.mem_steps hj hstep with ⟨j', hj', hstep⟩ | heq
    · exact hc.entries j' hj' before store infos hstep p hp
    · cases heq
      rw [hacts.state.entries_eq.2] at hp
      exact (hc.map store p.1 p.2 (ExtTreeMap.mem_toList_iff_getElem?_eq_some.mp hp)).1
  · rcases hacts.state.entry_cases hget with ⟨old, time, hold, rfl⟩ | rfl
    · obtain ⟨hmade, hfounded⟩ := hc.map store key old hold
      exact ⟨hmade.due time, hfounded.continues hcontinues⟩
    · exact ⟨hwarrants.1, (hc.founded hwarrants.2).continues hcontinues⟩
  · rcases hacts.state.value_cases hget with hget | rfl
    · exact (hc.db store key value info hkey hget hparse).continues hcontinues
    · obtain ⟨store', info', rfl, rfl, htraced⟩ := hwarrants
      rw [su.codec.parse_serialize] at hparse
      cases hparse
      obtain rfl := Store.eq_of_keyPrefix hkey (List.prefix_append _ _)
      exact (hc.founded htraced).continues hcontinues

/-- A step keeps the threads accountable. -/
theorem Accountable.steps {c c' : Crew h T} {label : Label h T} (hc : c.Accountable su)
    (hheeds : c.Heeds (Warrants su)) (hsteps : Steps su c label c') : c'.Accountable su := by
  cases hsteps with
  | take t call hidle => exact hc.take rfl rfl (fun _ _ _ hget => hget) rfl
  | act t answer o k r work hrunning hacts => exact hc.act (hheeds.tasks t _ hrunning).1 hacts
  | restart t =>
    refine hc.take rfl rfl (fun store key e hget => ?_) rfl
    change ((c.work.state.restarted).maps store)[key]? = some e at hget
    rw [AgentState.restarted, ExtTreeMap.getElem?_empty] at hget
    cases hget

end Crew

end CrosschainAgent
