import CrosschainAgent.Session.StartPasses
import CrosschainAgent.Session.Interleavings

/-!
# When the acks of a transfer agree

A transfer is acknowledged on occasions at its start, before any `SendTx` of it was accepted, and on
occasions after one. In a run in which the events and the answers of clock and nodes are in order, no
transfer meets occasions of both kinds: under the lock of the start map, an entry that the clock
finds in time when its `SendTx` is submitted was never found late before. What is left are the
results of one kind, which agree but for a missing transaction that was seen elsewhere and for a
start entry that stays in the map after its timeout was acknowledged.
-/

namespace CrosschainAgent

open Interaction Std HttpClient

variable {su : Setup} {h : Handle} {T : Type} {id : Text} {occ : Occasion}

namespace Work

/-- The clock was read. -/
def Clocked (w : Work h T) (now : Int64) : Prop :=
  ∃ j, w.Has j ∧ ∃ step ∈ j.steps, step.reading = some now

/-- The clock does not go back, and once a `SendTx` of the transfer was accepted no pass over the start
map acknowledges it. -/
structure InOrder (w : Work h T) (t : T) (id : Text) (step : Step) : Prop where
  clock : ∀ now ∈ step.reading, ∀ past, w.Clocked past → past ≤ now
  acks : ∀ call ∈ (w.job t).call, call.WalksStart → step.op.AcksFor h id → ¬w.Accepted id

end Work

namespace Crew

variable [DecidableEq T]

/-- The next operation of a thread is in order. -/
def NextInOrder (c : Crew h T) (t : T) (id : Text) (answer : Answer) : AgentM Bool → Prop
  | .op o _ => ∀ after ∈ c.work.step t o answer, c.work.InOrder t id ⟨c.work.state, o, after.1⟩
  | .ret _ => True

/-- What happens next is in order. -/
def LabelInOrder (c : Crew h T) (id : Text) : Label h T → Prop
  | .act t answer => ∀ p ∈ c.tasks t, c.NextInOrder t id answer p
  | .take _ _ | .restart _ => True

/-- Every operation of a run is in order. -/
def InOrder (su : Setup) (id : Text) (c : Crew h T) : List (Label h T) → Prop
  | [] => True
  | label :: rest => c.LabelInOrder id label ∧ ∀ c' ∈ c.step su label, InOrder su id c' rest

/-- The events of the transfer and the answers of clock and nodes are in order: nodes answer with the
record that was asked for, whose timeout does not change; on layer 1 the StartTx event is handled
once; a SendTx event belongs to a `SendTx` that was accepted; and every operation is in order. -/
structure Orderly (su : Setup) (id : Text) (labels : List (Label h T)) (c : Crew h T) : Prop where
  own : ∀ j, c.work.Has j → ∀ step ∈ j.steps, step.Own
  timeout : ∀ timeout timeout', c.work.Recorded su id timeout → c.work.Recorded su id timeout' →
    timeout = timeout'
  once : h = .layer1 → ∀ j j', c.work.Has j → c.work.Has j' → j.call = some (.handleStartTxEvent id) →
    j'.call = some (.handleStartTxEvent id) → j = j'
  known : c.work.Voiced su id .sent → c.work.Accepted id
  inOrder : (start ∅ : Crew h T).InOrder su id labels

end Crew

section Acts

variable [DecidableEq T] {t : T} {o : Op} {r : o.Resp} {w w' : Work h T}

/-- What is voiced after an operation was voiced, or the operation is an ack on the occasion. -/
theorem Work.Acts.voiced_cases (hacts : Work.Acts t o w r w') (hvoiced : w'.Voiced su id occ) :
    w.Voiced su id occ ∨
      o.AcksFor h id ∧ ∃ call, (w.job t).call = some call ∧ Meets su (w.job t).steps id call occ := by
  obtain ⟨j, hhas, call, hcall, before, step, after, hsteps, hmeets, hacks⟩ := hvoiced
  rcases hacts.has_cases hhas with hhas | rfl
  · exact Or.inl ⟨j, hhas, call, hcall, before, step, after, hsteps, hmeets, hacks⟩
  · change (w.job t).steps ++ [_] = _ at hsteps
    rcases List.eq_nil_or_concat after with rfl | ⟨after', last, rfl⟩
    · obtain ⟨rfl, hstep⟩ := List.append_inj' hsteps rfl
      cases hstep
      exact Or.inr ⟨hacks, call, hcall, hmeets⟩
    · rw [List.concat_eq_append, ← List.cons_append, ← List.append_assoc] at hsteps
      exact Or.inl ⟨_, w.has_job t, call, hcall, before, step, after', (List.append_inj' hsteps rfl).1,
        hmeets, hacks⟩

/-- What is accepted after an operation was accepted, or the operation is the `SendTx`. -/
theorem Work.Acts.accepted_cases (hacts : Work.Acts t o w r w') (haccepted : w'.Accepted id) :
    w.Accepted id ∨ Step.Accepts h id ⟨w.state, o, r⟩ := by
  obtain ⟨j, hhas, step, hstep, haccepts⟩ := haccepted
  rcases hacts.mem_steps hhas hstep with ⟨j', hhas', hstep'⟩ | rfl
  · exact Or.inl ⟨j', hhas', step, hstep', haccepts⟩
  · exact Or.inr haccepts

/-- What is voiced when a job was taken up was voiced before. -/
theorem Work.voiced_of_take {call : Option (HandlerCall h)} (hvoiced : (w.take t call).Voiced su id occ) :
    w.Voiced su id occ := by
  obtain ⟨j, hhas, hvoices⟩ := hvoiced
  rcases Work.has_take hhas with hhas | rfl
  · exact ⟨j, hhas, hvoices⟩
  · obtain ⟨_, _, before, step, after, heq, _⟩ := hvoices
    exact absurd heq.symm (List.append_ne_nil_of_right_ne_nil _ (List.cons_ne_nil _ _))

/-- What is accepted when a job was taken up was accepted before. -/
theorem Work.accepted_of_take {call : Option (HandlerCall h)} (haccepted : (w.take t call).Accepted id) :
    w.Accepted id := by
  obtain ⟨j, hhas, step, hstep, haccepts⟩ := haccepted
  rcases Work.has_take hhas with hhas | rfl
  · exact ⟨j, hhas, step, hstep, haccepts⟩
  · cases hstep

end Acts

/-- A running thread that is under the lock of the start map owns it. -/
def Crew.Locked (c : Crew h T) : Prop :=
  ∀ t p, c.tasks t = some p → UnderLock (c.work.job t).steps → ∃ n, c.work.locks .start = some (t, n)

/-- What holds in every run. -/
structure Crew.Sound (su : Setup) (c : Crew h T) : Prop where
  accountable : c.Accountable su
  warrants : c.Heeds (Warrants su)
  ordered : c.Heeds (Ordered su)
  locked : c.Locked

section Locked

variable [DecidableEq T]

/-- A thread that takes up a job is not under the lock. -/
theorem not_underLock_nil : ¬UnderLock [] := fun ⟨⟨_, hstep, _⟩, _⟩ => by cases hstep

/-- An operation of a thread that may use a map leaves the lock of another thread. -/
theorem Work.Acts.owner {t t' : T} {o : Op} {r : o.Resp} {w w' : Work h T} {n : ℕ}
    (hacts : Work.Acts t o w r w') (hne : t' ≠ t) (howner : w.locks .start = some (t', n)) :
    w'.locks .start = some (t', n) := by
  have hother : w.mayUse t .start = false := by
    rw [Work.mayUse, howner]
    exact decide_eq_false hne
  rw [hacts.locks, ← howner]
  have hallowed := hacts.allowed
  cases o with
  | lock store =>
    refine Function.update_of_ne ?_ _ _
    rintro rfl
    rw [Work.allows, hother] at hallowed
    cases hallowed
  | unlock store =>
    refine Function.update_of_ne ?_ _ _
    rintro rfl
    rw [Work.allows, hother, Bool.and_false] at hallowed
    cases hallowed
  | highResolution | http | dbPut | dbDelete | dbScan | entries | emplace | erase | setAckTimeout
  | terminate => rfl

/-- A thread that is under the lock after an operation took it by this operation or had it. -/
theorem Work.Acts.owns {t : T} {o : Op} {r : o.Resp} {w w' : Work h T} (hacts : Work.Acts t o w r w')
    (hheld : UnderLock (w.job t).steps → ∃ n, w.locks .start = some (t, n))
    (hlock : UnderLock (w'.job t).steps) : ∃ n, w'.locks .start = some (t, n) := by
  rw [hacts.job_self] at hlock
  obtain ⟨⟨step, hstep, hop⟩, hkeeps⟩ := hlock
  obtain ⟨hsteps, hlast⟩ := List.forall_mem_append.mp hkeeps
  have hne : o ≠ .unlock .start := hlast _ List.mem_cons_self
  rw [hacts.locks]
  by_cases heq : o = .lock .start
  · subst heq
    refine ⟨((w.locks .start).map (·.2)).getD 0 + 1, ?_⟩
    rw [Work.relock]
    exact Function.update_self _ _ _
  · have hold : UnderLock (w.job t).steps := by
      refine ⟨⟨step, (List.mem_append.mp hstep).resolve_right fun hstep => heq ?_, hop⟩, hsteps⟩
      rw [← hop, List.mem_singleton.mp hstep]
    obtain ⟨n, hn⟩ := hheld hold
    refine ⟨n, hn ▸ ?_⟩
    cases o with
    | lock store =>
      refine Function.update_of_ne ?_ _ _
      rintro rfl
      exact heq rfl
    | unlock store =>
      refine Function.update_of_ne ?_ _ _
      rintro rfl
      exact hne rfl
    | highResolution | http | dbPut | dbDelete | dbScan | entries | emplace | erase | setAckTimeout
    | terminate => rfl

namespace Crew

variable {c c' : Crew h T}

/-- What is left of the calls after an operation was there before, for another thread, or it is what
the operation leaves. -/
theorem tasks_act_cases {t t' : T} {q : Option (AgentM Bool)} {p : AgentM Bool}
    (hp : Function.update c.tasks t q t' = some p) : t' = t ∨ t' ≠ t ∧ c.tasks t' = some p := by
  by_cases heq : t' = t
  · exact Or.inl heq
  · rw [Function.update_of_ne heq] at hp
    exact Or.inr ⟨heq, hp⟩

/-- A step keeps the owner of the lock. -/
theorem Locked.steps {label : Label h T} (hc : c.Locked) (hsteps : Steps su c label c') : c'.Locked := by
  intro t' p hp hlock
  cases hsteps with
  | take t call hidle =>
    change UnderLock ((c.work.take t (some call)).job t').steps at hlock
    rcases update_some_cases hp with ⟨rfl, -⟩ | ⟨hne, hp⟩
    · rw [Work.take_job_self] at hlock
      exact absurd hlock not_underLock_nil
    · rw [Work.take_job_of_ne _ _ hne] at hlock
      exact hc t' p hp hlock
  | act t answer o k r work hrunning hacts =>
    rcases tasks_act_cases hp with rfl | ⟨hne, hp⟩
    · exact hacts.owns (hc _ _ hrunning) hlock
    · change UnderLock (work.job t').steps at hlock
      rw [hacts.job_of_ne hne] at hlock
      obtain ⟨n, hn⟩ := hc t' p hp hlock
      exact ⟨n, hacts.owner hne hn⟩
  | restart t =>
    change UnderLock ((c.work.take t none).job t').steps at hlock
    change Function.update (fun _ : T => (none : Option (AgentM Bool))) t (some _) t' = some p at hp
    rcases update_some_cases hp with ⟨rfl, -⟩ | ⟨_, hnone⟩
    · rw [Work.take_job_self] at hlock
      exact absurd hlock not_underLock_nil
    · cases hnone

omit [DecidableEq T] in
/-- A process that starts with an empty database is sound. -/
theorem sound_start : (start ∅ : Crew h T).Sound su where
  accountable := accountable_start
  warrants := heeds_start
  ordered := heeds_start
  locked _ _ hp := by cases hp

/-- A step keeps a process sound. -/
theorem Sound.steps {label : Label h T} (hc : c.Sound su) (hsteps : Steps su c label c') :
    c'.Sound su where
  accountable := hc.accountable.steps hc.warrants hsteps
  warrants := hc.warrants.steps run_warrants initializeHandle_warrants hsteps
  ordered := hc.ordered.steps run_ordered initializeHandle_ordered hsteps
  locked := hc.locked.steps hsteps

/-- A run keeps a process sound. -/
theorem Sound.run {labels : List (Label h T)} (hrun : (start ∅ : Crew h T).run su labels = some c) :
    c.Sound su :=
  run_induction sound_start (fun _ _ _ hu hsteps => hu.steps hsteps) hrun

/-- Jobs go on in a step. -/
theorem Steps.continues {label : Label h T} (hsteps : Steps su c label c') :
    c'.work.Continues c.work := by
  cases hsteps with
  | take t call hidle => exact c.work.continues_take t (some call)
  | act t answer o k r work hrunning hacts => exact hacts.continues
  | restart t => exact c.work.continues_take t none

/-- Jobs go on in a run. -/
theorem run_continues {labels : List (Label h T)} (hrun : c.run su labels = some c') :
    c'.work.Continues c.work := by
  refine run_induction (P := fun u => u.work.Continues c.work) ?_ (fun u label u' hu hsteps => ?_) hrun
  · exact fun j hhas => ⟨[], by rwa [List.append_nil]⟩
  · intro j hhas
    obtain ⟨more, hmore⟩ := hu j hhas
    obtain ⟨more', hmore'⟩ := hsteps.continues _ hmore
    exact ⟨more ++ more', by rwa [← List.append_assoc]⟩

end Crew

end Locked

/-- A reading of the clock is a step that was performed. -/
theorem reading_of_replays {steps rest : List Step} {now : Int64}
    (hclock : Replays highResolution steps now rest) : ∃ step ∈ steps, step.reading = some now := by
  obtain ⟨before, rfl⟩ := runs_perform.mp hclock
  exact ⟨_, List.mem_cons_self, rfl⟩

/-- What is left of a pass at a round was performed by the pass. -/
theorem Pass.Reaches.suffix {pass : Pass h} {steps rest : List Step} {now : Int64} {e : CrossTx}
    (hreaches : pass.Reaches su steps now e rest) : rest <:+ steps := by
  obtain ⟨done, key, after, begun, hprologue, hdone⟩ := hreaches
  exact (Replays.suffix hdone).trans (Replays.suffix hprologue)

/-- The clock of a start timer pass was read. -/
theorem Pass.Reaches.clocked {steps rest : List Step} {now : Int64} {e : CrossTx}
    (hreaches : Pass.startTxTimeOut.Reaches su steps now e rest) :
    ∃ step ∈ steps, step.reading = some now := by
  obtain ⟨done, key, after, begun, hprologue, -⟩ := hreaches
  obtain ⟨clock, s1, hclock, hrun⟩ := runs_bind.mp hprologue
  obtain ⟨_, s2, -, hrun⟩ := runs_bind.mp hrun
  obtain ⟨infos, s3, -, hrun⟩ := runs_bind.mp hrun
  obtain ⟨rfl, -⟩ := Prod.mk.inj (runs_pure.mp hrun).1
  exact reading_of_replays hclock

namespace Crew

variable {c c' : Crew h T} {steps : List Step}

/-- The start map holds entries only for records that were read. -/
theorem Accountable.recorded (hc : c.Accountable su) {j : Job h} (hhas : c.work.Has j)
    (hsteps : ∀ step ∈ steps, step ∈ j.steps) {timeout : Int64} (hstarts : Starts su steps id timeout) :
    c.work.Recorded su id timeout := by
  obtain ⟨before, infos, hmem, p, hp, rfl, rfl⟩ := hstarts
  exact hc.reads j hhas _ (hsteps _ hmem) .start _ ⟨rfl, p, hp, rfl⟩

/-- A transfer that a pass over the start map gives up has a timeout that the clock was past. -/
theorem Accountable.late {c : Crew .layer2 T} (hc : c.Accountable su) {j : Job .layer2}
    (hhas : c.work.Has j) (hsteps : ∀ step ∈ steps, step ∈ j.steps) {call : HandlerCall .layer2}
    (hmeets : Meets su steps id call occ) (hstart : occ.AtStart) :
    call.WalksStart ∧ ∃ timeout now, c.work.Recorded su id timeout ∧ c.work.Clocked now ∧ timeout < now := by
  cases hmeets with
  | sent | found | missing => exact hstart.elim
  | confirmedLate reaches confirmed clock late about =>
    obtain ⟨before, infos, key, hmem, hentry⟩ := reaches.mem
    have hstarts : Starts su steps _ _ := starts_of_mem hmem hentry
    rw [about] at hstarts
    obtain ⟨step, hstep, hreading⟩ := reading_of_replays clock
    exact ⟨trivial, _, _, hc.recorded hhas hsteps hstarts,
      ⟨j, hhas, step, hsteps _ (reaches.suffix.subset hstep), hreading⟩, late⟩
  | timedOut reaches late about =>
    obtain ⟨before, infos, key, hmem, hentry⟩ := reaches.mem
    have hstarts : Starts su steps _ _ := starts_of_mem hmem hentry
    have hmade := hc.entries j hhas before .start infos (hsteps _ hmem) _ hentry
    rw [about] at hstarts
    rw [hmade.eq.2] at late
    obtain ⟨step, hstep, hreading⟩ := reaches.clocked
    exact ⟨trivial, _, _, hc.recorded hhas hsteps hstarts, ⟨j, hhas, step, hsteps _ hstep, hreading⟩, late⟩

/-- The transfer is not given up on layer 2 when a `SendTx` of it was accepted, nor when a confirmation
has found that its timeout has not passed and may submit one. -/
structure Apart (su : Setup) (id : Text) (timeout : Int64) (c : Crew .layer2 T) : Prop where
  early : ∀ t p confirmSeq, c.tasks t = some p →
    (c.work.job t).call = some (.handleConfirmSeqEvent confirmSeq) → FoundInTime timeout (c.work.job t).steps →
    ∀ occ : Occasion, occ.AtStart → ¬c.work.Voiced su id occ
  accepted : ∀ occ : Occasion, occ.AtStart → c.work.Voiced su id occ → ¬c.work.Accepted id

/-- Nothing is in time before anything was performed. -/
theorem not_foundInTime_nil {timeout : Int64} : ¬FoundInTime timeout [] := fun htime =>
  not_underLock_nil htime.lock.1

variable [DecidableEq T] {timeout : Int64}

/-- A thread that takes up a job gives up nothing. -/
theorem Apart.take {c c' : Crew .layer2 T} (hc : c.Apart su id timeout) {t : T}
    {call : Option (HandlerCall .layer2)} (hpast : c'.work.past = (c.work.take t call).past)
    (hjob : c'.work.job = (c.work.take t call).job)
    (htasks : ∀ t' q, c'.tasks t' = some q → t' = t ∨ t' ≠ t ∧ c.tasks t' = some q) :
    c'.Apart su id timeout := by
  have hhas : ∀ j, c'.work.Has j → (c.work.take t call).Has j := fun j hj => by
    unfold Work.Has at hj ⊢
    rwa [hpast, hjob] at hj
  have hvoiced : ∀ occ, c'.work.Voiced su id occ → c.work.Voiced su id occ := by
    rintro occ ⟨j, hj, hvoices⟩
    exact Work.voiced_of_take ⟨j, hhas j hj, hvoices⟩
  refine ⟨fun t' q confirmSeq hq hcall htime occ hocc hv => ?_, fun occ hocc hv hacc => ?_⟩
  · rw [hjob] at hcall htime
    rcases htasks t' q hq with rfl | ⟨hne, hq⟩
    · rw [Work.take_job_self] at htime
      exact not_foundInTime_nil htime
    · rw [Work.take_job_of_ne _ _ hne] at hcall htime
      exact hc.early t' q confirmSeq hq hcall htime occ hocc (hvoiced occ hv)
  · obtain ⟨j, hj, hstep⟩ := hacc
    exact hc.accepted occ hocc (hvoiced occ hv) (Work.accepted_of_take ⟨j, hhas j hj, hstep⟩)

/-- A `SendTx` that is accepted was submitted as one. -/
theorem sendsTx_of_accepts {before : AgentState} {o : Op} {r : o.Resp}
    (haccepts : Step.Accepts h id ⟨before, o, r⟩) : o.SendsTx h id := by
  cases o with
  | http l request =>
    cases request with
    | submitTransaction contract input =>
      cases input with
      | sendTx => exact ⟨haccepts.1, haccepts.2.1⟩
      | sendAckedTx => exact haccepts
    | getLedger | callContract | getTransactionHistory => exact haccepts
  | highResolution | dbPut | dbDelete | dbScan | lock | unlock | entries | emplace | erase
  | setAckTimeout | terminate => exact haccepts

/-- An ack reads no clock, and no `SendTx` is an ack. -/
theorem of_acksFor {o : Op} (hacks : o.AcksFor h id) :
    (∀ before (r : o.Resp), Step.reading ⟨before, o, r⟩ = none) ∧ ∀ id', ¬o.SendsTx h id' := by
  obtain ⟨v, hacks⟩ := hacks
  cases o with
  | http l request =>
    cases request with
    | submitTransaction contract input =>
      cases input with
      | sendTx => exact hacks.elim
      | sendAckedTx => exact ⟨fun _ _ => rfl, fun _ hsends => hsends⟩
    | getLedger | callContract | getTransactionHistory => exact hacks.elim
  | highResolution | dbPut | dbDelete | dbScan | lock | unlock | entries | emplace | erase
  | setAckTimeout | terminate => exact hacks.elim

section Act

variable {c : Crew .layer2 T} {t : T} {o : Op} {r : o.Resp} {k : o.Resp → AgentM Bool}
  {work : Work .layer2 T}

omit [DecidableEq T] in
/-- An operation that gives up a transfer is an ack of a pass over the start map, under its lock. -/
theorem Sound.gives_up (hsound : c.Sound su) (hrunning : c.tasks t = some (.op o k))
    {call : HandlerCall .layer2} (hcall : (c.work.job t).call = some call) (hacks : o.AcksFor .layer2 id)
    (hmeets : Meets su (c.work.job t).steps id call occ) (hocc : occ.AtStart) :
    call.WalksStart ∧ UnderLock (c.work.job t).steps := by
  have hacking := ((hsound.ordered.tasks t _ hrunning).1).ack id hacks
  rw [hcall] at hacking
  cases hmeets with
  | sent | found | missing => exact hocc.elim
  | confirmedLate => exact ⟨trivial, hacking.1⟩
  | timedOut => exact ⟨trivial, hacking⟩

omit [DecidableEq T] in
/-- When a confirmation finds the transfer in time, it was not given up before: the clock was past its
timeout then, and does not go back. -/
theorem Apart.reads (hsound : c.Sound su)
    (htimeout : ∀ timeout', c.work.Recorded su id timeout' → timeout' = timeout)
    (horder : c.work.InOrder t id ⟨c.work.state, o, r⟩) {now : Int64}
    (hreading : Step.reading ⟨c.work.state, o, r⟩ = some now) (hnow : ¬timeout < now)
    (hocc : occ.AtStart) : ¬c.work.Voiced su id occ := by
  rintro ⟨j, hhas, call, hcall, before, step, after, hsteps, hmeets, -⟩
  have hmem : ∀ step ∈ before, step ∈ j.steps := fun step hstep => by
    rw [hsteps]
    exact List.mem_append_left _ hstep
  obtain ⟨-, timeout', past, hrecorded, hclocked, hpast⟩ := hsound.accountable.late hhas hmem hmeets hocc
  rw [htimeout timeout' hrecorded] at hpast
  exact hnow (Int64.lt_of_lt_of_le hpast (horder.clock now hreading past hclocked))

/-- While a confirmation has found the transfer in time, no thread gives it up. -/
theorem Apart.early_act (hc : c.Apart su id timeout) (hsound : c.Sound su)
    (htimeout : ∀ timeout', c.work.Recorded su id timeout' → timeout' = timeout)
    (hrunning : c.tasks t = some (.op o k)) (hacts : Work.Acts t o c.work r work)
    (horder : c.work.InOrder t id ⟨c.work.state, o, r⟩) {t' : T} {p : AgentM Bool} {confirmSeq : Int64}
    (hp : Function.update c.tasks t (remaining (k r)) t' = some p)
    (hcall : (work.job t').call = some (.handleConfirmSeqEvent confirmSeq))
    (htime : FoundInTime timeout (work.job t').steps) (hocc : occ.AtStart) : ¬work.Voiced su id occ := by
  intro hvoiced
  rcases tasks_act_cases hp with rfl | ⟨hne, hp⟩
  · rw [hacts.job_self] at hcall htime
    have hold : c.work.Voiced su id occ := by
      rcases hacts.voiced_cases hvoiced with hold | ⟨hacks, call, hcall', hmeets⟩
      · exact hold
      · -- the confirmation would have found the transfer late
        have hacking := ((hsound.ordered.tasks _ _ hrunning).1).ack id hacks
        rw [show (c.work.job t').call = _ from hcall] at hacking
        obtain ⟨-, timeout', now, hstarts, hlast, hlate⟩ := hacking
        rw [htimeout timeout' (hsound.accountable.recorded (c.work.has_job t') (fun _ hstep => hstep)
          hstarts)] at hlate
        rcases htime.of_snoc with ⟨-, htime⟩ | ⟨-, now', hreading, -⟩
        · obtain ⟨-, now', hlast', hnow⟩ := htime.lock
          rw [hlast] at hlast'
          cases hlast'
          exact absurd hlate hnow
        · rw [(of_acksFor hacks).1] at hreading
          cases hreading
    rcases htime.of_snoc with ⟨-, htime⟩ | ⟨-, now, hreading, hnow⟩
    · exact hc.early t' _ confirmSeq hrunning hcall htime occ hocc hold
    · exact Apart.reads hsound htimeout horder hreading hnow hocc hold
  · rw [hacts.job_of_ne hne] at hcall htime
    rcases hacts.voiced_cases hvoiced with hold | ⟨hacks, call, hcall', hmeets⟩
    · exact hc.early t' p confirmSeq hp hcall htime occ hocc hold
    · -- two threads would be under the lock of the start map
      obtain ⟨n, hn⟩ := hsound.locked t' p hp htime.lock.1
      obtain ⟨n', hn'⟩ := hsound.locked t _ hrunning (hsound.gives_up hrunning hcall' hacks hmeets hocc).2
      rw [hn] at hn'
      cases hn'
      exact hne rfl

/-- An operation in order gives up no transfer of which a `SendTx` was accepted, and submits none of
a transfer that was given up. -/
theorem Apart.act (hc : c.Apart su id timeout) (hsound : c.Sound su)
    (htimeout : ∀ timeout', c.work.Recorded su id timeout' → timeout' = timeout)
    (hrunning : c.tasks t = some (.op o k)) (hacts : Work.Acts t o c.work r work)
    (horder : c.work.InOrder t id ⟨c.work.state, o, r⟩) :
    (⟨work, Function.update c.tasks t (remaining (k r))⟩ : Crew .layer2 T).Apart su id timeout := by
  refine ⟨fun t' p confirmSeq hp hcall htime occ hocc =>
    hc.early_act hsound htimeout hrunning hacts horder hp hcall htime hocc, fun occ hocc hvoiced haccepted => ?_⟩
  rcases hacts.voiced_cases hvoiced with hold | ⟨hacks, call, hcall, hmeets⟩
  · rcases hacts.accepted_cases haccepted with haccepted | haccepts
    · exact hc.accepted occ hocc hold haccepted
    · have hreleasing := ((hsound.ordered.tasks t _ hrunning).1).sendTx id (sendsTx_of_accepts haccepts)
      obtain ⟨confirmSeq, timeout', hcall, hstarts, htime⟩ := hreleasing.layer2
      rw [htimeout timeout' (hsound.accountable.recorded (c.work.has_job t) (fun _ hstep => hstep)
        hstarts)] at htime
      exact hc.early t _ confirmSeq hrunning hcall htime occ hocc hold
  · have hwalks := (hsound.gives_up hrunning hcall hacks hmeets hocc).1
    rcases hacts.accepted_cases haccepted with haccepted | haccepts
    · exact horder.acks call hcall hwalks hacks haccepted
    · exact (of_acksFor hacks).2 id (sendsTx_of_accepts haccepts)

end Act

/-- In a run in order, no transfer is given up of which a `SendTx` was accepted. -/
theorem Apart.run {c c' : Crew .layer2 T} {labels : List (Label .layer2 T)} (hc : c.Apart su id timeout)
    (hsound : c.Sound su) (horder : c.InOrder su id labels) (hrun : c.run su labels = some c')
    (htimeout : ∀ timeout', c'.work.Recorded su id timeout' → timeout' = timeout) :
    c'.Apart su id timeout := by
  induction labels generalizing c with
  | nil =>
    cases hrun
    exact hc
  | cons label labels ih =>
    have hcontinues := run_continues hrun
    rw [Crew.run, List.foldlM_cons] at hrun
    obtain ⟨u, hu, hrest⟩ := Option.bind_eq_some_iff.mp hrun
    obtain ⟨hlabel, hlater⟩ := horder
    refine ih ?_ (hsound.steps (step_steps hu)) (hlater u hu) hrest
    cases label with
    | take t call =>
      cases step_steps hu with
      | take _ _ hidle => exact hc.take rfl rfl fun _ _ hq => (update_some_cases hq).imp_left And.left
    | act t answer =>
      simp only [Crew.step] at hu
      split at hu
      next o k hrunning =>
        obtain ⟨⟨r, work⟩, hwork, rfl⟩ := Option.map_eq_some_iff.mp hu
        have hnext : c.NextInOrder t id answer (.op o k) := hlabel _ hrunning
        exact hc.act hsound (fun timeout' hrec => htimeout timeout' (hrec.continues hcontinues)) hrunning
          (Work.step_acts hwork) (hnext _ hwork)
      next => cases hu
    | restart t =>
      cases hu
      refine hc.take rfl rfl fun t' q hq => ?_
      have hq' : Function.update (fun _ : T => (none : Option (AgentM Bool))) t (some _) t' = some q := hq
      rcases update_some_cases hq' with ⟨hself, -⟩ | ⟨_, hnone⟩
      · exact Or.inl hself
      · cases hnone

omit [DecidableEq T] in
/-- The send map holds entries only for a `SendTx` that was accepted. -/
theorem Accountable.accepted {c : Crew h T} (hc : c.Accountable su) {j : Job h} (hhas : c.work.Has j)
    {before : AgentState} {infos : List (Text × CrossTx)} {key : Text} {e : CrossTx}
    (hmem : (⟨before, .entries (.send h), infos⟩ : Step) ∈ j.steps) (hentry : (key, e) ∈ infos) :
    c.work.Accepted (e.info su.codec).crosstxid :=
  hc.reads j hhas _ hmem (.send h) _ ⟨rfl, _, hentry, rfl⟩

/-- When events and answers are in order, what is acknowledged after a `SendTx` was accepted before. -/
theorem Orderly.accepted {c : Crew h T} {labels : List (Label h T)} (horderly : c.Orderly su id labels)
    (hsound : c.Sound su) (hocc : ¬occ.AtStart) (hvoiced : c.work.Voiced su id occ) :
    c.work.Accepted id := by
  obtain ⟨j, hhas, call, hcall, before, step, after, hsteps, hmeets, hacks⟩ := hvoiced
  have hmem : ∀ step ∈ before, step ∈ j.steps := fun step hstep => by
    rw [hsteps]
    exact List.mem_append_left _ hstep
  cases hmeets with
  | refused | confirmedLate | timedOut => exact absurd trivial hocc
  | sent read about =>
    exact horderly.known ⟨j, hhas, _, hcall, before, step, after, hsteps, .sent read about, hacks⟩
  | found reaches late result read about =>
    obtain ⟨state, infos, key, hinfos, hentry⟩ := reaches.mem
    have hown := own_readCrossTxInfo read fun step hstep => horderly.own j hhas step
      (hmem _ (((Replays.suffix result).trans reaches.suffix).subset hstep))
    rw [← about, hown, (hsound.accountable.entries j hhas state _ infos (hmem _ hinfos) _ hentry).eq.1]
    exact hsound.accountable.accepted hhas (hmem _ hinfos) hentry
  | missing reaches late result about =>
    obtain ⟨state, infos, key, hinfos, hentry⟩ := reaches.mem
    rw [← about]
    exact hsound.accountable.accepted hhas (hmem _ hinfos) hentry

end Crew

section Decidable

variable [DecidableEq T] [Fintype T]

/-- The result of an ack that the operation submits. -/
def Op.ackResult : Op → Option Int32
  | .http _ (.submitTransaction _ (.sendAckedTx _ result _ _) _ _) => some result
  | _ => none

/-- An ack carries its result. -/
theorem Op.acksFor_iff {o : Op} : o.AcksFor h id ↔ ∃ v ∈ o.ackResult, o.Acks h id v := by
  refine ⟨fun ⟨v, hacks⟩ => ⟨v, ?_, hacks⟩, fun ⟨v, _, hacks⟩ => ⟨v, hacks⟩⟩
  cases o with
  | http l request =>
    cases request with
    | submitTransaction contract input =>
      cases input with
      | sendTx => exact hacks.elim
      | sendAckedTx => exact congrArg some hacks.2.2
    | getLedger | callContract | getTransactionHistory => exact hacks.elim
  | highResolution | dbPut | dbDelete | dbScan | lock | unlock | entries | emplace | erase
  | setAckTimeout | terminate => exact hacks.elim

instance (o : Op) : Decidable (o.AcksFor h id) :=
  match hresult : o.ackResult with
  | none => .isFalse fun hacks => by
      obtain ⟨v, hv, _⟩ := Op.acksFor_iff.mp hacks
      rw [hresult] at hv
      cases hv
  | some v => decidable_of_iff (o.Acks h id v) ⟨fun hacks => ⟨v, hacks⟩, fun hacks => by
      obtain ⟨v', hv', hacks⟩ := Op.acksFor_iff.mp hacks
      rw [hresult] at hv'
      cases hv'
      exact hacks⟩

instance (call : HandlerCall h) : Decidable call.WalksStart :=
  match call with
  | .handleConfirmSeqEvent _ | .startTxTimeOut => inferInstanceAs (Decidable True)
  | .handleStartTxEvent _ | .handleSendTxEvent _ | .handleSendAckdTxEvent _ | .sendTxTimeOut
  | .sendAckTimeOut | .replyAckTimeOut => inferInstanceAs (Decidable False)

instance (step : Step) : Decidable (step.Accepts h id) :=
  match step with
  | ⟨_, .http l (.submitTransaction _ (.sendTx crossTxId _ _ _ _) _ _), r⟩ =>
    inferInstanceAs (Decidable (l = h.other ∧ crossTxId = id ∧ (acceptedHash r).isSome))
  | ⟨_, .http _ (.submitTransaction _ (.sendAckedTx _ _ _ _) _ _), _⟩ | ⟨_, .http _ .getLedger, _⟩
  | ⟨_, .http _ (.callContract _ _), _⟩ | ⟨_, .http _ (.getTransactionHistory _), _⟩
  | ⟨_, .highResolution, _⟩ | ⟨_, .dbPut _ _, _⟩ | ⟨_, .dbDelete _, _⟩ | ⟨_, .dbScan _, _⟩
  | ⟨_, .lock _, _⟩ | ⟨_, .unlock _, _⟩ | ⟨_, .entries _, _⟩ | ⟨_, .emplace _ _ _, _⟩
  | ⟨_, .erase _ _, _⟩ | ⟨_, .setAckTimeout _ _ _, _⟩ | ⟨_, .terminate, _⟩ =>
    inferInstanceAs (Decidable False)

instance (w : Work h T) (t : T) (step : Step) : Decidable (w.InOrder t id step) :=
  -- the readings are compared; the instance for finite types would go through all times
  have : ∀ past : Int64, Decidable (∀ now ∈ step.reading, past ≤ now) := fun _ => Option.decidableForallMem _
  have : ∀ step' : Step, Decidable (∀ past ∈ step'.reading, ∀ now ∈ step.reading, past ≤ now) := fun _ =>
    Option.decidableForallMem _
  decidable_of_iff ((∀ j, w.Has j → ∀ step' ∈ j.steps, ∀ past ∈ step'.reading, ∀ now ∈ step.reading,
      past ≤ now) ∧ ((∃ call ∈ (w.job t).call, call.WalksStart) → step.op.AcksFor h id →
      ∀ j, w.Has j → ∀ step' ∈ j.steps, ¬step'.Accepts h id))
    ⟨fun ⟨hclock, hacks⟩ =>
      ⟨fun now hnow past ⟨j, hj, step', hstep', hpast⟩ => hclock j hj step' hstep' past hpast now hnow,
        fun call hcall hwalks hfor ⟨j, hj, step', hstep', haccepts⟩ =>
          hacks ⟨call, hcall, hwalks⟩ hfor j hj step' hstep' haccepts⟩,
    fun horder =>
      ⟨fun j hj step' hstep' past hpast now hnow => horder.clock now hnow past ⟨j, hj, step', hstep', hpast⟩,
        fun ⟨call, hcall, hwalks⟩ hfor j hj step' hstep' haccepts =>
          horder.acks call hcall hwalks hfor ⟨j, hj, step', hstep', haccepts⟩⟩⟩

instance (c : Crew h T) (t : T) (answer : Answer) (p : AgentM Bool) :
    Decidable (c.NextInOrder t id answer p) :=
  match p with
  | .op o _ => inferInstanceAs
      (Decidable (∀ after ∈ c.work.step t o answer, c.work.InOrder t id ⟨c.work.state, o, after.1⟩))
  | .ret _ => inferInstanceAs (Decidable True)

instance (c : Crew h T) (label : Crew.Label h T) : Decidable (c.LabelInOrder id label) :=
  match label with
  | .act t answer => inferInstanceAs (Decidable (∀ p ∈ c.tasks t, c.NextInOrder t id answer p))
  | .take _ _ | .restart _ => inferInstanceAs (Decidable True)

instance decidableInOrder (su : Setup) (id : Text) : (c : Crew h T) → (labels : List (Crew.Label h T)) →
    Decidable (c.InOrder su id labels)
  | _, [] => inferInstanceAs (Decidable True)
  | c, label :: rest =>
    have : ∀ c', Decidable (Crew.InOrder su id c' rest) := fun c' => decidableInOrder su id c' rest
    inferInstanceAs (Decidable (c.LabelInOrder id label ∧ ∀ c' ∈ c.step su label, Crew.InOrder su id c' rest))

end Decidable

namespace Formats

/-- A thread takes up a call and makes its operations. -/
def crewLabels (t : Bool) (call : HandlerCall h) (answers : List Answer) : List (Crew.Label h Bool) :=
  .take t call :: answers.map (Crew.Label.act t)

/-- It is confirmed past its timeout, and its ack is accepted. -/
def confirmedLate (confirmSeq now : Int64) (hash : String) : List (Crew.Label .layer2 Bool) :=
  crewLabels false (.handleConfirmSeqEvent confirmSeq) [.go, .go, .time now, .reply (ledgerReply 210),
    .reply (submitReply hash), .time now, .stored true, .go, .go]

end Formats

/-- The call handles a StartTx event. -/
def HandlerCall.isStart : HandlerCall h → Bool
  | .handleStartTxEvent _ => true
  | _ => false

/-- The StartTx event of a job, if it handles one. -/
def Job.isStart (j : Job h) : Bool := j.call.any HandlerCall.isStart

/-- The jobs of two threads. -/
def Work.jobs (w : Work h Bool) : List (Job h) := w.job false :: w.job true :: w.past

end CrosschainAgent
