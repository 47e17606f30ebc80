import CrosschainAgent.Session.Calls

/-!
# A handler at work on several threads

The websocket threads and the timer call one handler, and the operations of their calls
interleave in any way the locks allow, while the clock, the database and the nodes answer in any
way. The process may be killed and started again at any point. Each call is recorded with the
operations that were performed for it.
-/

namespace CrosschainAgent

open Interaction Std

/-- A call that was taken up, with the operations performed for it, the oldest first. `Initialize`
is no call. -/
structure Job (h : Handle) where
  call : Option (HandlerCall h)
  steps : List Step

/-- What the threads share, the job each of them took up last, and the jobs before these. -/
structure Work (h : Handle) (T : Type) where
  state : AgentState
  locks : Store → Option (T × ℕ)
  job : T → Job h
  past : List (Job h)

/-- The threads, with what is left of their calls. -/
structure Crew (h : Handle) (T : Type) where
  work : Work h T
  tasks : T → Option (AgentM Bool)

variable {h : Handle} {T : Type} [DecidableEq T]

namespace Work

/-- No other thread holds the lock of a map. -/
def mayUse (w : Work h T) (t : T) (s : Store) : Bool :=
  match w.locks s with
  | none => true
  | some (t', _) => t' = t

/-- The thread need not wait for a lock. -/
def allows (w : Work h T) (t : T) : Op → Bool
  | .lock s | .entries s | .emplace s _ _ | .erase s _ | .setAckTimeout s _ _ => w.mayUse t s
  | .unlock s => (w.locks s).isSome && w.mayUse t s
  | _ => true

/-- The locks after an operation; the owner of a lock may lock it again. -/
def relock (w : Work h T) (t : T) : Op → Store → Option (T × ℕ)
  | .lock s => Function.update w.locks s (some (t, ((w.locks s).map (·.2)).getD 0 + 1))
  | .unlock s => Function.update w.locks s ((w.locks s).bind fun p =>
      if p.2 ≤ 1 then none else some (t, p.2 - 1))
  | _ => w.locks

/-- The job of a thread goes on. -/
def extend (w : Work h T) (t : T) (step : Step) : T → Job h :=
  Function.update w.job t ⟨(w.job t).call, (w.job t).steps ++ [step]⟩

/-- One operation of a thread. -/
def step (t : T) (w : Work h T) (o : Op) (answer : Answer) : Option (o.Resp × Work h T) :=
  if w.allows t o then
    (w.state.step o answer).map fun (r, state) =>
      (r, { w with state := state, locks := w.relock t o, job := w.extend t ⟨w.state, o, r⟩ })
  else none

/-- What an operation of a thread may do. -/
structure Acts (t : T) (o : Op) (w : Work h T) (r : o.Resp) (w' : Work h T) : Prop where
  allowed : w.allows t o = true
  state : w.state.Acts o r w'.state
  locks : w'.locks = w.relock t o
  job : w'.job = w.extend t ⟨w.state, o, r⟩
  past : w'.past = w.past

/-- An executed operation is one the stores and the locks allow. -/
theorem step_acts {t : T} {w w' : Work h T} {o : Op} {answer : Answer} {r : o.Resp}
    (hstep : w.step t o answer = some (r, w')) : Acts t o w r w' := by
  simp only [step, Option.ite_none_right_eq_some, Option.map_eq_some_iff, Prod.mk.injEq] at hstep
  obtain ⟨hallowed, ⟨r', state⟩, hstate, rfl, rfl⟩ := hstep
  exact ⟨hallowed, AgentState.step_acts hstate, rfl, rfl, rfl⟩

/-- The job was taken up. -/
def Has (w : Work h T) (j : Job h) : Prop := j ∈ w.past ∨ ∃ t, w.job t = j

/-- The thread takes up a job. -/
def take (w : Work h T) (t : T) (call : Option (HandlerCall h)) : Work h T :=
  { w with job := Function.update w.job t ⟨call, []⟩, past := w.job t :: w.past }

/-- Jobs only go on. -/
def Continues (w' w : Work h T) : Prop :=
  ∀ j, w.Has j → ∃ more, w'.Has ⟨j.call, j.steps ++ more⟩

omit [DecidableEq T] in
/-- The job of a thread is one of the jobs. -/
theorem has_job (w : Work h T) (t : T) : w.Has (w.job t) := Or.inr ⟨t, rfl⟩

/-- Taking a call up continues the work. -/
theorem continues_take (w : Work h T) (t : T) (call : Option (HandlerCall h)) :
    (w.take t call).Continues w := by
  intro j hhas
  refine ⟨[], ?_⟩
  rw [List.append_nil]
  rcases hhas with hpast | ⟨t', rfl⟩
  · exact Or.inl (List.mem_cons_of_mem _ hpast)
  · by_cases heq : t' = t
    · exact Or.inl (heq ▸ List.mem_cons_self)
    · exact Or.inr ⟨t', Function.update_of_ne heq _ _⟩

/-- A thread that takes a call up has made no steps of it. -/
theorem take_job_self (w : Work h T) (t : T) (call : Option (HandlerCall h)) :
    (w.take t call).job t = ⟨call, []⟩ := Function.update_self _ _ _

/-- Taking a call up leaves the jobs of the others. -/
theorem take_job_of_ne (w : Work h T) {t t' : T} (call : Option (HandlerCall h)) (hne : t' ≠ t) :
    (w.take t call).job t' = w.job t' := Function.update_of_ne hne _ _

/-- A job that is there after a thread has taken one up was there, or it is the new one. -/
theorem has_take {w : Work h T} {t : T} {call : Option (HandlerCall h)} {j : Job h}
    (hhas : (w.take t call).Has j) : w.Has j ∨ j = ⟨call, []⟩ := by
  rcases hhas with hpast | ⟨t', rfl⟩
  · rcases List.mem_cons.mp hpast with rfl | hpast
    · exact Or.inl (w.has_job t)
    · exact Or.inl (Or.inl hpast)
  · by_cases heq : t' = t
    · exact Or.inr (heq ▸ w.take_job_self t call)
    · exact Or.inl (Or.inr ⟨t', (w.take_job_of_ne call heq).symm⟩)

namespace Acts

variable {t : T} {o : Op} {r : o.Resp} {w w' : Work h T}

/-- An operation is one more step of its thread's job. -/
theorem job_self (hacts : Work.Acts t o w r w') :
    w'.job t = ⟨(w.job t).call, (w.job t).steps ++ [⟨w.state, o, r⟩]⟩ := by
  rw [hacts.job]
  exact Function.update_self _ _ _

/-- An operation leaves the jobs of the others. -/
theorem job_of_ne (hacts : Work.Acts t o w r w') {t' : T} (hne : t' ≠ t) : w'.job t' = w.job t' := by
  rw [hacts.job]
  exact Function.update_of_ne hne _ _

/-- An operation continues the work. -/
theorem continues (hacts : Work.Acts t o w r w') : w'.Continues w := by
  intro j hhas
  rcases hhas with hpast | ⟨t', rfl⟩
  · refine ⟨[], Or.inl ?_⟩
    rw [hacts.past, List.append_nil]
    exact hpast
  · by_cases heq : t' = t
    · exact ⟨[⟨w.state, o, r⟩], Or.inr ⟨t, heq ▸ hacts.job_self⟩⟩
    · exact ⟨[], Or.inr ⟨t', by rw [hacts.job_of_ne heq, List.append_nil]⟩⟩

/-- A job that is there after an operation was there, or it is the one that went on. -/
theorem has_cases (hacts : Work.Acts t o w r w') {j : Job h} (hhas : w'.Has j) :
    w.Has j ∨ j = ⟨(w.job t).call, (w.job t).steps ++ [⟨w.state, o, r⟩]⟩ := by
  rcases hhas with hpast | ⟨t', rfl⟩
  · exact Or.inl (Or.inl (hacts.past ▸ hpast))
  · by_cases heq : t' = t
    · exact Or.inr (heq ▸ hacts.job_self)
    · exact Or.inl (Or.inr ⟨t', (hacts.job_of_ne heq).symm⟩)

/-- A step of a job was there, or it is the new one. -/
theorem mem_steps (hacts : Work.Acts t o w r w') {j : Job h} (hhas : w'.Has j) {step : Step}
    (hstep : step ∈ j.steps) : (∃ j', w.Has j' ∧ step ∈ j'.steps) ∨ step = ⟨w.state, o, r⟩ := by
  rcases hacts.has_cases hhas with hhas | rfl
  · exact Or.inl ⟨j, hhas, hstep⟩
  · rcases List.mem_append.mp hstep with hstep | hstep
    · exact Or.inl ⟨w.job t, w.has_job t, hstep⟩
    · exact Or.inr (List.mem_singleton.mp hstep)

end Acts

end Work

namespace Crew

variable (su : Setup)

/-- What can happen: an idle thread takes up a call, a thread makes the next operation of its
call, or the process is killed and started again by a thread. -/
inductive Label (h : Handle) (T : Type) where
  | take (t : T) (call : HandlerCall h)
  | act (t : T) (answer : Answer)
  | restart (t : T)

/-- A process that starts with a database. -/
def start (db : Database) : Crew h T where
  work := ⟨⟨fun _ => ∅, db⟩, fun _ => none, fun _ => ⟨none, []⟩, []⟩
  tasks := fun _ => none

/-- What is left of a call; nothing, when it has returned. -/
def remaining : AgentM Bool → Option (AgentM Bool)
  | .ret _ => none
  | p => some p

/-- One step, if it is possible. -/
def step (c : Crew h T) : Label h T → Option (Crew h T)
  | .take t call =>
    match c.tasks t with
    | some _ => none
    | none => some
      { work := c.work.take t (some call), tasks := Function.update c.tasks t (some (call.run su)) }
  | .act t answer =>
    match c.tasks t with
    | some (.op o k) => (c.work.step t o answer).map fun (r, work) =>
        { work := work, tasks := Function.update c.tasks t (remaining (k r)) }
    | _ => none
  | .restart t => some
    { work := { c.work.take t none with state := c.work.state.restarted, locks := fun _ => none }
      tasks := Function.update (fun _ => none) t (some do
        HandlerCall.initializeHandle su h
        return true) }

/-- A run. -/
def run (c : Crew h T) (labels : List (Label h T)) : Option (Crew h T) := labels.foldlM (step su) c

/-- One step, by what it needs and what it leaves. -/
inductive Steps (c : Crew h T) : Label h T → Crew h T → Prop
  | take (t : T) (call : HandlerCall h) (idle : c.tasks t = none) : Steps c (.take t call)
      { work := c.work.take t (some call), tasks := Function.update c.tasks t (some (call.run su)) }
  | act (t : T) (answer : Answer) (o : Op) (k : o.Resp → AgentM Bool) (r : o.Resp) (work : Work h T)
      (running : c.tasks t = some (.op o k)) (acts : Work.Acts t o c.work r work) :
      Steps c (.act t answer)
        { work := work, tasks := Function.update c.tasks t (remaining (k r)) }
  | restart (t : T) : Steps c (.restart t)
    { work := { c.work.take t none with state := c.work.state.restarted, locks := fun _ => none }
      tasks := Function.update (fun _ => none) t (some do
        HandlerCall.initializeHandle su h
        return true) }

variable {su}

/-- Every step that is possible is one of these. -/
theorem step_steps {c c' : Crew h T} {label : Label h T} (hstep : c.step su label = some c') :
    Steps su c label c' := by
  cases label with
  | take t call =>
    simp only [step] at hstep
    split at hstep
    next => cases hstep
    next hidle =>
      cases hstep
      exact .take t call hidle
  | act t answer =>
    simp only [step] at hstep
    split at hstep
    next o k hrunning =>
      obtain ⟨⟨r, work⟩, hwork, rfl⟩ := Option.map_eq_some_iff.mp hstep
      exact .act t answer o k r work hrunning (Work.step_acts hwork)
    next => cases hstep
  | restart t =>
    cases hstep
    exact .restart t

/-- A thread that runs after an update is the one updated, or it ran before. -/
theorem update_some_cases {tasks : T → Option (AgentM Bool)} {t t' : T} {p q : AgentM Bool}
    (hq : Function.update tasks t (some p) t' = some q) :
    t' = t ∧ q = p ∨ t' ≠ t ∧ tasks t' = some q := by
  by_cases heq : t' = t
  · subst heq
    rw [Function.update_self] at hq
    exact Or.inl ⟨rfl, (Option.some_inj.mp hq).symm⟩
  · rw [Function.update_of_ne heq] at hq
    exact Or.inr ⟨heq, hq⟩

/-- What holds at first and survives every step holds after every run. -/
theorem run_induction {P : Crew h T → Prop} {c c' : Crew h T} {labels : List (Label h T)} (h0 : P c)
    (hstep : ∀ u label u', P u → Steps su u label u' → P u') (hrun : c.run su labels = some c') :
    P c' := by
  induction labels generalizing c with
  | nil =>
    cases hrun
    exact h0
  | cons label labels ih =>
    rw [run, List.foldlM_cons] at hrun
    obtain ⟨u, hu, hrest⟩ := Option.bind_eq_some_iff.mp hrun
    exact ih (hstep c label u h0 (step_steps hu)) hrest

end Crew

end CrosschainAgent
