import CrosschainAgent.Session.Calls

/-!
# What a program performed

The operations that a program performed, with their answers, decide how far it got and what it
returned: a program can be replayed from them. The results about single calls are stated over the
operations of the call.
-/

namespace CrosschainAgent

open Interaction Std

/-- The next of the performed operations. -/
def Step.next (o : Op) (steps : List Step) (r : o.Resp) (rest : List Step) : Prop :=
  ∃ before, steps = ⟨before, o, r⟩ :: rest

/-- The program performed the first of these operations and returned; the rest was left. -/
abbrev Replays {α : Type} (p : AgentM α) (steps : List Step) (a : α) (rest : List Step) : Prop :=
  Runs Step.next p steps a rest

/-- Operations that follow are left. -/
theorem Replays.append {α : Type} {p : AgentM α} {steps rest : List Step} {a : α}
    (hreplays : Replays p steps a rest) (more : List Step) :
    Replays p (steps ++ more) a (rest ++ more) := by
  refine hreplays.map (f := fun steps => steps ++ more) ?_
  rintro o steps r rest ⟨before, rfl⟩
  exact ⟨before, rfl⟩

/-- The operations decide what a program returned and what was left. -/
theorem Replays.unique {α : Type} {p : AgentM α} {steps rest rest' : List Step} {a a' : α}
    (hreplays : Replays p steps a rest) (hreplays' : Replays p steps a' rest') :
    a' = a ∧ rest' = rest := by
  induction p generalizing steps with
  | ret b =>
    obtain ⟨rfl, rfl⟩ := hreplays
    exact hreplays'
  | op o k ih =>
    obtain ⟨r, t, ⟨before, rfl⟩, hk⟩ := hreplays
    obtain ⟨r', t', ⟨before', heq⟩, hk'⟩ := hreplays'
    cases heq
    exact ih r hk hk'

/-- What is left is the end of what there was. -/
theorem Replays.suffix {α : Type} {p : AgentM α} {steps rest : List Step} {a : α}
    (hreplays : Replays p steps a rest) : rest <:+ steps := by
  refine hreplays.invariant (J := fun u => u <:+ steps) ?_ List.suffix_rfl
  rintro o _ r u ⟨before, rfl⟩ hsuffix
  exact (List.suffix_cons _ u).trans hsuffix

/-- What was performed comes before what is left. -/
theorem Replays.exists_prefix {α : Type} {p : AgentM α} {steps rest : List Step} {a : α}
    (hreplays : Replays p steps a rest) : ∃ first, steps = first ++ rest ∧ Replays p first a [] := by
  induction p generalizing steps with
  | ret b =>
    obtain ⟨ha, rfl⟩ := hreplays
    exact ⟨[], rfl, ha, rfl⟩
  | op o k ih =>
    obtain ⟨r, mid, ⟨before, rfl⟩, hk⟩ := hreplays
    obtain ⟨first, rfl, hfirst⟩ := ih r hk
    exact ⟨⟨before, o, r⟩ :: first, rfl, r, first, ⟨before, rfl⟩, hfirst⟩

/-- Two programs perform their operations one after the other. -/
theorem replays_bind {α β : Type} {p : AgentM α} {f : α → AgentM β} {steps : List Step} {b : β}
    (hreplays : Replays (p >>= f) steps b []) : ∃ a first second, steps = first ++ second ∧
      Replays p first a [] ∧ Replays (f a) second b [] := by
  obtain ⟨a, second, hp, hf⟩ := runs_bind.mp hreplays
  obtain ⟨first, rfl, hfirst⟩ := Replays.exists_prefix hp
  exact ⟨a, first, second, rfl, hfirst, hf⟩

/-- The operations that a program performed are among those it may perform. -/
theorem Replays.uses {α : Type} {p : AgentM α} {a : α} {steps : List Step} {P : Op → Prop}
    (hp : Uses P p) (hreplays : Replays p steps a []) : ∀ step ∈ steps, P step.op := by
  induction p generalizing steps with
  | ret b =>
    obtain ⟨_, rfl⟩ := hreplays
    intro step hstep
    cases hstep
  | op o k ih =>
    obtain ⟨r, rest, ⟨before, rfl⟩, hk⟩ := hreplays
    intro step hstep
    rcases List.mem_cons.mp hstep with rfl | hstep
    · exact hp.1
    · exact ih r (hp.2 r) hk step hstep

/-- A program without operations of a kind decides nothing about whether one was performed. -/
theorem performed_iff {α : Type} {p : AgentM α} {a : α} {steps rest : List Step} {P : Op → Prop}
    (hp : Uses (fun o => ¬P o) p) (hreplays : Replays p steps a rest) :
    (∃ step ∈ steps, P step.op) ↔ ∃ step ∈ rest, P step.op := by
  refine Runs.of_uses (J := fun u => (∃ step ∈ steps, P step.op) ↔ ∃ step ∈ u, P step.op) ?_ hp
    hreplays Iff.rfl
  rintro o _ r u hnot ⟨before, rfl⟩ hiff
  rw [hiff]
  simp only [List.mem_cons, exists_eq_or_imp]
  exact or_iff_right hnot

/-- What is asked of the result of a program can be asked of a result that is known. -/
theorem Replays.exists_iff {α : Type} {p : AgentM α} {steps rest : List Step} {a : α}
    (hreplays : Replays p steps a rest) {C : α → List Step → Prop} :
    (∃ a' rest', Replays p steps a' rest' ∧ C a' rest') ↔ C a rest := by
  constructor
  · rintro ⟨a', rest', hreplays', hC⟩
    obtain ⟨rfl, rfl⟩ := hreplays.unique hreplays'
    exact hC
  · exact fun hC => ⟨a, rest, hreplays, hC⟩

/-- When the steps replay to a value, that value is the one that is meant. -/
theorem Replays.exists_some_iff {α : Type} {p : AgentM (Option α)} {steps rest : List Step} {a : α}
    (hreplays : Replays p steps (some a) rest) {C : α → List Step → Prop} :
    (∃ a' rest', Replays p steps (some a') rest' ∧ C a' rest') ↔ C a rest := by
  constructor
  · rintro ⟨a', rest', hreplays', hC⟩
    obtain ⟨heq, rfl⟩ := hreplays.unique hreplays'
    cases heq
    exact hC
  · exact fun hC => ⟨a, rest, hreplays, hC⟩

/-- When the steps replay to no value, they replay to no other. -/
theorem Replays.not_exists_some {α : Type} {p : AgentM (Option α)} {steps rest : List Step}
    (hreplays : Replays p steps none rest) {C : α → List Step → Prop} :
    ¬∃ a' rest', Replays p steps (some a') rest' ∧ C a' rest' := by
  rintro ⟨a', rest', hreplays', _⟩
  exact nomatch (hreplays.unique hreplays').1

/-- When the steps replay to a value, all they replay to is that value. -/
theorem Replays.forall_some_iff {α : Type} {p : AgentM (Option α)} {steps rest : List Step} {a : α}
    (hreplays : Replays p steps (some a) rest) {C : α → List Step → Prop} :
    (∀ a' rest', Replays p steps (some a') rest' → C a' rest') ↔ C a rest := by
  constructor
  · exact fun hall => hall a rest hreplays
  · intro hC a' rest' hreplays'
    obtain ⟨heq, rfl⟩ := hreplays.unique hreplays'
    cases heq
    exact hC

/-- When the steps replay to no value, nothing is said of a value. -/
theorem Replays.forall_some_of_none {α : Type} {p : AgentM (Option α)} {steps rest : List Step}
    (hreplays : Replays p steps none rest) {C : α → List Step → Prop} :
    ∀ a' rest', Replays p steps (some a') rest' → C a' rest' := by
  intro a' rest' hreplays'
  exact nomatch (hreplays.unique hreplays').1

/-- What the steps leave over is determined. -/
theorem Replays.forall_iff {α : Type} {p : AgentM α} {steps rest : List Step} {a : α}
    (hreplays : Replays p steps a rest) {C : List Step → Prop} :
    (∀ rest', Replays p steps a rest' → C rest') ↔ C rest := by
  constructor
  · exact fun hall => hall rest hreplays
  · intro hC rest' hreplays'
    rwa [(hreplays.unique hreplays').2]

/-- When the steps replay to a value, nothing is said of its absence. -/
theorem Replays.forall_none_of_some {α : Type} {p : AgentM (Option α)} {steps rest : List Step} {a : α}
    (hreplays : Replays p steps (some a) rest) {C : List Step → Prop} :
    ∀ rest', Replays p steps none rest' → C rest' := by
  intro rest' hreplays'
  exact nomatch (hreplays.unique hreplays').1

/-- Every operation the program may perform, from these steps on, is allowed after the steps before
it. -/
def UsesAfter (P : List Step → Op → Prop) {α : Type} : AgentM α → List Step → Prop
  | .ret _, _ => True
  | .op o k, steps => P steps o ∧ ∀ before r, UsesAfter P (k r) (steps ++ [⟨before, o, r⟩])

section UsesAfter

variable {P : List Step → Op → Prop} {α β : Type} {steps : List Step}

/-- A program without operations uses none. -/
theorem UsesAfter.pure (a : α) : UsesAfter P (Pure.pure a : AgentM α) steps := trivial

/-- Sequencing: the second program goes on from what the first performed. -/
theorem UsesAfter.bind {p : AgentM α} {f : α → AgentM β} (hp : UsesAfter P p steps)
    (hf : ∀ a more, Replays p more a [] → UsesAfter P (f a) (steps ++ more)) :
    UsesAfter P (p >>= f) steps := by
  change UsesAfter P (p.bind f) steps
  induction p generalizing steps with
  | ret a =>
    have hrest := hf a [] ⟨rfl, rfl⟩
    rwa [List.append_nil] at hrest
  | op o k ih =>
    refine ⟨hp.1, fun before r => ih r (hp.2 before r) fun a more hreplays => ?_⟩
    have hfirst := hf a (⟨before, o, r⟩ :: more) ⟨r, more, ⟨before, rfl⟩, hreplays⟩
    rwa [List.append_assoc, List.singleton_append]

/-- Operations that are allowed whenever they are performed. -/
theorem UsesAfter.of_uses {Q : Op → Prop} {p : AgentM α} (hp : Uses Q p)
    (hQ : ∀ o more, Q o → P (steps ++ more) o) : UsesAfter P p steps := by
  induction p generalizing steps with
  | ret a => exact trivial
  | op o k ih =>
    refine ⟨?_, fun before r => ih r (hp.2 r) fun o' more ho' => ?_⟩
    · simpa using hQ o [] hp.1
    · rw [List.append_assoc]
      exact hQ o' _ ho'

/-- A conditional uses what the branch that is taken uses. -/
theorem UsesAfter.ite {c : Prop} [Decidable c] {p q : AgentM α} (hp : c → UsesAfter P p steps)
    (hq : ¬c → UsesAfter P q steps) : UsesAfter P (if c then p else q) steps := by
  split
  next hc => exact hp hc
  next hc => exact hq hc

/-- A loop: each round goes on from what the rounds before it performed. -/
theorem UsesAfter.forM {γ : Type} {f : γ → AgentM PUnit} {xs : List γ}
    (hround : ∀ done x rest more, xs = done ++ x :: rest → Replays (done.forM f) more ⟨⟩ [] →
      UsesAfter P (f x) (steps ++ more)) : UsesAfter P (xs.forM f) steps := by
  induction xs generalizing steps with
  | nil => exact trivial
  | cons x xs ih =>
    have hfirst : UsesAfter P (f x) steps := by
      simpa using hround [] x xs [] rfl ⟨rfl, rfl⟩
    refine UsesAfter.bind hfirst fun _ more hmine => ih fun done y rest more' heq hdone => ?_
    rw [List.append_assoc]
    refine hround (x :: done) y rest (more ++ more') (by rw [heq, List.cons_append]) ?_
    exact runs_bind.mpr ⟨⟨⟩, more', by simpa using hmine.append more', hdone⟩

end UsesAfter

namespace Session

/-- The operations that were performed between two sessions, the oldest first. -/
def Since (s s' : Session) (steps : List Step) : Prop := s'.trace = steps.reverse ++ s.trace

variable {s t s' : Session} {steps steps' : List Step}

/-- A session has made no steps since itself. -/
theorem Since.refl (s : Session) : s.Since s [] := rfl

/-- Steps are made one part after the other. -/
theorem Since.trans (hs : s.Since t steps) (ht : t.Since s' steps') : s.Since s' (steps ++ steps') := by
  unfold Since at *
  rw [ht, hs, List.reverse_append, List.append_assoc]

/-- The steps since a session are determined. -/
theorem Since.unique (hs : s.Since s' steps) (hs' : s.Since s' steps') : steps' = steps := by
  unfold Since at *
  exact List.reverse_inj.mp (List.append_cancel_right (hs'.symm.trans hs))

/-- The steps since a session are in the trace. -/
theorem Since.mem_trace (hs : s.Since s' steps) {step : Step} (hstep : step ∈ steps) :
    step ∈ s'.trace := by
  rw [Since] at hs
  rw [hs]
  exact List.mem_append_left _ (List.mem_reverse.mpr hstep)

/-- A run can be replayed from the operations it added. -/
theorem replays {α : Type} {p : AgentM α} {a : α} (hrun : Runs act p s a s') :
    ∃ steps, s.Since s' steps ∧ Replays p steps a [] := by
  induction p generalizing s with
  | ret b =>
    obtain ⟨ha, rfl⟩ := hrun
    exact ⟨[], Since.refl _, ha, rfl⟩
  | op o k ih =>
    obtain ⟨r, u, hact, hk⟩ := hrun
    obtain ⟨steps, hsince, hreplays⟩ := ih r hk
    have hfirst : s.Since u [⟨s.state, o, r⟩] := hact.2
    exact ⟨⟨s.state, o, r⟩ :: steps, hfirst.trans hsince, r, steps, ⟨s.state, rfl⟩, hreplays⟩

/-- When all operations between two sessions are of a kind, each of a run between them is. -/
theorem runs_of_since {α : Type} (ok : Step → Prop) {p : AgentM α} {a : α} (hrun : Runs act p s a s')
    (hsince : s.Since s' steps) (hsteps : ∀ step ∈ steps, ok step) :
    Runs (fun o u r u' => act o u r u' ∧ ok ⟨u.state, o, r⟩) p s a s' := by
  induction p generalizing s steps with
  | ret b => exact hrun
  | op o k ih =>
    obtain ⟨r, u, hact, hk⟩ := hrun
    obtain ⟨rest, hrest, _⟩ := replays hk
    have hfirst : s.Since u [⟨s.state, o, r⟩] := hact.2
    rw [← (hsince.unique (hfirst.trans hrest))] at hsteps
    exact ⟨r, u, ⟨hact, hsteps _ List.mem_cons_self⟩,
      ih r hk hrest fun step hstep => hsteps step (List.mem_cons_of_mem _ hstep)⟩

/-- What the first of two programs performed comes first. -/
theorem Since.replays_append {α : Type} {p : AgentM α} {a : α} {all : List Step}
    (hall : s.Since s' all) (hrun : Runs act p s a t) {rest : List Step} (hrest : t.Since s' rest) :
    Replays p all a rest := by
  obtain ⟨steps, hsince, hreplays⟩ := Session.replays hrun
  rw [(hsince.trans hrest).unique hall]
  exact hreplays.append rest

/-- What the first of two programs performed comes first, and then what the second did. -/
theorem Since.split {α β : Type} {p : AgentM α} {q : AgentM β} {a : α} {b : β} {all : List Step}
    (hall : s.Since s' all) (hfirst : Runs act p s a t) (hrest : Runs act q t b s') :
    ∃ rest, t.Since s' rest ∧ Replays p all a rest ∧ Replays q rest b [] := by
  obtain ⟨rest, hsince, hreplays⟩ := Session.replays hrest
  exact ⟨rest, hsince, hall.replays_append hfirst hsince, hreplays⟩

end Session

/-- The operations that leave the stores. -/
def Op.Remote : Op → Prop
  | .dbPut _ _ | .dbDelete _ | .emplace _ _ _ | .erase _ _ | .setAckTimeout _ _ _ => False
  | _ => True

/-- What is quiet leaves the stores. -/
theorem Op.Quiet.remote {o : Op} (hquiet : o.Quiet) : o.Remote := by
  cases o with
  | dbPut | dbDelete | emplace | erase | setAckTimeout => exact hquiet
  | highResolution | http | dbScan | lock | unlock | entries | terminate => exact trivial

/-- A remote operation leaves the stores. -/
theorem AgentState.Acts.eq_of_remote {a a' : AgentState} {o : Op} {r : o.Resp} (h : a.Acts o r a')
    (hremote : o.Remote) : a' = a := by
  cases h with
  | highResolution | http | dbScan | lock | unlock | entries => rfl
  | dbPut | dbDelete | emplace | erase | setAckTimeout => exact hremote.elim

/-- A program of remote operations leaves the stores. -/
theorem state_of_remote {α : Type} {p : AgentM α} (hp : Uses Op.Remote p) {s s' : Session} {a : α}
    (hrun : Runs Session.act p s a s') : s'.state = s.state := by
  refine hrun.of_uses (J := fun u => u.state = s.state) ?_ hp rfl
  intro o u r u' hremote hact hu
  exact (hact.1.eq_of_remote hremote).trans hu

/-- Quiet programs leave the stores. -/
theorem remote_of_quiet {α : Type} {p : AgentM α} (hp : Uses Op.Quiet p) : Uses Op.Remote p :=
  hp.mono fun _ hquiet => hquiet.remote

/-- A submission leaves the stores. -/
theorem remote_sendTransaction (su : Setup) (l : Layer) (input : TxInput) (amount : Int64) :
    Uses Op.Remote (Handle.sendTransaction su l input amount) := by
  refine Uses.bind (remote_of_quiet (quiet_getLayerSeq l)) fun seq => ?_
  cases seq with
  | none => exact Uses.pure _
  | some seq =>
    exact Uses.bind (Uses.perform trivial) fun _ => remote_of_quiet (quiet_orTerminate _)

end CrosschainAgent
