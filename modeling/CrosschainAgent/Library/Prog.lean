import Mathlib.Tactic.Common
import Mathlib.Logic.Function.Basic

/-!
# Programs that act on a shared world

A program is a tree of operations, each followed by a continuation on its answer; the tree
fixes no meaning for the operations. `Runs` lets one program act alone on a state, `Reaches`
stops it on the way, and `Ends` lists what it performed, whatever was answered. `Rules` is a
rely-guarantee logic for programs that act on a world which other parties keep changing: every
change, whoever makes it, keeps an invariant and moves the world forward along a preorder, and
a program may rely on nothing else between two of its own operations.
-/

namespace Interaction

universe u

variable {Op : Type} {Resp : Op → Type} {α β : Type} {W S : Type u}

/-- A program: a result, or an operation and what to do with its answer. -/
inductive Prog (Op : Type) (Resp : Op → Type) (α : Type) where
  | ret (a : α)
  | op (o : Op) (k : Resp o → Prog Op Resp α)

/-- Run the first program, then the one its result selects. -/
def Prog.bind : Prog Op Resp α → (α → Prog Op Resp β) → Prog Op Resp β
  | .ret a, f => f a
  | .op o k, f => .op o fun r => (k r).bind f

/-- The program of one operation. -/
def perform (o : Op) : Prog Op Resp (Resp o) := .op o .ret

/-- Returning the result adds nothing. -/
theorem Prog.bind_ret (p : Prog Op Resp α) : p.bind .ret = p := by
  induction p with
  | ret a => rfl
  | op o k ih => exact congrArg (Prog.op o) (funext ih)

/-- Sequencing is associative. -/
theorem Prog.bind_bind {γ : Type} (p : Prog Op Resp α) (f : α → Prog Op Resp β)
    (g : β → Prog Op Resp γ) : (p.bind f).bind g = p.bind fun a => (f a).bind g := by
  induction p with
  | ret a => rfl
  | op o k ih => exact congrArg (Prog.op o) (funext ih)

instance : Monad (Prog Op Resp) where
  pure := .ret
  bind := Prog.bind

instance : LawfulMonad (Prog Op Resp) :=
  LawfulMonad.mk' _ (fun p => Prog.bind_ret p) (fun _ _ => rfl) (fun p f g => Prog.bind_bind p f g)

section Sequential

variable {act : (o : Op) → S → Resp o → S → Prop}

/-- The program, acting alone from the first state, ends with the result in the second. -/
def Runs (act : (o : Op) → S → Resp o → S → Prop) : Prog Op Resp α → S → α → S → Prop
  | .ret a, s, a', s' => a' = a ∧ s' = s
  | .op o k, s, a', s' => ∃ r t, act o s r t ∧ Runs act (k r) t a' s'

/-- A program without operations returns and leaves the state. -/
@[simp] theorem runs_pure {a a' : α} {s s' : S} :
    Runs act (pure a) s a' s' ↔ a' = a ∧ s' = s := Iff.rfl

/-- The program of one operation does that operation. -/
@[simp] theorem runs_perform {o : Op} {s s' : S} {r : Resp o} :
    Runs act (perform o) s r s' ↔ act o s r s' := by
  constructor
  · rintro ⟨r', t, h, rfl, rfl⟩
    exact h
  · exact fun h => ⟨r, s', h, rfl, rfl⟩

/-- A run goes through in any states that the operations carry along. -/
theorem Runs.map {S' : Type u} {act' : (o : Op) → S' → Resp o → S' → Prop} {f : S → S'}
    (hf : ∀ o s r s', act o s r s' → act' o (f s) r (f s')) {p : Prog Op Resp α} {s s' : S} {a : α}
    (h : Runs act p s a s') : Runs act' p (f s) a (f s') := by
  induction p generalizing s with
  | ret b =>
    obtain ⟨ha, rfl⟩ := h
    exact ⟨ha, rfl⟩
  | op o k ih =>
    obtain ⟨r, t, hr, hk⟩ := h
    exact ⟨r, f t, hf o s r t hr, ih r hk⟩

/-- A sequence of two programs runs by running the one and then the other. -/
@[simp] theorem runs_bind {p : Prog Op Resp α} {f : α → Prog Op Resp β} {s s' : S} {b : β} :
    Runs act (p >>= f) s b s' ↔ ∃ a t, Runs act p s a t ∧ Runs act (f a) t b s' := by
  change Runs act (p.bind f) s b s' ↔ _
  induction p generalizing s with
  | ret a =>
    constructor
    · exact fun h => ⟨a, s, ⟨rfl, rfl⟩, h⟩
    · rintro ⟨a', t, ⟨rfl, rfl⟩, h⟩
      exact h
  | op o k ih =>
    constructor
    · rintro ⟨r, t, hact, h⟩
      obtain ⟨a, u, hk, hf⟩ := (ih r).mp h
      exact ⟨a, u, ⟨r, t, hact, hk⟩, hf⟩
    · rintro ⟨a, u, ⟨r, t, hact, hk⟩, hf⟩
      exact ⟨r, t, hact, (ih r).mpr ⟨a, u, hk, hf⟩⟩

/-- Two sequences that begin with the same program and are the same go on alike from every result
it may have. -/
theorem Runs.bind_inj {p : Prog Op Resp α} {f g : α → Prog Op Resp β} {s s' : S} {a : α}
    (h : Runs act p s a s') (heq : p >>= f = p >>= g) : f a = g a := by
  change p.bind f = p.bind g at heq
  induction p generalizing s with
  | ret b =>
    obtain ⟨rfl, _⟩ := h
    exact heq
  | op o k ih =>
    obtain ⟨r, t, _, hk⟩ := h
    have hrest : (fun r => (k r).bind f) = fun r => (k r).bind g := by
      simpa [Prog.bind] using heq
    exact ih r hk (congrFun hrest r)

/-- What every operation of a program keeps, the program keeps. -/
theorem Runs.invariant {J : S → Prop} (hact : ∀ o s r s', act o s r s' → J s → J s')
    {p : Prog Op Resp α} {s s' : S} {a : α} (h : Runs act p s a s') (hs : J s) : J s' := by
  induction p generalizing s with
  | ret b =>
    obtain ⟨_, rfl⟩ := h
    exact hs
  | op o k ih =>
    obtain ⟨r, t, hr, hk⟩ := h
    exact ih r hk (hact o s r t hr hs)

/-- A loop keeps what each of its rounds keeps. -/
theorem Runs.forM {γ : Type} {J : S → Prop} {f : γ → Prog Op Resp PUnit} {xs : List γ} {s s' : S}
    {a : PUnit} (h : Runs act (xs.forM f) s a s') (hs : J s)
    (hround : ∀ x ∈ xs, ∀ t t', J t → Runs act (f x) t ⟨⟩ t' → J t') : J s' := by
  induction xs generalizing s with
  | nil =>
    obtain ⟨_, rfl⟩ := h
    exact hs
  | cons x xs ih =>
    obtain ⟨_, t, hx, hxs⟩ := runs_bind.mp h
    exact ih hxs (hround x (List.mem_cons_self ..) _ _ hs hx)
      fun y hy => hround y (List.mem_cons_of_mem _ hy)

/-- The rounds of a loop can be made in two parts. -/
theorem runs_forM_append {γ : Type} {f : γ → Prog Op Resp PUnit} {xs ys : List γ} {s s' : S}
    {a : PUnit} : Runs act ((xs ++ ys).forM f) s a s' ↔
      ∃ t, Runs act (xs.forM f) s ⟨⟩ t ∧ Runs act (ys.forM f) t a s' := by
  induction xs generalizing s with
  | nil =>
    constructor
    · exact fun h => ⟨s, runs_pure.mpr ⟨rfl, rfl⟩, h⟩
    · rintro ⟨t, hnil, h⟩
      obtain ⟨_, rfl⟩ := runs_pure.mp hnil
      exact h
  | cons x xs ih =>
    constructor
    · intro h
      obtain ⟨_, u, hx, hrest⟩ := runs_bind.mp h
      obtain ⟨t, hxs, hys⟩ := ih.mp hrest
      exact ⟨t, runs_bind.mpr ⟨_, u, hx, hxs⟩, hys⟩
    · rintro ⟨t, hfirst, hys⟩
      obtain ⟨_, u, hx, hxs⟩ := runs_bind.mp hfirst
      exact runs_bind.mpr ⟨_, u, hx, ih.mpr ⟨t, hxs, hys⟩⟩

/-- The program, acting alone from the first state, may be stopped in the second: at its end, or
between any two of its operations. -/
def Reaches (act : (o : Op) → S → Resp o → S → Prop) : Prog Op Resp α → S → S → Prop
  | .ret _, s, s' => s' = s
  | .op o k, s, s' => s' = s ∨ ∃ r t, act o s r t ∧ Reaches act (k r) t s'

/-- A program reaches itself, before anything is done. -/
theorem Reaches.refl (p : Prog Op Resp α) (s : S) : Reaches act p s s := by
  cases p with
  | ret a => rfl
  | op o k => exact Or.inl rfl

/-- A program that runs to its end reaches it. -/
theorem Runs.reaches {p : Prog Op Resp α} {s s' : S} {a : α} (h : Runs act p s a s') :
    Reaches act p s s' := by
  induction p generalizing s with
  | ret b => exact h.2
  | op o k ih =>
    obtain ⟨r, t, hact, hk⟩ := h
    exact Or.inr ⟨r, t, hact, ih r hk⟩

/-- What every operation of a program keeps holds wherever the program is stopped. -/
theorem Reaches.invariant {J : S → Prop} (hact : ∀ o s r s', act o s r s' → J s → J s')
    {p : Prog Op Resp α} {s s' : S} (h : Reaches act p s s') (hs : J s) : J s' := by
  induction p generalizing s with
  | ret b =>
    cases h
    exact hs
  | op o k ih =>
    rcases h with rfl | ⟨r, t, hr, hk⟩
    · exact hs
    · exact ih r hk (hact o s r t hr hs)

/-- Every operation the program may perform is one of these. -/
def Uses (P : Op → Prop) : Prog Op Resp α → Prop
  | .ret _ => True
  | .op o k => P o ∧ ∀ r, Uses P (k r)

/-- A program without operations uses none. -/
theorem Uses.pure {P : Op → Prop} (a : α) : Uses P (Pure.pure a : Prog Op Resp α) := trivial

/-- One operation is used when it may be. -/
theorem Uses.perform {P : Op → Prop} {o : Op} (h : P o) : Uses P (perform o : Prog Op Resp _) :=
  ⟨h, fun _ => trivial⟩

/-- What both parts use, the sequence uses. -/
theorem Uses.bind {P : Op → Prop} {p : Prog Op Resp α} {f : α → Prog Op Resp β} (hp : Uses P p)
    (hf : ∀ a, Uses P (f a)) : Uses P (p >>= f) := by
  change Uses P (p.bind f)
  induction p with
  | ret a => exact hf a
  | op o k ih => exact ⟨hp.1, fun r => ih r (hp.2 r)⟩

/-- A loop uses what its rounds use. -/
theorem Uses.forM {P : Op → Prop} {γ : Type} {f : γ → Prog Op Resp PUnit} {xs : List γ}
    (h : ∀ x ∈ xs, Uses P (f x)) : Uses P (xs.forM f) := by
  induction xs with
  | nil => exact trivial
  | cons x xs ih =>
    exact Uses.bind (h x (List.mem_cons_self ..)) fun _ => ih fun y hy => h y (List.mem_cons_of_mem _ hy)

/-- A conditional uses what its branches use. -/
theorem Uses.ite {P : Op → Prop} {c : Prop} [Decidable c] {p q : Prog Op Resp α} (hp : Uses P p)
    (hq : Uses P q) : Uses P (if c then p else q) := by
  split
  · exact hp
  · exact hq

/-- A weaker predicate allows more operations. -/
theorem Uses.mono {P Q : Op → Prop} (hPQ : ∀ o, P o → Q o) {p : Prog Op Resp α} (h : Uses P p) :
    Uses Q p := by
  induction p with
  | ret a => exact trivial
  | op o k ih => exact ⟨hPQ o h.1, fun r => ih r (h.2 r)⟩

/-- All that a program performed: up to its end, or up to an operation that returns nothing. -/
def Ends : Prog Op Resp α → List ((o : Op) × Resp o) → Prop
  | .ret _, trace => trace = []
  | .op o k, trace => IsEmpty (Resp o) ∧ trace = [] ∨ ∃ r rest, trace = ⟨o, r⟩ :: rest ∧ Ends (k r) rest

/-- A program without operations ends with the empty trace. -/
@[simp] theorem ends_pure {a : α} {trace : List ((o : Op) × Resp o)} :
    Ends (pure a : Prog Op Resp α) trace ↔ trace = [] := Iff.rfl

/-- To leave out the result of a program is to perform what the program performs. -/
theorem ends_discard {p : Prog Op Resp α} {b : β} {trace : List ((o : Op) × Resp o)} :
    Ends (p >>= fun _ => pure b) trace ↔ Ends p trace := by
  change Ends (p.bind fun _ => .ret b) trace ↔ Ends p trace
  induction p generalizing trace with
  | ret a => exact Iff.rfl
  | op o k ih =>
    refine or_congr Iff.rfl (exists_congr fun r => exists_congr fun rest => ?_)
    exact and_congr Iff.rfl (ih r)

/-- A program that begins with an operation goes on from its answer. -/
theorem ends_perform_bind {o : Op} [Nonempty (Resp o)] {f : Resp o → Prog Op Resp α}
    {trace : List ((o : Op) × Resp o)} :
    Ends (perform o >>= f) trace ↔ ∃ r rest, trace = ⟨o, r⟩ :: rest ∧ Ends (f r) rest := by
  constructor
  · rintro (⟨hempty, _⟩ | hrest)
    · exact hempty.elim (Classical.arbitrary _)
    · exact hrest
  · exact Or.inr

/-- A program that ends with an operation that returns nothing performs no more. -/
theorem ends_op_of_isEmpty {o : Op} [IsEmpty (Resp o)] {k : Resp o → Prog Op Resp α}
    {trace : List ((o : Op) × Resp o)} : Ends (.op o k) trace ↔ trace = [] := by
  constructor
  · rintro (⟨_, htrace⟩ | ⟨r, _⟩)
    · exact htrace
    · exact isEmptyElim r
  · exact fun htrace => Or.inl ⟨inferInstance, htrace⟩

/-- A program whose operations are among those of another signature. -/
def Prog.embed {Op' : Type} {Resp' : Op' → Type} (f : Op → Op') (g : ∀ o, Resp' (f o) → Resp o) :
    Prog Op Resp α → Prog Op' Resp' α
  | .ret a => .ret a
  | .op o k => .op (f o) fun r => (k (g o r)).embed f g

/-- An embedded program uses what the operations of the program become. -/
theorem Uses.embed {Op' : Type} {Resp' : Op' → Type} {f : Op → Op'} {g : ∀ o, Resp' (f o) → Resp o}
    {P : Op' → Prop} {p : Prog Op Resp α} (h : Uses (fun o => P (f o)) p) : Uses P (p.embed f g) := by
  induction p with
  | ret a => exact trivial
  | op o k ih => exact ⟨h.1, fun r => ih _ (h.2 _)⟩

/-- What the operations it uses keep, the program keeps. -/
theorem Runs.of_uses {P : Op → Prop} {J : S → Prop}
    (hact : ∀ o s r s', P o → act o s r s' → J s → J s') {p : Prog Op Resp α} (huses : Uses P p)
    {s s' : S} {a : α} (h : Runs act p s a s') (hs : J s) : J s' := by
  induction p generalizing s with
  | ret b =>
    obtain ⟨_, rfl⟩ := h
    exact hs
  | op o k ih =>
    obtain ⟨r, t, hr, hk⟩ := h
    exact ih r (huses.2 r) hk (hact o s r t huses.1 hr hs)

/-- What the operations it uses keep holds wherever the program is stopped. -/
theorem Reaches.of_uses {P : Op → Prop} {J : S → Prop}
    (hact : ∀ o s r s', P o → act o s r s' → J s → J s') {p : Prog Op Resp α} (huses : Uses P p)
    {s s' : S} (h : Reaches act p s s') (hs : J s) : J s' := by
  induction p generalizing s with
  | ret b =>
    cases h
    exact hs
  | op o k ih =>
    rcases h with rfl | ⟨r, t, hr, hk⟩
    · exact hs
    · exact ih r (huses.2 r) hk (hact o s r t huses.1 hr hs)

/-- Where a program is stopped tells of all its operations what going back along them keeps. -/
theorem Reaches.of_last {C : S → Prop} (hback : ∀ o s r s', act o s r s' → C s' → C s)
    {p : Prog Op Resp α} {s s' : S} (h : Reaches act p s s') (hs : C s') :
    C s ∧ Reaches (fun o u r u' => act o u r u' ∧ C u') p s s' := by
  induction p generalizing s with
  | ret b =>
    cases h
    exact ⟨hs, rfl⟩
  | op o k ih =>
    rcases h with rfl | ⟨r, t, hact, hk⟩
    · exact ⟨hs, Or.inl rfl⟩
    · obtain ⟨ht, hk⟩ := ih r hk
      exact ⟨hback o s r t hact ht, Or.inr ⟨r, t, ⟨hact, ht⟩, hk⟩⟩

/-- Let the program act alone on a state, taking one answer from a list for each operation;
nothing comes out when an answer is missing or does not fit. -/
def runWith {A : Type} (step : (o : Op) → A → S → Option (Resp o × S)) :
    Prog Op Resp α → List A → S → Option (α × S)
  | .ret a, _, s => some (a, s)
  | .op _ _, [], _ => none
  | .op o k, answer :: answers, s =>
    match step o answer s with
    | some (r, s') => runWith step (k r) answers s'
    | none => none

/-- What is computed from a list of answers is a run. -/
theorem runs_of_runWith {A : Type} {step : (o : Op) → A → S → Option (Resp o × S)}
    (hstep : ∀ o answer s r s', step o answer s = some (r, s') → act o s r s')
    {p : Prog Op Resp α} {answers : List A} {s s' : S} {a : α}
    (h : runWith step p answers s = some (a, s')) : Runs act p s a s' := by
  induction p generalizing answers s with
  | ret b =>
    cases h
    exact ⟨rfl, rfl⟩
  | op o k ih =>
    cases answers with
    | nil => cases h
    | cons answer answers =>
      unfold runWith at h
      split at h
      next r t ht => exact ⟨r, t, hstep o answer s r t ht, ih r h⟩
      next => cases h

end Sequential

/-- How the members of `T` may use operations on a shared world. Every change keeps `Inv` and
moves the world along `Later`; between two operations of one member the world moves along the
`Rely` of that member, which is what the changes of all others amount to. -/
structure Rules (T : Type) (Op : Type) (Resp : Op → Type) (W : Type u) where
  Inv : W → Prop
  Later : W → W → Prop
  Rely : T → W → W → Prop
  Pre : T → Op → W → Prop
  act : T → (o : Op) → W → Resp o → W → Prop
  later_refl : ∀ w, Later w w
  later_trans : ∀ w w' w'', Later w w' → Later w' w'' → Later w w''
  rely_refl : ∀ t w, Rely t w w
  rely_trans : ∀ t w w' w'', Rely t w w' → Rely t w' w'' → Rely t w w''
  later_of_rely : ∀ t w w', Rely t w w' → Later w w'
  sound : ∀ t o w r w', Inv w → Pre t o w → act t o w r w' →
    Inv w' ∧ Later w w' ∧ ∀ t', t' ≠ t → Rely t' w w'

section Rely

variable {T : Type} {R : Rules T Op Resp W} {t : T}

/-- From this world on, whatever the others do, the program of `t` uses its operations only
where their preconditions hold, and its result satisfies `Q`. -/
def Safe (R : Rules T Op Resp W) (t : T) (Q : α → W → Prop) : Prog Op Resp α → W → Prop
  | .ret a, w => ∀ w', R.Rely t w w' → R.Inv w' → Q a w'
  | .op o k, w => ∀ w', R.Rely t w w' → R.Inv w' →
      R.Pre t o w' ∧ ∀ r w'', R.act t o w' r w'' → Safe R t Q (k r) w''

/-- Moves of the others do not make a safe program unsafe. -/
theorem Safe.rely {Q : α → W → Prop} {p : Prog Op Resp α} {w w' : W} (h : Safe R t Q p w)
    (hrely : R.Rely t w w') : Safe R t Q p w' := by
  cases p with
  | ret a => exact fun u hu hinv => h u (R.rely_trans _ _ _ _ hrely hu) hinv
  | op o k => exact fun u hu hinv => h u (R.rely_trans _ _ _ _ hrely hu) hinv

/-- To be safe from now on is to be safe whenever the world is looked at from now on. -/
theorem Safe.of_rely {Q : α → W → Prop} {p : Prog Op Resp α} {w : W}
    (h : ∀ w', R.Rely t w w' → R.Inv w' → Safe R t Q p w') : Safe R t Q p w := by
  cases p with
  | ret a => exact fun u hu hinv => h u hu hinv u (R.rely_refl t u) hinv
  | op o k => exact fun u hu hinv => h u hu hinv u (R.rely_refl t u) hinv

/-- A result may be used where less is asked of it. -/
theorem Safe.mono {Q Q' : α → W → Prop} {p : Prog Op Resp α} {w : W} (h : Safe R t Q p w)
    (hQ : ∀ a w', R.Later w w' → R.Inv w' → Q a w' → Q' a w') : Safe R t Q' p w := by
  induction p generalizing w with
  | ret a => exact fun u hu hinv => hQ a u (R.later_of_rely _ _ _ hu) hinv (h u hu hinv)
  | op o k ih =>
    intro u hu hinv
    obtain ⟨hpre, hk⟩ := h u hu hinv
    refine ⟨hpre, fun r v hv => ih r (hk r v hv) fun a w' hw' => hQ a w' ?_⟩
    have hmove : R.Later u v := (R.sound _ _ _ _ _ hinv hpre hv).2.1
    exact R.later_trans _ _ _ (R.later_of_rely _ _ _ hu) (R.later_trans _ _ _ hmove hw')

/-- A result is safe when its postcondition holds whatever the others do meanwhile. -/
theorem Safe.pure {Q : α → W → Prop} {a : α} {w : W}
    (h : ∀ w', R.Rely t w w' → R.Inv w' → Q a w') : Safe R t Q (pure a) w := h

/-- One operation is safe where its precondition holds from now on. -/
theorem Safe.perform {o : Op} {Q : Resp o → W → Prop} {w : W}
    (hpre : ∀ w', R.Rely t w w' → R.Inv w' → R.Pre t o w')
    (hpost : ∀ w' r w'', R.Rely t w w' → R.Inv w' → R.act t o w' r w'' →
      ∀ v, R.Rely t w'' v → R.Inv v → Q r v) : Safe R t Q (perform o) w :=
  fun w' hw' hinv => ⟨hpre w' hw' hinv, fun r w'' hact v hv hinv' =>
    hpost w' r w'' hw' hinv hact v hv hinv'⟩

/-- Sequencing: the second program is safe wherever the first may leave the world. -/
theorem Safe.bind {Q : β → W → Prop} {p : Prog Op Resp α} {f : α → Prog Op Resp β} {w : W}
    (h : Safe R t (fun a w' => Safe R t Q (f a) w') p w) : Safe R t Q (p >>= f) w := by
  change Safe R t Q (p.bind f) w
  induction p generalizing w with
  | ret a => exact Safe.of_rely h
  | op o k ih =>
    intro w' hw' hinv
    obtain ⟨hpre, hk⟩ := h w' hw' hinv
    exact ⟨hpre, fun r w'' hact => ih r (hk r w'' hact)⟩

/-- A program is safe if the preconditions of its operations hold from now on. -/
theorem Safe.of_uses_later {P : Op → Prop} {p : Prog Op Resp α} (h : Uses P p) {w : W}
    (hpre : ∀ o w', P o → R.Later w w' → R.Inv w' → R.Pre t o w') :
    Safe R t (fun _ _ => True) p w := by
  induction p generalizing w with
  | ret a => exact fun _ _ _ => trivial
  | op o k ih =>
    intro u hu hinv
    have hlater := R.later_of_rely t w u hu
    have hnow := hpre o u h.1 hlater hinv
    refine ⟨hnow, fun r v hv => ih r (h.2 r) fun o' w' ho' hw' => hpre o' w' ho' ?_⟩
    exact R.later_trans _ _ _ hlater (R.later_trans _ _ _ (R.sound _ _ _ _ _ hinv hnow hv).2.1 hw')

/-- A program is safe if its operations have no precondition. -/
theorem Safe.of_uses {P : Op → Prop} (hpre : ∀ o w, P o → R.Inv w → R.Pre t o w) {p : Prog Op Resp α}
    (h : Uses P p) {w : W} : Safe R t (fun _ _ => True) p w :=
  Safe.of_uses_later h fun o w' ho _ => hpre o w' ho

/-- A loop is safe when each round passes on what the rounds after it need. -/
theorem Safe.forM {γ : Type} {J : List γ → W → Prop} {f : γ → Prog Op Resp PUnit}
    (hstable : ∀ xs w w', R.Rely t w w' → J xs w → J xs w')
    (hround : ∀ x xs w, R.Inv w → J (x :: xs) w → Safe R t (fun _ => J xs) (f x) w)
    {xs : List γ} {w : W} (h : J xs w) : Safe R t (fun _ => J []) (xs.forM f) w := by
  induction xs generalizing w with
  | nil => exact fun w' hw' _ => hstable _ _ _ hw' h
  | cons x xs ih =>
    refine Safe.bind (Safe.of_rely fun w' hw' hinv => ?_)
    exact (hround x xs w' hinv (hstable _ _ _ hw' h)).mono fun _ _ _ _ hJ => ih hJ

/-- A loop is safe when each round is, at whatever later time it starts. -/
theorem Safe.forM_later {γ : Type} {f : γ → Prog Op Resp PUnit} {xs : List γ} {w : W}
    (h : ∀ x ∈ xs, ∀ w', R.Later w w' → R.Inv w' → Safe R t (fun _ _ => True) (f x) w') :
    Safe R t (fun _ _ => True) (xs.forM f) w := by
  let J : List γ → W → Prop := fun ys w' => R.Later w w' ∧ ∀ y ∈ ys, y ∈ xs
  have hstable : ∀ ys u v, R.Rely t u v → J ys u → J ys v := fun ys u v huv hJ =>
    ⟨R.later_trans _ _ _ hJ.1 (R.later_of_rely _ _ _ huv), hJ.2⟩
  have hround : ∀ y ys u, R.Inv u → J (y :: ys) u → Safe R t (fun _ => J ys) (f y) u := by
    intro y ys u hinv hJ
    refine (h y (hJ.2 y (List.mem_cons_self ..)) u hJ.1 hinv).mono fun _ v hv _ _ => ?_
    exact ⟨R.later_trans _ _ _ hJ.1 hv, fun z hz => hJ.2 z (List.mem_cons_of_mem _ hz)⟩
  exact (Safe.forM hstable hround ⟨R.later_refl w, fun _ hy => hy⟩).mono fun _ _ _ _ _ => trivial

/-- A safe program that acts alone keeps the invariant and ends where its result satisfies
`Q`. -/
theorem Safe.of_runs {Q : α → W → Prop} {p : Prog Op Resp α} {w w' : W} {a : α}
    (h : Safe R t Q p w) (hinv : R.Inv w) (hruns : Runs (R.act t) p w a w') :
    R.Inv w' ∧ R.Later w w' ∧ Q a w' := by
  induction p generalizing w with
  | ret b =>
    obtain ⟨rfl, rfl⟩ := hruns
    exact ⟨hinv, R.later_refl _, h _ (R.rely_refl t _) hinv⟩
  | op o k ih =>
    obtain ⟨r, u, hact, hk⟩ := hruns
    obtain ⟨hpre, hsafe⟩ := h w (R.rely_refl t w) hinv
    obtain ⟨hinv', hlater, _⟩ := R.sound _ _ _ _ _ hinv hpre hact
    obtain ⟨hend, hlater', hQ⟩ := ih r (hsafe r u hact) hinv' hk
    exact ⟨hend, R.later_trans _ _ _ hlater hlater', hQ⟩

/-- A safe program that acts alone keeps the invariant wherever it is stopped. -/
theorem Safe.of_reaches {Q : α → W → Prop} {p : Prog Op Resp α} {w w' : W}
    (h : Safe R t Q p w) (hinv : R.Inv w) (hreaches : Reaches (R.act t) p w w') :
    R.Inv w' ∧ R.Later w w' := by
  induction p generalizing w with
  | ret b =>
    cases hreaches
    exact ⟨hinv, R.later_refl _⟩
  | op o k ih =>
    rcases hreaches with rfl | ⟨r, u, hact, hk⟩
    · exact ⟨hinv, R.later_refl _⟩
    · obtain ⟨hpre, hsafe⟩ := h w (R.rely_refl t w) hinv
      obtain ⟨hinv', hlater, _⟩ := R.sound _ _ _ _ _ hinv hpre hact
      obtain ⟨hend, hlater'⟩ := ih r (hsafe r u hact) hinv' hk
      exact ⟨hend, R.later_trans _ _ _ hlater hlater'⟩

/-- The rules for programs that are embedded in those of another signature. -/
def Rules.comap {Op' : Type} {Resp' : Op' → Type} (R : Rules T Op' Resp' W) (f : Op → Op')
    (g : ∀ o, Resp' (f o) → Resp o) : Rules T Op Resp W where
  Inv := R.Inv
  Later := R.Later
  Rely := R.Rely
  Pre t o w := R.Pre t (f o) w
  act t o w r w' := ∃ r', g o r' = r ∧ R.act t (f o) w r' w'
  later_refl := R.later_refl
  later_trans := R.later_trans
  rely_refl := R.rely_refl
  rely_trans := R.rely_trans
  later_of_rely := R.later_of_rely
  sound t o w r w' hinv hpre hact := by
    obtain ⟨r', _, hact⟩ := hact
    exact R.sound t (f o) w r' w' hinv hpre hact

/-- A program that is safe by its own operations is safe where it is embedded. -/
theorem Safe.embed {Op' : Type} {Resp' : Op' → Type} {R : Rules T Op' Resp' W} {f : Op → Op'}
    {g : ∀ o, Resp' (f o) → Resp o} {Q : α → W → Prop} {p : Prog Op Resp α} {w : W}
    (h : Safe (R.comap f g) t Q p w) : Safe R t Q (p.embed f g) w := by
  induction p generalizing w with
  | ret a => exact h
  | op o k ih =>
    intro w' hw' hinv
    obtain ⟨hpre, hk⟩ := h w' hw' hinv
    exact ⟨hpre, fun r w'' hact => ih _ (hk _ w'' ⟨r, rfl, hact⟩)⟩

/-- Every member's running program is safe. -/
def AllSafe (R : Rules T Op Resp W) (running : T → Option (Prog Op Resp α)) (w : W) : Prop :=
  ∀ t p, running t = some p → Safe R t (fun _ _ => True) p w

/-- A move that every member can rely on keeps all programs safe. -/
theorem AllSafe.rely {running : T → Option (Prog Op Resp α)} {w w' : W}
    (h : AllSafe R running w) (hrely : ∀ t, R.Rely t w w') : AllSafe R running w' :=
  fun t p hp => (h t p hp).rely (hrely t)

/-- A system without running threads is safe. -/
theorem allSafe_none {w : W} : AllSafe R (fun _ => (none : Option (Prog Op Resp α))) w := by
  intro t p hp
  cases hp

/-- A member may take up or drop a program if what it then runs is safe. -/
theorem AllSafe.update [DecidableEq T] {running : T → Option (Prog Op Resp α)} {w : W}
    (h : AllSafe R running w) (next : Option (Prog Op Resp α))
    (hnext : ∀ p, next = some p → Safe R t (fun _ _ => True) p w) :
    AllSafe R (Function.update running t next) w := by
  intro t' p hp
  by_cases heq : t' = t
  · subst heq
    rw [Function.update_self] at hp
    exact hnext p hp
  · rw [Function.update_of_ne heq] at hp
    exact h t' p hp

/-- One operation of one member: the invariant holds again, and all programs stay safe. -/
theorem AllSafe.act [DecidableEq T] {running : T → Option (Prog Op Resp α)} {w w' : W} {o : Op}
    {k : Resp o → Prog Op Resp α} {r : Resp o} (h : AllSafe R running w) (hinv : R.Inv w)
    (ht : running t = some (.op o k)) (hact : R.act t o w r w') :
    R.Inv w' ∧ R.Later w w' ∧ AllSafe R (Function.update running t (some (k r))) w' := by
  obtain ⟨hpre, hk⟩ := h t _ ht w (R.rely_refl t w) hinv
  obtain ⟨hinv', hlater, hothers⟩ := R.sound _ _ _ _ _ hinv hpre hact
  refine ⟨hinv', hlater, fun t' p hp => ?_⟩
  by_cases heq : t' = t
  · subst heq
    rw [Function.update_self] at hp
    cases hp
    exact hk r w' hact
  · rw [Function.update_of_ne heq] at hp
    exact (h t' p hp).rely (hothers t' heq)

end Rely

end Interaction
