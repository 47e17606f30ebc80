import CrosschainAgent.Library.Prog
import Mathlib.Logic.Relation
import Mathlib.Data.List.Count

/-!
# Threads that take locks

Threads run programs one operation at a time on shared data, and some operations take or release
a recursive lock: a thread may take a lock that no other thread holds. When every program takes
its locks in the order of a rank, except that it may take again what it holds, no threads wait
for each other in a cycle.
-/

namespace Locking

open Interaction

/-- What an operation does to the locks. -/
inductive Effect (L : Type) where
  | takes (l : L)
  | releases (l : L)
  | none
  deriving DecidableEq

variable {Op : Type} {Resp : Op → Type} {L T S A P α β : Type}

/-- Started with a stack of locks, the program takes locks in the order of the rank, releases the
one it took last, and ends with a stack of which `Q` holds. -/
def InOrder (effect : Op → Effect L) (rank : L → ℕ) (Q : List L → Prop) :
    List L → Prog Op Resp α → Prop
  | held, .ret _ => Q held
  | held, .op o k =>
    match effect o with
    | .takes l => (∀ l' ∈ held, l' = l ∨ rank l' < rank l) ∧
        ∀ r, InOrder effect rank Q (l :: held) (k r)
    | .releases l => ∃ rest, held = l :: rest ∧ ∀ r, InOrder effect rank Q rest (k r)
    | .none => ∀ r, InOrder effect rank Q held (k r)

/-- The program takes its locks in order and returns with the locks it was called with. -/
abbrev Balanced (effect : Op → Effect L) (rank : L → ℕ) (held : List L) (p : Prog Op Resp α) : Prop :=
  InOrder effect rank (fun held' => held' = held) held p

section Rules

variable {effect : Op → Effect L} {rank : L → ℕ} {Q : List L → Prop} {held : List L}

/-- A sequence takes its locks in order when its first part does, and the second from where it ends. -/
theorem InOrder.bind {Q' : List L → Prop} {p : Prog Op Resp α} {f : α → Prog Op Resp β}
    (hp : InOrder effect rank Q' held p)
    (hf : ∀ a held', Q' held' → InOrder effect rank Q held' (f a)) :
    InOrder effect rank Q held (p >>= f) := by
  change InOrder effect rank Q held (p.bind f)
  induction p generalizing held with
  | ret a => exact hf a held hp
  | op o k ih =>
    unfold InOrder at hp
    rw [Prog.bind, InOrder]
    split at hp
    next => exact ⟨hp.1, fun r => ih r (hp.2 r)⟩
    next =>
      obtain ⟨rest, hheld, hk⟩ := hp
      exact ⟨rest, hheld, fun r => ih r (hk r)⟩
    next => exact fun r => ih r (hp r)

/-- A sequence of balanced parts is balanced. -/
theorem Balanced.bind {p : Prog Op Resp α} {f : α → Prog Op Resp β}
    (hp : Balanced effect rank held p) (hf : ∀ a, Balanced effect rank held (f a)) :
    Balanced effect rank held (p >>= f) := by
  refine InOrder.bind hp ?_
  rintro a held' rfl
  exact hf a

/-- A program without operations is balanced. -/
theorem Balanced.pure (a : α) : Balanced effect rank held (Pure.pure a : Prog Op Resp α) := rfl

/-- A conditional of balanced branches is balanced. -/
theorem Balanced.ite {c : Prop} [Decidable c] {p q : Prog Op Resp α}
    (hp : Balanced effect rank held p) (hq : Balanced effect rank held q) :
    Balanced effect rank held (if c then p else q) := by
  split
  · exact hp
  · exact hq

/-- A loop of balanced rounds is balanced. -/
theorem Balanced.forM {γ : Type} {f : γ → Prog Op Resp PUnit} {xs : List γ}
    (hf : ∀ x, Balanced effect rank held (f x)) : Balanced effect rank held (xs.forM f) := by
  induction xs with
  | nil => exact Balanced.pure _
  | cons x xs ih => exact Balanced.bind (hf x) fun _ => ih

/-- A program that leaves the locks alone is in order. -/
theorem Balanced.of_uses {p : Prog Op Resp α} (hp : Uses (fun o => effect o = .none) p) :
    Balanced effect rank held p := by
  induction p with
  | ret a => rfl
  | op o k ih =>
    unfold InOrder
    rw [hp.1]
    exact fun r => ih r (hp.2 r)

/-- A lock is taken. -/
theorem InOrder.takes {o : Op} {l : L} {f : Resp o → Prog Op Resp β} (ho : effect o = .takes l)
    (hrank : ∀ l' ∈ held, l' = l ∨ rank l' < rank l)
    (hf : ∀ r, InOrder effect rank Q (l :: held) (f r)) :
    InOrder effect rank Q held (perform o >>= f) := by
  change InOrder effect rank Q held (.op o f)
  unfold InOrder
  rw [ho]
  exact ⟨hrank, hf⟩

/-- The lock taken last is released. -/
theorem InOrder.releases {o : Op} {l : L} {f : Resp o → Prog Op Resp β} (ho : effect o = .releases l)
    (hf : ∀ r, InOrder effect rank Q held (f r)) :
    InOrder effect rank Q (l :: held) (perform o >>= f) := by
  change InOrder effect rank Q (l :: held) (.op o f)
  unfold InOrder
  rw [ho]
  exact ⟨held, rfl, hf⟩

end Rules

/-- Shared data, who holds each lock and how often it was taken, and what is left of the program of
each thread. -/
structure Threads (Op : Type) (Resp : Op → Type) (L T S α : Type) where
  shared : S
  holder : L → Option (T × ℕ)
  running : T → Option (Prog Op Resp α)

/-- The programs that threads may run, and how an operation acts on the shared data. -/
structure System (Op : Type) (Resp : Op → Type) (L S A P α : Type) where
  effect : Op → Effect L
  act : (o : Op) → A → S → Option (Resp o × S)
  program : P → Prog Op Resp α

/-- A thread that is idle starts a program, or a thread makes its next operation. -/
inductive Label (T A P : Type) where
  | start (t : T) (p : P)
  | act (t : T) (answer : A)

/-- What is left of a program; nothing, when it has returned. -/
def remaining : Prog Op Resp α → Option (Prog Op Resp α)
  | .ret _ => none
  | p => some p

namespace Threads

variable [DecidableEq L] [DecidableEq T]

/-- The locks after an operation of a thread. -/
def relock (holder : L → Option (T × ℕ)) (t : T) : Effect L → L → Option (T × ℕ)
  | .takes l => Function.update holder l (some (t, ((holder l).map (·.2)).getD 0 + 1))
  | .releases l => Function.update holder l ((holder l).bind fun p =>
      if p.2 ≤ 1 then none else some (t, p.2 - 1))
  | .none => holder

/-- The operation need not wait: it takes no lock that another thread holds. -/
def allows (holder : L → Option (T × ℕ)) (t : T) : Effect L → Bool
  | .takes l => (holder l).all fun p => p.1 = t
  | _ => true

/-- One step, if it is possible. -/
def step (sys : System Op Resp L S A P α) (c : Threads Op Resp L T S α) :
    Label T A P → Option (Threads Op Resp L T S α)
  | .start t p =>
    match c.running t with
    | some _ => none
    | none => some { c with running := Function.update c.running t (remaining (sys.program p)) }
  | .act t answer =>
    match c.running t with
    | some (.op o k) =>
      if allows c.holder t (sys.effect o) then
        (sys.act o answer c.shared).map fun (r, shared) =>
          { shared := shared, holder := relock c.holder t (sys.effect o),
            running := Function.update c.running t (remaining (k r)) }
      else none
    | _ => none

/-- A run. -/
def run (sys : System Op Resp L S A P α) (c : Threads Op Resp L T S α) (labels : List (Label T A P)) :
    Option (Threads Op Resp L T S α) := labels.foldlM (step sys) c

/-- No thread runs and no lock is held. -/
def idle (s : S) : Threads Op Resp L T S α := ⟨s, fun _ => none, fun _ => none⟩

/-- A thread waits for another: its next operation takes a lock that the other holds. -/
def Waits (effect : Op → Effect L) (c : Threads Op Resp L T S α) (t t' : T) : Prop :=
  ∃ o k l n, c.running t = some (.op o k) ∧ effect o = .takes l ∧ c.holder l = some (t', n) ∧ t' ≠ t

/-- The stacks of locks that the threads hold fit who holds each lock, and every program takes its
locks in order from there on. -/
structure Orderly (effect : Op → Effect L) (rank : L → ℕ) (c : Threads Op Resp L T S α)
    (held : T → List L) : Prop where
  inOrder : ∀ t p, c.running t = some p →
    InOrder effect rank (fun held' => held' = []) (held t) p
  idle : ∀ t, c.running t = none → held t = []
  counts : ∀ l t n, c.holder l = some (t, n) → l ∈ held t ∧ n = (held t).count l
  holds : ∀ t l, l ∈ held t → ∃ n, c.holder l = some (t, n)

variable {effect : Op → Effect L} {rank : L → ℕ} {c c' : Threads Op Resp L T S α} {held : T → List L}

omit [DecidableEq T] in
/-- A system in which nothing runs and no lock is held is orderly. -/
theorem orderly_idle (s : S) :
    (idle s : Threads Op Resp L T S α).Orderly effect rank fun _ => [] where
  inOrder t p hrunning := by cases hrunning
  idle _ _ := rfl
  counts l t n hholder := by cases hholder
  holds t l hmem := absurd hmem List.not_mem_nil

/-- A thread that waits wants a lock. -/
def Wants (effect : Op → Effect L) (c : Threads Op Resp L T S α) (t : T) (l : L) : Prop :=
  ∃ o k t' n, c.running t = some (.op o k) ∧ effect o = .takes l ∧ c.holder l = some (t', n) ∧ t' ≠ t

omit [DecidableEq T] in
/-- What a thread wants has a greater rank than what is wanted from it. -/
theorem Orderly.rank_lt (hc : c.Orderly effect rank held) {t : T} {l l' : L} {n : ℕ}
    (hholder : c.holder l = some (t, n)) (hwants : c.Wants effect t l') : rank l < rank l' := by
  obtain ⟨o, k, t', n', hrunning, ho, hholder', hne⟩ := hwants
  have horder := hc.inOrder t _ hrunning
  unfold InOrder at horder
  rw [ho] at horder
  rcases horder.1 l (hc.counts l t n hholder).1 with rfl | hlt
  · rw [hholder] at hholder'
    cases hholder'
    exact absurd rfl hne
  · exact hlt

omit [DecidableEq T] in
/-- Along a chain of waiting threads the ranks of what they want increase. -/
theorem Orderly.chain (hc : c.Orderly effect rank held) {t t' : T}
    (hchain : Relation.TransGen (c.Waits effect) t t') :
    ∃ l, c.Wants effect t l ∧ ∀ l', c.Wants effect t' l' → rank l < rank l' := by
  induction hchain with
  | single hwaits =>
    obtain ⟨o, k, l, n, hrunning, ho, hholder, hne⟩ := hwaits
    exact ⟨l, ⟨o, k, _, n, hrunning, ho, hholder, hne⟩, fun l' => hc.rank_lt hholder⟩
  | tail _ hwaits ih =>
    obtain ⟨l, hwants, hlt⟩ := ih
    obtain ⟨o, k, m, n, hrunning, ho, hholder, hne⟩ := hwaits
    refine ⟨l, hwants, fun l' hwants' => ?_⟩
    have hfirst : rank l < rank m := hlt m ⟨o, k, _, n, hrunning, ho, hholder, hne⟩
    have hsecond : rank m < rank l' := hc.rank_lt hholder hwants'
    omega

omit [DecidableEq T] in
/-- No threads wait for each other in a cycle. -/
theorem Orderly.no_cycle (hc : c.Orderly effect rank held) (t : T) :
    ¬Relation.TransGen (c.Waits effect) t t := by
  intro hchain
  obtain ⟨l, hwants, hlt⟩ := hc.chain hchain
  exact Nat.lt_irrefl _ (hlt l hwants)

/-- A thread goes on with a stack of locks that fits the holders. -/
theorem Orderly.goes_on (hc : c.Orderly effect rank held) {t : T} {mine : List L} {p : Prog Op Resp α}
    {s : S} {holder : L → Option (T × ℕ)}
    (hmine : InOrder effect rank (fun held' => held' = []) mine p)
    (hcounts : ∀ l t' n, holder l = some (t', n) →
      l ∈ Function.update held t mine t' ∧ n = (Function.update held t mine t').count l)
    (hholds : ∀ t' l, l ∈ Function.update held t mine t' → ∃ n, holder l = some (t', n)) :
    Orderly effect rank ⟨s, holder, Function.update c.running t (remaining p)⟩
      (Function.update held t mine) where
  inOrder t' q hrunning := by
    by_cases heq : t' = t
    · subst heq
      simp only [Function.update_self] at hrunning ⊢
      cases p with
      | ret a => cases hrunning
      | op o k =>
        cases hrunning
        exact hmine
    · simp only [Function.update_of_ne heq] at hrunning ⊢
      exact hc.inOrder t' q hrunning
  idle t' hrunning := by
    by_cases heq : t' = t
    · subst heq
      simp only [Function.update_self] at hrunning ⊢
      cases p with
      | ret a => exact hmine
      | op o k => cases hrunning
    · simp only [Function.update_of_ne heq] at hrunning ⊢
      exact hc.idle t' hrunning
  counts := hcounts
  holds := hholds

/-- To take a lock adds it to the stack. -/
theorem Orderly.takes (hc : c.Orderly effect rank held) {t : T} {l : L} {p : Prog Op Resp α} {s : S}
    (hfree : allows c.holder t (.takes l))
    (hmine : InOrder effect rank (fun held' => held' = []) (l :: held t) p) :
    Orderly effect rank
      ⟨s, relock c.holder t (.takes l), Function.update c.running t (remaining p)⟩
      (Function.update held t (l :: held t)) := by
  have howner : ∀ t' n, c.holder l = some (t', n) → t' = t := by
    intro t' n hholder
    simpa [allows, hholder] using hfree
  have hcount : ((c.holder l).map (·.2)).getD 0 = (held t).count l := by
    cases hholder : c.holder l with
    | none =>
      refine (List.count_eq_zero.mpr fun hmem => ?_).symm
      obtain ⟨n, hn⟩ := hc.holds t l hmem
      rw [hholder] at hn
      cases hn
    | some p =>
      obtain ⟨t', n⟩ := p
      obtain rfl := howner t' n hholder
      exact (hc.counts l t' n hholder).2
  refine hc.goes_on hmine (fun l' t' n hholder => ?_) fun t' l' hmem => ?_
  · by_cases hl : l' = l
    · subst hl
      simp only [relock, Function.update_self, hcount] at hholder
      cases hholder
      simp [Function.update_self]
    · simp only [relock, Function.update_of_ne hl] at hholder
      obtain ⟨hmem, hn⟩ := hc.counts l' t' n hholder
      by_cases ht : t' = t
      · subst ht
        simp only [Function.update_self]
        exact ⟨List.mem_cons_of_mem _ hmem, by rw [hn, List.count_cons_of_ne (Ne.symm hl)]⟩
      · simp only [Function.update_of_ne ht]
        exact ⟨hmem, hn⟩
  · by_cases hl : l' = l
    · subst hl
      have ht : t' = t := by
        by_contra hne
        rw [Function.update_of_ne hne] at hmem
        obtain ⟨n, hholder⟩ := hc.holds t' l' hmem
        exact hne (howner t' n hholder)
      subst ht
      exact ⟨_, Function.update_self ..⟩
    · simp only [relock, Function.update_of_ne hl]
      by_cases ht : t' = t
      · subst ht
        rw [Function.update_self] at hmem
        exact hc.holds t' l' ((List.mem_cons.mp hmem).resolve_left hl)
      · rw [Function.update_of_ne ht] at hmem
        exact hc.holds t' l' hmem

/-- To release a lock takes it off the stack. -/
theorem Orderly.releases (hc : c.Orderly effect rank held) {t : T} {l : L} {rest : List L}
    {p : Prog Op Resp α} {s : S} (hstack : held t = l :: rest)
    (hmine : InOrder effect rank (fun held' => held' = []) rest p) :
    Orderly effect rank
      ⟨s, relock c.holder t (.releases l), Function.update c.running t (remaining p)⟩
      (Function.update held t rest) := by
  obtain ⟨n, hl⟩ := hc.holds t l (hstack ▸ List.mem_cons_self)
  have hn : n = rest.count l + 1 := by
    rw [(hc.counts l t n hl).2, hstack, List.count_cons_self]
  have hholder : relock c.holder t (.releases l) l = if n ≤ 1 then none else some (t, n - 1) := by
    simp [relock, hl]
  refine hc.goes_on hmine (fun l' t' m hm => ?_) fun t' l' hmem => ?_
  · by_cases heq : l' = l
    · subst heq
      rw [hholder] at hm
      split at hm
      next => cases hm
      next hmany =>
        cases hm
        rw [Function.update_self]
        have hpos : 0 < rest.count l' := by omega
        exact ⟨List.count_pos_iff.mp hpos, by omega⟩
    · simp only [relock, Function.update_of_ne heq] at hm
      obtain ⟨hmem, hm⟩ := hc.counts l' t' m hm
      by_cases ht : t' = t
      · subst ht
        rw [hstack] at hmem hm
        rw [Function.update_self]
        exact ⟨(List.mem_cons.mp hmem).resolve_left heq,
          by rw [hm, List.count_cons_of_ne (Ne.symm heq)]⟩
      · rw [Function.update_of_ne ht]
        exact ⟨hmem, hm⟩
  · by_cases ht : t' = t
    · subst ht
      rw [Function.update_self] at hmem
      by_cases heq : l' = l
      · subst heq
        have hpos : 0 < rest.count l' := List.count_pos_iff.mpr hmem
        rw [hholder, if_neg (by omega)]
        exact ⟨_, rfl⟩
      · simp only [relock, Function.update_of_ne heq]
        exact hc.holds t' l' (hstack ▸ List.mem_cons_of_mem _ hmem)
    · rw [Function.update_of_ne ht] at hmem
      obtain ⟨m, hm⟩ := hc.holds t' l' hmem
      have heq : l' ≠ l := by
        rintro rfl
        rw [hl] at hm
        cases hm
        exact ht rfl
      simp only [relock, Function.update_of_ne heq]
      exact ⟨m, hm⟩

/-- Every step keeps the locks orderly. -/
theorem Orderly.step {sys : System Op Resp L S A P α} (hc : c.Orderly sys.effect rank held)
    (hprograms : ∀ p, Balanced sys.effect rank [] (sys.program p)) {label : Label T A P}
    (hstep : c.step sys label = some c') : ∃ held', c'.Orderly sys.effect rank held' := by
  cases label with
  | start t p =>
    simp only [Threads.step] at hstep
    split at hstep
    next => cases hstep
    next hidle =>
      cases hstep
      have hempty : held t = [] := hc.idle t hidle
      have hsame : Function.update held t [] = held := by
        rw [← hempty, Function.update_eq_self]
      have hmine : InOrder sys.effect rank (fun held' => held' = []) [] (sys.program p) := hprograms p
      refine ⟨_, hc.goes_on hmine ?_ ?_⟩
      · rw [hsame]
        exact hc.counts
      · rw [hsame]
        exact hc.holds
  | act t answer =>
    simp only [Threads.step] at hstep
    split at hstep
    next o k hrunning =>
      rw [Option.ite_none_right_eq_some, Option.map_eq_some_iff] at hstep
      obtain ⟨hallowed, ⟨r, shared⟩, -, rfl⟩ := hstep
      have horder := hc.inOrder t _ hrunning
      unfold InOrder at horder
      split at horder
      next l heffect =>
        rw [heffect] at hallowed ⊢
        exact ⟨_, hc.takes hallowed (horder.2 r)⟩
      next l heffect =>
        obtain ⟨rest, hstack, hrest⟩ := horder
        rw [heffect]
        exact ⟨_, hc.releases hstack (hrest r)⟩
      next heffect =>
        rw [heffect]
        have hsame : Function.update held t (held t) = held := Function.update_eq_self ..
        have hmine : InOrder sys.effect rank (fun held' => held' = []) (held t) (k r) := horder r
        refine ⟨_, hc.goes_on hmine ?_ ?_⟩
        · rw [hsame]
          exact hc.counts
        · rw [hsame]
          exact hc.holds
    next => cases hstep

/-- In no state that a run reaches do threads wait for each other in a cycle. -/
theorem run_no_cycle {sys : System Op Resp L S A P α}
    (hprograms : ∀ p, Balanced sys.effect rank [] (sys.program p)) {labels : List (Label T A P)}
    (hc : c.Orderly sys.effect rank held) (hrun : c.run sys labels = some c') (t : T) :
    ¬Relation.TransGen (c'.Waits sys.effect) t t := by
  induction labels generalizing c held with
  | nil =>
    cases hrun
    exact hc.no_cycle t
  | cons label labels ih =>
    rw [run, List.foldlM_cons] at hrun
    obtain ⟨u, hstep, hrest⟩ := Option.bind_eq_some_iff.mp hrun
    obtain ⟨held', hu⟩ := hc.step hprograms hstep
    exact ih hu hrest

end Threads

end Locking
