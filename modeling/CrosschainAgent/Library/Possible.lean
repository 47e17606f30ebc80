import CrosschainAgent.Library.Prog

/-!
# What a program can come to

What a program does depends on the answers to its operations. `Can` says that some answers bring the
program, acting alone, to an end that satisfies a postcondition. It composes along the program like
a precondition, and the answers can be put together to one list at the end. `UsesGiven` says what the
program may perform at most, when all answers are as expected.
-/

namespace Interaction

universe u

variable {Op : Type} {Resp : Op → Type} {α β A : Type} {S : Type u}
  {step : (o : Op) → A → S → Option (Resp o × S)}

/-- With some answers the program, acting alone, ends as `Q` says. -/
def Can (step : (o : Op) → A → S → Option (Resp o × S)) (Q : α → S → Prop) :
    Prog Op Resp α → S → Prop
  | .ret a, s => Q a s
  | .op o k, s => ∃ answer r s', step o answer s = some (r, s') ∧ Can step Q (k r) s'

/-- A result that satisfies the postcondition. -/
theorem Can.pure {Q : α → S → Prop} {a : α} {s : S} (h : Q a s) :
    Can step Q (Pure.pure a : Prog Op Resp α) s := h

/-- One operation that some answer lets succeed. -/
theorem Can.perform {o : Op} {Q : Resp o → S → Prop} {s : S} (answer : A) {r : Resp o} {s' : S}
    (hstep : step o answer s = some (r, s')) (h : Q r s') : Can step Q (perform o) s :=
  ⟨answer, r, s', hstep, h⟩

/-- A program goes on from wherever its first part can come to. -/
theorem Can.bind {Q : β → S → Prop} {p : Prog Op Resp α} {f : α → Prog Op Resp β} {s : S}
    (h : Can step (fun a => Can step Q (f a)) p s) : Can step Q (p >>= f) s := by
  change Can step Q (p.bind f) s
  induction p generalizing s with
  | ret a => exact h
  | op o k ih =>
    obtain ⟨answer, r, s', hstep, hk⟩ := h
    exact ⟨answer, r, s', hstep, ih r hk⟩

/-- Every operation the program may perform is one of these, as long as the answers are as expected. -/
def UsesGiven (Expected : (o : Op) → Resp o → Prop) (P : Op → Prop) : Prog Op Resp α → Prop
  | .ret _ => True
  | .op o k => P o ∧ ∀ r, Expected o r → UsesGiven Expected P (k r)

section UsesGiven

variable {Expected : (o : Op) → Resp o → Prop} {P : Op → Prop}

/-- What a program uses at all it uses with these answers. -/
theorem Uses.given {p : Prog Op Resp α} (h : Uses P p) : UsesGiven Expected P p := by
  induction p with
  | ret a => exact trivial
  | op o k ih => exact ⟨h.1, fun r _ => ih r (h.2 r)⟩

/-- One operation, and what follows its expected answers. -/
theorem UsesGiven.perform_bind {o : Op} {f : Resp o → Prog Op Resp α} (ho : P o)
    (hf : ∀ r, Expected o r → UsesGiven Expected P (f r)) : UsesGiven Expected P (perform o >>= f) :=
  ⟨ho, hf⟩

/-- What both parts use, the sequence uses. -/
theorem UsesGiven.bind {p : Prog Op Resp α} {f : α → Prog Op Resp β} (hp : UsesGiven Expected P p)
    (hf : ∀ a, UsesGiven Expected P (f a)) : UsesGiven Expected P (p >>= f) := by
  change UsesGiven Expected P (p.bind f)
  induction p with
  | ret a => exact hf a
  | op o k ih => exact ⟨hp.1, fun r hr => ih r (hp.2 r hr)⟩

/-- A loop uses what its rounds use. -/
theorem UsesGiven.forM {γ : Type} {f : γ → Prog Op Resp PUnit} {xs : List γ}
    (h : ∀ x ∈ xs, UsesGiven Expected P (f x)) : UsesGiven Expected P (xs.forM f) := by
  induction xs with
  | nil => exact trivial
  | cons x xs ih =>
    exact UsesGiven.bind (h x List.mem_cons_self) fun _ => ih fun y hy => h y (List.mem_cons_of_mem _ hy)

end UsesGiven

end Interaction
