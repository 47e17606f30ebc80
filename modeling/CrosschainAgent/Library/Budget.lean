import Mathlib.Algebra.Order.Group.Nat
import Mathlib.Data.Finsupp.Weight
import CrosschainAgent.Library.Prog

/-!
# Programs on a budget

Every operation has a cost, and its answer may bring something in. A program affords its operations out of a
budget if it never owes anything, whatever the answers are. Where many programs run, each one has a purse of its
own, and what all of them spend was granted.
-/

namespace Interaction

variable {Op : Type} {Resp : Op → Type} {α β γ T : Type}

/-- What the operations cost, and what their answers bring in. -/
structure Tariff (Op : Type) (Resp : Op → Type) where
  cost : Op → ℕ
  income : (o : Op) → Resp o → ℕ

/-- Whatever its operations are answered, the program affords them out of the budget, and so much is left in the
end. -/
def Affords (tariff : Tariff Op Resp) (left : α → ℕ) : Prog Op Resp α → ℕ → Prop
  | .ret a, budget => left a ≤ budget
  | .op o k, budget =>
    tariff.cost o ≤ budget ∧ ∀ r, Affords tariff left (k r) (budget - tariff.cost o + tariff.income o r)

variable {tariff : Tariff Op Resp}

namespace Affords

variable {left left' : α → ℕ} {budget more : ℕ} {p q : Prog Op Resp α}

/-- More money affords as much. -/
theorem mono (h : Affords tariff left p budget) (hle : budget ≤ more) (hleft : ∀ a, left' a ≤ left a) :
    Affords tariff left' p more := by
  induction p generalizing budget more with
  | ret a => exact (hleft a).trans (Nat.le_trans h hle)
  | op o k ih =>
    refine ⟨h.1.trans hle, fun r => ih r (h.2 r) ?_⟩
    omega

/-- Returning costs nothing. -/
protected theorem pure {a : α} (h : left a ≤ budget) : Affords tariff left (Pure.pure a) budget := h

/-- An operation costs its fee and earns its income. -/
protected theorem perform (o : Op) :
    Affords tariff (fun r => budget + tariff.income o r) (perform o) (budget + tariff.cost o) := by
  refine ⟨Nat.le_add_left _ _, fun r => ?_⟩
  rw [Nat.add_sub_cancel]
  exact le_rfl

/-- What the first program leaves is the budget of the second one. -/
protected theorem bind {last : β → ℕ} {f : α → Prog Op Resp β} (hp : Affords tariff left p budget)
    (hf : ∀ a, Affords tariff last (f a) (left a)) : Affords tariff last (p >>= f) budget := by
  change Affords tariff last (p.bind f) budget
  induction p generalizing budget with
  | ret a => exact (hf a).mono hp fun _ => le_rfl
  | op o k ih => exact ⟨hp.1, fun r => ih r (hp.2 r)⟩

/-- A conditional is affordable when its branches are. -/
protected theorem ite {c : Prop} [Decidable c] (hp : Affords tariff left p budget)
    (hq : Affords tariff left q budget) : Affords tariff left (if c then p else q) budget := by
  split
  · exact hp
  · exact hq

/-- A program of free operations spends nothing. -/
theorem of_uses (h : Uses (fun o => tariff.cost o = 0) p) : Affords tariff (fun _ => budget) p budget := by
  induction p generalizing budget with
  | ret a => exact le_rfl
  | op o k ih =>
    obtain ⟨hfree, hrest⟩ := h
    refine ⟨hfree ▸ Nat.zero_le _, fun r => (ih r (hrest r)).mono le_rfl fun _ => ?_⟩
    rw [hfree, Nat.sub_zero]
    exact Nat.le_add_right _ _

/-- A loop affords its rounds if it has the price of one for each of them. -/
protected theorem forM {price : ℕ} {f : γ → Prog Op Resp PUnit}
    (h : ∀ x budget, Affords tariff (fun _ => budget) (f x) (budget + price)) (xs : List γ) :
    Affords tariff (fun _ => budget) (xs.forM f) (budget + xs.length * price) := by
  induction xs with
  | nil => exact .pure (Nat.le_add_right _ _)
  | cons x xs ih =>
    rw [List.length_cons, Nat.succ_mul, ← Nat.add_assoc]
    exact .bind (h x _) fun _ => ih

end Affords

/-- Every running program affords what it still does out of its purse, and what was spent and what is in the
purses was granted. -/
def Funded (tariff : Tariff Op Resp) (running : T → Option (Prog Op Resp α)) (spent granted : ℕ) : Prop :=
  ∃ purse : T →₀ ℕ, (∀ t p, running t = some p → Affords tariff (fun _ => 0) p (purse t)) ∧
    spent + purse.degree ≤ granted

namespace Funded

variable {running : T → Option (Prog Op Resp α)} {spent granted budget : ℕ} {t : T}

/-- No program is running. -/
theorem idle (h : spent ≤ granted) :
    Funded tariff (fun _ : T => (none : Option (Prog Op Resp α))) spent granted := by
  refine ⟨0, ?_, by simpa using h⟩
  intro t p hp
  cases hp

/-- No more is spent than was granted. -/
theorem spent_le (h : Funded tariff running spent granted) : spent ≤ granted := by
  obtain ⟨purse, -, hle⟩ := h
  exact (Nat.le_add_right _ _).trans hle

end Funded

/-- One purse is filled anew. -/
theorem degree_refill [DecidableEq T] (purse : T →₀ ℕ) (t : T) (budget : ℕ) :
    (purse.update t budget).degree + purse t = purse.degree + budget := by
  have hpurse : purse.degree = (purse.erase t).degree + purse t := by
    conv_lhs => rw [← Finsupp.erase_add_single t purse, map_add, Finsupp.degree_single]
  rw [Finsupp.update_eq_erase_add_single, map_add, Finsupp.degree_single, hpurse]
  omega

namespace Funded

variable [DecidableEq T] {running : T → Option (Prog Op Resp α)} {spent granted budget : ℕ} {t : T}

/-- A member may take up a program if its budget is granted, and drop any. -/
theorem update (h : Funded tariff running spent granted) (next : Option (Prog Op Resp α))
    (hnext : ∀ p, next = some p → Affords tariff (fun _ => 0) p budget) :
    Funded tariff (Function.update running t next) spent (granted + budget) := by
  obtain ⟨purse, hpurse, hle⟩ := h
  refine ⟨purse.update t budget, fun t' p hp => ?_, ?_⟩
  · by_cases heq : t' = t
    · subst heq
      rw [Function.update_self] at hp
      simpa using hnext p hp
    · rw [Function.update_of_ne heq] at hp
      simpa [Finsupp.update, heq] using hpurse t' p hp
  · have hrefill := degree_refill purse t budget
    omega

/-- One operation of one member is paid out of its purse, and what its answer brings in goes there. -/
theorem act (h : Funded tariff running spent granted) {o : Op} {k : Resp o → Prog Op Resp α}
    (ht : running t = some (.op o k)) (r : Resp o) :
    Funded tariff (Function.update running t (some (k r))) (spent + tariff.cost o)
      (granted + tariff.income o r) := by
  obtain ⟨purse, hpurse, hle⟩ := h
  obtain ⟨hcost, hrest⟩ := hpurse t _ ht
  refine ⟨purse.update t (purse t - tariff.cost o + tariff.income o r), fun t' p hp => ?_, ?_⟩
  · by_cases heq : t' = t
    · subst heq
      rw [Function.update_self] at hp
      cases hp
      simpa using hrest r
    · rw [Function.update_of_ne heq] at hp
      simpa [Finsupp.update, heq] using hpurse t' p hp
  · have hrefill := degree_refill purse t (purse t - tariff.cost o + tariff.income o r)
    omega

end Funded

end Interaction
