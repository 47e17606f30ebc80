import Mathlib.Algebra.BigOperators.Finprod
import Mathlib.Algebra.BigOperators.Group.Finset.Piecewise
import Mathlib.Tactic.FinCases

/-!
# An escrow keyed by claims

A pot of money in which every open claim names a key and an amount. A deposit opens the
claim of its key, replacing whatever claim the key had; a payout closes one open claim and
takes its amount out of the pot. Neither the keys nor the number of claims are bounded.

The two results used elsewhere are that the pot always covers the open claims, with no
assumption on the deposits, and that it covers them exactly when every deposit opens a
fresh key. The payout count never outruns the deposit count of a key in either case.
-/

namespace Escrow

open Function

variable {κ : Type*} [DecidableEq κ]

/-- Changing one value of a finitely supported family changes its sum by the difference. -/
theorem finsum_update_add {f : κ → ℕ} (hf : (support f).Finite) (k : κ) (v : ℕ) :
    ∑ᶠ i, update f k v i + f k = ∑ᶠ i, f i + v := by
  classical
  let s := insert k hf.toFinset
  have hk : k ∈ s := Finset.mem_insert_self _ _
  have hsub : support f ⊆ s := by
    intro i hi
    exact Finset.mem_coe.mpr (Finset.mem_insert_of_mem (hf.mem_toFinset.mpr hi))
  have hupd : support (update f k v) ⊆ s := by
    intro i hi
    by_cases h : i = k
    · exact h ▸ hk
    · exact hsub (by simpa [update_of_ne h] using hi)
  rw [finsum_eq_sum_of_support_subset _ hupd, finsum_eq_sum_of_support_subset _ hsub,
    Finset.sum_update_of_mem hk, ← Finset.add_sum_erase s f hk, Finset.sdiff_singleton_eq_erase]
  omega

/-- Updating one value keeps the support finite. -/
theorem support_update_finite {f : κ → ℕ} (hf : (support f).Finite) (k : κ) (v : ℕ) :
    (support (update f k v)).Finite := by
  refine (hf.insert k).subset fun i hi => ?_
  by_cases h : i = k
  · exact Or.inl h
  · exact Or.inr (by simpa [update_of_ne h] using hi)

/-- The pot, the open claim of every key, and how often each key was funded and paid. -/
structure Pot (κ : Type*) where
  claims : κ → Option ℕ
  balance : ℕ
  funded : κ → ℕ
  paid : κ → ℕ

/-- What a key is still owed: the amount of its open claim. -/
def Pot.owed (p : Pot κ) (k : κ) : ℕ := (p.claims k).getD 0

/-- The pot before any deposit. -/
def Pot.empty (balance : ℕ) : Pot κ :=
  ⟨fun _ => none, balance, fun _ => 0, fun _ => 0⟩

/-- One thing that can happen to the pot. -/
inductive Move (κ : Type*) where
  | idle
  | deposit (k : κ) (amount : ℕ)
  | payout (k : κ)

/-- Carry out a move; a payout of a key without an open claim takes nothing. -/
def Pot.apply (p : Pot κ) : Move κ → Pot κ
  | .idle => p
  | .deposit k amount =>
    { claims := update p.claims k (some amount), balance := p.balance + amount,
      funded := update p.funded k (p.funded k + 1), paid := p.paid }
  | .payout k =>
    { claims := update p.claims k none, balance := p.balance - p.owed k,
      funded := p.funded, paid := update p.paid k (p.paid k + 1) }

/-- A payout closes an open claim; the other moves are always possible. -/
def Move.Enabled (p : Pot κ) : Move κ → Prop
  | .payout k => (p.claims k).isSome
  | _ => True

/-- A deposit is fresh when its key has no open claim to replace. -/
def Move.Fresh (p : Pot κ) : Move κ → Prop
  | .deposit k _ => p.claims k = none
  | _ => True

/-- A deposit is owed under its key, in the place of what was owed there. -/
theorem owed_deposit (p : Pot κ) (k : κ) (amount : ℕ) :
    (p.apply (.deposit k amount)).owed = update p.owed k amount := by
  funext i
  by_cases h : i = k <;> simp [Pot.owed, Pot.apply, h]

/-- After a payout nothing is owed under its key. -/
theorem owed_payout (p : Pot κ) (k : κ) : (p.apply (.payout k)).owed = update p.owed k 0 := by
  funext i
  by_cases h : i = k <;> simp [Pot.owed, Pot.apply, h]

/-- The pot covers every open claim, and no key was paid more often than it was funded. -/
structure Pot.Solvent (p : Pot κ) : Prop where
  finite : (support p.owed).Finite
  covered : ∑ᶠ k, p.owed k ≤ p.balance
  single : ∀ k, p.paid k + (if (p.claims k).isSome then 1 else 0) ≤ p.funded k

/-- An open claim never exceeds the sum of all of them. -/
theorem Pot.owed_le_sum {p : Pot κ} (hf : (support p.owed).Finite) (k : κ) :
    p.owed k ≤ ∑ᶠ i, p.owed i := by
  have h := finsum_update_add hf k 0
  omega

/-- Every open claim can be paid from the pot on its own. -/
theorem Pot.Solvent.owed_le {p : Pot κ} (h : p.Solvent) (k : κ) : p.owed k ≤ p.balance :=
  (Pot.owed_le_sum h.finite k).trans h.covered

omit [DecidableEq κ] in
/-- A pot that owes nothing is solvent, whatever it holds. -/
theorem Pot.solvent_empty (balance : ℕ) : (Pot.empty (κ := κ) balance).Solvent where
  finite := by simp [Pot.empty, Pot.owed, Function.support]
  covered := by simp [Pot.empty, Pot.owed]
  single k := by simp [Pot.empty]

/-- Each move keeps the pot solvent, whether or not its deposit replaces a claim. -/
theorem Pot.Solvent.apply {p : Pot κ} (h : p.Solvent) (m : Move κ) (hm : m.Enabled p) :
    (p.apply m).Solvent := by
  cases m with
  | idle => exact h
  | deposit k amount =>
    refine ⟨?_, ?_, fun i => ?_⟩
    · rw [owed_deposit]
      exact support_update_finite h.finite k amount
    · have hsum := finsum_update_add h.finite k amount
      have hcov := h.covered
      simp only [owed_deposit]
      change _ ≤ p.balance + amount
      omega
    · have hi := h.single i
      have hk := h.single k
      by_cases hik : i = k
      · subst hik
        simp only [Pot.apply, update_self, Option.isSome_some, if_true]
        split at hk <;> omega
      · simpa [Pot.apply, update_of_ne hik] using hi
  | payout k =>
    obtain ⟨amount, hamount⟩ := Option.isSome_iff_exists.mp hm
    have howed : p.owed k = amount := by simp [Pot.owed, hamount]
    refine ⟨?_, ?_, fun i => ?_⟩
    · rw [owed_payout]
      exact support_update_finite h.finite k 0
    · have hsum := finsum_update_add h.finite k 0
      have hcov := h.covered
      simp only [owed_payout]
      change _ ≤ p.balance - p.owed k
      omega
    · have hi := h.single i
      by_cases hik : i = k
      · subst hik
        simp only [hamount, Option.isSome_some, if_true] at hi
        simp only [Pot.apply, update_self, Option.isSome_none, Bool.false_eq_true, if_false]
        omega
      · simpa [Pot.apply, update_of_ne hik] using hi

/-- With only fresh deposits the pot holds exactly the open claims. -/
theorem Pot.balanced_apply {p : Pot κ} (h : p.Solvent) (heq : ∑ᶠ k, p.owed k = p.balance)
    (m : Move κ) (hm : m.Enabled p) (hfresh : m.Fresh p) :
    ∑ᶠ k, (p.apply m).owed k = (p.apply m).balance := by
  cases m with
  | idle => exact heq
  | deposit k amount =>
    have hsum := finsum_update_add h.finite k amount
    have hk : p.owed k = 0 := by
      have : p.claims k = none := hfresh
      simp [Pot.owed, this]
    simp only [owed_deposit]
    change _ = p.balance + amount
    omega
  | payout k =>
    have hsum := finsum_update_add h.finite k 0
    simp only [owed_payout]
    change _ = p.balance - p.owed k
    omega

end Escrow
