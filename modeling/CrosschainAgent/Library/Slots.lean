import Mathlib.Logic.Function.Basic
import Mathlib.Data.List.Basic

/-!
# Slots of a table

Owners hold slots of a table, each at most one, and the table has what an owner filed in its slot. As long as
every slot that is taken is one that nobody holds, the slots stay exclusive, and what is filed in one slot
stays there whatever the other owners do.
-/

namespace Slots

open Function

variable {ι κ α : Type*} {slot : ι → Option κ} {a b : ι} {i : κ}

/-- No two owners hold the same slot. -/
def Exclusive (slot : ι → Option κ) : Prop := ∀ a b i, slot a = some i → slot b = some i → a = b

/-- Nobody holds a slot. -/
theorem exclusive_none : Exclusive fun _ : ι => (none : Option κ) := by
  intro a b i ha
  cases ha

section Table

variable {slot : ι → Option ℕ} {table : List (Option α)} {x y : α} {i : ℕ}

/-- The owner's slot has `x` in it. -/
def Filed (table : List (Option α)) (slot : ι → Option ℕ) (a : ι) (x : α) : Prop :=
  ∃ i, slot a = some i ∧ table[i]? = some (some x)

/-- A slot with nothing in it is not one where something is filed. -/
theorem Filed.ne_of_empty (h : Filed table slot a x) (hempty : table[i]? = some none) : slot a ≠ some i := by
  intro ha
  obtain ⟨j, hj, hx⟩ := h
  rw [ha, Option.some.injEq] at hj
  rw [← hj, hempty] at hx
  cases hx

/-- To file something in one's slot. -/
theorem filed_set (ha : slot a = some i) (hi : i < table.length) : Filed (table.set i (some x)) slot a x :=
  ⟨i, ha, by rw [List.getElem?_set_self hi]⟩

/-- The slot of another owner may get anything. -/
theorem Filed.set (h : Filed table slot a x) (hexclusive : Exclusive slot) (hb : slot b = some i) (hab : a ≠ b)
    (entry : Option α) : Filed (table.set i entry) slot a x := by
  obtain ⟨j, hj, hx⟩ := h
  have hij : i ≠ j := by
    intro heq
    exact hab (hexclusive a b j hj (heq ▸ hb))
  exact ⟨j, hj, by rw [List.getElem?_set_ne hij, hx]⟩

end Table

section Updates

variable [DecidableEq ι]

/-- Who takes a slot leaves the slots exclusive if and only if nobody held it. -/
theorem Exclusive.take_iff (h : Exclusive slot) (hnone : slot a = none) :
    Exclusive (update slot a (some i)) ↔ ∀ b, slot b ≠ some i := by
  constructor
  · intro hexclusive b hb
    have hba : b ≠ a := by
      intro heq
      rw [heq, hnone] at hb
      cases hb
    apply hba
    apply hexclusive b a i
    · rw [update_of_ne hba, hb]
    · rw [update_self]
  · intro hfree b c j hb hc
    by_cases hba : b = a <;> by_cases hca : c = a
    · rw [hba, hca]
    · rw [hba, update_self, Option.some.injEq] at hb
      rw [update_of_ne hca, ← hb] at hc
      exact absurd hc (hfree c)
    · rw [hca, update_self, Option.some.injEq] at hc
      rw [update_of_ne hba, ← hc] at hb
      exact absurd hb (hfree b)
    · rw [update_of_ne hba] at hb
      rw [update_of_ne hca] at hc
      exact h b c j hb hc

/-- Who gives its slot back leaves the slots exclusive. -/
theorem Exclusive.release (h : Exclusive slot) (a : ι) : Exclusive (update slot a none) := by
  intro b c j hb hc
  by_cases hba : b = a
  · rw [hba, update_self] at hb
    cases hb
  · by_cases hca : c = a
    · rw [hca, update_self] at hc
      cases hc
    · rw [update_of_ne hba] at hb
      rw [update_of_ne hca] at hc
      exact h b c j hb hc

/-- Another owner may take a slot or give one back. -/
theorem Filed.update {slot : ι → Option ℕ} {table : List (Option α)} {x : α}
    (h : Filed table slot a x) (hab : a ≠ b) (entry : Option ℕ) :
    Filed table (Function.update slot b entry) a x := by
  obtain ⟨i, hi, hx⟩ := h
  exact ⟨i, by rw [update_of_ne hab, hi], hx⟩

end Updates

end Slots
