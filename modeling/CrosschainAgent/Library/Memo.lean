import Mathlib.Logic.Function.Basic
import Mathlib.Data.List.Basic

/-!
# A table of results under a key

A call looks up the key of its argument; where the table has nothing there, it computes the result and puts
it into the table. Whether the table can be noticed depends on what the key leaves out of the argument: from
an empty table on, every call returns what it would compute exactly when no two calls of one key compute
different results.
-/

namespace Memo

variable {α κ β : Type} (key : α → κ) (compute : α → β)

/-- What a table holds under the key of an argument is what that argument computes. -/
def Right (table : κ → Option β) (a : α) : Prop := ∀ b, table (key a) = some b → b = compute a

variable {key compute} in
/-- An empty table is right for every argument. -/
theorem right_empty (a : α) : Right key compute (fun _ => none) a := by
  intro b hb
  cases hb

variable [DecidableEq κ]

/-- One call: what it returns, and the table after it. -/
def call (table : κ → Option β) (a : α) : β × (κ → Option β) :=
  match table (key a) with
  | some b => (b, table)
  | none => (compute a, Function.update table (key a) (some (compute a)))

/-- What the calls of a list return, one after the other. -/
def run : (κ → Option β) → List α → List β
  | _, [] => []
  | table, a :: rest => (call key compute table a).1 :: run (call key compute table a).2 rest

variable {key compute}

/-- A call returns what its argument computes exactly when the table is right for it. -/
theorem call_fst {table : κ → Option β} {a : α} :
    (call key compute table a).1 = compute a ↔ Right key compute table a := by
  cases h : table (key a) with
  | none => simp [call, Right, h]
  | some b => simp [call, Right, h]

/-- A call that is made again returns the same. -/
theorem call_call (table : κ → Option β) (a : α) :
    (call key compute (call key compute table a).2 a).1 = (call key compute table a).1 := by
  cases h : table (key a) with
  | none => simp [call, h]
  | some b => simp [call, h]

/-- After such a call the table is right for another argument exactly when it was so before and the two do
not compute different results under one key. -/
theorem right_call {table : κ → Option β} {a : α} (hright : Right key compute table a) (b : α) :
    Right key compute (call key compute table a).2 b ↔
      Right key compute table b ∧ (key a = key b → compute a = compute b) := by
  cases h : table (key a) with
  | some c =>
    have hc : c = compute a := hright c h
    simp only [call, h]
    rw [iff_self_and]
    intro hb hkey
    exact hc.symm.trans (hb c (hkey ▸ h))
  | none =>
    simp only [call, h]
    by_cases hkey : key a = key b
    · have hfree : Right key compute table b := by
        intro c hc
        rw [← hkey, h] at hc
        cases hc
      have hentry : Function.update table (key a) (some (compute a)) (key b) = some (compute a) := by
        rw [← hkey, Function.update_self]
      constructor
      · intro hafter
        exact ⟨hfree, fun _ => hafter _ hentry⟩
      · intro hboth c hc
        rw [hentry, Option.some_inj] at hc
        exact hc.symm.trans (hboth.2 hkey)
    · have hne : key b ≠ key a := fun heq => hkey heq.symm
      simp [Right, Function.update_of_ne hne, hkey]

/-- The calls of a list return what they would compute exactly when the table is right for them at the start
and no two of them compute different results under one key. -/
theorem run_eq_map (table : κ → Option β) (calls : List α) :
    run key compute table calls = calls.map compute ↔
      (∀ b ∈ calls, Right key compute table b) ∧
        calls.Pairwise fun a b => key a = key b → compute a = compute b := by
  induction calls generalizing table with
  | nil => simp [run]
  | cons a rest ih =>
    rw [run, List.map_cons, List.cons.injEq, call_fst, ih, List.forall_mem_cons, List.pairwise_cons, and_assoc]
    apply and_congr_right
    intro hright
    have hrest : (∀ b ∈ rest, Right key compute (call key compute table a).2 b) ↔
        (∀ b ∈ rest, Right key compute table b) ∧ ∀ b ∈ rest, key a = key b → compute a = compute b := by
      rw [← forall₂_and]
      exact forall₂_congr fun b _ => right_call hright b
    rw [hrest, and_assoc]

/-- From an empty table on, only the calls themselves count. -/
theorem run_empty_eq_map (calls : List α) :
    run key compute (fun _ => none) calls = calls.map compute ↔
      calls.Pairwise fun a b => key a = key b → compute a = compute b := by
  rw [run_eq_map, and_iff_right fun b _ => right_empty b]

end Memo
