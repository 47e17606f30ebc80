import Mathlib.Algebra.Order.Group.Defs
import Mathlib.Data.List.Chain

/-!
# Taking offers with a gap between them

Offers come one after the other, each with a time, in any order of the times. An offer is taken if its time
lies more than a gap behind that of the last one that was taken. The taken times keep the gap, and no offer
lies more than the gap behind the last taken time.
-/

namespace Throttle

variable {α τ : Type*} [AddCommGroup τ] [LinearOrder τ]

/-- The last time that is taken. -/
def latest (time : α → τ) (gap last : τ) (offers : List α) : τ :=
  offers.foldl (fun last offer => if last + gap < time offer then time offer else last) last

/-- The offers that are taken. -/
def taken (time : α → τ) (gap : τ) : τ → List α → List α
  | _, [] => []
  | last, offer :: offers =>
    if last + gap < time offer then offer :: taken time gap (time offer) offers else taken time gap last offers

variable {time : α → τ} {gap last : τ}

/-- One more offer is taken when the gap has passed. -/
theorem latest_concat (offers : List α) (offer : α) :
    latest time gap last (offers ++ [offer]) =
      if latest time gap last offers + gap < time offer then time offer else latest time gap last offers :=
  List.foldl_concat ..

/-- Whether one more offer is taken depends on the last time that was taken. -/
theorem taken_concat (offers : List α) (offer : α) :
    taken time gap last (offers ++ [offer]) = taken time gap last offers ++
      if latest time gap last offers + gap < time offer then [offer] else [] := by
  induction offers generalizing last with
  | nil => rfl
  | cons first offers ih =>
    rw [List.cons_append, taken, taken, latest, List.foldl_cons, ← latest]
    split
    next => rw [ih, List.cons_append]
    next => rw [ih]

/-- What is taken was offered, in this order. -/
theorem taken_sublist (offers : List α) : (taken time gap last offers).Sublist offers := by
  induction offers generalizing last with
  | nil => exact .slnil
  | cons offer offers ih =>
    rw [taken]
    split
    next => exact ih.cons_cons _
    next => exact ih.cons _

/-- The last time that is taken is the last one of those that are taken. -/
theorem latest_eq_getLastD (offers : List α) :
    latest time gap last offers = ((taken time gap last offers).map time).getLastD last := by
  induction offers generalizing last with
  | nil => rfl
  | cons offer offers ih =>
    rw [taken, latest, List.foldl_cons, ← latest]
    split
    next => rw [ih, List.map_cons, List.getLastD_cons]
    next => rw [ih]

/-- The taken times keep the gap. -/
theorem isChain_taken (offers : List α) :
    (last :: (taken time gap last offers).map time).IsChain fun earlier later => earlier + gap < later := by
  induction offers generalizing last with
  | nil => exact .singleton _
  | cons offer offers ih =>
    rw [taken]
    split
    next h => exact .cons_cons h ih
    next => exact ih

variable [IsOrderedAddMonoid τ]

/-- The latest time never goes back. -/
theorem le_latest (hgap : 0 ≤ gap) (offers : List α) : last ≤ latest time gap last offers := by
  induction offers using List.reverseRecOn with
  | nil => exact le_rfl
  | append_singleton offers offer ih =>
    rw [latest_concat]
    split
    next h => exact ih.trans ((le_add_of_nonneg_right hgap).trans h.le)
    next => exact ih

/-- No offer lies more than the gap behind the last taken time. -/
theorem time_le_latest (hgap : 0 ≤ gap) {offers : List α} {offer : α} (h : offer ∈ offers) :
    time offer ≤ latest time gap last offers + gap := by
  induction offers using List.reverseRecOn with
  | nil => cases h
  | append_singleton offers newest ih =>
    rw [latest_concat]
    cases List.mem_append.mp h with
    | inl hbefore =>
      split
      next htaken => exact (ih hbefore).trans (htaken.le.trans (le_add_of_nonneg_right hgap))
      next => exact ih hbefore
    | inr hnewest =>
      obtain rfl := List.mem_singleton.mp hnewest
      split
      next => exact le_add_of_nonneg_right hgap
      next hleft => exact not_lt.mp hleft

end Throttle
