import Mathlib.Tactic.Common

/-!
# Tokens of a delimited line

Reading a line token by token up to a delimiter, the way `std::getline` on a string stream
does: empty tokens in the middle are kept, and nothing is read after a final delimiter.
-/

namespace Tokens

variable {α : Type*} [DecidableEq α]

/-- The tokens a `getline` loop collects. -/
def getlines (delim : α) : List α → List (List α)
  | [] => []
  | x :: xs =>
    if x = delim then [] :: getlines delim xs
    else match getlines delim xs with
      | [] => [[x]]
      | t :: ts => (x :: t) :: ts

/-- The empty text has no lines. -/
@[simp] theorem getlines_nil (delim : α) : getlines delim [] = [] := rfl

/-- Only the empty line has no token. -/
theorem getlines_eq_nil (delim : α) {t : List α} : getlines delim t = [] ↔ t = [] := by
  cases t with
  | nil => simp
  | cons x xs =>
    rw [getlines]
    split
    · simp
    · split <;> simp

/-- A token ends at the first delimiter. -/
@[simp] theorem getlines_append (delim : α) {t : List α} (ht : delim ∉ t) (rest : List α) :
    getlines delim (t ++ delim :: rest) = t :: getlines delim rest := by
  induction t with
  | nil => simp [getlines]
  | cons x xs ih =>
    obtain ⟨hx, hxs⟩ : delim ≠ x ∧ delim ∉ xs := by simpa using ht
    simp [getlines, ih hxs, Ne.symm hx]

/-- What follows the last delimiter is one token, unless it is empty. -/
theorem getlines_last (delim : α) {t : List α} (ht : delim ∉ t) (hne : t ≠ []) :
    getlines delim t = [t] := by
  induction t with
  | nil => exact absurd rfl hne
  | cons x xs ih =>
    obtain ⟨hx, hxs⟩ : delim ≠ x ∧ delim ∉ xs := by simpa using ht
    cases xs with
    | nil => simp [getlines, Ne.symm hx]
    | cons y ys =>
      rw [getlines, if_neg (Ne.symm hx), ih hxs (List.cons_ne_nil y ys)]

/-- Tokens joined by the delimiter are read back; the last one may hold delimiters. -/
theorem getlines_intercalate (delim : α) {ts : List (List α)} (hts : ∀ t ∈ ts, delim ∉ t)
    (last : List α) :
    getlines delim (List.intercalate [delim] (ts ++ [last])) = ts ++ getlines delim last := by
  induction ts with
  | nil => simp
  | cons t ts ih =>
    obtain ⟨u, us, hcons⟩ := List.exists_cons_of_ne_nil (List.append_ne_nil_of_right_ne_nil ts
      (List.cons_ne_nil last []))
    have hrest := ih fun u hu => hts u (List.mem_cons_of_mem t hu)
    rw [List.cons_append, hcons, List.intercalate_cons_cons, List.append_assoc,
      List.singleton_append, getlines_append delim (hts t (List.mem_cons_self ..)), ← hcons, hrest]
    rfl

end Tokens
