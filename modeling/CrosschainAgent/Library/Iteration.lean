import Mathlib.Tactic.Common
import Mathlib.Data.List.Nodup

/-!
# Loops over an ordered map that changes

A range-based loop holds an iterator: the element it stands on, or the end. A round of the loop
may change the map. Insertions and removals of other elements leave the iterator valid; once its
own element is removed, the loop cannot go on. To advance is to look for the next greater key in
the map as it is then.
-/

namespace Iteration

variable {K S R : Type}

/-- The next key of an ordered list after the given one, if any. -/
def advance (before : K → K → Bool) (k : K) (keys : List K) : Option K := keys.find? (before k)

/-- In an ordered list the next key is the one that follows. -/
theorem advance_eq {before : K → K → Bool} (hasymm : ∀ j k, before j k → ¬before k j) {k : K}
    {done rest : List K}
    (hsorted : (done ++ k :: rest).Pairwise fun j k => before j k = true) :
    advance before k (done ++ k :: rest) = rest.head? := by
  obtain ⟨_, hrest, hdone⟩ := List.pairwise_append.mp hsorted
  have hskip : ∀ j ∈ done, ¬before k j := fun j hj =>
    hasymm j k (hdone j hj k List.mem_cons_self)
  have hself : ¬before k k := fun h => hasymm k k h h
  have hskipped : done.find? (before k) = none :=
    List.find?_eq_none.mpr fun j hj => by simpa using hskip j hj
  rw [advance, List.find?_append, hskipped, Option.none_or, List.find?_cons_of_neg hself]
  cases rest with
  | nil => rfl
  | cons j rest =>
    exact List.find?_cons_of_pos ((List.pairwise_cons.mp hrest).1 j List.mem_cons_self)

/-- How a loop ends: past the last element, or on an iterator without an element. -/
inductive Outcome where
  | finished
  | undefined
  deriving DecidableEq

/-- A loop from an iterator on: the rounds it makes, each with its key, how it ends, and where.
`Round` is what a round may do, `Erases` whether it removes the element it was made for. -/
inductive Walk (before : K → K → Bool) (keys : S → List K) (Round : S → K → R → S → Prop)
    (Erases : K → R → Prop) : Option K → S → List (K × R) → Outcome → S → Prop
  | finished (s : S) : Walk before keys Round Erases none s [] .finished s
  | advances {k : K} {s t s' : S} {r : R} {rounds : List (K × R)} {out : Outcome}
      (hround : Round s k r t) (hvalid : ¬Erases k r)
      (rest : Walk before keys Round Erases (advance before k (keys t)) t rounds out s') :
      Walk before keys Round Erases (some k) s ((k, r) :: rounds) out s'
  | invalid {k : K} {s t : S} {r : R} (hround : Round s k r t) (herased : Erases k r) :
      Walk before keys Round Erases (some k) s [(k, r)] .undefined t

variable {before : K → K → Bool} {keys : S → List K} {Round : S → K → R → S → Prop}
  {Erases : K → R → Prop} {J : S → Prop}

/-- A round that keeps its element and the keys is followed by the rounds of the keys behind it. -/
theorem Walk.next (hasymm : ∀ j k, before j k → ¬before k j)
    (hsorted : ∀ s, (keys s).Pairwise fun j k => before j k = true) {s t s' : S} {done rest : List K} {k : K}
    {r : R} {rounds : List (K × R)} {out : Outcome} (hround : Round s k r t) (hvalid : ¬Erases k r)
    (hkeys : keys t = done ++ k :: rest)
    (hrest : Walk before keys Round Erases rest.head? t rounds out s') :
    Walk before keys Round Erases (some k) s ((k, r) :: rounds) out s' := by
  have hsorted' := hsorted t
  rw [hkeys] at hsorted'
  refine .advances hround hvalid ?_
  rw [hkeys, advance_eq hasymm hsorted']
  exact hrest

/-- When rounds that keep their element keep all keys, the loop comes to its end over all the
keys there were exactly when no round removes its element. -/
theorem Walk.finished_iff (hasymm : ∀ j k, before j k → ¬before k j)
    (hsorted : ∀ s, (keys s).Pairwise fun j k => before j k = true)
    (hkeep : ∀ s k r t, J s → k ∈ keys s → Round s k r t → ¬Erases k r → keys t = keys s ∧ J t)
    {s s' : S} {done rest : List K} {rounds : List (K × R)} {out : Outcome}
    (hwalk : Walk before keys Round Erases rest.head? s rounds out s') (hs : J s)
    (hkeys : keys s = done ++ rest) :
    (out = .finished ∧ rounds.map Prod.fst = rest) ↔ ∀ p ∈ rounds, ¬Erases p.1 p.2 := by
  generalize hpos : rest.head? = pos at hwalk
  induction hwalk generalizing done rest with
  | finished s =>
    rw [List.head?_eq_none_iff.mp hpos]
    exact ⟨fun _ _ hp => absurd hp List.not_mem_nil, fun _ => ⟨rfl, rfl⟩⟩
  | @advances k s t s' r rounds out hround hvalid hrest ih =>
    obtain ⟨rest, rfl⟩ := List.head?_eq_some_iff.mp hpos
    have hmem : k ∈ keys s := by
      rw [hkeys]
      exact List.mem_append_right done List.mem_cons_self
    obtain ⟨hsame, ht⟩ := hkeep s k r t hs hmem hround hvalid
    have hkeys' : keys t = (done ++ [k]) ++ rest := by
      rw [hsame, hkeys, List.append_assoc, List.singleton_append]
    have hnext : rest.head? = advance before k (keys t) := by
      have hsorted' := hsorted s
      rw [hkeys] at hsorted'
      rw [hsame, hkeys, advance_eq hasymm hsorted']
    have hiff := ih ht hkeys' hnext
    simp only [List.map_cons, List.cons.injEq, true_and, List.forall_mem_cons]
    exact ⟨fun h => ⟨hvalid, hiff.mp h⟩, fun h => hiff.mpr h.2⟩
  | @invalid k s t r hround herased =>
    constructor
    · exact fun h => nomatch h.1
    · exact fun h => absurd herased (h (k, r) List.mem_cons_self)

/-- What every round does holds of all rounds of a loop. -/
theorem Walk.forall_rounds {P : K → R → Prop}
    (hkeep : ∀ s k r t, J s → Round s k r t → ¬Erases k r → J t)
    (hround : ∀ s k r t, J s → Round s k r t → P k r) {s s' : S} {pos : Option K}
    {rounds : List (K × R)} {out : Outcome}
    (hwalk : Walk before keys Round Erases pos s rounds out s') (hs : J s) :
    ∀ p ∈ rounds, P p.1 p.2 := by
  induction hwalk with
  | finished s => exact fun _ hp => absurd hp List.not_mem_nil
  | advances hr hvalid _ ih =>
    exact List.forall_mem_cons.mpr ⟨hround _ _ _ _ hs hr, ih (hkeep _ _ _ _ hs hr hvalid)⟩
  | invalid hr _ => exact List.forall_mem_singleton.mpr (hround _ _ _ _ hs hr)

/-- The rounds for the given keys, one after the other. -/
inductive Visits (Round : S → K → R → S → Prop) : List K → S → List (K × R) → S → Prop
  | nil (s : S) : Visits Round [] s [] s
  | cons {k : K} {ks : List K} {s t s' : S} {r : R} {rounds : List (K × R)} (hround : Round s k r t)
      (rest : Visits Round ks t rounds s') : Visits Round (k :: ks) s ((k, r) :: rounds) s'

/-- A loop that comes to its end has made the rounds of the keys there were. -/
theorem Walk.visits (hasymm : ∀ j k, before j k → ¬before k j)
    (hsorted : ∀ s, (keys s).Pairwise fun j k => before j k = true)
    (hkeep : ∀ s k r t, J s → k ∈ keys s → Round s k r t → ¬Erases k r → keys t = keys s ∧ J t)
    {s s' : S} {done rest : List K} {rounds : List (K × R)}
    (hwalk : Walk before keys Round Erases rest.head? s rounds .finished s') (hs : J s)
    (hkeys : keys s = done ++ rest) : Visits Round rest s rounds s' := by
  generalize hpos : rest.head? = pos at hwalk
  generalize hout : Outcome.finished = out at hwalk
  induction hwalk generalizing done rest with
  | finished s =>
    rw [List.head?_eq_none_iff.mp hpos]
    exact .nil s
  | @advances k s t s' r rounds out hround hvalid hrest ih =>
    obtain ⟨rest, rfl⟩ := List.head?_eq_some_iff.mp hpos
    have hmem : k ∈ keys s := by
      rw [hkeys]
      exact List.mem_append_right done List.mem_cons_self
    obtain ⟨hsame, ht⟩ := hkeep s k r t hs hmem hround hvalid
    have hkeys' : keys t = (done ++ [k]) ++ rest := by
      rw [hsame, hkeys, List.append_assoc, List.singleton_append]
    have hsorted' := hsorted s
    rw [hkeys] at hsorted'
    refine .cons hround (ih ht hkeys' ?_ hout)
    rw [hsame, hkeys, advance_eq hasymm hsorted']
  | invalid hround herased => cases hout

/-- The keys that are visited are the keys of the rounds, in their order. -/
theorem Visits.map_fst {ks : List K} {s s' : S} {rounds : List (K × R)}
    (hvisits : Visits Round ks s rounds s') : rounds.map Prod.fst = ks := by
  induction hvisits with
  | nil s => rfl
  | cons hround rest ih => rw [List.map_cons, ih]

/-- A round of the loop, and the rounds before and after it. -/
theorem Visits.split {ks : List K} {s s' : S} {before after : List (K × R)} {p : K × R}
    (hvisits : Visits Round ks s (before ++ p :: after) s') :
    ∃ t t', Visits Round (before.map Prod.fst) s before t ∧ Round t p.1 p.2 t' ∧
      Visits Round (after.map Prod.fst) t' after s' := by
  induction before generalizing ks s with
  | nil =>
    cases hvisits with
    | @cons k ks _ t _ r _ hround rest =>
      refine ⟨s, t, .nil s, hround, ?_⟩
      rwa [rest.map_fst]
  | cons q before ih =>
    cases hvisits with
    | cons hround rest =>
      obtain ⟨t, t', hbefore, hmine, hafter⟩ := ih rest
      exact ⟨t, t', .cons hround hbefore, hmine, hafter⟩

end Iteration
