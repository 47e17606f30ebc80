import Mathlib.Data.Finset.Card
import Mathlib.Logic.Function.Basic
import Mathlib.Tactic.Common

/-!
# The lock for one writer or many readers

`utils::ReadWriteLock` is a recursive mutex at the entrance and a count of the readers inside. A
reader takes the mutex only to raise the count. A writer keeps the mutex until it is done, and
waits in it until no reader is left. Threads run sections under the guards of the lock, one step of
its code at a time and in any order; the data a section works on are the data it found.

Two writers that overlapped would lose a change, and a reader would see half of one. They do not
overlap, so that every run is a run in which each section happens at once, and some thread can
always go on.
-/

namespace CrosschainAgent

open Function

namespace ReadWriteLock

variable {T S L : Type}

/-- What a thread does next: a step of its own, or a section under one of the guards. -/
inductive Section (S L : Type) where
  | alone (l : L)
  | readLockGuard (body : S → L)
  | writeLockGuard (body : S → S × L)

/-- Where a thread is in the code of the lock, and what its section found and made. -/
inductive Place (S L : Type) where
  | outside
  | readEntered (body : S → L)
  | readCounted (body : S → L)
  | reading (body : S → L)
  | readFound (body : S → L) (found : S)
  | readDone (l : L)
  | writeEntered (body : S → S × L)
  | writing (body : S → S × L)
  | writeFound (body : S → S × L) (found : S)
  | writeDone (l : L)

namespace Place

/-- The thread has raised the count of the readers. -/
def counts : Place S L → Bool
  | .readCounted _ | .reading _ | .readFound _ _ | .readDone _ => true
  | _ => false

/-- The thread holds the mutex. -/
def holds : Place S L → Bool
  | .readEntered _ | .readCounted _ | .writeEntered _ | .writing _ | .writeFound _ _ | .writeDone _ => true
  | _ => false

/-- The thread reads the data. -/
def reads : Place S L → Bool
  | .reading _ | .readFound _ _ | .readDone _ => true
  | _ => false

/-- The thread writes the data. -/
def writes : Place S L → Bool
  | .writing _ | .writeFound _ _ | .writeDone _ => true
  | _ => false

/-- The data the section found. -/
def found : Place S L → Option S
  | .readFound _ s | .writeFound _ s => some s
  | _ => none

/-- What the section made, while its guard is not released. -/
def made : Place S L → Option L
  | .readDone l | .writeDone l => some l
  | _ => none

/-- The section that was begun and has made nothing yet. -/
def begun : Place S L → Option (Section S L)
  | .readEntered body | .readCounted body | .reading body | .readFound body _ => some (.readLockGuard body)
  | .writeEntered body | .writing body | .writeFound body _ => some (.writeLockGuard body)
  | _ => none

/-- A reader is counted. -/
theorem counts_of_reads {p : Place S L} (h : p.reads = true) : p.counts = true := by
  cases p <;> first | rfl | cases h

/-- A writer holds the lock. -/
theorem holds_of_writes {p : Place S L} (h : p.writes = true) : p.holds = true := by
  cases p <;> first | rfl | cases h

/-- A writer is not counted. -/
theorem counts_of_writes {p : Place S L} (h : p.writes = true) : p.counts = false := by
  cases p <;> first | rfl | cases h

/-- A thread that neither counts nor holds the mutex is outside. -/
theorem eq_outside {p : Place S L} (hcounts : p.counts = false) (hholds : p.holds = false) : p = .outside := by
  cases p <;> first | rfl | (cases hcounts; done) | cases hholds

/-- Who has seen the data is counted, or writes. -/
theorem counts_or_writes_of_found {p : Place S L} {s : S} (h : p.found = some s) :
    p.counts = true ∨ p.writes = true := by
  cases p <;> first | exact Or.inl rfl | exact Or.inr rfl | cases h

end Place

/-- Threads that share data under a lock: the data, `_reads`, the owner of `_enterLock` with how often
it was locked, and where each thread is. -/
structure Threads (T S L : Type) where
  data : S
  _reads : ℤ
  _enterLock : Option (T × ℕ)
  place : T → Place S L
  state : T → L

/-- No thread has begun anything. -/
def Threads.start (data : S) (state : T → L) : Threads T S L where
  data := data
  _reads := 0
  _enterLock := none
  place := fun _ => .outside
  state := state

/-- The data, and the state of each thread with what its section made. -/
def Threads.view (w : Threads T S L) : S × (T → L) :=
  (w.data, fun t => ((w.place t).made).getD (w.state t))

variable [DecidableEq T]

/-- `Mutex::Lock` on a recursive mutex: it blocks while another thread owns it. -/
def lock (owner : Option (T × ℕ)) (t : T) : Option (Option (T × ℕ)) :=
  match owner with
  | none => some (some (t, 1))
  | some (t', n) => if t' = t then some (some (t, n + 1)) else none

/-- `Mutex::Unlock`. -/
def unlock (owner : Option (T × ℕ)) (t : T) : Option (T × ℕ) :=
  match owner with
  | none => none
  | some (t', n) => if t' = t ∧ n ≤ 1 then none else if t' = t then some (t', n - 1) else some (t', n)

variable (next : T → L → Option (Section S L))

/-- One step of a thread in `ReadLock`, `ReadUnlock`, `WriteLock` or `WriteUnlock`, or in the section
between them. A writer that finds readers inside goes on waiting. -/
def step (w : Threads T S L) (t : T) : Option (Threads T S L) :=
  match w.place t with
  | .outside =>
    match next t (w.state t) with
    | none => none
    | some (.alone l) => some { w with state := update w.state t l }
    | some (.readLockGuard body) => (lock w._enterLock t).map fun owner =>
        { w with _enterLock := owner, place := update w.place t (.readEntered body) }
    | some (.writeLockGuard body) => (lock w._enterLock t).map fun owner =>
        { w with _enterLock := owner, place := update w.place t (.writeEntered body) }
  | .readEntered body => some { w with _reads := w._reads + 1, place := update w.place t (.readCounted body) }
  | .readCounted body =>
    some { w with _enterLock := unlock w._enterLock t, place := update w.place t (.reading body) }
  | .reading body => some { w with place := update w.place t (.readFound body w.data) }
  | .readFound body found => some { w with place := update w.place t (.readDone (body found)) }
  | .readDone l => some { w with
      _reads := w._reads - 1, place := update w.place t .outside, state := update w.state t l }
  | .writeEntered body =>
    if w._reads > 0 then none else some { w with place := update w.place t (.writing body) }
  | .writing body => some { w with place := update w.place t (.writeFound body w.data) }
  | .writeFound body found => some { w with
      data := (body found).1, place := update w.place t (.writeDone (body found).2) }
  | .writeDone l => some { w with
      _enterLock := unlock w._enterLock t, place := update w.place t .outside, state := update w.state t l }

/-- A run of the threads, in the order in which they move. -/
def run (w : Threads T S L) (moves : List T) : Option (Threads T S L) := moves.foldlM (step next) w

/-- What a thread does when its sections happen at once. -/
def atomic (v : S × (T → L)) (t : T) : Option (S × (T → L)) :=
  match next t (v.2 t) with
  | none => none
  | some (.alone l) => some (v.1, update v.2 t l)
  | some (.readLockGuard body) => some (v.1, update v.2 t (body v.1))
  | some (.writeLockGuard body) => some ((body v.1).1, update v.2 t (body v.1).2)

/-- The invariant of the lock. -/
structure Inv (w : Threads T S L) : Prop where
  /-- `_reads` is the number of the threads that raised it -/
  counted : ∃ readers : Finset T, (∀ t, t ∈ readers ↔ (w.place t).counts = true) ∧
    w._reads = readers.card
  locked : ∀ t, (w.place t).holds = true ↔ w._enterLock = some (t, 1)
  owned : w._enterLock = none ∨ ∃ t, w._enterLock = some (t, 1)
  /-- while a thread writes, no reader is inside -/
  alone : ∀ t, (w.place t).writes = true → ∀ t', (w.place t').counts = false
  fresh : ∀ t s, (w.place t).found = some s → s = w.data
  planned : ∀ t plan, (w.place t).begun = some plan → next t (w.state t) = some plan

variable {next}

omit [DecidableEq T] in
/-- At the start nobody is counted and nobody writes. -/
theorem inv_start (data : S) (state : T → L) : Inv next (Threads.start data state) where
  counted := ⟨∅, by simp [Threads.start, Place.counts]⟩
  locked t := by simp [Threads.start, Place.holds]
  owned := Or.inl rfl
  alone t h := by cases h
  fresh t s h := by cases h
  planned t plan h := by cases h

omit [DecidableEq T] in
/-- Two threads do not hold the mutex. -/
theorem Inv.holds_unique {w : Threads T S L} (h : Inv next w) {t t' : T}
    (ht : (w.place t).holds = true) (ht' : (w.place t').holds = true) : t = t' := by
  have heq := ((h.locked t).mp ht).symm.trans ((h.locked t').mp ht')
  simpa using heq

omit [DecidableEq T] in
/-- A count that is not positive means that no reader is inside. -/
theorem Inv.counts_eq_false {w : Threads T S L} (h : Inv next w) (hreads : w._reads ≤ 0) (t : T) :
    (w.place t).counts = false := by
  obtain ⟨readers, hmem, hcard⟩ := h.counted
  have hempty : readers = ∅ := by
    rw [← Finset.card_eq_zero]
    omega
  simpa [hempty] using hmem t

/-- The count after a thread moved. -/
theorem counted_update {place : T → Place S L} {n : ℤ}
    (h : ∃ readers : Finset T, (∀ t, t ∈ readers ↔ (place t).counts = true) ∧ n = readers.card)
    (t : T) (p : Place S L) :
    ∃ readers : Finset T, (∀ t', t' ∈ readers ↔ (update place t p t').counts = true) ∧
      n + (if p.counts then 1 else 0) - (if (place t).counts then 1 else 0) = readers.card := by
  obtain ⟨readers, hmem, rfl⟩ := h
  have hiff : ∀ t', t' ≠ t → ((update place t p t').counts = true ↔ t' ∈ readers) := by
    intro t' ht
    rw [update_of_ne ht, hmem]
  cases hnew : p.counts with
  | true =>
    refine ⟨insert t readers, fun t' => ?_, ?_⟩
    · by_cases ht : t' = t
      · simp [ht, hnew]
      · simp [ht, hmem]
    · cases hold : (place t).counts with
      | true => simp [Finset.insert_eq_of_mem ((hmem t).mpr hold)]
      | false =>
        have hout : t ∉ readers := by simp [hmem, hold]
        simp [Finset.card_insert_of_notMem hout]
  | false =>
    refine ⟨readers.erase t, fun t' => ?_, ?_⟩
    · by_cases ht : t' = t
      · simp [ht, hnew]
      · simp [ht, hmem]
    · cases hold : (place t).counts with
      | true =>
        have hin : t ∈ readers := (hmem t).mpr hold
        have hcard := Finset.card_erase_add_one hin
        simp only [if_true, Bool.false_eq_true, if_false]
        omega
      | false =>
        have hout : t ∉ readers := by simp [hmem, hold]
        simp [Finset.erase_eq_of_notMem hout]

/-- A move of one thread that keeps to the rules of the lock: the count and the mutex follow its
place, it raises the count and writes only under the mutex, and it begins to write only where no
reader is inside. -/
structure Move (next : T → L → Option (Section S L)) (w : Threads T S L) (t : T) (p : Place S L)
    (w' : Threads T S L) : Prop where
  place : w'.place = update w.place t p
  reads : w'._reads = w._reads + (if p.counts then 1 else 0) - (if (w.place t).counts then 1 else 0)
  lock : w'._enterLock = if p.holds then some (t, 1) else if (w.place t).holds then none else w._enterLock
  free : p.holds = true → (w.place t).holds = true ∨ w._enterLock = none
  writes : p.writes = true → (w.place t).writes = true ∨ w._reads ≤ 0
  counts : p.counts = true → (w.place t).counts = true ∨ (w.place t).holds = true
  data : w'.data = w.data ∨ (w.place t).writes = true
  found : ∀ s, p.found = some s → s = w'.data
  state : ∀ t', t' ≠ t → w'.state t' = w.state t'
  planned : ∀ plan, p.begun = some plan → next t (w'.state t) = some plan

/-- Every move of a thread keeps the invariant. -/
theorem Inv.move {w : Threads T S L} (h : Inv next w) {t : T} {p : Place S L} {w' : Threads T S L}
    (hmove : Move next w t p w') : Inv next w' := by
  obtain ⟨hplace, hreads, hlock, hfree, hwrites, hcounts, hdata, hfound, hstate, hplanned⟩ := hmove
  constructor
  case counted =>
    rw [hplace, hreads]
    exact counted_update h.counted t p
  case locked =>
    intro t'
    rw [hplace, hlock]
    by_cases ht : t' = t
    · subst ht
      rw [update_self]
      by_cases hnew : p.holds = true
      · simp [hnew]
      · by_cases hold : (w.place t').holds = true
        · simp [hnew, hold]
        · simpa [hnew, hold] using h.locked t'
    · rw [update_of_ne ht, h.locked t']
      by_cases hnew : p.holds = true
      · have hother : w._enterLock ≠ some (t', 1) := by
          intro hlocked
          rcases hfree hnew with hold | hnone
          · exact ht (h.holds_unique ((h.locked t').mpr hlocked) hold)
          · rw [hnone] at hlocked
            cases hlocked
        simp [hnew, hother, Ne.symm ht]
      · by_cases hold : (w.place t).holds = true
        · have hother : w._enterLock ≠ some (t', 1) := by
            intro hlocked
            exact ht (h.holds_unique ((h.locked t').mpr hlocked) hold)
          simp [hnew, hold, hother]
        · simp [hnew, hold]
  case owned =>
    rw [hlock]
    by_cases hnew : p.holds = true
    · exact Or.inr ⟨t, if_pos hnew⟩
    · by_cases hold : (w.place t).holds = true
      · exact Or.inl (by simp [hnew, hold])
      · simpa [hnew, hold] using h.owned
  case alone =>
    intro t1 hw1 t2
    rw [hplace] at hw1 ⊢
    by_cases h1 : t1 = t
    · subst h1
      rw [update_self] at hw1
      by_cases h2 : t2 = t1
      · subst h2
        rw [update_self]
        exact Place.counts_of_writes hw1
      · rw [update_of_ne h2]
        rcases hwrites hw1 with hold | hno
        · exact h.alone t1 hold t2
        · exact h.counts_eq_false hno t2
    · rw [update_of_ne h1] at hw1
      by_cases h2 : t2 = t
      · subst h2
        rw [update_self]
        by_contra hcount
        rcases hcounts (Bool.eq_true_of_not_eq_false hcount) with hold | hold
        · rw [h.alone t1 hw1 t2] at hold
          cases hold
        · exact h1 (h.holds_unique (Place.holds_of_writes hw1) hold)
      · rw [update_of_ne h2]
        exact h.alone t1 hw1 t2
  case fresh =>
    intro t' s hs
    rw [hplace] at hs
    by_cases ht : t' = t
    · subst ht
      rw [update_self] at hs
      exact hfound s hs
    · rw [update_of_ne ht] at hs
      rcases hdata with hsame | hold
      · rw [hsame]
        exact h.fresh t' s hs
      · exfalso
        cases Place.counts_or_writes_of_found hs with
        | inl hcount =>
          rw [h.alone t hold t'] at hcount
          cases hcount
        | inr hwrite => exact ht (h.holds_unique (Place.holds_of_writes hwrite) (Place.holds_of_writes hold))
  case planned =>
    intro t' plan hplan
    rw [hplace] at hplan
    by_cases ht : t' = t
    · subst ht
      rw [update_self] at hplan
      exact hplanned plan hplan
    · rw [update_of_ne ht] at hplan
      rw [hstate t' ht]
      exact h.planned t' plan hplan

/-- A thread that enters finds the mutex free. -/
theorem Inv.lock_eq_some {w : Threads T S L} (h : Inv next w) {t : T} (hout : (w.place t).holds = false)
    {owner : Option (T × ℕ)} (hlock : lock w._enterLock t = some owner) :
    w._enterLock = none ∧ owner = some (t, 1) := by
  rcases h.owned with hnone | ⟨t', howner⟩
  · rw [hnone, lock, Option.some_inj] at hlock
    exact ⟨hnone, hlock.symm⟩
  · have hne : t' ≠ t := by
      rintro rfl
      rw [(h.locked t').mpr howner] at hout
      cases hout
    simp [howner, lock, hne] at hlock

/-- A thread that holds the mutex frees it. -/
theorem Inv.unlock_eq_none {w : Threads T S L} (h : Inv next w) {t : T} (hin : (w.place t).holds = true) :
    unlock w._enterLock t = none := by
  simp [(h.locked t).mp hin, unlock]

omit [DecidableEq T] in
/-- The view shows the data. -/
theorem view_fst (w : Threads T S L) : w.view.1 = w.data := rfl

omit [DecidableEq T] in
/-- The state that a view shows of a thread that has made nothing. -/
theorem view_of_made_none {w : Threads T S L} {t : T} (h : (w.place t).made = none) :
    w.view.2 t = w.state t := by
  simp [Threads.view, h]

/-- The view after a thread moved. -/
theorem Move.view {w w' : Threads T S L} {t : T} {p : Place S L} (h : Move next w t p w') :
    w'.view = (w'.data, update w.view.2 t (p.made.getD (w'.state t))) := by
  refine Prod.ext rfl (funext fun t' => ?_)
  by_cases ht : t' = t
  · subst ht
    simp [Threads.view, h.place]
  · simp [Threads.view, h.place, ht, h.state t' ht]

/-- A move that makes nothing and changes nothing leaves the view as it was. -/
theorem Move.view_eq {w w' : Threads T S L} {t : T} {p : Place S L} (h : Move next w t p w')
    (hdata : w'.data = w.data)
    (hmade : p.made.getD (w'.state t) = ((w.place t).made).getD (w.state t)) : w'.view = w.view := by
  rw [h.view, hmade, hdata]
  exact Prod.ext rfl (update_eq_self t _)

/-- What a step does: it is a move by the rules, and in the view it is nothing at all or the whole
section. -/
theorem Inv.step_move {w w' : Threads T S L} (h : Inv next w) {t : T} (hstep : step next w t = some w') :
    ∃ p, Move next w t p w' ∧ (w'.view = w.view ∨ atomic next w.view t = some w'.view) := by
  unfold ReadWriteLock.step at hstep
  cases hp : w.place t with
  | outside =>
    simp only [hp] at hstep
    have hstate := view_of_made_none (w := w) (t := t) (by rw [hp]; rfl)
    cases hn : next t (w.state t) with
    | none => simp [hn] at hstep
    | some plan =>
      cases plan with
      | alone l =>
        simp only [hn, Option.some_inj] at hstep
        subst hstep
        have hsame : w.place = update w.place t .outside := by rw [← hp, update_eq_self]
        have hmove : Move next w t .outside { w with state := update w.state t l } := by
          constructor
          case place => exact hsame
          all_goals simp +contextual [hp, Place.counts, Place.holds, Place.writes, Place.found, Place.begun]
        refine ⟨_, hmove, Or.inr ?_⟩
        rw [hmove.view]
        simp [atomic, view_fst, hstate, hn, Place.made]
      | readLockGuard body =>
        simp only [hn, Option.map_eq_some_iff] at hstep
        obtain ⟨owner, hlock, rfl⟩ := hstep
        obtain ⟨hnone, rfl⟩ := h.lock_eq_some (by rw [hp]; rfl) hlock
        have hmove : Move next w t (.readEntered body)
            { w with _enterLock := some (t, 1), place := update w.place t (.readEntered body) } := by
          constructor
          all_goals simp +contextual [hp, hn, hnone, Place.counts, Place.holds, Place.writes, Place.found,
            Place.begun]
        exact ⟨_, hmove, Or.inl (hmove.view_eq rfl (by simp [hp, Place.made]))⟩
      | writeLockGuard body =>
        simp only [hn, Option.map_eq_some_iff] at hstep
        obtain ⟨owner, hlock, rfl⟩ := hstep
        obtain ⟨hnone, rfl⟩ := h.lock_eq_some (by rw [hp]; rfl) hlock
        have hmove : Move next w t (.writeEntered body)
            { w with _enterLock := some (t, 1), place := update w.place t (.writeEntered body) } := by
          constructor
          all_goals simp +contextual [hp, hn, hnone, Place.counts, Place.holds, Place.writes, Place.found,
            Place.begun]
        exact ⟨_, hmove, Or.inl (hmove.view_eq rfl (by simp [hp, Place.made]))⟩
  | readEntered body =>
    simp only [hp, Option.some_inj] at hstep
    subst hstep
    have hlock := (h.locked t).mp (by rw [hp]; rfl)
    have hplan := h.planned t (.readLockGuard body) (by rw [hp]; rfl)
    have hmove : Move next w t (.readCounted body) { w with
        _reads := w._reads + 1, place := update w.place t (.readCounted body) } := by
      constructor
      all_goals simp +contextual [hp, hlock, hplan, Place.counts, Place.holds, Place.writes, Place.found,
        Place.begun]
    exact ⟨_, hmove, Or.inl (hmove.view_eq rfl (by simp [hp, Place.made]))⟩
  | readCounted body =>
    simp only [hp, Option.some_inj, h.unlock_eq_none (t := t) (by rw [hp]; rfl)] at hstep
    subst hstep
    have hplan := h.planned t (.readLockGuard body) (by rw [hp]; rfl)
    have hmove : Move next w t (.reading body)
        { w with _enterLock := none, place := update w.place t (.reading body) } := by
      constructor
      all_goals simp +contextual [hp, hplan, Place.counts, Place.holds, Place.writes, Place.found, Place.begun]
    exact ⟨_, hmove, Or.inl (hmove.view_eq rfl (by simp [hp, Place.made]))⟩
  | reading body =>
    simp only [hp, Option.some_inj] at hstep
    subst hstep
    have hplan := h.planned t (.readLockGuard body) (by rw [hp]; rfl)
    have hmove : Move next w t (.readFound body w.data)
        { w with place := update w.place t (.readFound body w.data) } := by
      constructor
      all_goals simp +contextual [hp, hplan, Place.counts, Place.holds, Place.writes, Place.found, Place.begun]
    exact ⟨_, hmove, Or.inl (hmove.view_eq rfl (by simp [hp, Place.made]))⟩
  | readFound body found =>
    simp only [hp, Option.some_inj] at hstep
    subst hstep
    have hfound := h.fresh t found (by rw [hp]; rfl)
    have hplan := h.planned t (.readLockGuard body) (by rw [hp]; rfl)
    have hmove : Move next w t (.readDone (body found))
        { w with place := update w.place t (.readDone (body found)) } := by
      constructor
      all_goals simp +contextual [hp, Place.counts, Place.holds, Place.writes, Place.found, Place.begun]
    refine ⟨_, hmove, Or.inr ?_⟩
    have hstate := view_of_made_none (w := w) (t := t) (by rw [hp]; rfl)
    rw [hmove.view]
    simp [atomic, view_fst, hstate, hplan, hfound, Place.made]
  | readDone l =>
    simp only [hp, Option.some_inj] at hstep
    subst hstep
    have hmove : Move next w t .outside { w with
        _reads := w._reads - 1, place := update w.place t .outside, state := update w.state t l } := by
      constructor
      all_goals simp +contextual [hp, Place.counts, Place.holds, Place.writes, Place.found, Place.begun]
    exact ⟨_, hmove, Or.inl (hmove.view_eq rfl (by simp [hp, Place.made]))⟩
  | writeEntered body =>
    simp only [hp, Option.ite_none_left_eq_some, Option.some_inj] at hstep
    obtain ⟨hnone, rfl⟩ := hstep
    have hlock := (h.locked t).mp (by rw [hp]; rfl)
    have hplan := h.planned t (.writeLockGuard body) (by rw [hp]; rfl)
    have hmove : Move next w t (.writing body) { w with place := update w.place t (.writing body) } := by
      constructor
      case writes => exact fun _ => Or.inr (not_lt.mp hnone)
      all_goals simp +contextual [hp, hlock, hplan, Place.counts, Place.holds, Place.writes, Place.found,
        Place.begun]
    exact ⟨_, hmove, Or.inl (hmove.view_eq rfl (by simp [hp, Place.made]))⟩
  | writing body =>
    simp only [hp, Option.some_inj] at hstep
    subst hstep
    have hlock := (h.locked t).mp (by rw [hp]; rfl)
    have hplan := h.planned t (.writeLockGuard body) (by rw [hp]; rfl)
    have hmove : Move next w t (.writeFound body w.data)
        { w with place := update w.place t (.writeFound body w.data) } := by
      constructor
      all_goals simp +contextual [hp, hlock, hplan, Place.counts, Place.holds, Place.writes, Place.found,
        Place.begun]
    exact ⟨_, hmove, Or.inl (hmove.view_eq rfl (by simp [hp, Place.made]))⟩
  | writeFound body found =>
    simp only [hp, Option.some_inj] at hstep
    subst hstep
    have hlock := (h.locked t).mp (by rw [hp]; rfl)
    have hfound := h.fresh t found (by rw [hp]; rfl)
    have hplan := h.planned t (.writeLockGuard body) (by rw [hp]; rfl)
    have hmove : Move next w t (.writeDone (body found).2) { w with
        data := (body found).1, place := update w.place t (.writeDone (body found).2) } := by
      constructor
      all_goals simp +contextual [hp, hlock, Place.counts, Place.holds, Place.writes, Place.found, Place.begun]
    refine ⟨_, hmove, Or.inr ?_⟩
    have hstate := view_of_made_none (w := w) (t := t) (by rw [hp]; rfl)
    rw [hmove.view]
    simp [atomic, view_fst, hstate, hplan, hfound, Place.made]
  | writeDone l =>
    simp only [hp, Option.some_inj, h.unlock_eq_none (t := t) (by rw [hp]; rfl)] at hstep
    subst hstep
    have hmove : Move next w t .outside { w with
        _enterLock := none, place := update w.place t .outside, state := update w.state t l } := by
      constructor
      all_goals simp +contextual [hp, Place.counts, Place.holds, Place.writes, Place.found, Place.begun]
    exact ⟨_, hmove, Or.inl (hmove.view_eq rfl (by simp [hp, Place.made]))⟩

/-- In a run each section happens at once: the run is one of whole sections, in an order in which the
threads moved. -/
theorem run_atomic {w w' : Threads T S L} (h : Inv next w) {moves : List T}
    (hrun : run next w moves = some w') :
    Inv next w' ∧ ∃ order : List T, order.Sublist moves ∧
      order.foldlM (atomic next) w.view = some w'.view := by
  induction moves generalizing w with
  | nil =>
    cases hrun
    exact ⟨h, [], List.Sublist.slnil, rfl⟩
  | cons t moves ih =>
    rw [run, List.foldlM_cons] at hrun
    obtain ⟨u, hu, hrest⟩ := Option.bind_eq_some_iff.mp hrun
    obtain ⟨p, hmove, hview⟩ := h.step_move hu
    obtain ⟨hw', order, hsub, horder⟩ := ih (h.move hmove) hrest
    refine ⟨hw', ?_⟩
    cases hview with
    | inl hsame => exact ⟨order, hsub.cons t, hsame ▸ horder⟩
    | inr hatomic =>
      refine ⟨t :: order, hsub.cons_cons t, ?_⟩
      rw [List.foldlM_cons, hatomic]
      exact horder

omit [DecidableEq T] in
/-- While a thread writes, no other thread reads or writes. -/
theorem Inv.exclusive {w : Threads T S L} (h : Inv next w) {t t' : T} (hne : t' ≠ t)
    (hwrites : (w.place t).writes = true) :
    (w.place t').reads = false ∧ (w.place t').writes = false := by
  constructor
  · by_contra hreads
    have hcounts := Place.counts_of_reads (Bool.eq_true_of_not_eq_false hreads)
    rw [h.alone t hwrites t'] at hcounts
    cases hcounts
  · by_contra hother
    exact hne (h.holds_unique (Place.holds_of_writes (Bool.eq_true_of_not_eq_false hother))
      (Place.holds_of_writes hwrites))

/-- A thread that is inside can go on, unless it waits for readers. -/
theorem step_isSome {w : Threads T S L} {t : T} (hin : w.place t ≠ .outside)
    (hwaits : ∀ body, w.place t = .writeEntered body → w._reads ≤ 0) : (step next w t).isSome := by
  unfold ReadWriteLock.step
  cases hp : w.place t with
  | outside => exact absurd hp hin
  | writeEntered body => simp [not_lt.mpr (hwaits body hp)]
  | _ => simp

/-- The threads never stop each other: while one has something to do, one of them can move. -/
theorem Inv.progress {w : Threads T S L} (h : Inv next w) {t : T}
    (hopen : w.place t ≠ .outside ∨ (next t (w.state t)).isSome) : ∃ t', (step next w t').isSome := by
  by_cases hreads : w._reads ≤ 0
  · rcases h.owned with hnone | ⟨owner, howner⟩
    · by_cases hin : w.place t = .outside
      · refine ⟨t, ?_⟩
        obtain ⟨plan, hplan⟩ := Option.isSome_iff_exists.mp (hopen.resolve_left (not_not.mpr hin))
        cases plan <;> simp [ReadWriteLock.step, hin, hplan, hnone, lock]
      · exact ⟨t, step_isSome hin fun _ _ => hreads⟩
    · have hholds := (h.locked owner).mpr howner
      refine ⟨owner, step_isSome ?_ fun _ _ => hreads⟩
      intro hout
      rw [hout] at hholds
      cases hholds
  · obtain ⟨readers, hmem, hcard⟩ := h.counted
    obtain ⟨reader, hreader⟩ : readers.Nonempty := by
      rw [← Finset.card_pos]
      omega
    have hcounts := (hmem reader).mp hreader
    refine ⟨reader, step_isSome ?_ ?_⟩
    · intro hout
      rw [hout] at hcounts
      cases hcounts
    · intro body hp
      rw [hp] at hcounts
      cases hcounts

end ReadWriteLock

end CrosschainAgent
