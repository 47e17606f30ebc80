import CrosschainAgent.Glue.Operations
import CrosschainAgent.Library.Slots
import Mathlib.Data.Fintype.Basic

/-!
# The write batches of the storage

`Storage` keeps the write batches in a vector of shared pointers, and a `BatchIndex` is a place of it.
`NewWriteBatch` looks for a free place under the lock, and takes it under the lock again; the other functions
find their batch by its place. The threads interleave between these steps. `batch_` is there as long as the
`Storage` is, what is done to one batch is taken to happen at once, and what the functions return is left out.
-/

namespace CrosschainAgent

open Function

/-- A write that waits in a batch. -/
inductive BatchWrite where
  | put (key value : Text)
  | delete (key : Text)
  deriving DecidableEq

/-- `ConsistentWriteBatch`: the writes that wait in it, in their order. -/
abbrev ConsistentWriteBatch := List BatchWrite

namespace ConsistentWriteBatch

def put (batch : ConsistentWriteBatch) (key value : Text) : ConsistentWriteBatch := batch ++ [.put key value]

def delete (batch : ConsistentWriteBatch) (key : Text) : ConsistentWriteBatch := batch ++ [.delete key]

def clear (_batch_ : ConsistentWriteBatch) : ConsistentWriteBatch := []

/-- The database after a `WriteBatch` of the driver that succeeds. -/
def written (batch : ConsistentWriteBatch) (db : Database) : Database :=
  batch.foldl (fun db write => match write with
    | .put key value => db.insert key value
    | .delete key => db.erase key) db

end ConsistentWriteBatch

def maxBatchCount : ℕ := 10000

/-- `DomianBatchVector`: a batch stands for its pointer, by its number, and `none` for the null pointer. -/
structure DomianBatchVector where
  domainBatchRecord : List (Option ℕ) := List.replicate 100 none

namespace DomianBatchVector

/-- `ThreadSafeAdd`. Outside of the vector the access is undefined, and nothing is returned. -/
def threadSafeAdd (vector : DomianBatchVector) (index : ℕ) (batch : Option ℕ) : Option DomianBatchVector :=
  if index < vector.domainBatchRecord.length then some ⟨vector.domainBatchRecord.set index batch⟩ else none

/-- `ThreadSafeGetIndex`, which returns nothing where the process exits. -/
def threadSafeGetIndex (vector : DomianBatchVector) : Option ℕ :=
  let batchSize := vector.domainBatchRecord.length
  let index := (vector.domainBatchRecord.findIdx? (·.isNone)).getD batchSize
  if index = maxBatchCount then none else some index

/-- A vector below `MAX_BATCH_COUNT` is searched to its end. -/
theorem threadSafeGetIndex_of_lt {vector : DomianBatchVector}
    (h : vector.domainBatchRecord.length < maxBatchCount) :
    vector.threadSafeGetIndex =
      some ((vector.domainBatchRecord.findIdx? (·.isNone)).getD vector.domainBatchRecord.length) := by
  have hle : (vector.domainBatchRecord.findIdx? (·.isNone)).getD vector.domainBatchRecord.length ≤
      vector.domainBatchRecord.length := by
    cases hfind : vector.domainBatchRecord.findIdx? (·.isNone) with
    | none => exact le_rfl
    | some index =>
      obtain ⟨hlt, -⟩ := List.findIdx?_eq_some_iff_getElem.mp hfind
      exact hlt.le
  exact if_neg (by omega)

/-- `ThreadSafeGetByIndex`. Outside of the vector the access is undefined, and nothing is returned, except from
`MAX_BATCH_COUNT` on. -/
def threadSafeGetByIndex (vector : DomianBatchVector) (index : ℕ) : Option (Option ℕ) :=
  if index ≥ maxBatchCount then some none else vector.domainBatchRecord[index]?

end DomianBatchVector

/-- The functions that use a batch. -/
inductive BatchUse where
  | batchPut (key value : Text)
  | batchDelete (key : Text)
  | batchClear
  | writeBatch

namespace BatchUse

/-- What is done to the batch and to the database; `ret` says whether the database takes the batch. -/
def apply (ret : Bool) (batch : ConsistentWriteBatch) (db : Database) :
    BatchUse → ConsistentWriteBatch × Database
  | .batchPut key value => (batch.put key value, db)
  | .batchDelete key => (batch.delete key, db)
  | .batchClear => (batch.clear, db)
  | .writeBatch => (batch, if ret then batch.written db else db)

/-- What is left to do: `WriteBatch` clears the batch that the database has taken. -/
def rest (ret : Bool) : BatchUse → Option BatchUse
  | .writeBatch => if ret then some .batchClear else none
  | _ => none

end BatchUse

/-- What a thread is at: between the two steps of `NewWriteBatch`, with the place it found for the
`BatchIndex`, or at a use of a `BatchIndex`, with the pointer it found. -/
inductive BatchCall where
  | idle
  | newWriteBatch (b index : ℕ)
  | uses (b : ℕ) (use : BatchUse) (batchPtr : Option ℕ)

namespace BatchCall

/-- What a thread is at that is left with a use, or with nothing. -/
def after (b batchPtr : ℕ) : Option BatchUse → BatchCall
  | none => .idle
  | some use => .uses b use (some batchPtr)

/-- The `BatchIndex` that the call is to return. -/
def makes : BatchCall → Option ℕ
  | .newWriteBatch b _ => some b
  | _ => none

/-- The `BatchIndex` that the call was passed. -/
def holds : BatchCall → Option ℕ
  | .uses b _ _ => some b
  | _ => none

/-- The call that makes a batch is a `NewWriteBatch` past its search. -/
theorem makes_eq_some {call : BatchCall} {b : ℕ} :
    call.makes = some b ↔ ∃ index, call = .newWriteBatch b index := by
  cases call <;> simp [makes]

/-- What follows a search makes no batch. -/
@[simp]
theorem makes_after (b batchPtr : ℕ) (rest : Option BatchUse) : (after b batchPtr rest).makes = none := by
  cases rest <;> rfl

/-- A batch is used as it was found. -/
theorem after_eq_uses {b found b' : ℕ} {rest : Option BatchUse} {use : BatchUse} {batchPtr : Option ℕ}
    (h : after b found rest = .uses b' use batchPtr) : b = b' ∧ batchPtr = some found := by
  cases rest with
  | none => cases h
  | some rest =>
    cases h
    exact ⟨rfl, rfl⟩

section update

variable {T : Type} [DecidableEq T] {thread : T → BatchCall} {t t' : T} {call : BatchCall} {b : ℕ}

/-- A thread that goes on to something else makes what it did. -/
theorem newWriteBatch_of_update (hcall : call.makes = none) {index : ℕ}
    (ht' : update thread t call t' = .newWriteBatch b index) : thread t' = .newWriteBatch b index := by
  rw [update_apply] at ht'
  split at ht'
  · rw [ht'] at hcall
    cases hcall
  · exact ht'

/-- A thread that makes a batch made it before, when the new call makes none. -/
theorem makes_of_update (hcall : call.makes = none) (ht' : (update thread t call t').makes = some b) :
    (thread t').makes = some b := by
  obtain ⟨index, ht'⟩ := makes_eq_some.mp ht'
  exact makes_eq_some.mpr ⟨index, newWriteBatch_of_update hcall ht'⟩

/-- No call is to return what none was, unless the thread goes on to make it. -/
theorem makes_update_iff (h : (thread t).makes ≠ some b) :
    (∀ t', (update thread t call t').makes ≠ some b) ↔
      call.makes ≠ some b ∧ ∀ t', (thread t').makes ≠ some b := by
  rw [forall_update_iff thread fun _ call => call.makes ≠ some b]
  constructor
  · intro hothers
    refine ⟨hothers.1, fun t' => ?_⟩
    by_cases heq : t' = t
    · exact heq ▸ h
    · exact hothers.2 t' heq
  · intro hall
    exact ⟨hall.1, fun t' _ => hall.2 t'⟩

end update

end BatchCall

/-- `Storage` and the threads. The calls of `NewWriteBatch` are numbered; the `BatchIndex` that a call makes has
its number, and so has its `ConsistentWriteBatch`. `passed` are the indexes that were passed to `ThreadSafeAdd`
and `ThreadSafeGetByIndex`. Once it is `ended`, the process has exited, or nothing is defined any more. -/
structure Storage (T : Type) where
  batchVector : DomianBatchVector
  db : Database
  made : ℕ
  batches : ℕ → ConsistentWriteBatch
  batchIndex : ℕ → Option ℕ
  thread : T → BatchCall
  passed : List ℕ
  ended : Bool

/-- The steps: `NewWriteBatch` looks for a place, and takes it; a use finds its batch, and uses it; the last
pointer to a `BatchIndex` is dropped. -/
inductive BatchStep (T : Type) where
  | search (t : T)
  | add (t : T)
  | lookup (t : T) (b : ℕ) (use : BatchUse)
  | act (t : T) (ret : Bool)
  | release (t : T) (b : ℕ)

namespace Storage

variable {T : Type} [DecidableEq T]

/-- `NewWriteBatch` up to its search. -/
def search (s : Storage T) (t : T) : Storage T :=
  match s.batchVector.threadSafeGetIndex with
  | none => { s with ended := true }
  | some index =>
    { s with
      made := s.made + 1
      batchIndex := update s.batchIndex s.made (some index)
      thread := update s.thread t (.newWriteBatch s.made index) }

/-- A call of `ThreadSafeAdd`. -/
def threadSafeAdd (s : Storage T) (index : ℕ) (batch : Option ℕ) : Storage T :=
  match s.batchVector.threadSafeAdd index batch with
  | none => { s with passed := index :: s.passed, ended := true }
  | some batchVector => { s with batchVector := batchVector, passed := index :: s.passed }

omit [DecidableEq T] in
/-- Adding in a slot that exists replaces what is there. -/
theorem threadSafeAdd_of_lt {s : Storage T} {index : ℕ} (h : index < s.batchVector.domainBatchRecord.length)
    (batch : Option ℕ) :
    s.threadSafeAdd index batch =
      { s with
        batchVector := ⟨s.batchVector.domainBatchRecord.set index batch⟩
        passed := index :: s.passed } := by
  rw [threadSafeAdd, DomianBatchVector.threadSafeAdd, if_pos h]

/-- `NewWriteBatch` from its search on. -/
def add (s : Storage T) (t : T) (b index : ℕ) : Storage T :=
  let s := { s with batches := update s.batches b [], thread := update s.thread t .idle }
  s.threadSafeAdd index (some b)

/-- `BatchPut`, `BatchDelete`, `BatchClear` and `WriteBatch` up to the batch that they find. -/
def lookup (s : Storage T) (t : T) (b : ℕ) (use : BatchUse) (index : ℕ) : Storage T :=
  match s.batchVector.threadSafeGetByIndex index with
  | none => { s with passed := index :: s.passed, ended := true }
  | some batchPtr =>
    { s with thread := update s.thread t (.uses b use batchPtr), passed := index :: s.passed }

/-- What they do with it; they return at once when there is none. -/
def act (s : Storage T) (t : T) (ret : Bool) (b : ℕ) (use : BatchUse) : Option ℕ → Storage T
  | none => { s with thread := update s.thread t .idle }
  | some batchPtr =>
    let (batch, db) := use.apply ret (s.batches batchPtr) s.db
    { s with
      db := db
      batches := update s.batches batchPtr batch
      thread := update s.thread t (.after b batchPtr (use.rest ret)) }

/-- `~BatchIndex`, which calls `ReleaseBatch`. -/
def release (s : Storage T) (b index : ℕ) : Storage T :=
  let s := s.threadSafeAdd index none
  { s with batchIndex := update s.batchIndex b none }

/-- No call is still to return the `BatchIndex`. -/
def Returned (s : Storage T) (b : ℕ) : Prop := ∀ t, (s.thread t).makes ≠ some b

/-- No call has a pointer to the `BatchIndex`: it is passed by value. -/
def Unused (s : Storage T) (b : ℕ) : Prop := ∀ t, (s.thread t).holds ≠ some b

variable [Fintype T]

instance (s : Storage T) (b : ℕ) : Decidable (s.Returned b) := inferInstanceAs (Decidable (∀ _, _))

instance (s : Storage T) (b : ℕ) : Decidable (s.Unused b) := inferInstanceAs (Decidable (∀ _, _))

/-- One step, if it is possible. -/
def step (s : Storage T) (label : BatchStep T) : Option (Storage T) :=
  if s.ended then none
  else
    match label with
    | .search t =>
      match s.thread t with
      | .idle => some (s.search t)
      | _ => none
    | .add t =>
      match s.thread t with
      | .newWriteBatch b index => some (s.add t b index)
      | _ => none
    | .lookup t b use =>
      match s.thread t, s.batchIndex b with
      | .idle, some index => if s.Returned b then some (s.lookup t b use index) else none
      | _, _ => none
    | .act t ret =>
      match s.thread t with
      | .uses b use batchPtr => some (s.act t ret b use batchPtr)
      | _ => none
    | .release t b =>
      match s.thread t, s.batchIndex b with
      | .idle, some index => if s.Returned b ∧ s.Unused b then some (s.release b index) else none
      | _, _ => none

/-- One step, by what it needs and what it leaves. -/
inductive Steps (s : Storage T) : BatchStep T → Storage T → Prop
  | search (t : T) (idle : s.thread t = .idle) : Steps s (.search t) (s.search t)
  | add (t : T) (b index : ℕ) (adds : s.thread t = .newWriteBatch b index) : Steps s (.add t) (s.add t b index)
  | lookup (t : T) (b : ℕ) (use : BatchUse) (index : ℕ) (idle : s.thread t = .idle)
      (held : s.batchIndex b = some index) (returned : s.Returned b) :
      Steps s (.lookup t b use) (s.lookup t b use index)
  | act (t : T) (ret : Bool) (b : ℕ) (use : BatchUse) (batchPtr : Option ℕ)
      (found : s.thread t = .uses b use batchPtr) : Steps s (.act t ret) (s.act t ret b use batchPtr)
  | release (t : T) (b index : ℕ) (idle : s.thread t = .idle) (held : s.batchIndex b = some index)
      (returned : s.Returned b) (unused : s.Unused b) : Steps s (.release t b) (s.release b index)

/-- Every step that is possible is one of these. -/
theorem step_steps {s s' : Storage T} {label : BatchStep T} (hstep : s.step label = some s') :
    Steps s label s' := by
  unfold step at hstep
  split at hstep
  next => cases hstep
  next hgoing =>
    cases label with
    | search t =>
      simp only at hstep
      split at hstep
      next hidle =>
        cases hstep
        exact .search t hidle
      next => cases hstep
    | add t =>
      simp only at hstep
      split at hstep
      next b index hadds =>
        cases hstep
        exact .add t b index hadds
      next => cases hstep
    | lookup t b use =>
      simp only at hstep
      split at hstep
      next index hidle hheld =>
        split at hstep
        next hreturned =>
          cases hstep
          exact .lookup t b use index hidle hheld hreturned
        next => cases hstep
      next => cases hstep
    | act t ret =>
      simp only at hstep
      split at hstep
      next b use batchPtr hfound =>
        cases hstep
        exact .act t ret b use batchPtr hfound
      next => cases hstep
    | release t b =>
      simp only at hstep
      split at hstep
      next index hidle hheld =>
        split at hstep
        next hfree =>
          cases hstep
          exact .release t b index hidle hheld hfree.1 hfree.2
        next => cases hstep
      next => cases hstep

end Storage

end CrosschainAgent
