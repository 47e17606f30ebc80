import CrosschainAgent.Database.Storage

/-!
# Every batch for itself

What the batches of `Storage` are for is that every `BatchIndex` has a batch of its own. That is what they are
as long as every search of `NewWriteBatch` finds a free place, and not the one that another thread has found and
is still to take; a search that does not is at once a `BatchIndex` outside of the vector, or one in the place of
another.
-/

namespace CrosschainAgent

open Function

/-- What the batches are for: every `BatchIndex` has a batch of its own. -/
structure OwnBatches where
  batch : ℕ → ConsistentWriteBatch
  db : Database

namespace OwnBatches

/-- A use of a `BatchIndex` is a use of its own batch. -/
def use (own : OwnBatches) (b : ℕ) (use : BatchUse) (ret : Bool) : OwnBatches :=
  let (batch, db) := use.apply ret (own.batch b) own.db
  ⟨update own.batch b batch, db⟩

/-- What a step of the threads is to the batches. -/
def after {T : Type} (own : OwnBatches) (s : Storage T) : BatchStep T → OwnBatches
  | .act t ret =>
    match s.thread t with
    | .uses b use _ => own.use b use ret
    | _ => own
  | _ => own

end OwnBatches

/-- `Storage`, and beside it the batches as they are meant. -/
structure Batches (T : Type) where
  storage : Storage T
  own : OwnBatches

namespace Batches

variable {T : Type}

/-- A `Storage` that was just made, on a database. -/
def start (db : Database) : Batches T where
  storage :=
    { batchVector := {}
      db := db
      made := 0
      batches := fun _ => []
      batchIndex := fun _ => none
      thread := fun _ => .idle
      passed := []
      ended := false }
  own := ⟨fun _ => [], db⟩

/-- Every `BatchIndex` has a place inside the vector, no two of them the same; the batch in the place of a
`BatchIndex` that was returned has the writes that were put through it and no others, and the database has what
was written; and every index that was passed is inside the vector. -/
structure Sound (w : Batches T) : Prop where
  inside : ∀ b index, w.storage.batchIndex b = some index →
    index < w.storage.batchVector.domainBatchRecord.length
  exclusive : ∀ b b' index, w.storage.batchIndex b = some index → w.storage.batchIndex b' = some index → b = b'
  pending : ∀ b index, w.storage.batchIndex b = some index → w.storage.Returned b →
    ∃ batchPtr, w.storage.batchVector.threadSafeGetByIndex index = some (some batchPtr) ∧
      w.storage.batches batchPtr = w.own.batch b
  written : w.storage.db = w.own.db
  passed : ∀ index ∈ w.storage.passed, index < w.storage.batchVector.domainBatchRecord.length

/-- The vector has a free place, and the first one is not one that a thread has found and not taken yet. -/
def HasFree (w : Batches T) : Prop :=
  ∃ index, w.storage.batchVector.domainBatchRecord.findIdx? (·.isNone) = some index ∧
    ∀ t b, w.storage.thread t ≠ .newWriteBatch b index

/-- One step, if it is possible. -/
def step [DecidableEq T] [Fintype T] (w : Batches T) (label : BatchStep T) : Option (Batches T) :=
  (w.storage.step label).map fun storage => ⟨storage, w.own.after w.storage label⟩

/-- A run. -/
def run [DecidableEq T] [Fintype T] (db : Database) (labels : List (BatchStep T)) : Option (Batches T) :=
  labels.foldlM step (start db)

/-- What is kept as long as every search has a free place to find. -/
structure Kept (w : Batches T) : Prop where
  length : w.storage.batchVector.domainBatchRecord.length = 100
  inside : ∀ b index, w.storage.batchIndex b = some index → index < 100
  exclusive : Slots.Exclusive w.storage.batchIndex
  unmade : ∀ b, w.storage.made ≤ b → w.storage.batchIndex b = none ∧ w.own.batch b = []
  making : ∀ t b index, w.storage.thread t = .newWriteBatch b index →
    w.storage.batchIndex b = some index ∧ w.own.batch b = []
  sole : ∀ t t' b, (w.storage.thread t).makes = some b → (w.storage.thread t').makes = some b → t = t'
  filed : ∀ b, (w.storage.batchIndex b).isSome → w.storage.Returned b →
    Slots.Filed w.storage.batchVector.domainBatchRecord w.storage.batchIndex b b
  pending : ∀ b, (w.storage.batchIndex b).isSome → w.storage.Returned b →
    w.storage.batches b = w.own.batch b
  uses : ∀ t b use batchPtr, w.storage.thread t = .uses b use batchPtr →
    (w.storage.batchIndex b).isSome ∧ w.storage.Returned b ∧ batchPtr = some b
  written : w.storage.db = w.own.db
  passed : ∀ index ∈ w.storage.passed, index < 100

/-- At the start the slots are kept. -/
theorem start_kept (db : Database) : Kept (start db : Batches T) where
  length := rfl
  inside b index hb := by cases hb
  exclusive := Slots.exclusive_none
  unmade b _ := ⟨rfl, rfl⟩
  making t b index ht := by cases ht
  sole t t' b ht := by cases ht
  filed b hb := by cases hb
  pending b hb := by cases hb
  uses t b use batchPtr ht := by cases ht
  written := rfl
  passed index hindex := by cases hindex

variable {w : Batches T} {t : T}

/-- There are fewer slots than the limit. -/
theorem Kept.length_lt (h : w.Kept) : w.storage.batchVector.domainBatchRecord.length < maxBatchCount := by
  rw [h.length]
  decide

/-- The place that a search finds is nobody's. -/
theorem Kept.unheld (h : w.Kept) {index : ℕ} (hempty : w.storage.batchVector.domainBatchRecord[index]? = some none)
    (hfound : ∀ t b, w.storage.thread t ≠ .newWriteBatch b index) (b : ℕ) :
    w.storage.batchIndex b ≠ some index := by
  intro hb
  by_cases hreturned : w.storage.Returned b
  · exact (h.filed b (by rw [hb]; rfl) hreturned).ne_of_empty hempty hb
  · rw [Storage.Returned, not_forall_not] at hreturned
    obtain ⟨t, ht⟩ := hreturned
    obtain ⟨found, ht⟩ := BatchCall.makes_eq_some.mp ht
    have hheld := (h.making t b found ht).1
    rw [hb, Option.some.injEq] at hheld
    exact hfound t b (hheld ▸ ht)

/-- The batch of a `BatchIndex` is found by its place. -/
theorem Kept.get_eq (h : w.Kept) {b index : ℕ} (hheld : w.storage.batchIndex b = some index)
    (hreturned : w.storage.Returned b) : w.storage.batchVector.threadSafeGetByIndex index = some (some b) := by
  obtain ⟨i, hi, hrecord⟩ := h.filed b (by rw [hheld]; rfl) hreturned
  have hlt := h.inside b index hheld
  rw [hheld, Option.some.injEq] at hi
  rw [DomianBatchVector.threadSafeGetByIndex, maxBatchCount, if_neg (by omega), hi, hrecord]

/-- What the invariant is for. -/
theorem Kept.sound (h : w.Kept) : w.Sound where
  inside b index hheld := by
    rw [h.length]
    exact h.inside b index hheld
  exclusive := h.exclusive
  pending b index hheld hreturned :=
    ⟨b, h.get_eq hheld hreturned, h.pending b (by rw [hheld]; rfl) hreturned⟩
  written := h.written
  passed := by
    rw [h.length]
    exact h.passed

/-- The place of the `BatchIndex` that is dropped is free again. -/
theorem Kept.release (h : w.Kept) {b index : ℕ} (hheld : w.storage.batchIndex b = some index)
    (hreturned : w.storage.Returned b) (hunused : w.storage.Unused b) :
    Kept ⟨w.storage.release b index, w.own⟩ := by
  have hlt : index < w.storage.batchVector.domainBatchRecord.length := h.length ▸ h.inside b index hheld
  have hother : ∀ b', (update w.storage.batchIndex b none b').isSome →
      b' ≠ b ∧ (w.storage.batchIndex b').isSome := by
    intro b' hb'
    rw [update_apply] at hb'
    split at hb'
    · cases hb'
    · exact ⟨‹_›, hb'⟩
  simp only [Storage.release]
  rw [Storage.threadSafeAdd_of_lt hlt]
  constructor
  all_goals dsimp only
  case length => simpa using h.length
  case inside =>
    intro b' i hb'
    rw [update_of_ne (hother b' (by rw [hb']; rfl)).1] at hb'
    exact h.inside b' i hb'
  case exclusive => exact h.exclusive.release b
  case unmade =>
    intro b' hb'
    have hunmade := h.unmade b' hb'
    rw [update_of_ne]
    · exact hunmade
    · intro heq
      rw [heq, hheld] at hunmade
      cases hunmade.1
  case making =>
    intro t' b' i ht'
    rw [update_of_ne]
    · exact h.making t' b' i ht'
    · intro heq
      exact hreturned t' (by rw [ht', heq]; rfl)
  case sole => exact h.sole
  case filed =>
    intro b' hb' hr
    obtain ⟨hne, hb'⟩ := hother b' hb'
    exact ((h.filed b' hb' hr).set h.exclusive hheld hne _).update hne _
  case pending =>
    intro b' hb' hr
    exact h.pending b' (hother b' hb').2 hr
  case uses =>
    intro t' b' use batchPtr ht'
    rw [update_of_ne]
    · exact h.uses t' b' use batchPtr ht'
    · intro heq
      exact hunused t' (by rw [ht', heq]; rfl)
  case written => exact h.written
  case passed => exact List.forall_mem_cons.mpr ⟨h.inside b index hheld, h.passed⟩

variable [DecidableEq T]

/-- A search that has a free place to find. -/
theorem Kept.search (h : w.Kept) (hidle : w.storage.thread t = .idle) (hfree : w.HasFree) :
    Kept ⟨w.storage.search t, w.own⟩ := by
  obtain ⟨index, hfind, hfound⟩ := hfree
  obtain ⟨hlt, hnone, -⟩ := List.findIdx?_eq_some_iff_getElem.mp hfind
  have hempty : w.storage.batchVector.domainBatchRecord[index]? = some none := by
    rw [List.getElem?_eq_getElem hlt, Option.isNone_iff_eq_none.mp hnone]
  have hget : w.storage.batchVector.threadSafeGetIndex = some index := by
    rw [DomianBatchVector.threadSafeGetIndex_of_lt h.length_lt, hfind, Option.getD_some]
  have hnew := (h.unmade w.storage.made le_rfl).1
  have hlive : ∀ b i, w.storage.batchIndex b = some i → b ≠ w.storage.made := by
    intro b i hb heq
    rw [heq, hnew] at hb
    cases hb
  have hmakes : ∀ t' b, (w.storage.thread t').makes = some b → b ≠ w.storage.made := by
    intro t' b ht'
    obtain ⟨i, ht'⟩ := BatchCall.makes_eq_some.mp ht'
    exact hlive b i (h.making t' b i ht').1
  have hreturned : ∀ b,
      (∀ t', (update w.storage.thread t (.newWriteBatch w.storage.made index) t').makes ≠ some b) ↔
      w.storage.made ≠ b ∧ w.storage.Returned b := by
    intro b
    rw [BatchCall.makes_update_iff (by rw [hidle]; simp [BatchCall.makes]), BatchCall.makes, ne_eq,
      Option.some.injEq]
    rfl
  simp only [Storage.search, hget]
  constructor
  all_goals dsimp only
  case length => exact h.length
  case inside =>
    intro b i hb
    rw [update_apply] at hb
    split at hb
    · cases hb
      exact h.length ▸ hlt
    · exact h.inside b i hb
  case exclusive => exact (h.exclusive.take_iff hnew).mpr (h.unheld hempty hfound)
  case unmade =>
    intro b hb
    rw [update_of_ne (by omega)]
    exact h.unmade b (by omega)
  case making =>
    intro t' b i ht'
    rw [update_apply] at ht'
    split at ht'
    · cases ht'
      exact ⟨update_self .., (h.unmade _ le_rfl).2⟩
    · rw [update_of_ne (hmakes t' b (by rw [ht']; rfl))]
      exact h.making t' b i ht'
  case sole =>
    intro t' t'' b ht' ht''
    rw [update_apply] at ht' ht''
    split at ht' <;> split at ht''
    · simp [*]
    · cases ht'
      exact absurd rfl (hmakes t'' _ ht'')
    · cases ht''
      exact absurd rfl (hmakes t' _ ht')
    · exact h.sole t' t'' b ht' ht''
  case filed =>
    intro b hb hr
    obtain ⟨hne, hr⟩ := (hreturned b).mp hr
    rw [update_of_ne hne.symm] at hb
    exact (h.filed b hb hr).update hne.symm _
  case pending =>
    intro b hb hr
    obtain ⟨hne, hr⟩ := (hreturned b).mp hr
    rw [update_of_ne hne.symm] at hb
    exact h.pending b hb hr
  case uses =>
    intro t' b use batchPtr ht'
    rw [update_apply] at ht'
    split at ht'
    · cases ht'
    · obtain ⟨hb, hr, hptr⟩ := h.uses t' b use batchPtr ht'
      obtain ⟨i, hi⟩ := Option.isSome_iff_exists.mp hb
      rw [update_of_ne (hlive b i hi)]
      exact ⟨hb, (hreturned b).mpr ⟨(hlive b i hi).symm, hr⟩, hptr⟩
  case written => exact h.written
  case passed => exact h.passed

/-- The place that was found is taken. -/
theorem Kept.add (h : w.Kept) {b index : ℕ} (hadds : w.storage.thread t = .newWriteBatch b index) :
    Kept ⟨w.storage.add t b index, w.own⟩ := by
  obtain ⟨hheld, hempty⟩ := h.making t b index hadds
  have hlt : index < w.storage.batchVector.domainBatchRecord.length := h.length ▸ h.inside b index hheld
  have hreturned : ∀ b', b' ≠ b → (∀ t', (update w.storage.thread t .idle t').makes ≠ some b') →
      w.storage.Returned b' := by
    intro b' hne hr
    have hother : (w.storage.thread t).makes ≠ some b' := by
      rw [hadds, BatchCall.makes, ne_eq, Option.some.injEq]
      exact hne.symm
    exact ((BatchCall.makes_update_iff hother).mp hr).2
  simp only [Storage.add]
  rw [Storage.threadSafeAdd_of_lt (by exact hlt)]
  constructor
  all_goals dsimp only
  case length => simpa using h.length
  case inside => exact h.inside
  case exclusive => exact h.exclusive
  case unmade => exact h.unmade
  case making =>
    intro t' b' i ht'
    exact h.making t' b' i (BatchCall.newWriteBatch_of_update rfl ht')
  case sole =>
    intro t' t'' b' ht' ht''
    exact h.sole t' t'' b' (BatchCall.makes_of_update rfl ht') (BatchCall.makes_of_update rfl ht'')
  case filed =>
    intro b' hb' hr
    by_cases heq : b' = b
    · rw [heq]
      exact Slots.filed_set hheld hlt
    · exact (h.filed b' hb' (hreturned b' heq hr)).set h.exclusive hheld heq _
  case pending =>
    intro b' hb' hr
    by_cases heq : b' = b
    · rw [heq, update_self, hempty]
    · rw [update_of_ne heq]
      exact h.pending b' hb' (hreturned b' heq hr)
  case uses =>
    intro t' b' use batchPtr ht'
    rw [update_apply] at ht'
    split at ht'
    · cases ht'
    · obtain ⟨hb', hr, hptr⟩ := h.uses t' b' use batchPtr ht'
      exact ⟨hb', (BatchCall.makes_update_iff (hr t)).mpr ⟨by simp [BatchCall.makes], hr⟩, hptr⟩
  case written => exact h.written
  case passed => exact List.forall_mem_cons.mpr ⟨h.inside b index hheld, h.passed⟩

/-- A use finds the batch of its `BatchIndex`. -/
theorem Kept.lookup (h : w.Kept) {b index : ℕ} (use : BatchUse) (hidle : w.storage.thread t = .idle)
    (hheld : w.storage.batchIndex b = some index) (hreturned : w.storage.Returned b) :
    Kept ⟨w.storage.lookup t b use index, w.own⟩ := by
  have hget := h.get_eq hheld hreturned
  have hall : ∀ b', (∀ t', (update w.storage.thread t (.uses b use (some b)) t').makes ≠ some b') ↔
      w.storage.Returned b' := by
    intro b'
    rw [BatchCall.makes_update_iff (by rw [hidle]; simp [BatchCall.makes])]
    exact and_iff_right (by simp [BatchCall.makes])
  simp only [Storage.lookup, hget]
  constructor
  all_goals dsimp only
  case length => exact h.length
  case inside => exact h.inside
  case exclusive => exact h.exclusive
  case unmade => exact h.unmade
  case making =>
    intro t' b' i ht'
    exact h.making t' b' i (BatchCall.newWriteBatch_of_update rfl ht')
  case sole =>
    intro t' t'' b' ht' ht''
    exact h.sole t' t'' b' (BatchCall.makes_of_update rfl ht') (BatchCall.makes_of_update rfl ht'')
  case filed =>
    intro b' hb' hr
    exact h.filed b' hb' ((hall b').mp hr)
  case pending =>
    intro b' hb' hr
    exact h.pending b' hb' ((hall b').mp hr)
  case uses =>
    intro t' b' use' batchPtr ht'
    rw [update_apply] at ht'
    split at ht'
    · cases ht'
      exact ⟨by rw [hheld]; rfl, (hall b).mpr hreturned, rfl⟩
    · obtain ⟨hb', hr, hptr⟩ := h.uses t' b' use' batchPtr ht'
      exact ⟨hb', (hall b').mpr hr, hptr⟩
  case written => exact h.written
  case passed => exact List.forall_mem_cons.mpr ⟨h.inside b index hheld, h.passed⟩

/-- What is done to the batch that was found is done to the own batch of the `BatchIndex`. -/
theorem Kept.act (h : w.Kept) (ret : Bool) {b : ℕ} {use : BatchUse} {batchPtr : Option ℕ}
    (hfound : w.storage.thread t = .uses b use batchPtr) :
    Kept ⟨w.storage.act t ret b use batchPtr, w.own.use b use ret⟩ := by
  obtain ⟨hlive, hreturned, rfl⟩ := h.uses t b use batchPtr hfound
  have hbatch := h.pending b hlive hreturned
  have hall : ∀ b', (∀ t', (update w.storage.thread t (.after b b (use.rest ret)) t').makes ≠ some b') ↔
      w.storage.Returned b' := by
    intro b'
    rw [BatchCall.makes_update_iff (by rw [hfound]; simp [BatchCall.makes])]
    exact and_iff_right (by simp)
  simp only [Storage.act, OwnBatches.use]
  rw [hbatch, h.written]
  constructor
  all_goals dsimp only
  case length => exact h.length
  case inside => exact h.inside
  case exclusive => exact h.exclusive
  case unmade =>
    intro b' hb'
    have hunmade := h.unmade b' hb'
    rw [update_of_ne]
    · exact hunmade
    · intro heq
      rw [← heq, hunmade.1] at hlive
      cases hlive
  case making =>
    intro t' b' i ht'
    have ht' := BatchCall.newWriteBatch_of_update (BatchCall.makes_after b b _) ht'
    rw [update_of_ne]
    · exact h.making t' b' i ht'
    · intro heq
      exact hreturned t' (by rw [ht', heq]; rfl)
  case sole =>
    intro t' t'' b' ht' ht''
    exact h.sole t' t'' b' (BatchCall.makes_of_update (BatchCall.makes_after b b _) ht')
      (BatchCall.makes_of_update (BatchCall.makes_after b b _) ht'')
  case filed =>
    intro b' hb' hr
    exact h.filed b' hb' ((hall b').mp hr)
  case pending =>
    intro b' hb' hr
    rw [update_apply, update_apply, h.pending b' hb' ((hall b').mp hr)]
  case uses =>
    intro t' b' use' batchPtr ht'
    rw [update_apply] at ht'
    split at ht'
    · obtain ⟨rfl, rfl⟩ := BatchCall.after_eq_uses ht'
      exact ⟨hlive, (hall b).mpr hreturned, rfl⟩
    · obtain ⟨hb', hr, hptr⟩ := h.uses t' b' use' batchPtr ht'
      exact ⟨hb', (hall b').mpr hr, hptr⟩
  case passed => exact h.passed

variable [Fintype T] {w' : Batches T}

/-- A step keeps all that, when it is no search, or has a free place to find. -/
theorem Kept.step (h : w.Kept) {label : BatchStep T} (hstep : w.step label = some w')
    (hsearch : ∀ t, label = .search t → w.HasFree) : w'.Kept := by
  rw [Batches.step, Option.map_eq_some_iff] at hstep
  obtain ⟨storage, hstorage, rfl⟩ := hstep
  cases Storage.step_steps hstorage with
  | search t idle => exact h.search idle (hsearch t rfl)
  | add t b index adds => exact h.add adds
  | lookup t b use index idle held returned => exact h.lookup use idle held returned
  | act t ret b use batchPtr found =>
    rw [OwnBatches.after, found]
    exact h.act ret found
  | release t b index idle held returned unused => exact h.release held returned unused

/-- A search that leaves the batches sound had a free place to find. -/
theorem Kept.hasFree (h : w.Kept) (hstep : w.step (.search t) = some w') (hsound : w'.Sound) :
    w.HasFree := by
  have hget := DomianBatchVector.threadSafeGetIndex_of_lt h.length_lt
  rw [Batches.step, Option.map_eq_some_iff] at hstep
  obtain ⟨storage, hstorage, rfl⟩ := hstep
  cases Storage.step_steps hstorage with
  | search t idle =>
    simp only [Storage.search, hget] at hsound
    cases hfind : w.storage.batchVector.domainBatchRecord.findIdx? (·.isNone) with
    | none =>
      rw [hfind, Option.getD_none] at hsound
      exact absurd (hsound.inside w.storage.made _ (update_self ..)) (lt_irrefl _)
    | some index =>
      rw [hfind, Option.getD_some] at hsound
      refine ⟨index, hfind, fun t' b ht' => ?_⟩
      have hheld := (h.making t' b index ht').1
      have hne : b ≠ w.storage.made := by
        intro heq
        rw [heq, (h.unmade _ le_rfl).1] at hheld
        cases hheld
      apply hne
      apply hsound.exclusive b w.storage.made index
      · exact (update_of_ne hne ..).trans hheld
      · exact update_self ..

/-- A run, and one step more. -/
theorem run_concat {db : Database} {labels : List (BatchStep T)} {label : BatchStep T} :
    run db (labels ++ [label]) = some w' ↔ ∃ w, run db labels = some w ∧ w.step label = some w' := by
  simp [run, List.foldlM_append, Option.bind_eq_some_iff]

/-- A run keeps all that, when every search had a free place to find, as far as the run was kept until then. -/
theorem run_kept {db : Database} {labels : List (BatchStep T)} (hrun : run db labels = some w)
    (hsearches : ∀ done t rest v, labels = done ++ .search t :: rest → run db done = some v → v.Kept → v.HasFree) :
    w.Kept := by
  induction labels using List.reverseRecOn generalizing w with
  | nil =>
    cases hrun
    exact start_kept db
  | append_singleton labels label ih =>
    obtain ⟨v, hv, hstep⟩ := run_concat.mp hrun
    have hkept : v.Kept := by
      apply ih hv
      intro done t rest u hlabels
      exact hsearches done t (rest ++ [label]) u (by rw [hlabels, List.append_assoc, List.cons_append])
    apply hkept.step hstep
    intro t hlabel
    exact hsearches labels t [] v (by rw [hlabel]) hv hkept

/-- In a run of the threads, the batches are sound in every state if and only if the vector has a free place at
every search, and the first one is not one that another thread has found and not taken yet. -/
theorem batches_sound_iff (db : Database) (labels : List (BatchStep T)) (hrun : (run db labels).isSome) :
    (∀ done rest w, labels = done ++ rest → run db done = some w → w.Sound) ↔
      ∀ done t rest w, labels = done ++ .search t :: rest → run db done = some w → w.HasFree := by
  have hstate : ∀ done rest, labels = done ++ rest → ∃ w, run db done = some w := by
    intro done rest hlabels
    rw [run, hlabels, List.foldlM_append] at hrun
    obtain ⟨w, hw⟩ := Option.isSome_iff_exists.mp hrun
    obtain ⟨v, hv, -⟩ := Option.bind_eq_some_iff.mp hw
    exact ⟨v, hv⟩
  constructor
  · intro hsound
    have hfinds : ∀ done t rest w, labels = done ++ .search t :: rest → run db done = some w → w.Kept →
        w.HasFree := by
      intro done t rest w hlabels hw hkept
      have hlabels' : labels = (done ++ [.search t]) ++ rest := by
        rw [hlabels, List.append_assoc, List.singleton_append]
      obtain ⟨w', hw'⟩ := hstate _ rest hlabels'
      obtain ⟨v, hv, hstep⟩ := run_concat.mp hw'
      rw [hw, Option.some.injEq] at hv
      rw [← hv] at hstep
      exact hkept.hasFree hstep (hsound _ rest w' hlabels' hw')
    intro done t rest w hlabels hw
    apply hfinds done t rest w hlabels hw
    apply run_kept hw
    intro done' t' rest' v hdone
    exact hfinds done' t' (rest' ++ .search t :: rest) v
      (by rw [hlabels, hdone, List.append_assoc, List.cons_append])
  · intro hsearches done rest w hlabels hw
    apply Kept.sound
    apply run_kept hw
    intro done' t rest' v hdone hv _
    exact hsearches done' t (rest' ++ rest) v (by rw [hlabels, hdone, List.append_assoc, List.cons_append]) hv

/-- Two threads make a batch after each other, and each uses its own. -/
def takingTurns : List (BatchStep (Fin 2)) :=
  [.search 0, .add 0, .search 1, .add 1, .lookup 0 0 (.batchPut ['k'] ['v']), .lookup 1 1 .writeBatch, .act 1 true,
    .act 0 true, .act 1 true, .release 0 0]

/-- Two threads that take turns meet the condition. -/
theorem batches_sound_iff_takingTurns :
    (∀ done rest w, takingTurns = done ++ rest → run ∅ done = some w → w.Sound) ↔
      ∀ done t rest w, takingTurns = done ++ .search t :: rest → run ∅ done = some w → w.HasFree :=
  batches_sound_iff ∅ takingTurns (by decide +kernel)

/-- Two threads look for a place before one of them takes it; then a write is put through the first
`BatchIndex`. -/
def racing : List (BatchStep (Fin 2)) :=
  [.search 0, .search 1, .add 0, .add 1, .lookup 0 0 (.batchPut ['k'] ['v']), .act 0 true]

/-- A thread makes one batch more than there are places. -/
def crowded : List (BatchStep Unit) := (List.replicate 101 [.search (), .add ()]).flatten

/-- Two threads can get the same place, and a write through one `BatchIndex` is put to the batch of the other;
and even one thread gets a place outside of the vector. -/
theorem not_batches_sound :
    (∃ w ∈ run ∅ racing, w.storage.batchIndex 0 = some 0 ∧ w.storage.batchIndex 1 = some 0 ∧
        w.storage.batches 1 = [.put ['k'] ['v']] ∧ w.own.batch 1 = [] ∧ ¬w.Sound) ∧
      ∃ w ∈ run ∅ crowded, w.storage.batchIndex 100 = some 100 ∧ 100 ∈ w.storage.passed ∧
        w.storage.batchVector.domainBatchRecord.length = 100 ∧ ¬w.Sound := by
  have hracing : ∃ w ∈ run ∅ racing, w.storage.batchIndex 0 = some 0 ∧ w.storage.batchIndex 1 = some 0 ∧
      w.storage.batches 1 = [.put ['k'] ['v']] ∧ w.own.batch 1 = [] := by decide +kernel
  have hcrowded : ∃ w ∈ run ∅ crowded, w.storage.batchIndex 100 = some 100 ∧ 100 ∈ w.storage.passed ∧
      w.storage.batchVector.domainBatchRecord.length = 100 := by decide +kernel
  constructor
  · obtain ⟨w, hw, hfirst, hsecond, hbatch, hown⟩ := hracing
    refine ⟨w, hw, hfirst, hsecond, hbatch, hown, fun hsound => ?_⟩
    exact absurd (hsound.exclusive 0 1 0 hfirst hsecond) zero_ne_one
  · obtain ⟨w, hw, hindex, hpassed, hlength⟩ := hcrowded
    refine ⟨w, hw, hindex, hpassed, hlength, fun hsound => ?_⟩
    have hlt := hsound.inside 100 100 hindex
    rw [hlength] at hlt
    exact absurd hlt (lt_irrefl 100)

end Batches

end CrosschainAgent
