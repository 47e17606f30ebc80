import CrosschainAgent.Common.ReadWriteLock
import CrosschainAgent.Crypto.Address

/-!
# The address tables under threads

`PublicKeyV4::GetEncAddress` and `PublicKey::EncodeAddress` keep what they compute in a table that all
threads share. A call looks its key up under a read guard, and puts what it computed under a write
guard that it takes afterwards, so that two threads may compute the same address and put it twice.
Any number of threads make any calls, in any order: no two of them touch a table while one changes it,
one of them can always go on, and every call returns the address of its key, unless another call put
a different one under the same key.
-/

namespace CrosschainAgent

open Function ReadWriteLock BigNum Strings SignatureType KeypairUtils

namespace SharedTable

variable {T α κ β : Type}

/-- A thread that makes calls: the calls to come, those that returned with their results, the newest
first, and what the current call computed. -/
structure Caller (α β : Type) where
  todo : List α
  done : List (α × β) := []
  computed : Option β := none

variable [DecidableEq κ] (direct : α → Option β) (key : α → κ) (compute : α → β)

/-- What a caller does next. A call that is answered directly takes no guard. Another one looks its key
up, and where it finds nothing it puts in a second section what it computed. -/
def nextSection (caller : Caller α β) : Option (Section (κ → Option β) (Caller α β)) :=
  match caller.todo with
  | [] => none
  | a :: rest =>
    match direct a, caller.computed with
    | some b, _ => some (.alone { todo := rest, done := (a, b) :: caller.done })
    | none, none => some (.readLockGuard fun table =>
        match table (key a) with
        | some b => { todo := rest, done := (a, b) :: caller.done }
        | none => { caller with computed := some (compute a) })
    | none, some b => some (.writeLockGuard fun table =>
        (update table (key a) (some b), { todo := rest, done := (a, b) :: caller.done }))

/-- The threads before their first call, with an empty table. -/
def start (calls : T → List α) : Threads T (κ → Option β) (Caller α β) :=
  Threads.start (fun _ => none) fun t => { todo := calls t }

/-- What a call may return: its direct answer, or what a call of the same key computes. -/
def Returns (calls : T → List α) (a : α) (b : β) : Prop :=
  direct a = some b ∨ direct a = none ∧ ∃ t, ∃ a' ∈ calls t, direct a' = none ∧ key a' = key a ∧ b = compute a'

/-- What holds of the table and the callers when sections happen at once. -/
structure Right (calls : T → List α) (v : (κ → Option β) × (T → Caller α β)) : Prop where
  table : ∀ k b, v.1 k = some b → ∃ t, ∃ a ∈ calls t, direct a = none ∧ key a = k ∧ b = compute a
  done : ∀ t, ∀ p ∈ (v.2 t).done, Returns direct key compute calls p.1 p.2
  order : ∀ t, ((v.2 t).done.map Prod.fst).reverse ++ (v.2 t).todo = calls t
  computed : ∀ t b, (v.2 t).computed = some b → ∀ a rest, (v.2 t).todo = a :: rest → b = compute a

variable {direct key compute} {calls : T → List α}

omit [DecidableEq κ] in
/-- The empty table is right. -/
theorem right_start : Right direct key compute calls (start (κ := κ) (β := β) calls).view where
  table k b h := by cases h
  done t p h := by cases h
  order t := rfl
  computed t b h := by cases h

omit [DecidableEq κ] in
/-- A call that is still to come is one of the calls. -/
theorem Right.mem {v : (κ → Option β) × (T → Caller α β)} (h : Right direct key compute calls v) {t : T}
    {a : α} {rest : List α} (htodo : (v.2 t).todo = a :: rest) : a ∈ calls t := by
  rw [← h.order t, htodo]
  exact List.mem_append_right _ List.mem_cons_self

/-- A thread that is alone calls as if the table were its own. -/
theorem nextSection_alone {a : α} (hdirect : direct a = none) (table : κ → Option β) (rest : List α)
    (done : List (α × β)) : ∃ n,
    (List.replicate n ()).foldlM (atomic fun _ => nextSection direct key compute)
        (table, fun _ => { todo := a :: rest, done := done }) =
      some ((Memo.call key compute table a).2, fun _ =>
        { todo := rest, done := (a, (Memo.call key compute table a).1) :: done }) := by
  have hunit : ∀ (f : Unit → Caller α β) c, update f () c = fun _ => c := by
    intro f c
    funext u
    rw [update_self]
  cases hfind : table (key a) with
  | some b =>
    refine ⟨1, ?_⟩
    simp [atomic, nextSection, Memo.call, hdirect, hfind, hunit]
  | none =>
    refine ⟨2, ?_⟩
    simp [atomic, nextSection, Memo.call, hdirect, hfind, hunit, List.replicate_succ]

variable [DecidableEq T]

omit [DecidableEq κ] in
/-- A call returned. -/
theorem Right.returned {v : (κ → Option β) × (T → Caller α β)} (h : Right direct key compute calls v)
    {t : T} {a : α} {b : β} {rest : List α} (htodo : (v.2 t).todo = a :: rest)
    (hreturns : Returns direct key compute calls a b) {table : κ → Option β}
    (htable : ∀ k b, table k = some b →
      ∃ t, ∃ a ∈ calls t, direct a = none ∧ key a = k ∧ b = compute a) :
    Right direct key compute calls
      (table, update v.2 t { todo := rest, done := (a, b) :: (v.2 t).done }) where
  table := htable
  done t' p hp := by
    by_cases ht : t' = t
    · subst ht
      simp only [update_self, List.mem_cons] at hp
      cases hp with
      | inl heq => exact heq ▸ hreturns
      | inr hold => exact h.done t' p hold
    · simp only [update_of_ne ht] at hp
      exact h.done t' p hp
  order t' := by
    by_cases ht : t' = t
    · subst ht
      have horder := h.order t'
      rw [htodo] at horder
      simpa using horder
    · simpa only [update_of_ne ht] using h.order t'
  computed t' b' hb' a' rest' htodo' := by
    by_cases ht : t' = t
    · subst ht
      simp at hb'
    · simp only [update_of_ne ht] at hb' htodo'
      exact h.computed t' b' hb' a' rest' htodo'

omit [DecidableEq κ] in
/-- A call computed its result. -/
theorem Right.missed {v : (κ → Option β) × (T → Caller α β)} (h : Right direct key compute calls v)
    {t : T} {a : α} {rest : List α} (htodo : (v.2 t).todo = a :: rest) :
    Right direct key compute calls
      (v.1, update v.2 t { todo := a :: rest, done := (v.2 t).done, computed := some (compute a) }) where
  table := h.table
  done t' p hp := by
    by_cases ht : t' = t
    · subst ht
      simp only [update_self] at hp
      exact h.done t' p hp
    · simp only [update_of_ne ht] at hp
      exact h.done t' p hp
  order t' := by
    by_cases ht : t' = t
    · subst ht
      simpa [htodo] using h.order t'
    · simpa only [update_of_ne ht] using h.order t'
  computed t' b' hb' a' rest' htodo' := by
    by_cases ht : t' = t
    · subst ht
      simp only [update_self, Option.some.injEq] at hb' htodo'
      cases htodo'
      exact hb'.symm
    · simp only [update_of_ne ht] at hb' htodo'
      exact h.computed t' b' hb' a' rest' htodo'

/-- A section of a caller. -/
theorem Right.next {v v' : (κ → Option β) × (T → Caller α β)} (h : Right direct key compute calls v) {t : T}
    (hnext : atomic (fun _ => nextSection direct key compute) v t = some v') :
    Right direct key compute calls v' := by
  cases htodo : (v.2 t).todo with
  | nil => simp [atomic, nextSection, htodo] at hnext
  | cons a rest =>
    have hmem := h.mem htodo
    cases hdirect : direct a with
    | some b =>
      simp only [atomic, nextSection, htodo, hdirect, Option.some.injEq] at hnext
      exact hnext ▸ h.returned htodo (Or.inl hdirect) h.table
    | none =>
      cases hcomputed : (v.2 t).computed with
      | none =>
        simp only [atomic, nextSection, htodo, hdirect, hcomputed, Option.some.injEq] at hnext
        subst hnext
        cases hfind : v.1 (key a) with
        | none => exact h.missed htodo
        | some b =>
          obtain ⟨t', a', hmem', hdirect', hkey', hb'⟩ := h.table _ _ hfind
          exact h.returned htodo (Or.inr ⟨hdirect, t', a', hmem', hdirect', hkey', hb'⟩) h.table
      | some b =>
        simp only [atomic, nextSection, htodo, hdirect, hcomputed, Option.some.injEq] at hnext
        subst hnext
        have hb := h.computed t b hcomputed a rest htodo
        refine h.returned htodo (Or.inr ⟨hdirect, t, a, hmem, hdirect, rfl, hb⟩) fun k b' hput => ?_
        by_cases hk : k = key a
        · subst hk
          rw [update_self, Option.some_inj] at hput
          exact ⟨t, a, hmem, hdirect, rfl, hput ▸ hb⟩
        · rw [update_of_ne hk] at hput
          exact h.table k b' hput

/-- The calls of one key that are not answered directly compute the same. -/
def Agree (direct : α → Option β) (key : α → κ) (compute : α → β) (calls : T → List α) : Prop :=
  ∀ t t', ∀ a ∈ calls t, ∀ a' ∈ calls t', direct a = none → direct a' = none → key a = key a' →
    compute a = compute a'

omit [DecidableEq κ] [DecidableEq T] in
/-- Calls that agree return what they compute. -/
theorem Right.results {v : (κ → Option β) × (T → Caller α β)} (h : Right direct key compute calls v)
    (hagree : Agree direct key compute calls) (t : T) :
    ∃ finished, calls t = finished ++ (v.2 t).todo ∧
      (v.2 t).done.reverse = finished.map fun a => (a, (direct a).getD (compute a)) := by
  refine ⟨((v.2 t).done.map Prod.fst).reverse, (h.order t).symm, ?_⟩
  rw [← List.map_reverse, List.map_map]
  refine (List.map_id _).symm.trans (List.map_congr_left fun p hp => ?_)
  have hp' := List.mem_reverse.mp hp
  refine Prod.ext rfl ?_
  rcases h.done t p hp' with hdirect | ⟨hdirect, t', a', hmem', hdirect', hkey', hb'⟩
  · simp [hdirect]
  · have hmem : p.1 ∈ calls t := by
      rw [← h.order t]
      exact List.mem_append_left _ (List.mem_reverse.mpr (List.mem_map_of_mem hp'))
    simp only [Function.comp_apply, hdirect, Option.getD_none]
    exact hb'.trans (hagree t t' p.1 hmem a' hmem' hdirect hdirect' hkey'.symm).symm

/-- What holds of threads that share a table under the lock: two of them never touch it while one
changes it; one of them can move while there are calls to come; and calls that agree return
what they compute. -/
theorem run_shared {moves : List T} {w : Threads T (κ → Option β) (Caller α β)}
    (h : run (fun _ => nextSection direct key compute) (start calls) moves = some w) :
    (∀ t t', t' ≠ t → (w.place t).writes = true → (w.place t').reads = false ∧ (w.place t').writes = false) ∧
      ((∃ t, (w.state t).todo ≠ []) →
        ∃ t, (step (fun _ => nextSection direct key compute) w t).isSome) ∧
      (Agree direct key compute calls → ∀ t, w.place t = .outside →
        ∃ finished, calls t = finished ++ (w.state t).todo ∧
          (w.state t).done.reverse = finished.map fun a => (a, (direct a).getD (compute a))) := by
  obtain ⟨hinv, order, -, horder⟩ := run_atomic (inv_start _ _) h
  refine ⟨fun t t' hne => hinv.exclusive hne, ?_, fun hagree t hout => ?_⟩
  · rintro ⟨t, htodo⟩
    refine hinv.progress (t := t) (Or.inr ?_)
    cases hcalls : (w.state t).todo with
    | nil => exact absurd hcalls htodo
    | cons a rest =>
      simp only [nextSection, hcalls]
      split <;> rfl
  · have hright : Right direct key compute calls w.view := by
      have hgen : ∀ (order : List T) (v : (κ → Option β) × (T → Caller α β)),
          Right direct key compute calls v →
          order.foldlM (atomic fun _ => nextSection direct key compute) v = some w.view →
          Right direct key compute calls w.view := by
        intro order
        induction order with
        | nil =>
          intro v hv hrun
          cases hrun
          exact hv
        | cons t order ih =>
          intro v hv hrun
          rw [List.foldlM_cons] at hrun
          obtain ⟨u, hu, hrest⟩ := Option.bind_eq_some_iff.mp hrun
          exact ih u (hv.next hu) hrest
      exact hgen order _ right_start horder
    have hresults := hright.results hagree t
    rwa [view_of_made_none (by rw [hout]; rfl)] at hresults

end SharedTable

namespace PublicKeyV4

variable {Point : Type} [AddCommGroup Point] (lib : KeyLibraries Point) (addressPrefix : AddressPrefix)

/-- The sections of a thread that calls `GetEncAddress`: the lookup in `g_pub_to_address`, and where it
finds nothing the write of what it computed. -/
def encAddressSection : SharedTable.Caller PublicKeyV4 Bytes →
    Option (Section (Bytes → Option Bytes) (SharedTable.Caller PublicKeyV4 Bytes)) :=
  SharedTable.nextSection (fun _ => none) rawPubKey (computedAddress lib addressPrefix)

/-- Alone, the sections of a call do what `GetEncAddress` does. -/
theorem encAddressSection_alone (gPubToAddress : Bytes → Option Bytes) (this : PublicKeyV4)
    (rest : List PublicKeyV4) (done : List (PublicKeyV4 × Bytes)) : ∃ n,
    (List.replicate n ()).foldlM (atomic fun _ => encAddressSection lib addressPrefix)
        (gPubToAddress, fun _ => { todo := this :: rest, done := done }) =
      some ((getEncAddress lib addressPrefix gPubToAddress this).2, fun _ =>
        { todo := rest, done := (this, (getEncAddress lib addressPrefix gPubToAddress this).1) :: done }) := by
  rw [getEncAddress_eq_call]
  exact SharedTable.nextSection_alone rfl gPubToAddress rest done

/-- Any number of threads call `GetEncAddress` for any keys, in any order of their steps: no two of them
use `g_pub_to_address` while one writes it; while calls are to come one of the threads can move; and where
keys of the same bytes are of the same type, every call returns the address of its key. -/
theorem getEncAddress_threads {T : Type} [DecidableEq T] {calls : T → List PublicKeyV4} {moves : List T}
    {w : Threads T (Bytes → Option Bytes) (SharedTable.Caller PublicKeyV4 Bytes)}
    (h : run (fun _ => encAddressSection lib addressPrefix) (SharedTable.start calls) moves = some w) :
    (∀ t t', t' ≠ t → (w.place t).writes = true → (w.place t').reads = false ∧ (w.place t').writes = false) ∧
      ((∃ t, (w.state t).todo ≠ []) →
        ∃ t, (step (fun _ => encAddressSection lib addressPrefix) w t).isSome) ∧
      ((∀ t t', ∀ this ∈ calls t, ∀ other ∈ calls t', this.rawPubKey = other.rawPubKey →
          this.type = other.type) →
        ∀ t, w.place t = .outside → ∃ finished, calls t = finished ++ (w.state t).todo ∧
          (w.state t).done.reverse =
            finished.map fun this => (this, computedAddress lib addressPrefix this)) := by
  obtain ⟨hexclusive, hprogress, hresults⟩ := SharedTable.run_shared h
  refine ⟨hexclusive, hprogress, fun htypes => hresults ?_⟩
  intro t t' this hthis other hother _ _ hraw
  exact (computedAddress_eq_iff lib addressPrefix hraw).mpr (Or.inl (htypes t t' this hthis other hother hraw))

/-- Two threads that ask for the address of one key, both of which find nothing. -/
def sampleMoves : List Bool :=
  List.replicate 3 false ++ List.replicate 6 true ++ List.replicate 3 false ++ List.replicate 5 true ++
    List.replicate 5 false

def sampleKey : PublicKeyV4 := ⟨true, signtypeEd25519, [1], []⟩

/-- Both return its address. -/
theorem getEncAddress_threads_sampleMoves : ∃ w,
    run (fun _ => encAddressSection PrivateKeyV4.testLibraries {})
      (SharedTable.start fun _ : Bool => [sampleKey]) sampleMoves = some w ∧
    ∀ t, (w.state t).done = [(sampleKey, computedAddress PrivateKeyV4.testLibraries {} sampleKey)] := by
  have hcheck : ((run (fun _ => encAddressSection PrivateKeyV4.testLibraries {})
      (SharedTable.start fun _ : Bool => [sampleKey]) sampleMoves).any fun w =>
    ∀ t, (w.place t).counts = false ∧ (w.place t).holds = false ∧ (w.state t).todo.length = 0) = true := by
    decide +kernel
  obtain ⟨w, hrun, hw⟩ := (Option.any_eq_true _ _).mp hcheck
  refine ⟨w, hrun, fun t => ?_⟩
  obtain ⟨hcounts, hholds, htodo⟩ := of_decide_eq_true hw t
  obtain ⟨finished, hfinished, hdone⟩ := (getEncAddress_threads PrivateKeyV4.testLibraries {} hrun).2.2
    (by simp) t (Place.eq_outside hcounts hholds)
  rw [List.eq_nil_of_length_eq_zero htodo, List.append_nil] at hfinished
  rw [← List.reverse_reverse (w.state t).done, hdone, ← hfinished]
  rfl

end PublicKeyV4

namespace PublicKey

variable (addressPrefix : AddressPrefix)

/-- The address that `EncodeAddress` computes for `ef` or `zf` where it finds none. -/
def encodedAddress (call : Bytes × Bytes) : Bytes :=
  if call.1 = bytes "ef" then KeypairUtils.encodeAddress addressPrefix signtypeEd25519 encodetypeBase58 call.2
  else KeypairUtils.encodeAddress addressPrefix signtypeCfcasm2 encodetypeBase58 call.2

/-- What `EncodeAddress` answers without the table: nothing for any other prefix. -/
def refused (call : Bytes × Bytes) : Option Bytes :=
  if call.1 ≠ bytes "ef" ∧ call.1 ≠ bytes "zf" then some [] else none

/-- The sections of a thread that calls `EncodeAddress`: the lookup in `g_raw_address_to_encode` under the
prefix and the address, and where it finds nothing the write of what it computed. -/
def encodeAddressSection : SharedTable.Caller (Bytes × Bytes) Bytes →
    Option (Section (Bytes → Option Bytes) (SharedTable.Caller (Bytes × Bytes) Bytes)) :=
  SharedTable.nextSection refused (fun call => call.1 ++ call.2) (encodedAddress addressPrefix)

/-- The two prefixes are of one length, so that a key is of one prefix and one address. -/
theorem call_eq_of_key {call other : Bytes × Bytes} (hcall : refused call = none)
    (hother : refused other = none) (h : call.1 ++ call.2 = other.1 ++ other.2) : call = other := by
  have hlength : ∀ c : Bytes × Bytes, refused c = none → c.1.length = 2 := by
    intro c hc
    rw [refused, ite_eq_right_iff] at hc
    by_cases hef : c.1 = bytes "ef"
    · rw [hef]
      rfl
    · by_cases hzf : c.1 = bytes "zf"
      · rw [hzf]
        rfl
      · cases hc ⟨hef, hzf⟩
  have hparts := List.append_inj h ((hlength call hcall).trans (hlength other hother).symm)
  exact Prod.ext hparts.1 hparts.2

/-- Any number of threads call `EncodeAddress` for any prefixes and addresses, in any order of their
steps: no two of them use `g_raw_address_to_encode` while one writes it; while calls are to come one of
the threads can move; and every call returns the address of its prefix, or nothing where there is no
such prefix. -/
theorem encodeAddress_threads {T : Type} [DecidableEq T] {calls : T → List (Bytes × Bytes)} {moves : List T}
    {w : Threads T (Bytes → Option Bytes) (SharedTable.Caller (Bytes × Bytes) Bytes)}
    (h : run (fun _ => encodeAddressSection addressPrefix) (SharedTable.start calls) moves = some w) :
    (∀ t t', t' ≠ t → (w.place t).writes = true → (w.place t').reads = false ∧ (w.place t').writes = false) ∧
      ((∃ t, (w.state t).todo ≠ []) →
        ∃ t, (step (fun _ => encodeAddressSection addressPrefix) w t).isSome) ∧
      ∀ t, w.place t = .outside → ∃ finished, calls t = finished ++ (w.state t).todo ∧
        (w.state t).done.reverse =
          finished.map fun call => (call, (refused call).getD (encodedAddress addressPrefix call)) := by
  obtain ⟨hexclusive, hprogress, hresults⟩ := SharedTable.run_shared h
  refine ⟨hexclusive, hprogress, hresults ?_⟩
  intro t t' call _ other _ hcall hother hkey
  rw [call_eq_of_key hcall hother hkey]

/-- Two threads that encode one address, both of which find nothing. -/
theorem encodeAddress_threads_sampleMoves : ∃ w,
    run (fun _ => encodeAddressSection {}) (SharedTable.start fun _ : Bool => [(bytes "zf", [1])])
      PublicKeyV4.sampleMoves = some w ∧
    ∀ t, (w.state t).done = [((bytes "zf", [1]), encodedAddress {} (bytes "zf", [1]))] := by
  have hcheck : ((run (fun _ => encodeAddressSection {})
      (SharedTable.start fun _ : Bool => [(bytes "zf", [1])]) PublicKeyV4.sampleMoves).any fun w =>
    ∀ t, (w.place t).counts = false ∧ (w.place t).holds = false ∧ (w.state t).todo.length = 0) = true := by
    decide +kernel
  obtain ⟨w, hrun, hw⟩ := (Option.any_eq_true _ _).mp hcheck
  refine ⟨w, hrun, fun t => ?_⟩
  obtain ⟨hcounts, hholds, htodo⟩ := of_decide_eq_true hw t
  obtain ⟨finished, hfinished, hdone⟩ := (encodeAddress_threads {} hrun).2.2 t
    (Place.eq_outside hcounts hholds)
  rw [List.eq_nil_of_length_eq_zero htodo, List.append_nil] at hfinished
  rw [← List.reverse_reverse (w.state t).done, hdone, ← hfinished]
  rfl

end PublicKey

end CrosschainAgent
