import CrosschainAgent.Contract.Solvency

/-!
# When every deposit keeps its own record

`SendTx` refuses an id that already has a record. `StartTx` has no such test: it relies on
the hash of its arguments being unique, and the arguments repeat when one sender makes the
same transfer twice in one block. The second record then replaces the first, and the money
of the first deposit stays in the contract with no record to claim it.

A run keeps its deposits exactly when no accepted `StartTx` repeats an earlier one of the
same block, or hits an id that the owner has already used in `SendTx`.
-/

namespace CrosschainAgent.Bridge

open Function Escrow

variable {l : Layer} {sha256 : Sha256}

/-- The id a funding call creates its record under. -/
def Entry.fundedId (l : Layer) (sha256 : Sha256) (chainId : ℕ) (e : Entry) : Option Bytes :=
  match e.call with
  | .startTx src dest amount =>
    some (sha256.hash (startWords l chainId src dest amount e.msg.timestamp))
  | .sendTx id _ _ _ _ => some id
  | _ => none

/-- The words hashed by a `StartTx`. -/
def Entry.hashed (l : Layer) (chainId : ℕ) (e : Entry) : Option (List ℕ) :=
  match e.call with
  | .startTx src dest amount => some (startWords l chainId src dest amount e.msg.timestamp)
  | _ => none

/-- The newer call is a `StartTx` that computes an id the older call has already used: the
older one is a `StartTx` of the same block with the same sender, receiver and amount, or a
`SendTx` of that very id. -/
def Repeats (l : Layer) (sha256 : Sha256) (chainId : ℕ) (newer older : Entry) : Prop :=
  match newer.call, older.call with
  | .startTx src dest amount, .startTx src' dest' amount' =>
    src' = src ∧ dest' = dest ∧ amount' = amount ∧ older.msg.timestamp = newer.msg.timestamp
  | .startTx src dest amount, .sendTx id _ _ _ _ =>
    id = sha256.hash (startWords l chainId src dest amount newer.msg.timestamp)
  | _, _ => False

/-- The balance is exactly what the live records are owed. -/
def Chronicle.Balanced (s : Chronicle) : Prop :=
  ∑ᶠ id, (s.state.crossTxInfo id).owed = s.state.balance

/-- Along the calls made from `s`, every accepted `StartTx` or `SendTx` creates a record
under an id that had none, and the balance always equals what the records are owed. -/
def KeepsDeposits (l : Layer) (sha256 : Sha256) (s : Chronicle) : List (Msg × Call) → Prop
  | [] => s.Balanced
  | x :: rest => s.Balanced ∧
      (∀ b r, exec l sha256 s.state x.1 x.2 = .ok (b, r) → ∀ id, Entry.funds ⟨x.1, x.2, r⟩ id →
        ¬(s.state.crossTxInfo id).Exists ∧ (b.crossTxInfo id).Exists) ∧
      KeepsDeposits l sha256 (step l sha256 s x) rest

/-- An accepted call funds the id it computes or is given, and no other. -/
theorem Accepted.funds_iff {b b' : State} {msg : Msg} {c : Call} {r : Receipt}
    (h : Accepted l sha256 b msg c b' r) (id : Bytes) :
    Entry.funds ⟨msg, c, r⟩ id ↔ Entry.fundedId l sha256 b.chainId ⟨msg, c, r⟩ = some id := by
  cases h with
  | setTimeout | setOwner | ackFailure | refund => simp [Entry.funds, Entry.fundedId]
  | startTx d txId hid =>
    subst hid
    simp [Entry.funds, Entry.fundedId, eq_comm]
  | sendTx i => simp [Entry.funds, Entry.fundedId, eq_comm]
  | ackSuccess i e t recipient events owner value length found init desc window funds taken route =>
    split at route <;> simp [Entry.funds, Entry.fundedId, route]

/-- A record exists after an accepted call if it did before or the call created it. -/
theorem Accepted.exists_iff {b b' : State} {msg : Msg} {c : Call} {r : Receipt}
    (h : Accepted l sha256 b msg c b' r) (id : Bytes) :
    (b'.crossTxInfo id).Exists ↔
      (b.crossTxInfo id).Exists ∨ Entry.fundedId l sha256 b.chainId ⟨msg, c, r⟩ = some id := by
  cases h with
  | setTimeout | setOwner => simp [Entry.fundedId]
  | startTx d txId hid =>
    subst hid
    by_cases hi : id = sha256.hash (startWords l b.chainId msg.sender d msg.value msg.timestamp)
    · subst hi
      simp [Entry.fundedId, startedInfo, CrossTxInfo.Exists, hash_ne_nil]
    · simp [Entry.fundedId, update_of_ne hi, Ne.symm hi]
  | sendTx i s d t owner length =>
    by_cases hi : id = i
    · subst hi
      simp [Entry.fundedId, sentInfo, CrossTxInfo.Exists, ne_nil_of_length length]
    · simp [Entry.fundedId, update_of_ne hi, Ne.symm hi]
  | ackSuccess i | ackFailure i | refund i =>
    by_cases hi : id = i
    · subst hi
      simp [Entry.fundedId, CrossTxInfo.Exists]
    · simp [Entry.fundedId, update_of_ne hi]

/-- No call changes the chain id. -/
theorem Accepted.chainId_eq {b b' : State} {msg : Msg} {c : Call} {r : Receipt}
    (h : Accepted l sha256 b msg c b' r) : b'.chainId = b.chainId := by
  cases h <;> rfl

/-- Every record was created by an accepted call of the chronicle. -/
structure Chronicle.Traced (l : Layer) (sha256 : Sha256) (chainId : ℕ) (s : Chronicle) : Prop where
  chainId_eq : s.state.chainId = chainId
  created : ∀ id, (s.state.crossTxInfo id).Exists ↔
    ∃ e ∈ s.accepted, e.fundedId l sha256 chainId = some id

/-- A fresh contract has no deposits to trace. -/
theorem deploy_traced (sender : Address) (chainId timeout : ℕ) :
    Chronicle.Traced l sha256 chainId ⟨deploy sender chainId timeout, []⟩ where
  chainId_eq := rfl
  created id := by simp [deploy, CrossTxInfo.Exists]

/-- One accepted call keeps every record traced to the deposit it came from. -/
theorem Chronicle.Traced.cons {s : Chronicle} {chainId : ℕ} (h : s.Traced l sha256 chainId)
    {msg : Msg} {c : Call} {b : State} {r : Receipt} (hacc : Accepted l sha256 s.state msg c b r) :
    Chronicle.Traced l sha256 chainId ⟨b, ⟨msg, c, r⟩ :: s.accepted⟩ where
  chainId_eq := hacc.chainId_eq.trans h.chainId_eq
  created id := by
    rw [hacc.exists_iff id, h.created id, h.chainId_eq]
    simp [or_comm]

/-- The words of `startWords` determine the transfer. -/
theorem startWords_inj {chainId src dest amount time src' dest' amount' time' : ℕ}
    (h : startWords l chainId src' dest' amount' time' = startWords l chainId src dest amount time) :
    src' = src ∧ dest' = dest ∧ amount' = amount ∧ time' = time := by
  simpa [startWords] using h

/-- An accepted call creates its record anew exactly when it repeats no earlier call. -/
theorem fresh_iff {s : Chronicle} {chainId : ℕ} (htraced : s.Traced l sha256 chainId)
    {words : Set (List ℕ)} (hinj : Set.InjOn sha256.hash words) {msg : Msg} {c : Call} {b : State}
    {r : Receipt} (hacc : Accepted l sha256 s.state msg c b r)
    (hnew : ∀ w, Entry.hashed l chainId ⟨msg, c, r⟩ = some w → w ∈ words)
    (hold : ∀ e ∈ s.accepted, ∀ w, e.hashed l chainId = some w → w ∈ words) :
    (∀ id, Entry.fundedId l sha256 chainId ⟨msg, c, r⟩ = some id →
        ¬(s.state.crossTxInfo id).Exists) ↔
      ∀ older ∈ s.accepted, ¬Repeats l sha256 chainId ⟨msg, c, r⟩ older := by
  constructor
  · intro hfresh older holder hrepeats
    cases c with
    | setTimeout | setOwner | sendTx | sendAckedTx | refund => exact hrepeats
    | startTx src dest amount =>
      refine hfresh _ rfl ((htraced.created _).mpr ⟨older, holder, ?_⟩)
      cases hcall : older.call with
      | setTimeout | setOwner | sendAckedTx | refund => simp [Repeats, hcall] at hrepeats
      | startTx src' dest' amount' =>
        simp only [Repeats, hcall] at hrepeats
        obtain ⟨rfl, rfl, rfl, htime⟩ := hrepeats
        simp only [Entry.fundedId, hcall, htime]
      | sendTx id =>
        simp only [Repeats, hcall] at hrepeats
        simp only [Entry.fundedId, hcall, hrepeats]
  · intro hnone id hid hexists
    obtain ⟨older, holder, hoid⟩ := (htraced.created id).mp hexists
    have hno := hnone older holder
    cases hacc with
    | setTimeout | setOwner | ackSuccess | ackFailure | refund => simp [Entry.fundedId] at hid
    | sendTx i s d t owner length nonzero inTime fresh =>
      simp only [Entry.fundedId, Option.some.injEq] at hid
      exact hexists (hid ▸ fresh)
    | startTx d txId htx =>
      simp only [Entry.fundedId, Option.some.injEq] at hid
      cases hcall : older.call with
      | startTx src' dest' amount' =>
        simp only [Entry.fundedId, hcall, Option.some.injEq] at hoid
        have hwords := hinj (hold older holder _ (by simp only [Entry.hashed, hcall]))
          (hnew _ rfl) (hoid.trans hid.symm)
        exact hno (by simpa only [Repeats, hcall] using startWords_inj hwords)
      | sendTx i' s' d' a' t' =>
        simp only [Entry.fundedId, hcall, Option.some.injEq] at hoid
        exact hno (by simp only [Repeats, hcall]; exact hoid.trans hid.symm)
      | setTimeout | setOwner | sendAckedTx | refund => simp [Entry.fundedId, hcall] at hoid

/-- Later calls only add to the accepted ones. -/
theorem accepted_subset (l : Layer) (sha256 : Sha256) (s : Chronicle) (calls : List (Msg × Call)) :
    s.accepted <:+ (calls.foldl (step l sha256) s).accepted := by
  induction calls generalizing s with
  | nil => exact List.suffix_rfl
  | cons x rest ih =>
    refine List.IsSuffix.trans ?_ (ih (step l sha256 s x))
    rcases step_cases l sha256 s x with heq | ⟨b, r, _, heq⟩
    · rw [heq]
    · rw [heq]
      exact List.suffix_cons _ _

/-- A call that creates its record anew makes a fresh deposit into the pot. -/
theorem Accepted.move_fresh {b b' : State} {msg : Msg} {c : Call} {r : Receipt}
    (h : Accepted l sha256 b msg c b' r) (es : List Entry)
    (hfresh : ∀ id, Entry.fundedId l sha256 b.chainId ⟨msg, c, r⟩ = some id →
      ¬(b.crossTxInfo id).Exists) :
    (potMove c r).Fresh (Chronicle.pot ⟨b, es⟩) := by
  have hnone : ∀ id, ¬(b.crossTxInfo id).Exists → (b.crossTxInfo id).claim = none := by
    intro id hid
    exact if_neg fun hlive => hid hlive.1
  cases h with
  | setTimeout | setOwner | ackSuccess | ackFailure | refund => trivial
  | startTx d txId hid =>
    subst hid
    exact hnone _ (hfresh _ rfl)
  | sendTx i => exact hnone i (hfresh i rfl)

/-- What an accepted call must do for the deposits to keep their records, in terms of the
calls before it. -/
theorem keeps_iff {s : Chronicle} {chainId : ℕ} (htraced : s.Traced l sha256 chainId)
    {words : Set (List ℕ)} (hinj : Set.InjOn sha256.hash words) {msg : Msg} {c : Call} {b : State}
    {r : Receipt} (hacc : Accepted l sha256 s.state msg c b r)
    (hnew : ∀ w, Entry.hashed l chainId ⟨msg, c, r⟩ = some w → w ∈ words)
    (hold : ∀ e ∈ s.accepted, ∀ w, e.hashed l chainId = some w → w ∈ words) :
    (∀ id, Entry.funds ⟨msg, c, r⟩ id →
        ¬(s.state.crossTxInfo id).Exists ∧ (b.crossTxInfo id).Exists) ↔
      ∀ older ∈ s.accepted, ¬Repeats l sha256 chainId ⟨msg, c, r⟩ older := by
  rw [← fresh_iff htraced hinj hacc hnew hold]
  constructor
  · intro hkeeps id hid
    exact (hkeeps id ((hacc.funds_iff id).mpr (htraced.chainId_eq ▸ hid))).1
  · intro hfresh id hid
    have hfunded := (hacc.funds_iff id).mp hid
    exact ⟨hfresh id (htraced.chainId_eq ▸ hfunded), (hacc.exists_iff id).mpr (Or.inr hfunded)⟩

/-- The equivalence along the calls that remain to be made from a chronicle without repeats. -/
theorem keepsDeposits_iff_of_sound {s : Chronicle} {chainId : ℕ} (hsound : s.Sound)
    (htraced : s.Traced l sha256 chainId) (hbalanced : s.Balanced) {words : Set (List ℕ)}
    (hinj : Set.InjOn sha256.hash words) (calls : List (Msg × Call))
    (hwords : ∀ e ∈ (calls.foldl (step l sha256) s).accepted, ∀ w,
      e.hashed l chainId = some w → w ∈ words)
    (hnone : s.accepted.Pairwise fun newer older => ¬Repeats l sha256 chainId newer older) :
    KeepsDeposits l sha256 s calls ↔
      (calls.foldl (step l sha256) s).accepted.Pairwise
        fun newer older => ¬Repeats l sha256 chainId newer older := by
  induction calls generalizing s with
  | nil => exact iff_of_true hbalanced hnone
  | cons x rest ih =>
    rw [List.foldl_cons] at hwords ⊢
    unfold KeepsDeposits
    cases hexec : exec l sha256 s.state x.1 x.2 with
    | error reason =>
      have hstep : step l sha256 s x = s := by simp only [step, hexec]
      rw [hstep] at hwords ⊢
      rw [ih hsound htraced hbalanced hwords hnone]
      simp [hbalanced]
    | ok result =>
      obtain ⟨b, r⟩ := result
      have hacc := exec_accepted hexec
      have hstep : step l sha256 s x = ⟨b, ⟨x.1, x.2, r⟩ :: s.accepted⟩ := by
        simp only [step, hexec]
      have hsuffix : ⟨x.1, x.2, r⟩ :: s.accepted <:+
          (rest.foldl (step l sha256) (step l sha256 s x)).accepted := by
        have hlater := accepted_subset l sha256 (step l sha256 s x) rest
        rwa [hstep] at hlater ⊢
      have hkeeps := keeps_iff htraced hinj hacc
        (hwords _ (hsuffix.subset (List.mem_cons_self ..)))
        (fun e he => hwords e (hsuffix.subset (List.mem_cons_of_mem _ he)))
      by_cases hfresh : ∀ older ∈ s.accepted, ¬Repeats l sha256 chainId ⟨x.1, x.2, r⟩ older
      · -- a fresh call keeps the balance exact, and the rest of the run decides
        obtain ⟨henabled, hpot⟩ := hacc.pot_move hsound.wellFormed s.accepted
        have hmove := hacc.move_fresh s.accepted fun id hid =>
          (hkeeps.mpr hfresh id ((hacc.funds_iff id).mpr hid)).1
        have hbalanced' : Chronicle.Balanced ⟨b, ⟨x.1, x.2, r⟩ :: s.accepted⟩ := by
          have heq := Pot.balanced_apply hsound.solvent (by rw [pot_owed]; exact hbalanced)
            _ henabled hmove
          rw [← hpot, pot_owed] at heq
          exact heq
        have hrest := ih (hsound.step x) (hstep ▸ htraced.cons hacc) (hstep ▸ hbalanced') hwords
          (hstep ▸ List.pairwise_cons.mpr ⟨hfresh, hnone⟩)
        rw [hrest]
        refine ⟨fun h => h.2.2, fun h => ⟨hbalanced, ?_, h⟩⟩
        intro b' r' heq
        cases heq
        exact hkeeps.mpr hfresh
      · refine iff_of_false (fun h => hfresh (hkeeps.mp (h.2.1 b r rfl))) fun h => ?_
        exact hfresh (List.pairwise_cons.mp (h.sublist hsuffix.sublist)).1

/-- The words hashed by the accepted `StartTx` calls of a run. -/
def hashedWords (l : Layer) (chainId : ℕ) (es : List Entry) : Set (List ℕ) :=
  {w | ∃ e ∈ es, e.hashed l chainId = some w}

/-- With `sha256` injective on what the run hashes, every deposit keeps its own record and
the balance stays exact precisely when no accepted `StartTx` repeats an accepted call. -/
theorem keepsDeposits_iff (l : Layer) (sha256 : Sha256) (sender : Address) (chainId timeout : ℕ)
    (calls : List (Msg × Call))
    (hinj : Set.InjOn sha256.hash
      (hashedWords l chainId (run l sha256 (deploy sender chainId timeout) calls).accepted)) :
    KeepsDeposits l sha256 ⟨deploy sender chainId timeout, []⟩ calls ↔
      (run l sha256 (deploy sender chainId timeout) calls).accepted.Pairwise
        fun newer older => ¬Repeats l sha256 chainId newer older := by
  refine keepsDeposits_iff_of_sound (deploy_sound sender chainId timeout)
    (deploy_traced sender chainId timeout) ?_ hinj calls (fun e he w hw => ⟨e, he, hw⟩)
    List.Pairwise.nil
  simp [Chronicle.Balanced, deploy, CrossTxInfo.owed, CrossTxInfo.Live, CrossTxInfo.Exists]

/-- A stand-in for `sha256` on the few inputs of an example. -/
def sumHash : Sha256 where
  hash words := List.replicate 31 0 ++ [UInt8.ofNat words.sum]
  length_hash words := by simp

/-- A transfer of 5 coins from account 7 to account 8, made in the block of time `time`. -/
def sampleStart (time : ℕ) : Msg × Call :=
  (⟨7, 5, time, fun _ => true⟩, .startTx 7 8 5)

/-- The entry that call leaves when it is accepted on layer 1 of the chain with id 2. -/
def sampleEntry (time : ℕ) : Entry :=
  ⟨(sampleStart time).1, (sampleStart time).2,
    { events := [.startTxEvent (sumHash.hash (startWords .layer1 2 7 8 5 time))] }⟩

/-- The same transfer made in two different blocks keeps both deposits. -/
theorem keepsDeposits_two_blocks :
    KeepsDeposits .layer1 sumHash ⟨deploy 1 2 10, []⟩ [sampleStart 3, sampleStart 4] := by
  have haccepted : (run .layer1 sumHash (deploy 1 2 10) [sampleStart 3, sampleStart 4]).accepted =
    [sampleEntry 4, sampleEntry 3] := rfl
  refine (keepsDeposits_iff .layer1 sumHash 1 2 10 [sampleStart 3, sampleStart 4] ?_).mpr ?_
  · rw [haccepted]
    rintro w ⟨e, he, hw⟩ w' ⟨e', he', hw'⟩ heq
    simp only [List.mem_cons, List.not_mem_nil, or_false] at he he'
    rcases he with rfl | rfl <;> rcases he' with rfl | rfl <;>
      simp only [sampleEntry, sampleStart, Entry.hashed, Option.some.injEq] at hw hw' <;>
      subst hw <;> subst hw'
    · rfl
    · exact absurd heq (by decide)
    · exact absurd heq (by decide)
    · rfl
  · rw [haccepted]
    simp [Repeats, sampleEntry, sampleStart]

/-- Two equal transfers in one block: the second record replaces the first, and 10 coins are
held for a record of 5. -/
theorem startTx_replaces :
    ([sampleStart 3, sampleStart 3].map fun x => x.1.timestamp).Pairwise (· ≤ ·) ∧
      Set.InjOn sumHash.hash (hashedWords .layer1 2
        (run .layer1 sumHash (deploy 1 2 10) [sampleStart 3, sampleStart 3]).accepted) ∧
      ¬KeepsDeposits .layer1 sumHash ⟨deploy 1 2 10, []⟩ [sampleStart 3, sampleStart 3] := by
  have haccepted : (run .layer1 sumHash (deploy 1 2 10) [sampleStart 3, sampleStart 3]).accepted =
    [sampleEntry 3, sampleEntry 3] := rfl
  refine ⟨by decide, ?_, ?_⟩
  · rw [haccepted]
    rintro w ⟨e, he, hw⟩ w' ⟨e', he', hw'⟩ -
    simp only [List.mem_cons, List.not_mem_nil, or_false, or_self] at he he'
    subst he he'
    exact Option.some_inj.mp (hw.symm.trans hw')
  · rintro ⟨_, _, _, hsecond, _⟩
    refine (hsecond _ _ rfl (sumHash.hash (startWords .layer1 2 7 8 5 3)) ?_).1 ?_
    · decide
    · decide

end CrosschainAgent.Bridge
