import CrosschainAgent.System.Messages

/-!
# The chains and the threads keep the invariant

A chain executes only what the invariant speaks of: calls of users, which can start and
refund transfers but do nothing that is reserved to the owner, and submissions of the agent,
which say what the invariant says they say. An operation of a thread keeps the invariant when
what it submits or stores is justified. The books move forward in every case.
-/

namespace CrosschainAgent

open Interaction Bridge Strings Function

variable {T : Type} {S : Scene}

/-- The books after one chain changed. -/
theorem books_setChain (w : Shared T) (l : Layer) (c : Chain) :
    (w.setChain l c).books =
      { record := update w.books.record l c.bridge.crossTxInfo
        hashed := update w.books.hashed l c.hashed
        now := update w.books.now l c.now
        received := update w.books.received l c.pool } := by
  have hchain : ∀ l', (w.setChain l c).chain l' = if l' = l then c else w.chain l' := by
    intro l'
    by_cases h : l' = l
    · subst h
      simp [Shared.setChain]
    · simp [Shared.setChain, h]
  simp only [Shared.books, hchain]
  congr 1
  · funext l' id
    by_cases h : l' = l
    · subst h
      simp
    · simp [h]
  all_goals
    funext l'
    by_cases h : l' = l
    · subst h
      simp
    · simp [h]

/-- A chain that was set is read back. -/
@[simp] theorem setChain_chain_self (w : Shared T) (l : Layer) (c : Chain) :
    (w.setChain l c).chain l = c := update_self ..

/-- Setting one chain leaves the other. -/
theorem setChain_chain_of_ne (w : Shared T) {l l' : Layer} (c : Chain) (h : l' ≠ l) :
    (w.setChain l c).chain l' = w.chain l' := update_of_ne h ..

/-- Setting a chain leaves the agent. -/
@[simp] theorem setChain_agent (w : Shared T) (l : Layer) (c : Chain) :
    (w.setChain l c).agent = w.agent := rfl

namespace Scene

/-- The stores changed, and hold nothing the invariant does not allow. -/
theorem Good.of_stores {w w' : Shared T} (hw : S.Good w) (hchain : w'.chain = w.chain)
    (hmaps : ∀ s key e, (w'.agent.maps s)[key]? = some e → S.EntryOk w.books s key e)
    (hdb : ∀ key value, w'.agent.db[key]? = some value → S.ValueOk w.books key value) :
    S.Good w' ∧ S.Later w.books w'.books := by
  have hbooks : w'.books = w.books := by simp only [Shared.books, hchain]
  refine ⟨⟨hbooks ▸ hw.books, ?_, hbooks ▸ hmaps, hbooks ▸ hdb⟩, hbooks ▸ Books.Later.refl _⟩
  rw [hbooks, hchain]
  exact hw.chains

/-- One chain changed, and the books moved forward. -/
theorem Good.of_chain {w : Shared T} (hw : S.Good w) {l : Layer} {c : Chain}
    (hsettled : S.Settled (w.setChain l c).books) (hlater : S.Later w.books (w.setChain l c).books)
    (hc : S.ChainOk (w.setChain l c).books l c) : S.Good (w.setChain l c) where
  books := hsettled
  chains l' := by
    by_cases heq : l' = l
    · subst heq
      rwa [setChain_chain_self]
    · rw [setChain_chain_of_ne w c heq]
      exact (hw.chains l').later hlater
  maps s key e he := (hw.maps s key e he).later hlater
  db key value hv := (hw.db key value hv).later hlater

/-- A submission that is justified may be posted, whether or not the node receives it. -/
theorem Good.post {w : Shared T} (hw : S.Good w) {l : Layer} {input : TxInput} {amount : Int64}
    (hj : S.Justified w.books l input amount) (txs : List AgentTx)
    (hnew : ∀ tx ∈ txs, (tx.input, tx.amount) = (input, amount) ∧ tx.hash ≠ [])
    (hapart : (((w.chain l).pool ++ txs).map (·.hash)).Nodup) {c : Chain}
    (hc : c = { w.chain l with
      posted := (input, amount) :: (w.chain l).posted
      pool := (w.chain l).pool ++ txs }) :
    S.Good (w.setChain l c) ∧ S.Later w.books (w.setChain l c).books := by
  subst hc
  have hold := hw.chains l
  have hmore : w.books.received l ⊆ (w.chain l).pool ++ txs := List.subset_append_left ..
  have hbooks : (w.setChain l { w.chain l with
      posted := (input, amount) :: (w.chain l).posted
      pool := (w.chain l).pool ++ txs }).books = w.books.receive l ((w.chain l).pool ++ txs) := by
    rw [books_setChain]
    simp [Books.receive, Shared.books]
  have hlater : S.Later w.books (w.setChain l { w.chain l with
      posted := (input, amount) :: (w.chain l).posted
      pool := (w.chain l).pool ++ txs }).books := hbooks ▸ Books.later_receive hmore
  refine ⟨hw.of_chain (hbooks ▸ hw.books.receive) hlater ?_, hlater⟩
  have hkept := hold.later hlater
  constructor
  case owner => exact hkept.owner
  case chainId => exact hkept.chainId
  case log => exact hkept.log
  case posted =>
    intro p hp
    rcases List.mem_cons.mp hp with rfl | hp
    · exact hj.later hlater
    · exact hkept.posted p hp
  case pool =>
    intro tx htx
    rcases List.mem_append.mp htx with hin | hin
    · exact List.mem_cons_of_mem _ (hold.pool tx hin)
    · exact (hnew tx hin).1 ▸ List.mem_cons_self
  case named =>
    intro tx htx
    rcases List.mem_append.mp htx with hin | hin
    · exact hold.named tx hin
    · exact (hnew tx hin).2
  case apart => exact hapart
  case done =>
    intro hash hdone
    obtain ⟨tx, htx, hrest⟩ := hkept.done hash hdone
    exact ⟨tx, List.mem_append_left _ htx, hrest⟩

variable [DecidableEq T]

/-- An operation whose precondition holds keeps the invariant, and the books move forward. -/
theorem Good.acts {t : T} {w w' : Shared T} {o : Op} {r : o.Resp} (hw : S.Good w)
    (hpre : S.Pre w.books o) (h : Shared.Acts S.sys t w o r w') :
    S.Good w' ∧ S.Later w.books w'.books := by
  cases h with
  | highResolution | query | dbScan | entries | lock | unlock =>
    exact hw.of_stores rfl hw.maps hw.db
  | lost l input amount seq r unnamed =>
    refine hw.post hpre [] (fun _ htx => nomatch htx) ?_ ?_
    · rw [List.append_nil]
      exact (hw.chains l).apart
    · rw [List.append_nil]
  | received l input amount seq r hash accepted ne_nil fresh =>
    refine hw.post hpre [⟨hash, input, amount⟩] (fun tx htx => ?_) ?_ rfl
    · rw [List.mem_singleton.mp htx]
      exact ⟨rfl, ne_nil⟩
    · rw [List.map_append, List.map_singleton, ← List.concat_eq_append]
      exact (hw.chains l).apart.concat fresh
  | dbPut key value ok =>
    refine hw.of_stores rfl ?_ ?_
    · cases ok <;> exact hw.maps
    · cases ok with
      | false => exact hw.db
      | true =>
        intro k v hv
        simp only [if_true, Std.ExtTreeMap.getElem?_insert] at hv
        split at hv
        next heq =>
          cases hv
          exact Std.LawfulEqCmp.eq_of_compare heq ▸ hpre
        next => exact hw.db k v hv
  | dbDelete key ok =>
    refine hw.of_stores rfl ?_ ?_
    · cases ok <;> exact hw.maps
    · cases ok with
      | false => exact hw.db
      | true =>
        intro k v hv
        simp only [if_true, Std.ExtTreeMap.getElem?_erase] at hv
        split at hv
        next => cases hv
        next => exact hw.db k v hv
  | emplace s key e free =>
    refine hw.of_stores rfl (fun s' k e' he => ?_) hw.db
    by_cases hs : s' = s
    · subst hs
      simp only [AgentState.setMap_maps_self, Std.ExtTreeMap.getElem?_insertIfNew] at he
      split at he
      next heq =>
        cases he
        exact Std.LawfulEqCmp.eq_of_compare heq.1 ▸ hpre
      next => exact hw.maps s' k e' he
    · rw [AgentState.setMap_maps_of_ne _ _ hs] at he
      exact hw.maps s' k e' he
  | erase s key free =>
    refine hw.of_stores rfl (fun s' k e' he => ?_) hw.db
    by_cases hs : s' = s
    · subst hs
      simp only [AgentState.setMap_maps_self, Std.ExtTreeMap.getElem?_erase] at he
      split at he
      next => cases he
      next => exact hw.maps s' k e' he
    · rw [AgentState.setMap_maps_of_ne _ _ hs] at he
      exact hw.maps s' k e' he
  | setAckTimeout s key time free =>
    refine hw.of_stores rfl (fun s' k e' he => ?_) hw.db
    by_cases hs : s' = s
    · subst hs
      simp only [AgentState.setMap_maps_self, AgentState.getElem?_setDue] at he
      split at he
      next heq =>
        obtain ⟨e, hget, rfl⟩ := Option.map_eq_some_iff.mp he
        obtain ⟨info, due, rfl, hkey, hinfo⟩ := hw.maps s' k e hget
        exact ⟨info, time, rfl, hkey, hinfo⟩
      next => exact hw.maps s' k e' he
    · rw [AgentState.setMap_maps_of_ne _ _ hs] at he
      exact hw.maps s' k e' he

/-- The rules by which the threads act on the shared state: the books move forward, and that
is all a thread may rely on. -/
def rules (S : Scene) (T : Type) [DecidableEq T] : Rules T Op Op.Resp (Shared T) where
  Inv := S.Good
  Later w w' := S.Later w.books w'.books
  Rely _ w w' := S.Later w.books w'.books
  Pre _ o w := S.Pre w.books o
  act t o w r w' := Shared.Acts S.sys t w o r w'
  later_refl w := Books.Later.refl _
  later_trans _ _ _ h h' := h.trans h'
  rely_refl _ w := Books.Later.refl _
  rely_trans _ _ _ _ h h' := h.trans h'
  later_of_rely _ _ _ h := h
  sound t o w r w' hw hpre hact := by
    obtain ⟨hgood, hlater⟩ := hw.acts hpre hact
    exact ⟨hgood, hlater, fun _ _ => hlater⟩

end Scene

end CrosschainAgent
