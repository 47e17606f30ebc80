import CrosschainAgent.Glue.Handle

/-!
# The stores of the agent

The pending maps of both handlers and the database they share, and what each operation does
to them. What the outside decides about an operation is its answer: the clock, the outcome
of a database operation, the response of a node.
-/

namespace CrosschainAgent

open Interaction Std

/-- The pending maps and the database. -/
structure AgentState where
  maps : Store → InfoMap
  db : Database

/-- What the outside decides about an operation. `posted` answers a submission: whether the
node received it, and under which hash, and what the agent sees of it. -/
inductive Answer where
  | go
  | time (t : Int64)
  | stored (ok : Bool)
  | reply (r : HttpResult)
  | posted (received : Option Text) (r : HttpResult)

namespace AgentState

/-- Change one of the maps. -/
def setMap (a : AgentState) (s : Store) (m : InfoMap) : AgentState :=
  { a with maps := Function.update a.maps s m }

/-- `GetAllByIterator`: the set of the values whose keys start with the prefix. -/
def valuesByPrefix (db : Database) (keyPrefix : Text) : List Text :=
  (ExtTreeSet.ofList ((db.toList.filter fun kv => keyPrefix.isPrefixOf kv.1).map (·.2)) compare).toList

/-- Set the due time of an entry the map has. -/
def setDue (m : InfoMap) (key : Text) (time : Int64) : InfoMap :=
  match m[key]? with
  | some e => m.insert key { e with sendAckTimeout := time }
  | none => m

/-- One operation on the stores. The locks are of no concern to a lone thread. -/
def step : (o : Op) → Answer → AgentState → Option (o.Resp × AgentState)
  | .highResolution, .time t, a => some (t, a)
  | .http _ _, .reply r, a => some (r, a)
  | .dbPut key value, .stored ok, a =>
    some (ok, if ok then { a with db := a.db.insert key value } else a)
  | .dbDelete key, .stored ok, a => some (ok, if ok then { a with db := a.db.erase key } else a)
  | .dbScan keyPrefix, .stored ok, a =>
    some (if ok then some (valuesByPrefix a.db keyPrefix) else none, a)
  | .lock _, .go, a => some ((), a)
  | .unlock _, .go, a => some ((), a)
  | .entries s, .go, a => some ((a.maps s).toList, a)
  | .emplace s key e, .go, a => some ((), a.setMap s ((a.maps s).insertIfNew key e))
  | .erase s key, .go, a => some ((), a.setMap s ((a.maps s).erase key))
  | .setAckTimeout s key t, .go, a => some ((), a.setMap s (setDue (a.maps s) key t))
  | _, _, _ => none

/-- The maps of a process that has just started. -/
def restarted (a : AgentState) : AgentState := { a with maps := fun _ => ∅ }

/-- Nothing stored and nothing pending. -/
def empty : AgentState := ⟨fun _ => ∅, ∅⟩

/-- A map that was set is read back. -/
@[simp] theorem setMap_maps_self (a : AgentState) (s : Store) (m : InfoMap) :
    (a.setMap s m).maps s = m := Function.update_self ..

/-- Setting one map leaves the others. -/
theorem setMap_maps_of_ne (a : AgentState) {s s' : Store} (m : InfoMap) (h : s' ≠ s) :
    (a.setMap s m).maps s' = a.maps s' := Function.update_of_ne h ..

/-- Setting a map leaves the database. -/
@[simp] theorem setMap_db (a : AgentState) (s : Store) (m : InfoMap) : (a.setMap s m).db = a.db := rfl

/-- A value is found under a prefix when some key that starts with it holds the value. -/
theorem mem_valuesByPrefix {db : Database} {keyPrefix value : Text} :
    value ∈ valuesByPrefix db keyPrefix ↔ ∃ key, keyPrefix <+: key ∧ db[key]? = some value := by
  simp only [valuesByPrefix, ExtTreeSet.mem_toList, ExtTreeSet.mem_ofList, List.contains_iff_mem,
    List.mem_map, List.mem_filter, List.isPrefixOf_iff_prefix]
  constructor
  · rintro ⟨⟨key, v⟩, ⟨hmem, hprefix⟩, rfl⟩
    exact ⟨key, hprefix, ExtTreeMap.mem_toList_iff_getElem?_eq_some.mp hmem⟩
  · rintro ⟨key, hprefix, hget⟩
    exact ⟨(key, value), ⟨ExtTreeMap.mem_toList_iff_getElem?_eq_some.mpr hget, hprefix⟩, rfl⟩

/-- A due time is set on the entry of its key, if there is one. -/
theorem getElem?_setDue {m : InfoMap} {key k : Text} {t : Int64} :
    (setDue m key t)[k]? = if k = key then m[k]?.map fun e => { e with sendAckTimeout := t }
      else m[k]? := by
  unfold setDue
  by_cases hk : k = key
  · subst hk
    cases h : m[k]? with
    | none => simp [h]
    | some e => simp
  · rw [if_neg hk]
    cases h : m[key]? with
    | none => rfl
    | some e => simp [ExtTreeMap.getElem?_insert, Ne.symm hk]

/-- A change of one key of one map leaves every other entry. -/
theorem getElem?_setMap_of_ne (a : AgentState) {s s' : Store} {m : InfoMap} {key k : Text}
    (hm : ∀ k, k ≠ key → m[k]? = (a.maps s)[k]?) (hne : ¬(s' = s ∧ k = key)) :
    ((a.setMap s m).maps s')[k]? = (a.maps s')[k]? := by
  by_cases hs : s' = s
  · subst hs
    rw [setMap_maps_self]
    exact hm k fun hk => hne ⟨rfl, hk⟩
  · rw [setMap_maps_of_ne a m hs]

/-- An insertion leaves an entry that the map has. -/
theorem getElem?_emplace {m : InfoMap} {key k : Text} {e : CrossTx} :
    (m.insertIfNew key e)[k]? = if k = key then m[key]?.or (some e) else m[k]? := by
  rw [ExtTreeMap.getElem?_insertIfNew]
  by_cases hk : k = key
  · subst hk
    by_cases hmem : k ∈ m
    · rw [if_neg fun h => h.2 hmem, if_pos rfl, ExtTreeMap.getElem?_eq_some_getElem hmem, Option.some_or]
    · rw [if_pos ⟨compare_self, hmem⟩, if_pos rfl, ExtTreeMap.getElem?_eq_none hmem, Option.none_or]
  · rw [if_neg fun h => hk (LawfulEqCmp.eq_of_compare h.1).symm, if_neg hk]

/-- An erased key is gone, and no other. -/
theorem getElem?_erased {α : Type} {m : ExtTreeMap Text α compare} {key k : Text} :
    (m.erase key)[k]? = if k = key then none else m[k]? := by
  rw [ExtTreeMap.getElem?_erase]
  by_cases hk : k = key
  · rw [if_pos hk, if_pos (hk ▸ compare_self)]
  · rw [if_neg hk, if_neg fun h => hk (LawfulEqCmp.eq_of_compare h).symm]

/-- A written key reads back its value, the others as before. -/
theorem getElem?_written {db : Database} {key k value : Text} :
    (db.insert key value)[k]? = if k = key then some value else db[k]? := by
  rw [ExtTreeMap.getElem?_insert]
  by_cases hk : k = key
  · rw [if_pos hk, if_pos (hk ▸ compare_self)]
  · rw [if_neg hk, if_neg fun h => hk (LawfulEqCmp.eq_of_compare h).symm]

end AgentState

/-- The seven maps. -/
def Store.all : List Store :=
  .start :: [Layer.layer1, Layer.layer2].flatMap fun h => [.send h, .ack h, .reply h]

/-- Every store is listed. -/
theorem Store.mem_all (s : Store) : s ∈ Store.all := by
  cases s with
  | start => decide
  | send h | ack h | reply h => cases h <;> decide

/-- No key prefix is a prefix of another. -/
theorem Store.keyPrefix_separate : ∀ s ∈ Store.all, ∀ s' ∈ Store.all,
    s.keyPrefix.isPrefixOf s'.keyPrefix → s = s' := by
  decide

/-- A database key belongs to one map only. -/
theorem Store.eq_of_keyPrefix {s s' : Store} {key : Text} (h : s.keyPrefix <+: key)
    (h' : s'.keyPrefix <+: key) : s = s' := by
  rcases List.prefix_or_prefix_of_prefix h h' with hprefix | hprefix
  · exact keyPrefix_separate s s.mem_all s' s'.mem_all (List.isPrefixOf_iff_prefix.mpr hprefix)
  · exact (keyPrefix_separate s' s'.mem_all s s.mem_all
      (List.isPrefixOf_iff_prefix.mpr hprefix)).symm

/-- A database key is the prefix of one map and one id. -/
theorem Store.keyPrefix_append_inj {s s' : Store} {id id' : Text}
    (h : s.keyPrefix ++ id = s'.keyPrefix ++ id') : s = s' ∧ id = id' := by
  obtain rfl : s = s' := eq_of_keyPrefix (List.prefix_append _ id) (h ▸ List.prefix_append _ id')
  exact ⟨rfl, List.append_cancel_left h⟩

end CrosschainAgent
