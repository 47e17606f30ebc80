import CrosschainAgent.Session.Passes

/-!
# The round of one entry in a pass

A pass that runs to its end makes one round for each entry the map had. The other rounds leave
the entry alone, so its own round decides what becomes of it.
-/

namespace CrosschainAgent

open Interaction Std HttpClient

variable {su : Setup} {h : Handle} {pass : Pass h} {s s' t t' : Session} {currentTime : Int64}
  {key : Text} {e : CrossTx}

namespace Pass

/-- What a pass does before its rounds. -/
def prologue (pass : Pass h) : AgentM (Int64 × List (Text × CrossTx)) := do
  let currentTime ← pass.clock
  perform (Op.lock pass.store)
  let infos ← perform (Op.entries pass.store)
  return (currentTime, infos)

/-- What it does after the round of an entry. -/
def epilogue (su : Setup) (currentTime : Int64) (pass : Pass h) (infos : List (Text × CrossTx)) :
    AgentM Unit := do
  infos.forM (pass.round su currentTime)
  perform (Op.unlock pass.store)

/-- Where the round of an entry begins and ends in a run of the pass. -/
def RoundIn (su : Setup) (pass : Pass h) (s s' : Session) (currentTime : Int64) (key : Text)
    (e : CrossTx) (t t' : Session) : Prop :=
  ∃ done more begun, Runs Session.act pass.prologue s (currentTime, done ++ (key, e) :: more) begun ∧
    Runs Session.act (done.forM (pass.round su currentTime)) begun ⟨⟩ t ∧
    Runs Session.act (pass.round su currentTime (key, e)) t ⟨⟩ t' ∧
    Runs Session.act (pass.epilogue su currentTime more) t' () s'

/-- A pass reads the clock and lists its map, and then works off the entries. -/
theorem run_eq_prologue (su : Setup) (pass : Pass h) : pass.call.run su = (do
    let (currentTime, infos) ← pass.prologue
    pass.epilogue su currentTime infos
    return true : AgentM Bool) := by
  simp only [run_eq, prologue, epilogue, bind_assoc, pure_bind]

/-- What the prologue returns is the content of the map. -/
theorem prologue_entries {infos : List (Text × CrossTx)}
    (hrun : Runs Session.act pass.prologue s (currentTime, infos) t) :
    t.state = s.state ∧ infos = (s.state.maps pass.store).toList := by
  obtain ⟨now, s1, hclock, hrun⟩ := runs_bind.mp hrun
  obtain ⟨_, s2, hlock, hrun⟩ := runs_bind.mp hrun
  obtain ⟨entries, s3, hentries, hrun⟩ := runs_bind.mp hrun
  obtain ⟨heq, rfl⟩ := runs_pure.mp hrun
  obtain ⟨-, rfl⟩ := Prod.mk.inj heq
  have hclock' : Uses Op.Remote pass.clock := by
    cases pass with
    | handleConfirmSeqEvent confirmSeq => exact Uses.pure _
    | sendTxTimeOut | sendAckTimeOut | replyAckTimeOut | startTxTimeOut =>
      exact ⟨trivial, fun _ => trivial⟩
  have hs1 := state_of_remote hclock' hclock
  have hs2 := (runs_perform.mp hlock).1.eq_of_remote trivial
  have hs3 := (runs_perform.mp hentries).1.entries_eq
  rw [hs3.1, hs3.2, hs2, hs1]
  exact ⟨rfl, rfl⟩

/-- A pass that runs to its end makes the round of every entry. -/
theorem exists_roundIn {ok : Bool} (hrun : Runs Session.act (pass.call.run su) s ok s')
    (hget : (s.state.maps pass.store)[key]? = some e) :
    ∃ currentTime t t', pass.RoundIn su s s' currentTime key e t t' := by
  rw [run_eq_prologue] at hrun
  obtain ⟨⟨now, infos⟩, begun, hprologue, hrun⟩ := runs_bind.mp hrun
  obtain ⟨_, u, hepilogue, hrun⟩ := runs_bind.mp hrun
  obtain ⟨_, rfl⟩ := runs_pure.mp hrun
  have hmem : (key, e) ∈ infos := by
    rw [(prologue_entries hprologue).2]
    exact ExtTreeMap.mem_toList_iff_getElem?_eq_some.mpr hget
  obtain ⟨done, more, rfl⟩ := List.append_of_mem hmem
  obtain ⟨_, v, hloop, hunlock⟩ := runs_bind.mp hepilogue
  obtain ⟨t, hdone, hloop⟩ := runs_forM_append.mp hloop
  obtain ⟨_, t', hround, hmore⟩ := runs_bind.mp hloop
  exact ⟨now, t, t', done, more, begun, hprologue, hdone, hround, runs_bind.mpr ⟨_, v, hmore, hunlock⟩⟩

/-- Rounds of other entries leave the entry. -/
theorem rounds_same {infos : List (Text × CrossTx)} (hs : s.WellKeyed su pass.store)
    (hfiled : ∀ p ∈ infos, p.2.FiledUnder su p.1) (hother : ∀ p ∈ infos, p.1 ≠ key)
    (hrun : Runs Session.act (infos.forM (pass.round su currentTime)) s ⟨⟩ t) :
    t.WellKeyed su pass.store ∧
      (t.state.maps pass.store)[key]? = (s.state.maps pass.store)[key]? := by
  refine hrun.forM (J := fun u => u.WellKeyed su pass.store ∧
    (u.state.maps pass.store)[key]? = (s.state.maps pass.store)[key]?) ⟨hs, rfl⟩ ?_
  rintro ⟨k, x⟩ hp u u' ⟨hu, hget⟩ hround
  refine ⟨hu.runs (pass.round_files currentTime _) hround, ?_⟩
  have hsame : u.state.SameAt u'.state pass.store key :=
    same_of_touches (round_touches (hfiled (k, x) hp)) hround fun h => hother (k, x) hp (h rfl).symm
  rw [hsame.map, hget]

namespace RoundIn

/-- A pass whose round is told runs to its end. -/
theorem runs (hround : pass.RoundIn su s s' currentTime key e t t') :
    Runs Session.act (pass.call.run su) s true s' := by
  obtain ⟨done, more, begun, hprologue, hdone, hround, hepilogue⟩ := hround
  obtain ⟨_, v, hmore, hunlock⟩ := runs_bind.mp hepilogue
  rw [run_eq_prologue]
  refine runs_bind.mpr ⟨_, begun, hprologue, runs_bind.mpr ⟨(), s', ?_, runs_pure.mpr ⟨rfl, rfl⟩⟩⟩
  refine runs_bind.mpr ⟨⟨⟩, v, ?_, hunlock⟩
  exact runs_forM_append.mpr ⟨t, hdone, runs_bind.mpr ⟨⟨⟩, t', hround, hmore⟩⟩

/-- The keys of the entries are different, and each entry is one of the map. -/
theorem entries {done more : List (Text × CrossTx)} {begun : Session}
    (hrun : Runs Session.act pass.prologue s (currentTime, done ++ (key, e) :: more) begun) :
    (∀ p ∈ done, p.1 ≠ key) ∧ (∀ p ∈ more, p.1 ≠ key) ∧
      ∀ p ∈ done ++ (key, e) :: more, (s.state.maps pass.store)[p.1]? = some p.2 := by
  obtain ⟨-, hinfos⟩ := prologue_entries hrun
  have hnodup : ((done ++ (key, e) :: more).map Prod.fst).Nodup := by
    rw [hinfos, ExtTreeMap.map_fst_toList_eq_keys]
    exact ExtTreeMap.nodup_keys
  rw [List.map_append, List.map_cons, List.nodup_append] at hnodup
  obtain ⟨-, hmore, hdisjoint⟩ := hnodup
  refine ⟨fun p hp => ?_, fun p hp heq => ?_, fun p hp => ?_⟩
  · exact hdisjoint p.1 (List.mem_map_of_mem hp) key List.mem_cons_self
  · have hmem : p.1 ∈ more.map Prod.fst := List.mem_map_of_mem hp
    rw [heq] at hmem
    exact (List.nodup_cons.mp hmore).1 hmem
  · rw [hinfos] at hp
    exact ExtTreeMap.mem_toList_iff_getElem?_eq_some.mp hp

/-- The round finds the entry the map had. -/
theorem before (hround : pass.RoundIn su s s' currentTime key e t t')
    (hs : s.WellKeyed su pass.store) :
    t.WellKeyed su pass.store ∧ (t.state.maps pass.store)[key]? = some e := by
  obtain ⟨done, more, begun, hprologue, hdone, -, -⟩ := hround
  obtain ⟨hother, -, hget⟩ := entries hprologue
  have hbegun : begun.state = s.state := (prologue_entries hprologue).1
  have hkeyed : begun.WellKeyed su pass.store := by
    intro k x hk
    rw [hbegun] at hk
    exact hs k x hk
  have hfiled : ∀ p ∈ done, p.2.FiledUnder su p.1 := fun p hp =>
    hs p.1 p.2 (hget p (List.mem_append_left _ hp))
  obtain ⟨ht, hsame⟩ := rounds_same hkeyed hfiled hother hdone
  refine ⟨ht, ?_⟩
  rw [hsame, hbegun]
  exact hget (key, e) (List.mem_append_right _ List.mem_cons_self)

/-- The pass leaves what the round leaves. -/
theorem after (hround : pass.RoundIn su s s' currentTime key e t t')
    (hs : s.WellKeyed su pass.store) :
    (s'.state.maps pass.store)[key]? = (t'.state.maps pass.store)[key]? := by
  have ht := (hround.before hs).1
  obtain ⟨done, more, begun, hprologue, hdone, hmine, hepilogue⟩ := hround
  obtain ⟨-, hother, hget⟩ := entries hprologue
  have ht' : t'.WellKeyed su pass.store := ht.runs (pass.round_files currentTime _) hmine
  have hfiled : ∀ p ∈ more, p.2.FiledUnder su p.1 := fun p hp =>
    hs p.1 p.2 (hget p (List.mem_append_right _ (List.mem_cons_of_mem _ hp)))
  obtain ⟨_, v, hmore, hunlock⟩ := runs_bind.mp hepilogue
  have hv := (runs_perform.mp hunlock).1.eq_of_remote trivial
  rw [hv, (rounds_same ht' hfiled hother hmore).2]

end RoundIn

/-- Run a pass over a map of one entry, given the answers before, in and after its round. -/
def roundWith (su : Setup) (pass : Pass h) (key : Text) (first mine last : List Answer) (s : Session) :
    Option (Int64 × CrossTx × Session × Session × Session) :=
  match runWith Session.step pass.prologue first s with
  | some ((currentTime, [(k, e)]), t) =>
    if k = key then
      match runWith Session.step (pass.round su currentTime (key, e)) mine t with
      | some (_, t') => (runWith Session.step (pass.epilogue su currentTime []) last t').map
          fun r => (currentTime, e, t, t', r.2)
      | none => none
    else none
  | _ => none

/-- Rounds with given answers are rounds. -/
theorem roundIn_of_roundWith {first mine last : List Answer}
    (hrun : pass.roundWith su key first mine last s = some (currentTime, e, t, t', s')) :
    pass.RoundIn su s s' currentTime key e t t' := by
  unfold roundWith at hrun
  split at hrun
  next now k x u hprologue =>
    split at hrun
    next heq =>
      split at hrun
      next v hround =>
        obtain ⟨⟨_, w⟩, hepilogue, heq'⟩ := Option.map_eq_some_iff.mp hrun
        cases heq'
        cases heq
        exact ⟨[], [], t, Session.runs_of_answers hprologue, runs_pure.mpr ⟨rfl, rfl⟩,
          Session.runs_of_answers hround, Session.runs_of_answers hepilogue⟩
      next => cases hrun
    next => cases hrun
  next => cases hrun

end Pass

end CrosschainAgent
