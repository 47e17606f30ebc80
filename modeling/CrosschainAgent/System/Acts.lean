import CrosschainAgent.System.World

/-!
# What one step does

The inversions of `Shared.act` and `World.step`. For each operation of a thread: what it
returns and how it changes the shared state; a query changes nothing and a submission nothing
but the agent's transactions on one chain, and the stores change one key at a time. For each
step of the system: when it is possible and where it leads.
-/

namespace CrosschainAgent

open Interaction

variable {T : Type} [DecidableEq T]

namespace Shared

/-- One operation of a thread, by what it returns and what it leaves. -/
inductive Acts (sys : System) (t : T) (w : Shared T) : (o : Op) → o.Resp → Shared T → Prop
  | highResolution (now : Int64) : Acts sys t w .highResolution now { w with clock := now }
  | query (l : Layer) (request : Request) (r : HttpResult)
      (truthful : w.truthful sys l r request = true) : Acts sys t w (.http l request) r w
  | lost (l : Layer) (input : TxInput) (amount seq : Int64) (r : HttpResult)
      (unnamed : ∀ h, acceptedHash r = some h → h = []) :
      Acts sys t w (.http l (.submitTransaction (sys.su.conf.crossContract l) input amount seq)) r
        (w.setChain l { w.chain l with posted := (input, amount) :: (w.chain l).posted })
  | received (l : Layer) (input : TxInput) (amount seq : Int64) (r : HttpResult) (hash : Text)
      (accepted : ∀ h, acceptedHash r = some h → h = [] ∨ h = hash) (ne_nil : hash ≠ [])
      (fresh : hash ∉ (w.chain l).pool.map (·.hash)) :
      Acts sys t w (.http l (.submitTransaction (sys.su.conf.crossContract l) input amount seq)) r
        (w.setChain l { w.chain l with
          posted := (input, amount) :: (w.chain l).posted
          pool := (w.chain l).pool ++ [⟨hash, input, amount⟩] })
  | lock (s : Store) (n : ℕ) (free : w.mayUse t s = true) :
      Acts sys t w (.lock s) () (w.setLock s (some (t, n)))
  | unlock (s : Store) (n : ℕ) (held : w.locks s = some (t, n)) :
      Acts sys t w (.unlock s) () (w.setLock s (if n ≤ 1 then none else some (t, n - 1)))
  | dbPut (key value : Text) (ok : Bool) : Acts sys t w (.dbPut key value) ok
      { w with agent := if ok then { w.agent with db := w.agent.db.insert key value } else w.agent }
  | dbDelete (key : Text) (ok : Bool) : Acts sys t w (.dbDelete key) ok
      { w with agent := if ok then { w.agent with db := w.agent.db.erase key } else w.agent }
  | dbScan (keyPrefix : Text) (ok : Bool) : Acts sys t w (.dbScan keyPrefix)
      (if ok then some (AgentState.valuesByPrefix w.agent.db keyPrefix) else none) w
  | entries (s : Store) (free : w.mayUse t s = true) :
      Acts sys t w (.entries s) (w.agent.maps s).toList w
  | emplace (s : Store) (key : Text) (e : CrossTx) (free : w.mayUse t s = true) :
      Acts sys t w (.emplace s key e) ()
        { w with agent := w.agent.setMap s ((w.agent.maps s).insertIfNew key e) }
  | erase (s : Store) (key : Text) (free : w.mayUse t s = true) :
      Acts sys t w (.erase s key) ()
        { w with agent := w.agent.setMap s ((w.agent.maps s).erase key) }
  | setAckTimeout (s : Store) (key : Text) (time : Int64) (free : w.mayUse t s = true) :
      Acts sys t w (.setAckTimeout s key time) ()
        { w with agent := w.agent.setMap s (AgentState.setDue (w.agent.maps s) key time) }

/-- A submission that was posted is one the node received, or one that was lost. -/
theorem post_acts {sys : System} {t : T} {w w' : Shared T} {l : Layer} {input : TxInput}
    {amount seq : Int64} {received : Option Text} {r : HttpResult}
    (h : w.post l input amount received r = some w') :
    Acts sys t w (.http l (.submitTransaction (sys.su.conf.crossContract l) input amount seq)) r
      w' := by
  unfold post at h
  cases received with
  | none =>
    simp only [Option.ite_none_right_eq_some, Option.some.injEq, Option.all_eq_true,
      decide_eq_true_eq] at h
    obtain ⟨hunnamed, rfl⟩ := h
    exact .lost l input amount seq r hunnamed
  | some hash =>
    simp only [Option.ite_none_right_eq_some, Option.some.injEq, Option.all_eq_true,
      decide_eq_true_eq] at h
    obtain ⟨⟨haccepted, hne, hfresh⟩, rfl⟩ := h
    exact .received l input amount seq r hash haccepted hne hfresh

/-- Every operation the system allows is one of these. -/
theorem act_acts {sys : System} {t : T} {w w' : Shared T} {o : Op} {a : Answer} {r : o.Resp}
    (h : w.act sys t o a = some (r, w')) : Acts sys t w o r w' := by
  cases o with
  | highResolution =>
    cases a with
    | time now =>
      cases h
      exact .highResolution _
    | go | stored | reply | posted => cases h
  | http l request =>
    cases a with
    | go | time | stored => cases h
    | reply r' =>
      simp only [act, Option.ite_none_right_eq_some, Option.some.injEq, Prod.mk.injEq] at h
      obtain ⟨htrue, rfl, rfl⟩ := h
      exact .query l request r' htrue
    | posted received r' =>
      cases request with
      | getLedger | callContract | getTransactionHistory => cases h
      | submitTransaction destAddress input amount seq =>
        simp only [act, Option.ite_none_right_eq_some, Option.map_eq_some_iff, Prod.mk.injEq] at h
        obtain ⟨rfl, w'', hpost, rfl, rfl⟩ := h
        exact post_acts hpost
  | dbPut key value =>
    cases a with
    | stored ok =>
      cases h
      exact .dbPut key value _
    | go | time | reply | posted => cases h
  | dbDelete key =>
    cases a with
    | stored ok =>
      cases h
      exact .dbDelete key _
    | go | time | reply | posted => cases h
  | dbScan keyPrefix =>
    cases a with
    | stored ok =>
      cases h
      exact .dbScan keyPrefix ok
    | go | time | reply | posted => cases h
  | lock s =>
    cases a with
    | go =>
      simp only [act] at h
      split at h
      next hnone =>
        cases h
        exact .lock s 1 (by rw [mayUse, hnone])
      next t' n hsome =>
        simp only [Option.ite_none_right_eq_some, Option.some.injEq, Prod.mk.injEq] at h
        obtain ⟨rfl, _, rfl⟩ := h
        exact .lock s (n + 1) (by simp [mayUse, hsome])
    | time | stored | reply | posted => cases h
  | unlock s =>
    cases a with
    | go =>
      simp only [act] at h
      split at h
      next => cases h
      next t' n hsome =>
        simp only [Option.ite_none_right_eq_some, Option.some.injEq, Prod.mk.injEq] at h
        obtain ⟨rfl, _, rfl⟩ := h
        exact .unlock s n hsome
    | time | stored | reply | posted => cases h
  | entries s =>
    simp only [act, Option.ite_none_right_eq_some] at h
    obtain ⟨hfree, h⟩ := h
    cases a with
    | go =>
      cases h
      exact .entries s hfree
    | time | stored | reply | posted => cases h
  | emplace s key e =>
    simp only [act, Option.ite_none_right_eq_some] at h
    obtain ⟨hfree, h⟩ := h
    cases a with
    | go =>
      cases h
      exact .emplace s key e hfree
    | time | stored | reply | posted => cases h
  | erase s key =>
    simp only [act, Option.ite_none_right_eq_some] at h
    obtain ⟨hfree, h⟩ := h
    cases a with
    | go =>
      cases h
      exact .erase s key hfree
    | time | stored | reply | posted => cases h
  | setAckTimeout s key time =>
    simp only [act, Option.ite_none_right_eq_some] at h
    obtain ⟨hfree, h⟩ := h
    cases a with
    | go =>
      cases h
      exact .setAckTimeout s key time hfree
    | time | stored | reply | posted => cases h
  | terminate => exact r.elim

end Shared

namespace World

/-- One step of the system, by what it needs and what it leaves. -/
inductive Steps (sys : System) (w : World T) : Label T → World T → Prop
  | block (l : Layer) (time : ℕ) (h : (w.shared.chain l).now < time) :
      Steps sys w (.block l time)
        { w with shared := w.shared.setChain l { w.shared.chain l with now := time } }
  | user (l : Layer) (sender value : ℕ) (accepts : Address → Bool) (call : Bridge.Call) (c : Chain)
      (stranger : sender ≠ sys.owner l)
      (h : (w.shared.chain l).exec l sys.sha256 sender value accepts call = some c) :
      Steps sys w (.user l sender value accepts call) { w with shared := w.shared.setChain l c }
  | execute (l : Layer) (index : ℕ) (accepts : Address → Bool) (tx : AgentTx) (call : Bridge.Call)
      (c : Chain) (received : (w.shared.chain l).pool[index]? = some tx)
      (decoded : sys.abi.decodeCall tx.input.function tx.input.args = some call)
      (h : (w.shared.chain l).exec l sys.sha256 (sys.owner l) tx.amount.toInt.toNat accepts call =
        some c) :
      Steps sys w (.execute l index accepts)
        { w with shared := w.shared.setChain l { c with done := tx.hash :: c.done } }
  | deliver (t : T) (l : Layer) (index time : ℕ) (event : Bridge.Event) (call : HandleManager.Call)
      (logged : (w.shared.chain l).log[index]? = some (time, event))
      (subscribed : tlogOf sys.abi l event = some call) (closed : time < (w.shared.chain l).now)
      (idle : w.tasks t = none) :
      Steps sys w (.deliver t l index)
        { shared := { w.shared with taken := (l, index) :: w.shared.taken }
          tasks := Function.update w.tasks t
            (some ⟨some (l, index), HandleManager.run sys.su call⟩) }
  | confirm (t : T) (confirmSeq : Int64) (idle : w.tasks t = none) :
      Steps sys w (.confirm t confirmSeq)
        { shared := w.shared
          tasks := Function.update w.tasks t
            (some ⟨none, HandleManager.run sys.su (.confirm confirmSeq)⟩) }
  | timer (t : T) (idle : w.tasks t = none) :
      Steps sys w (.timer t)
        { shared := w.shared
          tasks := Function.update w.tasks t (some ⟨none, HandleManager.run sys.su .timer⟩) }
  | act (t : T) (a : Answer) (event : Option (Layer × ℕ)) (o : Op) (k : o.Resp → AgentM Bool)
      (r : o.Resp) (shared : Shared T) (running : w.tasks t = some ⟨event, .op o k⟩)
      (h : Shared.Acts sys t w.shared o r shared) :
      Steps sys w (.act t a) (proceed shared w.tasks t event (k r))
  | restart (t : T) (answers : List Answer) (shared : Shared T)
      (h : Runs (fun o u r u' => Shared.Acts sys t u o r u') (HandleManager.initializeHandle sys.su)
        { w.shared with agent := w.shared.agent.restarted, locks := fun _ => none } () shared) :
      Steps sys w (.restart t answers) { shared := shared, tasks := fun _ => none }

/-- Taking up a call needs a thread that has none. -/
theorem take_eq_some {sys : System} {w w' : World T} {t : T} {event : Option (Layer × ℕ)}
    {call : HandleManager.Call} (h : w.take sys t event call = some w') :
    w.tasks t = none ∧ w' =
      { shared := { w.shared with taken := event.toList ++ w.shared.taken }
        tasks := Function.update w.tasks t (some ⟨event, HandleManager.run sys.su call⟩) } := by
  unfold take at h
  split at h
  next => cases h
  next hidle =>
    cases h
    exact ⟨hidle, rfl⟩

/-- Every step the system can take is one of these. -/
theorem step_steps {sys : System} {w w' : World T} {label : Label T}
    (h : step sys w label = some w') : Steps sys w label w' := by
  cases label with
  | block l time =>
    simp only [step, Option.ite_none_right_eq_some, Option.some.injEq] at h
    obtain ⟨htime, rfl⟩ := h
    exact .block l time htime
  | user l sender value accepts call =>
    simp only [step, Option.ite_none_left_eq_some, Option.map_eq_some_iff] at h
    obtain ⟨hsender, c, hexec, rfl⟩ := h
    exact .user l sender value accepts call c hsender hexec
  | execute l index accepts =>
    simp only [step, Option.bind_eq_bind, Option.bind_eq_some_iff, Option.pure_def,
      Option.some.injEq] at h
    obtain ⟨tx, htx, call, hcall, c, hexec, rfl⟩ := h
    exact .execute l index accepts tx call c htx hcall hexec
  | deliver t l index =>
    simp only [step, Option.bind_eq_bind, Option.bind_eq_some_iff,
      Option.ite_none_right_eq_some] at h
    obtain ⟨⟨time, event⟩, hlog, call, hcall, hclosed, htake⟩ := h
    obtain ⟨hidle, rfl⟩ := take_eq_some htake
    exact .deliver t l index time event call hlog hcall hclosed hidle
  | confirm t confirmSeq =>
    obtain ⟨hidle, rfl⟩ := take_eq_some h
    exact .confirm t confirmSeq hidle
  | timer t =>
    obtain ⟨hidle, rfl⟩ := take_eq_some h
    exact .timer t hidle
  | act t a =>
    simp only [step, Option.bind_eq_bind, Option.bind_eq_some_iff] at h
    obtain ⟨⟨event, prog⟩, htask, h⟩ := h
    cases prog with
    | ret => cases h
    | op o k =>
      simp only [Option.bind_eq_some_iff, Option.pure_def, Option.some.injEq] at h
      obtain ⟨⟨r, shared⟩, hact, rfl⟩ := h
      exact .act t a event o k r shared htask (Shared.act_acts hact)
  | restart t answers =>
    simp only [step, Option.bind_eq_bind, Option.bind_eq_some_iff, Option.pure_def,
      Option.some.injEq] at h
    obtain ⟨⟨⟨⟩, shared⟩, hruns, rfl⟩ := h
    exact .restart t answers shared (runs_of_runWith (fun _ _ _ _ _ => Shared.act_acts) hruns)

end World

end CrosschainAgent
