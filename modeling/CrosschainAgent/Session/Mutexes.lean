import CrosschainAgent.Library.Locks
import CrosschainAgent.Session.Filing
import CrosschainAgent.System.Formats

/-!
# The mutexes of the handlers

Each pending map has a recursive mutex. A pass holds the one of its map while it runs; `Save*`
and `Clear*` take theirs around the change of the map, also below a pass. The order in which they
are taken is start, send, ack, reply, so the threads of the agent never wait for each other in a
cycle.
-/

namespace CrosschainAgent

open Interaction HttpClient
open Locking (InOrder Balanced)

variable {su : Setup} {h : Handle}

/-- The map whose mutex `Save*` and `Clear*` hold during the operation. -/
def Op.guard : Op → Option Store
  | .emplace s _ _ => some s
  | .erase s _ => some s
  | _ => none

/-- The program with the guards of `Save*` and `Clear*` spelled out. -/
def guarded {α : Type} : AgentM α → AgentM α
  | .ret a => .ret a
  | .op o k =>
    match o.guard with
    | some s => .op (.lock s) fun _ => .op o fun r => .op (.unlock s) fun _ => guarded (k r)
    | none => .op o fun r => guarded (k r)

/-- What an operation does to the mutexes. -/
def Op.mutex : Op → Locking.Effect Store
  | .lock s => .takes s
  | .unlock s => .releases s
  | _ => .none

/-- The order of the mutexes. -/
def Store.rank : Store → ℕ
  | .start => 0
  | .send _ => 1
  | .ack _ => 2
  | .reply _ => 3

/-- What the threads of the agent call: an event handler, the confirm handler or a pass of either
handler, or its whole `OnTimer`. -/
inductive PublicCall where
  | handler {h : Handle} (call : HandlerCall h)
  | onTimer (h : Handle)

/-- The program of a call. -/
def PublicCall.run (su : Setup) : PublicCall → AgentM Bool
  | .handler call => call.run su
  | .onTimer .layer1 => do
    Layer1ToLayer2Handle.onTimer su
    return true
  | .onTimer .layer2 => do
    Layer2ToLayer1Handle.onTimer su
    return true

/-- The agent's threads on their mutexes. -/
def lockSystem (su : Setup) : Locking.System Op Op.Resp Store AgentState Answer PublicCall Bool where
  effect := Op.mutex
  act := AgentState.step
  program call := guarded (call.run su)

/-- The locks of a sequence are taken part by part. -/
theorem guarded_bind {α β : Type} (p : AgentM α) (f : α → AgentM β) :
    guarded (p >>= f) = guarded p >>= fun a => guarded (f a) := by
  change guarded (p.bind f) = (guarded p).bind fun a => guarded (f a)
  induction p with
  | ret a => rfl
  | op o k ih =>
    cases hguard : o.guard with
    | some s => simp only [Prog.bind, guarded, hguard, ih]
    | none => simp only [Prog.bind, guarded, hguard, ih]

/-- A mutex may be taken by a thread that holds these: it is one of them, or comes after them. -/
def Above (held : List Store) (store : Store) : Prop :=
  ∀ store' ∈ held, store' = store ∨ store'.rank < store.rank

/-- Every lock is above none. -/
theorem above_nil (store : Store) : Above [] store := fun _ hmem => absurd hmem List.not_mem_nil

/-- A lock is above itself, since it may be taken again. -/
theorem above_self (store : Store) : Above [store] store :=
  fun _ hmem => Or.inl (List.mem_singleton.mp hmem)

/-- A lock of a higher rank is above one of a lower. -/
theorem above_of_rank {store store' : Store} (hrank : store'.rank < store.rank) :
    Above [store'] store := by
  intro other hmem
  rw [List.mem_singleton.mp hmem]
  exact Or.inr hrank

/-- Called by a thread that holds these mutexes, the program takes the others in order and returns
with the same. -/
def KeepsOrder (held : List Store) {α : Type} (p : AgentM α) : Prop :=
  Balanced Op.mutex Store.rank held (guarded p)

/-- The operations without a mutex. -/
def Op.Plain : Op → Prop
  | .lock _ | .unlock _ | .emplace _ _ _ | .erase _ _ => False
  | _ => True

/-- Asking takes no lock. -/
theorem Op.Asks.plain {o : Op} (hasks : o.Asks) : o.Plain := by
  cases o with
  | http | terminate => exact trivial
  | highResolution | dbPut | dbDelete | dbScan | lock | unlock | entries | emplace | erase
  | setAckTimeout => exact hasks.elim

namespace KeepsOrder

variable {α β : Type} {held : List Store} {store : Store}

/-- A sequence keeps the order when its parts do. -/
theorem bind {p : AgentM α} {f : α → AgentM β} (hp : KeepsOrder held p)
    (hf : ∀ a, KeepsOrder held (f a)) : KeepsOrder held (p >>= f) := by
  unfold KeepsOrder
  rw [guarded_bind]
  exact Balanced.bind hp hf

/-- A program without operations keeps the order. -/
theorem pure (a : α) : KeepsOrder held (Pure.pure a) := rfl

/-- A conditional keeps the order when its branches do. -/
theorem ite {c : Prop} [Decidable c] {p q : AgentM α} (hp : KeepsOrder held p)
    (hq : KeepsOrder held q) : KeepsOrder held (if c then p else q) := by
  split
  · exact hp
  · exact hq

/-- A loop keeps the order when its rounds do. -/
theorem forM {γ : Type} {f : γ → AgentM PUnit} {xs : List γ} (hf : ∀ x, KeepsOrder held (f x)) :
    KeepsOrder held (xs.forM f) := by
  induction xs with
  | nil => exact pure _
  | cons x xs ih => exact bind (hf x) fun _ => ih

/-- Operations without a mutex. -/
theorem plain {p : AgentM α} (hp : Uses Op.Plain p) : KeepsOrder held p := by
  induction p with
  | ret a => rfl
  | op o k ih =>
    obtain ⟨hplain, hk⟩ := hp
    have hrest : ∀ r, InOrder Op.mutex Store.rank (fun held' => held' = held) held (guarded (k r)) :=
      fun r => ih r (hk r)
    cases o with
    | lock | unlock | emplace | erase => exact hplain.elim
    | highResolution | http | dbPut | dbDelete | dbScan | entries | setAckTimeout | terminate =>
      exact hrest

/-- Asking keeps the order. -/
theorem asks {p : AgentM α} (hp : Uses Op.Asks p) : KeepsOrder held p :=
  plain (hp.mono fun _ hasks => hasks.plain)

/-- An operation under a guard. -/
theorem emplace (hstore : Above held store) (key : Text) (e : CrossTx) :
    KeepsOrder held (perform (Op.emplace store key e) : AgentM Unit) :=
  ⟨hstore, fun _ _ => ⟨held, rfl, fun _ => rfl⟩⟩

/-- Erasing takes the lock of its map, which is above those that are held. -/
theorem erase (hstore : Above held store) (key : Text) :
    KeepsOrder held (perform (Op.erase store key) : AgentM Unit) :=
  ⟨hstore, fun _ _ => ⟨held, rfl, fun _ => rfl⟩⟩

/-- A pass holds the mutex of its map. -/
theorem pass {f : Text × CrossTx → AgentM PUnit} (hf : ∀ p, KeepsOrder [store] (f p)) :
    KeepsOrder [] (do
      perform (Op.lock store)
      let infos ← perform (Op.entries store)
      infos.forM f
      perform (Op.unlock store) : AgentM Unit) := by
  have hbody : KeepsOrder [store] (do
      let infos ← perform (Op.entries store)
      infos.forM f : AgentM PUnit) := bind (plain ⟨trivial, fun _ => trivial⟩) fun _ => forM hf
  have hunlock : ∀ held', held' = [store] → InOrder Op.mutex Store.rank (fun held' => held' = []) held'
      (guarded (perform (Op.unlock store) : AgentM Unit)) := by
    rintro _ rfl
    exact ⟨[], rfl, fun _ => rfl⟩
  have hall := InOrder.bind (f := fun _ => guarded (perform (Op.unlock store) : AgentM Unit)) hbody
    fun _ => hunlock
  rw [← guarded_bind, bind_assoc] at hall
  exact ⟨above_nil store, fun _ => hall⟩

end KeepsOrder

section Functions

open KeepsOrder

variable {held : List Store}

/-- A submission keeps the order. -/
theorem sendTransaction_order (l : Layer) (input : TxInput) (amount : Int64) :
    KeepsOrder held (Handle.sendTransaction su l input amount) := by
  refine bind (asks (asks_getLayerSeq l)) fun seq => ?_
  cases seq with
  | none => exact pure _
  | some seq => exact bind (plain ⟨trivial, fun _ => trivial⟩) fun _ => asks (asks_orTerminate _)

/-- Saving an entry keeps the order. -/
theorem saveInfo_order {store : Store} (hstore : Above held store) (e : CrossTx) :
    KeepsOrder held (Handle.saveInfo store e) :=
  bind (plain ⟨trivial, fun _ => trivial⟩) fun _ => emplace hstore _ _

/-- Saving an ack keeps the order. -/
theorem saveAckInfo_order (l : Handle) {store : Store} (hstore : Above held store) (e : CrossTx) :
    KeepsOrder held (Handle.saveAckInfo l store e) := by
  cases l with
  | layer1 | layer2 =>
    exact bind (plain ⟨trivial, fun _ => trivial⟩) fun _ =>
      bind (plain ⟨trivial, fun _ => trivial⟩) fun _ => emplace hstore _ _

/-- Forgetting an entry keeps the order. -/
theorem clearInfo_order {store : Store} (hstore : Above held store) (key : Text) :
    KeepsOrder held (Handle.clearInfo store key) :=
  bind (plain ⟨trivial, fun _ => trivial⟩) fun _ => erase hstore _

/-- Sending a `SendTx` keeps the order below the send lock. -/
theorem sendTxTo_order (hsend : Above held (.send h)) (info : Protocol.CrossTxInfo) :
    KeepsOrder held (Handle.sendTxTo su h info) := by
  refine bind (sendTransaction_order _ _ _) fun txhash => ?_
  cases txhash with
  | none => exact pure _
  | some hash => exact bind (saveInfo_order hsend _) fun _ => pure _

/-- Sending an ack keeps the order below the ack lock. -/
theorem sendAckTo_order (hack : Above held (.ack h)) (info : Protocol.CrossTxInfo) :
    KeepsOrder held (Handle.sendAckTo su h info) := by
  refine bind (sendTransaction_order _ _ _) fun txhash => ?_
  cases txhash with
  | none => exact pure _
  | some hash => exact bind (saveAckInfo_order h hack _) fun _ => pure _

/-- Sending a reply keeps the order below the reply lock. -/
theorem replyAckTo_order (hreply : Above held (.reply h)) (info : Protocol.CrossTxInfo) :
    KeepsOrder held (Handle.replyAckTo su h info) := by
  refine bind (sendTransaction_order _ _ _) fun txhash => ?_
  cases txhash with
  | none => exact pure _
  | some hash => exact bind (saveAckInfo_order h hreply _) fun _ => pure _

/-- The handler of a `SendTx` event keeps the order below its two locks. -/
theorem handleSendTxEvent_order (hsend : Above held (.send h)) (hack : Above held (.ack h))
    (crossTxid : Text) (status : Int32) :
    KeepsOrder held (Handle.handleSendTxEventWith su h crossTxid status) := by
  refine bind (asks (asks_readCrossTxInfo su h h.other crossTxid)) fun res => ?_
  cases res with
  | none => exact pure _
  | some info =>
    refine bind (sendAckTo_order hack _) fun _ => ite ?_ (pure _)
    exact bind (clearInfo_order hsend _) fun _ => pure _

/-- The handler of an ack event keeps the order. -/
theorem handleSendAckdTxEvent_order (crossTxid : Text) :
    KeepsOrder [] (Handle.handleSendAckdTxEvent su h crossTxid) := by
  refine bind (asks (asks_readCrossTxInfo su h h crossTxid)) fun res => ?_
  cases res with
  | none => exact pure _
  | some info =>
    refine bind (replyAckTo_order (above_nil _) _) fun _ => ite ?_ (pure _)
    exact bind (clearInfo_order (above_nil _) _) fun _ => pure _

/-- The acks of a send pass come after its own mutex. -/
theorem sendTxExpired_order (e : CrossTx) :
    KeepsOrder [.send h] (Handle.sendTxExpired su h e) := by
  have hack : Above [.send h] (.ack h) := above_of_rank (by change 1 < 2; omega)
  refine bind (asks (asks_getTxResult _ _)) fun _ => ite ?_ ?_
  · exact bind (handleSendTxEvent_order (above_self _) hack _ _) fun _ => pure _
  · exact bind (sendAckTo_order hack _) fun _ => ite (clearInfo_order (above_self _) _) (pure _)

/-- What is done about a due ack keeps the order when sending it again does. -/
theorem ackExpired_order {store : Store} (l : Layer) (currentTime : Int64) (key : Text) (e : CrossTx)
    {resend : AgentM Bool} (hresend : KeepsOrder [store] resend) :
    KeepsOrder [store] (Handle.ackExpired su store l currentTime key e resend) := by
  refine bind (asks (asks_getTxResult _ _)) fun _ => ite (clearInfo_order (above_self _) _) ?_
  refine bind (asks (asks_getCrossTxStatus _ _ _)) fun _ => ite (clearInfo_order (above_self _) _) ?_
  exact bind hresend fun _ => plain ⟨trivial, fun _ => trivial⟩

/-- Sending a due ack again keeps the order. -/
theorem sendAckExpired_order (currentTime : Int64) (key : Text) (e : CrossTx) :
    KeepsOrder [.ack h] (Handle.sendAckExpired su h currentTime key e) := by
  refine ite ?_ (ackExpired_order _ _ _ _ (sendAckTo_order (above_self _) _))
  exact bind (sendAckTo_order (above_self _) _) fun _ => plain ⟨trivial, fun _ => trivial⟩

/-- The submissions of the confirm handler come after the start mutex. -/
theorem confirmed_order (info : Protocol.CrossTxInfo) (currentTime : Int64) :
    KeepsOrder [.start] (Layer2ToLayer1Handle.confirmed su info currentTime) := by
  have hsend : Above [.start] (.send .layer2) := above_of_rank (by decide)
  have hack : Above [.start] (.ack .layer2) := above_of_rank (by decide)
  refine ite ?_ ?_
  · exact bind (sendAckTo_order hack _) fun _ => pure _
  · exact bind (sendTxTo_order hsend _) fun _ => ite (clearInfo_order (above_self _) _) (pure _)

/-- The handler of a start event keeps the order. -/
theorem handleStartTxEvent_order (crossTxid : Text) :
    KeepsOrder [] (HandlerCall.startEventOf su h crossTxid) := by
  cases h with
  | layer1 =>
    refine bind (asks (asks_readCrossTxInfo su _ _ _)) fun res => ?_
    cases res with
    | none => exact pure _
    | some info =>
      refine bind (sendTxTo_order (above_nil _) _) fun ok => ?_
      cases ok with
      | false => exact bind (sendAckTo_order (above_nil _) _) fun _ => pure _
      | true => exact pure _
  | layer2 =>
    refine bind (asks (asks_readCrossTxInfo su _ _ _)) fun res => ?_
    cases res with
    | none => exact pure _
    | some info =>
      refine bind (asks (asks_getLayerSeq _)) fun seq => ?_
      cases seq with
      | none => exact pure _
      | some seq => exact bind (saveInfo_order (above_nil _) _) fun _ => pure _

/-- Every call takes its mutexes in order. -/
theorem run_order (call : HandlerCall h) : KeepsOrder [] (call.run su) := by
  have hclock : KeepsOrder [] highResolution := plain ⟨trivial, fun _ => trivial⟩
  cases call with
  | handleStartTxEvent crossTxid => exact handleStartTxEvent_order crossTxid
  | handleSendTxEvent crossTxid => exact handleSendTxEvent_order (above_nil _) (above_nil _) _ _
  | handleSendAckdTxEvent crossTxid => exact handleSendAckdTxEvent_order crossTxid
  | sendTxTimeOut =>
    refine bind (bind hclock fun now => pass fun p => ?_) fun _ => pure _
    exact ite (sendTxExpired_order _) (pure _)
  | sendAckTimeOut =>
    refine bind (bind hclock fun now => pass fun p => ?_) fun _ => pure _
    exact ite (sendAckExpired_order _ _ _) (pure _)
  | replyAckTimeOut =>
    refine bind (bind hclock fun now => pass fun p => ?_) fun _ => pure _
    exact ite (ackExpired_order _ _ _ _ (replyAckTo_order (above_self _) _)) (pure _)
  | handleConfirmSeqEvent confirmSeq =>
    refine bind (pass fun p => ?_) fun _ => pure _
    exact bind (plain ⟨trivial, fun _ => trivial⟩) fun _ => ite (confirmed_order _ _) (pure _)
  | startTxTimeOut =>
    refine bind (bind hclock fun now => pass fun p => ?_) fun _ => pure _
    have hack : Above [.start] (.ack .layer2) := above_of_rank (by decide)
    exact ite (bind (sendAckTo_order hack _) fun _ =>
      ite (clearInfo_order (above_self _) _) (pure _)) (pure _)

/-- Every public call keeps the order. -/
theorem PublicCall.run_order (call : PublicCall) : KeepsOrder [] (call.run su) := by
  have hpass : ∀ {h : Handle} (call : HandlerCall h),
      KeepsOrder [] (call.run su >>= fun _ => Pure.pure PUnit.unit) := fun call =>
    bind (CrosschainAgent.run_order call) fun _ => pure _
  cases call with
  | handler call => exact CrosschainAgent.run_order call
  | onTimer h =>
    cases h with
    | layer1 =>
      refine bind ?_ fun _ => pure _
      rw [HandlerCall.layer1_onTimer_eq]
      exact forM hpass
    | layer2 =>
      refine bind ?_ fun _ => pure _
      rw [HandlerCall.layer2_onTimer_eq]
      exact forM hpass

end Functions

/-- Whatever the threads of the agent call, in any interleaving and on stores of any content, in no
state do they wait for each other's mutexes in a cycle. -/
theorem no_deadlock {T : Type} [DecidableEq T] (su : Setup) (a : AgentState)
    (labels : List (Locking.Label T Answer PublicCall)) (c : Locking.Threads Op Op.Resp Store T AgentState Bool)
    (hrun : (Locking.Threads.idle a).run (lockSystem su) labels = some c) (t : T) :
    ¬Relation.TransGen (c.Waits Op.mutex) t t := by
  have hprograms : ∀ p, Locking.Balanced (lockSystem su).effect Store.rank []
      ((lockSystem su).program p) := PublicCall.run_order
  exact Locking.Threads.run_no_cycle hprograms (Locking.Threads.orderly_idle a) hrun t

namespace Formats

/-- Two threads begin a pass over the same map. -/
def twoPasses : List (Locking.Label (Fin 3) Answer PublicCall) :=
  [.start 0 (.handler (h := .layer1) .sendTxTimeOut), .act 0 (.time 5), .act 0 .go,
    .start 1 (.handler (h := .layer1) .sendTxTimeOut), .act 1 (.time 6)]

end Formats

/-- The second thread waits for the first, but not in a cycle. -/
theorem no_deadlock_twoPasses : ∃ c : Locking.Threads Op Op.Resp Store (Fin 3) AgentState Bool,
    (Locking.Threads.idle AgentState.empty).run (lockSystem Formats.system.su) Formats.twoPasses = some c ∧
    c.Waits Op.mutex 1 0 ∧
    ¬Relation.TransGen (c.Waits Op.mutex) 1 1 := by
  refine ⟨_, rfl, ?_, no_deadlock Formats.system.su AgentState.empty Formats.twoPasses _ rfl 1⟩
  exact ⟨_, _, _, _, rfl, rfl, rfl, by decide⟩

end CrosschainAgent
