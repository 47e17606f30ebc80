import CrosschainAgent.Contract.Deposits
import CrosschainAgent.Glue.Stores

/-!
# The composed system

The two bridge contracts, the agent and arbitrary users. Each chain executes calls in blocks
of increasing timestamps and logs the events of the accepted ones. The agent's threads run
handler calls whose operations interleave with each other and with the chains; a node
answers a query with the truth or not at all, may lose a submission or its response, and may
execute a submission it received at any later time, any number of times or never. The agent
may be killed and started again at any point.
-/

namespace CrosschainAgent

open Interaction

namespace Bridge

/-- `GetCrossTxInfo1`. -/
def getCrossTxInfo1 (b : State) (crossTxId : Bytes) : ℕ × ℕ × Bytes × ℕ × Address × Address :=
  let r := b.crossTxInfo crossTxId
  (r.srcChainId, r.destChainId, r.crossTxId, r.amount, r.srcBid, r.destBid)

/-- `GetCrossTxInfo2`. -/
def getCrossTxInfo2 (b : State) (crossTxId : Bytes) : ℕ × ℕ × ℕ × ℕ × ℕ × Text :=
  let r := b.crossTxInfo crossTxId
  (r.status.toNat, r.refunded.toNat, r.createTimestamp, r.executeTimestamp, r.timeout, r.errorDesc)

end Bridge

/-- A query of a bridge contract. -/
inductive ContractQuery where
  | getCrossTxInfo1 (crossTxId : Bytes)
  | getCrossTxInfo2 (crossTxId : Bytes)
  deriving DecidableEq

/-- How a node writes contract values as text and reads calls from text. Bytes and addresses
are written without commas, and what is written in the form of an argument list is read
back. -/
structure NodeAbi where
  bytesText : Bytes → Text
  addressText : Address → Text
  decodeQuery : (function args : Text) → Option ContractQuery
  decodeCall : (function args : Text) → Option Bridge.Call
  bytesText_nil : bytesText [] = []
  bytesText_inj : ∀ b b', bytesText b = bytesText b' → b = b'
  comma_bytesText : ∀ b, ',' ∉ bytesText b
  comma_addressText : ∀ a, ',' ∉ addressText a
  addressText_ne_nil : ∀ a, addressText a ≠ []
  decodeQuery_info1 : ∀ id, decodeQuery "GetCrossTxInfo1(bytes)".toList
    ("'".toList ++ bytesText id ++ "'".toList) = some (.getCrossTxInfo1 id)
  decodeQuery_info2 : ∀ id, decodeQuery "GetCrossTxInfo2(bytes)".toList
    ("'".toList ++ bytesText id ++ "'".toList) = some (.getCrossTxInfo2 id)
  decodeCall_sendTx : ∀ id src dest amount timeout, amount < 2 ^ 256 → timeout < 2 ^ 256 →
    decodeCall "SendTx(bytes,address,address,uint256,uint256)".toList
      ("'".toList ++ bytesText id ++ "',".toList ++ addressText src ++ ",".toList ++
        addressText dest ++ ",".toList ++ Strings.decimal amount ++ ",".toList ++
        Strings.decimal timeout) = some (.sendTx id src dest amount timeout)
  decodeCall_sendAckedTx : ∀ id result desc time, result < 2 ^ 8 → time < 2 ^ 256 →
    ',' ∉ desc → '\'' ∉ desc →
    decodeCall "SendAckedTx(bytes,uint8,string,uint256)".toList
      ("'".toList ++ bytesText id ++ "',".toList ++ Strings.decimal result ++ ",'".toList ++ desc ++
        "',".toList ++ Strings.decimal time) = some (.sendAckedTx id result desc time)

/-- A bracketed tuple. -/
def tupleText (fields : List Text) : Text := '[' :: (List.intercalate [','] fields ++ [']'])

/-- The text of a query result. -/
def NodeAbi.queryText (abi : NodeAbi) (b : Bridge.State) : ContractQuery → Text
  | .getCrossTxInfo1 id =>
    let (srcChainId, destChainId, crossTxId, amount, srcBid, destBid) := Bridge.getCrossTxInfo1 b id
    tupleText [Strings.decimal srcChainId, Strings.decimal destChainId, abi.bytesText crossTxId,
      Strings.decimal amount, abi.addressText srcBid, abi.addressText destBid]
  | .getCrossTxInfo2 id =>
    let (status, refunded, createTimestamp, executeTimestamp, timeout, errorDesc) :=
      Bridge.getCrossTxInfo2 b id
    tupleText [Strings.decimal status, Strings.decimal refunded, Strings.decimal createTimestamp,
      Strings.decimal executeTimestamp, Strings.decimal timeout, errorDesc]

/-- What the two chains and the agent are set up with. `owner` is the agent's account. -/
structure System where
  su : Setup
  sha256 : Bridge.Sha256
  abi : NodeAbi
  owner : Layer → Address

/-- A transaction of the agent that a node received. -/
structure AgentTx where
  hash : Text
  input : TxInput
  amount : Int64
  deriving DecidableEq

/-- One chain: its bridge contract, the timestamp of its open block, the events logged so far
with the timestamps of their blocks, and the agent's transactions. `posted` are all
submissions the agent made to a node of the chain, `pool` those the node received, and
`done` the hashes of those executed successfully. `hashed` collects what `StartTx` hashed. -/
structure Chain where
  bridge : Bridge.State
  now : ℕ
  log : List (ℕ × Bridge.Event)
  posted : List (TxInput × Int64)
  pool : List AgentTx
  done : List Text
  hashed : List (List ℕ)

/-- The chain right after the deployment of its bridge. -/
def Chain.deployed (owner : Address) (chainId timeout now : ℕ) : Chain where
  bridge := Bridge.deploy owner chainId timeout
  now := now
  log := []
  posted := []
  pool := []
  done := []
  hashed := []

/-- Execute a call in the open block; a reverted call leaves nothing. -/
def Chain.exec (l : Layer) (sha256 : Bridge.Sha256) (c : Chain) (sender : Address) (value : ℕ)
    (accepts : Address → Bool) (call : Bridge.Call) : Option Chain :=
  let msg : Bridge.Msg := ⟨sender, value, c.now, accepts⟩
  match Bridge.exec l sha256 c.bridge msg call with
  | .error _ => none
  | .ok (b, receipt) => some { c with
      bridge := b
      log := c.log ++ receipt.events.map fun event => (c.now, event)
      hashed := (Bridge.Entry.hashed l c.bridge.chainId ⟨msg, call, receipt⟩).toList ++ c.hashed }

/-- Everything but the running handler calls: the chains, the stores, the owners of the locks
with how often they locked, the last reading of the agent's clock, and which events were
taken up and which of them were handled. -/
structure Shared (T : Type) where
  chain : Layer → Chain
  agent : AgentState
  locks : Store → Option (T × ℕ)
  clock : Int64
  taken : List (Layer × ℕ)
  handled : List (Layer × ℕ)

/-- A running handler call, and the event it handles. -/
structure Task where
  event : Option (Layer × ℕ)
  prog : AgentM Bool

/-- The whole system. -/
structure World (T : Type) where
  shared : Shared T
  tasks : T → Option Task

variable {T : Type} [DecidableEq T]

namespace Shared

/-- Change one of the chains. -/
def setChain (w : Shared T) (l : Layer) (c : Chain) : Shared T :=
  { w with chain := Function.update w.chain l c }

/-- A response of a node says nothing false: about a contract it answers what the contract
returns, and it reports only transactions as successful that were. -/
def truthful (sys : System) (w : Shared T) (l : Layer) (r : HttpResult) : Request → Bool
  | .getLedger => true
  | .submitTransaction _ _ _ _ => false
  | .callContract contractAddress input =>
    match HttpClient.withBody HttpClient.readQueryData r with
    | some (some data) => contractAddress = sys.su.conf.crossContract l ∧
        (sys.abi.decodeQuery input.function input.args).map
          (sys.abi.queryText (w.chain l).bridge) = some data
    | _ => true
  | .getTransactionHistory hash =>
    match HttpClient.withBody HttpClient.readTxResult r with
    | some (some ()) => hash ∈ (w.chain l).done
    | _ => true

/-- A submission. One that is accepted with a hash was received under it. One whose answer carries no
hash, accepted or not, may have been lost or received under whatever hash the node gave it. Hashes are
not empty, and a node never gives two transactions one hash. -/
def post (w : Shared T) (l : Layer) (input : TxInput) (amount : Int64) (received : Option Text)
    (r : HttpResult) : Option (Shared T) :=
  let c := w.chain l
  let c := { c with posted := (input, amount) :: c.posted }
  match received with
  | none => if (acceptedHash r).all (· = []) then some (w.setChain l c) else none
  | some hash =>
    if (acceptedHash r).all (fun h => h = [] ∨ h = hash) ∧ hash ≠ [] ∧ hash ∉ c.pool.map (·.hash) then
      some (w.setChain l { c with pool := c.pool ++ [⟨hash, input, amount⟩] })
    else none

/-- No other thread holds the lock of a map. -/
def mayUse (w : Shared T) (t : T) (s : Store) : Bool :=
  match w.locks s with
  | none => true
  | some (t', _) => t' = t

def setLock (w : Shared T) (s : Store) (owner : Option (T × ℕ)) : Shared T :=
  { w with locks := Function.update w.locks s owner }

/-- An operation that touches the stores only. -/
def store (w : Shared T) (o : Op) (a : Answer) : Option (o.Resp × Shared T) :=
  (w.agent.step o a).map fun (r, agent) => (r, { w with agent := agent })

/-- One operation of a thread. A lock that another thread holds blocks. -/
def act (sys : System) (t : T) (w : Shared T) : (o : Op) → Answer → Option (o.Resp × Shared T)
  | .highResolution, .time now => some (now, { w with clock := now })
  | .http l request, .reply r => if w.truthful sys l r request then some (r, w) else none
  | .http l (.submitTransaction destAddress input amount _), .posted received r =>
    if destAddress = sys.su.conf.crossContract l then
      (w.post l input amount received r).map fun w => (r, w)
    else none
  | .lock s, .go =>
    match w.locks s with
    | none => some ((), w.setLock s (some (t, 1)))
    | some (t', n) => if t' = t then some ((), w.setLock s (some (t, n + 1))) else none
  | .unlock s, .go =>
    match w.locks s with
    | none => none
    | some (t', n) =>
      if t' = t then some ((), w.setLock s (if n ≤ 1 then none else some (t, n - 1))) else none
  | .entries s, a => if w.mayUse t s then w.store (.entries s) a else none
  | .emplace s key e, a => if w.mayUse t s then w.store (.emplace s key e) a else none
  | .erase s key, a => if w.mayUse t s then w.store (.erase s key) a else none
  | .setAckTimeout s key time, a =>
    if w.mayUse t s then w.store (.setAckTimeout s key time) a else none
  | .dbPut key value, a => w.store (.dbPut key value) a
  | .dbDelete key, a => w.store (.dbDelete key) a
  | .dbScan keyPrefix, a => w.store (.dbScan keyPrefix) a
  | _, _ => none

end Shared

/-- The log a subscriber is sent for an event, if its topic is subscribed. -/
def tlogOf (abi : NodeAbi) (l : Layer) : Bridge.Event → Option HandleManager.Call
  | .startTxEvent id => some (.tlog l .startTxTopic (abi.bytesText id))
  | .sendTxEvent id => some (.tlog l .sendTxTopic (abi.bytesText id))
  | .sendAckedTxEvent id => some (.tlog l .ackTxTopic (abi.bytesText id))
  | _ => none

/-- What can happen in the system: a chain closes its block, executes a user's call or one of
the agent's transactions; a thread takes up an event, a confirmation or the timer, or makes
the next operation of its call; the agent is killed and started again. -/
inductive Label (T : Type) where
  | block (l : Layer) (time : ℕ)
  | user (l : Layer) (sender : Address) (value : ℕ) (accepts : Address → Bool) (call : Bridge.Call)
  | execute (l : Layer) (index : ℕ) (accepts : Address → Bool)
  | deliver (t : T) (l : Layer) (index : ℕ)
  | confirm (t : T) (confirmSeq : Int64)
  | timer (t : T)
  | act (t : T) (a : Answer)
  | restart (t : T) (answers : List Answer)

namespace World

/-- The system before the agent has handled anything. -/
def initial (sys : System) (chainId timeout now : Layer → ℕ) : World T where
  shared :=
    { chain := fun l => Chain.deployed (sys.owner l) (chainId l) (timeout l) (now l)
      agent := AgentState.empty
      locks := fun _ => none
      clock := 0
      taken := []
      handled := [] }
  tasks := fun _ => none

/-- A thread takes up a call, if it has none. -/
def take (sys : System) (w : World T) (t : T) (event : Option (Layer × ℕ))
    (call : HandleManager.Call) : Option (World T) :=
  match w.tasks t with
  | some _ => none
  | none => some
    { shared := { w.shared with taken := event.toList ++ w.shared.taken }
      tasks := Function.update w.tasks t (some ⟨event, HandleManager.run sys.su call⟩) }

/-- The thread goes on with the rest of its call; a call that returned is over. -/
def proceed (shared : Shared T) (tasks : T → Option Task) (t : T) (event : Option (Layer × ℕ)) :
    AgentM Bool → World T
  | .ret ok =>
    { shared := { shared with handled := (if ok then event.toList else []) ++ shared.handled }
      tasks := Function.update tasks t none }
  | prog => { shared := shared, tasks := Function.update tasks t (some ⟨event, prog⟩) }

/-- One step of the system, if it is possible. -/
def step (sys : System) (w : World T) : Label T → Option (World T)
  | .block l time =>
    if (w.shared.chain l).now < time then
      some { w with shared := w.shared.setChain l { w.shared.chain l with now := time } }
    else none
  | .user l sender value accepts call =>
    if sender = sys.owner l then none
    else ((w.shared.chain l).exec l sys.sha256 sender value accepts call).map fun c =>
      { w with shared := w.shared.setChain l c }
  | .execute l index accepts => do
    let tx ← (w.shared.chain l).pool[index]?
    let call ← sys.abi.decodeCall tx.input.function tx.input.args
    let c ← (w.shared.chain l).exec l sys.sha256 (sys.owner l) tx.amount.toInt.toNat accepts call
    return { w with shared := w.shared.setChain l { c with done := tx.hash :: c.done } }
  | .deliver t l index => do
    let (time, event) ← (w.shared.chain l).log[index]?
    let call ← tlogOf sys.abi l event
    if time < (w.shared.chain l).now then w.take sys t (some (l, index)) call else none
  | .confirm t confirmSeq => w.take sys t none (.confirm confirmSeq)
  | .timer t => w.take sys t none .timer
  | .act t a => do
    let task ← w.tasks t
    match task.prog with
    | .ret _ => none
    | .op o k =>
      let (r, shared) ← w.shared.act sys t o a
      return proceed shared w.tasks t task.event (k r)
  | .restart t answers => do
    let shared := { w.shared with agent := w.shared.agent.restarted, locks := fun _ => none }
    let ((), shared) ← runWith (fun o a w => Shared.act sys t w o a)
      (HandleManager.initializeHandle sys.su) answers shared
    return { shared := shared, tasks := fun _ => none }

/-- A run of the system. -/
def run (sys : System) (w : World T) (labels : List (Label T)) : Option (World T) :=
  labels.foldlM (step sys) w

/-- What holds at first and survives every step holds after every run. -/
theorem run_induction {sys : System} {P : World T → Prop} {w w' : World T} (h0 : P w)
    (hstep : ∀ u label u', P u → step sys u label = some u' → P u') {labels : List (Label T)}
    (h : run sys w labels = some w') : P w' := by
  induction labels generalizing w with
  | nil =>
    cases h
    exact h0
  | cons label labels ih =>
    rw [run, List.foldlM_cons] at h
    obtain ⟨u, hu, hrest⟩ := Option.bind_eq_some_iff.mp h
    exact ih (hstep w label u h0 hu) hrest

end World

end CrosschainAgent
