import CrosschainAgent.Library.Budget
import CrosschainAgent.Session.Calls
import CrosschainAgent.System.Safety

/-!
# How much the agent submits

Each submission costs the agent a fee. The log of a transfer that starts on layer 1 is good for two of them, that
of any other event for one at most, and a pass makes one for an entry of its map at most. A run therefore submits no
more than what its events and the entries that its passes find are good for, however its calls interleave and
whatever the nodes answer.
-/

namespace CrosschainAgent

open Interaction Function

/-- A submission costs one, and a map brings in one for each entry. -/
def fees : Tariff Op Op.Resp where
  cost
    | .http _ (.submitTransaction _ _ _ _) => 1
    | _ => 0
  income
    | .entries _, infos => infos.length
    | _, _ => 0

section Programs

variable {su : Setup} {h : Handle} {budget : ℕ}

/-- An operation that is no submission. -/
def Op.Free (o : Op) : Prop := fees.cost o = 0

/-- What is quiet is free. -/
theorem Op.Quiet.free {o : Op} (hquiet : o.Quiet) : o.Free := by
  cases o with
  | http l request =>
    cases request with
    | submitTransaction => exact hquiet.elim
    | getLedger | callContract | getTransactionHistory => rfl
  | highResolution | dbScan | lock | unlock | entries | terminate => rfl
  | dbPut | dbDelete | emplace | erase | setAckTimeout => exact hquiet.elim

/-- Quiet programs are affordable at any budget. -/
theorem affords_quiet {α : Type} {p : AgentM α} (hp : Uses Op.Quiet p) :
    Affords fees (fun _ => budget) p budget :=
  .of_uses (hp.mono fun _ hquiet => hquiet.free)

/-- Free programs are affordable at any budget. -/
theorem affords_free {α : Type} {p : AgentM α} (hp : Uses Op.Free p) : Affords fees (fun _ => budget) p budget :=
  .of_uses hp

/-- Saving an entry is free. -/
theorem free_saveInfo (s : Store) (e : CrossTx) : Uses Op.Free (Handle.saveInfo s e) :=
  .bind (.perform rfl) fun _ => .perform rfl

/-- Saving an ack is free. -/
theorem free_saveAckInfo (s : Store) (e : CrossTx) : Uses Op.Free (Handle.saveAckInfo h s e) := by
  cases h with
  | layer1 => exact .bind (.perform rfl) fun _ => .bind (.perform rfl) fun _ => .perform rfl
  | layer2 => exact .bind (.perform rfl) fun _ => .bind (.perform rfl) fun _ => .perform rfl

/-- Loading a store is free. -/
theorem free_loadInfo (s : Store) (due : Bool) : Uses Op.Free (Handle.loadInfo su s due) := by
  refine .bind (.perform rfl) fun values => ?_
  cases values with
  | none => exact .pure _
  | some values =>
    refine .forM fun value _ => ?_
    unfold Handle.loadValue
    split
    · exact .pure _
    · exact .ite (.bind (.perform rfl) fun _ => .perform rfl) (.perform rfl)

/-- Loading all stores is free. -/
theorem free_initializeHandle : Uses Op.Free (HandleManager.initializeHandle su) := by
  have hfirst : Uses Op.Free (Layer1ToLayer2Handle.initializeHandle su) :=
    .bind (free_loadInfo _ _) fun _ => .bind (free_loadInfo _ _) fun _ => free_loadInfo _ _
  refine .bind hfirst fun _ => .bind (free_loadInfo _ _) fun _ => ?_
  exact .bind (free_loadInfo _ _) fun _ => .bind (free_loadInfo _ _) fun _ => free_loadInfo _ _

/-- Forgetting an entry is free. -/
theorem free_clearInfo (s : Store) (key : Text) : Uses Op.Free (Handle.clearInfo s key) :=
  .bind (.perform rfl) fun _ => .perform rfl

/-- A submission costs one. -/
theorem affords_sendTransaction (l : Layer) (input : TxInput) (amount : Int64) :
    Affords fees (fun _ => budget) (Handle.sendTransaction su l input amount) (budget + 1) := by
  refine .bind (affords_quiet (quiet_getLayerSeq l)) fun seq => ?_
  cases seq with
  | none => exact .pure (Nat.le_add_right _ _)
  | some seq => exact .bind (.perform _) fun r => affords_quiet (quiet_orTerminate _)

/-- A submission, and what is done with its hash. -/
theorem affords_submission {l : Layer} {input : TxInput} {amount : Int64} {p : Option Text → AgentM Bool}
    (hp : ∀ txhash, Uses Op.Free (p txhash)) :
    Affords fees (fun _ => budget) (Handle.sendTransaction su l input amount >>= p) (budget + 1) :=
  .bind (affords_sendTransaction l input amount) fun txhash => affords_free (hp txhash)

/-- Sending a `SendTx` costs one. -/
theorem affords_sendTxTo (info : Protocol.CrossTxInfo) :
    Affords fees (fun _ => budget) (Handle.sendTxTo su h info) (budget + 1) := by
  refine affords_submission fun txhash => ?_
  cases txhash with
  | none => exact .pure _
  | some txhash => exact .bind (free_saveInfo _ _) fun _ => .pure _

/-- Sending an ack costs one. -/
theorem affords_sendAckTo (info : Protocol.CrossTxInfo) :
    Affords fees (fun _ => budget) (Handle.sendAckTo su h info) (budget + 1) := by
  refine affords_submission fun txhash => ?_
  cases txhash with
  | none => exact .pure _
  | some txhash => exact .bind (free_saveAckInfo _ _) fun _ => .pure _

/-- Sending a reply costs one. -/
theorem affords_replyAckTo (info : Protocol.CrossTxInfo) :
    Affords fees (fun _ => budget) (Handle.replyAckTo su h info) (budget + 1) := by
  refine affords_submission fun txhash => ?_
  cases txhash with
  | none => exact .pure _
  | some txhash => exact .bind (free_saveAckInfo _ _) fun _ => .pure _

/-- A submission, and what is cleared if it is made. -/
theorem affords_clearIf {p : AgentM Bool} {q : AgentM Unit} {α : Type} {a b : α}
    (hp : Affords fees (fun _ => budget) p (budget + 1)) (hq : Uses Op.Free q) :
    Affords fees (fun _ => budget)
      (p >>= fun ok => if ok then q >>= fun _ => pure a else pure b) (budget + 1) :=
  .bind hp fun _ => .ite (affords_free (.bind hq fun _ => .pure a)) (.pure le_rfl)

/-- The handler of a `SendTx` event costs one. -/
theorem affords_handleSendTxEvent (crossTxid : Text) (status : Int32) :
    Affords fees (fun _ => budget) (Handle.handleSendTxEventWith su h crossTxid status) (budget + 1) := by
  refine .bind (affords_quiet (quiet_readCrossTxInfo su h h.other crossTxid)) fun info => ?_
  cases info with
  | none => exact .pure (Nat.le_add_right _ _)
  | some info => exact affords_clearIf (affords_sendAckTo _) (free_clearInfo _ _)

/-- The handler of an ack event costs one. -/
theorem affords_handleSendAckdTxEvent (crossTxid : Text) :
    Affords fees (fun _ => budget) (Handle.handleSendAckdTxEvent su h crossTxid) (budget + 1) := by
  refine .bind (affords_quiet (quiet_readCrossTxInfo su h h crossTxid)) fun info => ?_
  cases info with
  | none => exact .pure (Nat.le_add_right _ _)
  | some info => exact affords_clearIf (affords_replyAckTo _) (free_clearInfo _ _)

/-- The ack of an entry, which is dropped if the ack is submitted. -/
theorem affords_ackAndClear (info : Protocol.CrossTxInfo) (s : Store) (key : Text) :
    Affords fees (fun _ => budget)
      (Handle.sendAckTo su h info >>= fun ok => if ok then Handle.clearInfo s key else pure ())
      (budget + 1) :=
  .bind (affords_sendAckTo info) fun _ => .ite (affords_free (free_clearInfo s key)) (.pure le_rfl)

/-- What is done about a `SendTx` without a receipt costs one. -/
theorem affords_sendTxExpired (e : CrossTx) :
    Affords fees (fun _ => budget) (Handle.sendTxExpired su h e) (budget + 1) := by
  refine .bind (affords_quiet (quiet_getTxResult h.other _)) fun _ => .ite ?_ (affords_ackAndClear _ _ _)
  exact .bind (affords_handleSendTxEvent _ _) fun _ => .pure le_rfl

/-- A submission that is made again, and the new due time. -/
theorem affords_resend {p : AgentM Bool} (hp : Affords fees (fun _ => budget) p (budget + 1)) (s : Store)
    (key : Text) (time : Int64) :
    Affords fees (fun _ => budget) (p >>= fun _ => perform (Op.setAckTimeout s key time)) (budget + 1) :=
  .bind hp fun _ => affords_free (.perform rfl)

/-- What is done about a due ack costs one when sending it again does. -/
theorem affords_ackExpired {resend : AgentM Bool} (hresend : Affords fees (fun _ => budget) resend (budget + 1))
    (s : Store) (l : Layer) (currentTime : Int64) (key : Text) (e : CrossTx) :
    Affords fees (fun _ => budget) (Handle.ackExpired su s l currentTime key e resend) (budget + 1) := by
  have hclear : Affords fees (fun _ => budget) (Handle.clearInfo s key) (budget + 1) :=
    (affords_free (free_clearInfo s key)).mono le_rfl fun _ => Nat.le_add_right _ _
  refine .bind (affords_quiet (quiet_getTxResult l _)) fun _ => .ite hclear ?_
  refine .bind (affords_quiet (quiet_getCrossTxStatus _ l key)) fun _ => .ite hclear ?_
  exact affords_resend hresend s key _

/-- Sending a due ack again costs one. -/
theorem affords_sendAckExpired (currentTime : Int64) (key : Text) (e : CrossTx) :
    Affords fees (fun _ => budget) (Handle.sendAckExpired su h currentTime key e) (budget + 1) :=
  .ite (affords_resend (affords_sendAckTo _) _ key _) (affords_ackExpired (affords_sendAckTo _) _ h _ key e)

/-- The walk through a map, whose entries pay for the rounds. -/
theorem affords_walk (s : Store) {f : Text × CrossTx → AgentM PUnit}
    (hf : ∀ x budget, Affords fees (fun _ => budget) (f x) (budget + 1)) :
    Affords fees (fun _ => budget) (do
      perform (Op.lock s)
      let infos ← perform (Op.entries s)
      infos.forM f
      perform (Op.unlock s)) budget := by
  refine .bind (affords_free (.perform rfl)) fun _ => .bind (.perform (Op.entries s)) fun infos => ?_
  have hrounds : Affords fees (fun _ => budget) (infos.forM f) (budget + infos.length * 1) := .forM hf infos
  rw [Nat.mul_one] at hrounds
  exact .bind hrounds fun _ => affords_free (.perform rfl)

/-- A round for the entries that are due. -/
theorem affords_round {c : Prop} [Decidable c] {p : AgentM PUnit}
    (hp : Affords fees (fun _ => budget) p (budget + 1)) :
    Affords fees (fun _ => budget) (if c then p else pure ()) (budget + 1) :=
  .ite hp (.pure (Nat.le_add_right _ _))

/-- The pass over the send store earns what it spends. -/
theorem affords_sendTxTimeOut : Affords fees (fun _ => budget) (Handle.sendTxTimeOut su h) budget :=
  .bind (affords_free (.perform rfl)) fun _ =>
    affords_walk _ fun _ _ => affords_round (affords_sendTxExpired _)

/-- The pass over the ack store earns what it spends. -/
theorem affords_sendAckTimeOut : Affords fees (fun _ => budget) (Handle.sendAckTimeOut su h) budget :=
  .bind (affords_free (.perform rfl)) fun _ =>
    affords_walk _ fun _ _ => affords_round (affords_sendAckExpired _ _ _)

/-- The pass over the reply store earns what it spends. -/
theorem affords_replyAckTimeOut : Affords fees (fun _ => budget) (Handle.replyAckTimeOut su h) budget :=
  .bind (affords_free (.perform rfl)) fun _ =>
    affords_walk _ fun _ _ => affords_round (affords_ackExpired (affords_replyAckTo _) _ _ _ _ _)

/-- The pass over the start store earns what it spends. -/
theorem affords_startTxTimeOut :
    Affords fees (fun _ => budget) (Layer2ToLayer1Handle.startTxTimeOut su) budget :=
  .bind (affords_free (.perform rfl)) fun _ =>
    affords_walk _ fun _ _ => affords_round (affords_ackAndClear _ _ _)

/-- A confirmed entry costs one. -/
theorem affords_confirmed (info : Protocol.CrossTxInfo) (currentTime : Int64) :
    Affords fees (fun _ => budget) (Layer2ToLayer1Handle.confirmed su info currentTime) (budget + 1) := by
  refine .ite (.bind (affords_sendAckTo _) fun _ => .pure le_rfl) (.bind (affords_sendTxTo info) fun _ => ?_)
  exact .ite (affords_free (free_clearInfo _ _)) (.pure le_rfl)

/-- A confirmation of a height earns what it spends. -/
theorem affords_handleConfirmSeqEvent (confirmSeq : Int64) :
    Affords fees (fun _ => budget) (Layer2ToLayer1Handle.handleConfirmSeqEvent su confirmSeq) budget :=
  affords_walk _ fun _ _ => .bind (affords_free (.perform rfl)) fun _ => affords_round (affords_confirmed _ _)

/-- The timer earns what it spends. -/
theorem affords_onTimer : Affords fees (fun _ => budget) (HandleManager.onTimer su) budget := by
  have hfirst : Affords fees (fun _ => budget) (Layer1ToLayer2Handle.onTimer su) budget :=
    .bind affords_sendTxTimeOut fun _ => .bind affords_sendAckTimeOut fun _ => affords_replyAckTimeOut
  refine .bind hfirst fun _ => .bind affords_startTxTimeOut fun _ => ?_
  exact .bind affords_sendTxTimeOut fun _ => .bind affords_sendAckTimeOut fun _ => affords_replyAckTimeOut

/-- How many submissions a call is good for at first. -/
def HandleManager.Call.allowance : HandleManager.Call → ℕ
  | .tlog .layer1 .startTxTopic _ => 2
  | .tlog .layer2 .startTxTopic _ => 0
  | .tlog _ _ _ => 1
  | .confirm _ | .timer => 0

/-- A call spends its allowance at most. -/
theorem affords_run (call : HandleManager.Call) :
    Affords fees (fun _ => 0) (HandleManager.run su call) call.allowance := by
  cases call with
  | tlog l topic crossTxId =>
    cases l <;> cases topic
    case layer1.startTxTopic =>
      refine .bind (affords_quiet (quiet_readCrossTxInfo su .layer1 .layer1 crossTxId)) fun info => ?_
      cases info with
      | none => exact .pure (Nat.zero_le _)
      | some info =>
        -- The second submission is the ack of a failure.
        refine .bind (affords_sendTxTo info) fun ret => ?_
        exact .ite (.bind (affords_sendAckTo _) fun _ => .pure le_rfl) (.pure (Nat.zero_le _))
    case layer2.startTxTopic =>
      refine .bind (affords_quiet (quiet_readCrossTxInfo su .layer2 .layer2 crossTxId)) fun info => ?_
      cases info with
      | none => exact .pure le_rfl
      | some info =>
        refine .bind (affords_quiet (quiet_getLayerSeq .layer2)) fun seq => ?_
        cases seq with
        | none => exact .pure le_rfl
        | some seq => exact .bind (affords_free (free_saveInfo _ _)) fun _ => .pure le_rfl
    case layer1.sendTxTopic | layer2.sendTxTopic => exact affords_handleSendTxEvent crossTxId _
    case layer1.ackTxTopic | layer2.ackTxTopic => exact affords_handleSendAckdTxEvent crossTxId
  | confirm confirmSeq => exact .bind (affords_handleConfirmSeqEvent confirmSeq) fun _ => .pure le_rfl
  | timer => exact .bind affords_onTimer fun _ => .pure le_rfl

end Programs

namespace World

variable {T : Type} [DecidableEq T] {sys : System} {w w' : World T}

/-- How many submissions a step is good for: that a call is taken up for an event, or that a pass finds the
entries of its map. -/
def allowance (sys : System) (w : World T) : Label T → ℕ
  | .deliver _ l index =>
    (((w.shared.chain l).log[index]?).bind fun logged => tlogOf sys.abi l logged.2).elim 0 (·.allowance)
  | .act t _ =>
    match w.tasks t with
    | some ⟨_, .op (.entries s) _⟩ => (w.shared.agent.maps s).toList.length
    | _ => 0
  | _ => 0

/-- How many submissions a run is good for. -/
def granted (sys : System) : World T → List (Label T) → ℕ
  | _, [] => 0
  | w, label :: labels =>
    match step sys w label with
    | none => 0
    | some w' => allowance sys w label + granted sys w' labels

/-- How many submissions the agent made on the two chains. -/
def submitted (w : Shared T) : ℕ := (w.chain .layer1).posted.length + (w.chain .layer2).posted.length

omit [DecidableEq T] in
/-- The submissions of a chain count as many as it received. -/
theorem submitted_setChain (w : Shared T) (l : Layer) (c : Chain) :
    submitted (w.setChain l c) + (w.chain l).posted.length = submitted w + c.posted.length := by
  cases l <;> simp [submitted, Shared.setChain] <;> omega

/-- An operation submits what it costs. -/
theorem submitted_act {t : T} {s s' : Shared T} {o : Op} {r : o.Resp} (h : Shared.Acts sys t s o r s') :
    submitted s' = submitted s + fees.cost o := by
  cases h with
  | highResolution | lock | unlock | dbPut | dbDelete | dbScan | entries | emplace | erase | setAckTimeout => rfl
  | query l request r htruthful =>
    cases request with
    | submitTransaction => cases htruthful
    | getLedger | callContract | getTransactionHistory => rfl
  | lost l input amount seq r rejected =>
    have hposted := submitted_setChain s l { s.chain l with posted := (input, amount) :: (s.chain l).posted }
    rw [List.length_cons] at hposted
    change _ = submitted s + 1
    omega
  | received l input amount seq r hash accepted fresh =>
    have hposted := submitted_setChain s l { s.chain l with
      posted := (input, amount) :: (s.chain l).posted
      pool := (s.chain l).pool ++ [⟨hash, input, amount⟩] }
    rw [List.length_cons] at hposted
    change _ = submitted s + 1
    omega

omit [DecidableEq T] in
/-- A chain that nothing was submitted to. -/
theorem submitted_setChain_eq (w : Shared T) {l : Layer} {c : Chain} (h : c.posted = (w.chain l).posted) :
    submitted (w.setChain l c) = submitted w := by
  have hposted := submitted_setChain w l c
  rw [h] at hposted
  omega

/-- Executing a call submits nothing. -/
theorem exec_posted {l : Layer} {sha256 : Bridge.Sha256} {c c' : Chain} {sender value : ℕ}
    {accepts : Address → Bool} {call : Bridge.Call}
    (h : c.exec l sha256 sender value accepts call = some c') : c'.posted = c.posted := by
  simp only [Chain.exec] at h
  split at h
  next => cases h
  next =>
    cases h
    rfl

/-- The submissions are covered, so far, by what was granted. -/
abbrev Paid (w : World T) (granted : ℕ) : Prop := Funded fees (Scene.running w.tasks) (submitted w.shared) granted

omit [DecidableEq T] in
/-- A chain that received nothing leaves the account. -/
theorem Paid.setChain {n : ℕ} (h : Paid w n) {l : Layer} {c : Chain} (hc : c.posted = (w.shared.chain l).posted) :
    Paid { w with shared := w.shared.setChain l c } n := by
  rw [Paid, submitted_setChain_eq _ hc]
  exact h

/-- Taking a call up grants its allowance. -/
theorem Paid.take {n : ℕ} (h : Paid w n) {t : T} {event : Option (Layer × ℕ)} {taken : List (Layer × ℕ)}
    (call : HandleManager.Call) :
    Paid { shared := { w.shared with taken := taken }
           tasks := update w.tasks t (some ⟨event, HandleManager.run sys.su call⟩) } (n + call.allowance) := by
  have hnext := h.update (t := t) (some (HandleManager.run sys.su call)) fun p hp => by
    cases hp
    exact affords_run call
  rw [Paid, Scene.running_update]
  exact hnext

/-- A thread that goes on leaves the account funded. -/
theorem Paid.proceed {tasks : T → Option Task} {shared : Shared T} {n : ℕ} {t : T} {prog : AgentM Bool}
    (h : Funded fees (update (Scene.running tasks) t (some prog)) (submitted shared) n)
    (event : Option (Layer × ℕ)) : Paid (World.proceed shared tasks t event prog) n := by
  cases prog with
  | op o k =>
    change Funded fees (Scene.running (update tasks t (some ⟨event, .op o k⟩))) (submitted shared) n
    rw [Scene.running_update]
    exact h
  | ret ok =>
    have hdropped : Funded fees (update (update (Scene.running tasks) t (some (.ret ok))) t none)
        (submitted shared) (n + 0) := h.update none fun p hp => by cases hp
    rw [update_idem] at hdropped
    rw [Paid, World.proceed, Scene.running_update]
    exact hdropped

/-- One step keeps the account, with what it grants. -/
theorem Paid.step {n : ℕ} (h : Paid w n) {label : Label T} (hstep : World.Steps sys w label w') :
    Paid w' (n + allowance sys w label) := by
  cases hstep with
  | block l time hnow => exact h.setChain rfl
  | user l sender value accepts call c stranger hexec => exact h.setChain (exec_posted hexec)
  | execute l index accepts tx call c received decoded hexec =>
    have hposted := exec_posted hexec
    exact h.setChain hposted
  | deliver t l index time event call logged subscribed closed idle =>
    have hgood : allowance sys w (.deliver t l index) = call.allowance := by
      rw [allowance, logged, Option.bind_some, subscribed, Option.elim_some]
    rw [hgood]
    exact h.take call
  | confirm t confirmSeq idle => exact h.take (.confirm confirmSeq)
  | timer t idle => exact h.take .timer
  | act t a event o k r shared hrunning hact =>
    have hprog : Scene.running w.tasks t = some (.op o k) := by
      rw [Scene.running, hrunning]
      rfl
    have hpaid := h.act hprog r
    rw [← submitted_act hact] at hpaid
    have hgood : allowance sys w (.act t a) = fees.income o r := by
      rw [allowance, hrunning]
      cases hact <;> rfl
    rw [hgood]
    exact .proceed hpaid event
  | restart t answers shared hruns =>
    have hsubmitted : submitted shared = submitted w.shared :=
      hruns.of_uses (J := fun u => submitted u = submitted w.shared)
        (fun o u r u' hfree hact hu => by rw [submitted_act hact, hfree, Nat.add_zero, hu])
        free_initializeHandle rfl
    refine .idle ?_
    rw [hsubmitted]
    exact h.spent_le

/-- In every run the agent submits at most what the events and the passes of the run are good for. -/
theorem submitted_le_granted {chainId timeout now : Layer → ℕ} {labels : List (Label T)}
    (h : run sys (initial sys chainId timeout now) labels = some w') :
    submitted w'.shared ≤ granted sys (initial sys chainId timeout now) labels := by
  have hgen : ∀ (labels : List (Label T)) (w : World T) (n : ℕ), Paid w n → run sys w labels = some w' →
      Paid w' (n + granted sys w labels) := by
    intro labels
    induction labels with
    | nil =>
      intro w n hpaid hrun
      cases hrun
      exact hpaid
    | cons label labels ih =>
      intro w n hpaid hrun
      rw [run, List.foldlM_cons] at hrun
      obtain ⟨u, hu, hrest⟩ := Option.bind_eq_some_iff.mp hrun
      have hpaid := ih u _ (hpaid.step (step_steps hu)) hrest
      rw [granted, hu, ← Nat.add_assoc]
      exact hpaid
  have hpaid := hgen labels _ 0 (.idle (Nat.zero_le _)) h
  rw [Nat.zero_add] at hpaid
  exact hpaid.spent_le

/-- The run that settles its transfer submits two transactions of the three that it is good for. -/
theorem submitted_le_granted_settledRun : ∃ w : World Unit,
    run Formats.system (initial Formats.system (fun _ => 2) (fun _ => 100) (fun _ => 3))
      Formats.settledRun = some w ∧
    submitted w.shared ≤ granted Formats.system
      (initial Formats.system (fun _ => 2) (fun _ => 100) (fun _ => 3)) Formats.settledRun ∧
    granted Formats.system
      (initial Formats.system (fun _ => 2) (fun _ => 100) (fun _ => 3)) Formats.settledRun = 3 := by
  obtain ⟨w, hrun, -⟩ := Formats.settledRun_run
  exact ⟨w, hrun, submitted_le_granted hrun, by decide +kernel⟩

end World

end CrosschainAgent
