import CrosschainAgent.Contract.Bridge
import CrosschainAgent.Glue.Manager
import CrosschainAgent.System.Formats

/-!
# The period update

An `UpdatePeriod` log carries a period in minutes. The agent adds 30 minutes and submits the sum
to `SetTimeout` of the layer-2 contract, in microseconds.
-/

namespace CrosschainAgent

open Interaction HttpClient HandleManager

/-- 30 minutes more than a period in minutes, in microseconds. -/
def exactTimeout (period : ℤ) : ℤ := (period + 30) * 60 * 10 ^ 6

/-- The product and the sum stay in range when the result does. -/
theorem periodTimeout_toInt {period : Int64} (hpos : 1 ≤ period)
    (hfits : exactTimeout period.toInt < 2 ^ 63) :
    (periodTimeout period).toInt = exactTimeout period.toInt := by
  have hlow : (1 : Int64).toInt ≤ period.toInt := Int64.le_iff_toInt_le.mp hpos
  have hone : (1 : Int64).toInt = 1 := by decide
  have hsixty : (60 : Int64).toInt = 60 := by decide
  have hmicro : microUnitsPerSec.toInt = 1000000 := by decide
  have hextra : (30 * 60 * microUnitsPerSec : Int64).toInt = 1800000000 := by decide
  unfold exactTimeout at *
  have hseconds : (period * 60).toInt = period.toInt * 60 := by
    rw [Int64.toInt_mul, hsixty, Int.bmod_eq_of_le]
    · omega
    · omega
  have hproduct : (period * 60 * microUnitsPerSec).toInt = period.toInt * 60 * 1000000 := by
    rw [Int64.toInt_mul, hseconds, hmicro, Int.bmod_eq_of_le]
    · omega
    · omega
  rw [periodTimeout, Int64.toInt_add, hproduct, hextra, Int.bmod_eq_of_le]
  · omega
  · omega
  · omega

/-- The operation, if it submits a timeout, submits this one to the layer-2 contract. -/
def ManagerOp.SubmitsTimeout (su : ManagerSetup) (timeout : ℕ) : ManagerOp → Prop
  | .submitSetTimeout destAddress args _ =>
    destAddress = su.conf.crossContract .layer2 ∧ args = Strings.decimal timeout
  | _ => True

section update

variable {su : ManagerSetup} {timeout : ℕ}

/-- What the agent's own programs do is no submission of the manager. -/
theorem submitsTimeout_ofAgent {α : Type} (p : AgentM α) :
    Uses (ManagerOp.SubmitsTimeout su timeout) (ManagerM.ofAgent p) := by
  refine Uses.embed ?_
  induction p with
  | ret a => exact trivial
  | op o k ih => exact ⟨trivial, ih⟩

/-- Whatever the node answers, nothing but the computed timeout is submitted. -/
theorem updatePeriod_submits {period : Int64} (hperiod : (periodTimeout period).toInt = timeout) :
    Uses (ManagerOp.SubmitsTimeout su timeout) (updatePeriodToLayer2CrossContract su period) := by
  refine Uses.bind (submitsTimeout_ofAgent _) fun seq => ?_
  cases seq with
  | none => exact Uses.pure _
  | some layer2Seq =>
    have hargs : Strings.formatLd (periodTimeout period) = Strings.decimal timeout :=
      Strings.formatLd_of_toInt hperiod
    refine Uses.bind (Uses.perform ⟨rfl, hargs⟩) fun response => ?_
    exact Uses.bind (submitsTimeout_ofAgent _) fun txhash => Uses.pure _

/-- The timeouts a call submitted, each with the contract it went to and the ledger height it was
good for. -/
def timeoutSubmissions (trace : List ((o : ManagerOp) × ManagerOp.Resp o)) : List (Text × Text × Int64) :=
  trace.filterMap fun step =>
    match step.1 with
    | .submitSetTimeout destAddress args maxLedgerSeq => some (destAddress, args, maxLedgerSeq)
    | _ => none

/-- A call of a handler that throws ends the process. -/
theorem ends_ofAgent_orTerminate_none {α β : Type} {f : α → ManagerM β}
    {trace : List ((o : ManagerOp) × ManagerOp.Resp o)} :
    Ends (ManagerM.ofAgent (orTerminate none) >>= f) trace ↔ trace = [] := by
  have : IsEmpty (ManagerOp.Resp (.agent .terminate)) := inferInstanceAs (IsEmpty Empty)
  exact ends_op_of_isEmpty

/-- What is done with the answer to the request for the ledger height. -/
def updateOf (su : ManagerSetup) (period : Int64) : Option Int64 → ManagerM Bool
  | none => return false
  | some layer2Seq => do
    let response ← perform (ManagerOp.submitSetTimeout (su.conf.crossContract .layer2)
      (Strings.formatLd (periodTimeout period)) (layer2Seq + 200))
    let txhash ← ManagerM.ofAgent (orTerminate (withBody readUpdateResponse response))
    return txhash.isSome

/-- The update asks for the ledger height first. -/
theorem updatePeriod_eq (period : Int64) :
    updatePeriodToLayer2CrossContract su period =
      perform (ManagerOp.agent (.http .layer2 .getLedger)) >>= fun r =>
        ManagerM.ofAgent (orTerminate (withBody readLedgerSeq r)) >>= updateOf su period := by
  refine congrArg (Prog.op _) (funext fun r => congrArg (Prog.bind _) (funext fun seq => ?_))
  cases seq <;> rfl

/-- A submission that was answered ends the update. -/
theorem ends_submitSetTimeout {destAddress args : Text} {seq : Int64}
    {trace : List ((o : ManagerOp) × ManagerOp.Resp o)}
    (h : Ends (do
      let response ← perform (ManagerOp.submitSetTimeout destAddress args seq)
      let txhash ← ManagerM.ofAgent (orTerminate (withBody readUpdateResponse response))
      return txhash.isSome) trace) :
    timeoutSubmissions trace = [(destAddress, args, seq)] := by
  have : Nonempty (ManagerOp.submitSetTimeout destAddress args seq).Resp := ⟨HttpResult.error⟩
  obtain ⟨response, rest, rfl, hrest⟩ := ends_perform_bind.mp h
  have hend : rest = [] := by
    cases hbody : withBody readUpdateResponse response with
    | none =>
      rw [hbody] at hrest
      exact ends_ofAgent_orTerminate_none.mp hrest
    | some txhash =>
      rw [hbody] at hrest
      exact ends_pure.mp hrest
  rw [hend]
  rfl

/-- Once the ledger height is known the timeout is submitted, once. -/
theorem updatePeriod_performs {period : Int64} {trace : List ((o : ManagerOp) × ManagerOp.Resp o)}
    (h : Ends (updatePeriodToLayer2CrossContract su period) trace) :
    ∃ r rest, trace = ⟨.agent (.http .layer2 .getLedger), r⟩ :: rest ∧
      timeoutSubmissions rest = (withBody readLedgerSeq r).join.toList.map fun layer2Seq =>
        (su.conf.crossContract .layer2, Strings.formatLd (periodTimeout period), layer2Seq + 200) := by
  have : Nonempty (ManagerOp.agent (.http .layer2 .getLedger)).Resp := ⟨HttpResult.error⟩
  rw [updatePeriod_eq] at h
  obtain ⟨r, rest, rfl, hrest⟩ := ends_perform_bind.mp h
  refine ⟨r, rest, rfl, ?_⟩
  cases hread : withBody readLedgerSeq r with
  | none =>
    rw [hread] at hrest
    rw [ends_ofAgent_orTerminate_none.mp hrest]
    rfl
  | some seq =>
    rw [hread] at hrest
    cases seq with
    | none =>
      rw [ends_pure.mp hrest]
      rfl
    | some layer2Seq => exact ends_submitSetTimeout hrest

variable {b : Bridge.State} {msg : Bridge.Msg}

/-- An `UpdatePeriod` log is logged, and then the period is updated. -/
theorem onManagerLog_performs {managerLog : Protocol.ManagerContractTlog}
    (htype : managerLog.tlogType = .topicUpdatePeriod)
    {trace : List ((o : ManagerOp) × ManagerOp.Resp o)} (h : Ends (onManagerLog su managerLog) trace) :
    ∃ r rest, trace = ⟨.managerLog managerLog, ()⟩ :: ⟨.agent (.http .layer2 .getLedger), r⟩ :: rest ∧
      timeoutSubmissions rest = (withBody readLedgerSeq r).join.toList.map fun layer2Seq =>
        (su.conf.crossContract .layer2,
          Strings.formatLd (periodTimeout managerLog.updatePeriod.period), layer2Seq + 200) := by
  have : Nonempty (ManagerOp.managerLog managerLog).Resp := ⟨()⟩
  rw [onManagerLog, htype] at h
  obtain ⟨r, rest, rfl, hrest⟩ := ends_perform_bind.mp h
  obtain ⟨seq, rest', rfl, hsubmitted⟩ := updatePeriod_performs (ends_discard.mp hrest)
  exact ⟨seq, rest', rfl, hsubmitted⟩

/-- `SetTimeout` of the layer-2 contract, called by the owner, admits what is between 30 minutes and
180 hours. -/
theorem setTimeout_owner (howner : msg.sender = b.owner) (hvalue : msg.value = 0) :
    L2CrossChainBridge.setTimeout b msg timeout =
      if 30 * 60 * 10 ^ 6 < timeout ∧ timeout < 180 * 3600 * 10 ^ 6 then
        .ok ({ b with timeout := timeout }, { events := [.setTimeoutEvent timeout] })
      else .error (Bridge.timeoutLimit .layer2).2 := by
  have hadmit : (timeout > 30 * 60 * 1000 * 1000 ∧ timeout < (Bridge.timeoutLimit .layer2).1) ↔
      30 * 60 * 10 ^ 6 < timeout ∧ timeout < 180 * 3600 * 10 ^ 6 := by
    simp [Bridge.timeoutLimit]
  simp only [Bridge.setTimeout, Bridge.nonPayable, Bridge.onlyOwner, Bridge.require, if_pos howner,
    if_pos hvalue, hadmit]
  split <;> rfl

/-- A period update whose timeout fits an `int64` is submitted exactly, once the node of layer 2 told
the ledger height, and the contract takes it when the period is at most 10769 minutes. -/
theorem period_update_exact {managerLog : Protocol.ManagerContractTlog}
    (htype : managerLog.tlogType = .topicUpdatePeriod)
    (hpos : 1 ≤ managerLog.updatePeriod.period)
    (hfits : exactTimeout managerLog.updatePeriod.period.toInt < 2 ^ 63)
    (howner : msg.sender = b.owner) (hvalue : msg.value = 0) :
    ∃ timeout : ℕ, (timeout : ℤ) = (managerLog.updatePeriod.period.toInt + 30) * 60 * 10 ^ 6 ∧
      Uses (ManagerOp.SubmitsTimeout su timeout) (onManagerLog su managerLog) ∧
      (∀ trace, Ends (onManagerLog su managerLog) trace → ∃ r rest,
        trace = ⟨.managerLog managerLog, ()⟩ :: ⟨.agent (.http .layer2 .getLedger), r⟩ :: rest ∧
        timeoutSubmissions rest = (withBody readLedgerSeq r).join.toList.map fun layer2Seq =>
          (su.conf.crossContract .layer2, Strings.decimal timeout, layer2Seq + 200)) ∧
      L2CrossChainBridge.setTimeout b msg timeout =
        if managerLog.updatePeriod.period.toInt ≤ 10769 then
          .ok ({ b with timeout := timeout }, { events := [.setTimeoutEvent timeout] })
        else .error (Bridge.timeoutLimit .layer2).2 := by
  have hlow : (1 : Int64).toInt ≤ managerLog.updatePeriod.period.toInt :=
    Int64.le_iff_toInt_le.mp hpos
  have hone : (1 : Int64).toInt = 1 := by decide
  have hexact := periodTimeout_toInt hpos hfits
  have hnat : ((exactTimeout managerLog.updatePeriod.period.toInt).toNat : ℤ) =
      exactTimeout managerLog.updatePeriod.period.toInt := by
    unfold exactTimeout
    omega
  refine ⟨(exactTimeout managerLog.updatePeriod.period.toInt).toNat, hnat, ?_, ?_, ?_⟩
  · rw [onManagerLog, htype]
    refine Uses.bind (Uses.perform trivial) fun _ => ?_
    exact Uses.bind (updatePeriod_submits (hexact.trans hnat.symm)) fun _ => Uses.pure _
  · intro trace htrace
    rw [← Strings.formatLd_of_toInt (hexact.trans hnat.symm)]
    exact onManagerLog_performs htype htrace
  · rw [setTimeout_owner howner hvalue]
    refine if_congr ?_ rfl rfl
    unfold exactTimeout at *
    omega

/-- The owner of a contract that was deployed with a timeout of one hour updates it. -/
def ownerCall : Bridge.Msg where
  sender := 1
  value := 0
  timestamp := 5
  accepts _ := true

/-- A day is a period of 1440 minutes. -/
def dayUpdate : Protocol.ManagerContractTlog where
  tlogType := .topicUpdatePeriod
  updatePeriod := { period := 1440 }

/-- A period of one day, told through all answers of the nodes. -/
theorem period_update_exact_day : ∃ timeout : ℕ,
    (timeout : ℤ) = (1440 + 30) * 60 * 10 ^ 6 ∧
    (∀ trace, Ends (onManagerLog Formats.managerSetup dayUpdate) trace → ∃ r rest,
      trace = ⟨.managerLog dayUpdate, ()⟩ :: ⟨.agent (.http .layer2 .getLedger), r⟩ :: rest ∧
      timeoutSubmissions rest = (withBody readLedgerSeq r).join.toList.map fun layer2Seq =>
        (Formats.managerSetup.conf.crossContract .layer2, Strings.decimal timeout, layer2Seq + 200)) ∧
    (L2CrossChainBridge.setTimeout (Bridge.deploy 1 2 3600000000) ownerCall timeout).isOk := by
  obtain ⟨timeout, htimeout, _, hsubmits, haccepted⟩ := @period_update_exact Formats.managerSetup
    (Bridge.deploy 1 2 3600000000) ownerCall dayUpdate rfl (by decide) (by decide) rfl rfl
  refine ⟨timeout, htimeout, hsubmits, ?_⟩
  rw [haccepted, if_pos (by decide)]
  rfl

/-- A period of 10770 minutes is submitted exactly, and the contract reverts. -/
theorem period_update_reverted : (periodTimeout 10770).toInt = (10770 + 30) * 60 * 10 ^ 6 ∧
    ¬(L2CrossChainBridge.setTimeout (Bridge.deploy 1 2 3600000000) ownerCall
      ((10770 + 30) * 60 * 10 ^ 6)).isOk := by
  constructor
  · decide
  · rw [setTimeout_owner rfl rfl, if_neg (by decide)]
    exact Bool.false_ne_true

end update

end CrosschainAgent
