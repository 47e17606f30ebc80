import CrosschainAgent.Contract.Handover
import CrosschainAgent.System.Safety

/-!
# Each chain of the system is a run of its contract

What a run of the composed system executes on one chain is a list of calls, and the chain's
bridge is where a run of the contract alone with these calls ends: none of the calls is
reverted, and the chain's log is what they emitted. Whatever holds of every run of the contract
therefore holds of both bridges in every reachable world.
-/

namespace CrosschainAgent

open Bridge

variable {T : Type} [DecidableEq T]

namespace Bridge

/-- What the accepted calls logged, the oldest first, each event with the time of its block. -/
def logged (es : List Entry) : List (ℕ × Event) :=
  es.reverse.flatMap fun e => e.receipt.events.map fun event => (e.msg.timestamp, event)

/-- One more entry adds its events to the log. -/
theorem logged_cons (e : Entry) (es : List Entry) :
    logged (e :: es) = logged es ++ e.receipt.events.map fun event => (e.msg.timestamp, event) := by
  simp [logged]

/-- The coins that the accepted calls brought. -/
def received (es : List Entry) : ℕ := (es.map fun e => e.msg.value).sum

/-- The coins that the accepted calls paid out. -/
def paidOut (es : List Entry) : ℕ := (es.map fun e => (e.receipt.transfers.map Prod.snd).sum).sum

/-- An accepted call changes the balance by what it brings and what it pays out. -/
theorem Accepted.balance_eq {l : Layer} {sha256 : Sha256} {b b' : State} {msg : Msg} {c : Call}
    {r : Receipt} (h : Accepted l sha256 b msg c b' r) :
    b'.balance + (r.transfers.map Prod.snd).sum = b.balance + msg.value := by
  cases h with
  | setTimeout t owner value => simp [value]
  | setOwner o owner value => simp [value]
  | startTx | sendTx => simp
  | ackSuccess id desc time recipient events owner value length found init hdesc window funds =>
    simp [value, Nat.sub_add_cancel funds]
  | ackFailure id result desc time status desc' owner value => simp [value]
  | refund id value length found todo payer funds => simp [value, Nat.sub_add_cancel funds]

/-- No coin appears and none is lost: what came in is still there or was paid out. -/
theorem run_coins (l : Layer) (sha256 : Sha256) (sender : Address) (chainId timeout : ℕ)
    (calls : List (Msg × Call)) :
    let s := run l sha256 (deploy sender chainId timeout) calls
    s.state.balance + paidOut s.accepted = received s.accepted := by
  refine run_induction (P := fun s => s.state.balance + paidOut s.accepted = received s.accepted)
    rfl ?_ calls
  intro s x hs
  rcases step_cases l sha256 s x with heq | ⟨b, r, hacc, heq⟩
  · rwa [heq]
  · rw [heq]
    have hbalance := hacc.balance_eq
    simp only [paidOut, received, List.map_cons, List.sum_cons] at hs ⊢
    omega

end Bridge

namespace World

variable {sys : System} {w w' : World T}

/-- The call that a step executes on a chain. -/
def called (sys : System) (w : World T) (l : Layer) : Label T → Option (Msg × Call)
  | .user l' sender value accepts call =>
    if l' = l then some (⟨sender, value, (w.shared.chain l).now, accepts⟩, call) else none
  | .execute l' index accepts =>
    if l' = l then do
      let tx ← (w.shared.chain l).pool[index]?
      let call ← sys.abi.decodeCall tx.input.function tx.input.args
      return (⟨sys.owner l, tx.amount.toInt.toNat, (w.shared.chain l).now, accepts⟩, call)
    else none
  | _ => none

/-- The calls that a run executes on a chain, the oldest first. -/
def calls (sys : System) (l : Layer) : World T → List (Label T) → List (Msg × Call)
  | _, [] => []
  | w, label :: rest =>
    match step sys w label with
    | none => []
    | some w' => (called sys w l label).toList ++ calls sys l w' rest

/-- The calls of a run on one chain, carried out by its contract alone. -/
def chronicle (sys : System) (l : Layer) (w : World T) (labels : List (Label T)) : Chronicle :=
  Bridge.run l sys.sha256 (w.shared.chain l).bridge (calls sys l w labels)

/-- What a step does to one chain: nothing is executed on it, or one call, which its contract
accepts. -/
inductive Executes (sys : System) (w : World T) (l : Layer) (label : Label T) (w' : World T) : Prop
  | idle (none_called : called sys w l label = none)
      (same : Chain.Idle (w.shared.chain l) (w'.shared.chain l))
  | call (msg : Msg) (call : Call) (receipt : Receipt) (b : State)
      (is_called : called sys w l label = some (msg, call))
      (now : msg.timestamp = (w.shared.chain l).now)
      (exec : Bridge.exec l sys.sha256 (w.shared.chain l).bridge msg call = .ok (b, receipt))
      (bridge : (w'.shared.chain l).bridge = b)
      (hashed : (w'.shared.chain l).hashed = (Entry.hashed l (w.shared.chain l).bridge.chainId
        ⟨msg, call, receipt⟩).toList ++ (w.shared.chain l).hashed)
      (log : (w'.shared.chain l).log = (w.shared.chain l).log ++
        receipt.events.map fun event => (msg.timestamp, event))

/-- A chain that executes a call executes it as its contract does. -/
theorem Chain.exec_cases {l : Layer} {sha256 : Sha256} {c c' : Chain} {sender value : ℕ}
    {accepts : Address → Bool} {call : Call}
    (h : c.exec l sha256 sender value accepts call = some c') :
    ∃ receipt, Bridge.exec l sha256 c.bridge ⟨sender, value, c.now, accepts⟩ call =
        .ok (c'.bridge, receipt) ∧
      c'.hashed = (Entry.hashed l c.bridge.chainId
        ⟨⟨sender, value, c.now, accepts⟩, call, receipt⟩).toList ++ c.hashed ∧
      c'.log = c.log ++ receipt.events.map fun event => (c.now, event) := by
  simp only [Chain.exec] at h
  split at h
  next => cases h
  next b receipt heq =>
    cases h
    exact ⟨receipt, heq, rfl, rfl⟩

/-- Every step executes at most one call on a chain. -/
theorem step_executes {label : Label T} (h : step sys w label = some w') (l : Layer) :
    Executes sys w l label w' := by
  cases step_steps h with
  | block l' time hnow =>
    refine .idle rfl ?_
    by_cases hl : l = l'
    · subst hl
      rw [setChain_chain_self]
      exact ⟨rfl, rfl, rfl⟩
    · rw [setChain_chain_of_ne _ _ hl]
      exact Chain.Idle.refl _
  | user l' sender value accepts call c stranger hexec =>
    by_cases hl : l' = l
    · subst hl
      obtain ⟨receipt, hok, hhashed, hlog⟩ := Chain.exec_cases hexec
      refine .call _ call receipt _ (if_pos rfl) rfl hok ?_ ?_ ?_
      · rw [setChain_chain_self]
      · rw [setChain_chain_self]
        exact hhashed
      · rw [setChain_chain_self]
        exact hlog
    · refine .idle (if_neg hl) ?_
      rw [setChain_chain_of_ne _ _ (Ne.symm hl)]
      exact Chain.Idle.refl _
  | execute l' index accepts tx call c received decoded hexec =>
    by_cases hl : l' = l
    · subst hl
      obtain ⟨receipt, hok, hhashed, hlog⟩ := Chain.exec_cases hexec
      refine .call _ call receipt _ ?_ rfl hok ?_ ?_ ?_
      · simp only [called, if_pos, received, decoded, Option.bind_eq_bind, Option.bind_some,
          Option.pure_def]
      · rw [setChain_chain_self]
      · rw [setChain_chain_self]
        exact hhashed
      · rw [setChain_chain_self]
        exact hlog
    · refine .idle (if_neg hl) ?_
      rw [setChain_chain_of_ne _ _ (Ne.symm hl)]
      exact Chain.Idle.refl _
  | deliver | confirm | timer => exact .idle rfl (Chain.Idle.refl _)
  | act t a event o k r shared running hact =>
    refine .idle rfl ?_
    rw [proceed_chain]
    exact hact.chain_idle l
  | restart t answers shared hruns =>
    have hkeeps : ∀ o u r u', Shared.Acts sys t u o r u' →
        Chain.Idle (w.shared.chain l) (u.chain l) → Chain.Idle (w.shared.chain l) (u'.chain l) :=
      fun o u r u' hact hu => hu.trans (hact.chain_idle l)
    exact .idle rfl (hruns.invariant hkeeps (Chain.Idle.refl _))

omit [DecidableEq T] in
/-- The chronicle of a chain goes on as the chain does. -/
theorem Executes.state_eq {l : Layer} {label : Label T} (h : Executes sys w l label w')
    {s : Chronicle} (hs : s.state = (w.shared.chain l).bridge) :
    ((called sys w l label).toList.foldl (Bridge.step l sys.sha256) s).state =
      (w'.shared.chain l).bridge := by
  cases h with
  | idle none_called same => simp only [none_called, Option.toList_none, List.foldl_nil, hs, same.bridge]
  | call msg call receipt b is_called now exec bridge =>
    rw [← hs] at exec
    simp only [is_called, Option.toList_some, List.foldl_cons, List.foldl_nil, Bridge.step, exec,
      bridge]

/-- What holds of a world and its chronicles at first, and survives every step, holds after every
run. -/
theorem chronicle_induction {P : World T → (Layer → Chronicle) → Prop}
    (h0 : P w fun l => ⟨(w.shared.chain l).bridge, []⟩)
    (hstep : ∀ u s label u', (∀ l, (s l).state = (u.shared.chain l).bridge) → P u s →
      step sys u label = some u' →
      P u' fun l => (called sys u l label).toList.foldl (Bridge.step l sys.sha256) (s l))
    {labels : List (Label T)} (h : run sys w labels = some w') :
    P w' fun l => chronicle sys l w labels := by
  have hgen : ∀ (labels : List (Label T)) (u : World T) (s : Layer → Chronicle),
      (∀ l, (s l).state = (u.shared.chain l).bridge) → P u s → run sys u labels = some w' →
      P w' fun l => (calls sys l u labels).foldl (Bridge.step l sys.sha256) (s l) := by
    intro labels
    induction labels with
    | nil =>
      intro u s hs hu hrun
      cases hrun
      exact hu
    | cons label rest ih =>
      intro u s hs hu hrun
      rw [run, List.foldlM_cons] at hrun
      obtain ⟨u', hu', hrest⟩ := Option.bind_eq_some_iff.mp hrun
      have hnext := ih u' _ (fun l => (step_executes hu' l).state_eq (hs l)) (hstep u s label u' hs hu hu')
        hrest
      simpa only [calls, hu', List.foldl_append] using hnext
  exact hgen labels w _ (fun _ => rfl) h0 h

/-- A chronicle ends in the bridge of its chain. -/
theorem chronicle_state {labels : List (Label T)} (h : run sys w labels = some w') (l : Layer) :
    (chronicle sys l w labels).state = (w'.shared.chain l).bridge :=
  chronicle_induction (P := fun u s => (s l).state = (u.shared.chain l).bridge) rfl
    (fun _ _ _ _ hs _ hstep => (step_executes hstep l).state_eq (hs l)) h

/-- What the calls of a chronicle emitted was added to the log of its chain. -/
theorem chronicle_log {labels : List (Label T)} (h : run sys w labels = some w') (l : Layer) :
    (w'.shared.chain l).log = (w.shared.chain l).log ++ logged (chronicle sys l w labels).accepted := by
  refine chronicle_induction (P := fun u s => (u.shared.chain l).log =
    (w.shared.chain l).log ++ logged (s l).accepted) (by simp [logged]) ?_ h
  intro u s label u' hs hu hstep
  cases step_executes hstep l with
  | idle none_called same => simpa only [none_called, Option.toList_none, List.foldl_nil, same.log] using hu
  | call msg call receipt b is_called now exec bridge hashed log =>
    rw [← hs l] at exec
    simp only [is_called, Option.toList_some, List.foldl_cons, List.foldl_nil, Bridge.step, exec,
      logged_cons, log, hu, List.append_assoc]

/-- No call of a chronicle is reverted. -/
theorem chronicle_calls {labels : List (Label T)} (h : run sys w labels = some w') (l : Layer) :
    (chronicle sys l w labels).accepted.reverse.map (fun e => (e.msg, e.call)) =
      calls sys l w labels := by
  have hgen : ∀ (labels : List (Label T)) (u : World T) (s : Chronicle),
      s.state = (u.shared.chain l).bridge → run sys u labels = some w' →
      ((calls sys l u labels).foldl (Bridge.step l sys.sha256) s).accepted.reverse.map
          (fun e => (e.msg, e.call)) =
        s.accepted.reverse.map (fun e => (e.msg, e.call)) ++ calls sys l u labels := by
    intro labels
    induction labels with
    | nil =>
      intro u s hs hrun
      simp [calls]
    | cons label rest ih =>
      intro u s hs hrun
      rw [run, List.foldlM_cons] at hrun
      obtain ⟨u', hu', hrest⟩ := Option.bind_eq_some_iff.mp hrun
      have hexec := step_executes hu' l
      simp only [calls, hu', List.foldl_append]
      rw [ih u' _ (hexec.state_eq hs) hrest, ← List.append_assoc]
      congr 1
      cases hexec with
      | idle none_called same => simp [none_called]
      | call msg call receipt b is_called now exec =>
        rw [← hs] at exec
        simp [is_called, Bridge.step, exec]
  simpa [chronicle, Bridge.run] using hgen labels w ⟨_, []⟩ rfl h

/-- The composed system refines the contracts: in every run each chain is where its contract alone
ends with the calls that the run executed on the chain, in their order; the contract accepts every
one of them, and the chain's log is what they emitted. -/
theorem run_refines {chainId timeout now : Layer → ℕ} {labels : List (Label T)}
    (h : run sys (initial sys chainId timeout now) labels = some w) (l : Layer) :
    let made := calls sys l (initial sys chainId timeout now) labels
    let s := Bridge.run l sys.sha256 (deploy (sys.owner l) (chainId l) (timeout l)) made
    s.state = (w.shared.chain l).bridge ∧ logged s.accepted = (w.shared.chain l).log ∧
      s.accepted.reverse.map (fun e => (e.msg, e.call)) = made :=
  ⟨chronicle_state h l, (chronicle_log h l).symm, chronicle_calls h l⟩

/-- In every reachable world both bridges can pay all they owe: each covers the amounts of its live
records, holds exactly the coins that came in and were not paid out, and has paid no id more often
than the id was funded. -/
theorem world_solvent {chainId timeout now : Layer → ℕ} {labels : List (Label T)}
    (h : run sys (initial sys chainId timeout now) labels = some w) (l : Layer) :
    let es := (chronicle sys l (initial sys chainId timeout now) labels).accepted
    (Function.support fun id => ((w.shared.chain l).bridge.crossTxInfo id).owed).Finite ∧
      ∑ᶠ id, ((w.shared.chain l).bridge.crossTxInfo id).owed ≤ (w.shared.chain l).bridge.balance ∧
      (w.shared.chain l).bridge.balance + paidOut es = received es ∧
      ∀ id, payoutsOf es id ≤ fundedBy es id := by
  intro es
  have hsound : (chronicle sys l (initial sys chainId timeout now) labels).Sound :=
    run_sound (sys.owner l) (chainId l) (timeout l) _
  have hstate := chronicle_state h l
  have hcoins : (chronicle sys l (initial sys chainId timeout now) labels).state.balance + paidOut es =
      received es := run_coins l sys.sha256 (sys.owner l) (chainId l) (timeout l) _
  have howed := pot_owed (chronicle sys l (initial sys chainId timeout now) labels)
  rw [hstate] at hcoins howed
  refine ⟨howed ▸ hsound.solvent.finite, ?_, hcoins, fun id => ?_⟩
  · have hcovered := hsound.solvent.covered
    simp only [howed] at hcovered
    exact hcovered.trans_eq (congrArg State.balance hstate)
  · have hsingle := hsound.solvent.single id
    exact (Nat.le_add_right _ _).trans hsingle

/-- In the run that settles its transfer, layer 1 covers what it owes. -/
theorem world_solvent_settledRun : ∃ w : World Unit,
    run Formats.system (initial Formats.system (fun _ => 2) (fun _ => 100) (fun _ => 3))
      Formats.settledRun = some w ∧
    ∑ᶠ id, ((w.shared.chain .layer1).bridge.crossTxInfo id).owed ≤
      (w.shared.chain .layer1).bridge.balance := by
  obtain ⟨w, hrun, _⟩ := Formats.settledRun_run
  exact ⟨w, hrun, (world_solvent hrun .layer1).2.1⟩

end World

end CrosschainAgent
