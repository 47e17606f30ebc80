import CrosschainAgent.System.Formats
import CrosschainAgent.System.Handlers

/-!
# Settlement is safe

In every run the invariant holds and every running handler call is safe. What a run hashes
only grows, so that `sha256` need be injective on what was hashed in the run and nothing more.
-/

namespace CrosschainAgent

open Interaction Bridge Function

variable {T : Type} [DecidableEq T]

/-- Nothing was executed on the chain. -/
structure Chain.Idle (c c' : Chain) : Prop where
  bridge : c'.bridge = c.bridge
  hashed : c'.hashed = c.hashed
  log : c'.log = c.log

/-- A chain that did nothing is idle. -/
theorem Chain.Idle.refl (c : Chain) : Chain.Idle c c := ⟨rfl, rfl, rfl⟩

/-- A chain that is idle twice is idle. -/
theorem Chain.Idle.trans {c c' c'' : Chain} (h : Chain.Idle c c') (h' : Chain.Idle c' c'') :
    Chain.Idle c c'' :=
  ⟨h'.bridge.trans h.bridge, h'.hashed.trans h.hashed, h'.log.trans h.log⟩

/-- A call was executed on the chain. -/
structure Chain.Calls (l : Layer) (sha256 : Sha256) (c c' : Chain) (msg : Msg) (call : Call)
    (receipt : Receipt) : Prop where
  accepted : Accepted l sha256 c.bridge msg call c'.bridge receipt
  hashed : c.hashed ⊆ c'.hashed
  log : c'.log = c.log ++ receipt.events.map fun event => (c.now, event)

/-- Threads do not execute anything on a chain. -/
theorem Shared.Acts.chain_idle {sys : System} {t : T} {w w' : Shared T} {o : Op} {r : o.Resp}
    (h : Shared.Acts sys t w o r w') (l : Layer) : Chain.Idle (w.chain l) (w'.chain l) := by
  cases h with
  | highResolution | query | dbScan | entries | lock | unlock | dbPut | dbDelete | emplace | erase
  | setAckTimeout => exact Chain.Idle.refl _
  | lost l' | received l' =>
    by_cases hl : l = l'
    · subst hl
      rw [setChain_chain_self]
      exact ⟨rfl, rfl, rfl⟩
    · rw [setChain_chain_of_ne _ _ hl]
      exact Chain.Idle.refl _

namespace World

variable {sys : System} {w w' : World T}

/-- A thread that goes on leaves the chains. -/
theorem proceed_chain (shared : Shared T) (tasks : T → Option Task) (t : T)
    (event : Option (Layer × ℕ)) (prog : AgentM Bool) :
    (proceed shared tasks t event prog).shared.chain = shared.chain := by
  cases prog <;> rfl

omit [DecidableEq T] in
/-- A chain that was set, seen from any chain. -/
theorem setChain_idle_or_calls {l l' : Layer} {c : Chain}
    (h : Chain.Idle (w.shared.chain l') c ∨ ∃ msg call receipt,
      Chain.Calls l' sys.sha256 (w.shared.chain l') c msg call receipt) :
    Chain.Idle (w.shared.chain l) ((w.shared.setChain l' c).chain l) ∨ ∃ msg call receipt,
      Chain.Calls l sys.sha256 (w.shared.chain l) ((w.shared.setChain l' c).chain l) msg call
        receipt := by
  by_cases hl : l = l'
  · subst hl
    rwa [setChain_chain_self]
  · rw [setChain_chain_of_ne _ _ hl]
    exact Or.inl (Chain.Idle.refl _)

/-- A step of the system executes at most one call on a chain. -/
theorem Steps.idle_or_calls {label : Label T} (h : Steps sys w label w') (l : Layer) :
    Chain.Idle (w.shared.chain l) (w'.shared.chain l) ∨ ∃ msg call receipt,
      Chain.Calls l sys.sha256 (w.shared.chain l) (w'.shared.chain l) msg call receipt := by
  cases h with
  | block l' time hnow => exact setChain_idle_or_calls (Or.inl ⟨rfl, rfl, rfl⟩)
  | user l' sender value accepts call c stranger hexec =>
    obtain ⟨b, receipt, hacc, rfl⟩ := Chain.exec_accepted hexec
    exact setChain_idle_or_calls
      (Or.inr ⟨_, call, receipt, hacc, List.subset_append_right .., rfl⟩)
  | execute l' index accepts tx call c received decoded hexec =>
    obtain ⟨b, receipt, hacc, rfl⟩ := Chain.exec_accepted hexec
    exact setChain_idle_or_calls
      (Or.inr ⟨_, call, receipt, hacc, List.subset_append_right .., rfl⟩)
  | deliver | confirm | timer => exact Or.inl (Chain.Idle.refl _)
  | act t a event o k r shared running hact =>
    rw [proceed_chain]
    exact Or.inl (hact.chain_idle l)
  | restart t answers shared hruns =>
    have hkeeps : ∀ o u r u', Shared.Acts sys t u o r u' →
        Chain.Idle (w.shared.chain l) (u.chain l) → Chain.Idle (w.shared.chain l) (u'.chain l) :=
      fun o u r u' hact hu => hu.trans (hact.chain_idle l)
    exact Or.inl (hruns.invariant hkeeps (Chain.Idle.refl _))

/-- What was hashed stays hashed. -/
theorem Steps.hashed_subset {label : Label T} (h : Steps sys w label w') (l : Layer) :
    (w.shared.chain l).hashed ⊆ (w'.shared.chain l).hashed := by
  rcases h.idle_or_calls l with hidle | ⟨_, _, _, hcalls⟩
  · rw [hidle.hashed]
    exact List.Subset.refl _
  · exact hcalls.hashed

/-- The bridges stay well formed. -/
theorem run_wellFormed {chainId timeout now : Layer → ℕ} {labels : List (Label T)}
    (h : run sys (initial sys chainId timeout now) labels = some w) (l : Layer) :
    (w.shared.chain l).bridge.WellFormed := by
  refine run_induction (P := fun u => (u.shared.chain l).bridge.WellFormed)
    (deploy_wellFormed _ _ _) ?_ h
  intro u label u' hu hstep
  rcases (step_steps hstep).idle_or_calls l with hidle | ⟨_, _, _, hcalls⟩
  · rwa [hidle.bridge]
  · exact hcalls.accepted.wellFormed hu

/-- A record has the event of the call that made it in the log. -/
theorem run_logged {chainId timeout now : Layer → ℕ} {labels : List (Label T)}
    (h : run sys (initial sys chainId timeout now) labels = some w) (l : Layer) (id : Bytes)
    (hex : ((w.shared.chain l).bridge.crossTxInfo id).Exists) :
    ∃ time, (time, Event.startTxEvent id) ∈ (w.shared.chain l).log ∨
      (time, Event.sendTxEvent id) ∈ (w.shared.chain l).log := by
  refine run_induction (P := fun u => ((u.shared.chain l).bridge.crossTxInfo id).Exists →
    ∃ time, (time, Event.startTxEvent id) ∈ (u.shared.chain l).log ∨
      (time, Event.sendTxEvent id) ∈ (u.shared.chain l).log) ?_ ?_ h hex
  · intro hno
    exact absurd rfl hno
  · intro u label u' hu hstep hex'
    rcases (step_steps hstep).idle_or_calls l with hidle | ⟨msg, call, receipt, hcalls⟩
    · rw [hidle.bridge] at hex'
      rw [hidle.log]
      exact hu hex'
    · rw [hcalls.log]
      rcases (hcalls.accepted.exists_iff id).mp hex' with hold | hnew
      · obtain ⟨time, hlog⟩ := hu hold
        exact ⟨time, hlog.imp (List.mem_append_left _) (List.mem_append_left _)⟩
      · have hfunds := (hcalls.accepted.funds_iff id).mpr hnew
        simp only [Entry.funds, Bool.or_eq_true, List.contains_iff_mem] at hfunds
        refine ⟨(u.shared.chain l).now, hfunds.imp (fun hmem => ?_) fun hmem => ?_⟩
        · exact List.mem_append_right _ (List.mem_map_of_mem hmem)
        · exact List.mem_append_right _ (List.mem_map_of_mem hmem)

end World

namespace Scene

variable {S : Scene} {w w' : World T}

/-- The running calls, without the events they handle. -/
def running (tasks : T → Option Task) (t : T) : Option (AgentM Bool) := (tasks t).map (·.prog)

/-- The running program of one thread is set. -/
theorem running_update (tasks : T → Option Task) (t : T) (task : Option Task) :
    running (update tasks t task) = update (running tasks) t (task.map (·.prog)) := by
  funext t'
  by_cases h : t' = t
  · subst h
    simp [running]
  · simp [running, h]

/-- The shared state is good, and every running call is safe. -/
structure Holds (S : Scene) (w : World T) : Prop where
  good : S.Good w.shared
  safe : AllSafe (S.rules T) (running w.tasks) w.shared

/-- The chains moved, and all calls go on. -/
theorem Holds.of_move (h : S.Holds w) {shared : Shared T}
    (hmove : S.Good shared ∧ S.Later w.shared.books shared.books) :
    S.Holds { w with shared := shared } :=
  ⟨hmove.1, h.safe.rely fun _ => hmove.2⟩

/-- A thread takes up a call that is safe. -/
theorem Holds.of_take (h : S.Holds w) {t : T} {event : Option (Layer × ℕ)}
    {call : HandleManager.Call} {taken : List (Layer × ℕ)}
    (hsafe : S.Does t (fun _ _ => True) (HandleManager.run S.sys.su call) w.shared) :
    S.Holds
      { shared := { w.shared with taken := taken }
        tasks := update w.tasks t (some ⟨event, HandleManager.run S.sys.su call⟩) } := by
  have hlater : ∀ t', (S.rules T).Rely t' w.shared { w.shared with taken := taken } :=
    fun _ => Books.Later.refl _
  refine ⟨⟨h.good.books, h.good.chains, h.good.maps, h.good.db⟩, ?_⟩
  rw [running_update]
  refine (h.safe.rely hlater).update _ fun p hp => ?_
  cases hp
  exact hsafe.rely (hlater t)

/-- A thread goes on with its call. -/
theorem Holds.of_proceed {shared : Shared T} {tasks : T → Option Task} {t : T}
    {event : Option (Layer × ℕ)} {prog : AgentM Bool} (hgood : S.Good shared)
    (hsafe : AllSafe (S.rules T) (update (running tasks) t (some prog)) shared) :
    S.Holds (World.proceed shared tasks t event prog) := by
  cases prog with
  | op o k =>
    refine ⟨hgood, ?_⟩
    change AllSafe _ (running (update tasks t (some ⟨event, .op o k⟩))) shared
    rw [running_update]
    exact hsafe
  | ret ok =>
    refine ⟨⟨hgood.books, hgood.chains, hgood.maps, hgood.db⟩, ?_⟩
    rw [World.proceed, running_update]
    have hnone := AllSafe.update (t := t) hsafe none fun _ hp => nomatch hp
    rw [update_idem] at hnone
    exact hnone.rely fun _ => Books.Later.refl _

/-- A step keeps the invariant. -/
theorem Holds.step (hA : S.Assumptions) (h : S.Holds w) {label : Label T}
    (hstep : World.Steps S.sys w label w')
    (hH : ∀ l, ∀ words ∈ (w'.shared.chain l).hashed, words ∈ S.H) : S.Holds w' := by
  cases hstep with
  | block l time hnow => exact h.of_move (h.good.block hnow)
  | user l sender value accepts call c stranger hexec =>
    refine h.of_move (h.good.user hA stranger hexec fun words hmem => hH l words ?_)
    rwa [setChain_chain_self]
  | execute l index accepts tx call c received decoded hexec =>
    exact h.of_move (h.good.execute hA (List.mem_of_getElem? received) decoded hexec)
  | deliver t l index time event call logged subscribed closed idle =>
    have hevent := (h.good.chains l).log _ (List.mem_of_getElem? logged)
    exact h.of_take (tlog_does hevent closed subscribed)
  | confirm t confirmSeq idle => exact h.of_take (confirm_does confirmSeq)
  | timer t idle => exact h.of_take (timer_does)
  | act t a event o k r shared hrunning hact =>
    have hprog : running w.tasks t = some (.op o k) := by rw [running, hrunning]; rfl
    obtain ⟨hgood, _, hsafe⟩ := h.safe.act h.good hprog hact
    exact Holds.of_proceed hgood hsafe
  | restart t answers shared hruns =>
    have hgood : S.Good { w.shared with agent := w.shared.agent.restarted, locks := fun _ => none } :=
      And.left (h.good.of_stores rfl
        (fun s key e (he : (∅ : InfoMap)[key]? = some e) => by simp at he) h.good.db)
    obtain ⟨hgood', _, _⟩ := initializeHandle_does.of_runs hgood hruns
    exact ⟨hgood', allSafe_none⟩

/-- Before anything happened the invariant holds. -/
theorem initial_holds {sys : System} (cid timeout now : Layer → ℕ) (H : Set (List ℕ)) :
    Holds ⟨sys, cid, H⟩ (World.initial (T := T) sys cid timeout now) where
  good :=
    { books :=
        { form := fun _ _ hmem => nomatch hmem
          hashedIn := fun _ _ hmem => nomatch hmem
          blank := fun _ _ _ => rfl
          keyed := fun _ _ hex => absurd rfl hex
          started := fun _ _ hmem => nomatch hmem
          origin := fun _ _ hex => absurd rfl hex
          acked := fun _ _ _ hex => absurd rfl hex
          success := fun _ _ _ hs => nomatch hs
          sentKnown := fun _ _ hs => absurd rfl hs.1
          sentCopies := fun _ _ hs => absurd rfl hs.1
          sentStatus := fun _ _ hs => absurd rfl hs.1 }
      chains := fun _ =>
        { owner := rfl
          chainId := rfl
          log := fun _ hp => nomatch hp
          posted := fun _ hp => nomatch hp
          pool := fun _ hp => nomatch hp
          named := fun _ hp => nomatch hp
          apart := List.nodup_nil
          done := fun _ hp => nomatch hp }
      maps := fun _ key _ he => by simp [World.initial, AgentState.empty] at he
      db := fun key _ hv => by simp [World.initial, AgentState.empty] at hv }
  safe := allSafe_none

/-- Every run keeps the invariant, for any set of words that covers what the run hashes. -/
theorem run_holds (hA : S.Assumptions) {timeout now : Layer → ℕ} {labels : List (Label T)}
    (h : World.run S.sys (World.initial S.sys S.cid timeout now) labels = some w)
    (hH : ∀ l, ∀ words ∈ (w.shared.chain l).hashed, words ∈ S.H) : S.Holds w := by
  refine World.run_induction
    (P := fun u => (∀ l, ∀ words ∈ (u.shared.chain l).hashed, words ∈ S.H) → S.Holds u)
    (fun _ => initial_holds S.cid timeout now S.H) ?_ h hH
  intro u label u' hu hstep hH'
  have hsteps := World.step_steps hstep
  exact (hu fun l words hmem => hH' l words (hsteps.hashed_subset l hmem)).step hA hsteps hH'

end Scene

/-- The words hashed by the `StartTx` calls of either chain. -/
def World.hashedWords (w : World T) : Set (List ℕ) :=
  {words | ∃ l, words ∈ (w.shared.chain l).hashed}

/-- The scene of a run: `sha256` has no collision among the words it hashed. -/
theorem run_scene {sys : System} {chainId timeout now : Layer → ℕ} (hcid : ∀ l, chainId l ≠ 0)
    {labels : List (Label T)} {w : World T}
    (h : World.run sys (World.initial sys chainId timeout now) labels = some w)
    (hinj : Set.InjOn sys.sha256.hash w.hashedWords) :
    Scene.Assumptions ⟨sys, chainId, w.hashedWords⟩ ∧ Scene.Holds ⟨sys, chainId, w.hashedWords⟩ w :=
  ⟨⟨hcid, hinj⟩, Scene.run_holds (S := ⟨sys, chainId, w.hashedWords⟩) ⟨hcid, hinj⟩ h
    fun l _ hmem => ⟨l, hmem⟩⟩

namespace Scene

variable {S : Scene} {w : World T} {l : Layer} {X : Bytes}

/-- A transfer that started on one layer did not start on the other. -/
theorem Holds.not_started_other (hA : S.Assumptions) (hw : S.Holds w) {time time' : ℕ}
    (hX : (time, Event.startTxEvent X) ∈ (w.shared.chain l).log) :
    (time', Event.startTxEvent X) ∉ (w.shared.chain l.other).log := by
  intro hX'
  obtain ⟨src, dest, amount, hmem, hhash⟩ := (hw.good.chains l).log _ hX
  obtain ⟨src', dest', amount', hmem', hhash'⟩ := (hw.good.chains l.other).log _ hX'
  exact Books.startWords_layer hA.chainId_ne_zero (hA.injOn (hw.good.books.hashedIn l _ hmem)
    (hw.good.books.hashedIn l.other _ hmem') (hhash.trans hhash'.symm))

/-- The record of a transfer on the other layer is its escrow. -/
theorem Holds.sent (hA : S.Assumptions) (hw : S.Holds w) {time : ℕ}
    (hX : (time, Event.startTxEvent X) ∈ (w.shared.chain l).log)
    (hex : ((w.shared.chain l.other).bridge.crossTxInfo X).Exists) :
    S.Sent w.shared.books l.other X := by
  refine ⟨hex, Bool.eq_false_iff.mpr fun hstarted => ?_⟩
  obtain ⟨src, dest, amount, hmem, hhash⟩ := (hw.good.chains l).log _ hX
  obtain ⟨words, hwords, hhash'⟩ := hw.good.books.origin l.other X hex hstarted
  obtain ⟨src', dest', amount', time', rfl, _⟩ := hw.good.books.form l.other words hwords
  exact Books.startWords_layer hA.chainId_ne_zero (hA.injOn (hw.good.books.hashedIn l _ hmem)
    (hw.good.books.hashedIn l.other _ hwords) (hhash.trans hhash'.symm))

end Scene

/-- Two-phase settlement is safe. In every run of the composed system, for every transfer that
started on a layer: a source record becomes `ACK_SUCCESS` only when `SendTx` has stored the
escrow, the escrow becomes `ACK_SUCCESS` only when the source record has, and it never becomes
`ACK_FAIL` or `ACK_TIMEOUT`; so a transfer that is refunded at its source is neither paid nor
refunded at its destination. -/
theorem settlement_safe {sys : System} {chainId timeout now : Layer → ℕ}
    (hcid : ∀ l, chainId l ≠ 0) {labels : List (Label T)} {w : World T}
    (h : World.run sys (World.initial sys chainId timeout now) labels = some w)
    (hinj : Set.InjOn sys.sha256.hash w.hashedWords) {l : Layer} {X : Bytes} {time : ℕ}
    (hX : (time, Event.startTxEvent X) ∈ (w.shared.chain l).log) :
    (((w.shared.chain l).bridge.crossTxInfo X).status = .ackSuccess →
      ((w.shared.chain l.other).bridge.crossTxInfo X).Exists ∧
        ∃ time, (time, Event.sendTxEvent X) ∈ (w.shared.chain l.other).log) ∧
    (((w.shared.chain l.other).bridge.crossTxInfo X).status = .ackSuccess →
      ((w.shared.chain l).bridge.crossTxInfo X).status = .ackSuccess) ∧
    ((w.shared.chain l.other).bridge.crossTxInfo X).status ≠ .ackFail ∧
    ((w.shared.chain l.other).bridge.crossTxInfo X).status ≠ .ackTimeout ∧
    ¬(((w.shared.chain l).bridge.crossTxInfo X).refunded = .refunded ∧
      (((w.shared.chain l.other).bridge.crossTxInfo X).status = .ackSuccess ∨
        ((w.shared.chain l.other).bridge.crossTxInfo X).refunded = .refunded)) := by
  obtain ⟨hA, hw⟩ := run_scene hcid h hinj
  have hbooks := hw.good.books
  have hescrow : ((w.shared.chain l.other).bridge.crossTxInfo X).status = .init ∨
      ((w.shared.chain l.other).bridge.crossTxInfo X).status = .ackSuccess ∧
        ((w.shared.chain l).bridge.crossTxInfo X).status = .ackSuccess := by
    by_cases hex : ((w.shared.chain l.other).bridge.crossTxInfo X).Exists
    · have hstatus := hbooks.sentStatus l.other X (hw.sent hA hX hex)
      rwa [Layer.other_other] at hstatus
    · exact Or.inl (congrArg CrossTxInfo.status (hbooks.blank l.other X (not_not.mp hex)))
  have hsource : ((w.shared.chain l).bridge.crossTxInfo X).status = .ackSuccess →
      ((w.shared.chain l.other).bridge.crossTxInfo X).Exists := by
    intro hs
    obtain ⟨src, dest, amount, hmem, rfl⟩ := (hw.good.chains l).log _ hX
    obtain ⟨hex, hstarted⟩ := hbooks.started l _ hmem
    have hknown := hbooks.acked l _ hstarted hex fun hinit => nomatch hinit.symm.trans hs
    exact (hbooks.success l _ hknown hs).1.1
  refine ⟨fun hs => ⟨hsource hs, ?_⟩, fun hs => ?_, fun hs => ?_, fun hs => ?_, ?_⟩
  · obtain ⟨time', hstart | hsend⟩ := World.run_logged h l.other X (hsource hs)
    · exact absurd hstart (hw.not_started_other hA hX)
    · exact ⟨time', hsend⟩
  · exact (hescrow.resolve_left fun hinit => nomatch hinit.symm.trans hs).2
  · rcases hescrow with hinit | ⟨hack, _⟩
    · exact nomatch hinit.symm.trans hs
    · exact nomatch hack.symm.trans hs
  · rcases hescrow with hinit | ⟨hack, _⟩
    · exact nomatch hinit.symm.trans hs
    · exact nomatch hack.symm.trans hs
  · rintro ⟨hrefunded, hpaid⟩
    have hfailed : ¬(((w.shared.chain l).bridge.crossTxInfo X).status = .init ∨
        ((w.shared.chain l).bridge.crossTxInfo X).status = .ackSuccess) := by
      intro hnot
      have hnone := ((World.run_wellFormed h l).refunds X).mpr hnot
      exact nomatch hnone.symm.trans hrefunded
    rcases hescrow with hinit | ⟨_, hack⟩
    · rcases hpaid with hs | hrefunded'
      · exact nomatch hinit.symm.trans hs
      · have hnone := ((World.run_wellFormed h l.other).refunds X).mpr (Or.inl hinit)
        exact nomatch hnone.symm.trans hrefunded'
    · exact hfailed (Or.inr hack)

namespace Formats

/-- A transfer is started, escrowed on layer 2 and acknowledged on layer 1. -/
def settledRun : List (Label Unit) :=
  [.user .layer1 7 5 (fun _ => true) (.startTx 7 8 5), .block .layer1 4, .block .layer2 4,
    .deliver () .layer1 0] ++
  acts () (recordReplies sourceRecord ++ [.reply (ledgerReply 100),
    .posted (some "a".toList) (submitReply "a"), .stored true, .go]) ++
  [.execute .layer2 0 (fun _ => true), .block .layer2 5, .deliver () .layer2 0] ++
  acts () (recordReplies escrowRecord ++ [.reply (ledgerReply 100),
    .posted (some "b".toList) (submitReply "b"), .stored true, .time 6, .go, .stored true, .go]) ++
  [.execute .layer1 0 (fun _ => true)]

/-- The run is possible and settles its source record. -/
theorem settledRun_run : ∃ w : World Unit,
    World.run Formats.system (World.initial Formats.system (fun _ => 2) (fun _ => 100) (fun _ => 3))
      settledRun = some w ∧
    (w.shared.chain .layer1).hashed = [startWords .layer1 2 7 8 5 3] ∧
    (w.shared.chain .layer2).hashed = [] ∧
    (w.shared.chain .layer1).log[0]? = some (3, .startTxEvent settledId) ∧
    (w.shared.chain .layer1).bridge.crossTxInfo settledId =
      { sourceRecord with status := .ackSuccess, executeTimestamp := 4 } ∧
    (w.shared.chain .layer2).bridge.crossTxInfo settledId = escrowRecord := by
  have hcheck : ((World.run Formats.system
      (World.initial Formats.system (fun _ => 2) (fun _ => 100) (fun _ => 3)) settledRun).any fun w =>
    (w.shared.chain .layer1).hashed = [startWords .layer1 2 7 8 5 3] ∧
    (w.shared.chain .layer2).hashed = [] ∧
    (w.shared.chain .layer1).log[0]? = some (3, .startTxEvent settledId) ∧
    (w.shared.chain .layer1).bridge.crossTxInfo settledId =
      { sourceRecord with status := .ackSuccess, executeTimestamp := 4 } ∧
    (w.shared.chain .layer2).bridge.crossTxInfo settledId = escrowRecord) = true := by
    decide +kernel
  obtain ⟨w, hrun, hw⟩ := (Option.any_eq_true _ _).mp hcheck
  exact ⟨w, hrun, of_decide_eq_true hw⟩

/-- The words hashed in a run with one transfer are the words of that transfer. -/
theorem injOn_of_words {w : World Unit} (words : List ℕ)
    (h : ∀ l, ∀ v ∈ (w.shared.chain l).hashed, v = words) : Set.InjOn Bridge.sumHash.hash w.hashedWords := by
  rintro v ⟨l, hv⟩ v' ⟨l', hv'⟩ _
  rw [h l v hv, h l' v' hv']

/-- The same where the transfer starts on layer 1. -/
theorem injOn_single {w : World Unit} {words : List ℕ}
    (h1 : (w.shared.chain .layer1).hashed = [words]) (h2 : (w.shared.chain .layer2).hashed = []) :
    Set.InjOn Bridge.sumHash.hash w.hashedWords := by
  refine injOn_of_words words fun l v hv => ?_
  cases l with
  | layer1 => exact List.mem_singleton.mp (h1 ▸ hv)
  | layer2 => simp only [h2, List.not_mem_nil] at hv

end Formats

/-- In the run that settles its source record, the escrow exists and was stored by `SendTx`. -/
theorem settlement_safe_settledRun : ∃ w : World Unit,
    World.run Formats.system (World.initial Formats.system (fun _ => 2) (fun _ => 100) (fun _ => 3))
      Formats.settledRun = some w ∧
    ((w.shared.chain .layer1).bridge.crossTxInfo Formats.settledId).status = .ackSuccess ∧
    ∃ time, (time, Event.sendTxEvent Formats.settledId) ∈ (w.shared.chain .layer2).log := by
  obtain ⟨w, hrun, h1, h2, hlog, hsource, _⟩ := Formats.settledRun_run
  have hstatus := congrArg CrossTxInfo.status hsource
  have hsafe := settlement_safe (fun _ => by decide) hrun (Formats.injOn_single h1 h2)
    (List.mem_of_getElem? hlog)
  exact ⟨w, hrun, hstatus, (hsafe.1 hstatus).2⟩

end CrosschainAgent
