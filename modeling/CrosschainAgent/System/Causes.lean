import CrosschainAgent.System.Accounts

/-!
# Nothing without a cause

Whatever the agent submits or keeps, in its maps or in its database, is about a transfer that a chain
logged in a block that is closed, and says of it what the chains say. An ack of success is for an escrow
that the other chain logged, and a reply for an ack that the source chain logged. So it is after every
run, whatever was lost, repeated or restarted on the way.
-/

namespace CrosschainAgent

open Interaction Bridge Strings

variable {T : Type} [DecidableEq T]

namespace World

variable {sys : System} {w : World T}

/-- What a `StartTx` hashed is the id of an event that the chain logged then. -/
theorem run_hashed_logged {chainId timeout now : Layer → ℕ} {labels : List (Label T)}
    (h : run sys (initial sys chainId timeout now) labels = some w) (l : Layer) :
    (w.shared.chain l).bridge.chainId = chainId l ∧ ∀ src dest amount time,
      startWords l (chainId l) src dest amount time ∈ (w.shared.chain l).hashed →
        (time, Event.startTxEvent (sys.sha256.hash (startWords l (chainId l) src dest amount time))) ∈
          (w.shared.chain l).log := by
  refine run_induction (P := fun u => (u.shared.chain l).bridge.chainId = chainId l ∧
    ∀ src dest amount time, startWords l (chainId l) src dest amount time ∈ (u.shared.chain l).hashed →
      (time, Event.startTxEvent (sys.sha256.hash (startWords l (chainId l) src dest amount time))) ∈
        (u.shared.chain l).log) ?_ ?_ h
  · refine ⟨rfl, fun src dest amount time hmem => ?_⟩
    cases hmem
  · intro u label u' hu hstep
    obtain ⟨hchain, hlogged⟩ := hu
    cases step_executes hstep l with
    | idle none_called same =>
      rw [same.bridge, same.hashed, same.log]
      exact ⟨hchain, hlogged⟩
    | call msg call receipt b is_called time exec bridge hashed log =>
      have hacc := exec_accepted exec
      refine ⟨by rw [bridge, hacc.chainId_eq, hchain], fun src dest amount time hmem => ?_⟩
      rw [hashed, List.mem_append, Option.mem_toList] at hmem
      rw [log]
      cases hmem with
      | inr hold => exact List.mem_append_left _ (hlogged src dest amount time hold)
      | inl hnew =>
        apply List.mem_append_right
        cases hacc with
        | startTx dest' txId hid =>
          simp only [Entry.hashed, hchain, Option.some.injEq] at hnew
          obtain ⟨rfl, rfl, rfl, rfl⟩ := startWords_inj hnew
          rw [hid, hchain]
          exact List.mem_map_of_mem (List.mem_singleton.mpr rfl)
        | setTimeout | setOwner | sendTx | ackSuccess | ackFailure | refund => cases hnew

variable (w : World T)

/-- The chain logged the start of the transfer in a block that is closed. -/
def Started (l : Layer) (X : Bytes) : Prop :=
  ∃ time, (time, Event.startTxEvent X) ∈ (w.shared.chain l).log ∧ time < (w.shared.chain l).now

/-- The chain logged the event. -/
def Logged (l : Layer) (event : Event) : Prop := ∃ time, (time, event) ∈ (w.shared.chain l).log

/-- The text fields and the numbers of a message are those of the record of a transfer that started on the
layer, with the numbers cut to an `int64`. -/
def Carries (abi : NodeAbi) (l : Layer) (X : Bytes) (crosstxid srcbid destbid : Text)
    (amount timeout : Int64) : Prop :=
  let r := (w.shared.chain l).bridge.crossTxInfo X
  w.Started l X ∧ crosstxid = abi.bytesText X ∧ srcbid = abi.addressText r.srcBid ∧
    destbid = abi.addressText r.destBid ∧ amount.toInt = saturate r.amount ∧
    timeout.toInt = saturate r.timeout

/-- An ack of a transfer that started on the layer: a success is for an escrow that the other chain
logged, and carries its time. -/
def Acks (l : Layer) (X : Bytes) (result : Int32) (executeTime : Int64) : Prop :=
  w.Started l X ∧ Verdict result ∧ (result = crossResultSuccess → w.Logged l.other (.sendTxEvent X) ∧
    executeTime.toInt = saturate ((w.shared.chain l.other).bridge.crossTxInfo X).executeTimestamp)

/-- A reply to a transfer that started on the layer: its chain logged the ack. -/
def Replies (l : Layer) (X : Bytes) (result : Int32) (executeTime : Int64) : Prop :=
  w.Started l X ∧ result = crossResultSuccess ∧ w.Logged l (.sendAckedTxEvent X) ∧
    executeTime.toInt = saturate ((w.shared.chain l).bridge.crossTxInfo X).executeTimestamp

/-- What causes a submission to a layer. -/
def Causes (abi : NodeAbi) (l : Layer) : TxInput → Int64 → Prop
  | .sendTx crossTxId srcBid destBid amount timeout, value => value = amount ∧
    ∃ X, w.Carries abi l.other X crossTxId srcBid destBid amount timeout
  | .sendAckedTx crossTxId result _ executeTime, _ => ∃ X, crossTxId = abi.bytesText X ∧
    (w.Acks l X result executeTime ∨ w.Replies l.other X result executeTime)

/-- What a message in a store is about. -/
def Tells (abi : NodeAbi) (info : Protocol.CrossTxInfo) : Store → Prop
  | .start => ∃ X, w.Carries abi .layer2 X info.crosstxid info.srcbid info.destbid info.amount info.timeout
  | .send h => ∃ X, w.Carries abi h X info.crosstxid info.srcbid info.destbid info.amount info.timeout
  | .ack h => ∃ X, info.crosstxid = abi.bytesText X ∧ w.Acks h X info.status info.executetimestamp
  | .reply h => ∃ X, info.crosstxid = abi.bytesText X ∧ w.Replies h X info.status info.executetimestamp

end World

namespace Scene

variable {S : Scene} {w : World T}

/-- What the books say is what the chains logged: the start of a known transfer, the escrow, and the ack of
a transfer that succeeded. -/
structure Witnessed (S : Scene) (w : World T) : Prop where
  known : ∀ l X, S.Known w.shared.books l X → w.Started l X
  sent : ∀ l X, S.Sent w.shared.books l X → w.Logged l (.sendTxEvent X)
  success : ∀ l X, S.Known w.shared.books l X →
    ((w.shared.chain l).bridge.crossTxInfo X).status = .ackSuccess → w.Logged l (.sendAckedTxEvent X)

/-- In every run the submissions, stores and events are witnessed. -/
theorem run_witnessed {sys : System} {chainId timeout now : Layer → ℕ} (hcid : ∀ l, chainId l ≠ 0)
    {labels : List (Label T)} {w : World T}
    (h : World.run sys (World.initial sys chainId timeout now) labels = some w)
    (hinj : Set.InjOn sys.sha256.hash w.hashedWords) :
    Scene.Witnessed ⟨sys, chainId, w.hashedWords⟩ w := by
  have hkept := run_kept hcid h hinj
  have hA : Scene.Assumptions ⟨sys, chainId, w.hashedWords⟩ := ⟨hcid, hinj⟩
  have hknown : ∀ l X, Scene.Known ⟨sys, chainId, w.hashedWords⟩ w.shared.books l X → w.Started l X := by
    rintro l X ⟨src, dest, amount, time, hmem, rfl, htime⟩
    exact ⟨time, (World.run_hashed_logged h l).2 src dest amount time hmem, htime⟩
  constructor
  case known => exact hknown
  case sent =>
    intro l X hsent
    obtain ⟨time, hstart⟩ := hknown _ _ (hkept.holds.good.books.sentKnown l X hsent)
    obtain ⟨time', hlog⟩ := World.run_logged h l X hsent.1
    have hother : (time', Event.startTxEvent X) ∉ (w.shared.chain l.other.other).log :=
      hkept.holds.not_started_other hA hstart.1
    rw [Layer.other_other] at hother
    exact ⟨time', hlog.resolve_left hother⟩
  case success =>
    intro l X hX hstatus
    obtain ⟨hex, hst⟩ := hkept.holds.good.books.of_known hX
    obtain ⟨⟨n, _, hevents⟩, _⟩ := (hkept.accounted l X).started hex hst
    have hmem : Event.sendAckedTxEvent X ∈ eventsOf
        (World.chronicle sys l (World.initial sys chainId timeout now) labels).accepted X := by
      rw [hevents, CrossTxInfo.closing, if_pos hstatus]
      exact List.mem_append_right _ (List.mem_singleton.mpr rfl)
    rw [← World.eventsOf_chronicle h] at hmem
    obtain ⟨p, hp, hevent⟩ := List.mem_map.mp (List.mem_of_mem_filter hmem)
    exact ⟨p.1, hevent ▸ hp⟩

variable (hwit : S.Witnessed w)
include hwit

omit [DecidableEq T] in
/-- What describes a transfer carries its data. -/
theorem Describes.carries {h : Handle} {info : Protocol.CrossTxInfo} {id : Bytes}
    (hd : S.Describes w.shared.books h info id) :
    w.Carries S.sys.abi h id info.crosstxid info.srcbid info.destbid info.amount info.timeout :=
  ⟨hwit.known _ _ hd.known, hd.crosstxid, hd.srcbid, hd.destbid, hd.amount, hd.timeout⟩

omit [DecidableEq T] in
/-- An ack that is right acknowledges what the other chain logged. -/
theorem AckFor.acks {h : Handle} {result : Int32} {time : Int64} {id : Bytes}
    (ha : S.AckFor w.shared.books h result time id) : w.Acks h id result time :=
  ⟨hwit.known _ _ ha.known, ha.verdict, fun hr => ⟨hwit.sent _ _ (ha.success hr).1, (ha.success hr).2⟩⟩

omit [DecidableEq T] in
/-- A reply that is right replies to what its source logged. -/
theorem ReplyFor.replies {h : Handle} {result : Int32} {time : Int64} {id : Bytes}
    (hr : S.ReplyFor w.shared.books h result time id) : w.Replies h id result time :=
  ⟨hwit.known _ _ hr.known, hr.verdict, hwit.success _ _ hr.known hr.success, hr.time⟩

omit [DecidableEq T] in
/-- A justified submission has its cause. -/
theorem Justified.causes {l : Layer} {input : TxInput} {value : Int64}
    (hj : S.Justified w.shared.books l input value) : w.Causes S.sys.abi l input value := by
  cases input with
  | sendTx crossTxId srcBid destBid amount timeout =>
    obtain ⟨info, id, hd, hvalue, hinput⟩ := hj
    simp only [Handle.sendTxInput, TxInput.sendTx.injEq] at hinput
    obtain ⟨rfl, rfl, rfl, rfl, rfl⟩ := hinput
    exact ⟨hvalue, id, hd.carries hwit⟩
  | sendAckedTx crossTxId result errorDesc executeTime =>
    obtain ⟨id, hid, _, _, _, hwhat⟩ := hj
    exact ⟨id, hid, hwhat.imp (fun h => h.acks hwit) fun h => h.replies hwit⟩

omit [DecidableEq T] in
/-- The information in a store tells what the chains logged. -/
theorem InfoOk.tells {info : Protocol.CrossTxInfo} {s : Store} (hi : S.InfoOk w.shared.books info s) :
    w.Tells S.sys.abi info s := by
  cases s with
  | start =>
    obtain ⟨id, hd⟩ := hi
    exact ⟨id, hd.carries hwit⟩
  | send =>
    obtain ⟨id, hd, _⟩ := hi
    exact ⟨id, hd.carries hwit⟩
  | ack h =>
    obtain ⟨id, ha⟩ := hi
    exact ⟨id, ha.crosstxid, ha.ack.acks hwit⟩
  | reply h =>
    obtain ⟨id, hid, hr⟩ := hi
    exact ⟨id, hid, hr.replies hwit⟩

end Scene

/-- The agent submits nothing without a cause. After every run, every submission that the agent ever made
to a node carries a transfer that the other chain started in a closed block, with its accounts, amount and
timeout and the amount as its value; or it acknowledges a transfer that its own chain started, as a
success only where the other chain logged the escrow; or it replies to a transfer of the other chain that
was acknowledged there. -/
theorem submissions_caused {sys : System} {chainId timeout now : Layer → ℕ}
    (hcid : ∀ l, chainId l ≠ 0) {labels : List (Label T)} {w : World T}
    (h : World.run sys (World.initial sys chainId timeout now) labels = some w)
    (hinj : Set.InjOn sys.sha256.hash w.hashedWords) {l : Layer} {input : TxInput} {value : Int64}
    (hposted : (input, value) ∈ (w.shared.chain l).posted) : w.Causes sys.abi l input value := by
  have hwit := Scene.run_witnessed hcid h hinj
  have hkept := Scene.run_kept hcid h hinj
  exact ((hkept.holds.good.chains l).posted _ hposted).causes hwit

/-- In the run that settles its transfer, the `SendTx` was submitted because the transfer started. -/
theorem submissions_caused_settledRun : ∃ (w : World Unit) (input : TxInput) (value : Int64),
    World.run Formats.system (World.initial Formats.system (fun _ => 2) (fun _ => 100) (fun _ => 3))
      Formats.settledRun = some w ∧
    (w.shared.chain .layer2).posted = [(input, value)] ∧
    w.Causes Formats.system.abi .layer2 input value := by
  obtain ⟨w, hrun, h1, h2, _⟩ := Formats.settledRun_run
  have hcheck : ((World.run Formats.system
      (World.initial Formats.system (fun _ => 2) (fun _ => 100) (fun _ => 3)) Formats.settledRun).any
        fun w => (w.shared.chain .layer2).posted.length = 1) = true := by
    decide +kernel
  rw [hrun] at hcheck
  obtain ⟨⟨input, value⟩, hposted⟩ := List.length_eq_one_iff.mp (of_decide_eq_true hcheck)
  refine ⟨w, input, value, hrun, hposted, submissions_caused (fun _ => by decide) hrun
    (Formats.injOn_single h1 h2) ?_⟩
  rw [hposted]
  exact List.mem_singleton.mpr rfl

/-- The stores hold nothing without a cause. After every run, restarts included, every entry of a map is
the entry of a message, under its id, and every value of the database is a message, under the prefix of
its store and its id; and the message tells of a transfer what the chains logged and recorded. -/
theorem stores_faithful {sys : System} {chainId timeout now : Layer → ℕ}
    (hcid : ∀ l, chainId l ≠ 0) {labels : List (Label T)} {w : World T}
    (h : World.run sys (World.initial sys chainId timeout now) labels = some w)
    (hinj : Set.InjOn sys.sha256.hash w.hashedWords) :
    (∀ s key e, (w.shared.agent.maps s)[key]? = some e → ∃ info due,
      e = { CrossTx.ofInfo sys.su.codec info with sendAckTimeout := due } ∧ key = info.crosstxid ∧
        w.Tells sys.abi info s) ∧
      ∀ key value, w.shared.agent.db[key]? = some value → ∃ (s : Store) (info : Protocol.CrossTxInfo),
        key = s.keyPrefix ++ info.crosstxid ∧ value = sys.su.codec.serializeAsString info ∧
          w.Tells sys.abi info s := by
  have hwit := Scene.run_witnessed hcid h hinj
  have hgood := (Scene.run_kept hcid h hinj).holds.good
  constructor
  · intro s key e he
    obtain ⟨info, due, hentry, hkey, hinfo⟩ := hgood.maps s key e he
    exact ⟨info, due, hentry, hkey, hinfo.tells hwit⟩
  · intro key value hv
    obtain ⟨s, info, hkey, hvalue, hinfo⟩ := hgood.db key value hv
    exact ⟨s, info, hkey, hvalue, hinfo.tells hwit⟩

/-- In the run that settles its transfer, the ack is kept because the escrow was logged. -/
theorem stores_faithful_settledRun : ∃ (w : World Unit) (e : CrossTx),
    World.run Formats.system (World.initial Formats.system (fun _ => 2) (fun _ => 100) (fun _ => 3))
      Formats.settledRun = some w ∧
    (w.shared.agent.maps (.ack .layer1))[Formats.system.abi.bytesText Formats.settledId]? = some e ∧
    ∃ info due, e = { CrossTx.ofInfo Formats.system.su.codec info with sendAckTimeout := due } ∧
      Formats.system.abi.bytesText Formats.settledId = info.crosstxid ∧
      w.Tells Formats.system.abi info (.ack .layer1) := by
  obtain ⟨w, hrun, h1, h2, _⟩ := Formats.settledRun_run
  have hcheck : ((World.run Formats.system
      (World.initial Formats.system (fun _ => 2) (fun _ => 100) (fun _ => 3)) Formats.settledRun).any
        fun w => ((w.shared.agent.maps (.ack .layer1))[
          Formats.system.abi.bytesText Formats.settledId]?).isSome) = true := by
    decide +kernel
  rw [hrun] at hcheck
  obtain ⟨e, he⟩ := Option.isSome_iff_exists.mp hcheck
  exact ⟨w, e, hrun, he, (stores_faithful (fun _ => by decide) hrun (Formats.injOn_single h1 h2)).1 _ _ e he⟩

end CrosschainAgent
