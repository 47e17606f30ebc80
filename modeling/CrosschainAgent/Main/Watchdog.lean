import Mathlib.Algebra.Order.Group.Int
import Mathlib.Data.List.Chain
import Mathlib.Logic.Function.Basic
import CrosschainAgent.Main.RunLoop

/-!
# The watchdog

The processes of the agent write the time to a shared memory, at most twice a second, out of their main loops.
The watchdog compares what it finds there with what it found before, executes its command where nothing has
changed, and keeps the time that it then finds, which may have been written while the command was executed.
The mutexes of the two sides are not the same one, and no two processes have the same one, so that their steps
interleave freely: also between the time that a process reads and its write. The clock of a process is the
monotonic one, counted from the wall clock.
-/

namespace CrosschainAgent

/-- `Daemon`, which is attached to the shared memory. `writing` is the time that `OnTimer` is about to write. -/
structure Daemon where
  notify : TimerNotify := { timerName := "Daemon".toList, checkInterval := 0 }
  lastWriteTime : Int64 := 0
  writing : Option Int64 := none

namespace Daemon

/-- `OnTimer`, up to the write. -/
def onTimer (currentTime : Int64) (this : Daemon) : Daemon :=
  if 500000 < currentTime - this.lastWriteTime then { this with writing := some currentTime } else this

/-- The turn of the daemon in the main loop, up to the write. -/
def read (turn : Turn) (this : Daemon) : Daemon :=
  match this.notify.timerWrapper turn with
  | (some currentTime, notify) => onTimer currentTime { this with notify }
  | (none, notify) => { this with notify }

/-- The write of `OnTimer`. -/
def write (time : Int64) (this : Daemon) : Daemon := { this with lastWriteTime := time, writing := none }

/-- The times that a process knows are not negative and not ahead of the clock. -/
structure Sound (now : ℤ) (this : Daemon) : Prop where
  interval : this.notify.checkInterval = 0
  checked_nonneg : 0 ≤ this.notify.lastCheckTime.toInt
  checked_le : this.notify.lastCheckTime.toInt ≤ now
  written_nonneg : 0 ≤ this.lastWriteTime.toInt
  written_le : this.lastWriteTime.toInt ≤ now
  writing : ∀ time, this.writing = some time → 0 ≤ time.toInt ∧ time.toInt ≤ now

/-- So it is when the process starts. -/
theorem sound_launch {now : ℤ} (hnow : 0 ≤ now) : Sound now {} where
  interval := rfl
  checked_nonneg := le_rfl
  checked_le := hnow
  written_nonneg := le_rfl
  written_le := hnow
  writing := fun _ h => by cases h

/-- What is sound stays sound as time passes. -/
theorem Sound.mono {now later : ℤ} {this : Daemon} (h : Sound now this) (hle : now ≤ later) :
    Sound later this where
  interval := h.interval
  checked_nonneg := h.checked_nonneg
  checked_le := h.checked_le.trans hle
  written_nonneg := h.written_nonneg
  written_le := h.written_le.trans hle
  writing time htime := ⟨(h.writing time htime).1, (h.writing time htime).2.trans hle⟩

/-- A stamp that was read may be written. -/
theorem Sound.write {now : ℤ} {this : Daemon} (h : Sound now this) {time : Int64}
    (htime : this.writing = some time) : Sound now (this.write time) where
  interval := h.interval
  checked_nonneg := h.checked_nonneg
  checked_le := h.checked_le
  written_nonneg := (h.writing time htime).1
  written_le := (h.writing time htime).2
  writing := fun _ hwriting => by cases hwriting

/-- At a time that the clock has not shown before, a turn is about to write the time, or the time that the process
wrote last is at most half a second old. -/
theorem Sound.read {now : ℤ} {this : Daemon} (h : Sound now this) {turn : Turn} (hnow : now < turn.time)
    (hidle : this.writing = none) :
    Sound turn.time (this.read turn) ∧ (this.read turn).lastWriteTime = this.lastWriteTime ∧
      ((this.read turn).writing = some turn.currentTime ∧ this.lastWriteTime.toInt + 500000 < turn.time ∨
        (this.read turn).writing = none ∧ turn.time ≤ this.lastWriteTime.toInt + 500000) := by
  have hzero : (0 : Int64).toInt = 0 := Int64.toInt_zero
  have hhalf : (500000 : Int64).toInt = 500000 := rfl
  have hlt := turn.currentTime.toInt_lt
  have hchecked := h.checked_le
  have hchecked' := h.checked_nonneg
  have hwritten := h.written_le
  have hwritten' := h.written_nonneg
  have hle := h.mono hnow.le
  unfold Turn.time at hnow
  -- the check interval is zero, so that every later time is due
  have hdue : this.notify.lastCheckTime + this.notify.checkInterval < turn.currentTime := by
    rw [h.interval, Int64.lt_iff_toInt_lt, Int64.toInt_add, hzero, Int.bmod_eq_of_le]
    · omega
    · omega
    · omega
  have holder : 500000 < turn.currentTime - this.lastWriteTime ↔
      this.lastWriteTime.toInt + 500000 < turn.currentTime.toInt := by
    rw [Int64.lt_iff_toInt_lt, Int64.toInt_sub, hhalf, Int.bmod_eq_of_le]
    · omega
    · omega
    · omega
  have hread : this.read turn = onTimer turn.currentTime { this with notify :=
      { this.notify with lastExecuteCompleteTime := turn.completeTime, lastCheckTime := turn.currentTime } } := by
    rw [Daemon.read, TimerNotify.timerWrapper]
    dsimp only
    rw [if_pos hdue]
  rw [hread, onTimer]
  dsimp only
  by_cases hold : 500000 < turn.currentTime - this.lastWriteTime
  · rw [if_pos hold]
    refine ⟨⟨h.interval, ?_, le_rfl, hwritten', hle.written_le, ?_⟩, rfl, Or.inl ⟨rfl, holder.mp hold⟩⟩
    · exact hchecked'.trans (hchecked.trans hnow.le)
    · intro time htime
      obtain rfl := Option.some_inj.mp htime
      exact ⟨by omega, le_rfl⟩
  · rw [if_neg hold]
    refine ⟨⟨h.interval, ?_, le_rfl, hwritten', hle.written_le, hle.writing⟩, rfl,
      Or.inr ⟨hidle, not_lt.mp (mt holder.mpr hold)⟩⟩
    exact hchecked'.trans (hchecked.trans hnow.le)

end Daemon

/-- The shared memory, the processes `ι` of the agent, and the watchdog: the time that it keeps, and how often
it has executed its command. -/
structure Watchdog (ι : Type) where
  shared : Int64
  agents : ι → Daemon
  last : Int64
  executed : ℕ

namespace Watchdog

variable {ι : Type} [DecidableEq ι]

/-- What the processes and the watchdog do. -/
inductive Event (ι : Type) where
  /-- A process starts anew, wherever it was. -/
  | launch (i : ι)
  /-- The main loop of a process reads the clock. -/
  | read (i : ι) (turn : Turn)
  /-- It writes the time that it has read. -/
  | write (i : ι)
  /-- The watchdog wakes up, and executes its command if the time is the one that it keeps. -/
  | compare
  /-- The watchdog keeps the time and goes to sleep. -/
  | keep
deriving DecidableEq

/-- The watchdog starts with a time in the shared memory. -/
def start (shared : Int64) : Watchdog ι where
  shared := shared
  agents _ := {}
  last := 0
  executed := 0

/-- One event, where it can happen: a process writes what it has read before it reads again. -/
def step (w : Watchdog ι) : Event ι → Option (Watchdog ι)
  | .launch i => some { w with agents := Function.update w.agents i {} }
  | .read i turn =>
    if (w.agents i).writing = none then
      some { w with agents := Function.update w.agents i ((w.agents i).read turn) }
    else none
  | .write i => (w.agents i).writing.map fun time =>
      { w with shared := time, agents := Function.update w.agents i ((w.agents i).write time) }
  | .compare => some { w with executed := if w.last = w.shared then w.executed + 1 else w.executed }
  | .keep => some { w with last := w.shared }

/-- The events of a run. -/
def run (w : Watchdog ι) (events : List (Event ι)) : Option (Watchdog ι) := events.foldlM step w

/-- What the clock shows to the processes. -/
def readings : List (Event ι) → List ℤ
  | [] => []
  | .read _ turn :: events => turn.time :: readings events
  | _ :: events => readings events

/-- The last time that the clock has shown. -/
def latest (stamp : ℤ) (events : List (Event ι)) : ℤ := (readings events).getLastD stamp

omit [DecidableEq ι] in
/-- The clock shows the times of the one part and then those of the other. -/
theorem readings_append (before after : List (Event ι)) :
    readings (before ++ after) = readings before ++ readings after := by
  induction before with
  | nil => rfl
  | cons event before ih =>
    cases event with
    | read i turn => exact congrArg _ ih
    | _ => exact ih

omit [DecidableEq ι] in
/-- A clock that goes on over two lists of times goes on from the last of the first. -/
theorem isChain_of_append {now : ℤ} {before after : List ℤ} (h : (now :: (before ++ after)).IsChain (· < ·)) :
    (before.getLastD now :: after).IsChain (· < ·) := by
  induction before generalizing now with
  | nil => exact h
  | cons time before ih =>
    rw [List.getLastD_cons]
    exact ih (List.isChain_cons_cons.mp h).2

section Run

variable {w w' : Watchdog ι}

/-- A run begins with its first event. -/
theorem run_cons {event : Event ι} {events : List (Event ι)} (h : w.run (event :: events) = some w') :
    ∃ v, w.step event = some v ∧ v.run events = some w' := by
  rw [run, List.foldlM_cons] at h
  exact Option.bind_eq_some_iff.mp h

/-- A run goes through its parts one after the other. -/
theorem run_append {before after : List (Event ι)} (h : w.run (before ++ after) = some w') :
    ∃ v, w.run before = some v ∧ v.run after = some w' := by
  rw [run, List.foldlM_append] at h
  exact Option.bind_eq_some_iff.mp h

/-- What a step is, by its event. -/
theorem step_read {i : ι} {turn : Turn} (h : w.step (.read i turn) = some w') :
    (w.agents i).writing = none ∧
      w' = { w with agents := Function.update w.agents i ((w.agents i).read turn) } := by
  rw [step] at h
  split at h
  next hidle => exact ⟨hidle, (Option.some_inj.mp h).symm⟩
  next => cases h

/-- Only an agent that read the clock writes, and it writes what it read. -/
theorem step_write {i : ι} (h : w.step (.write i) = some w') :
    ∃ time, (w.agents i).writing = some time ∧
      w' = { w with shared := time, agents := Function.update w.agents i ((w.agents i).write time) } := by
  obtain ⟨time, htime, rfl⟩ := Option.map_eq_some_iff.mp h
  exact ⟨time, htime, rfl⟩

end Run

/-- The times are not ahead of the clock, and the time in the shared memory and those that are about to be
written are all different. -/
structure Sound (now : ℤ) (w : Watchdog ι) : Prop where
  nonneg : 0 ≤ w.shared.toInt
  shared_le : w.shared.toInt ≤ now
  agents : ∀ i, (w.agents i).Sound now
  fresh : ∀ i, (w.agents i).writing ≠ some w.shared
  distinct : ∀ i j time, i ≠ j → (w.agents i).writing = some time → (w.agents j).writing ≠ some time

omit [DecidableEq ι] in
/-- At the start everything is sound. -/
theorem sound_start {stamp : Int64} (hstamp : 0 ≤ stamp.toInt) : Sound stamp.toInt (start stamp : Watchdog ι) where
  nonneg := hstamp
  shared_le := le_rfl
  agents _ := Daemon.sound_launch hstamp
  fresh _ h := by cases h
  distinct _ _ _ _ h := by cases h

/-- What the clock shows after an event. -/
def Event.clock (now : ℤ) : Event ι → ℤ
  | .read _ turn => turn.time
  | _ => now

/-- An event that reads the clock reads a time that it has not shown before. -/
def Event.Ticks (now : ℤ) : Event ι → Prop
  | .read _ turn => now < turn.time
  | _ => True

/-- A process that starts anew forgets what it was about to write. -/
theorem Sound.launch {now : ℤ} {w : Watchdog ι} (h : Sound now w) (i : ι) :
    Sound now { w with agents := Function.update w.agents i {} } := by
  have hforget : ∀ j time, (Function.update w.agents i {} j).writing = some time →
      (w.agents j).writing = some time := by
    intro j time htime
    by_cases hj : j = i
    · subst hj
      rw [Function.update_self] at htime
      cases htime
    · rwa [Function.update_of_ne hj] at htime
  refine ⟨h.nonneg, h.shared_le, ?_, fun j hj => h.fresh j (hforget j _ hj), ?_⟩
  · exact (Function.forall_update_iff _ fun _ agent => Daemon.Sound now agent).mpr
      ⟨Daemon.sound_launch (h.nonneg.trans h.shared_le), fun j _ => h.agents j⟩
  · intro j k time hne hj hk
    exact h.distinct j k time hne (hforget j time hj) (hforget k time hk)

/-- A process that reads the clock is about to write a time that nobody has. -/
theorem Sound.read {now : ℤ} {w w' : Watchdog ι} (h : Sound now w) {i : ι} {turn : Turn}
    (hnow : now < turn.time) (hstep : w.step (.read i turn) = some w') : Sound turn.time w' := by
  obtain ⟨hidle, rfl⟩ := step_read hstep
  obtain ⟨hsound, -, hcases⟩ := (h.agents i).read hnow hidle
  have hnew : ∀ j time, (Function.update w.agents i ((w.agents i).read turn) j).writing = some time →
      j = i ∧ time = turn.currentTime ∨ j ≠ i ∧ (w.agents j).writing = some time ∧ time ≠ turn.currentTime := by
    intro j time htime
    by_cases hj : j = i
    · subst hj
      rw [Function.update_self] at htime
      rcases hcases with ⟨hwriting, -⟩ | ⟨hnone, -⟩
      · exact Or.inl ⟨rfl, Option.some_inj.mp (htime.symm.trans hwriting)⟩
      · rw [hnone] at htime
        cases htime
    · rw [Function.update_of_ne hj] at htime
      refine Or.inr ⟨hj, htime, ?_⟩
      rintro rfl
      have hle := ((h.agents j).writing _ htime).2
      unfold Turn.time at hnow
      omega
  refine ⟨h.nonneg, h.shared_le.trans hnow.le, ?_, ?_, ?_⟩
  · exact (Function.forall_update_iff _ fun _ agent => Daemon.Sound turn.time agent).mpr
      ⟨hsound, fun j _ => (h.agents j).mono hnow.le⟩
  · intro j hj
    rcases hnew j _ hj with ⟨-, htime⟩ | ⟨-, hold, -⟩
    · have hle := h.shared_le
      unfold Turn.time at hnow
      rw [htime] at hle
      omega
    · exact h.fresh j hold
  · intro j k time hne hj hk
    rcases hnew j time hj with ⟨hji, htime⟩ | ⟨-, hold, hother⟩
    · rcases hnew k time hk with ⟨hki, -⟩ | ⟨-, -, hother⟩
      · exact hne (hji.trans hki.symm)
      · exact hother htime
    · rcases hnew k time hk with ⟨-, htime⟩ | ⟨-, hold', -⟩
      · exact hother htime
      · exact h.distinct j k time hne hold hold'

/-- A process that writes leaves a time that nobody else is about to write. -/
theorem Sound.write {now : ℤ} {w w' : Watchdog ι} (h : Sound now w) {i : ι}
    (hstep : w.step (.write i) = some w') : Sound now w' := by
  obtain ⟨written, hwritten, rfl⟩ := step_write hstep
  obtain ⟨hnonneg, hle⟩ := (h.agents i).writing written hwritten
  have hold : ∀ j time, (Function.update w.agents i ((w.agents i).write written) j).writing = some time →
      j ≠ i ∧ (w.agents j).writing = some time := by
    intro j time htime
    by_cases hj : j = i
    · subst hj
      rw [Function.update_self] at htime
      cases htime
    · exact ⟨hj, by rwa [Function.update_of_ne hj] at htime⟩
  refine ⟨hnonneg, hle, ?_, ?_, ?_⟩
  · exact (Function.forall_update_iff _ fun _ agent => Daemon.Sound now agent).mpr
      ⟨(h.agents i).write hwritten, fun j _ => h.agents j⟩
  · intro j hj
    obtain ⟨hne, hj⟩ := hold j _ hj
    exact h.distinct i j written (Ne.symm hne) hwritten hj
  · intro j k time hne hj hk
    exact h.distinct j k time hne (hold j time hj).2 (hold k time hk).2

/-- Every event keeps the times sound. -/
theorem Sound.step {now : ℤ} {w w' : Watchdog ι} (h : Sound now w) {event : Event ι}
    (hclock : event.Ticks now) (hstep : w.step event = some w') : Sound (event.clock now) w' := by
  cases event with
  | launch i =>
    obtain rfl := Option.some_inj.mp hstep
    exact h.launch i
  | read i turn => exact h.read hclock hstep
  | write i => exact h.write hstep
  | compare =>
    obtain rfl := Option.some_inj.mp hstep
    exact ⟨h.nonneg, h.shared_le, h.agents, h.fresh, h.distinct⟩
  | keep =>
    obtain rfl := Option.some_inj.mp hstep
    exact ⟨h.nonneg, h.shared_le, h.agents, h.fresh, h.distinct⟩

omit [DecidableEq ι] in
/-- A clock that goes on over a run goes on at its first event, and after it. -/
theorem ticks_cons {now : ℤ} {event : Event ι} {events : List (Event ι)}
    (hclock : (now :: readings (event :: events)).IsChain (· < ·)) :
    event.Ticks now ∧ (event.clock now :: readings events).IsChain (· < ·) ∧
      latest now (event :: events) = latest (event.clock now) events := by
  cases event with
  | read i turn =>
    rw [readings, List.isChain_cons_cons] at hclock
    exact ⟨hclock.1, hclock.2, by rw [latest, readings, List.getLastD_cons, ← latest]; rfl⟩
  | _ => exact ⟨trivial, hclock, rfl⟩

/-- Over a run the times stay sound. -/
theorem Sound.run {now : ℤ} {w w' : Watchdog ι} (h : Sound now w) {events : List (Event ι)}
    (hclock : (now :: readings events).IsChain (· < ·)) (hrun : w.run events = some w') :
    Sound (latest now events) w' := by
  induction events generalizing now w with
  | nil =>
    obtain rfl := Option.some_inj.mp hrun
    exact h
  | cons event events ih =>
    obtain ⟨v, hstep, hrest⟩ := run_cons hrun
    obtain ⟨htick, hchain, hlatest⟩ := ticks_cons hclock
    rw [hlatest]
    exact ih (h.step htick hstep) hchain hrest

section Between

/-- Since the watchdog has kept `w.last` it has kept no other time; the time in the shared memory is that one as
long as nobody has written, and no process is about to write it. -/
structure Since (wrote : Prop) (w : Watchdog ι) : Prop where
  shared : w.last = w.shared ↔ ¬wrote
  fresh : ∀ i, (w.agents i).writing ≠ some w.last

/-- An event after the time was kept, and before it is kept again. -/
theorem Since.step {now : ℤ} {wrote : Prop} {w w' : Watchdog ι} (h : Since wrote w) (hw : Sound now w)
    (hlast : w.last.toInt ≤ now) {event : Event ι} (hclock : event.Ticks now) (hkeep : event ≠ .keep)
    (hstep : w.step event = some w') :
    Since (wrote ∨ ∃ i, event = .write i) w' ∧ w'.last = w.last := by
  have hothers : ∀ i agent, Daemon.writing agent ≠ some w.last →
      ∀ j, (Function.update w.agents i agent j).writing ≠ some w.last := fun i agent hagent =>
    (Function.forall_update_iff _ fun _ agent => Daemon.writing agent ≠ some w.last).mpr
      ⟨hagent, fun j _ => h.fresh j⟩
  cases event with
  | launch i =>
    obtain rfl := Option.some_inj.mp hstep
    exact ⟨⟨by simpa using h.shared, hothers i _ (Option.some_ne_none _).symm⟩, rfl⟩
  | read i turn =>
    obtain ⟨hidle, rfl⟩ := step_read hstep
    obtain ⟨-, -, hcases⟩ := (hw.agents i).read hclock hidle
    refine ⟨⟨by simpa using h.shared, hothers i _ ?_⟩, rfl⟩
    intro hwrites
    rcases hcases with ⟨hwriting, -⟩ | ⟨hnone, -⟩
    · have htime := Option.some_inj.mp (hwrites.symm.trans hwriting)
      have htick : now < turn.currentTime.toInt := hclock
      rw [htime] at hlast
      omega
    · rw [hnone] at hwrites
      cases hwrites
  | write i =>
    obtain ⟨time, htime, rfl⟩ := step_write hstep
    refine ⟨⟨?_, hothers i _ (Option.some_ne_none _).symm⟩, rfl⟩
    refine iff_of_false ?_ (not_not.mpr (Or.inr ⟨i, rfl⟩))
    intro hlastEq
    exact h.fresh i (htime.trans (congrArg some hlastEq.symm))
  | compare =>
    obtain rfl := Option.some_inj.mp hstep
    exact ⟨⟨by simpa using h.shared, h.fresh⟩, rfl⟩
  | keep => exact absurd rfl hkeep

/-- Until the time is kept again it is in the shared memory exactly as long as nobody has written. -/
theorem Since.run {now : ℤ} {wrote : Prop} {w w' : Watchdog ι} (h : Since wrote w) (hw : Sound now w)
    (hlast : w.last.toInt ≤ now) {events : List (Event ι)}
    (hclock : (now :: readings events).IsChain (· < ·)) (hkeep : .keep ∉ events)
    (hrun : w.run events = some w') : Since (wrote ∨ ∃ i, .write i ∈ events) w' := by
  induction events generalizing now w wrote with
  | nil =>
    obtain rfl := Option.some_inj.mp hrun
    simpa using h
  | cons event events ih =>
    obtain ⟨v, hstep, hrest⟩ := run_cons hrun
    obtain ⟨htick, hchain, -⟩ := ticks_cons hclock
    obtain ⟨hevent, hevents⟩ := not_or.mp (mt List.mem_cons.mpr hkeep)
    obtain ⟨hsince, hv⟩ := h.step hw hlast htick (Ne.symm hevent) hstep
    have hlater : v.last.toInt ≤ event.clock now := by
      rw [hv]
      refine hlast.trans ?_
      cases event with
      | read i turn => exact (show now < turn.time from htick).le
      | _ => exact le_rfl
    have hend := ih hsince (hw.step htick hstep) hlater hchain hevents hrest
    have hwrote : ((wrote ∨ ∃ i, event = .write i) ∨ ∃ i, .write i ∈ events) ↔
        (wrote ∨ ∃ i, .write i ∈ event :: events) := by
      simp only [List.mem_cons, exists_or, or_assoc, eq_comm]
    exact ⟨hend.shared.trans (not_congr hwrote), hend.fresh⟩

end Between

section Late

/-- Reading the clock leaves the time of the last write. -/
theorem lastWriteTime_read (turn : Turn) (this : Daemon) : (this.read turn).lastWriteTime = this.lastWriteTime := by
  rw [Daemon.read]
  split
  next =>
    rw [Daemon.onTimer]
    split <;> rfl
  next => rfl

/-- As long as nobody writes, no process has written at a later time. -/
theorem run_written {w w' : Watchdog ι} {bound : ℤ} (hbound : 0 ≤ bound)
    (h : ∀ i, (w.agents i).lastWriteTime.toInt ≤ bound) {events : List (Event ι)}
    (hquiet : ∀ i, .write i ∉ events) (hrun : w.run events = some w') (i : ι) :
    (w'.agents i).lastWriteTime.toInt ≤ bound := by
  induction events generalizing w with
  | nil =>
    obtain rfl := Option.some_inj.mp hrun
    exact h i
  | cons event events ih =>
    obtain ⟨v, hstep, hrest⟩ := run_cons hrun
    refine ih ?_ (fun j hj => hquiet j (List.mem_cons_of_mem _ hj)) hrest
    cases event with
    | launch j =>
      obtain rfl := Option.some_inj.mp hstep
      exact (Function.forall_update_iff _ fun _ agent => (Daemon.lastWriteTime agent).toInt ≤ bound).mpr
        ⟨hbound, fun k _ => h k⟩
    | read j turn =>
      obtain ⟨-, rfl⟩ := step_read hstep
      exact (Function.forall_update_iff _ fun _ agent => (Daemon.lastWriteTime agent).toInt ≤ bound).mpr
        ⟨by rw [lastWriteTime_read]; exact h j, fun k _ => h k⟩
    | write j => exact absurd List.mem_cons_self (hquiet j)
    | compare =>
      obtain rfl := Option.some_inj.mp hstep
      exact h
    | keep =>
      obtain rfl := Option.some_inj.mp hstep
      exact h

/-- A process that is about to write stays so until it writes or starts anew. -/
theorem run_writing {w w' : Watchdog ι} {i : ι} {time : Int64} (h : (w.agents i).writing = some time)
    {events : List (Event ι)} (hquiet : .write i ∉ events) (hlaunch : .launch i ∉ events)
    (hrun : w.run events = some w') : (w'.agents i).writing = some time := by
  induction events generalizing w with
  | nil =>
    obtain rfl := Option.some_inj.mp hrun
    exact h
  | cons event events ih =>
    obtain ⟨v, hstep, hrest⟩ := run_cons hrun
    obtain ⟨hevent, hquiet⟩ := not_or.mp (mt List.mem_cons.mpr hquiet)
    obtain ⟨hevent', hlaunch⟩ := not_or.mp (mt List.mem_cons.mpr hlaunch)
    refine ih ?_ hquiet hlaunch hrest
    cases event with
    | launch j =>
      obtain rfl := Option.some_inj.mp hstep
      have hne : i ≠ j := fun hij => hevent' (hij ▸ rfl)
      simpa only [Function.update_of_ne hne] using h
    | read j turn =>
      obtain ⟨hidle, rfl⟩ := step_read hstep
      have hne : i ≠ j := by
        rintro rfl
        rw [h] at hidle
        cases hidle
      simpa only [Function.update_of_ne hne] using h
    | write j =>
      obtain ⟨other, -, rfl⟩ := step_write hstep
      have hne : i ≠ j := fun hij => hevent (hij ▸ rfl)
      simpa only [Function.update_of_ne hne] using h
    | compare =>
      obtain rfl := Option.some_inj.mp hstep
      exact h
    | keep =>
      obtain rfl := Option.some_inj.mp hstep
      exact h

/-- A pass that reads a time half a second after all others, and ends, comes with a write. -/
theorem exists_write {now : ℤ} {w w' : Watchdog ι} (h : Sound now w) {i : ι} {turn : Turn}
    {earlier later : List (Event ι)}
    (hclock : (now :: readings (earlier ++ .read i turn :: later)).IsChain (· < ·))
    (hlate : now + 500000 < turn.time) (hlaunch : .launch i ∉ later)
    (hrun : w.run (earlier ++ .read i turn :: later) = some w') (hend : (w'.agents i).writing = none) :
    ∃ j, .write j ∈ earlier ++ .read i turn :: later := by
  by_contra hquiet
  rw [not_exists] at hquiet
  obtain ⟨v, hearlier, hrest⟩ := run_append hrun
  obtain ⟨u, hread, hlater⟩ := run_cons hrest
  rw [readings_append] at hclock
  have hv := h.run hclock.left_of_append hearlier
  have hwritten := run_written (h.nonneg.trans h.shared_le) (fun j => (h.agents j).written_le)
    (fun j hj => hquiet j (List.mem_append_left _ hj)) hearlier i
  have hnow : latest now earlier < turn.time := by
    have hrest := isChain_of_append hclock
    rw [readings, List.isChain_cons_cons] at hrest
    exact hrest.1
  obtain ⟨hidle, rfl⟩ := step_read hread
  obtain ⟨-, -, hcases⟩ := (hv.agents i).read hnow hidle
  rcases hcases with ⟨hwriting, -⟩ | ⟨-, hrecent⟩
  · have hread : ((Function.update v.agents i ((v.agents i).read turn)) i).writing = some turn.currentTime := by
      rwa [Function.update_self]
    have hstill := run_writing hread
      (fun hi => hquiet i (List.mem_append_right _ (List.mem_cons_of_mem _ hi))) hlaunch hlater
    rw [hend] at hstill
    cases hstill
  · omega

end Late

section Fresh

/-- No two processes are between the time that they have read and its write. -/
def One (w : Watchdog ι) : Prop :=
  ∀ i j, (w.agents i).writing.isSome → (w.agents j).writing.isSome → i = j

/-- No process has written later than the time in the shared memory, or is about to write an earlier one. -/
structure Fresh (w : Watchdog ι) : Prop where
  written : ∀ i, (w.agents i).lastWriteTime.toInt ≤ w.shared.toInt
  writing : ∀ i time, (w.agents i).writing = some time → w.shared.toInt < time.toInt

/-- The processes take turns, so that the time in the shared memory grows. -/
theorem Fresh.step {now : ℤ} {w w' : Watchdog ι} (h : Fresh w) (hw : Sound now w) (hone : w.One)
    {event : Event ι} (hclock : event.Ticks now) (hstep : w.step event = some w') : Fresh w' := by
  have hwritten : ∀ i agent (time : ℤ), (Daemon.lastWriteTime agent).toInt ≤ time →
      (∀ j ≠ i, (w.agents j).lastWriteTime.toInt ≤ time) →
        ∀ j, (Function.update w.agents i agent j).lastWriteTime.toInt ≤ time := fun i agent time hself hothers =>
    (Function.forall_update_iff _ fun _ agent => (Daemon.lastWriteTime agent).toInt ≤ time).mpr ⟨hself, hothers⟩
  have hwriting : ∀ i agent (shared : ℤ), (∀ time, Daemon.writing agent = some time → shared < time.toInt) →
      (∀ j ≠ i, ∀ time, (w.agents j).writing = some time → shared < time.toInt) →
        ∀ j time, (Function.update w.agents i agent j).writing = some time → shared < time.toInt :=
    fun i agent shared hself hothers => (Function.forall_update_iff _ fun _ agent =>
      ∀ time, Daemon.writing agent = some time → shared < time.toInt).mpr ⟨hself, hothers⟩
  cases event with
  | launch i =>
    obtain rfl := Option.some_inj.mp hstep
    refine ⟨hwritten i _ _ hw.nonneg fun j _ => h.written j, hwriting i _ _ ?_ fun j _ => h.writing j⟩
    rintro time ⟨⟩
  | read i turn =>
    obtain ⟨hidle, rfl⟩ := step_read hstep
    obtain ⟨-, hkept, hcases⟩ := (hw.agents i).read hclock hidle
    refine ⟨hwritten i _ _ (by rw [hkept]; exact h.written i) fun j _ => h.written j,
      hwriting i _ _ ?_ fun j _ => h.writing j⟩
    intro time htime
    rcases hcases with ⟨hreads, -⟩ | ⟨hnone, -⟩
    · obtain rfl := Option.some_inj.mp (htime.symm.trans hreads)
      exact hw.shared_le.trans_lt hclock
    · rw [hnone] at htime
      cases htime
  | write i =>
    obtain ⟨written, hwrites, rfl⟩ := step_write hstep
    have hgrows := h.writing i written hwrites
    refine ⟨hwritten i _ _ le_rfl fun j _ => (h.written j).trans hgrows.le, hwriting i _ _ ?_ ?_⟩
    · rintro time ⟨⟩
    · intro j hji time hj
      exact absurd (hone j i (by rw [hj]; rfl) (by rw [hwrites]; rfl)) hji
  | compare =>
    obtain rfl := Option.some_inj.mp hstep
    exact ⟨h.written, h.writing⟩
  | keep =>
    obtain rfl := Option.some_inj.mp hstep
    exact ⟨h.written, h.writing⟩

/-- Over a run in which they take turns, the time in the shared memory is the last that was written. -/
theorem Fresh.run {now : ℤ} {w w' : Watchdog ι} (h : Fresh w) (hw : Sound now w) {events : List (Event ι)}
    (hclock : (now :: readings events).IsChain (· < ·))
    (hone : ∀ done rest v, events = done ++ rest → w.run done = some v → v.One)
    (hrun : w.run events = some w') : Fresh w' := by
  induction events generalizing now w with
  | nil =>
    obtain rfl := Option.some_inj.mp hrun
    exact h
  | cons event events ih =>
    obtain ⟨v, hstep, hrest⟩ := run_cons hrun
    obtain ⟨htick, hchain, -⟩ := ticks_cons hclock
    refine ih (h.step hw (hone [] _ w rfl rfl) htick hstep) (hw.step htick hstep) hchain ?_ hrest
    intro done rest u hevents hdone
    refine hone (event :: done) rest u (by rw [hevents, List.cons_append]) ?_
    rw [Watchdog.run, List.foldlM_cons, hstep]
    exact hdone

end Fresh

/-- Between the time that the watchdog keeps and the next one that it finds, with a clock that goes on at every
reading: the command is executed exactly if no process writes. One of them writes if a pass reads a time more
than half a second after those that were read before, and ends. And if no two processes are in a pass at once,
a pass that writes nothing finds a time that is at most half a second old. -/
theorem compare_verdict {stamp : Int64} (hstamp : 0 ≤ stamp.toInt) {before between : List (Event ι)}
    {w : Watchdog ι} (hrun : (start stamp).run (before ++ .keep :: between) = some w)
    (hclock : (stamp.toInt :: readings (before ++ .keep :: between)).IsChain (· < ·))
    (hbetween : .keep ∉ between) :
    (∃ v, w.step .compare = some v ∧
      ((∀ i, .write i ∉ between) → v.executed = w.executed + 1) ∧
      ((∃ i, .write i ∈ between) → v.executed = w.executed)) ∧
    (∀ i turn earlier later, between = earlier ++ .read i turn :: later →
      latest stamp.toInt before + 500000 < turn.time → .launch i ∉ later → (w.agents i).writing = none →
        ∃ j, .write j ∈ between) ∧
    ((∀ done rest v, before ++ .keep :: between = done ++ rest → (start stamp).run done = some v → v.One) →
      ∀ i turn v, latest stamp.toInt (before ++ .keep :: between) < turn.time →
        w.step (.read i turn) = some v → (v.agents i).writing = none →
          turn.time ≤ v.shared.toInt + 500000) := by
  have hstart : Sound stamp.toInt (start stamp : Watchdog ι) := sound_start hstamp
  obtain ⟨u, hbefore, hrest⟩ := run_append hrun
  obtain ⟨kept, hkept, hrest⟩ := run_cons hrest
  obtain rfl := Option.some_inj.mp hkept
  have hclocks := hclock
  rw [readings_append] at hclocks
  have hu := hstart.run hclocks.left_of_append hbefore
  have hchain : (latest stamp.toInt before :: readings between).IsChain (· < ·) := isChain_of_append hclocks
  have hkeptSound : Sound (latest stamp.toInt before) { u with last := u.shared } :=
    ⟨hu.nonneg, hu.shared_le, hu.agents, hu.fresh, hu.distinct⟩
  have hsince : Since False { u with last := u.shared } := ⟨by simp, hu.fresh⟩
  have hverdict := (hsince.run hkeptSound hu.shared_le hchain hbetween hrest).shared
  rw [false_or] at hverdict
  refine ⟨⟨_, rfl, ?_, ?_⟩, ?_, ?_⟩
  · intro hquiet
    exact if_pos (hverdict.mpr (not_exists.mpr hquiet))
  · intro hwrote
    exact if_neg (mt hverdict.mp (not_not.mpr hwrote))
  · rintro i turn earlier later rfl hlate hlaunch hend
    exact exists_write hkeptSound hchain hlate hlaunch hrest hend
  · intro hone i turn v hnow hread hend
    have hfresh := (show Fresh (start stamp) from ⟨fun _ => hstamp, fun _ _ h => by cases h⟩).run hstart hclock
      hone hrun
    obtain ⟨hidle, rfl⟩ := step_read hread
    obtain ⟨-, -, hcases⟩ := ((hstart.run hclock hrun).agents i).read hnow hidle
    have hwritten := hfresh.written i
    rcases hcases with ⟨hwriting, -⟩ | ⟨-, hrecent⟩
    · simp [hwriting] at hend
    · dsimp only
      omega

/-- A process that hangs: the watchdog does not execute its command at first, and then does. -/
theorem compare_verdict_hang :
    let before : List (Event Unit) := [.launch (), .read () ⟨1700000000000000, 1700000000000000⟩, .write ()]
    let between : List (Event Unit) := [.read () ⟨1700000000400000, 1700000000400000⟩,
      .read () ⟨1700000000600000, 1700000000600000⟩, .write ()]
    ∃ w v, (start 0).run (before ++ .keep :: between) = some w ∧ w.step .compare = some v ∧
      v.executed = w.executed ∧
      ∃ hung v', (start 0).run ((before ++ .keep :: between ++ [.compare]) ++ .keep :: []) = some hung ∧
        hung.step .compare = some v' ∧ v'.executed = hung.executed + 1 := by
  intro before between
  obtain ⟨w, hw⟩ := Option.isSome_iff_exists.mp
    (show ((start 0).run (before ++ .keep :: between)).isSome by decide)
  obtain ⟨hung, hhung⟩ := Option.isSome_iff_exists.mp
    (show ((start 0).run ((before ++ .keep :: between ++ [.compare]) ++ .keep :: [])).isSome by decide)
  obtain ⟨⟨v, hv, -, hquiet⟩, -⟩ := compare_verdict (by decide) hw (by decide) (by decide)
  obtain ⟨⟨v', hv', hexecuted, -⟩, -⟩ := compare_verdict (by decide) hhung (by decide) (by decide)
  exact ⟨w, v, hw, hv, hquiet ⟨(), by decide⟩, hung, v', hhung, hv', hexecuted fun _ => List.not_mem_nil⟩

end Watchdog

end CrosschainAgent
