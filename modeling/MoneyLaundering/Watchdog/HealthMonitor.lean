import MoneyLaundering.Collections.EventRuns
import Mathlib.Logic.Function.Basic
import Mathlib.Data.List.Basic

/-!
# The monitor thread

The watchdog that leads pings the nodes (`watchdog/internal/health_monitor.py`). A thread does it,
round after round, until an event tells it to stop; `start` is called when the watchdog becomes the
leader and `stop` when it becomes a follower. `stop` does not wait for the thread, and `start` does
nothing while it is alive.

So a `start` that comes while the thread is still in the round in which it was stopped returns
without any effect (`start_ignored`), and this is the only way in which a leading watchdog does not
monitor: `monitors_iff`. The sockets and the times of the waits are left out; a round may collect
the pongs of any nodes.
-/

namespace MoneyLaundering

open EventRuns

structure MonitorConfig (H : Type) where
  monitoredHosts : List H
  maxRetries : ℕ

/-- Where the thread is in `_run`, or that it has returned. -/
inductive MonitorThread (H : Type)
  /-- Before the test of the stop event. -/
  | testing
  | sendingPings
  | collectingPongs
  | processingResults (responded : List H)
  | waiting
  | finished
  deriving DecidableEq, Repr

structure HealthMonitor (H : Type) where
  stopEvent : Bool
  missCount : H → ℕ
  thread : Option (MonitorThread H)

namespace HealthMonitor

variable {H : Type} [DecidableEq H] (cfg : MonitorConfig H)

def init (H : Type) : HealthMonitor H where
  stopEvent := true
  missCount := fun _ ↦ 0
  thread := none

/-- One node in the loop of `_process_results`: the counts, and the nodes that were revived. -/
def processResult (responded : List H) (result : (H → ℕ) × List H) (node : H) :
    (H → ℕ) × List H :=
  if node ∈ responded then (Function.update result.1 node 0, result.2)
  else
    let missed := result.1 node + 1
    if cfg.maxRetries ≤ missed then (Function.update result.1 node 0, result.2 ++ [node])
    else (Function.update result.1 node missed, result.2)

def processResults (missCount : H → ℕ) (responded : List H) : (H → ℕ) × List H :=
  cfg.monitoredHosts.foldl (processResult cfg responded) (missCount, [])

def Alive (m : HealthMonitor H) : Prop := m.thread ≠ none ∧ m.thread ≠ some .finished

instance (m : HealthMonitor H) : Decidable m.Alive :=
  inferInstanceAs (Decidable (m.thread ≠ none ∧ m.thread ≠ some .finished))

/-- One step of the thread. `responded` are the nodes that answer, where the thread collects
pongs. -/
def advance (responded : List H) (m : HealthMonitor H) : HealthMonitor H :=
  match m.thread with
  | none | some .finished => m
  | some .testing => { m with thread := some (if m.stopEvent then .finished else .sendingPings) }
  | some .sendingPings => { m with thread := some .collectingPongs }
  | some .collectingPongs => { m with thread := some (.processingResults responded) }
  | some (.processingResults responded) =>
    { m with missCount := (processResults cfg m.missCount responded).1, thread := some .waiting }
  | some .waiting => { m with thread := some .testing }

/-- Some steps of the thread on its own. -/
def rounds (responded : ℕ → List H) (m : HealthMonitor H) : ℕ → HealthMonitor H
  | 0 => m
  | k + 1 => advance cfg (responded k) (rounds responded m k)

/-- The thread is alive, it is not told to stop, and whatever answers it gets it pings again. -/
structure Monitoring (m : HealthMonitor H) : Prop where
  clear : m.stopEvent = false
  alive : m.Alive
  pings : ∀ responded, ∃ k, 0 < k ∧ (rounds cfg responded m k).thread = some .sendingPings

end HealthMonitor

/-- Where the caller is in `start`, if it is. -/
inductive StartCall
  | idle
  /-- No thread was alive. -/
  | checked
  /-- The event is cleared. -/
  | cleared
  deriving DecidableEq, Repr

/-- The monitor, with the thread that calls `start` and `stop`. -/
structure MonitorRun (H : Type) where
  monitor : HealthMonitor H
  call : StartCall
  /-- A `start` has returned, and neither `stop` nor `close` was called since. -/
  started : Bool

namespace MonitorRun

open HealthMonitor

/-- The steps of the caller and of the monitor thread, in any order. -/
inductive Event (H : Type)
  | start
  | clear
  | spawn
  | stop
  | close
  | thread (responded : List H)
  deriving DecidableEq, Repr

variable {H : Type} [DecidableEq H] (cfg : MonitorConfig H)

def init (H : Type) : MonitorRun H where
  monitor := HealthMonitor.init H
  call := .idle
  started := false

def step (r : MonitorRun H) : Event H → MonitorRun H
  | .start => if r.monitor.Alive then { r with started := true } else { r with call := .checked }
  | .clear => { r with monitor := { r.monitor with stopEvent := false }, call := .cleared }
  | .spawn =>
    { monitor := { r.monitor with thread := some .testing }
      call := .idle
      started := true }
  | .stop => { r with monitor := { r.monitor with stopEvent := true }, started := false }
  | .close => { r with monitor := { r.monitor with stopEvent := true }, started := false }
  | .thread responded => { r with monitor := advance cfg responded r.monitor }

/-- The calls are made one after the other. -/
def Enabled (r : MonitorRun H) : Event H → Prop
  | .start | .stop | .close => r.call = .idle
  | .clear => r.call = .checked
  | .spawn => r.call = .cleared
  | .thread _ => True

/-- `start` is not called while a thread that was told to stop is still alive. -/
def Settled (r : MonitorRun H) : Event H → Prop
  | .start => ¬(r.monitor.Alive ∧ r.monitor.stopEvent = true)
  | .clear | .spawn | .stop | .close | .thread _ => True

instance (r : MonitorRun H) : DecidablePred r.Enabled
  | .start | .stop | .close => inferInstanceAs (Decidable (r.call = .idle))
  | .clear => inferInstanceAs (Decidable (r.call = .checked))
  | .spawn => inferInstanceAs (Decidable (r.call = .cleared))
  | .thread _ => inferInstanceAs (Decidable True)

instance (r : MonitorRun H) : DecidablePred r.Settled
  | .start => inferInstanceAs (Decidable (¬(r.monitor.Alive ∧ r.monitor.stopEvent = true)))
  | .clear | .spawn | .stop | .close | .thread _ => inferInstanceAs (Decidable True)

/-- A leading watchdog monitors. -/
def Monitors (r : MonitorRun H) : Prop := r.started = true → r.monitor.Monitoring cfg

end MonitorRun

/-! ## The thread -/

namespace HealthMonitor

variable {H : Type} [DecidableEq H] {cfg : MonitorConfig H} {m : HealthMonitor H}

theorem stopEvent_advance (responded : List H) :
    (advance cfg responded m).stopEvent = m.stopEvent := by
  unfold advance
  split <;> rfl

/-- A thread that is not told to stop stays alive. -/
theorem Alive.advance (halive : m.Alive) (hclear : m.stopEvent = false) (responded : List H) :
    (advance cfg responded m).Alive := by
  obtain ⟨hne, hunfinished⟩ := halive
  unfold HealthMonitor.advance
  split
  · exact ⟨hne, hunfinished⟩
  · exact ⟨hne, hunfinished⟩
  all_goals simp [Alive, hclear]

/-- A thread that has returned is not alive again. -/
theorem not_alive_advance (hdead : ¬m.Alive) (responded : List H) :
    ¬(advance cfg responded m).Alive := by
  unfold HealthMonitor.advance
  split
  · exact hdead
  · exact hdead
  all_goals
    rename_i hthread
    exact absurd ⟨by simp [hthread], by simp [hthread]⟩ hdead

/-- **A live thread that is not told to stop pings again.** -/
theorem monitoring_of_alive (hclear : m.stopEvent = false) (halive : m.Alive) :
    m.Monitoring cfg where
  clear := hclear
  alive := halive
  pings responded := by
    obtain ⟨hne, hunfinished⟩ := halive
    match hthread : m.thread with
    | none => exact absurd hthread hne
    | some .finished => exact absurd hthread hunfinished
    | some .testing => exact ⟨1, by decide, by simp [rounds, advance, hthread, hclear]⟩
    | some .waiting => exact ⟨2, by decide, by simp [rounds, advance, hthread, hclear]⟩
    | some (.processingResults _) =>
      exact ⟨3, by decide, by simp [rounds, advance, hthread, hclear]⟩
    | some .collectingPongs => exact ⟨4, by decide, by simp [rounds, advance, hthread, hclear]⟩
    | some .sendingPings => exact ⟨5, by decide, by simp [rounds, advance, hthread, hclear]⟩

end HealthMonitor

/-! ## Runs -/

namespace MonitorRun

open HealthMonitor

variable {H : Type} [DecidableEq H] {cfg : MonitorConfig H} {r : MonitorRun H}

/-- The invariant of the runs in which no `start` is ignored. -/
structure Holds (r : MonitorRun H) : Prop where
  started : r.started = true → r.monitor.stopEvent = false ∧ r.monitor.Alive
  checked : r.call = .checked → ¬r.monitor.Alive
  cleared : r.call = .cleared → ¬r.monitor.Alive ∧ r.monitor.stopEvent = false

omit [DecidableEq H] in
theorem holds_init : Holds (init H) where
  started h := absurd h (by simp [init])
  checked h := absurd h (by simp [init])
  cleared h := absurd h (by simp [init])

/-- **One step.** -/
theorem Holds.step (h : Holds r) {event : Event H} (henabled : r.Enabled event)
    (hsettled : r.Settled event) : Holds (r.step cfg event) := by
  match event with
  | .start =>
    have hidle : r.call = .idle := henabled
    rw [MonitorRun.step]
    split
    · rename_i halive
      refine ⟨fun _ ↦ ⟨?_, halive⟩, fun hcall ↦ ?_, fun hcall ↦ ?_⟩
      · exact Bool.eq_false_iff.mpr fun hstop ↦ hsettled ⟨halive, hstop⟩
      · exact absurd (hidle.symm.trans hcall) (by simp)
      · exact absurd (hidle.symm.trans hcall) (by simp)
    · rename_i hdead
      exact ⟨h.started, fun _ ↦ hdead, fun hcall ↦ absurd hcall (by simp)⟩
  | .clear =>
    have hdead := h.checked henabled
    exact ⟨fun hstarted ↦ absurd (h.started hstarted).2 hdead, fun _ ↦ hdead, fun _ ↦ ⟨hdead, rfl⟩⟩
  | .spawn =>
    have hclear := (h.cleared henabled).2
    refine ⟨fun _ ↦ ⟨hclear, ?_⟩, fun hcall ↦ absurd hcall (by simp [MonitorRun.step]),
      fun hcall ↦ absurd hcall (by simp [MonitorRun.step])⟩
    simp [MonitorRun.step, Alive]
  | .stop | .close =>
    have hidle : r.call = .idle := henabled
    refine ⟨fun hstarted ↦ absurd hstarted (by simp [MonitorRun.step]), fun hcall ↦ ?_,
      fun hcall ↦ ?_⟩
    · exact absurd (hidle.symm.trans hcall) (by simp)
    · exact absurd (hidle.symm.trans hcall) (by simp)
  | .thread responded =>
    refine ⟨fun hstarted ↦ ?_, fun hcall ↦ not_alive_advance (h.checked hcall) responded,
      fun hcall ↦ ?_⟩
    · obtain ⟨hclear, halive⟩ := h.started hstarted
      exact ⟨(stopEvent_advance responded).trans hclear, halive.advance hclear responded⟩
    · obtain ⟨hdead, hclear⟩ := h.cleared hcall
      exact ⟨not_alive_advance hdead responded, (stopEvent_advance responded).trans hclear⟩

/-- **A leading watchdog monitors exactly when no `start` comes too early.** In every run, the
thread is alive and pings again after each `start` until the next `stop` or `close`, if and only if
no `start` is called while a thread that was told to stop is still alive. -/
theorem monitors_iff {events : List (Event H)}
    (hruns : Runs (step cfg) Enabled (init H) events) :
    Throughout (step cfg) (Monitors cfg) (init H) events
      ↔ Runs (step cfg) Settled (init H) events := by
  constructor
  · refine runs_of_throughout (fun r event henabled hmonitors ↦ ?_) hruns
    match event with
    | .start =>
      rintro ⟨halive, hstop⟩
      rw [MonitorRun.step, if_pos halive] at hmonitors
      exact absurd ((hmonitors rfl).clear.symm.trans hstop) (by simp)
    | .clear | .spawn | .stop | .close | .thread _ => trivial
  · intro hsettled
    refine throughout_of_invariant (fun r (h : Holds r) hstarted ↦ ?_)
      (fun r event h hcond ↦ h.step hcond.1 hcond.2) holds_init (hruns.and hsettled)
    obtain ⟨hclear, halive⟩ := h.started hstarted
    exact monitoring_of_alive hclear halive

/-- A term as the leader, with one round, and another one after the thread has returned. -/
def twoTerms : List (Event String) :=
  [.start, .clear, .spawn, .thread [], .thread [], .thread ["gateway"], .stop, .thread [],
    .thread [], .thread [], .start, .clear, .spawn]

theorem monitors_twoTerms :
    Throughout (step ⟨["gateway"], 3⟩) (Monitors ⟨["gateway"], 3⟩) (init String) twoTerms :=
  (monitors_iff (by decide)).mpr (by decide)

/-- The watchdog becomes a follower in the first round of the thread, and the leader again before
the round has ended. -/
theorem start_ignored : ∃ events : List (Event String),
    Runs (step ⟨["gateway"], 3⟩) Enabled (init String) events ∧
      ¬Throughout (step ⟨["gateway"], 3⟩) (Monitors ⟨["gateway"], 3⟩) (init String) events := by
  refine ⟨[.start, .clear, .spawn, .thread [], .stop, .start], by decide, fun h ↦ ?_⟩
  have hclear := (h.2.2.2.2.2.2 rfl).clear
  exact absurd hclear (by decide)

end MonitorRun

end MoneyLaundering
