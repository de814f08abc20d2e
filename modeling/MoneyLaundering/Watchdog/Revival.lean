import MoneyLaundering.Watchdog.HealthMonitor

/-!
# When a node is revived

The monitor counts, for each node, the rounds in which the node did not answer, and revives it when
there are `maxRetries` of them. An answer and a revival set the count back to zero; `start` does
not. The counts are kept from one term of a leader to its next one, so a node can be revived for
rounds that a monitor missed long ago.

`Watched` is a monitor with the history of its rounds. `unanswered` counts in the history what a
round should count: the rounds of the current term since the node last answered or was revived.
`revival_threshold` says that the two agree exactly as long as `start` finds all counts at zero.
-/

namespace MoneyLaundering

open EventRuns

namespace HealthMonitor

variable {H : Type} [DecidableEq H] {cfg : MonitorConfig H}

/-! ## One round -/

/-- The count of a node after a round. -/
def countAfter (cfg : MonitorConfig H) (missCount : H → ℕ) (responded : List H) (node : H) : ℕ :=
  if node ∈ responded ∨ cfg.maxRetries ≤ missCount node + 1 then 0 else missCount node + 1

theorem foldl_processResult (responded : List H) {hosts : List H} (hnodup : hosts.Nodup)
    (missCount : H → ℕ) (revived : List H) :
    hosts.foldl (processResult cfg responded) (missCount, revived)
      = (fun node ↦ if node ∈ hosts then countAfter cfg missCount responded node
            else missCount node,
          revived ++ hosts.filter fun node ↦
            node ∉ responded ∧ cfg.maxRetries ≤ missCount node + 1) := by
  induction hosts generalizing missCount revived with
  | nil => simp
  | cons host hosts ih =>
    obtain ⟨hhost, hnodup⟩ := List.nodup_cons.mp hnodup
    -- the counts of the other nodes are not touched before their turn
    have hrest : ∀ (count : ℕ) (revived : List H),
        hosts.foldl (processResult cfg responded) (Function.update missCount host count, revived)
          = (fun node ↦ if node = host then count else if node ∈ hosts then
                countAfter cfg missCount responded node else missCount node,
              revived ++ hosts.filter fun node ↦
                node ∉ responded ∧ cfg.maxRetries ≤ missCount node + 1) := by
      intro count revived
      rw [ih hnodup, Prod.mk.injEq]
      constructor
      · funext node
        by_cases hnode : node = host
        · subst hnode
          rw [if_neg hhost, if_pos rfl, Function.update_self]
        · rw [if_neg hnode, countAfter, countAfter, Function.update_of_ne hnode]
      · refine congrArg (revived ++ ·) (List.filter_congr fun node hnode ↦ ?_)
        rw [Function.update_of_ne (ne_of_mem_of_not_mem hnode hhost)]
    have hcounts : ∀ count, countAfter cfg missCount responded host = count →
        (fun node ↦ if node = host then count else if node ∈ hosts then
            countAfter cfg missCount responded node else missCount node)
          = fun node ↦ if node ∈ host :: hosts then countAfter cfg missCount responded node
              else missCount node := by
      intro count hcount
      funext node
      by_cases hnode : node = host
      · subst hnode
        rw [if_pos rfl, if_pos List.mem_cons_self, hcount]
      · rw [if_neg hnode]
        simp only [List.mem_cons, hnode, false_or]
    rw [List.foldl_cons, processResult]
    by_cases hresponded : host ∈ responded
    · rw [if_pos hresponded, hrest, hcounts 0 (if_pos (Or.inl hresponded)),
        List.filter_cons_of_neg (by simp [hresponded])]
    · rw [if_neg hresponded]
      by_cases hmissed : cfg.maxRetries ≤ missCount host + 1
      · rw [if_pos hmissed, hrest, hcounts 0 (if_pos (Or.inr hmissed)),
          List.filter_cons_of_pos (by simp [hresponded, hmissed]), List.append_assoc,
          List.singleton_append]
      · rw [if_neg hmissed, hrest, hcounts _ (if_neg (not_or.mpr ⟨hresponded, hmissed⟩)),
          List.filter_cons_of_neg (by simp [hmissed])]

/-- **What a round does**: the counts after it, and the nodes it revives. -/
theorem processResults_eq (hnodup : cfg.monitoredHosts.Nodup) (missCount : H → ℕ)
    (responded : List H) :
    processResults cfg missCount responded
      = (fun node ↦ if node ∈ cfg.monitoredHosts then countAfter cfg missCount responded node
            else missCount node,
          cfg.monitoredHosts.filter fun node ↦
            node ∉ responded ∧ cfg.maxRetries ≤ missCount node + 1) := by
  rw [processResults, foldl_processResult responded hnodup, List.nil_append]

theorem countAfter_lt (hretries : 0 < cfg.maxRetries) (missCount : H → ℕ) (responded : List H)
    (node : H) : countAfter cfg missCount responded node < cfg.maxRetries := by
  rw [countAfter]
  split
  · exact hretries
  · next h => exact Nat.lt_of_not_le (not_or.mp h).2

omit [DecidableEq H] in
/-- Whether the thread is about to go through the results of a round. -/
theorem processing_or (m : HealthMonitor H) :
    (∃ responded, m.thread = some (.processingResults responded)) ∨
      ∀ responded, m.thread ≠ some (.processingResults responded) := by
  by_cases h : ∃ responded, m.thread = some (.processingResults responded)
  · exact Or.inl h
  · exact Or.inr (not_exists.mp h)

theorem missCount_advance_processing {m : HealthMonitor H} {responded answers : List H}
    (h : m.thread = some (.processingResults responded)) :
    (advance cfg answers m).missCount = (processResults cfg m.missCount responded).1 := by
  simp only [advance, h]

theorem missCount_advance {m : HealthMonitor H} (answers : List H)
    (h : ∀ responded, m.thread ≠ some (.processingResults responded)) :
    (advance cfg answers m).missCount = m.missCount := by
  unfold advance
  split
  · rfl
  · rfl
  · rfl
  · rfl
  · rfl
  · next responded hthread => exact absurd hthread (h responded)
  · rfl

end HealthMonitor

/-! ## Histories -/

/-- What matters of the past of a monitor. -/
inductive Happening (H : Type)
  /-- `start` has created a thread. -/
  | began
  /-- The nodes that answered in a round, and those that were revived. -/
  | round (responded revived : List H)
  deriving DecidableEq, Repr

/-- How often the node has not answered in a row: in the current term, since its last answer and
since it was revived last. The last happening comes first. -/
def unanswered {H : Type} [DecidableEq H] (node : H) : List (Happening H) → ℕ
  | [] => 0
  | .began :: _ => 0
  | .round responded revived :: history =>
    if node ∈ responded ∨ node ∈ revived then 0 else unanswered node history + 1

/-- In each round of the history, a node was revived if and only if it was the `maxRetries`-th round
in a row without an answer from it. -/
def RevivedInTime {H : Type} [DecidableEq H] (cfg : MonitorConfig H) : List (Happening H) → Prop
  | [] => True
  | .began :: history => RevivedInTime cfg history
  | .round responded revived :: history =>
    (∀ node, node ∈ revived ↔ node ∈ cfg.monitoredHosts ∧ node ∉ responded ∧
      unanswered node history + 1 = cfg.maxRetries) ∧ RevivedInTime cfg history

/-- A monitor with its history. -/
structure Watched (H : Type) where
  status : MonitorRun H
  history : List (Happening H)

namespace Watched

open HealthMonitor

variable {H : Type} [DecidableEq H] (cfg : MonitorConfig H)

def init (H : Type) : Watched H := ⟨MonitorRun.init H, []⟩

/-- What the event adds to the history. -/
def happenings (r : MonitorRun H) : MonitorRun.Event H → List (Happening H)
  | .spawn => [.began]
  | .thread _ =>
    match r.monitor.thread with
    | some (.processingResults responded) =>
      [.round responded (processResults cfg r.monitor.missCount responded).2]
    | _ => []
  | .start | .clear | .stop | .close => []

def step (s : Watched H) (event : MonitorRun.Event H) : Watched H where
  status := s.status.step cfg event
  history := happenings cfg s.status event ++ s.history

def Enabled (s : Watched H) (event : MonitorRun.Event H) : Prop := s.status.Enabled event

/-- When `start` creates a thread, no misses are pending. -/
def Fresh (s : Watched H) : MonitorRun.Event H → Prop
  | .spawn => ∀ node ∈ cfg.monitoredHosts, s.status.monitor.missCount node = 0
  | .start | .clear | .stop | .close | .thread _ => True

instance (s : Watched H) : DecidablePred s.Enabled := fun event ↦
  inferInstanceAs (Decidable (s.status.Enabled event))

instance (s : Watched H) : DecidablePred (s.Fresh cfg)
  | .spawn => inferInstanceAs (Decidable (∀ node ∈ cfg.monitoredHosts, _))
  | .start | .clear | .stop | .close | .thread _ => inferInstanceAs (Decidable True)

variable {cfg} {s : Watched H}

/-! ## Runs -/

/-- The invariant of all runs: a count that has reached the limit has been set back. -/
structure Bounded (cfg : MonitorConfig H) (s : Watched H) : Prop where
  lt : ∀ node ∈ cfg.monitoredHosts, s.status.monitor.missCount node < cfg.maxRetries
  cleared : s.status.call = .cleared → s.status.monitor.stopEvent = false

/-- The counts are those of the history, in which every revival was in time. -/
structure Counted (cfg : MonitorConfig H) (s : Watched H) : Prop extends Bounded cfg s where
  counts : ∀ node ∈ cfg.monitoredHosts, s.status.monitor.missCount node = unanswered node s.history
  inTime : RevivedInTime cfg s.history

omit [DecidableEq H] in
theorem bounded_init (hretries : 0 < cfg.maxRetries) : Bounded cfg (init H) where
  lt _ _ := hretries
  cleared hcall := absurd hcall (by simp [init, MonitorRun.init])

theorem counted_init (hretries : 0 < cfg.maxRetries) : Counted cfg (init H) where
  toBounded := bounded_init hretries
  counts _ _ := rfl
  inTime := trivial

omit [DecidableEq H] in
/-- A call that has cleared the event is not interrupted by another one. -/
theorem not_cleared_of_idle {r : MonitorRun H} (hidle : r.call = .idle) {P : Prop} :
    r.call = .cleared → P := fun hcleared ↦
  absurd (hidle.symm.trans hcleared) (by simp)

/-- **One step of any run.** -/
theorem Bounded.step (hnodup : cfg.monitoredHosts.Nodup) (hretries : 0 < cfg.maxRetries)
    (h : Bounded cfg s) {event : MonitorRun.Event H} (henabled : s.Enabled event) :
    Bounded cfg (s.step cfg event) := by
  match event with
  | .start =>
    have hidle : s.status.call = .idle := henabled
    rw [Watched.step, MonitorRun.step]
    split
    · exact ⟨h.lt, not_cleared_of_idle hidle⟩
    · exact ⟨h.lt, fun hcall ↦ absurd hcall (by simp)⟩
  | .clear => exact ⟨h.lt, fun _ ↦ rfl⟩
  | .spawn => exact ⟨h.lt, fun hcall ↦ absurd hcall (by simp [Watched.step, MonitorRun.step])⟩
  | .stop | .close =>
    have hidle : s.status.call = .idle := henabled
    exact ⟨h.lt, not_cleared_of_idle hidle⟩
  | .thread answers =>
    refine ⟨fun node hnode ↦ ?_, fun hcall ↦ (stopEvent_advance answers).trans (h.cleared hcall)⟩
    rw [Watched.step, MonitorRun.step]
    rcases processing_or s.status.monitor with ⟨responded, hthread⟩ | hthread
    · rw [missCount_advance_processing hthread, processResults_eq hnodup]
      simp only [if_pos hnode]
      exact countAfter_lt hretries _ _ _
    · rw [missCount_advance answers hthread]
      exact h.lt node hnode

/-- The nodes that a round revives, when the counts are those of the history. -/
theorem Counted.mem_revived_iff (hnodup : cfg.monitoredHosts.Nodup) (h : Counted cfg s)
    (responded : List H) (node : H) :
    node ∈ (processResults cfg s.status.monitor.missCount responded).2
      ↔ node ∈ cfg.monitoredHosts ∧ node ∉ responded ∧
        unanswered node s.history + 1 = cfg.maxRetries := by
  rw [processResults_eq hnodup, List.mem_filter, decide_eq_true_eq]
  refine and_congr_right fun hnode ↦ and_congr_right fun _ ↦ ?_
  rw [← h.counts node hnode]
  have hlt := h.lt node hnode
  omega

/-- **One step** of a run in which no misses are pending when a thread is created. -/
theorem Counted.step (hnodup : cfg.monitoredHosts.Nodup) (hretries : 0 < cfg.maxRetries)
    (h : Counted cfg s) {event : MonitorRun.Event H} (henabled : s.Enabled event)
    (hfresh : s.Fresh cfg event) : Counted cfg (s.step cfg event) := by
  refine ⟨h.toBounded.step hnodup hretries henabled, ?_, ?_⟩
  · intro node hnode
    match event with
    | .start =>
      rw [Watched.step, MonitorRun.step]
      split <;> exact h.counts node hnode
    | .clear | .stop | .close => exact h.counts node hnode
    | .spawn => exact hfresh node hnode
    | .thread answers =>
      rw [Watched.step, MonitorRun.step]
      rcases processing_or s.status.monitor with ⟨responded, hthread⟩ | hthread
      · have hrevived := h.mem_revived_iff hnodup responded node
        rw [missCount_advance_processing hthread]
        simp only [happenings, hthread, List.singleton_append, unanswered]
        rw [processResults_eq hnodup] at hrevived ⊢
        simp only [countAfter, h.counts node hnode, List.mem_filter, hnode,
          true_and, decide_eq_true_eq]
        by_cases hresponded : node ∈ responded <;> simp [hresponded]
      · rw [missCount_advance answers hthread]
        have hnothing : happenings cfg s.status (.thread answers) = [] := by
          rw [happenings]
          split
          · next responded h => exact absurd h (hthread responded)
          · rfl
        rw [hnothing]
        exact h.counts node hnode
  · match event with
    | .start | .clear | .stop | .close | .spawn => exact h.inTime
    | .thread answers =>
      rw [Watched.step, happenings]
      split
      · next responded _ => exact ⟨h.mem_revived_iff hnodup responded, h.inTime⟩
      · exact h.inTime

theorem bounded_run (hnodup : cfg.monitoredHosts.Nodup) (hretries : 0 < cfg.maxRetries)
    {events : List (MonitorRun.Event H)} (hruns : Runs (step cfg) Enabled (init H) events) :
    Bounded cfg (run (step cfg) (init H) events) :=
  hruns.run_of_invariant (fun _ _ h henabled ↦ h.step hnodup hretries henabled)
    (bounded_init hretries)

theorem counted_run (hnodup : cfg.monitoredHosts.Nodup) (hretries : 0 < cfg.maxRetries)
    {events : List (MonitorRun.Event H)} (hruns : Runs (step cfg) Enabled (init H) events)
    (hfresh : Runs (step cfg) (Fresh cfg) (init H) events) :
    Counted cfg (run (step cfg) (init H) events) :=
  (hruns.and hfresh).run_of_invariant
    (fun _ _ h hcond ↦ h.step hnodup hretries hcond.1 hcond.2) (counted_init hretries)

/-! ## Rounds without answers -/

/-- The steps of the thread in some rounds in which nobody answers. -/
def silence (H : Type) : ℕ → List (List H)
  | 0 => []
  | k + 1 => [[], [], [], [], []] ++ silence H k

theorem run_silentRound (hthread : s.status.monitor.thread = some .testing)
    (hstop : s.status.monitor.stopEvent = false) :
    let results := processResults cfg s.status.monitor.missCount []
    run (step cfg) s (([[], [], [], [], []] : List (List H)).map .thread)
      = { status := { s.status with
            monitor := { s.status.monitor with missCount := results.1, thread := some .testing } }
          history := .round [] results.2 :: s.history } := by
  obtain ⟨⟨⟨stopEvent, missCount, thread⟩, call, started⟩, history⟩ := s
  obtain rfl : thread = some .testing := hthread
  obtain rfl : stopEvent = false := hstop
  rfl

/-- A node that never answers is revived when its count says so. If that is in time, the history
says so as well. -/
theorem unanswered_of_silence (hnodup : cfg.monitoredHosts.Nodup) {node : H}
    (hnode : node ∈ cfg.monitoredHosts) {k : ℕ} (hthread : s.status.monitor.thread = some .testing)
    (hstop : s.status.monitor.stopEvent = false)
    (hcount : s.status.monitor.missCount node + (k + 1) = cfg.maxRetries)
    (hinTime : RevivedInTime cfg
      (run (step cfg) s ((silence H (k + 1)).map .thread)).history) :
    unanswered node s.history + (k + 1) = cfg.maxRetries := by
  have hrevived : node ∈ (processResults cfg s.status.monitor.missCount []).2
      ↔ cfg.maxRetries ≤ s.status.monitor.missCount node + 1 := by
    rw [processResults_eq hnodup]
    simp [hnode]
  induction k generalizing s with
  | zero =>
    rw [silence, List.map_append, run_append, run_silentRound hthread hstop] at hinTime
    exact ((hinTime.1 node).mp (hrevived.mpr (Nat.le_of_eq hcount.symm))).2.2
  | succ k ih =>
    rw [silence, List.map_append, run_append, run_silentRound hthread hstop] at hinTime
    have hmissed : ¬cfg.maxRetries ≤ s.status.monitor.missCount node + 1 := by omega
    have hcount' : (processResults cfg s.status.monitor.missCount []).1 node
        = s.status.monitor.missCount node + 1 := by
      rw [processResults_eq hnodup]
      simp [hnode, countAfter, hmissed]
    have hnext : ∀ counts : H → ℕ, node ∈ (processResults cfg counts []).2
        ↔ cfg.maxRetries ≤ counts node + 1 := by
      intro counts
      rw [processResults_eq hnodup]
      simp [hnode]
    have hlast := ih ?_ ?_ ?_ hinTime (hnext _)
    · rw [unanswered, if_neg (by simp [hrevived, hmissed])] at hlast
      omega
    · rfl
    · exact hstop
    · simp only [hcount']
      omega

/-- **A node is revived in time exactly when every term begins with all counts at zero.** In a run
of `start`, `stop` and `close` calls and of the thread, no misses are pending whenever `start`
creates a thread, if and only if at every point of the run, whatever the nodes answer in the rounds
from then on, every round revives the nodes that have not answered for `maxRetries` rounds in a row,
counting the rounds of the term since their last answer and revival. -/
theorem revival_threshold (hnodup : cfg.monitoredHosts.Nodup) (hretries : 1 ≤ cfg.maxRetries)
    {events : List (MonitorRun.Event H)} (hruns : Runs (step cfg) Enabled (init H) events) :
    Runs (step cfg) (Fresh cfg) (init H) events
      ↔ ∀ past rest, events = past ++ rest → ∀ answers : List (List H),
        RevivedInTime cfg (run (step cfg) (init H) (past ++ answers.map .thread)).history := by
  constructor
  · rintro hfresh past rest rfl answers
    refine (counted_run hnodup hretries (runs_append.mpr ⟨(runs_append.mp hruns).1, ?_⟩)
      (runs_append.mpr ⟨(runs_append.mp hfresh).1, ?_⟩)).inTime
    · refine runs_of_forall fun event hevent s ↦ ?_
      obtain ⟨responded, -, rfl⟩ := List.mem_map.mp hevent
      exact trivial
    · refine runs_of_forall fun event hevent s ↦ ?_
      obtain ⟨responded, -, rfl⟩ := List.mem_map.mp hevent
      exact trivial
  · intro hinTime
    refine runs_iff.mpr fun past event rest heq ↦ ?_
    match event with
    | .start | .clear | .stop | .close | .thread _ => exact trivial
    | .spawn =>
      intro node hnode
      rw [heq] at hruns
      obtain ⟨hpast, hspawn, -⟩ := runs_append.mp hruns
      have hbounded := bounded_run hnodup hretries hpast
      have hlt := hbounded.lt node hnode
      by_contra hpending
      -- nobody answers any more, and the node is revived too early
      obtain ⟨k, hk⟩ := Nat.exists_eq_add_of_lt hlt
      have hthen := hinTime (past ++ [.spawn]) rest (by simp [heq]) (silence H (k + 1))
      rw [run_append, run_append] at hthen
      have hcount : 0 + (k + 1) = cfg.maxRetries :=
        unanswered_of_silence (s := run (step cfg) (run (step cfg) (init H) past) [.spawn]) hnodup
          hnode rfl (hbounded.cleared hspawn) (by rw [hk, Nat.add_assoc]; rfl) hthen
      omega

/-- A term in which a node misses a round, and the next one. -/
def carriedMiss : List (MonitorRun.Event String) :=
  [.start, .clear, .spawn, .thread [], .thread [], .thread [], .thread [], .stop, .thread [],
    .thread [], .start, .clear, .spawn, .thread [], .thread [], .thread [], .thread []]

/-- The node is revived in the first round of the second term, for the round it missed in the
first. -/
theorem revived_early : Runs (step ⟨["gateway"], 2⟩) Enabled (init String) carriedMiss ∧
    ¬RevivedInTime ⟨["gateway"], 2⟩
      (run (step ⟨["gateway"], 2⟩) (init String) carriedMiss).history := by
  refine ⟨by decide, fun h ↦ ?_⟩
  have hround := (h.1 "gateway").mp (by decide)
  exact absurd hround.2.2 (by decide)

/-- A term of two rounds, of which nobody answers the first one, and the beginning of the next
term. -/
def twoTerms : List (MonitorRun.Event String) :=
  [.start, .clear, .spawn] ++ [[], [], [], [], [], [], [], ["gateway"], []].map .thread
    ++ [.stop, .thread [], .thread [], .start, .clear, .spawn]

/-- In each of two terms both nodes miss the first round, and the one that misses the second round
as well is revived. -/
theorem revival_threshold_twoTerms :
    let s := run (step ⟨["gateway", "joiner"], 2⟩) (init String)
      (twoTerms ++ [[], [], [], [], [], [], [], ["joiner"], []].map .thread)
    s.history = [.round ["joiner"] ["gateway"], .round [] [], .began,
        .round ["gateway"] ["joiner"], .round [] [], .began] ∧
      RevivedInTime ⟨["gateway", "joiner"], 2⟩ s.history :=
  ⟨by decide, (revival_threshold (by decide) (by decide) (by decide)).mp (by decide) _ []
    (List.append_nil _).symm _⟩

end Watched

end MoneyLaundering
