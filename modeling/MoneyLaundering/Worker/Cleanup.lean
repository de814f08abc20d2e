import MoneyLaundering.Logging.Dropping
import MoneyLaundering.Worker.Recovery
import MoneyLaundering.Worker.SideInput

/-!
# What a cleanup leaves behind

A cleanup drops everything a worker holds for a client and appends a record that says so. On the
control channel of a stateful worker and on the main channel of a side-input worker this happens in
the middle of the generic handler, which then appends its own record. Replay finds that record after
the one that drops the client, and enters the client again: the message is seen, and the ring
counters are there, at zero.

Only a compaction gets rid of it, since it writes out the live memory, in which the client is gone.
`recovered_after_cleanup` says so exactly. The side channel of a side-input worker does not have the
problem: its handler returns without a record of its own.
-/

namespace MoneyLaundering

open WriteAhead StatefulWorker

/-! ## Stateful workers -/

variable {w : StatefulWorker} {cfg : NodeConfig} {client : ClientId}

/-- What replay makes of the handler's own record. -/
def leftBehind (w : StatefulWorker) (mid : MessageId) : Flow w.State :=
  w.replayRecord (.control (some mid) ⟨0, 0, 0⟩) w.emptyFlow

theorem leftBehind_ne (mid : MessageId) : leftBehind w mid ≠ w.emptyFlow := fun h ↦
  w.not_inFlowKeys_emptyFlow (h ▸ w.inFlowKeys_replayRecord (by simp) w.emptyFlow)

theorem mem_seen_leftBehind (mid : MessageId) : mid ∈ (leftBehind w mid).seen.mids .control :=
  Finset.mem_insert_self mid ∅

/-- A stateful worker handles a cleanup token, then messages of other clients, and is restarted,
perhaps while it handles one more of these. -/
theorem stateful_recovered {st st₁ st₂ st₃ : w.WorkerStore} {token : Token} {coordinatorId : NodeId}
    (hcoord : token.ring.coordinatorId = some coordinatorId)
    (hexp : token.ring.expectedCount = cleanupExpectedCount)
    (hseen : token.messageId ∉ (st.mem client).observe.seen .control)
    {flow : Flow w.State} {es : List (Eff w)}
    (hhandles : Handles cfg client (st.mem client) (.control token) (flow, es))
    {outs : List (Output w.Item)} {b₁ b₂ b₃ : Bool}
    (hrun : w.discipline.Outcome st client flow es none outs st₁ b₁)
    (hothers : Others w.discipline (Output w.Item) client st₁ b₂ st₂)
    (hrestart : Restarted w.discipline (Output w.Item) client st₂ b₃ st₃) :
    (st₃.mem client = if b₁ || b₂ || b₃ then w.emptyFlow else leftBehind w token.messageId) ∧
      (st₃.mem client = w.emptyFlow ↔ (b₁ || b₂ || b₃) = true) := by
  obtain ⟨msgs, -, heq⟩ := hhandles
  obtain ⟨hflow, hes⟩ := Prod.ext_iff.mp
    ((handleControlMessage_cleanup cfg client hseen hcoord hexp msgs).symm.trans heq)
  simp only at hflow hes
  subst hflow hes
  exact recovered_eq_empty_iff_compacted [] (fun _ ↦ rfl) (leftBehind_ne token.messageId)
    w.not_inFlowKeys_emptyFlow hrun hothers hrestart

/-! ## Side-input workers -/

variable {v : SideInputWorker}

/-- What replay makes of the handler's own record. -/
def sideLeftBehind (v : SideInputWorker) (mid : MessageId) : SideFlow v.Table :=
  v.replayRecord (.message mid true) v.emptyFlow

theorem mem_seen_sideLeftBehind (mid : MessageId) :
    mid ∈ (sideLeftBehind v mid).seen.mids .main := Finset.mem_insert_self mid ∅

theorem sideLeftBehind_ne (mid : MessageId) : sideLeftBehind v mid ≠ v.emptyFlow := fun h ↦ by
  have hmem := mem_seen_sideLeftBehind (v := v) mid
  rw [h] at hmem
  exact absurd hmem (Finset.notMem_empty mid)

/-- A side-input worker handles a cleanup on its main channel, then messages of other clients, and
is restarted, perhaps while it handles one more of these. -/
theorem sideInput_recovered
    {st st₁ st₂ st₃ : Store ClientId (SideFlow v.Table) (SideRecord v.SideDelta)} {mid : MessageId}
    {eof : EOF} (heof : isCleanupEof eof = true) (hseen : mid ∉ (st.mem client).seen.mids .main)
    {flow : SideFlow v.Table} {es : List (SideInputWorker.SideEff v)}
    (hhandles : SideInputWorker.handleMessage client (st.mem client) (.eof mid eof)
      = some (flow, es))
    {outs : List (SideOutput v)} {b₁ b₂ b₃ : Bool}
    (hrun : v.discipline.Outcome st client flow es none outs st₁ b₁)
    (hothers : Others v.discipline (SideOutput v) client st₁ b₂ st₂)
    (hrestart : Restarted v.discipline (SideOutput v) client st₂ b₃ st₃) :
    (st₃.mem client = if b₁ || b₂ || b₃ then v.emptyFlow else sideLeftBehind v mid) ∧
      (st₃.mem client = v.emptyFlow ↔ (b₁ || b₂ || b₃) = true) := by
  obtain ⟨hflow, hes⟩ := Prod.ext_iff.mp (Option.some.inj
    ((SideInputWorker.handleMessage_cleanup client hseen heof).symm.trans hhandles))
  simp only at hflow hes
  subst hflow hes
  exact recovered_eq_empty_iff_compacted [.discard] (fun _ ↦ rfl) (sideLeftBehind_ne mid)
    SideInputWorker.not_tracked_emptyFlow hrun hothers hrestart

/-! ## The result, for every kind of worker -/

/-- **A restart finds nothing of a client that was cleaned up exactly if the log was compacted**
after the handler that cleaned it up had appended its own record: at the end of that handler, or in
one for another client, be it the one in the course of which the process dies. Otherwise it finds
the client, and takes a second cleanup with the same id for a copy of the first. This holds of the
control channel of every kind of stateful worker and of the main channel of every kind of side-input
worker. -/
theorem recovered_after_cleanup {A : Type} [Amount A] {B : Type} [Zero B] [Mul B] [LE B]
    [DecidableLE B] [LT B] [DecidableLT B] (kind : StatefulKind) (sideKind : SideInputKind)
    (hash : String → ℕ) (paymentFormatKey : String → String) (config : Config A) (threshold : B)
    (queryId : String) (cfg : NodeConfig) (client : ClientId) :
    (∀ {st st₁ st₂ st₃ : (kind.worker hash paymentFormatKey config).WorkerStore} {token : Token}
      {coordinatorId : NodeId} {flow : Flow (kind.worker hash paymentFormatKey config).State}
      {es : List (Eff (kind.worker hash paymentFormatKey config))}
      {outs : List (Output (kind.worker hash paymentFormatKey config).Item)} {b₁ b₂ b₃ : Bool},
      token.ring.coordinatorId = some coordinatorId →
      token.ring.expectedCount = cleanupExpectedCount →
      token.messageId ∉ (st.mem client).observe.seen .control →
      Handles cfg client (st.mem client) (.control token) (flow, es) →
      (kind.worker hash paymentFormatKey config).discipline.Outcome st client flow es none outs
        st₁ b₁ →
      Others (kind.worker hash paymentFormatKey config).discipline
        (Output (kind.worker hash paymentFormatKey config).Item) client st₁ b₂ st₂ →
      Restarted (kind.worker hash paymentFormatKey config).discipline
        (Output (kind.worker hash paymentFormatKey config).Item) client st₂ b₃ st₃ →
      (st₃.mem client = (kind.worker hash paymentFormatKey config).emptyFlow
          ↔ (b₁ || b₂ || b₃) = true) ∧
        (token.messageId ∈ (st₃.mem client).seen.mids .control ↔ (b₁ || b₂ || b₃) = false)) ∧
    ∀ {st st₁ st₂ st₃ : Store ClientId
        (SideFlow (sideKind.worker paymentFormatKey threshold queryId).Table)
        (SideRecord (sideKind.worker paymentFormatKey threshold queryId).SideDelta)}
      {mid : MessageId} {eof : EOF}
      {flow : SideFlow (sideKind.worker paymentFormatKey threshold queryId).Table}
      {es : List (SideInputWorker.SideEff (sideKind.worker paymentFormatKey threshold queryId))}
      {outs : List (SideOutput (sideKind.worker paymentFormatKey threshold queryId))}
      {b₁ b₂ b₃ : Bool},
      isCleanupEof eof = true →
      mid ∉ (st.mem client).seen.mids .main →
      SideInputWorker.handleMessage client (st.mem client) (.eof mid eof) = some (flow, es) →
      (sideKind.worker paymentFormatKey threshold queryId).discipline.Outcome st client flow es none
        outs st₁ b₁ →
      Others (sideKind.worker paymentFormatKey threshold queryId).discipline
        (SideOutput (sideKind.worker paymentFormatKey threshold queryId)) client st₁ b₂ st₂ →
      Restarted (sideKind.worker paymentFormatKey threshold queryId).discipline
        (SideOutput (sideKind.worker paymentFormatKey threshold queryId)) client st₂ b₃ st₃ →
      (st₃.mem client = (sideKind.worker paymentFormatKey threshold queryId).emptyFlow
          ↔ (b₁ || b₂ || b₃) = true) ∧
        (mid ∈ (st₃.mem client).seen.mids .main ↔ (b₁ || b₂ || b₃) = false) := by
  constructor
  · intro st st₁ st₂ st₃ token coordinatorId flow es outs b₁ b₂ b₃ hcoord hexp hseen hhandles hrun
      hothers hrestart
    -- what a restart finds is empty, or has no more than the id of the cleanup
    obtain ⟨hmem, hiff⟩ := stateful_recovered hcoord hexp hseen hhandles hrun hothers hrestart
    refine ⟨hiff, ?_⟩
    rw [hmem]
    cases b₁ || b₂ || b₃
    · simpa using mem_seen_leftBehind token.messageId
    · exact iff_of_false (Finset.notMem_empty token.messageId) (by simp)
  · intro st st₁ st₂ st₃ mid eof flow es outs b₁ b₂ b₃ heof hseen hhandles hrun hothers hrestart
    obtain ⟨hmem, hiff⟩ := sideInput_recovered heof hseen hhandles hrun hothers hrestart
    refine ⟨hiff, ?_⟩
    rw [hmem]
    cases b₁ || b₂ || b₃
    · simpa using mem_seen_sideLeftBehind mid
    · exact iff_of_false (Finset.notMem_empty mid) (by simp)

/-- The second token of a cleanup, as its receiver gets it from the coordinator. -/
def lastLap : Token := ⟨ringId "c" ringPhaseCleanup 1, ⟨cleanupExpectedCount, 0, some 0, some 0⟩⟩

/-- Two workers hold something of a client, clean it up, and die while they handle a message of
another one. The worker whose log was compacted right after the cleanup finds nothing of the client,
and the one whose log was not finds it. -/
theorem recovered_after_cleanup_compaction :
    let w := StatefulKind.lowAmountReducer.worker hashOf id countingConfig
    let v := SideInputKind.bankMapper.worker id 0 "2"
    (∃ (st st₁ st₂ : w.WorkerStore) (es : List (Eff w)) (outs : List (Output w.Item)),
      (st.mem "c").processedCount = some 1 ∧
      w.discipline.Outcome st "c" w.emptyFlow es none outs st₁ true ∧
      Restarted w.discipline (Output w.Item) "c" st₁ false st₂ ∧ st₂.mem "c" = w.emptyFlow) ∧
    ∃ (st st₁ st₂ : Store ClientId (SideFlow v.Table) (SideRecord v.SideDelta))
      (es : List (SideInputWorker.SideEff v)) (outs : List (SideOutput v)),
      (st.mem "c").tracker.received = some 1 ∧
      v.discipline.Outcome st "c" v.emptyFlow es none outs st₁ false ∧
      Restarted v.discipline (SideOutput v) "c" st₁ false st₂ ∧
      "c:eof:cleanup" ∈ (st₂.mem "c").seen.mids .main := by
  intro w v
  obtain ⟨hstateful, hside⟩ := recovered_after_cleanup .lowAmountReducer .bankMapper hashOf id
    countingConfig 0 "2" ⟨1, 3⟩ "c"
  constructor
  · let held : FlowRecord w.Delta := .message "c:0:0" (some (7 : ℤ)) false
    let flow : Flow w.State := w.replayRecord held w.emptyFlow
    let st : w.WorkerStore := ⟨Function.update (fun _ ↦ w.emptyFlow) "c" flow, [("c", held)]⟩
    let es : List (Eff w) :=
      [.append .cleanup, .publish (cleanupOutput ⟨1, 3⟩ "c" w.queryId lastLap 0),
      .append (.control (some lastLap.messageId) ⟨0, 0, 0⟩), .checkpoint w.emptyFlow]
    have hseen : lastLap.messageId ∉ flow.observe.seen .control := Finset.notMem_empty _
    obtain ⟨msgs, hmsgs⟩ := w.exists_flushData 1 "c" flow.state
    have hhandles : Handles ⟨1, 3⟩ "c" (st.mem "c") (.control lastLap) (w.emptyFlow, es) :=
      ⟨msgs, hmsgs, handleControlMessage_cleanup ⟨1, 3⟩ "c" hseen rfl rfl _⟩
    have hcompacts : w.discipline.Compacts (Function.update st.mem "c" w.emptyFlow) [] := by
      refine ⟨[], List.nodup_nil, fun client ↦ ?_, .nil⟩
      rw [Function.update_idem, Function.update_eq_self]
      exact iff_of_false List.not_mem_nil w.not_inFlowKeys_emptyFlow
    let st₁ : w.WorkerStore := ⟨Function.update st.mem "c" w.emptyFlow, []⟩
    have hrun : w.discipline.Outcome st "c" w.emptyFlow es none _ st₁ true :=
      .complete (.append _ (.publish _ (.append _ (.compact _ hcompacts (.nil _)))))
    let other : List (Eff w) := [.append (.message "d:0:0" (some (7 : ℤ)) false)]
    have hexec : w.discipline.Exec st₁.mem "d" (other.take 1) st₁.log _ _ false :=
      .append _ (.nil _)
    obtain ⟨st₂, hrestart⟩ := w.exists_restarts _
    have hcut : Restarted w.discipline (Output w.Item) "c" st₁ false st₂ :=
      .cut 1 (by decide) hexec hrestart
    exact ⟨st, st₁, st₂, es, _, rfl, hrun, hcut,
      (hstateful rfl rfl hseen hhandles hrun (.refl _) hcut).1.mpr rfl⟩
  · let held : SideRecord v.SideDelta := .side "c:0" [("1", "Uno")]
    let flow : SideFlow v.Table := v.replayRecord held v.emptyFlow
    let st : Store ClientId (SideFlow v.Table) (SideRecord v.SideDelta) :=
      ⟨Function.update (fun _ ↦ v.emptyFlow) "c" flow, [("c", held)]⟩
    let es : List (SideInputWorker.SideEff v) := [.publish .discard, .append .cleanup,
      .publish (.finalEof (finalEofId "c" ⟨-1⟩ (some "2")) ⟨-1⟩),
      .append (.message "c:eof:cleanup" true), .checkpoint v.emptyFlow]
    have hseen : "c:eof:cleanup" ∉ (st.mem "c").seen.mids .main := Finset.notMem_empty _
    let st₁ : Store ClientId (SideFlow v.Table) (SideRecord v.SideDelta) :=
      ⟨Function.update st.mem "c" v.emptyFlow, st.log ++ (appends es).map fun r ↦ ("c", r)⟩
    have hrun : v.discipline.Outcome st "c" v.emptyFlow es none _ st₁ false :=
      .complete (Discipline.exec_keep _ _ _ _)
    let other : List (SideInputWorker.SideEff v) := [.append (.message "d:0" false)]
    have hexec : v.discipline.Exec st₁.mem "d" (other.take 1) st₁.log _ _ false :=
      .append _ (.nil _)
    obtain ⟨st₂, hrestart⟩ := v.exists_restarts _
    have hcut : Restarted v.discipline (SideOutput v) "c" st₁ false st₂ :=
      .cut 1 (by decide) hexec hrestart
    exact ⟨st, st₁, st₂, es, _, rfl, hrun, hcut, (hside rfl hseen
      (SideInputWorker.handleMessage_cleanup "c" hseen rfl) hrun (.refl _) hcut).2.mpr rfl⟩

/-- A worker of a ring of three that has nothing of the client drops it, is restarted, and takes the
same token for a copy. -/
theorem cleanup_recovered_as_seen :
    let w := StatefulKind.lowAmountReducer.worker hashOf id countingConfig
    ∃ (st₁ st₂ : w.WorkerStore) (flow : Flow w.State) (es : List (Eff w))
      (outs : List (Output w.Item)),
      Handles ⟨1, 3⟩ "c" w.emptyFlow (.control lastLap) (flow, es) ∧
      w.discipline.Outcome ⟨fun _ ↦ w.emptyFlow, []⟩ "c" flow es none outs st₁ false ∧
      w.discipline.Restarts st₁.log st₂ ∧
      st₁.mem "c" = w.emptyFlow ∧ st₂.mem "c" ≠ w.emptyFlow ∧
      lastLap.messageId ∈ (st₂.mem "c").seen.mids .control := by
  intro w
  let handled :=
    handleControlMessage ⟨1, 3⟩ "c" [⟨.q5ResultBatch, some "c", "c:1:0", [(⟨0⟩ : Q5Result)]⟩]
    w.emptyFlow lastLap
  have hhandles : Handles ⟨1, 3⟩ "c" w.emptyFlow (.control lastLap) handled := ⟨_, rfl, rfl⟩
  have hrun : w.discipline.Outcome ⟨fun _ ↦ w.emptyFlow, []⟩ "c" handled.1 handled.2 none _
      ⟨_, _⟩ false := .complete (Discipline.exec_keep _ _ _ _)
  obtain ⟨st₂, hrestart⟩ := w.exists_restarts _
  obtain ⟨hmem, -⟩ := stateful_recovered rfl rfl (Finset.notMem_empty _) hhandles hrun (.refl _)
    (.idle hrestart)
  refine ⟨_, st₂, handled.1, handled.2, _, hhandles, hrun, hrestart, ?_, ?_, ?_⟩
  · have hcleanup : handled = _ :=
      handleControlMessage_cleanup ⟨1, 3⟩ "c" (Finset.notMem_empty _) rfl rfl _
    simp only [Function.update_self]
    exact congrArg Prod.fst hcleanup
  · rw [hmem]
    exact leftBehind_ne lastLap.messageId
  · rw [hmem]
    exact mem_seen_leftBehind lastLap.messageId

end MoneyLaundering
