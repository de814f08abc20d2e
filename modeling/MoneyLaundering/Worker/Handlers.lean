import MoneyLaundering.Worker.Flow

/-!
# The handlers of a stateful worker

The two entry points of a stateful worker are `_handle_message` on the main channel and
`_handle_control_message` on the control channel (`common/worker/worker.py`,
`common/worker/stateful_worker.py`). A handler turns the flow of its client into a new one and
leaves behind effects: what it publishes, what it appends to the log, and where the log may be
compacted. The flush inside a handler iterates over sets, so the messages it sends are an argument,
constrained by `StatefulWorker.FlushData`.

## What a handler amounts to

`Sound` says that a handler's checkpoints and its final memory agree with the records it has
appended by then. For a sound handler `WriteAhead.View.outcome_view` reduces every crash to a prefix
of the records, so the rest of the development only needs, for each handler, the list of its
effects. All handlers are sound but one: the last step of a cleanup, which appends its own record
after the record that drops the client.
-/

namespace MoneyLaundering

open WriteAhead

/-- The place of a node in the ring of its stage. -/
structure NodeConfig where
  nodeId : NodeId
  ringSize : ℕ

def NodeConfig.getNextNodeId (cfg : NodeConfig) : NodeId := (cfg.nodeId + 1) % cfg.ringSize

/-- What a stateful worker publishes. -/
inductive Output (α : Type)
  /-- A data message for the next stage. -/
  | data (m : Message α)
  /-- A token for a node of the same ring. -/
  | ring (node : NodeId) (token : Token)
  /-- The end of the stream, or of the query, for the next stage. -/
  | finalEof (messageId : MessageId) (eof : EOF)

/-- What arrives on the main channel. -/
inductive MainMessage (w : StatefulWorker)
  | data (messageId : MessageId) (payload : w.Payload)
  | eof (messageId : MessageId) (eof : EOF)

def MainMessage.messageId {w : StatefulWorker} : MainMessage w → MessageId
  | .data messageId _ => messageId
  | .eof messageId _ => messageId

namespace StatefulWorker

variable (w : StatefulWorker)

/-- The effects of the handlers of a worker. -/
abbrev Eff := Effect (Flow w.State) (FlowRecord w.Delta) (Output w.Item)

variable {w} (cfg : NodeConfig) (client : ClientId)

/-! ## Counting -/

/-- A running total with what a node has not reported yet, and the node's new mark. -/
def getTotalCount (count partialCount : Option ℤ) (currentTotal : ℤ) : ℤ × Option ℤ :=
  (currentTotal + count.getD 0 - partialCount.getD 0, some (count.getD 0))

/-- Add the node's counts to a token, and designate the node coordinator when everything expected
has been processed. -/
def updateRingEof (flow : Flow w.State) (ring : RingEOF) : RingEOF × Flow w.State :=
  let processed := getTotalCount flow.processedCount flow.partialProcessedCount
    ring.totalProcessedCount
  let sent := getTotalCount flow.sentCount flow.partialSentCount (ring.totalSentCount.getD 0)
  ({ expectedCount := ring.expectedCount
     totalProcessedCount := processed.1
     coordinatorId := if ring.expectedCount ≤ processed.1 then some cfg.nodeId else none
     totalSentCount := some sent.1 },
    { flow with partialProcessedCount := processed.2, partialSentCount := sent.2 })

/-! ## The control channel -/

/-- `_cleanup_flow`: drop the client and record it. -/
def cleanupFlow : Flow w.State × List (Eff w) := (w.emptyFlow, [.append .cleanup])

/-- A token that has no coordinator yet. -/
def handleCount (flow : Flow w.State) (ring : RingEOF) (inMessageId : MessageId) :
    Flow w.State × List (Eff w) :=
  let cleanup := ring.expectedCount = cleanupExpectedCount
  let actionPhase := if cleanup then ringPhaseCleanup else ringPhaseFlush
  let updated := updateRingEof cfg flow ring
  let outMessageId :=
    if updated.1.coordinatorId = some cfg.nodeId then
      ringId client actionPhase (if cleanup then ringSeqOf inMessageId + 1 else 0)
    else ringId client ringPhaseCount (ringSeqOf inMessageId + 1)
  (updated.2, [.publish (.ring cfg.getNextNodeId ⟨outMessageId, updated.1⟩)])

/-- A token whose coordinator is known: flush, sending `msgs`, or clean up. -/
def handleAction (msgs : List (Message w.Item)) (flow : Flow w.State) (ring : RingEOF)
    (coordinatorId : NodeId) (inMessageId : MessageId) : Flow w.State × List (Eff w) :=
  let cleanup := ring.expectedCount = cleanupExpectedCount
  let actionPhase := if cleanup then ringPhaseCleanup else ringPhaseFlush
  let acted : Flow w.State × List (Eff w) × RingEOF :=
    if cleanup then (cleanupFlow.1, cleanupFlow.2, ring)
    else
      let flushed := { flow with state := w.empty }.countSent msgs.length
      let sent := getTotalCount flushed.sentCount flushed.partialSentCount
        (ring.totalSentCount.getD 0)
      ({ flushed with partialSentCount := sent.2 }, msgs.map fun m ↦ .publish (.data m),
        { ring with totalSentCount := some sent.1 })
  let out : Output w.Item :=
    if coordinatorId = cfg.nodeId then
      let finalEof : EOF :=
        if cleanup then ⟨cleanupExpectedCount⟩ else ⟨acted.2.2.totalSentCount.getD 0⟩
      .finalEof (finalEofId client finalEof w.queryId) finalEof
    else
      .ring cfg.getNextNodeId ⟨ringId client actionPhase (ringSeqOf inMessageId + 1), acted.2.2⟩
  (acted.1, acted.2.1 ++ [.publish out])

/-- `_handle_control_eof_message`. -/
def handleControlEofMessage (msgs : List (Message w.Item)) (flow : Flow w.State) (ring : RingEOF)
    (inMessageId : MessageId) : Flow w.State × List (Eff w) :=
  match ring.coordinatorId with
  | none => handleCount cfg client flow ring inMessageId
  | some coordinatorId => handleAction cfg client msgs flow ring coordinatorId inMessageId

/-- The rest of `_handle_control_message`, for a token that has not been seen. -/
def acceptControlMessage (msgs : List (Message w.Item)) (flow : Flow w.State) (token : Token) :
    Flow w.State × List (Eff w) :=
  let handled := handleControlEofMessage cfg client msgs flow token.ring token.messageId
  let flow := { handled.1 with seen := handled.1.seen.addTo .control token.messageId }
  (flow, handled.2 ++
    [.append (.control (some token.messageId) flow.controlStateSnapshot), .checkpoint flow])

/-- `_handle_control_message`. -/
def handleControlMessage (msgs : List (Message w.Item)) (flow : Flow w.State) (token : Token) :
    Flow w.State × List (Eff w) :=
  let flow := { flow with seen := flow.seen.setdefault .control }
  if token.messageId ∈ flow.seen.mids .control then (flow, [])
  else acceptControlMessage cfg client msgs flow token

/-! ## The main channel -/

/-- `_handle_eof_message`: start a ring. -/
def handleEofMessage (flow : Flow w.State) (eof : EOF) : Flow w.State × List (Eff w) :=
  let processed := getTotalCount flow.processedCount flow.partialProcessedCount 0
  let sent := getTotalCount flow.sentCount flow.partialSentCount 0
  let startPhase := if eof.messageCount = cleanupExpectedCount then ringPhaseCleanup
    else ringPhaseCount
  let token : Token :=
    { messageId := ringId client startPhase 0
      ring :=
        { expectedCount := eof.messageCount
          totalProcessedCount := processed.1
          coordinatorId := none
          totalSentCount := some sent.1 } }
  let flow := { flow with partialProcessedCount := processed.2, partialSentCount := sent.2 }
  (flow, [.publish (.ring cfg.getNextNodeId token),
    .append (.control none flow.controlStateSnapshot), .checkpoint flow])

/-- What follows `_handle_data_message`, which returned a new state, the messages it sent and a
delta. -/
def acceptData (flow : Flow w.State) (messageId : MessageId)
    (handled : w.State × List (Message w.Item) × w.Delta) : Flow w.State × List (Eff w) :=
  let flow := { flow with state := handled.1 }.countSent handled.2.1.length
  let flow := flow.incrementProcessedCount
  let flow := { flow with seen := flow.seen.addTo .main messageId }
  (flow, (handled.2.1.map fun m ↦ .publish (.data m)) ++
    [.append (.message messageId (some handled.2.2) false), .checkpoint flow])

/-- The rest of `_handle_message`, for a message that has not been seen; nothing when the handler
raises. -/
def acceptMessage (flow : Flow w.State) : MainMessage w → Option (Flow w.State × List (Eff w))
  | .data messageId payload =>
    (w.handleDataMessage messageId flow.state payload).map (acceptData flow messageId)
  | .eof messageId eof =>
    let started := handleEofMessage cfg client flow eof
    let flow := { started.1 with seen := started.1.seen.addTo .main messageId }
    some (flow, started.2 ++ [.append (.message messageId none true), .checkpoint flow])

/-- `_handle_message`. -/
def handleMessage (flow : Flow w.State) (message : MainMessage w) :
    Option (Flow w.State × List (Eff w)) :=
  let flow := { flow with seen := flow.seen.setdefault .main }
  if message.messageId ∈ flow.seen.mids .main then some (flow, [])
  else acceptMessage cfg client flow message

/-! ## What the handlers amount to -/

/-- Under the observation `ν`, the checkpoints of a handler and its final memory agree with the
records appended by then. -/
structure Sound {V : Type} (ν : View w.discipline V) (flow flow' : Flow w.State)
    (es : List (Eff w)) : Prop where
  consistent : ν.Consistent (ν.view flow) es
  final : ν.view flow' = ν.applyAll (appends es) (ν.view flow)
  settled : w.discipline.Settled flow'

theorem applyAll_counters (rs : List (FlowRecord w.Delta)) (v : Observed w.State) :
    (w.observation.applyAll rs v).forget = w.counters.applyAll rs v.forget := by
  induction rs generalizing v with
  | nil => rfl
  | cons r rs ih =>
    rw [View.applyAll_cons, View.applyAll_cons, ih]
    exact congrArg _ (w.forget_replayObserved r v)

theorem consistent_counters {v : Observed w.State} {es : List (Eff w)}
    (h : w.observation.Consistent v es) : w.counters.Consistent v.forget es := by
  induction es generalizing v with
  | nil => exact trivial
  | cons e es ih =>
    cases e with
    | publish o => exact ih h
    | append r =>
      have hrest := ih h
      rwa [show w.observation.apply r v = w.replayObserved r v from rfl,
        forget_replayObserved] at hrest
    | checkpoint flow => exact ⟨congrArg Observed.forget h.1, h.2.1, ih h.2.2⟩

/-- What is sound with the business state is sound without it. -/
theorem Sound.counters {flow flow' : Flow w.State} {es : List (Eff w)}
    (h : Sound w.observation flow flow' es) : Sound w.counters flow flow' es where
  consistent := consistent_counters h.consistent
  final := (congrArg Observed.forget h.final).trans (applyAll_counters _ _)
  settled := h.settled

theorem sound_duplicate (flow : Flow w.State) (ch : Channel) :
    Sound w.observation flow { flow with seen := flow.seen.setdefault ch } [] where
  consistent := trivial
  final := flow.observe_setdefault ch
  settled := Or.inl (inFlowKeys_of_seen ch (Seen.setdefault_self_ne_none flow.seen ch))

/-- A handler that publishes, appends one record and reaches a checkpoint is sound when its final
memory is what the record says. -/
theorem sound_record {V : Type} (ν : View w.discipline V) {flow flow' : Flow w.State}
    (os : List (Output w.Item)) {r : FlowRecord w.Delta}
    (hfinal : ν.view flow' = ν.apply r (ν.view flow)) (hkeys : flow'.InFlowKeys) :
    Sound ν flow flow' (os.map .publish ++ [.append r, .checkpoint flow']) where
  consistent := (ν.consistent_map_publish _ _ _).mpr ⟨hfinal, Or.inl hkeys, trivial⟩
  final := by rw [appends_map_publish]; exact hfinal
  settled := Or.inl hkeys

/-! ### Data messages and the end of the stream -/

/-- The control snapshot of a flow, as a reader sees it. -/
def snapshotOf {σ : Type} (v : Observed σ) : ControlSnapshot where
  partialProcessed := v.partialProcessed
  sentCount := v.sent
  partialSent := v.partialSent

/-- The token that starts a ring. -/
def startToken {σ : Type} (client : ClientId) (v : Observed σ) (eof : EOF) : Token where
  messageId := ringId client
    (if eof.messageCount = cleanupExpectedCount then ringPhaseCleanup else ringPhaseCount) 0
  ring :=
    { expectedCount := eof.messageCount
      totalProcessedCount := v.processed - v.partialProcessed
      coordinatorId := none
      totalSentCount := some (v.sent - v.partialSent) }

theorem handleMessage_seen {flow : Flow w.State} {message : MainMessage w}
    (h : message.messageId ∈ flow.observe.seen .main) :
    handleMessage cfg client flow message
      = some ({ flow with seen := flow.seen.setdefault .main }, []) :=
  if_pos (by rw [Seen.mids_setdefault]; exact h)

theorem handleMessage_unseen {flow : Flow w.State} {message : MainMessage w}
    (h : message.messageId ∉ flow.observe.seen .main) :
    handleMessage cfg client flow message
      = acceptMessage cfg client { flow with seen := flow.seen.setdefault .main } message :=
  if_neg (by rw [Seen.mids_setdefault]; exact h)

theorem handleMessage_data_eq {flow : Flow w.State} {mid : MessageId} {payload : w.Payload}
    {handled : w.State × List (Message w.Item) × w.Delta} (h : mid ∉ flow.observe.seen .main)
    (hdata : w.handleDataMessage mid flow.state payload = some handled) :
    handleMessage cfg client flow (.data mid payload)
      = some (acceptData { flow with seen := flow.seen.setdefault .main } mid handled) := by
  rw [handleMessage_unseen cfg client h, acceptMessage]
  simp only [hdata, Option.map_some]

theorem observe_acceptData (flow : Flow w.State) (hset : flow.seen .main ≠ none)
    {mid : MessageId} {payload : w.Payload} {handled : w.State × List (Message w.Item) × w.Delta}
    (hdata : w.handleDataMessage mid flow.state payload = some handled) :
    (acceptData flow mid handled).1.observe = w.process flow.observe mid handled.2.2 ∧
      (acceptData flow mid handled).1.InFlowKeys := by
  obtain ⟨hstate, hsent⟩ := w.handle_eq hdata
  have hseen : ({ flow with state := handled.1 }.countSent
      handled.2.1.length).incrementProcessedCount.seen .main ≠ none := by
    rw [Flow.incrementProcessedCount, Flow.seen_countSent]
    exact hset
  constructor
  · rw [acceptData, Flow.observe_addTo _ hseen, Flow.observe_incrementProcessedCount,
      Flow.observe_countSent, hstate, process, hsent]
    rfl
  · exact inFlowKeys_of_seen .main (Seen.addTo_self_ne_none hseen mid)

/-- **What handling a data message amounts to**: its record, after the messages it sends. -/
theorem handleMessage_data {flow flow' : Flow w.State} {mid : MessageId} {payload : w.Payload}
    {es : List (Eff w)} (h : mid ∉ flow.observe.seen .main)
    (hrun : handleMessage cfg client flow (.data mid payload) = some (flow', es)) :
    ∃ state msgs delta, w.handleDataMessage mid flow.state payload = some (state, msgs, delta) ∧
      es = (msgs.map Output.data).map .publish ++
        [.append (.message mid (some delta) false), .checkpoint flow'] ∧
      flow'.observe = w.process flow.observe mid delta ∧ flow'.InFlowKeys := by
  rw [handleMessage_unseen cfg client (by exact h), acceptMessage, Option.map_eq_some_iff] at hrun
  obtain ⟨⟨state, msgs, delta⟩, hdata, hrun⟩ := hrun
  have hflow : (acceptData _ _ _).1 = flow' := congrArg Prod.fst hrun
  have hes : (acceptData _ _ _).2 = es := congrArg Prod.snd hrun
  obtain ⟨hobs, hkeys⟩ := observe_acceptData { flow with seen := flow.seen.setdefault .main }
    (Seen.setdefault_self_ne_none flow.seen .main) hdata
  rw [hflow] at hobs hkeys
  rw [Flow.observe_setdefault] at hobs
  refine ⟨state, msgs, delta, hdata, ?_, hobs, hkeys⟩
  rw [← hes, ← hflow, List.map_map]
  rfl

/-- A record written by a node that has just reported everything. -/
theorem replayObserved_control {v : Observed w.State} (mid : Option MessageId) :
    w.replayObserved (.control mid (snapshotOf v.report)) v
      = mid.elim v.report fun mid ↦ v.report.see .control mid := by
  cases mid <;> rfl

theorem replayObserved_eof (v : Observed w.State) (mid : MessageId) :
    w.replayObserved (.message mid none true) v = v.see .main mid := rfl

theorem sound_data {flow flow' : Flow w.State} {mid : MessageId} {delta : w.Delta}
    (os : List (Output w.Item)) (h : flow'.observe = w.process flow.observe mid delta)
    (hkeys : flow'.InFlowKeys) :
    Sound w.observation flow flow'
      (os.map .publish ++ [.append (.message mid (some delta) false), .checkpoint flow']) :=
  sound_record w.observation os h hkeys

/-- **What handling the end of the stream amounts to**: the first token, then a control record, then
the record of the message itself. -/
theorem handleMessage_eof {flow : Flow w.State} {mid : MessageId} (eof : EOF)
    (h : mid ∉ flow.observe.seen .main) :
    ∃ flow₁ flow₂, handleMessage cfg client flow (.eof mid eof) = some (flow₂,
        [.publish (.ring cfg.getNextNodeId (startToken client flow.observe eof)),
          .append (.control none (snapshotOf flow.observe.report)), .checkpoint flow₁,
          .append (.message mid none true), .checkpoint flow₂]) ∧
      flow₁.observe = flow.observe.report ∧ flow₂.observe = flow.observe.report.see .main mid ∧
      flow₁.InFlowKeys ∧ flow₂.InFlowKeys := by
  let started :=
    (handleEofMessage cfg client { flow with seen := flow.seen.setdefault .main } eof).1
  have hstarted : started.observe = flow.observe.report := by
    simp [started, handleEofMessage, getTotalCount, Flow.observe, Observed.report]
  have hset : started.seen .main ≠ none := Seen.setdefault_self_ne_none flow.seen .main
  refine ⟨started, { started with seen := started.seen.addTo .main mid }, ?_, hstarted, ?_,
    inFlowKeys_of_seen .main hset, inFlowKeys_of_seen .main (Seen.addTo_self_ne_none hset mid)⟩
  · rw [handleMessage_unseen cfg client (by exact h)]
    simp only [acceptMessage, handleEofMessage, getTotalCount, startToken, Flow.observe, zero_add]
    rfl
  · rw [Flow.observe_addTo started hset, hstarted]

theorem sound_eof {flow flow₁ flow₂ : Flow w.State} {mid : MessageId} {o : Output w.Item}
    (h₁ : flow₁.observe = flow.observe.report)
    (h₂ : flow₂.observe = flow.observe.report.see .main mid) (hkeys₁ : flow₁.InFlowKeys)
    (hkeys₂ : flow₂.InFlowKeys) :
    Sound w.observation flow flow₂
      [.publish o, .append (.control none (snapshotOf flow.observe.report)), .checkpoint flow₁,
        .append (.message mid none true), .checkpoint flow₂] where
  consistent := ⟨h₁, Or.inl hkeys₁, h₂, Or.inl hkeys₂, trivial⟩
  final := h₂
  settled := Or.inl hkeys₂

/-! ### Tokens -/

/-- The token a node makes of one that has no coordinator. -/
def countToken {σ : Type} (cfg : NodeConfig) (client : ClientId) (v : Observed σ) (token : Token) :
    Token :=
  let cleanup := token.ring.expectedCount = cleanupExpectedCount
  let total := token.ring.totalProcessedCount + v.processed - v.partialProcessed
  let elected := token.ring.expectedCount ≤ total
  { messageId :=
      if elected then
        ringId client (if cleanup then ringPhaseCleanup else ringPhaseFlush)
          (if cleanup then ringSeqOf token.messageId + 1 else 0)
      else ringId client ringPhaseCount (ringSeqOf token.messageId + 1)
    ring :=
      { expectedCount := token.ring.expectedCount
        totalProcessedCount := total
        coordinatorId := if elected then some cfg.nodeId else none
        totalSentCount := some (token.ring.totalSentCount.getD 0 + v.sent - v.partialSent) } }

/-- What a node publishes last when it has flushed, with `sent` messages more than reported. -/
def flushOutput {α : Type} (cfg : NodeConfig) (client : ClientId) (queryId : Option String)
    (sent : ℤ) (token : Token) (coordinatorId : NodeId) : Output α :=
  let total := token.ring.totalSentCount.getD 0 + sent
  if coordinatorId = cfg.nodeId then .finalEof (finalEofId client ⟨total⟩ queryId) ⟨total⟩
  else
    .ring cfg.getNextNodeId
      { messageId := ringId client ringPhaseFlush (ringSeqOf token.messageId + 1)
        ring := { token.ring with totalSentCount := some total } }

/-- What a node publishes last when it has dropped the client. -/
def cleanupOutput {α : Type} (cfg : NodeConfig) (client : ClientId) (queryId : Option String)
    (token : Token) (coordinatorId : NodeId) : Output α :=
  if coordinatorId = cfg.nodeId then
    .finalEof (finalEofId client ⟨cleanupExpectedCount⟩ queryId) ⟨cleanupExpectedCount⟩
  else
    .ring cfg.getNextNodeId
      { messageId := ringId client ringPhaseCleanup (ringSeqOf token.messageId + 1)
        ring := token.ring }

/-- What a flush that sends `n` messages leaves of the counters. -/
def flushed (v : Observed Unit) (n : ℕ) : Observed Unit :=
  { v with sent := v.sent + n, partialSent := v.sent + n }

theorem handleControlMessage_seen {flow : Flow w.State} {token : Token}
    (h : token.messageId ∈ flow.observe.seen .control) (msgs : List (Message w.Item)) :
    handleControlMessage cfg client msgs flow token
      = ({ flow with seen := flow.seen.setdefault .control }, []) :=
  if_pos (by rw [Seen.mids_setdefault]; exact h)

theorem handleControlMessage_unseen {flow : Flow w.State} {token : Token}
    (h : token.messageId ∉ flow.observe.seen .control) (msgs : List (Message w.Item)) :
    handleControlMessage cfg client msgs flow token
      = acceptControlMessage cfg client msgs { flow with seen := flow.seen.setdefault .control }
          token :=
  if_neg (by rw [Seen.mids_setdefault]; exact h)

theorem handleCount_eq (flow : Flow w.State) (token : Token) :
    handleCount cfg client flow token.ring token.messageId
      = ((updateRingEof cfg flow token.ring).2,
        [.publish (.ring cfg.getNextNodeId (countToken cfg client flow.observe token))]) := by
  by_cases h : token.ring.expectedCount
      ≤ token.ring.totalProcessedCount + flow.processedCount.getD 0
        - flow.partialProcessedCount.getD 0 <;>
    simp [handleCount, countToken, updateRingEof, getTotalCount, Flow.observe, h]

theorem observe_updateRingEof (flow : Flow w.State) (ring : RingEOF) :
    (updateRingEof cfg flow ring).2.observe = flow.observe.report := by
  simp [updateRingEof, getTotalCount, Flow.observe, Observed.report]

/-- **What handling a token without a coordinator amounts to.** -/
theorem handleControlMessage_count {flow : Flow w.State} {token : Token}
    (h : token.messageId ∉ flow.observe.seen .control) (hnone : token.ring.coordinatorId = none)
    (msgs : List (Message w.Item)) :
    ∃ flow', handleControlMessage cfg client msgs flow token = (flow',
        [.publish (.ring cfg.getNextNodeId (countToken cfg client flow.observe token)),
          .append (.control (some token.messageId) (snapshotOf flow.observe.report)),
          .checkpoint flow']) ∧
      flow'.observe = flow.observe.report.see .control token.messageId ∧ flow'.InFlowKeys := by
  let base : Flow w.State := { flow with seen := flow.seen.setdefault .control }
  let counted := (updateRingEof cfg base token.ring).2
  have hcounted : counted.observe = flow.observe.report := by
    rw [observe_updateRingEof, Flow.observe_setdefault]
  have hset : counted.seen .control ≠ none := Seen.setdefault_self_ne_none flow.seen .control
  have hobs : ({ counted with seen := counted.seen.addTo .control token.messageId } :
      Flow w.State).observe = flow.observe.report.see .control token.messageId := by
    rw [Flow.observe_addTo counted hset, hcounted]
  refine ⟨_, ?_, hobs, inFlowKeys_of_seen .control (Seen.addTo_self_ne_none hset _)⟩
  rw [handleControlMessage_unseen cfg client h, acceptControlMessage,
    handleControlEofMessage, hnone]
  simp only [handleCount_eq, Flow.observe_setdefault]
  rfl

theorem sound_count {flow flow' : Flow w.State} {mid : MessageId} {o : Output w.Item}
    (h : flow'.observe = flow.observe.report.see .control mid) (hkeys : flow'.InFlowKeys) :
    Sound w.observation flow flow'
      [.publish o, .append (.control (some mid) (snapshotOf flow.observe.report)),
        .checkpoint flow'] :=
  sound_record w.observation [o] h hkeys

/-- The flow a flush leaves. -/
def flushedFlow (flow : Flow w.State) (n : ℕ) : Flow w.State :=
  let flow := { flow with state := w.empty }.countSent n
  { flow with partialSentCount := some (flow.sentCount.getD 0) }

theorem observe_flushedFlow (flow : Flow w.State) (n : ℕ) :
    (flushedFlow flow n).observe.forget = flushed flow.observe.forget n := by
  obtain ⟨hseen, hprocessed, hpart, hsent, -, -⟩ :=
    Observed.ext_iff.mp (Flow.observe_countSent { flow with state := w.empty } n)
  ext1
  · exact hseen
  · exact hprocessed
  · exact hpart
  · exact hsent
  · exact hsent
  · rfl

@[simp] theorem seen_flushedFlow (flow : Flow w.State) (n : ℕ) :
    (flushedFlow flow n).seen = flow.seen := by simp [flushedFlow]

theorem handleAction_flush {flow : Flow w.State} {ring : RingEOF}
    (hexp : ring.expectedCount ≠ cleanupExpectedCount) (msgs : List (Message w.Item))
    (coordinatorId : NodeId) (mid : MessageId) :
    handleAction cfg client msgs flow ring coordinatorId mid
      = (flushedFlow flow msgs.length,
        (msgs.map Output.data ++ [flushOutput cfg client w.queryId
          (flow.observe.sent + msgs.length - flow.observe.partialSent) ⟨mid, ring⟩
          coordinatorId]).map .publish) := by
  obtain ⟨-, -, -, hsent, hpart, -⟩ :=
    Observed.ext_iff.mp (Flow.observe_countSent { flow with state := w.empty } msgs.length)
  simp only [Flow.observe] at hsent hpart
  by_cases h : coordinatorId = cfg.nodeId <;>
    simp [handleAction, hexp, flushOutput, flushedFlow, getTotalCount, hpart, hsent, h,
      Flow.observe, add_sub_assoc, Function.comp_def]

/-- **What handling a flush token amounts to.** The business state is emptied in memory only. -/
theorem handleControlMessage_flush {flow : Flow w.State} {token : Token} {coordinatorId : NodeId}
    (h : token.messageId ∉ flow.observe.seen .control)
    (hcoord : token.ring.coordinatorId = some coordinatorId)
    (hexp : token.ring.expectedCount ≠ cleanupExpectedCount) (msgs : List (Message w.Item)) :
    ∃ flow', handleControlMessage cfg client msgs flow token = (flow',
        (msgs.map Output.data ++ [flushOutput cfg client w.queryId
          (flow.observe.sent + msgs.length - flow.observe.partialSent) token
          coordinatorId]).map .publish ++
        [.append (.control (some token.messageId)
            (snapshotOf (flushed flow.observe.forget msgs.length))), .checkpoint flow']) ∧
      flow'.observe.forget
        = (flushed flow.observe.forget msgs.length).see .control token.messageId ∧
      flow'.InFlowKeys := by
  let acted := flushedFlow { flow with seen := flow.seen.setdefault .control } msgs.length
  have hacted : acted.observe.forget = flushed flow.observe.forget msgs.length := by
    rw [observe_flushedFlow, Flow.observe_setdefault]
  have hset : acted.seen .control ≠ none := by
    rw [seen_flushedFlow]
    exact Seen.setdefault_self_ne_none flow.seen .control
  have hobs : ({ acted with seen := acted.seen.addTo .control token.messageId } :
      Flow w.State).observe.forget
        = (flushed flow.observe.forget msgs.length).see .control token.messageId := by
    rw [Flow.observe_addTo acted hset, ← hacted]
    rfl
  refine ⟨_, ?_, hobs, inFlowKeys_of_seen .control (Seen.addTo_self_ne_none hset _)⟩
  rw [handleControlMessage_unseen cfg client h, acceptControlMessage, handleControlEofMessage,
    hcoord]
  simp only [handleAction_flush cfg client hexp, Flow.observe_setdefault, ← hacted]
  rfl

theorem sound_flush {flow flow' : Flow w.State} {mid : MessageId} (os : List (Output w.Item))
    {n : ℕ} (h : flow'.observe.forget = (flushed flow.observe.forget n).see .control mid)
    (hkeys : flow'.InFlowKeys) :
    Sound w.counters flow flow'
      (os.map .publish
        ++ [.append (.control (some mid) (snapshotOf (flushed flow.observe.forget n))),
        .checkpoint flow']) :=
  sound_record w.counters os h hkeys

/-- **What handling the last token of a cleanup amounts to.** The client is dropped, and then the
handler appends its own record. -/
theorem handleControlMessage_cleanup {flow : Flow w.State} {token : Token} {coordinatorId : NodeId}
    (h : token.messageId ∉ flow.observe.seen .control)
    (hcoord : token.ring.coordinatorId = some coordinatorId)
    (hexp : token.ring.expectedCount = cleanupExpectedCount) (msgs : List (Message w.Item)) :
    handleControlMessage cfg client msgs flow token = (w.emptyFlow,
      [.append .cleanup, .publish (cleanupOutput cfg client w.queryId token coordinatorId),
        .append (.control (some token.messageId) ⟨0, 0, 0⟩), .checkpoint w.emptyFlow]) := by
  have hseen := Seen.addTo_empty .control token.messageId
  rw [handleControlMessage_unseen cfg client h, acceptControlMessage, handleControlEofMessage,
    hcoord]
  simp [handleAction, hexp, cleanupFlow, cleanupOutput, emptyFlow, hseen, Flow.controlStateSnapshot]

end StatefulWorker

end MoneyLaundering
