import MoneyLaundering.Logging.WriteAhead
import MoneyLaundering.Messages.Models

/-!
# What a stateful worker holds for a client

A worker keeps everything by client: which messages it has seen on each channel, four counters, and
the business state of its kind (`common/idempotency/state_log.py`,
`common/worker/stateful_worker.py`). This module defines that state for one client, the records it
is logged as, and what replaying a record does; together they make a `WriteAhead.Discipline`.

## Kinds of workers

`StatefulWorker` collects what the eleven kinds plug in: how a data message changes the business
state, what it sends on, what it logs, and what a flush sends. Its last fields are the facts the
shared code relies on. A business state that is missing from the worker's dictionary is the empty
one: every reader supplies the empty value as the default.

## What can be observed

A missing set of seen messages reads as an empty one and a missing counter as zero. `Flow.observe`
forgets that difference, which only compaction looks at.
-/

namespace MoneyLaundering

open WriteAhead

/-- Where a message came from. -/
inductive Channel
  | main
  | control
  | side
  deriving DecidableEq, Repr

/-- The sets of seen message ids of one client, by channel. -/
abbrev Seen := Channel → Option (Finset MessageId)

namespace Seen

def empty : Seen := fun _ ↦ none

def mids (seen : Seen) (ch : Channel) : Finset MessageId := (seen ch).getD ∅

def setdefault (seen : Seen) (ch : Channel) : Seen :=
  Function.update seen ch (some (seen.mids ch))

/-- Add an id to the set a handler looked up when it started. If the client was dropped in the
meantime, that set is no longer in the index and the addition is lost. -/
def addTo (seen : Seen) (ch : Channel) (mid : MessageId) : Seen :=
  Function.update seen ch ((seen ch).map (insert mid))

/-- Add the sets of a snapshot. -/
def merge (seen snapshot : Seen) : Seen := fun ch ↦
  match snapshot ch with
  | none => seen ch
  | some mids => some (seen.mids ch ∪ mids)

@[simp] theorem mids_empty (ch : Channel) : empty.mids ch = ∅ := rfl

@[simp] theorem mids_setdefault (seen : Seen) (ch : Channel) :
    (seen.setdefault ch).mids = seen.mids := by
  funext ch'
  by_cases h : ch' = ch
  · subst h
    simp [mids, setdefault]
  · simp [mids, setdefault, Function.update_of_ne h]

theorem mids_addTo {seen : Seen} {ch : Channel} (h : seen ch ≠ none) (mid : MessageId) :
    (seen.addTo ch mid).mids = Function.update seen.mids ch (insert mid (seen.mids ch)) := by
  obtain ⟨mids, hmids⟩ := Option.ne_none_iff_exists'.mp h
  funext ch'
  by_cases hch : ch' = ch
  · subst hch
    simp [Seen.mids, addTo, hmids]
  · simp [Seen.mids, addTo, Function.update_of_ne hch]

@[simp] theorem mids_merge_empty (snapshot : Seen) :
    (empty.merge snapshot).mids = snapshot.mids := by
  funext ch
  unfold mids merge
  cases h : snapshot ch <;> simp [empty, mids]

theorem setdefault_self_ne_none (seen : Seen) (ch : Channel) : seen.setdefault ch ch ≠ none := by
  simp [setdefault]

theorem addTo_empty (ch : Channel) (mid : MessageId) : empty.addTo ch mid = empty := by
  funext ch'
  by_cases h : ch' = ch
  · subst h
    simp [addTo, empty]
  · simp [addTo, Function.update_of_ne h]

theorem addTo_self_ne_none {seen : Seen} {ch : Channel} (h : seen ch ≠ none) (mid : MessageId) :
    seen.addTo ch mid ch ≠ none := by simpa [addTo] using h

end Seen

/-! ## Kinds of workers -/

/-- What a kind of stateful worker plugs into the shared code. -/
structure StatefulWorker where
  /-- The payload of a data message. -/
  Payload : Type
  /-- What the published messages carry. -/
  Item : Type
  /-- The business state of one client. -/
  State : Type
  /-- What is logged for a data message. -/
  Delta : Type
  /-- The state of a client that has none. -/
  empty : State
  /-- The discriminator of the final message of a worker that ends a query. -/
  queryId : Option String
  /-- `_handle_data_message`, for a message with a given id: the new state, the messages sent on and
  the delta; nothing when it raises. -/
  handleDataMessage : MessageId → State → Payload → Option (State × List (Message Item) × Delta)
  /-- `_apply_delta` on the business state. -/
  applyDelta : Delta → State → State
  /-- What `_apply_delta` adds to the sent count, if it touches it. -/
  deltaSent : Delta → Option ℤ
  /-- `_state_as_delta`, in some order of iteration. -/
  StateAsDelta : State → Option Delta → Prop
  /-- `_flush_data`: the messages sent for a state, in some order of iteration. -/
  FlushData : NodeId → ClientId → State → List (Message Item) → Prop
  /-- Handling a message does what replaying its delta does. -/
  handle_eq : ∀ {mid state payload state' msgs delta},
    handleDataMessage mid state payload = some (state', msgs, delta) →
      state' = applyDelta delta state ∧ (deltaSent delta).getD 0 = msgs.length
  exists_stateAsDelta : ∀ state, ∃ delta, StateAsDelta state delta
  /-- A state is rebuilt from what is written out for it. -/
  restore : ∀ {state delta}, StateAsDelta state delta →
    delta.elim empty (fun delta ↦ applyDelta delta empty) = state
  exists_flushData : ∀ node client state, ∃ msgs, FlushData node client state msgs
  flush_same : ∀ {node client state msgs msgs'}, FlushData node client state msgs →
    FlushData node client state msgs' → SameMessages msgs msgs'

/-! ## The state of a client -/

/-- What a worker holds for one client. -/
structure Flow (σ : Type) where
  seen : Seen
  /-- The data messages processed. -/
  processedCount : Option ℤ
  /-- The processed count last reported to the ring. -/
  partialProcessedCount : Option ℤ
  /-- The messages sent on. -/
  sentCount : Option ℤ
  /-- The sent count last reported to the ring. -/
  partialSentCount : Option ℤ
  state : σ

/-- The part of a control record that is replayed. -/
structure ControlSnapshot where
  partialProcessed : ℤ
  sentCount : ℤ
  partialSent : ℤ
  deriving DecidableEq, Repr

/-- A record of the log, for one client, with deltas `Δ`. -/
inductive FlowRecord (Δ : Type)
  /-- A message of the main channel was handled. -/
  | message (mid : MessageId) (delta : Option Δ) (eof : Bool)
  /-- A token was handled, or (with no id) a ring was started. -/
  | control (mid : Option MessageId) (ring : ControlSnapshot)
  | snapshot (seen : Seen) (delta : Option Δ) (processed partialProcessed sent partialSent : ℤ)
  | cleanup

namespace Flow

variable {σ : Type}

def incrementProcessedCount (flow : Flow σ) : Flow σ :=
  { flow with processedCount := some (flow.processedCount.getD 0 + 1) }

def incrementSentCount (flow : Flow σ) : Flow σ :=
  { flow with sentCount := some (flow.sentCount.getD 0 + 1) }

/-- The sent count is incremented once for each message sent. -/
def countSent (flow : Flow σ) : ℕ → Flow σ
  | 0 => flow
  | n + 1 => (flow.countSent n).incrementSentCount

def controlStateSnapshot (flow : Flow σ) : ControlSnapshot where
  partialProcessed := flow.partialProcessedCount.getD 0
  sentCount := flow.sentCount.getD 0
  partialSent := flow.partialSentCount.getD 0

def restoreControlState (flow : Flow σ) (ring : ControlSnapshot) : Flow σ :=
  { flow with
    partialProcessedCount := some ring.partialProcessed
    sentCount := some ring.sentCount
    partialSentCount := some ring.partialSent }

/-- Whether a compaction writes the client out: it is a key of one of the dictionaries. -/
def InFlowKeys (flow : Flow σ) : Prop :=
  (∃ ch, flow.seen ch ≠ none) ∨ flow.partialProcessedCount ≠ none ∨ flow.processedCount ≠ none ∨
    flow.sentCount ≠ none ∨ flow.partialSentCount ≠ none

@[simp] theorem seen_countSent (flow : Flow σ) (n : ℕ) : (flow.countSent n).seen = flow.seen := by
  induction n with
  | zero => rfl
  | succ n ih => exact ih

end Flow

/-! ## Logging -/

namespace StatefulWorker

variable (w : StatefulWorker)

/-- Nothing is held for the client. -/
def emptyFlow : Flow w.State where
  seen := Seen.empty
  processedCount := none
  partialProcessedCount := none
  sentCount := none
  partialSentCount := none
  state := w.empty

/-- `_apply_delta`. -/
def applyDeltaToFlow (delta : w.Delta) (flow : Flow w.State) : Flow w.State :=
  { flow with
    state := w.applyDelta delta flow.state
    sentCount := (w.deltaSent delta).elim flow.sentCount fun sent ↦
      some (flow.sentCount.getD 0 + sent) }

/-- The record may be the snapshot of the flow. -/
def SnapshotFlow (flow : Flow w.State) : FlowRecord w.Delta → Prop
  | .snapshot seen delta processed partialProcessed sent partialSent =>
    seen = flow.seen ∧ w.StateAsDelta flow.state delta ∧ processed = flow.processedCount.getD 0 ∧
      partialProcessed = flow.partialProcessedCount.getD 0 ∧ sent = flow.sentCount.getD 0 ∧
      partialSent = flow.partialSentCount.getD 0
  | .message .. => False
  | .control .. => False
  | .cleanup => False

def replayRecord : FlowRecord w.Delta → Flow w.State → Flow w.State
  | .message mid delta eof, flow =>
    let flow := { flow with seen := (flow.seen.setdefault .main).addTo .main mid }
    let flow := delta.elim flow fun delta ↦ w.applyDeltaToFlow delta flow
    if eof then flow else flow.incrementProcessedCount
  | .control mid ring, flow =>
    let flow := mid.elim flow fun mid ↦
      { flow with seen := (flow.seen.setdefault .control).addTo .control mid }
    flow.restoreControlState ring
  | .snapshot seen delta processed partialProcessed sent partialSent, flow =>
    let flow := { flow with seen := flow.seen.merge seen }
    let flow := delta.elim flow fun delta ↦ w.applyDeltaToFlow delta flow
    { flow with
      processedCount := some processed
      partialProcessedCount := some partialProcessed
      sentCount := some sent
      partialSentCount := some partialSent }
  | .cleanup, _ => w.emptyFlow

/-- How a stateful worker logs the state of a client. -/
def discipline : Discipline (Flow w.State) (FlowRecord w.Delta) where
  empty := w.emptyFlow
  apply := w.replayRecord
  tracked := Flow.InFlowKeys
  Snap := w.SnapshotFlow

theorem inFlowKeys_of_seen {σ : Type} {flow : Flow σ} (ch : Channel) (h : flow.seen ch ≠ none) :
    flow.InFlowKeys := Or.inl ⟨ch, h⟩

theorem inFlowKeys_of_partial {σ : Type} {flow : Flow σ} (h : flow.partialProcessedCount ≠ none) :
    flow.InFlowKeys := Or.inr (Or.inl h)

/-- Any record but a cleanup leaves an entry for its client. -/
theorem inFlowKeys_replayRecord {r : FlowRecord w.Delta} (h : r ≠ .cleanup) (flow : Flow w.State) :
    (w.replayRecord r flow).InFlowKeys := by
  cases r with
  | message mid delta eof =>
    refine inFlowKeys_of_seen .main ?_
    have hseen : (flow.seen.setdefault .main).addTo .main mid .main ≠ none :=
      Seen.addTo_self_ne_none (Seen.setdefault_self_ne_none _ _) mid
    cases delta <;> cases eof <;> exact hseen
  | control mid ring => exact inFlowKeys_of_partial (Option.some_ne_none _)
  | snapshot seen delta processed partialProcessed sent partialSent =>
    exact inFlowKeys_of_partial (Option.some_ne_none _)
  | cleanup => exact absurd rfl h

theorem settled_replayRecord (r : FlowRecord w.Delta) (flow : Flow w.State) :
    w.discipline.Settled (w.replayRecord r flow) := by
  by_cases h : r = .cleanup
  · subst h
    exact Or.inr rfl
  · exact Or.inl (w.inFlowKeys_replayRecord h flow)

theorem not_inFlowKeys_emptyFlow : ¬w.emptyFlow.InFlowKeys := by
  simp [Flow.InFlowKeys, emptyFlow, Seen.empty]

theorem exists_snapshotFlow (flow : Flow w.State) : ∃ r, w.SnapshotFlow flow r := by
  obtain ⟨delta, hdelta⟩ := w.exists_stateAsDelta flow.state
  exact ⟨.snapshot flow.seen delta _ _ _ _, rfl, hdelta, rfl, rfl, rfl, rfl⟩

/-- A worker can be restarted from any log. -/
theorem exists_restarts (log : List (ClientId × FlowRecord w.Delta)) :
    ∃ store, w.discipline.Restarts log store :=
  Discipline.exists_restarts (fun flow _ ↦ w.exists_snapshotFlow flow)
    w.not_inFlowKeys_emptyFlow log

end StatefulWorker

/-! ## What can be observed -/

/-- What a reader sees of a flow. -/
@[ext] structure Observed (σ : Type) where
  seen : Channel → Finset MessageId
  processed : ℤ
  partialProcessed : ℤ
  sent : ℤ
  partialSent : ℤ
  state : σ

namespace Flow

variable {σ : Type}

def observe (flow : Flow σ) : Observed σ where
  seen := flow.seen.mids
  processed := flow.processedCount.getD 0
  partialProcessed := flow.partialProcessedCount.getD 0
  sent := flow.sentCount.getD 0
  partialSent := flow.partialSentCount.getD 0
  state := flow.state

end Flow

namespace Observed

variable {σ : Type}

/-- The message is now seen. -/
def see (v : Observed σ) (ch : Channel) (mid : MessageId) : Observed σ :=
  { v with seen := Function.update v.seen ch (insert mid (v.seen ch)) }

/-- The observation without the business state. -/
def forget (v : Observed σ) : Observed Unit := { v with state := () }

/-- Everything so far has been reported to the ring. -/
def report (v : Observed σ) : Observed σ :=
  { v with partialProcessed := v.processed, partialSent := v.sent }

end Observed

namespace Flow

variable {σ : Type} (flow : Flow σ)

@[simp] theorem observe_setdefault (ch : Channel) :
    ({ flow with seen := flow.seen.setdefault ch } : Flow σ).observe = flow.observe := by
  simp [observe]

theorem observe_addTo (flow : Flow σ) {ch : Channel} (h : flow.seen ch ≠ none) (mid : MessageId) :
    ({ flow with seen := flow.seen.addTo ch mid } : Flow σ).observe = flow.observe.see ch mid := by
  simp [observe, Observed.see, Seen.mids_addTo h]

theorem observe_see (ch : Channel) (mid : MessageId) :
    ({ flow with seen := (flow.seen.setdefault ch).addTo ch mid } : Flow σ).observe
      = flow.observe.see ch mid := by
  rw [← flow.observe_setdefault ch]
  exact observe_addTo { flow with seen := flow.seen.setdefault ch }
    (Seen.setdefault_self_ne_none flow.seen ch) mid

@[simp] theorem observe_incrementProcessedCount :
    flow.incrementProcessedCount.observe
      = { flow.observe with processed := flow.observe.processed + 1 } := rfl

@[simp] theorem observe_countSent (n : ℕ) :
    (flow.countSent n).observe = { flow.observe with sent := flow.observe.sent + n } := by
  induction n with
  | zero => simp [countSent]
  | succ n ih =>
    have hstep : (flow.countSent (n + 1)).observe
        = { (flow.countSent n).observe with sent := (flow.countSent n).observe.sent + 1 } := rfl
    rw [hstep, ih]
    simp [add_assoc]

end Flow

namespace StatefulWorker

variable (w : StatefulWorker)

/-- The observation of a client that nothing is held for. -/
def nothing : Observed w.State := w.emptyFlow.observe

/-- The effect of a data message with a given delta. -/
def process (v : Observed w.State) (mid : MessageId) (delta : w.Delta) : Observed w.State :=
  { v.see .main mid with
    processed := v.processed + 1
    sent := v.sent + (w.deltaSent delta).getD 0
    state := w.applyDelta delta v.state }

/-- Replaying a record, as a reader sees it. -/
def replayObserved : FlowRecord w.Delta → Observed w.State → Observed w.State
  | .message mid delta eof, v =>
    let v := v.see .main mid
    let v := delta.elim v fun delta ↦
      { v with
        sent := v.sent + (w.deltaSent delta).getD 0
        state := w.applyDelta delta v.state }
    if eof then v else { v with processed := v.processed + 1 }
  | .control mid ring, v =>
    { mid.elim v fun mid ↦ v.see .control mid with
      partialProcessed := ring.partialProcessed
      sent := ring.sentCount
      partialSent := ring.partialSent }
  | .snapshot seen delta processed partialProcessed sent partialSent, v =>
    { seen := fun ch ↦ (seen ch).elim (v.seen ch) fun mids ↦ v.seen ch ∪ mids
      processed, partialProcessed, sent, partialSent
      state := delta.elim v.state fun delta ↦ w.applyDelta delta v.state }
  | .cleanup, _ => w.nothing

theorem observe_applyDeltaToFlow (delta : w.Delta) (flow : Flow w.State) :
    (w.applyDeltaToFlow delta flow).observe
      = { flow.observe with
          sent := flow.observe.sent + (w.deltaSent delta).getD 0
          state := w.applyDelta delta flow.observe.state } := by
  cases h : w.deltaSent delta <;> simp [applyDeltaToFlow, Flow.observe, h]

theorem observe_replayRecord (r : FlowRecord w.Delta) (flow : Flow w.State) :
    (w.replayRecord r flow).observe = w.replayObserved r flow.observe := by
  cases r with
  | message mid delta eof =>
    have hsee := Flow.observe_see flow .main mid
    cases delta with
    | none => cases eof <;> (simp only [replayRecord, replayObserved, ← hsee]; rfl)
    | some delta =>
      have hdelta := w.observe_applyDeltaToFlow delta
        { flow with seen := (flow.seen.setdefault .main).addTo .main mid }
      rw [hsee] at hdelta
      cases eof <;> simp only [replayRecord, replayObserved, Option.elim_some, ← hdelta] <;> rfl
  | control mid ring =>
    cases mid with
    | none => rfl
    | some mid =>
      have hsee := Flow.observe_see flow .control mid
      simp only [replayRecord, replayObserved, Option.elim_some, ← hsee]
      rfl
  | snapshot seen delta processed partialProcessed sent partialSent =>
    have hmerge : (flow.seen.merge seen).mids
        = fun ch ↦ (seen ch).elim (flow.seen.mids ch) fun mids ↦ flow.seen.mids ch ∪ mids := by
      funext ch
      unfold Seen.mids Seen.merge
      cases h : seen ch <;> simp [Seen.mids]
    cases delta <;>
      simp [replayRecord, replayObserved, Flow.observe, applyDeltaToFlow, hmerge]
  | cleanup => rfl

/-- The observation of flows, which snapshots restore. -/
def observation : View w.discipline (Observed w.State) where
  view := Flow.observe
  apply := w.replayObserved
  view_apply := w.observe_replayRecord
  view_snap := by
    intro flow r h
    cases r with
    | snapshot seen delta processed partialProcessed sent partialSent =>
      obtain ⟨rfl, hdelta, rfl, rfl, rfl, rfl⟩ := h
      have hstate := w.restore hdelta
      ext1
      · funext ch
        cases hch : flow.seen ch <;> simp [replayObserved, Flow.observe, Seen.mids, hch, discipline,
          emptyFlow, Seen.empty]
      · rfl
      · rfl
      · rfl
      · rfl
      · exact hstate
    | message mid delta eof => exact h.elim
    | control mid ring => exact h.elim
    | cleanup => exact h.elim

/-- Replaying a record, as seen without the business state. -/
def replayCounters (r : FlowRecord w.Delta) (v : Observed Unit) : Observed Unit :=
  (w.replayObserved r { v with state := w.empty }).forget

theorem forget_replayObserved (r : FlowRecord w.Delta) (v : Observed w.State) :
    (w.replayObserved r v).forget = w.replayCounters r v.forget := by
  cases r with
  | message mid delta eof => cases delta <;> cases eof <;> rfl
  | control mid ring => cases mid <;> rfl
  | snapshot seen delta processed partialProcessed sent partialSent => rfl
  | cleanup => rfl

/-- The observation without the business state. A flush empties the business state in memory and
logs nothing of the kind, so that runs with flushes can only be followed here. -/
def counters : View w.discipline (Observed Unit) where
  view flow := flow.observe.forget
  apply := w.replayCounters
  view_apply r flow := by
    rw [← forget_replayObserved]
    exact congrArg Observed.forget (w.observe_replayRecord r flow)
  view_snap h := by
    rw [← forget_replayObserved]
    exact congrArg Observed.forget (w.observation.view_snap h)

end StatefulWorker

end MoneyLaundering
