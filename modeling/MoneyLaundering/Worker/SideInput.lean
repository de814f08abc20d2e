import MoneyLaundering.Worker.Handlers
import MoneyLaundering.Collections.Dict

/-!
# Workers with a side input

A side-input worker joins the messages of its main channel with a table that arrives on a second
channel (`common/worker/side_input_stateless_worker.py`). Until the table is complete the main
messages are spilled to disk; when it is, they are drained. The worker keeps no business state and
coordinates with nobody: at the end of the stream it passes the end on, and at a cleanup it drops
the client first.

The two kinds are `bankMapper` and `anomalyFilter`.
-/

namespace MoneyLaundering

open WriteAhead

/-! ## Counting the side input -/

/-- What a tracker holds for a client: batches received, batches announced, and whether the event of
the client exists and is set. -/
structure Tracker where
  received : Option ℤ
  expected : Option ℤ
  ready : Option Bool
  deriving DecidableEq, Repr

namespace Tracker

def empty : Tracker := ⟨none, none, none⟩

def isReady (t : Tracker) : Bool := t.ready.getD false

/-- Set the event if everything announced has arrived; whether it was set just now. -/
def checkReady (t : Tracker) : Tracker × Bool :=
  if t.isReady then (t, false)
  else
    match t.expected with
    | none => ({ t with ready := some false }, false)
    | some expected =>
      if t.received.getD 0 < expected then ({ t with ready := some false }, false)
      else ({ t with ready := some true }, true)

def trackBatch (t : Tracker) : Tracker × Bool :=
  { t with received := some (t.received.getD 0 + 1) }.checkReady

def setExpected (t : Tracker) (expected : ℤ) : Tracker × Bool :=
  { t with expected := some expected }.checkReady

def restore (t : Tracker) (received : ℤ) (expected : Option ℤ) : Tracker :=
  { received := some received
    expected := expected.orElse fun _ ↦ t.expected
    ready := none : Tracker }.checkReady.1

end Tracker

/-! ## Kinds of workers -/

/-- What a kind of side-input worker plugs into the shared code. -/
structure SideInputWorker where
  /-- The payload of a message of the main channel. -/
  Payload : Type
  SidePayload : Type
  Item : Type
  /-- The side table of one client. -/
  Table : Type
  SideDelta : Type
  emptyTable : Table
  queryId : String
  /-- `_side_delta`; nothing when it raises. -/
  sideDelta : SidePayload → Option SideDelta
  applySideDelta : SideDelta → Table → Table
  sideStateAsDelta : Table → SideDelta
  /-- The message sent for a main message, given its id; nothing when it raises. -/
  emit : ClientId → Table → MessageId → Payload → Option (Message Item)
  /-- A table is rebuilt from what is written out for it. -/
  restore : ∀ table, applySideDelta (sideStateAsDelta table) emptyTable = table

/-- What a worker holds for one client. -/
structure SideFlow (τ : Type) where
  seen : Seen
  tracker : Tracker
  table : τ

/-- A record of the log, for one client. -/
inductive SideRecord (Δ : Type)
  | message (mid : MessageId) (eof : Bool)
  | side (mid : MessageId) (delta : Δ)
  | sideEof (mid : MessageId) (expected : ℤ)
  | snapshot (seen : Seen) (received : ℤ) (expected : Option ℤ) (state : Δ)
  | cleanup

/-- What a side-input worker leaves behind besides its log. -/
inductive SideOutput (w : SideInputWorker)
  | result (m : Message w.Item)
  /-- A main message is written to the spill of the client. -/
  | spill (mid : MessageId) (payload : w.Payload)
  /-- The spill of the client is about to be drained. -/
  | drain
  /-- The spill of the client is removed. -/
  | discard
  | finalEof (messageId : MessageId) (eof : EOF)

/-- What arrives on the main channel. -/
inductive SideMainMessage (w : SideInputWorker)
  | data (messageId : MessageId) (payload : w.Payload)
  | eof (messageId : MessageId) (eof : EOF)

def SideMainMessage.messageId {w : SideInputWorker} : SideMainMessage w → MessageId
  | .data messageId _ => messageId
  | .eof messageId _ => messageId

/-- What arrives on the side channel. -/
inductive SideMessage (w : SideInputWorker)
  | batch (messageId : MessageId) (payload : w.SidePayload)
  | eof (messageId : MessageId) (eof : EOF)

def SideMessage.messageId {w : SideInputWorker} : SideMessage w → MessageId
  | .batch messageId _ => messageId
  | .eof messageId _ => messageId

namespace SideInputWorker

variable (w : SideInputWorker)

abbrev SideEff := Effect (SideFlow w.Table) (SideRecord w.SideDelta) (SideOutput w)

/-- Nothing is held for the client. -/
def emptyFlow : SideFlow w.Table := ⟨Seen.empty, Tracker.empty, w.emptyTable⟩

/-! ## Logging -/

def replayRecord : SideRecord w.SideDelta → SideFlow w.Table → SideFlow w.Table
  | .message mid _, flow => { flow with seen := (flow.seen.setdefault .main).addTo .main mid }
  | .side mid delta, flow =>
    { seen := (flow.seen.setdefault .side).addTo .side mid
      tracker := flow.tracker.trackBatch.1
      table := w.applySideDelta delta flow.table }
  | .sideEof mid expected, flow =>
    { flow with
      seen := (flow.seen.setdefault .side).addTo .side mid
      tracker := (flow.tracker.setExpected expected).1 }
  | .snapshot seen received expected state, flow =>
    { seen := flow.seen.merge seen
      tracker := flow.tracker.restore received expected
      table := w.applySideDelta state flow.table }
  | .cleanup, _ => w.emptyFlow

/-- How a side-input worker logs the state of a client. A client is written out when there is a set
of seen messages for it. -/
def discipline : Discipline (SideFlow w.Table) (SideRecord w.SideDelta) where
  empty := w.emptyFlow
  apply := w.replayRecord
  tracked flow := ∃ ch, flow.seen ch ≠ none
  Snap flow r := r = .snapshot flow.seen (flow.tracker.received.getD 0) flow.tracker.expected
    (w.sideStateAsDelta flow.table)

/-! ## Handlers -/

variable {w} (client : ClientId)

/-- `_cleanup_flow`: drop the client with its spill and record it. -/
def cleanupFlow : SideFlow w.Table × List (SideEff w) :=
  (w.emptyFlow, [.publish .discard, .append .cleanup])

/-- `_handle_eof_message`: pass the end of the stream on, after dropping the client if it is a
cleanup. -/
def handleEofMessage (flow : SideFlow w.Table) (eof : EOF) : SideFlow w.Table × List (SideEff w) :=
  let cleaned := if isCleanupEof eof then cleanupFlow else (flow, [])
  (cleaned.1, cleaned.2 ++ [.publish (.finalEof (finalEofId client eof (some w.queryId)) eof)])

/-- `_handle_data_message`: emit or spill; nothing when it raises. -/
def handleDataMessage (flow : SideFlow w.Table) (messageId : MessageId) (payload : w.Payload) :
    Option (List (SideEff w)) :=
  if flow.tracker.isReady then
    (w.emit client flow.table messageId payload).map fun m ↦ [.publish (.result m)]
  else some [.publish (.spill messageId payload)]

/-- The rest of `_handle_message`, for a message that has not been seen. -/
def acceptMessage (flow : SideFlow w.Table) :
    SideMainMessage w → Option (SideFlow w.Table × List (SideEff w))
  | .data messageId payload =>
    (handleDataMessage client flow messageId payload).map fun es ↦
      let flow := { flow with seen := flow.seen.addTo .main messageId }
      (flow, es ++ [.append (.message messageId false), .checkpoint flow])
  | .eof messageId eof =>
    let handled := handleEofMessage client flow eof
    let flow := { handled.1 with seen := handled.1.seen.addTo .main messageId }
    some (flow, handled.2 ++ [.append (.message messageId true), .checkpoint flow])

/-- `_handle_message`. -/
def handleMessage (flow : SideFlow w.Table) (message : SideMainMessage w) :
    Option (SideFlow w.Table × List (SideEff w)) :=
  let flow := { flow with seen := flow.seen.setdefault .main }
  if message.messageId ∈ flow.seen.mids .main then some (flow, [])
  else acceptMessage client flow message

/-- The rest of `_handle_side_message`, for a message that has not been seen. A cleanup returns
without recording the message. -/
def acceptSideMessage (flow : SideFlow w.Table) :
    SideMessage w → Option (SideFlow w.Table × List (SideEff w))
  | .batch messageId payload =>
    (w.sideDelta payload).map fun delta ↦
      let tracked := flow.tracker.trackBatch
      ({ seen := flow.seen.addTo .side messageId
         tracker := tracked.1
         table := w.applySideDelta delta flow.table },
        .append (.side messageId delta) :: if tracked.2 then [.publish .drain] else [])
  | .eof messageId eof =>
    if isCleanupEof eof then some cleanupFlow
    else
      let tracked := flow.tracker.setExpected eof.messageCount
      some ({ flow with seen := flow.seen.addTo .side messageId, tracker := tracked.1 },
        .append (.sideEof messageId eof.messageCount)
          :: if tracked.2 then [.publish .drain] else [])

/-- `_handle_side_message`. -/
def handleSideMessage (flow : SideFlow w.Table) (message : SideMessage w) :
    Option (SideFlow w.Table × List (SideEff w)) :=
  let flow := { flow with seen := flow.seen.setdefault .side }
  if message.messageId ∈ flow.seen.mids .side then some (flow, [])
  else acceptSideMessage flow message

/-- **What a cleanup on the main channel amounts to.** The client is dropped, and then the handler
appends its own record. -/
theorem handleMessage_cleanup {flow : SideFlow w.Table} {mid : MessageId} {eof : EOF}
    (h : mid ∉ flow.seen.mids .main) (heof : isCleanupEof eof = true) :
    handleMessage client flow (.eof mid eof) = some (w.emptyFlow,
      [.publish .discard, .append .cleanup,
        .publish (.finalEof (finalEofId client eof (some w.queryId)) eof),
        .append (.message mid true), .checkpoint w.emptyFlow]) := by
  have hseen : Seen.empty.addTo .main mid = Seen.empty := Seen.addTo_empty .main mid
  have h' : (SideMainMessage.eof mid eof : SideMainMessage w).messageId
      ∉ (flow.seen.setdefault .main).mids .main := by
    rw [Seen.mids_setdefault]
    exact h
  rw [handleMessage, if_neg h']
  simp [acceptMessage, handleEofMessage, heof, cleanupFlow, emptyFlow, hseen]

theorem not_tracked_emptyFlow : ¬w.discipline.tracked w.emptyFlow := fun ⟨_, h⟩ ↦ h rfl

/-- A worker can be restarted from any log. -/
theorem exists_restarts (w : SideInputWorker) (log : List (ClientId × SideRecord w.SideDelta)) :
    ∃ store, w.discipline.Restarts log store :=
  Discipline.exists_restarts (fun _ _ ↦ ⟨_, rfl⟩) not_tracked_emptyFlow log

end SideInputWorker

/-! ## The two kinds -/

variable {A : Type}

/-- The names of the banks. The first name of a bank is kept. -/
def applyBankNames (delta : List (String × String)) (names : Dict String String) :
    Dict String String :=
  delta.foldl (fun names p ↦ if names.get p.1 = none then names.set p.1 p.2 else names) names

/-- `BankMapper`: replace the id of a bank by its name. -/
def bankMapper (A : Type) (queryId : String) : SideInputWorker where
  Payload := List (BankMaxPartial A)
  SidePayload := List Bank
  Item := Q2Result A
  Table := Dict String String
  SideDelta := List (String × String)
  emptyTable := Dict.empty
  queryId := queryId
  sideDelta payload :=
    payload.mapM fun bank ↦ (PythonInt.pyInt bank.bankId).map fun z ↦ (toString z, bank.name)
  applySideDelta := applyBankNames
  sideStateAsDelta names := names.items
  emit client names mid batch :=
    (batch.mapM fun bankMax ↦ (PythonInt.pyInt bankMax.fromBank).map fun z ↦
      (⟨(names.get (toString z)).getD "Unknown", bankMax.fromAccount, bankMax.amount⟩ :
        Q2Result A)).map fun mapped ↦
      { msgType := .q2ResultBatch
        routingKey := some client
        messageId := mid
        payload := mapped }
  restore names := Dict.foldl_items _ names fun acc p _ hnone ↦ by rw [if_pos hnone]

/-- A transaction with the fields the anomaly filter needs. -/
structure AnomalyCandidate (A : Type) where
  paymentFormat : String
  amount : A
  fromBank : String
  fromAccount : String

/-- A transaction without one of the required fields is skipped. -/
def anomalyCandidate (tx : Transaction A) : Option (AnomalyCandidate A) :=
  match tx.paymentFormat, tx.amount, tx.fromBank, tx.fromAccount with
  | some paymentFormat, some amount, some fromBank, some fromAccount =>
    some ⟨paymentFormat, amount, fromBank, fromAccount⟩
  | _, _, _, _ => none

variable [Zero A] [Mul A] [LE A] [DecidableLE A] [LT A] [DecidableLT A]

/-- `_is_anomalous`: the amount is below a multiple of the average of its payment format. -/
def isAnomalous (paymentFormatKey : String → String) (threshold : A) (avgs : Dict String A)
    (tx : AnomalyCandidate A) : Bool :=
  match avgs.get (paymentFormatKey tx.paymentFormat) with
  | none => false
  | some avg => if avg ≤ 0 then false else tx.amount < threshold * avg

/-- `AnomalyFilter`: keep the transactions that are small for their payment format. -/
def anomalyFilter (paymentFormatKey : String → String) (threshold : A) (queryId : String) :
    SideInputWorker where
  Payload := List (Transaction A)
  SidePayload := List (PaymentFormatAverage A)
  Item := Q3Result A
  Table := Dict String A
  SideDelta := List (String × A)
  emptyTable := Dict.empty
  queryId := queryId
  sideDelta payload :=
    some (payload.map fun entry ↦ (paymentFormatKey entry.paymentFormat, entry.averageAmount))
  applySideDelta delta avgs := delta.foldl (fun avgs p ↦ avgs.set p.1 p.2) avgs
  sideStateAsDelta avgs := avgs.items
  emit client avgs mid batch := some
    { msgType := .q3ResultBatch
      routingKey := some client
      messageId := mid
      payload := ((batch.filterMap anomalyCandidate).filter
        (isAnomalous paymentFormatKey threshold avgs)).map fun tx ↦
          ⟨tx.fromBank, tx.fromAccount, tx.amount⟩ }
  restore avgs := Dict.foldl_items _ avgs fun _ _ _ _ ↦ rfl

/-- The kinds of side-input workers. -/
inductive SideInputKind
  | bankMapper
  | anomalyFilter
  deriving DecidableEq, Repr

/-- The worker of a kind. -/
def SideInputKind.worker (paymentFormatKey : String → String) (threshold : A) (queryId : String) :
    SideInputKind → SideInputWorker
  | bankMapper => MoneyLaundering.bankMapper A queryId
  | anomalyFilter => MoneyLaundering.anomalyFilter paymentFormatKey threshold queryId

end MoneyLaundering
