import MoneyLaundering.Joins.Inputs
import MoneyLaundering.Joins.Process

/-!
# One client of a side-input worker

`Local` is the part of a side-input worker that concerns one client, with the steps that concern it
(`Local.Step`), and `Local.Joined` what holds
of it in every state of every run, with or without crashes, when the client is sent some
`SideInputs` and no cleanup: what memory, log, spill, drain and published results have to do with
each other.

A handler goes through two phases. Until its record is in the log (`Local.Before`), memory is ahead
of the log by that record, and the outputs still to come are allowed by what the log says.
Afterwards memory and log agree.
-/

namespace MoneyLaundering

open WriteAhead SideInputWorker

variable {w : SideInputWorker}

/-! ## What causes a record -/

namespace SideDelivery

/-- Handling the delivery, when the worker holds `flow`, causes the record. -/
def Causes (client : ClientId) (flow : SideFlow w.Table) :
    SideDelivery w → SideRecord w.SideDelta → Prop
  | .main (.data mid payload), .message mid' false =>
    mid' = mid ∧ (flow.tracker.isReady = true → w.emit client flow.table mid payload ≠ none)
  | .main (.eof mid eof), .message mid' true => mid' = mid ∧ isCleanupEof eof = false
  | .side (.batch mid payload), .side mid' delta => mid' = mid ∧ w.sideDelta payload = some delta
  | .side (.eof mid eof), .sideEof mid' expected =>
    mid' = mid ∧ expected = eof.messageCount ∧ isCleanupEof eof = false
  | _, _ => False

end SideDelivery

/-- The id of the main batch that an output is about. -/
def SideOutput.batchId : SideOutput w → Option MessageId
  | .result m => some m.messageId
  | .spill mid _ => some mid
  | _ => none

/-- Results carry the id of the main batch they are computed from. -/
def SideInputWorker.Forwards (w : SideInputWorker) : Prop :=
  ∀ client table mid payload m, w.emit client table mid payload = some m → m.messageId = mid

/-- The effects of a handler that makes some outputs and then appends a record. -/
def effectsOf (outs : List (SideOutput w)) (r : SideRecord w.SideDelta) (tail : List (SideEff w)) :
    List (SideEff w) := outs.map .publish ++ .append r :: tail

/-- What arrives for a client are the inputs. -/
structure SideFeed.Sends (feed : SideFeed w) (client : ClientId) (x : SideInputs w) : Prop where
  data : ∀ mid payload, feed client (.main (.data mid payload)) → (mid, payload) ∈ x.mains
  eof : ∀ mid eof, feed client (.main (.eof mid eof)) →
    mid ∉ x.mains.map Prod.fst ∧ isCleanupEof eof = false
  batch : ∀ mid payload, feed client (.side (.batch mid payload)) → (mid, payload) ∈ x.sides
  sideEof : ∀ mid eof, feed client (.side (.eof mid eof)) →
    mid = x.eofId ∧ eof.messageCount = x.announced

/-! ## One client -/

/-- The part of a side-input worker that concerns one client. -/
structure Local (w : SideInputWorker) where
  flow : SideFlow w.Table
  /-- What the log says. -/
  logged : SideObserved w.Table
  spill : List (MessageId × w.Payload)
  handler : Option (SideDelivery w × List (SideEff w))
  /-- A drain, with the entries it has left once it has the lock. -/
  drain : Option (Option (List (MessageId × w.Payload)))
  /-- The client is still to be drained before the threads are started. -/
  Waits : Prop
  published : List (Publication w)
  signals : ℕ
  durable : List (SideDurable w)
  handled : List (SideDelivery w)

namespace SideProcess

variable (s : SideProcess w) (client : ClientId)

/-- The part of the state that concerns one client. -/
def part : Local w where
  flow := s.store.mem client
  logged := w.sideObservation.durable s.store.log client
  spill := s.spill client
  handler := (s.handling.filter fun h ↦ h.client = client).map fun h ↦ (h.delivery, h.rest)
  drain := (s.draining.filter fun d ↦ d.client = client).map Drain.entries
  Waits := ∃ clients, s.starting = some clients ∧ client ∈ clients
  published := s.published client
  signals := s.signals client
  durable := s.durable client
  handled := s.handled.filterMap fun p ↦ if p.1 = client then some p.2 else none

end SideProcess

namespace Local

variable (l : Local w)

/-- The records that became durable. -/
def records : List (SideRecord w.SideDelta) := l.durable.map SideDurable.record

def publishedIds : List MessageId := l.published.map fun p ↦ p.message.messageId

/-- The main batch is in the spill, or its result has been published. -/
def Kept (mid : MessageId) : Prop := mid ∈ l.spill.map Prod.fst ∨ mid ∈ l.publishedIds

/-- What an output does. -/
def perform : SideOutput w → Local w
  | .result m => { l with published := l.published ++ [⟨m, l.flow⟩] }
  | .spill mid payload => { l with spill := l.spill ++ [(mid, payload)] }
  | .drain => { l with drain := some none, signals := l.signals + 1 }
  | .discard => { l with spill := [] }
  | .finalEof _ _ => l

/-- What appending a record does. -/
def append (delivery : SideDelivery w) (r : SideRecord w.SideDelta) : Local w :=
  { l with
    logged := w.replayObserved r l.logged
    durable := l.durable ++ [⟨delivery, r⟩] }

/-- A step of the worker, as far as it concerns the client. -/
inductive Step (feed : SideFeed w) (client : ClientId) : Local w → Local w → Prop
  | enter {l : Local w} {delivery : SideDelivery w} {flow : SideFlow w.Table}
      {es : List (SideEff w)} (hidle : l.handler = none) (hfeed : feed client delivery)
      (hthread : delivery.IsSide → l.drain = none)
      (hhandle : handle client l.flow delivery = some (flow, es)) :
      Step feed client l { l with flow := flow, handler := some (delivery, es) }
  | perform {l : Local w} {delivery : SideDelivery w} {o : SideOutput w} {es : List (SideEff w)}
      (h : l.handler = some (delivery, .publish o :: es)) :
      Step feed client l { l.perform o with handler := some (delivery, es) }
  | append {l : Local w} {delivery : SideDelivery w} {r : SideRecord w.SideDelta}
      {es : List (SideEff w)} (h : l.handler = some (delivery, .append r :: es)) :
      Step feed client l { l.append delivery r with handler := some (delivery, es) }
  | checkpoint {l : Local w} {delivery : SideDelivery w} {flow : SideFlow w.Table}
      {es : List (SideEff w)} (h : l.handler = some (delivery, .checkpoint flow :: es)) :
      Step feed client l { l with handler := some (delivery, es) }
  | leave {l : Local w} {delivery : SideDelivery w} (h : l.handler = some (delivery, [])) :
      Step feed client l { l with handler := none, handled := l.handled ++ [delivery] }
  | openSpill {l : Local w} (h : l.drain = some none)
      (hreleased : ∀ delivery es, l.handler = some (delivery, es) → ¬delivery.IsSide) :
      Step feed client l { l with drain := some (some l.spill) }
  | emitEntry {l : Local w} {e : MessageId × w.Payload} {entries : List (MessageId × w.Payload)}
      {m : Message w.Item} (h : l.drain = some (some (e :: entries)))
      (hemit : w.emit client l.flow.table e.1 e.2 = some m) :
      Step feed client l { l.perform (.result m) with drain := some (some entries) }
  | closeSpill {l : Local w} (h : l.drain = some (some [])) :
      Step feed client l { l with drain := none, spill := [] }
  | next {l : Local w} (hwaits : l.Waits) (hdrained : l.drain = none) (waits : Prop) :
      Step feed client l { l with drain := some none, Waits := waits }

/-- A crash and the recovery from the log, as far as it concerns the client. -/
inductive Crash (expected : ℤ) : Local w → Local w → Prop
  | restart {l : Local w} {flow : SideFlow w.Table} (hsane : flow.Sane expected)
      (hobserve : flow.observe = l.logged) :
      Crash expected l { l with
        flow := flow
        handler := none
        drain := none
        Waits := w.discipline.tracked flow ∧ flow.tracker.isReady = true }

variable (x : SideInputs w) (client : ClientId)

/-- An output that the handler of a record may still make: a result once the side input is complete,
an entry of the spill before. -/
def Allows (r : SideRecord w.SideDelta) : SideOutput w → Prop
  | .result m => x.AllSide l.records ∧
    ∃ b ∈ x.mains, w.emit client l.logged.table b.1 b.2 = some m ∧ r = .message b.1 false
  | .spill mid payload =>
    ¬x.AllSide l.records ∧ (mid, payload) ∈ x.mains ∧ r = .message mid false
  | .finalEof _ _ => True
  | .drain => False
  | .discard => False

/-- A handler is in progress that has not appended its record yet. -/
structure Before (delivery : SideDelivery w) (outs : List (SideOutput w))
    (r : SideRecord w.SideDelta) (tail : List (SideEff w)) : Prop where
  observe_eq : l.flow.observe = w.replayObserved r l.logged
  plain : x.Plain r
  fresh_main : ∀ mid, r.mainId = some mid → mid ∉ l.records.filterMap SideRecord.mainId
  fresh_side : ∀ mid, r.sideId = some mid → mid ∉ l.records.filterMap SideRecord.sideId
  causes : delivery.Causes client l.flow r
  allows : ∀ o ∈ outs, l.Allows x client r o
  single : outs.length ≤ 1
  covers : ∀ mid, r = .message mid false → l.Kept mid ∨ ∃ o ∈ outs, o.batchId = some mid
  tail_eq : (∃ flow, tail = [.checkpoint flow]) ∨ tail = [] ∨ tail = [.publish .drain]
  signals : .publish .drain ∈ tail ↔ x.AllSide (l.records ++ [r]) ∧ ¬x.AllSide l.records

/-- Where the handler of the client is. -/
inductive Progress : Option (SideDelivery w × List (SideEff w)) → Prop
  | idle (h : l.flow.observe = l.logged) : Progress none
  | before {delivery outs r tail} (h : l.Before x client delivery outs r tail) :
      Progress (some (delivery, effectsOf outs r tail))
  | after {delivery} {tail : List (SideEff w)} (h : l.flow.observe = l.logged)
      (htail : (∃ flow, tail = [.checkpoint flow]) ∨ tail = [] ∨
        tail = [.publish .drain] ∧ x.AllSide l.records) : Progress (some (delivery, tail))

/-- The handler of the client is about to signal that the side input is complete. -/
def Signals : Prop := ∃ delivery, l.handler = some (delivery, [.publish .drain])

/-- What holds of a client that is sent the inputs `x`. -/
structure Joined : Prop where
  sane : l.flow.Sane x.announced
  replayed : l.logged = w.sideObservation.applyAll l.records w.nothing
  plain : ∀ r ∈ l.records, x.Plain r
  nodup_main : (l.records.filterMap SideRecord.mainId).Nodup
  nodup_side : (l.records.filterMap SideRecord.sideId).Nodup
  progress : l.Progress x client l.handler
  spilled : ∀ e ∈ l.spill, e ∈ x.mains
  complete : l.drain ≠ none ∨ l.Waits → x.AllSide l.records
  entries : ∀ es, l.drain = some (some es) →
    (∀ e ∈ es, e ∈ x.mains) ∧ ∀ e ∈ l.spill, e ∈ es ∨ e.1 ∈ l.publishedIds
  drained : x.AllSide l.records → l.spill = [] ∨ l.drain ≠ none ∨ l.Waits ∨ l.Signals
  covered : ∀ mid, .message mid false ∈ l.records → l.Kept mid
  published : ∀ p ∈ l.published, x.AllSide l.records ∧ p.flow.table = l.logged.table ∧
    ∃ b ∈ x.mains, w.emit client p.flow.table b.1 b.2 = some p.message

end Local

end MoneyLaundering
