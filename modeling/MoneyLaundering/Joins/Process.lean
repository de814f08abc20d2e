import MoneyLaundering.Worker.SideInput

/-!
# Runs of a side-input worker

A side-input worker is two threads. Each takes messages from its own channel and handles them under
one lock, the state lock, so that at most one handler is in progress; what it does to files and to
the broker happens one effect at a time (`Handling.rest`). When a side message completes the side
input, the side thread releases the lock and then drains the spill of the client, one entry at a
time, while the main thread goes on. A second lock, one for each client, keeps the drain and the
handlers that touch the spill apart.

The worker may crash at any point. It is then restarted from its log: the memory is rebuilt, the log
compacted, the spill of every client that is ready drained, and only then are the threads started.

Which messages arrive is a parameter of a run, the `SideFeed`; any of them may arrive any number of
times and in any order. Besides the worker itself, the state of a run remembers what was published
and from what, how often a client was signalled to be ready, which records became durable and which
deliveries were handled to the end.
-/

namespace MoneyLaundering

open WriteAhead SideInputWorker

/-- A message taken from one of the two channels. -/
inductive SideDelivery (w : SideInputWorker)
  | main (message : SideMainMessage w)
  | side (message : SideMessage w)

namespace SideDelivery

variable {w : SideInputWorker}

def IsSide : SideDelivery w → Prop
  | .main _ => False
  | .side _ => True

/-- The handler takes the lock of the client: to emit or spill a batch, or to drop the client. -/
def LocksFlow : SideDelivery w → Prop
  | .main (.data _ _) => True
  | .main (.eof _ eof) => isCleanupEof eof = true
  | .side (.batch _ _) => True
  | .side (.eof _ eof) => isCleanupEof eof = true

end SideDelivery

/-- Which messages may arrive for which client. -/
abbrev SideFeed (w : SideInputWorker) := ClientId → SideDelivery w → Prop

/-- `_handle_message` and `_handle_side_message`. -/
def SideInputWorker.handle {w : SideInputWorker} (client : ClientId) (flow : SideFlow w.Table) :
    SideDelivery w → Option (SideFlow w.Table × List (SideEff w))
  | .main message => handleMessage client flow message
  | .side message => handleSideMessage flow message

/-- A handler in progress: what it still has to do. -/
structure Handling (w : SideInputWorker) where
  client : ClientId
  delivery : SideDelivery w
  rest : List (SideEff w)

/-- The handler has the lock of its client until it has touched the spill. A result may be published
with or without that lock; it is taken to be released before. -/
def Handling.HasFlowLock {w : SideInputWorker} (h : Handling w) : Prop :=
  Effect.publish .discard ∈ h.rest ∨ ∃ mid payload, Effect.publish (.spill mid payload) ∈ h.rest

/-- A drain: before it has the lock of its client, or with the entries of the file it has not
emitted yet. -/
structure Drain (w : SideInputWorker) where
  client : ClientId
  entries : Option (List (MessageId × w.Payload))

/-- A published result, and what the worker held for the client then. -/
structure Publication (w : SideInputWorker) where
  message : Message w.Item
  flow : SideFlow w.Table

/-- A record that reached the log, with the delivery that caused it. -/
structure SideDurable (w : SideInputWorker) where
  delivery : SideDelivery w
  record : SideRecord w.SideDelta

/-- A side-input worker and what happened to it. -/
structure SideProcess (w : SideInputWorker) where
  store : Store ClientId (SideFlow w.Table) (SideRecord w.SideDelta)
  /-- The spill files. -/
  spill : ClientId → List (MessageId × w.Payload)
  handling : Option (Handling w)
  draining : Option (Drain w)
  /-- The clients still to be drained before the threads are started; nothing once they are. -/
  starting : Option (List ClientId)
  published : ClientId → List (Publication w)
  signals : ClientId → ℕ
  /-- The records that became durable, by client, in order. -/
  durable : ClientId → List (SideDurable w)
  handled : List (ClientId × SideDelivery w)

namespace SideProcess

variable {w : SideInputWorker}

/-- A worker that has never run. -/
def init (w : SideInputWorker) : SideProcess w where
  store := ⟨fun _ ↦ w.emptyFlow, []⟩
  spill _ := []
  handling := none
  draining := none
  starting := none
  published _ := []
  signals _ := 0
  durable _ := []
  handled := []

/-- Send a result. -/
def publish (s : SideProcess w) (client : ClientId) (m : Message w.Item) : SideProcess w :=
  { s with
    published := Function.update s.published client
      (s.published client ++ [⟨m, s.store.mem client⟩]) }

def setSpill (s : SideProcess w) (client : ClientId) (entries : List (MessageId × w.Payload)) :
    SideProcess w :=
  { s with spill := Function.update s.spill client entries }

/-- What an output does. Signalling that a client is ready makes the side thread drain it. -/
def perform (s : SideProcess w) (client : ClientId) : SideOutput w → SideProcess w
  | .result m => s.publish client m
  | .spill mid payload => s.setSpill client (s.spill client ++ [(mid, payload)])
  | .drain =>
    { s with
      draining := some ⟨client, none⟩
      signals := Function.update s.signals client (s.signals client + 1) }
  | .discard => s.setSpill client []
  | .finalEof _ _ => s

/-- Append a record. -/
def append (s : SideProcess w) (client : ClientId) (delivery : SideDelivery w)
    (r : SideRecord w.SideDelta) : SideProcess w :=
  { s with
    store := ⟨s.store.mem, s.store.log ++ [(client, r)]⟩
    durable := Function.update s.durable client (s.durable client ++ [⟨delivery, r⟩]) }

/-- A step of one of the threads, or of the start. -/
inductive Step (feed : SideFeed w) : SideProcess w → SideProcess w → Prop
  /-- A thread takes a message and the locks it needs, and changes the memory. -/
  | enter {s : SideProcess w} {client : ClientId} {delivery : SideDelivery w}
      {flow : SideFlow w.Table} {es : List (SideEff w)} (hstarted : s.starting = none)
      (hfree : s.handling = none) (hfeed : feed client delivery)
      (hthread : delivery.IsSide → s.draining = none)
      (hlock : delivery.LocksFlow → ∀ d, s.draining = some d → d.client = client → d.entries = none)
      (hhandle : handle client (s.store.mem client) delivery = some (flow, es)) :
      Step feed s { s with
        store := ⟨Function.update s.store.mem client flow, s.store.log⟩
        handling := some ⟨client, delivery, es⟩ }
  | perform {s : SideProcess w} {client : ClientId} {delivery : SideDelivery w} {o : SideOutput w}
      {es : List (SideEff w)} (h : s.handling = some ⟨client, delivery, .publish o :: es⟩) :
      Step feed s ({ s with handling := some ⟨client, delivery, es⟩ }.perform client o)
  | append {s : SideProcess w} {client : ClientId} {delivery : SideDelivery w}
      {r : SideRecord w.SideDelta} {es : List (SideEff w)}
      (h : s.handling = some ⟨client, delivery, .append r :: es⟩) :
      Step feed s ({ s with handling := some ⟨client, delivery, es⟩ }.append client delivery r)
  | keep {s : SideProcess w} {client : ClientId} {delivery : SideDelivery w}
      {flow : SideFlow w.Table} {es : List (SideEff w)}
      (h : s.handling = some ⟨client, delivery, .checkpoint flow :: es⟩) :
      Step feed s { s with handling := some ⟨client, delivery, es⟩ }
  /-- The log is compacted. -/
  | compact {s : SideProcess w} {client : ClientId} {delivery : SideDelivery w}
      {flow : SideFlow w.Table} {es : List (SideEff w)}
      {log : List (ClientId × SideRecord w.SideDelta)}
      (h : s.handling = some ⟨client, delivery, .checkpoint flow :: es⟩)
      (hcompacts : w.discipline.Compacts s.store.mem log) :
      Step feed s { s with
        store := ⟨s.store.mem, log⟩
        handling := some ⟨client, delivery, es⟩ }
  /-- The handler is done: the state lock is released and the message acknowledged. -/
  | leave {s : SideProcess w} {client : ClientId} {delivery : SideDelivery w}
      (h : s.handling = some ⟨client, delivery, []⟩) :
      Step feed s { s with
        handling := none
        handled := s.handled ++ [(client, delivery)] }
  /-- The drain begins once the side thread has released the state lock and nobody has the lock of
  the client. -/
  | openSpill {s : SideProcess w} {client : ClientId} (h : s.draining = some ⟨client, none⟩)
      (hreleased : ∀ h, s.handling = some h → ¬h.delivery.IsSide)
      (hlock : ∀ h, s.handling = some h → h.client = client → ¬h.HasFlowLock) :
      Step feed s { s with draining := some ⟨client, some (s.spill client)⟩ }
  | emitEntry {s : SideProcess w} {client : ClientId} {e : MessageId × w.Payload}
      {entries : List (MessageId × w.Payload)} {m : Message w.Item}
      (h : s.draining = some ⟨client, some (e :: entries)⟩)
      (hemit : w.emit client (s.store.mem client).table e.1 e.2 = some m) :
      Step feed s ({ s with draining := some ⟨client, some entries⟩ }.publish client m)
  | closeSpill {s : SideProcess w} {client : ClientId} (h : s.draining = some ⟨client, some []⟩) :
      Step feed s ({ s with draining := none }.setSpill client [])
  /-- At the start, the next client that is ready is drained. -/
  | next {s : SideProcess w} {client : ClientId} {clients : List ClientId}
      (h : s.starting = some (client :: clients)) (hdrained : s.draining = none) :
      Step feed s { s with
        draining := some ⟨client, none⟩
        starting := some clients }
  | start {s : SideProcess w} (h : s.starting = some []) (hdrained : s.draining = none) :
      Step feed s { s with starting := none }

/-- The worker crashes and is restarted from its log. -/
inductive Crash : SideProcess w → SideProcess w → Prop
  | restart {s : SideProcess w} {store : Store ClientId (SideFlow w.Table) (SideRecord w.SideDelta)}
      {clients : List ClientId} (hrestarts : w.discipline.Restarts s.store.log store)
      (hclients : ∀ client, client ∈ clients ↔
        w.discipline.tracked (store.mem client) ∧ (store.mem client).tracker.isReady = true) :
      Crash s { s with store, handling := none, draining := none, starting := some clients }

/-- The states that a run without crashes leads to. -/
def Reachable (feed : SideFeed w) (s : SideProcess w) : Prop :=
  Relation.ReflTransGen (Step feed) (init w) s

/-- The states that a run with crashes leads to. -/
def CrashReachable (feed : SideFeed w) (s : SideProcess w) : Prop :=
  Relation.ReflTransGen (fun s s' ↦ Step feed s s' ∨ Crash s s') (init w) s

end SideProcess

end MoneyLaundering
