import MoneyLaundering.Worker.Handlers

/-!
# Runs of one worker process

A worker process handles deliveries one at a time, for any number of clients, and may crash at any
point of a handler and be restarted from its log. Deliveries are not constrained here: a message may
be delivered any number of times, to either channel in any order, so a run of this model covers
every way in which the broker redelivers what was not acknowledged.

Besides the memory and the log, the state of a run remembers what happened to it: which records
became durable and by which delivery, which deliveries were made, and which were acknowledged.
-/

namespace MoneyLaundering

open WriteAhead

/-- A message taken from one of the two channels. -/
inductive Delivery (w : StatefulWorker)
  | main (message : MainMessage w)
  | control (token : Token)

/-- The delivery makes no node flush or drop its client. -/
def Delivery.Quiet {w : StatefulWorker} : Delivery w → Prop
  | .main _ => True
  | .control token => token.ring.coordinatorId = none

/-- A record that reached the log, with the delivery that caused it. -/
structure Durable (w : StatefulWorker) where
  delivery : Delivery w
  record : FlowRecord w.Delta

namespace StatefulWorker

variable (w : StatefulWorker)

/-- The store of a worker process. -/
abbrev WorkerStore := Store ClientId (Flow w.State) (FlowRecord w.Delta)

variable {w}

/-- Wherever a sound handler is cut off, memory and log agree on what was appended by then. -/
theorem Sound.outcome {V : Type} {ν : View w.discipline V} {st st' : w.WorkerStore}
    {client : ClientId} {flow : Flow w.State} {es : List (Eff w)} {point : Option ℕ}
    {outs : List (Output w.Item)} {b : Bool} (h : Sound ν (st.mem client) flow es)
    (hrun : w.discipline.Outcome st client flow es point outs st' b)
    (hsync : ν.Synced st client) :
    outs = publishes (upTo point es) ∧ ν.Synced st' client ∧
      ν.view (st'.mem client) = ν.applyAll (appends (upTo point es)) (ν.view (st.mem client)) :=
  ν.outcome_view w.settled_replayRecord hrun hsync h.consistent h.final h.settled

variable (cfg : NodeConfig)

/-- What handling a delivery does, for some order of iteration of the flush. -/
def Handles (client : ClientId) (flow : Flow w.State) : Delivery w → Flow w.State × List (Eff w) →
    Prop
  | .main message, result => handleMessage cfg client flow message = some result
  | .control token, result => ∃ msgs, w.FlushData cfg.nodeId client flow.state msgs ∧
      handleControlMessage cfg client msgs flow token = result

end StatefulWorker

open StatefulWorker

/-- A worker process and what happened to it. -/
structure Process (w : StatefulWorker) where
  store : w.WorkerStore
  /-- The records that became durable, by client, in order. -/
  durable : ClientId → List (Durable w)
  delivered : List (ClientId × Delivery w)
  acked : List (ClientId × Delivery w)

namespace Process

variable {w : StatefulWorker}

/-- A process that has never run. -/
def init (w : StatefulWorker) : Process w where
  store := ⟨fun _ ↦ w.emptyFlow, []⟩
  durable _ := []
  delivered := []
  acked := []

/-- What a run remembers of a handler run that was cut off at `point`. -/
def remember (s : Process w) (client : ClientId) (delivery : Delivery w) (es : List (Eff w))
    (point : Option ℕ) (store : w.WorkerStore) : Process w where
  store := store
  durable := Function.update s.durable client
    (s.durable client ++ (appends (upTo point es)).map (Durable.mk delivery))
  delivered := s.delivered ++ [(client, delivery)]
  acked := if point = none then s.acked ++ [(client, delivery)] else s.acked

/-- A process handles a delivery, possibly crashing on the way, or is restarted while idle. -/
inductive Step (cfg : NodeConfig) : Process w → Process w → Prop
  | deliver {s : Process w} {client : ClientId} {delivery : Delivery w} {flow : Flow w.State}
      {es : List (Eff w)} {point : Option ℕ} {outs : List (Output w.Item)} {store : w.WorkerStore}
      {compacted : Bool} (hhandles : Handles cfg client (s.store.mem client) delivery (flow, es))
      (hrun : w.discipline.Outcome s.store client flow es point outs store compacted) :
      Step cfg s (s.remember client delivery es point store)
  | restart {s : Process w} {store : w.WorkerStore}
      (hrestart : w.discipline.Restarts s.store.log store) : Step cfg s { s with store }

/-- The process states that some run leads to. -/
def Reachable (cfg : NodeConfig) (s : Process w) : Prop :=
  Relation.ReflTransGen (Step cfg) (init w) s

end Process

end MoneyLaundering
