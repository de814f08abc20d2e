import MoneyLaundering.Worker.Run

/-!
# A stage of workers in a ring

A stage is `n` nodes running the same kind of worker. Each has a main queue, from which messages are
taken in any order, and a control queue, which is first in, first out: a token that was not
acknowledged is back at its head after a restart. A node handles one message at a time, of either
queue, and may die at any point of it; the message then stays in its queue. Only the traffic of one
client is followed.

Besides the processes and the queues, a stage remembers what was published, of which messages a
node has made a token, which nodes were made to flush, and what cleanups dropped; and each queued
token remembers what each node added to its totals. None of that is read by a handler.
-/

namespace MoneyLaundering

open WriteAhead StatefulWorker

/-- A token in a control queue, with what each node has added to its totals. -/
structure Envelope where
  token : Token
  processedOf : NodeId → ℤ
  sentOf : NodeId → ℤ

namespace Envelope

def messageId (envelope : Envelope) : MessageId := envelope.token.messageId

def total (envelope : Envelope) : ℤ := envelope.token.ring.totalProcessedCount

def totalSent (envelope : Envelope) : ℤ := envelope.token.ring.totalSentCount.getD 0

/-- Nothing has been added yet. -/
def blank : Envelope where
  token := ⟨"", ⟨0, 0, none, none⟩⟩
  processedOf _ := 0
  sentOf _ := 0

/-- The envelope of a token that node `i` publishes when it handles `origin`. -/
def pass (i : NodeId) (origin : Envelope) (token : Token) : Envelope where
  token := token
  processedOf := Function.update origin.processedOf i
    (origin.processedOf i + (token.ring.totalProcessedCount - origin.total))
  sentOf := Function.update origin.sentOf i
    (origin.sentOf i + (token.ring.totalSentCount.getD 0 - origin.totalSent))

/-- A token that looks for a coordinator of a flush. -/
def Counting (envelope : Envelope) : Prop :=
  envelope.token.ring.coordinatorId = none ∧
    envelope.token.ring.expectedCount ≠ cleanupExpectedCount

instance (envelope : Envelope) : Decidable envelope.Counting := instDecidableAnd

end Envelope

/-- What a node takes from one of its queues. -/
inductive Taken
  | data (messageId : MessageId)
  | eof (messageId : MessageId) (marker : EOF)
  | token (envelope : Envelope)

def MainMessage.taken {w : StatefulWorker} : MainMessage w → Taken
  | .data messageId _ => .data messageId
  | .eof messageId marker => .eof messageId marker

namespace Taken

/-- What a token published now is a continuation of. -/
def origin : Taken → Envelope
  | .token envelope => envelope
  | .data _ => .blank
  | .eof _ _ => .blank

/-- The channel of a message and its id. -/
def key : Taken → Channel × MessageId
  | .data messageId => (.main, messageId)
  | .eof messageId _ => (.main, messageId)
  | .token envelope => (.control, envelope.messageId)

/-- The message is not a copy of one that was handled before. -/
def Fresh {σ : Type} (v : Observed σ) : Taken → Prop
  | .data messageId => messageId ∉ v.seen .main
  | .eof messageId _ => messageId ∉ v.seen .main
  | .token envelope => envelope.messageId ∉ v.seen .control

instance {σ : Type} (v : Observed σ) : (taken : Taken) → Decidable (taken.Fresh v)
  | .data _ => instDecidableNot
  | .eof _ _ => instDecidableNot
  | .token _ => instDecidableNot

/-- The message makes its receiver flush. -/
def Flushes : Taken → Prop
  | .token envelope => envelope.token.ring.coordinatorId ≠ none ∧
      envelope.token.ring.expectedCount ≠ cleanupExpectedCount
  | .data _ => False
  | .eof _ _ => False

instance : (taken : Taken) → Decidable taken.Flushes
  | .data _ => instDecidableFalse
  | .eof _ _ => instDecidableFalse
  | .token _ => instDecidableAnd

/-- The message belongs to a cleanup. -/
def Cleans : Taken → Prop
  | .token envelope => envelope.token.ring.expectedCount = cleanupExpectedCount
  | .data _ => False
  | .eof _ marker => marker.messageCount = cleanupExpectedCount

instance : (taken : Taken) → Decidable taken.Cleans
  | .data _ => instDecidableFalse
  | .eof _ _ => inferInstanceAs (Decidable (_ = _))
  | .token _ => inferInstanceAs (Decidable (_ = _))

end Taken

/-- The output is a token. -/
def Output.isRing {α : Type} : Output α → Bool
  | .data _ => false
  | .ring _ _ => true
  | .finalEof _ _ => false

/-- The control queues of a stage and what it remembers. -/
structure Network (α : Type) where
  control : NodeId → List Envelope
  /-- What was published, by whom. -/
  outputs : List (NodeId × Output α)
  /-- The messages of which a node has published a token, recorded or not. -/
  answered : List (NodeId × Channel × MessageId)
  /-- The nodes that were made to flush. -/
  flushes : List NodeId
  /-- What nodes had not reported when a cleanup made them forget it. -/
  dropped : List ℤ

namespace Network

variable {α : Type}

def empty : Network α := ⟨fun _ ↦ [], [], [], [], []⟩

/-- Node `i` publishes a message while handling `origin`. -/
def publish (i : NodeId) (origin : Envelope) (net : Network α) (o : Output α) : Network α :=
  { net with
    outputs := net.outputs ++ [(i, o)]
    control :=
      match o with
      | .ring node token =>
        Function.update net.control node (net.control node ++ [origin.pass i token])
      | .data _ => net.control
      | .finalEof _ _ => net.control }

/-- Node `i`, with the counters `v`, has taken a message and published `outs`. -/
def handled {σ : Type} (i : NodeId) (v : Observed σ) (taken : Taken) (outs : List (Output α))
    (net : Network α) : Network α :=
  let published := outs.foldl (publish i taken.origin) net
  { published with
    answered := published.answered ++ if outs.any Output.isRing then [(i, taken.key)] else []
    flushes := published.flushes ++ if taken.Fresh v ∧ taken.Flushes then [i] else []
    dropped := published.dropped ++
      if taken.Fresh v ∧ taken.Cleans then [v.processed - v.partialProcessed] else [] }

/-- The token at the head of a control queue is acknowledged. -/
def pop (i : NodeId) (net : Network α) : Network α :=
  { net with control := Function.update net.control i (net.control i).tail }

end Network

/-- The nodes of a stage and its queues. -/
structure Stage (w : StatefulWorker) where
  store : NodeId → w.WorkerStore
  inbox : NodeId → List (MainMessage w)
  net : Network w.Item

/-- What a step of a stage does: a node takes a message of its main queue, or the token at the head
of its control queue (and sends a number of messages if it flushes), and acknowledges it or dies; or
it is restarted while idle. -/
inductive Label
  | main (i : NodeId) (taken : Taken) (done : Bool)
  | token (i : NodeId) (sends : ℕ) (done : Bool)
  | restart (i : NodeId)

namespace Stage

variable {w : StatefulWorker}

/-- A stage in which nothing has been handled yet. -/
def init (inbox : NodeId → List (MainMessage w)) : Stage w where
  store _ := ⟨fun _ ↦ w.emptyFlow, []⟩
  inbox := inbox
  net := Network.empty

variable (n : ℕ) (client : ClientId)

/-- The counters of a node. -/
def node (s : Stage w) (i : NodeId) : Observed Unit := ((s.store i).mem client).observe.forget

inductive Step : Stage w → Label → Stage w → Prop
  | main {s : Stage w} {i : NodeId} {before after : List (MainMessage w)} {message : MainMessage w}
      {flow : Flow w.State} {es : List (Eff w)} {point : Option ℕ} {outs : List (Output w.Item)}
      {store : w.WorkerStore} {compacted : Bool} (hi : i < n)
      (hinbox : s.inbox i = before ++ message :: after)
      (hhandles : Handles ⟨i, n⟩ client ((s.store i).mem client) (.main message) (flow, es))
      (hrun : w.discipline.Outcome (s.store i) client flow es point outs store compacted) :
      Step s (.main i message.taken point.isNone)
        { store := Function.update s.store i store
          inbox := if point.isNone then Function.update s.inbox i (before ++ after) else s.inbox
          net := s.net.handled i (s.node client i) message.taken outs }
  | token {s : Stage w} {i : NodeId} {envelope : Envelope} {rest : List Envelope}
      {msgs : List (Message w.Item)} {flow : Flow w.State} {es : List (Eff w)} {point : Option ℕ}
      {outs : List (Output w.Item)} {store : w.WorkerStore} {compacted : Bool} (hi : i < n)
      (hhead : s.net.control i = envelope :: rest)
      (hflush : w.FlushData i client ((s.store i).mem client).state msgs)
      (hhandles : handleControlMessage ⟨i, n⟩ client msgs ((s.store i).mem client) envelope.token
        = (flow, es))
      (hrun : w.discipline.Outcome (s.store i) client flow es point outs store compacted) :
      Step s (.token i msgs.length point.isNone)
        { store := Function.update s.store i store
          inbox := s.inbox
          net :=
            let net := s.net.handled i (s.node client i) (.token envelope) outs
            if point.isNone then net.pop i else net }
  | restart {s : Stage w} {i : NodeId} {store : w.WorkerStore} (hi : i < n)
      (hrestart : w.discipline.Restarts (s.store i).log store) :
      Step s (.restart i) { s with store := Function.update s.store i store }

/-- The stages that a run leads to all of whose steps meet a condition. -/
def Reachable (condition : Stage w → Label → Prop) (s₀ s : Stage w) : Prop :=
  Relation.ReflTransGen (fun s s' ↦ ∃ l, condition s l ∧ Step n client s l s') s₀ s

/-- The step published a token or changed what a node holds. -/
def Acts (s s' : Stage w) : Prop :=
  s'.node client ≠ s.node client ∨ s'.net.answered ≠ s.net.answered

/-- The stages that a run leads to all of whose steps that act meet a condition. A handler that is
cut off before it acts is no more than a restart. -/
def ReachableActing (condition : Stage w → Label → Prop) (s₀ s : Stage w) : Prop :=
  Relation.ReflTransGen
    (fun s s' ↦ ∃ l, (Acts client s s' → condition s l) ∧ Step n client s l s') s₀ s

variable {n client}

theorem Reachable.acting {condition : Stage w → Label → Prop} {s₀ s : Stage w}
    (h : Reachable n client condition s₀ s) : ReachableActing n client condition s₀ s := by
  refine Relation.ReflTransGen.mono (fun s s' hstep ↦ ?_) s₀ s h
  obtain ⟨l, hcondition, hstep⟩ := hstep
  exact ⟨l, fun _ ↦ hcondition, hstep⟩

/-- A handler that is given its message can run to its end without a compaction. -/
theorem step_main {s : Stage w} {i : NodeId} {before after : List (MainMessage w)}
    {message : MainMessage w} {flow : Flow w.State} {es : List (Eff w)} (hi : i < n)
    (hinbox : s.inbox i = before ++ message :: after)
    (hhandles : Handles ⟨i, n⟩ client ((s.store i).mem client) (.main message) (flow, es)) :
    Step n client s (.main i message.taken true)
      { store := Function.update s.store i ⟨Function.update (s.store i).mem client flow,
          (s.store i).log ++ (appends es).map fun r ↦ (client, r)⟩
        inbox := Function.update s.inbox i (before ++ after)
        net := s.net.handled i (s.node client i) message.taken (publishes es) } :=
  .main hi hinbox hhandles (.complete (Discipline.exec_keep _ _ _ _))

theorem step_token {s : Stage w} {i : NodeId} {envelope : Envelope} {rest : List Envelope}
    {msgs : List (Message w.Item)} {flow : Flow w.State} {es : List (Eff w)} (hi : i < n)
    (hhead : s.net.control i = envelope :: rest)
    (hflush : w.FlushData i client ((s.store i).mem client).state msgs)
    (hhandles : handleControlMessage ⟨i, n⟩ client msgs ((s.store i).mem client) envelope.token
      = (flow, es)) :
    Step n client s (.token i msgs.length true)
      { store := Function.update s.store i ⟨Function.update (s.store i).mem client flow,
          (s.store i).log ++ (appends es).map fun r ↦ (client, r)⟩
        inbox := s.inbox
        net := (s.net.handled i (s.node client i) (.token envelope) (publishes es)).pop i } :=
  .token hi hhead hflush hhandles (.complete (Discipline.exec_keep _ _ _ _))

end Stage

end MoneyLaundering
