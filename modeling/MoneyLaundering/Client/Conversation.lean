import MoneyLaundering.Client.Stream
import MoneyLaundering.Collections.EventRuns
import Mathlib.Logic.Function.Basic

/-!
# A client and the gateway

A client keeps connecting to the gateway until all its queries are complete. In each session the
main thread of the client sends one upload after the other and waits for its acknowledgement, and
handles the results that come in between and after; a sender and a receiver thread move messages
between its queues and the socket (`client/main.py`). At the gateway each session has a
`ClientHandler` with a thread that reads and dispatches, one that takes deliveries from the results
queue of the client, and one that sends (`gateway/internal/client_handler.py`).

A session may be lost at any point: each thread may fail whenever it uses the socket, what is under
way is then lost, and the handler of an old session may go on with what it has. Deliveries that are
not acknowledged to the broker return to the results queue. A client that is shut down, and one
that cannot write its files, are not modelled.

Any list of events is a run; what is not possible at some point does nothing.
-/

namespace MoneyLaundering

/-- A message of a results queue. -/
inductive ResultMessage (R : Type)
  | batch (queryId : ℤ) (records : List R) (messageId : MessageId)
  | queryEnd (queryId messageCount : ℤ)

/-- What a client sends. -/
inductive Request
  | upload (upload : Upload)
  | resultAck (deliveryId : ℕ)
  deriving DecidableEq, Repr

/-- What a client receives. -/
inductive Reply (R : Type)
  | ack
  | result (message : ResultMessage R) (deliveryId : ℕ)

/-! ## The gateway -/

/-- What is in the queue of a handler. A delivery has the number that the broker gave it. -/
inductive HandlerItem (R : Type)
  | ack
  | result (message : ResultMessage R) (tag : ℕ)

/-- Where a handler is in `_receive_loop`. -/
inductive Receiving
  | reading
  | dispatching (upload : Upload)
  /-- The upload is published, its acknowledgement is not in the queue yet. -/
  | forwarded
  | ended
  deriving DecidableEq, Repr

/-- A session, seen from the gateway: what is under way in both directions, and the handler. -/
structure Handler (R : Type) where
  toGateway : List Request
  toClient : List (Reply R)
  receiving : Receiving
  queue : List (HandlerItem R)
  /-- The sender thread has not failed. -/
  sending : Bool
  nextDeliveryId : ℕ
  /-- The delivery that is to be acknowledged to the broker, by delivery id. -/
  pendingAcks : ℕ → Option ℕ
  /-- All deliveries of the broker to this handler, in the order of their numbers. -/
  deliveries : List (ResultMessage R)

namespace Handler

variable {R : Type} (h : Handler R)

def init : Handler R where
  toGateway := []
  toClient := []
  receiving := .reading
  queue := []
  sending := true
  nextDeliveryId := 0
  pendingAcks _ := none
  deliveries := []

/-- `_on_result`. -/
def onResult (message : ResultMessage R) : Handler R :=
  { h with
    deliveries := h.deliveries ++ [message]
    queue := h.queue ++ [.result message h.deliveries.length] }

/-- `_register_pending_ack`. -/
def registerPendingAck (tag : ℕ) : Handler R :=
  { h with
    nextDeliveryId := h.nextDeliveryId + 1
    pendingAcks := Function.update h.pendingAcks (h.nextDeliveryId + 1) (some tag) }

/-- One round of `_sender_loop`. If it does not succeed, the thread ends. -/
def senderStep (succeeds : Bool) : Handler R :=
  if h.sending then
    match h.queue with
    | [] => h
    | .ack :: queue =>
      if succeeds then { h with queue, toClient := h.toClient ++ [.ack] }
      else { h with queue, sending := false }
    | .result message tag :: queue =>
      let registered := h.registerPendingAck tag
      if succeeds then
        { registered with
          queue
          toClient := h.toClient ++ [.result message registered.nextDeliveryId] }
      else { registered with queue, sending := false }
  else h

end Handler

/-! ## The client -/

/-- Where the sender thread of a client is in `_send_data`. -/
inductive ClientSender
  | waiting
  | sending (request : Request)
  | ended
  deriving DecidableEq, Repr

/-- Where the main thread of a client is. -/
inductive ClientPhase
  /-- Between two sessions. -/
  | disconnected
  /-- In the loop of `_produce_and_wait_acks`. -/
  | producing
  /-- In `_wait_ack`. -/
  | waiting
  /-- Behind `_produce_and_wait_acks`. -/
  | produced
  /-- In `_consume_remaining`. -/
  | consuming
  /-- In the `finally` of `_orchestrate`. -/
  | ending
  /-- In the `finally` of `_run_session`. -/
  | joining
  /-- All queries are complete. -/
  | finished
  /-- It has raised. -/
  | failed
  deriving DecidableEq, Repr

structure Client (R : Type) where
  /-- How many messages the generator has yielded. -/
  yielded : ℕ
  pendingMsg : Option Upload
  seenResults : List (ℤ × MessageId)
  received : ℤ → ℕ
  expected : ℤ → Option ℤ
  finalized : List ℤ
  phase : ClientPhase
  receiverQueue : List (Option (Reply R))
  senderQueue : List (Option Request)
  aborted : Bool
  /-- The receiver thread runs. -/
  receiving : Bool
  sender : ClientSender
  /-- The batches that were written to the output files. -/
  written : List (ℤ × List R × MessageId)
  /-- The ends of queries that were handled. -/
  ends : List (ℤ × ℤ)

namespace Client

variable {R : Type} (cfg : ClientConfig) (c : Client R)

def init : Client R where
  yielded := 0
  pendingMsg := none
  seenResults := []
  received _ := 0
  expected _ := none
  finalized := []
  phase := .disconnected
  receiverQueue := []
  senderQueue := []
  aborted := false
  receiving := false
  sender := .ended
  written := []
  ends := []

/-- The beginning of `_run_session`. -/
def runSession : Client R :=
  { c with
    phase := .producing, aborted := false, receiverQueue := [], senderQueue := []
    receiving := true, sender := .waiting }

def allDone : Prop := ∀ queryId ∈ cfg.expectedQueryIds, queryId ∈ c.finalized

instance : Decidable (c.allDone cfg) := inferInstanceAs (Decidable (∀ queryId ∈ _, _))

def ackResult (deliveryId : ℕ) : Client R :=
  { c with senderQueue := c.senderQueue ++ [some (.resultAck deliveryId)] }

/-- A query is complete when the announced number of results was received. -/
def Complete (queryId : ℤ) : Prop := ∃ count ∈ c.expected queryId, count ≤ c.received queryId

instance (queryId : ℤ) : Decidable (c.Complete queryId) :=
  match h : c.expected queryId with
  | none => isFalse fun ⟨_, hcount, _⟩ ↦ absurd (h.symm.trans hcount) (by simp)
  | some count => decidable_of_iff (count ≤ c.received queryId)
    ⟨fun hle ↦ ⟨count, h, hle⟩, fun ⟨_, hcount, hle⟩ ↦
      Option.some.inj (h.symm.trans hcount) ▸ hle⟩

/-- `_maybe_finalize`. It raises, behind the new entry, for a query that has no total. -/
def maybeFinalize (queryId : ℤ) : Client R :=
  if queryId ∈ c.finalized then c
  else if c.Complete queryId then
    { c with
      finalized := queryId :: c.finalized
      phase := if queryId ∈ cfg.expectedQueryIds then c.phase else .failed }
  else c

/-- What follows unless something has raised. -/
def thenAck (deliveryId : ℕ) : Client R :=
  if c.phase = .failed then c else c.ackResult deliveryId

/-- A result with an id is remembered. -/
def markSeen (queryId : ℤ) (messageId : MessageId) : Client R :=
  if messageId = "" then c
  else { c with seenResults := (queryId, messageId) :: c.seenResults }

/-- The records are written and counted. -/
def write (queryId : ℤ) (records : List R) (messageId : MessageId) : Client R :=
  { c with
    written := c.written ++ [(queryId, records, messageId)]
    received := Function.update c.received queryId (c.received queryId + 1) }

/-- `_handle_query_result`. It raises for a query that has no writer. -/
def handleQueryResult (queryId : ℤ) (records : List R) (messageId : MessageId) (deliveryId : ℕ) :
    Client R :=
  if messageId ≠ "" ∧ (queryId, messageId) ∈ c.seenResults then c.ackResult deliveryId
  else
    let marked := c.markSeen queryId messageId
    if queryId ∈ cfg.expectedQueryIds then
      ((marked.write queryId records messageId).maybeFinalize cfg queryId).thenAck deliveryId
    else { marked with phase := .failed }

/-- `_handle_query_end`. -/
def handleQueryEnd (queryId messageCount : ℤ) (deliveryId : ℕ) : Client R :=
  let expecting :=
    { c with
      ends := c.ends ++ [(queryId, messageCount)]
      expected := Function.update c.expected queryId (some messageCount) }
  (expecting.maybeFinalize cfg queryId).thenAck deliveryId

def handleResult (message : ResultMessage R) (deliveryId : ℕ) : Client R :=
  match message with
  | .batch queryId records messageId =>
    c.handleQueryResult cfg queryId records messageId deliveryId
  | .queryEnd queryId messageCount => c.handleQueryEnd cfg queryId messageCount deliveryId

/-- An upload is put in the queue of the sender, and its acknowledgement is waited for. -/
def put (upload : Upload) : Client R :=
  { c with
    pendingMsg := some upload
    senderQueue := c.senderQueue ++ [some (.upload upload)]
    phase := .waiting }

/-- One round of the loop of `_produce_and_wait_acks`, up to `_wait_ack`. -/
def produce : Client R :=
  if c.aborted then { c with phase := .produced }
  else
    match c.pendingMsg with
    | some upload => c.put upload
    | none =>
      match (messagesToSend cfg).1[c.yielded]? with
      | some upload => { c with yielded := c.yielded + 1 }.put upload
      | none => { c with phase := if (messagesToSend cfg).2 then .failed else .produced }

/-- One round of `_wait_ack`. -/
def waitAck : Client R :=
  match c.receiverQueue with
  | [] => c
  | none :: queue => { c with receiverQueue := queue, phase := .produced }
  | some .ack :: queue =>
    { c with receiverQueue := queue, pendingMsg := none, phase := .producing }
  | some (.result message deliveryId) :: queue =>
    { c with receiverQueue := queue }.handleResult cfg message deliveryId

/-- One round of `_consume_remaining`. -/
def consumeRemaining : Client R :=
  if c.allDone cfg then { c with phase := .ending }
  else
    match c.receiverQueue with
    | [] => c
    | none :: queue => { c with receiverQueue := queue, phase := .ending }
    | some .ack :: queue => { c with receiverQueue := queue }
    | some (.result message deliveryId) :: queue =>
      { c with receiverQueue := queue }.handleResult cfg message deliveryId

/-- One step of the main thread. -/
def orchestrate : Client R :=
  match c.phase with
  | .producing => c.produce cfg
  | .waiting => c.waitAck cfg
  | .produced => { c with phase := if c.aborted then .ending else .consuming }
  | .consuming => c.consumeRemaining cfg
  | .ending => { c with senderQueue := c.senderQueue ++ [none], phase := .joining }
  | .joining =>
    if c.receiving = false ∧ c.sender = .ended then
      { c with phase := if c.allDone cfg then .finished else .disconnected }
    else c
  | .disconnected | .finished | .failed => c

/-- The sender takes what is first in its queue. -/
def senderTakes : Client R :=
  match c.sender, c.senderQueue with
  | .waiting, none :: queue =>
    { c with senderQueue := queue, sender := .ended, receiverQueue := c.receiverQueue ++ [none] }
  | .waiting, some request :: queue => { c with senderQueue := queue, sender := .sending request }
  | _, _ => c

/-- `send_msg` raises in the sender. -/
def senderFails : Client R :=
  match c.sender with
  | .sending _ =>
    { c with sender := .ended, aborted := true, receiverQueue := c.receiverQueue ++ [none] }
  | .waiting | .ended => c

/-- `recv_msg` raises in the receiver. -/
def receiverFails : Client R :=
  if c.receiving then
    { c with
      receiving := false, aborted := true
      receiverQueue := c.receiverQueue ++ [none]
      senderQueue := c.senderQueue ++ [none] }
  else c

end Client

/-! ## Both -/

/-- A client, its sessions in the order in which they began, and the broker. -/
structure Conversation (R : Type) where
  client : Client R
  count : ℕ
  handlers : ℕ → Handler R
  /-- The results queue of the client. -/
  ready : List (ResultMessage R)
  /-- The deliveries that are not acknowledged: the session, the number, and the message. -/
  unacked : List (ℕ × ℕ × ResultMessage R)
  /-- All that was published to the results queue. -/
  published : List (ResultMessage R)
  /-- The deliveries that the gateway has acknowledged. -/
  acks : List (ℕ × ℕ)
  /-- The uploads that the client has sent. -/
  sends : List Upload
  /-- The uploads that the gateway has published to the workers, with what it published. -/
  forwarded : List (Upload × RawMessage)

namespace Conversation

variable {R : Type}

inductive Event (R : Type)
  /-- A worker publishes to the results queue. -/
  | publish (message : ResultMessage R)
  /-- The broker delivers message `k` of the queue to handler `i`. -/
  | deliver (i k : ℕ)
  /-- The broker handles an acknowledgement. -/
  | settle (i tag : ℕ)
  /-- The broker puts an unacknowledged delivery back. -/
  | requeue (i tag : ℕ)
  | connect
  | orchestrate
  | senderTakes
  | senderSends
  | senderFails
  | receives
  | receiverFails
  /-- Handler `i` reads a message. -/
  | reads (i : ℕ)
  | forwards (i : ℕ)
  | enqueuesAck (i : ℕ)
  /-- The receive loop of handler `i` raises. -/
  | fails (i : ℕ)
  | sends (i : ℕ)
  | sendFails (i : ℕ)

def init : Conversation R where
  client := Client.init
  count := 0
  handlers _ := Handler.init
  ready := []
  unacked := []
  published := []
  acks := []
  sends := []
  forwarded := []

variable (cfg : ClientConfig) (router : InternalRouter) (clientId : ClientId)
  (s : Conversation R)

/-- Handler `i` is changed. -/
def update (i : ℕ) (h : Handler R) : Conversation R :=
  { s with handlers := Function.update s.handlers i h }

/-- The session of the client. -/
def current : ℕ := s.count - 1

/-- A message that goes to handler `i`. -/
def deliver (i k : ℕ) : Conversation R :=
  match s.ready[k]? with
  | none => s
  | some message =>
    { s.update i ((s.handlers i).onResult message) with
      ready := s.ready.eraseIdx k
      unacked := s.unacked ++ [(i, (s.handlers i).deliveries.length, message)] }

/-- The deliveries with number `tag` of session `i` go back to the queue. -/
def requeue (i tag : ℕ) : Conversation R :=
  let back := s.unacked.filter fun d ↦ d.1 = i ∧ d.2.1 = tag
  { s with
    ready := s.ready ++ back.map fun d ↦ d.2.2
    unacked := s.unacked.filter fun d ↦ ¬(d.1 = i ∧ d.2.1 = tag) }

/-- The sender of the client sends what it has taken. -/
def senderSends : Conversation R :=
  match s.client.sender with
  | .sending request =>
    let h := s.handlers s.current
    { s.update s.current { h with toGateway := h.toGateway ++ [request] } with
      client := { s.client with sender := .waiting }
      sends := s.sends ++ match request with
        | .upload upload => [upload]
        | .resultAck _ => [] }
  | .waiting | .ended => s

/-- The receiver of the client puts a message in its queue. -/
def receives : Conversation R :=
  match (s.handlers s.current).toClient with
  | [] => s
  | reply :: replies =>
    if s.client.receiving then
      { s.update s.current { s.handlers s.current with toClient := replies } with
        client := { s.client with receiverQueue := s.client.receiverQueue ++ [some reply] } }
    else s

/-- A handler reads a message: it begins to dispatch an upload, or acknowledges a delivery to the
broker (`_on_result_ack`). -/
def reads (i : ℕ) : Conversation R :=
  let h := s.handlers i
  match h.receiving, h.toGateway with
  | .reading, .upload upload :: requests =>
    s.update i { h with toGateway := requests, receiving := .dispatching upload }
  | .reading, .resultAck deliveryId :: requests =>
    { s.update i
        { h with
          toGateway := requests
          pendingAcks := Function.update h.pendingAcks deliveryId none } with
      acks := s.acks ++ (h.pendingAcks deliveryId).toList.map fun tag ↦ (i, tag) }
  | _, _ => s

/-- A handler publishes the upload it dispatches. -/
def forwards (i : ℕ) : Conversation R :=
  let h := s.handlers i
  match h.receiving with
  | .dispatching upload =>
    match router.dispatch clientId upload with
    | none => s.update i { h with receiving := .ended }
    | some message =>
      { s.update i { h with receiving := .forwarded } with
        forwarded := s.forwarded ++ [(upload, message)] }
  | .reading | .forwarded | .ended => s

def enqueuesAck (i : ℕ) : Conversation R :=
  let h := s.handlers i
  match h.receiving with
  | .forwarded => s.update i { h with receiving := .reading, queue := h.queue ++ [.ack] }
  | .reading | .dispatching _ | .ended => s

def step : Event R → Conversation R
  | .publish message =>
    { s with ready := s.ready ++ [message], published := s.published ++ [message] }
  | .deliver i k => if i < s.count then s.deliver i k else s
  | .settle i tag =>
    if (i, tag) ∈ s.acks then
      { s with unacked := s.unacked.filter fun d ↦ ¬(d.1 = i ∧ d.2.1 = tag) }
    else s
  | .requeue i tag => s.requeue i tag
  | .connect =>
    if s.client.phase = .disconnected then
      { s.update s.count Handler.init with client := s.client.runSession, count := s.count + 1 }
    else s
  | .orchestrate => { s with client := s.client.orchestrate cfg }
  | .senderTakes => { s with client := s.client.senderTakes }
  | .senderSends => s.senderSends
  | .senderFails => { s with client := s.client.senderFails }
  | .receives => s.receives
  | .receiverFails => { s with client := s.client.receiverFails }
  | .reads i => s.reads i
  | .forwards i => s.forwards router clientId i
  | .enqueuesAck i => s.enqueuesAck i
  | .fails i => s.update i { s.handlers i with receiving := .ended }
  | .sends i => s.update i ((s.handlers i).senderStep true)
  | .sendFails i => s.update i ((s.handlers i).senderStep false)

end Conversation

end MoneyLaundering
