import MoneyLaundering.Worker.Sharding

/-!
# Stages without a state

Six of the workers turn each batch into other batches and remember nothing in between
(`common/worker/stateless_worker.py`). But the stages after them count messages: an end of stream
announces how many there are, and it is passed on as it is. So a stateless worker has to send, to
each of its consumers, one message for each message it takes, whatever is left of the batch.

A `Route` is a group of consumers: the queues of the replicas of a stage, or the queue they share. A
worker that `Forwards` puts one message in one queue of each route for each message it takes, under
a key that the id determines. `Forwards.preservesCount` says what follows for a stage of any number
of replicas, however the messages are split over them.
-/

namespace MoneyLaundering

variable {A : Type}

/-! ## What is published -/

/-- What a worker publishes to: an exchange, or the queue of the next stage. -/
inductive Middleware
  | exchange (name : String)
  | queue (name : String)
  deriving DecidableEq, Repr

/-- Where a message is published. -/
structure Address where
  middleware : Middleware
  routingKey : Option String
  deriving DecidableEq, Repr

structure Q1Result (A : Type) where
  fromBank : String
  fromAccount : String
  toBank : String
  toAccount : String
  amountPaid : A
  deriving DecidableEq

structure TransactionForCurrencyConversion (A : Type) where
  timestamp : String
  amount : A
  currency : String
  deriving DecidableEq

/-- The messages of the stateless workers. -/
inductive StagePayload (A : Type)
  | transactionBatch (transactions : List (Transaction A))
  | bankBatch (banks : List Bank)
  | currencyConversionBatch (transactions : List (TransactionForCurrencyConversion A))
  | amountTransactionBatch (transactions : List (TransactionAmount A))
  | q1ResultBatch (results : List (Q1Result A))
  | eof (eof : EOF)
  | queryEnd (queryId : ℕ) (messageCount : ℤ)

/-- All fields are set. -/
def Transaction.complete (tx : Transaction A) : Bool :=
  tx.timestamp.isSome && tx.fromBank.isSome && tx.fromAccount.isSome && tx.toBank.isSome &&
    tx.toAccount.isSome && tx.amount.isSome && tx.currency.isSome && tx.paymentFormat.isSome

namespace StagePayload

/-- `serialize_msg` can write it. The fields of a transaction are not compared with `None` first. -/
def serializable : StagePayload A → Bool
  | transactionBatch transactions => transactions.all Transaction.complete
  | _ => true

/-- The number of messages that is announced, at the end of a stream. -/
def announcement : StagePayload A → Option ℤ
  | .eof e => some e.messageCount
  | queryEnd _ messageCount => some messageCount
  | _ => none

end StagePayload

structure Outgoing (A : Type) where
  address : Address
  clientId : ClientId
  messageId : MessageId
  payload : StagePayload A

/-- `_send`; nothing when the payload cannot be serialised. -/
def send (messageId : MessageId) (client : ClientId) (address : Address)
    (payload : StagePayload A) : Option (Outgoing A) :=
  if payload.serializable then some ⟨address, client, messageId, payload⟩ else none

/-- One `_send` after the other. -/
def sendAll (messageId : MessageId) (client : ClientId)
    (outputs : List (Address × StagePayload A)) :
    Option (List (Outgoing A)) :=
  outputs.mapM fun output ↦ send messageId client output.1 output.2

variable {messageId : MessageId} {client : ClientId} {outputs : List (Address × StagePayload A)}
  {sent : List (Outgoing A)}

theorem exists_mapM {α β : Type} {f : α → Option β} {l : List α} (h : ∀ a ∈ l, f a ≠ none) :
    ∃ l', l.mapM f = some l' := by
  induction l with
  | nil => exact ⟨[], rfl⟩
  | cons a l ih =>
    obtain ⟨b, hb⟩ := Option.ne_none_iff_exists'.mp (h a List.mem_cons_self)
    obtain ⟨l', hl'⟩ := ih fun a' ha' ↦ h a' (List.mem_cons_of_mem _ ha')
    exact ⟨b :: l', by rw [List.mapM_cons, hb, hl']; rfl⟩

theorem exists_sendAll (h : ∀ output ∈ outputs, output.2.serializable) :
    ∃ sent, sendAll messageId client outputs = some sent :=
  exists_mapM fun output houtput ↦ by
    rw [send, if_pos (h output houtput)]
    exact Option.some_ne_none _

theorem sendAll_eq_some (h : sendAll messageId client outputs = some sent) :
    sent = outputs.map fun output ↦ ⟨output.1, client, messageId, output.2⟩ := by
  induction outputs generalizing sent with
  | nil => exact (Option.some.inj h).symm
  | cons output outputs ih =>
    simp only [sendAll, List.mapM_cons, Option.bind_eq_bind, Option.bind_eq_some_iff] at h
    obtain ⟨first, hfirst, rest, hrest, hsent⟩ := h
    have heq : first = ⟨output.1, client, messageId, output.2⟩ := by
      rw [send] at hfirst
      split at hfirst
      · exact (Option.some.inj hfirst).symm
      · exact absurd hfirst (Option.some_ne_none _).symm
    rw [← Option.some.inj hsent, heq, ih hrest, List.map_cons]

/-! ## The workers -/

inductive InboundPayload (Item : Type)
  | data (items : List Item)
  | eof (eof : EOF)

/-- A message as a worker takes it from its input. -/
structure Inbound (Item : Type) where
  clientId : ClientId
  messageId : MessageId
  payload : InboundPayload Item

structure StatelessWorker (A : Type) where
  /-- The records of the batches it takes. -/
  Item : Type
  /-- `_handle_data_message`; the first argument is `_current_message_id`. Nothing when it
  raises. -/
  handleDataMessage : MessageId → ClientId → List Item → Option (List (Outgoing A))
  /-- `_send_final_eof` -/
  sendFinalEof : ClientId → EOF → List (Outgoing A)

namespace StatelessWorker

variable {w : StatelessWorker A}

/-- `_handle_eof_message`. A cleanup drops the flow of the client first; there is nothing in it,
since the worker has no state store and never adds to `_seen`. -/
def handleEofMessage (w : StatelessWorker A) (client : ClientId) (eof : EOF) : List (Outgoing A) :=
  w.sendFinalEof client eof

/-- `_handle_message`, without a state store. The new `_current_message_id`, and what is sent. -/
def handleMessage (w : StatelessWorker A) (_currentMessageId : MessageId) (m : Inbound w.Item) :
    Option (MessageId × List (Outgoing A)) :=
  match m.payload with
  | .data items => (w.handleDataMessage m.messageId m.clientId items).map fun sent ↦
    (m.messageId, sent)
  | .eof eof => some (m.messageId, w.handleEofMessage m.clientId eof)

/-- One message after the other. -/
def handleMessages (w : StatelessWorker A) :
    MessageId → List (Inbound w.Item) → Option (MessageId × List (Outgoing A))
  | currentMessageId, [] => some (currentMessageId, [])
  | currentMessageId, m :: ms =>
    (w.handleMessage currentMessageId m).bind fun handled ↦
      (w.handleMessages handled.1 ms).map fun rest ↦ (rest.1, handled.2 ++ rest.2)

end StatelessWorker

/-! ## The routes -/

/-- A group of consumers. -/
structure Route where
  middleware : Middleware
  /-- The routing keys that each queue of the group is bound by. -/
  queues : List (List (Option String))
  /-- The routing key that a data message with this id is sent with. -/
  key : MessageId → Option String

namespace Route

/-- The replicas of the next stage share a queue, which nothing else is published to. -/
def direct (name : String) : Route := ⟨.queue name, [[none]], fun _ ↦ none⟩

/-- One queue, bound by two keys: that of the data and that of the ends of streams. -/
def bound (middleware : Middleware) (dataKey eofKey : String) : Route :=
  ⟨middleware, [[some dataKey, some eofKey]], fun _ ↦ some dataKey⟩

/-- A single consumer with a key of its own. -/
def single (middleware : Middleware) (consumerKey : String) : Route :=
  ⟨middleware, [[some consumerKey]], fun _ ↦ some consumerKey⟩

/-- The replicas of the next stage have a queue each, and the id says which of them gets a
message. -/
def sharded (hash : String → ℕ) (middleware : Middleware) (nodeCount : ℕ) : Route :=
  ⟨middleware, (List.range nodeCount).map fun node ↦ [some (toString node)],
    fun messageId ↦ some (toString (shardOf hash messageId nodeCount))⟩

/-- How many queues of the group a message is put in. -/
def copies (r : Route) (address : Address) : ℕ :=
  if address.middleware = r.middleware then r.queues.countP (address.routingKey ∈ ·) else 0

/-- What the queues of the group get. -/
def arrivals (r : Route) (sent : List (Outgoing A)) : List (Outgoing A) :=
  sent.flatMap fun m ↦ List.replicate (r.copies m.address) m

variable {r : Route}

@[simp] theorem arrivals_nil : r.arrivals ([] : List (Outgoing A)) = [] := rfl

theorem arrivals_append (sent rest : List (Outgoing A)) :
    r.arrivals (sent ++ rest) = r.arrivals sent ++ r.arrivals rest := List.flatMap_append

theorem mem_of_mem_arrivals {m : Outgoing A} (h : m ∈ r.arrivals sent) : m ∈ sent := by
  obtain ⟨m', hm', hmem⟩ := List.mem_flatMap.mp h
  rw [List.eq_of_mem_replicate hmem]
  exact hm'

/-- The keys under which some messages arrive. -/
def keysOf (r : Route) (addresses : List Address) : List (Option String) :=
  addresses.flatMap fun address ↦ List.replicate (r.copies address) address.routingKey

theorem map_arrivals (sent : List (Outgoing A)) :
    (r.arrivals sent).map (fun m ↦ m.address.routingKey)
      = r.keysOf (sent.map Outgoing.address) := by
  rw [arrivals, keysOf, List.map_flatMap, List.flatMap_map]
  simp only [List.map_replicate]

@[simp] theorem keysOf_nil : r.keysOf [] = [] := rfl

theorem keysOf_cons (address : Address) (addresses : List Address) :
    r.keysOf (address :: addresses)
      = List.replicate (r.copies address) address.routingKey ++ r.keysOf addresses :=
  List.flatMap_cons

theorem copies_of_ne {address : Address} (h : address.middleware ≠ r.middleware) :
    r.copies address = 0 := if_neg h

theorem copies_of_eq {address : Address} (h : address.middleware = r.middleware) :
    r.copies address = r.queues.countP (address.routingKey ∈ ·) := if_pos h

@[simp] theorem copies_direct (name : String) :
    (direct name).copies ⟨.queue name, none⟩ = 1 := by
  rw [copies_of_eq rfl]
  rfl

@[simp] theorem copies_single (middleware : Middleware) (consumerKey key : String) :
    (single middleware consumerKey).copies ⟨middleware, some key⟩
      = if key = consumerKey then 1 else 0 := by
  rw [copies_of_eq rfl]
  simp [single, List.countP_cons]

theorem copies_bound (middleware : Middleware) (dataKey eofKey key : String) :
    (bound middleware dataKey eofKey).copies ⟨middleware, some key⟩
      = if key = dataKey ∨ key = eofKey then 1 else 0 := by
  rw [copies_of_eq rfl]
  simp [bound, List.countP_cons]

theorem copies_bound_data (middleware : Middleware) (dataKey eofKey : String) :
    (bound middleware dataKey eofKey).copies ⟨middleware, some dataKey⟩ = 1 := by
  rw [copies_bound, if_pos (Or.inl rfl)]

theorem copies_bound_eof (middleware : Middleware) (dataKey eofKey : String) :
    (bound middleware dataKey eofKey).copies ⟨middleware, some eofKey⟩ = 1 := by
  rw [copies_bound, if_pos (Or.inr rfl)]

theorem copies_bound_of_ne (middleware : Middleware) {dataKey eofKey key : String}
    (h : key ≠ dataKey) (h' : key ≠ eofKey) :
    (bound middleware dataKey eofKey).copies ⟨middleware, some key⟩ = 0 := by
  rw [copies_bound, if_neg (not_or.mpr ⟨h, h'⟩)]

/-- Exactly one replica has the key of a node. -/
theorem copies_sharded {hash : String → ℕ} (middleware : Middleware) {nodeCount node : ℕ}
    (h : node < nodeCount) :
    (sharded hash middleware nodeCount).copies ⟨middleware, some (toString node)⟩ = 1 := by
  have hkey : (List.range nodeCount).countP
        (fun other ↦ some (toString node) ∈ [some (toString other)])
      = (List.range nodeCount).count node := by
    refine List.countP_congr fun other _ ↦ ?_
    simp only [List.mem_singleton, Option.some_inj, decide_eq_true_eq, beq_iff_eq]
    exact ⟨fun heq ↦ (natToString_injective heq).symm, fun heq ↦ by rw [heq]⟩
  rw [copies_of_eq rfl, sharded, List.countP_map]
  exact hkey.trans (List.count_eq_one_of_mem List.nodup_range (List.mem_range.mpr h))

end Route

/-! ## What a route is sent -/

/-- The routing keys and the ids of the data messages of a client. -/
def dataOf (client : ClientId) (ms : List (Outgoing A)) : List (Option String × MessageId) :=
  (ms.filter fun m ↦ m.clientId = client ∧ m.payload.announcement = none).map fun m ↦
    (m.address.routingKey, m.messageId)

/-- The counts that are announced for a client. -/
def announced (client : ClientId) (ms : List (Outgoing A)) : List ℤ :=
  (ms.filter fun m ↦ m.clientId = client).filterMap fun m ↦ m.payload.announcement

/-- The ids of the data messages that are taken for a client. -/
def dataIds {Item : Type} (client : ClientId) (ms : List (Inbound Item)) : List MessageId :=
  (ms.filter fun m ↦ m.clientId = client).filterMap fun m ↦
    match m.payload with
    | .data _ => some m.messageId
    | .eof _ => none

/-- The counts in the ends of streams that are taken for a client. -/
def eofCounts {Item : Type} (client : ClientId) (ms : List (Inbound Item)) : List ℤ :=
  (ms.filter fun m ↦ m.clientId = client).filterMap fun m ↦
    match m.payload with
    | .data _ => none
    | .eof eof => some eof.messageCount

/-- **A stage preserves the announced count**: any number of replicas take well-formed messages that
are split over them in some way. None of them fails, and every route of a client is sent one data
message for each that was taken for the client, with its id, under the key of the id, and one end of
stream for each that was taken, with the same count. So an end of stream that announced the right
number still does. A message that is handled again, by whichever replica, goes out under the same
ids and to the same addresses. -/
structure PreservesCount (w : StatelessWorker A) (WellFormed : w.Item → Prop)
    (routes : ClientId → List Route) : Prop where
  forwards : ∀ (replicas : ℕ) (taken : List (Inbound w.Item)) (split : ℕ → List (Inbound w.Item))
    (currentMessageId : ℕ → MessageId),
    (∀ m ∈ taken, ∀ items, m.payload = .data items → ∀ item ∈ items, WellFormed item) →
    ((List.range replicas).flatMap split).Perm taken →
    ∃ handled : ℕ → MessageId × List (Outgoing A),
      (∀ i < replicas, w.handleMessages (currentMessageId i) (split i) = some (handled i)) ∧
      ∀ client, ∀ r ∈ routes client, ∀ arrived,
        arrived = r.arrivals ((List.range replicas).flatMap fun i ↦ (handled i).2) →
        (dataOf client arrived).Perm ((dataIds client taken).map fun id ↦ (r.key id, id)) ∧
        (announced client arrived).Perm (eofCounts client taken) ∧
        (eofCounts client taken = [((dataIds client taken).length : ℤ)] →
          announced client arrived = [((dataOf client arrived).length : ℤ)])
  repeats : ∀ (client : ClientId) (messageId : MessageId) (items items' : List w.Item)
    (currentMessageId currentMessageId' : MessageId)
      (handled handled' : MessageId × List (Outgoing A)),
    w.handleMessage currentMessageId ⟨client, messageId, .data items⟩ = some handled →
    w.handleMessage currentMessageId' ⟨client, messageId, .data items'⟩ = some handled' →
    handled.2.map (fun m ↦ (m.address, m.clientId, m.messageId))
      = handled'.2.map fun m ↦ (m.address, m.clientId, m.messageId)

/-- A worker sends one message on each route for each message it takes. `outputs` are the addresses
that a data message with an id goes to. -/
structure Forwards (w : StatelessWorker A) (WellFormed : w.Item → Prop)
    (routes : ClientId → List Route) (outputs : ClientId → MessageId → List Address) : Prop where
  exists_sent : ∀ messageId client items, (∀ item ∈ items, WellFormed item) →
    ∃ sent, w.handleDataMessage messageId client items = some sent
  address_eq : ∀ {messageId client items sent},
    w.handleDataMessage messageId client items = some sent →
    sent.map Outgoing.address = outputs client messageId
  data : ∀ {messageId client items sent}, w.handleDataMessage messageId client items = some sent →
    ∀ m ∈ sent, m.clientId = client ∧ m.messageId = messageId ∧ m.payload.announcement = none
  keysOf_eq : ∀ client, ∀ r ∈ routes client, ∀ messageId,
    r.keysOf (outputs client messageId) = [r.key messageId]
  eof : ∀ client eof, ∀ m ∈ w.sendFinalEof client eof,
    m.clientId = client ∧ m.payload.announcement = some eof.messageCount
  length_eof : ∀ client, ∀ r ∈ routes client, ∀ eof,
    (r.arrivals (w.sendFinalEof client eof)).length = 1

/-! ## One message, one replica, all replicas -/

theorem dataOf_append (ms ms' : List (Outgoing A)) :
    dataOf client (ms ++ ms') = dataOf client ms ++ dataOf client ms' := by
  rw [dataOf, List.filter_append, List.map_append]
  rfl

theorem announced_append (ms ms' : List (Outgoing A)) :
    announced client (ms ++ ms') = announced client ms ++ announced client ms' := by
  rw [announced, List.filter_append, List.filterMap_append]
  rfl

theorem dataIds_append {Item : Type} (ms ms' : List (Inbound Item)) :
    dataIds client (ms ++ ms') = dataIds client ms ++ dataIds client ms' := by
  rw [dataIds, List.filter_append, List.filterMap_append]
  rfl

theorem eofCounts_append {Item : Type} (ms ms' : List (Inbound Item)) :
    eofCounts client (ms ++ ms') = eofCounts client ms ++ eofCounts client ms' := by
  rw [eofCounts, List.filter_append, List.filterMap_append]
  rfl

theorem dataIds_perm {Item : Type} {ms ms' : List (Inbound Item)} (h : ms.Perm ms') :
    (dataIds client ms).Perm (dataIds client ms') := (h.filter _).filterMap _

theorem eofCounts_perm {Item : Type} {ms ms' : List (Inbound Item)} (h : ms.Perm ms') :
    (eofCounts client ms).Perm (eofCounts client ms') := (h.filter _).filterMap _

/-- What a route of a client is sent agrees with what was taken for the client. -/
structure Tallies {Item : Type} (client : ClientId) (r : Route) (taken : List (Inbound Item))
    (sent : List (Outgoing A)) : Prop where
  data : dataOf client (r.arrivals sent) = (dataIds client taken).map fun id ↦ (r.key id, id)
  eofs : announced client (r.arrivals sent) = eofCounts client taken

namespace Tallies

variable {Item : Type} {r : Route} {taken taken' : List (Inbound Item)} {sent' : List (Outgoing A)}

theorem nil : Tallies client r ([] : List (Inbound Item)) ([] : List (Outgoing A)) := ⟨rfl, rfl⟩

theorem append (h : Tallies client r taken sent) (h' : Tallies client r taken' sent') :
    Tallies client r (taken ++ taken') (sent ++ sent') where
  data := by
    rw [Route.arrivals_append, dataOf_append, h.data, h'.data, dataIds_append, List.map_append]
  eofs := by rw [Route.arrivals_append, announced_append, h.eofs, h'.eofs, eofCounts_append]

/-- Messages of another client. -/
theorem of_ne {m : Inbound Item} (hne : m.clientId ≠ client)
    (h : ∀ m' ∈ sent, m'.clientId = m.clientId) : Tallies client r [m] sent := by
  have hother : ∀ m' ∈ r.arrivals sent, m'.clientId ≠ client := fun m' hm' heq ↦
    hne ((h m' (Route.mem_of_mem_arrivals hm')).symm.trans heq)
  constructor
  · rw [dataOf, dataIds, List.filter_eq_nil_iff.mpr fun m' hm' ↦ by simp [hother m' hm'],
      List.filter_eq_nil_iff.mpr fun m' hm' ↦ by simp [List.mem_singleton.mp hm', hne]]
    rfl
  · rw [announced, eofCounts, List.filter_eq_nil_iff.mpr fun m' hm' ↦ by simp [hother m' hm'],
      List.filter_eq_nil_iff.mpr fun m' hm' ↦ by simp [List.mem_singleton.mp hm', hne]]
    rfl

end Tallies

namespace Forwards

variable {w : StatelessWorker A} {WellFormed : w.Item → Prop} {routes : ClientId → List Route}
  {addresses : ClientId → MessageId → List Address} {r : Route}

/-- One data message goes to each route. -/
theorem tallies_data (h : Forwards w WellFormed routes addresses) {items : List w.Item}
    (hsent : w.handleDataMessage messageId client items = some sent) (hr : r ∈ routes client) :
    Tallies client r [⟨client, messageId, .data items⟩] sent := by
  have hall : ∀ m ∈ r.arrivals sent,
      m.clientId = client ∧ m.messageId = messageId ∧ m.payload.announcement = none :=
    fun m hm ↦ h.data hsent m (Route.mem_of_mem_arrivals hm)
  have hkeys : (r.arrivals sent).map (fun m ↦ m.address.routingKey) = [r.key messageId] := by
    rw [Route.map_arrivals, h.address_eq hsent, h.keysOf_eq client r hr messageId]
  obtain ⟨m, hm, hkey⟩ := List.map_eq_singleton_iff.mp hkeys
  obtain ⟨hclient, hid, hnone⟩ := hall m (by rw [hm]; exact List.mem_singleton_self m)
  constructor
  · rw [hm, dataOf, List.filter_singleton]
    simp [hclient, hid, hnone, hkey, dataIds]
  · rw [hm, announced, List.filter_singleton]
    simp [hclient, hnone, eofCounts]

/-- One end of stream goes to each route. -/
theorem tallies_eof (h : Forwards w WellFormed routes addresses) (eof : EOF)
    (hr : r ∈ routes client) :
    Tallies client r [(⟨client, messageId, .eof eof⟩ : Inbound w.Item)]
      (w.sendFinalEof client eof) := by
  obtain ⟨m, hm⟩ := List.length_eq_one_iff.mp (h.length_eof client r hr eof)
  obtain ⟨hclient, hcount⟩ := h.eof client eof m
    (Route.mem_of_mem_arrivals (r := r) (by rw [hm]; exact List.mem_singleton_self m))
  constructor
  · rw [hm, dataOf, List.filter_singleton]
    simp [hcount, dataIds]
  · rw [hm, announced, List.filter_singleton]
    simp [hclient, hcount, eofCounts]

/-- A message is handled, and each route of each client gets what it should. -/
theorem exists_handleMessage (h : Forwards w WellFormed routes addresses) (m : Inbound w.Item)
    (hm : ∀ items, m.payload = .data items → ∀ item ∈ items, WellFormed item)
    (currentMessageId : MessageId) :
    ∃ handled, w.handleMessage currentMessageId m = some handled ∧
      ∀ client, ∀ r ∈ routes client, Tallies client r [m] handled.2 := by
  obtain ⟨client', messageId, payload⟩ := m
  cases payload with
  | data items =>
    obtain ⟨sent, hsent⟩ := h.exists_sent messageId client' items (hm items rfl)
    refine ⟨(messageId, sent), Option.map_eq_some_iff.mpr ⟨sent, hsent, rfl⟩, fun client r hr ↦ ?_⟩
    by_cases hclient : client' = client
    · subst hclient
      exact h.tallies_data hsent hr
    · exact Tallies.of_ne hclient fun m hm ↦ (h.data hsent m hm).1
  | eof eof =>
    refine ⟨(messageId, w.sendFinalEof client' eof), rfl, fun client r hr ↦ ?_⟩
    by_cases hclient : client' = client
    · subst hclient
      exact h.tallies_eof eof hr
    · exact Tallies.of_ne hclient fun m hm ↦ (h.eof client' eof m hm).1

theorem exists_handleMessages (h : Forwards w WellFormed routes addresses)
    {taken : List (Inbound w.Item)}
    (htaken : ∀ m ∈ taken, ∀ items, m.payload = .data items → ∀ item ∈ items, WellFormed item)
    (currentMessageId : MessageId) :
    ∃ handled, w.handleMessages currentMessageId taken = some handled ∧
      ∀ client, ∀ r ∈ routes client, Tallies client r taken handled.2 := by
  induction taken generalizing currentMessageId with
  | nil => exact ⟨(currentMessageId, []), rfl, fun _ _ _ ↦ .nil⟩
  | cons m taken ih =>
    obtain ⟨first, hfirst, htallies⟩ := h.exists_handleMessage m (htaken m List.mem_cons_self)
      currentMessageId
    obtain ⟨rest, hrest, htallies'⟩ :=
      ih (fun m' hm' ↦ htaken m' (List.mem_cons_of_mem _ hm')) first.1
    refine ⟨(rest.1, first.2 ++ rest.2), ?_, fun client r hr ↦
      (htallies client r hr).append (htallies' client r hr)⟩
    rw [StatelessWorker.handleMessages, hfirst, Option.bind_some, hrest, Option.map_some]

/-- What the replicas take together, and what they send together. -/
theorem tallies_flatMap {taken : ℕ → List (Inbound w.Item)}
    {sent : ℕ → List (Outgoing A)} {replicas : List ℕ}
    (h : ∀ i ∈ replicas, Tallies client r (taken i) (sent i)) :
    Tallies client r (replicas.flatMap taken) (replicas.flatMap sent) := by
  induction replicas with
  | nil => exact .nil
  | cons i replicas ih =>
    rw [List.flatMap_cons, List.flatMap_cons]
    exact (h i List.mem_cons_self).append (ih fun j hj ↦ h j (List.mem_cons_of_mem _ hj))

/-- A worker that computes something from a batch, and then sends it to addresses that do not depend
on it. -/
theorem of_sendAll {α : Type} (compute : List w.Item → Option α)
    {outputs : MessageId → ClientId → α → List (Address × StagePayload A)}
    (eofAddresses : ClientId → List Address) (eofPayload : EOF → StagePayload A)
    (eofMessageId : ClientId → EOF → MessageId)
    (hhandle : ∀ messageId client items, w.handleDataMessage messageId client items
      = (compute items).bind fun a ↦ sendAll messageId client (outputs messageId client a))
    (hcompute : ∀ items, (∀ item ∈ items, WellFormed item) → ∃ a, compute items = some a ∧
      ∀ messageId client, ∀ output ∈ outputs messageId client a, output.2.serializable)
    (haddresses : ∀ messageId client a,
      (outputs messageId client a).map Prod.fst = addresses client messageId)
    (hdata : ∀ messageId client a, ∀ output ∈ outputs messageId client a,
      output.2.announcement = none)
    (hkeys : ∀ client, ∀ r ∈ routes client, ∀ messageId,
      r.keysOf (addresses client messageId) = [r.key messageId])
    (heof : ∀ client eof, w.sendFinalEof client eof = (eofAddresses client).map fun address ↦
      ⟨address, client, eofMessageId client eof, eofPayload eof⟩)
    (hcount : ∀ eof, (eofPayload eof).announcement = some eof.messageCount)
    (hlength : ∀ client, ∀ r ∈ routes client, (r.keysOf (eofAddresses client)).length = 1) :
    Forwards w WellFormed routes addresses where
  exists_sent messageId client items hitems := by
    obtain ⟨a, ha, hserializable⟩ := hcompute items hitems
    obtain ⟨sent, hsent⟩ := exists_sendAll (hserializable messageId client)
    exact ⟨sent, by rw [hhandle, ha, Option.bind_some, hsent]⟩
  address_eq {messageId client items sent} h := by
    rw [hhandle] at h
    obtain ⟨a, -, hsent⟩ := Option.bind_eq_some_iff.mp h
    rw [sendAll_eq_some hsent, List.map_map, ← haddresses messageId client a]
    rfl
  data {messageId client items sent} h m hm := by
    rw [hhandle] at h
    obtain ⟨a, -, hsent⟩ := Option.bind_eq_some_iff.mp h
    rw [sendAll_eq_some hsent] at hm
    obtain ⟨output, houtput, rfl⟩ := List.mem_map.mp hm
    exact ⟨rfl, rfl, hdata messageId client a output houtput⟩
  keysOf_eq := hkeys
  eof client eof m hm := by
    rw [heof] at hm
    obtain ⟨address, -, rfl⟩ := List.mem_map.mp hm
    exact ⟨rfl, hcount eof⟩
  length_eof client r hr eof := by
    have haddresses : (w.sendFinalEof client eof).map Outgoing.address = eofAddresses client := by
      rw [heof, List.map_map]
      exact List.map_id _
    have hlen := congrArg List.length (Route.map_arrivals (r := r) (w.sendFinalEof client eof))
    rw [List.length_map, haddresses, hlength client r hr] at hlen
    exact hlen

theorem preservesCount (h : Forwards w WellFormed routes addresses) :
    PreservesCount w WellFormed routes where
  forwards replicas taken split currentMessageId htaken hsplit := by
    have hreplica : ∀ i, ∃ handled : MessageId × List (Outgoing A), i < replicas →
        w.handleMessages (currentMessageId i) (split i) = some handled ∧
          ∀ client, ∀ r ∈ routes client, Tallies client r (split i) handled.2 := by
      intro i
      by_cases hi : i < replicas
      · have hmem : ∀ m ∈ split i, m ∈ taken := fun m hm ↦
          hsplit.mem_iff.mp (List.mem_flatMap.mpr ⟨i, List.mem_range.mpr hi, hm⟩)
        obtain ⟨handled, hhandled⟩ := h.exists_handleMessages
          (fun m hm ↦ htaken m (hmem m hm)) (currentMessageId i)
        exact ⟨handled, fun _ ↦ hhandled⟩
      · exact ⟨("", []), fun hlt ↦ absurd hlt hi⟩
    choose handled hhandled using hreplica
    refine ⟨handled, fun i hi ↦ (hhandled i hi).1, fun client r hr arrived harrived ↦ ?_⟩
    have htallies : Tallies client r ((List.range replicas).flatMap split)
        ((List.range replicas).flatMap fun i ↦ (handled i).2) :=
      tallies_flatMap fun i hi ↦ (hhandled i (List.mem_range.mp hi)).2 client r hr
    subst harrived
    have hdata :
        (dataOf client (r.arrivals ((List.range replicas).flatMap fun i ↦ (handled i).2))).Perm
        ((dataIds client taken).map fun id ↦ (r.key id, id)) := by
      rw [htallies.data]
      exact (dataIds_perm hsplit).map _
    have heofs : (announced client
        (r.arrivals ((List.range replicas).flatMap fun i ↦ (handled i).2))).Perm
        (eofCounts client taken) := by
      rw [htallies.eofs]
      exact eofCounts_perm hsplit
    refine ⟨hdata, heofs, fun heof ↦ ?_⟩
    rw [heof] at heofs
    rw [List.perm_singleton.mp heofs, hdata.length_eq, List.length_map]
  repeats client messageId items items' current current' handled handled' hhandled hhandled' := by
    have haddresses : ∀ {current : MessageId} {items : List w.Item}
        {handled : MessageId × List (Outgoing A)},
        w.handleMessage current ⟨client, messageId, .data items⟩ = some handled →
        handled.2.map (fun m ↦ (m.address, m.clientId, m.messageId))
          = (addresses client messageId).map fun address ↦ (address, client, messageId) := by
      intro current items handled hhandled
      obtain ⟨sent, hsent, rfl⟩ := Option.map_eq_some_iff.mp hhandled
      rw [← h.address_eq hsent, List.map_map]
      refine List.map_congr_left fun m hm ↦ ?_
      obtain ⟨hclient, hid, -⟩ := h.data hsent m hm
      rw [hclient, hid]
      rfl
    rw [haddresses hhandled, haddresses hhandled']

end Forwards

end MoneyLaundering
