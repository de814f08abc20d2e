import MoneyLaundering.Protocol.External
import MoneyLaundering.Protocol.Internal

/-!
# The relay of the results

The workers publish the results of a client and the ends of its queries with the internal protocol.
The gateway reads them from the results queue and sends them to the client with the external one
(`ClientHandler._on_result`, `_sender_loop`). If a message cannot be written again, the sender
raises, and nothing in its queue is sent any more, the acknowledgements of the client's own
messages included.

The records of a result are declared alike on both sides. The message count of the end of a query is
not: it is an `int32` inside and a `uint32` outside, and the end that follows the cleanup of a
client has a negative count (`cleanup_end_not_relayed`). What is relayed is exactly the rest:
`results_relayed_iff`.
-/

namespace MoneyLaundering

open Protobuf Framing

/-- The number of a type, in the class `MsgType`. -/
def Internal.MsgType.value : Internal.MsgType → ℤ
  | .q1ResultBatch => 1
  | .q2ResultBatch => 2
  | .q3ResultBatch => 3
  | .q4ResultBatch => 4
  | .q5ResultBatch => 5
  | .rawTransactionBatch => 6
  | .rawAccountBatch => 7
  | .transactionBatch => 8
  | .bankBatch => 9
  | .queryEnd => 10
  | .currencyConversionBatch => 11
  | .amountTransactionBatch => 12
  | .count => 13
  | .eof => 14
  | .ringEof => 15
  | .bankMaxPartialBatch => 16
  | .paymentFormatPartialBatch => 17
  | .paymentFormatAverageBatch => 18
  | .accountEdgeBatch => 19
  | .pathBatch => 20

namespace ClientHandler

/-- `EXPECTED_QUERY_IDS`. -/
def expectedQueryIds : List ℤ := [1, 2, 3, 4, 5]

/-- What the sender takes from its queue, up to the sentinel that stops it. -/
inductive Item (D T : Type)
  | ack
  | result (msgType : Internal.MsgType) (payload : Internal.Payload D T) (messageId : MessageId)

/-- What the sender does with an item: it sends a message, after which the delivery ids go on from
`deliveryId`; it leaves an unexpected one alone; or it raises. -/
inductive Action (D : Type)
  | send (message : External.Outgoing D) (deliveryId : ℤ)
  | skip
  | raise

variable {D T Data : Type} [Zero D] (iso : Internal.IsoFormat T)
  (codec : Codec (Envelope D) Data) (external : Codec (Envelope D) (List UInt8))

/-- `_on_result`. -/
def onResult (body : Data) : Option (Item D T) :=
  (Internal.deserializeMsg iso codec body).map fun (msgType, _, payload, messageId) ↦
    .result msgType payload messageId

/-- One round of `_sender_loop`. A payload that the branch of its type cannot take makes it
raise. -/
def action (nextDeliveryId : ℤ) : Item D T → Action D
  | .ack => .send ⟨.ack, .none, "", "", 0⟩ nextDeliveryId
  | .result msgType payload messageId =>
    let deliveryId := nextDeliveryId + 1
    if msgType.value ∈ expectedQueryIds then
      match payload with
      | .batch records =>
        .send ⟨.queryResult, .queryResult msgType.value records, "", messageId, deliveryId⟩
          deliveryId
      | _ => .raise
    else if msgType = .queryEnd then
      match payload with
      | .queryEnd queryId messageCount =>
        .send ⟨.queryEnd, .queryEnd queryId messageCount, "", "", deliveryId⟩ deliveryId
      | _ => .raise
    else .skip

/-- `_sender_loop`: what it sends, and the last delivery id unless it raises. -/
def senderLoop : ℤ → List (Item D T) → List UInt8 × Option ℤ
  | nextDeliveryId, [] => ([], some nextDeliveryId)
  | nextDeliveryId, item :: items =>
    match action nextDeliveryId item with
    | .raise => ([], none)
    | .skip => senderLoop nextDeliveryId items
    | .send message deliveryId =>
      match External.sendMsg external message with
      | none => ([], none)
      | some bytes =>
        (bytes ++ (senderLoop deliveryId items).1, (senderLoop deliveryId items).2)

/-! ## What arrives -/

/-- A message that a worker publishes to the exchange of the results. -/
inductive ResultMessage (D : Type)
  | batch (msgType : Internal.MsgType) (clientId : ClientId) (records : List (Record D))
      (messageId : MessageId)
  | queryEnd (clientId : ClientId) (queryId messageCount : ℤ) (messageId : MessageId)

/-- `_send_final_eof` of the last worker of a query. -/
def sendFinalEof (queryId : ℤ) (client : ClientId) (eof : EOF) : ResultMessage D :=
  .queryEnd client queryId eof.messageCount (finalEofId client eof (some (toString queryId)))

namespace ResultMessage

/-- The message as the workers write it. -/
def serialize : ResultMessage D → Option Data
  | batch msgType clientId records messageId =>
    Internal.serializeMsg iso codec msgType clientId (.batch records) messageId
  | queryEnd clientId queryId messageCount messageId =>
    Internal.serializeMsg iso codec .queryEnd clientId (.queryEnd queryId messageCount) messageId

/-- A worker can publish the message: a batch of results, with any records of the class, or an end
whose numbers are in the ranges of the internal protocol. -/
def Published : ResultMessage D → Prop
  | batch msgType _ records _ =>
    msgType.value ∈ expectedQueryIds ∧ ∀ data, Internal.batchData.lookup msgType = some data →
      ∀ desc, Internal.Proto.envelope.payload.lookup data.fieldName = some desc →
        ∀ r ∈ records, Instance data.cls desc.items r
  | queryEnd _ queryId messageCount _ =>
    (0 ≤ queryId ∧ queryId < 2 ^ 32) ∧ -2 ^ 31 ≤ messageCount ∧ messageCount < 2 ^ 31

/-- The codec is lossless on the envelope of the message. -/
def Lossless : ResultMessage D → Prop
  | batch msgType clientId records messageId =>
    ∀ env, Internal.toEnvelope iso msgType clientId (.batch records) messageId = some env →
      codec.Lossless env
  | queryEnd clientId queryId messageCount messageId =>
    ∀ env, Internal.toEnvelope iso .queryEnd clientId (.queryEnd queryId messageCount) messageId
      = some env → codec.Lossless env

/-- What the gateway reads. -/
def item : ResultMessage D → Item D T
  | batch msgType _ records messageId => .result msgType (.batch records) messageId
  | queryEnd _ queryId messageCount messageId =>
    .result .queryEnd (.queryEnd queryId messageCount) messageId

/-- What the gateway sends. -/
def outgoing (deliveryId : ℤ) : ResultMessage D → External.Outgoing D
  | batch msgType _ records messageId =>
    ⟨.queryResult, .queryResult msgType.value records, "", messageId, deliveryId⟩
  | queryEnd _ queryId messageCount _ =>
    ⟨.queryEnd, .queryEnd queryId messageCount, "", "", deliveryId⟩

/-- What the client has to receive: the same query, with the same records or the same count. -/
def received (deliveryId : ℤ) : ResultMessage D → External.MsgType × External.Received D
  | batch msgType _ records messageId =>
    (.queryResult, .queryResult msgType.value records messageId deliveryId)
  | queryEnd _ queryId messageCount _ => (.queryEnd, .queryEnd queryId messageCount deliveryId)

/-- The count of an end is not negative. -/
def Countable : ResultMessage D → Prop
  | batch _ _ _ _ => True
  | queryEnd _ _ messageCount _ => 0 ≤ messageCount

end ResultMessage

/-- What is put in the queue of the sender: the acknowledgement of a message of the client, or a
message from the results queue. -/
inductive Arrival (D : Type)
  | ack
  | result (message : ResultMessage D)

/-- What the sender takes for it; nothing if the message is not read. -/
def Arrival.queued : Arrival D → Option (Item D T)
  | ack => some .ack
  | result message => (message.serialize iso codec).bind (onResult iso codec)

/-- What the client has to receive for some arrivals. -/
def received : ℤ → List (Arrival D) → List (External.MsgType × External.Received D)
  | _, [] => []
  | nextDeliveryId, .ack :: arrivals => (.ack, .none) :: received nextDeliveryId arrivals
  | nextDeliveryId, .result message :: arrivals =>
    message.received (nextDeliveryId + 1) :: received (nextDeliveryId + 1) arrivals

/-- The messages that are sent for some arrivals. -/
def outgoings : ℤ → List (Arrival D) → List (External.Outgoing D)
  | _, [] => []
  | nextDeliveryId, .ack :: arrivals =>
    ⟨.ack, .none, "", "", 0⟩ :: outgoings nextDeliveryId arrivals
  | nextDeliveryId, .result message :: arrivals =>
    message.outgoing (nextDeliveryId + 1) :: outgoings (nextDeliveryId + 1) arrivals

/-- The messages from the results queue. -/
def results (arrivals : List (Arrival D)) : List (ResultMessage D) :=
  arrivals.filterMap fun
    | .ack => none
    | .result message => some message

/-- **All that arrives is relayed**: it is read, the sender does not raise, and the client receives
it in order, however the stream is split. -/
def Relayed (arrivals : List (Arrival D)) : Prop :=
  ∃ items, arrivals.mapM (Arrival.queued iso codec) = some items ∧
    ∃ bytes deliveryId, senderLoop external 0 items = (bytes, some deliveryId) ∧
      ∀ splits rest, ∃ s,
        External.recvMsgs external arrivals.length ⟨bytes ++ rest, splits⟩
          = (received 0 arrivals, .ok s) ∧ s.incoming = rest

variable {iso codec external} {message : ResultMessage D} {arrivals : List (Arrival D)}

/-! ## Reading -/

/-- **What a worker publishes is read.** -/
theorem onResult_serialize (hpublished : message.Published)
    (hlossless : message.Lossless iso codec) :
    (message.serialize iso codec).bind (onResult iso codec) = some (message.item : Item D T) := by
  have hread {t : Internal.MsgType} {payload : Internal.Payload D T} (clientId messageId : String)
      (hdeclared : Internal.Declared t payload)
      (hcodec : ∀ env, Internal.toEnvelope iso t clientId payload messageId = some env →
        codec.Lossless env) :
      (Internal.serializeMsg iso codec t clientId payload messageId).bind (onResult iso codec)
        = some (.result t payload messageId) := by
    obtain ⟨env, henv, hofEnvelope⟩ :=
      Internal.ofEnvelope_toEnvelope iso hdeclared clientId messageId
    rw [Internal.serializeMsg, henv, Option.map_some, Option.bind_some, onResult,
      Internal.deserializeMsg, hcodec env henv, Option.bind_some, hofEnvelope]
    rfl
  cases message with
  | batch msgType clientId records messageId =>
    obtain ⟨hquery, hrecords⟩ := hpublished
    have hdata : ∃ data, Internal.batchData.lookup msgType = some data := by
      cases msgType <;> first | exact ⟨_, rfl⟩ | exact absurd hquery (by decide)
    obtain ⟨data, hdata⟩ := hdata
    exact hread clientId messageId (.batch hdata (hrecords data hdata)) hlossless
  | queryEnd clientId queryId messageCount messageId =>
    exact hread clientId messageId (.queryEnd hpublished.1 hpublished.2) hlossless

/-- The items of some arrivals. -/
def items (arrivals : List (Arrival D)) : List (Item D T) :=
  arrivals.map fun
    | .ack => .ack
    | .result message => message.item

theorem mapM_queued (hpublished : ∀ m ∈ results arrivals, m.Published)
    (hlossless : ∀ m ∈ results arrivals, m.Lossless iso codec) :
    arrivals.mapM (Arrival.queued iso codec) = some (items arrivals) := by
  induction arrivals with
  | nil => rfl
  | cons arrival arrivals ih =>
    match arrival with
    | .ack =>
      rw [List.mapM_cons, ih hpublished hlossless]
      rfl
    | .result message =>
      obtain ⟨hhead, htail⟩ := List.forall_mem_cons.mp hpublished
      obtain ⟨hcodec, hcodecs⟩ := List.forall_mem_cons.mp hlossless
      have hqueued : (Arrival.result message).queued iso codec = some message.item :=
        onResult_serialize hhead hcodec
      rw [List.mapM_cons, hqueued, ih htail hcodecs]
      rfl

/-! ## Sending -/

omit [Zero D] in
/-- What a worker publishes is sent on. -/
theorem action_item (hpublished : message.Published) (nextDeliveryId : ℤ) :
    action nextDeliveryId (message.item : Item D T)
      = .send (message.outgoing (nextDeliveryId + 1)) (nextDeliveryId + 1) := by
  match message with
  | .batch msgType clientId records messageId =>
    change (if msgType.value ∈ expectedQueryIds then _ else _ : Action D) = _
    rw [if_pos hpublished.1]
    rfl
  | .queryEnd clientId queryId messageCount messageId => rfl

/-- The sender ends exactly if all its messages can be written. -/
theorem senderLoop_items (hpublished : ∀ m ∈ results arrivals, m.Published) {nextDeliveryId : ℤ}
    {bytes : List UInt8} :
    (∃ deliveryId, senderLoop external nextDeliveryId (items arrivals : List (Item D T))
        = (bytes, some deliveryId))
      ↔ External.sendMsgs external (outgoings nextDeliveryId arrivals) = some bytes := by
  induction arrivals generalizing nextDeliveryId bytes with
  | nil => simp [items, senderLoop, External.sendMsgs, outgoings]
  | cons arrival arrivals ih =>
    -- one message more, in front of what the rest of the loop sends
    have hcons {item : Item D T} {out : External.Outgoing D} {next : ℤ}
        (haction : action nextDeliveryId item = .send out next)
        (htail : ∀ {bytes},
          (∃ deliveryId, senderLoop external next (items arrivals : List (Item D T))
          = (bytes, some deliveryId)) ↔
            External.sendMsgs external (outgoings next arrivals) = some bytes) :
        (∃ deliveryId, senderLoop external nextDeliveryId (item :: items arrivals)
            = (bytes, some deliveryId))
          ↔ External.sendMsgs external (out :: outgoings next arrivals) = some bytes := by
      simp only [senderLoop, haction, External.sendMsgs_cons]
      rcases hsend : External.sendMsg external out with _ | head
      · simp
      · simp only [Prod.mk.injEq, Option.bind_some, Option.map_eq_some_iff, ← htail]
        constructor
        · rintro ⟨deliveryId, rfl, hdelivery⟩
          exact ⟨_, ⟨deliveryId, Prod.ext rfl hdelivery⟩, rfl⟩
        · rintro ⟨tail, ⟨deliveryId, hloop⟩, rfl⟩
          exact ⟨deliveryId, by rw [hloop], by rw [hloop]⟩
    cases arrival with
    | ack => exact hcons rfl (ih hpublished)
    | result message =>
      obtain ⟨hhead, htail⟩ := List.forall_mem_cons.mp hpublished
      exact hcons (action_item hhead nextDeliveryId) (ih htail)

/-! ## What can be sent -/

omit [Zero D] in
/-- The records of a result are declared alike in both protocols. -/
theorem queryResultData_of_batchData {msgType : Internal.MsgType}
    (hquery : msgType.value ∈ expectedQueryIds) :
    ∃ data item, Internal.batchData.lookup msgType = some data ∧
      Internal.Proto.envelope.payload.lookup data.fieldName = some (.batch item) ∧
      ∃ data', External.queryResultData.lookup msgType.value = some data' ∧
        data'.cls = data.cls ∧
        External.Proto.queryResult.results.lookup data'.fieldName = some item := by
  cases msgType <;>
    first
    | exact ⟨_, _, rfl, rfl, _, rfl, rfl, rfl⟩
    | exact absurd hquery (by decide)

omit [Zero D] in
/-- A message with a count that is not negative can be sent. -/
theorem valid_outgoing (hpublished : message.Published) (hcountable : message.Countable)
    {deliveryId : ℤ} (hdelivery : 0 ≤ deliveryId ∧ deliveryId < 2 ^ 64) :
    (message.outgoing deliveryId).Valid := by
  cases message with
  | batch msgType clientId records messageId =>
    obtain ⟨hquery, hrecords⟩ := hpublished
    obtain ⟨data, item, hdata, hitem, data', hdata', hcls, hitem'⟩ :=
      queryResultData_of_batchData hquery
    refine ⟨.queryResult hdata' fun item'' hitem'' r hr ↦ ?_, hdelivery⟩
    obtain rfl := Option.some.inj (hitem'.symm.trans hitem'')
    exact hcls ▸ hrecords data hdata _ hitem r hr
  | queryEnd clientId queryId messageCount messageId =>
    obtain ⟨hquery, hcount⟩ := hpublished
    exact ⟨.queryEnd hquery ⟨hcountable, by omega⟩, hdelivery⟩

/-- No other one is. -/
theorem countable_of_sendMsg {deliveryId : ℤ} {bytes : List UInt8}
    (hsend : External.sendMsg external (message.outgoing deliveryId) = some bytes) :
    message.Countable ∧ deliveryId < 2 ^ 64 := by
  obtain ⟨env, henv, -⟩ := Option.bind_eq_some_iff.mp hsend
  obtain ⟨env', hnew, hserialize⟩ := Option.bind_eq_some_iff.mp henv
  obtain ⟨header, hheader, -⟩ := Option.map_eq_some_iff.mp hnew
  constructor
  · match message with
    | .batch msgType clientId records messageId => trivial
    | .queryEnd clientId queryId messageCount messageId =>
      have hset : External.Proto.envelope.setFields env' "query_end"
          [("query_id", .int queryId), ("message_count", .int messageCount)]
            = some env := hserialize
      have hallows := EnvelopeDescriptor.allows_of_setFields hset rfl
      rw [List.forall_mem_cons, List.forall_mem_singleton] at hallows
      obtain ⟨field, hfield, hfits⟩ := hallows.2
      obtain rfl := Option.some.inj hfield
      exact hfits.1
  · have hallows := Descriptor.allows_of_setattrs hheader
    rw [List.forall_mem_cons, List.forall_mem_cons, List.forall_mem_singleton] at hallows
    obtain ⟨field, hfield, hfits⟩ := hallows.2.2
    obtain rfl := Option.some.inj hfield
    match message with
    | .batch _ _ _ _ | .queryEnd _ _ _ _ => exact hfits.2

/-- Which arrivals the sender survives. -/
structure Relayable (arrivals : List (Arrival D)) : Prop where
  countable : ∀ m ∈ results arrivals, m.Countable
  /-- The delivery id is a `uint64`. -/
  results_lt : (results arrivals).length < 2 ^ 64

omit [Zero D] in
/-- What the client makes of the messages. -/
theorem map_outgoings (nextDeliveryId : ℤ) (arrivals : List (Arrival D)) :
    ((outgoings nextDeliveryId arrivals).map fun m ↦ (m.msgType, m.returned))
      = received nextDeliveryId arrivals := by
  induction arrivals generalizing nextDeliveryId with
  | nil => rfl
  | cons arrival arrivals ih =>
    match arrival with
    | .ack => exact congrArg _ (ih nextDeliveryId)
    | .result (.batch _ _ _ _) | .result (.queryEnd _ _ _ _) =>
      exact congrArg _ (ih (nextDeliveryId + 1))

omit [Zero D] in
theorem length_outgoings (nextDeliveryId : ℤ) (arrivals : List (Arrival D)) :
    (outgoings nextDeliveryId arrivals).length = arrivals.length := by
  induction arrivals generalizing nextDeliveryId with
  | nil => rfl
  | cons arrival arrivals ih =>
    match arrival with
    | .ack => exact congrArg (· + 1) (ih nextDeliveryId)
    | .result _ => exact congrArg (· + 1) (ih (nextDeliveryId + 1))

omit [Zero D] in
/-- With delivery ids that fit, all messages can be sent. -/
theorem valid_outgoings (hpublished : ∀ m ∈ results arrivals, m.Published)
    (hcountable : ∀ m ∈ results arrivals, m.Countable) {nextDeliveryId : ℤ}
    (hnext : 0 ≤ nextDeliveryId) (hlt : nextDeliveryId + (results arrivals).length < 2 ^ 64) :
    ∀ m ∈ outgoings nextDeliveryId arrivals, m.Valid := by
  induction arrivals generalizing nextDeliveryId with
  | nil => exact List.forall_mem_nil _
  | cons arrival arrivals ih =>
    match arrival with
    | .ack =>
      have hzero : (0 : ℤ) < 2 ^ 64 := by decide
      exact List.forall_mem_cons.mpr
        ⟨⟨.ack, Int.le_refl 0, hzero⟩, ih hpublished hcountable hnext hlt⟩
    | .result message =>
      obtain ⟨hpublished, htailPublished⟩ := List.forall_mem_cons.mp hpublished
      obtain ⟨hcountable, htailCountable⟩ := List.forall_mem_cons.mp hcountable
      change nextDeliveryId + ((message :: results arrivals).length : ℕ) < 2 ^ 64 at hlt
      rw [List.length_cons] at hlt
      refine List.forall_mem_cons.mpr ⟨?_, ih htailPublished htailCountable (by omega) (by omega)⟩
      exact valid_outgoing hpublished hcountable ⟨by omega, by omega⟩

/-- If all messages were sent, all could be. -/
theorem relayable_of_sendMsgs {nextDeliveryId : ℤ} {bytes : List UInt8}
    (hsend : External.sendMsgs external (outgoings nextDeliveryId arrivals) = some bytes) :
    (∀ m ∈ results arrivals, m.Countable) ∧
      (results arrivals ≠ [] → nextDeliveryId + (results arrivals).length < 2 ^ 64) := by
  induction arrivals generalizing nextDeliveryId bytes with
  | nil => exact ⟨List.forall_mem_nil _, fun h ↦ absurd rfl h⟩
  | cons arrival arrivals ih =>
    match arrival with
    | .ack =>
      rw [outgoings, External.sendMsgs_cons] at hsend
      obtain ⟨_, -, htail⟩ := Option.bind_eq_some_iff.mp hsend
      obtain ⟨_, htail, -⟩ := Option.map_eq_some_iff.mp htail
      exact ih htail
    | .result message =>
      rw [outgoings, External.sendMsgs_cons] at hsend
      obtain ⟨_, hhead, htail⟩ := Option.bind_eq_some_iff.mp hsend
      obtain ⟨_, htail, -⟩ := Option.map_eq_some_iff.mp htail
      obtain ⟨hcountable, hlt⟩ := countable_of_sendMsg hhead
      obtain ⟨hcountables, htailLt⟩ := ih htail
      refine ⟨List.forall_mem_cons.mpr ⟨hcountable, hcountables⟩, fun _ ↦ ?_⟩
      change nextDeliveryId + ((message :: results arrivals).length : ℕ) < 2 ^ 64
      rw [List.length_cons]
      by_cases hnil : results arrivals = []
      · rw [hnil, List.length_nil]
        omega
      · have := htailLt hnil
        omega

/-- **Exactly the ends with a count that is not negative are relayed.** Some acknowledgements and
some messages that workers published are put in the queue of a sender. They are all read, sent, and
received by the client with the same query ids, records and counts, if and only if no end of a query
has a negative count, and the delivery ids of the session fit in a `uint64`. -/
theorem results_relayed_iff (hpublished : ∀ m ∈ results arrivals, m.Published)
    (hlossless : ∀ m ∈ results arrivals, m.Lossless iso codec)
    (hencodes : ∀ m ∈ outgoings 0 arrivals, External.Encodes external m) :
    Relayed iso codec external arrivals ↔ Relayable arrivals := by
  have hqueued : arrivals.mapM (Arrival.queued iso codec) = some (items arrivals) :=
    mapM_queued hpublished hlossless
  constructor
  · rintro ⟨items', hitems, bytes, deliveryId, hloop, -⟩
    obtain rfl := Option.some.inj (hqueued.symm.trans hitems)
    obtain ⟨hcountable, hlt⟩ :=
      relayable_of_sendMsgs ((senderLoop_items hpublished).mp ⟨deliveryId, hloop⟩)
    refine ⟨hcountable, ?_⟩
    by_cases hnil : results arrivals = []
    · rw [hnil, List.length_nil]
      exact Nat.two_pow_pos 64
    · have := hlt hnil
      omega
  · rintro ⟨hcountable, hlt⟩
    have hvalid : ∀ m ∈ outgoings 0 arrivals, m.Valid :=
      valid_outgoings hpublished hcountable (Int.le_refl 0) (by omega)
    obtain ⟨bytes, hsend, hrecv⟩ := External.recvMsgs_sendMsgs hvalid hencodes
    obtain ⟨deliveryId, hloop⟩ := (senderLoop_items hpublished).mpr hsend
    refine ⟨items arrivals, hqueued, bytes, deliveryId, hloop, fun splits rest ↦ ?_⟩
    obtain ⟨s, hs, hrest⟩ := hrecv ⟨bytes ++ rest, splits⟩ rest rfl
    rw [map_outgoings, length_outgoings] at hs
    exact ⟨s, hs, hrest⟩

/-! ## Two ends of query 1 -/

/-- The end of query 1 with two batches of results. -/
def twoBatchesEnd : ResultMessage ℤ := sendFinalEof 1 "c" ⟨2⟩

/-- The end of query 1 that follows the cleanup of a client. -/
def cleanupEnd : ResultMessage ℤ := sendFinalEof 1 "c" ⟨cleanupExpectedCount⟩

/-- The codec of one message of the internal protocol, with its bytes. -/
def internalCodec (message : ResultMessage ℤ) (bytes : List UInt8) :
    Codec (Envelope ℤ) (List UInt8) where
  serializeToString _ := bytes
  parseFromString data :=
    match message with
    | .batch _ _ _ _ => none
    | .queryEnd clientId queryId messageCount messageId =>
      if data = bytes then
        Internal.toEnvelope Internal.oneMoment .queryEnd clientId (.queryEnd queryId messageCount)
          messageId
      else none

def twoBatchesBytes : List UInt8 :=
  [0x0a, 0x01, 0x63, 0xb2, 0x01, 0x04, 0x08, 0x01, 0x10, 0x02, 0xba, 0x01, 0x07, 0x63, 0x3a,
    0x65, 0x6f, 0x66, 0x3a, 0x31]

def cleanupEndBytes : List UInt8 :=
  [0x0a, 0x01, 0x63, 0xb2, 0x01, 0x0d, 0x08, 0x01, 0x10, 0xff, 0xff, 0xff, 0xff, 0xff, 0xff,
    0xff, 0xff, 0xff, 0x01, 0xba, 0x01, 0x0f, 0x63, 0x3a, 0x65, 0x6f, 0x66, 0x3a, 0x31, 0x3a,
    0x63, 0x6c, 0x65, 0x61, 0x6e, 0x75, 0x70]

/-- The end of query 1 as the gateway writes it. -/
def twoBatchesCodec : Codec (Envelope ℤ) (List UInt8) where
  serializeToString _ := [0x32, 0x04, 0x08, 0x01, 0x10, 0x02, 0x60, 0x01]
  parseFromString data :=
    if data = [0x32, 0x04, 0x08, 0x01, 0x10, 0x02, 0x60, 0x01] then
      External.toEnvelope (twoBatchesEnd.outgoing 1)
    else none

theorem results_relayed_twoBatches :
    Relayed Internal.oneMoment (internalCodec twoBatchesEnd twoBatchesBytes) twoBatchesCodec
      [.result twoBatchesEnd] := by
  have hsize : 8 < 2 ^ 32 := by decide
  have hencodes : External.Encodes twoBatchesCodec (twoBatchesEnd.outgoing 1) :=
    ⟨fun _ henv ↦ henv, fun _ _ ↦ hsize⟩
  refine (results_relayed_iff ?_ ?_ (List.forall_mem_singleton.mpr hencodes)).mpr ⟨?_, ?_⟩
  · exact List.forall_mem_singleton.mpr ⟨by decide, by decide⟩
  · exact List.forall_mem_singleton.mpr fun _ henv ↦ henv
  · exact List.forall_mem_singleton.mpr (Int.natCast_nonneg 2)
  · decide

/-- The amount filter publishes the end of a query that follows the cleanup of a client, the gateway
reads it, and the sender raises: it sends neither this end nor what is behind it in its queue. -/
theorem cleanup_end_not_relayed :
    cleanupEnd.Published ∧
      (cleanupEnd.serialize Internal.oneMoment (internalCodec cleanupEnd cleanupEndBytes)).bind
        (onResult Internal.oneMoment (internalCodec cleanupEnd cleanupEndBytes))
          = some (cleanupEnd.item : Item ℤ Unit) ∧
      ∀ items : List (Item ℤ Unit),
        senderLoop twoBatchesCodec 0 (cleanupEnd.item :: items) = ([], none) := by
  have hpublished : cleanupEnd.Published := ⟨by decide, by decide⟩
  refine ⟨hpublished, onResult_serialize hpublished fun _ henv ↦ henv, fun items ↦ ?_⟩
  rw [senderLoop, action_item hpublished]
  rfl

end ClientHandler

end MoneyLaundering
