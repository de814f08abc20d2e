import MoneyLaundering.Protocol.Records
import MoneyLaundering.Messages.Models

/-!
# The internal protocol

How the messages between the workers are written and read
(`common/communication/protocol/internal.py` and its `.proto` files). Fifteen of the twenty types
are batches that one pair of functions handles, with a table of classes and names of fields; the
other five have functions of their own.

The tables are as in the source. What makes them fit together is checked once, entry by entry
(`batchData_coherent`); that every message is read as it was written follows for all of them:
`internal_round_trip`.
-/

namespace MoneyLaundering

namespace Internal

open Protobuf

inductive MsgType
  | q1ResultBatch
  | q2ResultBatch
  | q3ResultBatch
  | q4ResultBatch
  | q5ResultBatch
  | rawTransactionBatch
  | rawAccountBatch
  | transactionBatch
  | bankBatch
  | queryEnd
  | currencyConversionBatch
  | amountTransactionBatch
  | count
  | eof
  | ringEof
  | bankMaxPartialBatch
  | paymentFormatPartialBatch
  | paymentFormatAverageBatch
  | accountEdgeBatch
  | pathBatch
  deriving DecidableEq, Repr

/-! ## The declarations -/

namespace Proto

open CommonProto

def transaction : Descriptor :=
  [plain "timestamp" .string, plain "from_bank" .string, plain "from_account" .string,
    plain "to_bank" .string, plain "to_account" .string, plain "amount" .double,
    plain "currency" .string, plain "payment_format" .string]

def bank : Descriptor := [plain "bank_id" .string, plain "name" .string]

def transactionForCurrencyConversion : Descriptor :=
  [plain "timestamp" .string, plain "amount" .double, plain "currency" .string]

def transactionAmount : Descriptor := [plain "amount" .double]

def count : Descriptor := [plain "count" .uint32]

def bankMaxPartial : Descriptor :=
  [plain "from_bank" .string, plain "from_account" .string, plain "amount" .double]

def paymentFormatPartial : Descriptor :=
  [plain "payment_format" .string, plain "total_amount" .double, plain "count" .uint32]

def paymentFormatAverage : Descriptor :=
  [plain "payment_format" .string, plain "average_amount" .double]

def accountEdge : Descriptor :=
  [plain "bank" .string, plain "account" .string, plain "other_bank" .string,
    plain "other_account" .string, plain "is_sender" .bool]

def path : Descriptor :=
  [plain "from_bank" .string, plain "from_account" .string, plain "mid_bank" .string,
    plain "mid_account" .string, plain "to_bank" .string, plain "to_account" .string]

def eof : Descriptor := [plain "message_count" .int32]

def ringEof : Descriptor :=
  [plain "expected_count" .int32, plain "total_processed_count" .uint32,
    ⟨"coordinator_id", .uint32, true⟩, ⟨"total_sent_count", .uint32, true⟩]

def queryEnd : Descriptor := [plain "query_id" .uint32, plain "message_count" .int32]

def envelope : EnvelopeDescriptor where
  header := [plain "client_id" .string, plain "message_id" .string]
  payload :=
    [("raw_transaction_batch", .batch rawTransaction),
      ("raw_account_batch", .batch rawAccount),
      ("transaction_batch", .batch transaction),
      ("bank_batch", .batch bank),
      ("currency_conversion_batch", .batch transactionForCurrencyConversion),
      ("amount_transaction_batch", .batch transactionAmount),
      ("bank_max_partial_batch", .batch bankMaxPartial),
      ("payment_format_partial_batch", .batch paymentFormatPartial),
      ("payment_format_average_batch", .batch paymentFormatAverage),
      ("account_edge_batch", .batch accountEdge),
      ("path_batch", .batch path),
      ("q1_result_batch", .batch q1Result),
      ("q2_result_batch", .batch q2Result),
      ("q3_result_batch", .batch q3Result),
      ("q4_result_batch", .batch q4Result),
      ("q5_result_batch", .batch q5Result),
      ("count", .scalars count),
      ("eof", .scalars eof),
      ("ring_eof", .scalars ringEof),
      ("query_end", .scalars queryEnd)]

end Proto

/-! ## The tables -/

/-- `BATCH_DATA`. -/
def batchData : List (MsgType × BatchData) :=
  [(.rawTransactionBatch, ⟨Classes.rawTransaction, "raw_transaction_batch", ["raw"]⟩),
    (.rawAccountBatch, ⟨Classes.rawAccount, "raw_account_batch", ["raw"]⟩),
    (.bankBatch, ⟨Classes.bank, "bank_batch", ["bank_id", "name"]⟩),
    (.currencyConversionBatch,
      ⟨Classes.transactionForCurrencyConversion, "currency_conversion_batch",
        ["timestamp", "amount", "currency"]⟩),
    (.amountTransactionBatch,
      ⟨Classes.transactionAmount, "amount_transaction_batch", ["amount"]⟩),
    (.bankMaxPartialBatch,
      ⟨Classes.bankMaxPartial, "bank_max_partial_batch", ["from_bank", "from_account", "amount"]⟩),
    (.paymentFormatPartialBatch,
      ⟨Classes.paymentFormatPartial, "payment_format_partial_batch",
        ["payment_format", "total_amount", "count"]⟩),
    (.paymentFormatAverageBatch,
      ⟨Classes.paymentFormatAverage, "payment_format_average_batch",
        ["payment_format", "average_amount"]⟩),
    (.accountEdgeBatch,
      ⟨Classes.accountEdge, "account_edge_batch",
        ["bank", "account", "other_bank", "other_account", "is_sender"]⟩),
    (.pathBatch,
      ⟨Classes.path, "path_batch",
        ["from_bank", "from_account", "mid_bank", "mid_account", "to_bank", "to_account"]⟩),
    (.q1ResultBatch,
      ⟨Classes.q1Result, "q1_result_batch",
        ["from_bank", "from_account", "to_bank", "to_account", "amount_paid"]⟩),
    (.q2ResultBatch,
      ⟨Classes.q2Result, "q2_result_batch", ["bank_name", "from_account", "amount_paid"]⟩),
    (.q3ResultBatch,
      ⟨Classes.q3Result, "q3_result_batch", ["from_bank", "from_account", "amount_paid"]⟩),
    (.q4ResultBatch, ⟨Classes.q4Result, "q4_result_batch", ["bank", "account"]⟩),
    (.q5ResultBatch, ⟨Classes.q5Result, "q5_result_batch", ["count"]⟩)]

/-- `TYPES`, once the loop over `BATCH_DATA` has filled it. -/
def types : List (String × MsgType) :=
  (batchData.map fun entry ↦ (entry.2.fieldName, entry.1)) ++
    [("transaction_batch", .transactionBatch), ("count", .count), ("eof", .eof),
      ("ring_eof", .ringEof), ("query_end", .queryEnd)]

/-! ## Writing and reading -/

/-- `isoformat` and `fromisoformat` of the timestamps. -/
structure IsoFormat (T : Type) where
  isoformat : T → String
  /-- Nothing when it raises. -/
  fromisoformat : String → Option T
  fromisoformat_isoformat : ∀ t, fromisoformat (isoformat t) = some t

/-- `common.models.transaction.Transaction`, with all fields set. -/
structure Transaction (D T : Type) where
  timestamp : T
  fromBank : String
  fromAccount : String
  toBank : String
  toAccount : String
  amount : D
  currency : String
  paymentFormat : String

/-- What is passed to `serialize_msg`, and what `deserialize_msg` returns. -/
inductive Payload (D T : Type)
  | batch (records : List (Record D))
  | transactions (transactions : List (Transaction D T))
  | count (count : ℤ)
  | eof (messageCount : ℤ)
  | ringEof (ring : RingEOF)
  | queryEnd (queryId messageCount : ℤ)

variable {D T : Type} [Zero D] (iso : IsoFormat T)

def serializeBatch (data : BatchData) (env : Envelope D) (batch : List (Record D)) :
    Option (Envelope D) :=
  Proto.envelope.modify env data.fieldName fun desc body ↦
    (addItems desc.items data.fields batch).map fun items ↦
      { body with items := body.items ++ items }

def deserializeBatch (data : BatchData) (env : Envelope D) : Option (List (Record D)) :=
  (Proto.envelope.body env data.fieldName).bind fun p ↦
    readItems data.cls p.1.items data.fields p.2.items

/-- The fields that `_serialize_transaction_batch` sets of an item. -/
def transactionFields (tx : Transaction D T) : List (String × Scalar D) :=
  [("timestamp", .string (iso.isoformat tx.timestamp)), ("from_bank", .string tx.fromBank),
    ("from_account", .string tx.fromAccount), ("to_bank", .string tx.toBank),
    ("to_account", .string tx.toAccount), ("amount", .double tx.amount),
    ("currency", .string tx.currency), ("payment_format", .string tx.paymentFormat)]

def serializeTransactionBatch (env : Envelope D) (transactions : List (Transaction D T)) :
    Option (Envelope D) :=
  Proto.envelope.modify env "transaction_batch" fun desc body ↦
    (transactions.mapM fun tx ↦ desc.items.setattrs desc.items.new (transactionFields iso tx)).map
      fun items ↦ { body with items := body.items ++ items }

/-- A string attribute. -/
def getString (desc : Descriptor) (item : Flat D) (name : String) : Option String :=
  (desc.getattr item name).bind Scalar.toString?

def deserializeTransaction (desc : Descriptor) (item : Flat D) : Option (Transaction D T) := do
  let timestamp ← (getString desc item "timestamp").bind iso.fromisoformat
  let fromBank ← getString desc item "from_bank"
  let fromAccount ← getString desc item "from_account"
  let toBank ← getString desc item "to_bank"
  let toAccount ← getString desc item "to_account"
  let amount ← (desc.getattr item "amount").bind Scalar.toDouble?
  let currency ← getString desc item "currency"
  let paymentFormat ← getString desc item "payment_format"
  some { timestamp, fromBank, fromAccount, toBank, toAccount, amount, currency, paymentFormat }

def deserializeTransactionBatch (env : Envelope D) : Option (List (Transaction D T)) :=
  (Proto.envelope.body env "transaction_batch").bind fun p ↦
    p.2.items.mapM (deserializeTransaction iso p.1.items)

def serializeCount (env : Envelope D) (count : ℤ) : Option (Envelope D) :=
  Proto.envelope.setFields env "count" [("count", .int count)]

/-- An integer attribute of a payload. -/
def getInt (env : Envelope D) (name field : String) : Option ℤ :=
  (Proto.envelope.getField env name field).bind Scalar.toInt?

def deserializeCount (env : Envelope D) : Option ℤ := getInt env "count" "count"

def serializeEof (env : Envelope D) (messageCount : ℤ) : Option (Envelope D) :=
  Proto.envelope.setFields env "eof" [("message_count", .int messageCount)]

def deserializeEof (env : Envelope D) : Option ℤ := getInt env "eof" "message_count"

/-- The fields that `_serialize_ring_eof` sets: the last two only if they are not `None`. -/
def ringEofFields (ring : RingEOF) : List (String × Scalar D) :=
  [("expected_count", .int ring.expectedCount),
      ("total_processed_count", .int ring.totalProcessedCount)] ++
    (ring.coordinatorId.toList.map fun id ↦ ("coordinator_id", .int id)) ++
    ring.totalSentCount.toList.map fun count ↦ ("total_sent_count", .int count)

def serializeRingEof (env : Envelope D) (ring : RingEOF) : Option (Envelope D) :=
  Proto.envelope.setFields env "ring_eof" (ringEofFields ring)

/-- An optional integer attribute of the token, or `None`. -/
def getOptional (env : Envelope D) (field : String) : Option (Option ℤ) :=
  if Proto.envelope.hasField env "ring_eof" field then (getInt env "ring_eof" field).map some
  else some none

def deserializeRingEof (env : Envelope D) : Option RingEOF := do
  let expectedCount ← getInt env "ring_eof" "expected_count"
  let totalProcessedCount ← getInt env "ring_eof" "total_processed_count"
  let coordinatorId ← getOptional env "coordinator_id"
  let totalSentCount ← getOptional env "total_sent_count"
  some
    { expectedCount, totalProcessedCount
      coordinatorId := coordinatorId.map Int.toNat
      totalSentCount }

def serializeQueryEnd (env : Envelope D) (queryId messageCount : ℤ) : Option (Envelope D) :=
  Proto.envelope.setFields env "query_end"
    [("query_id", .int queryId), ("message_count", .int messageCount)]

def deserializeQueryEnd (env : Envelope D) : Option (ℤ × ℤ) := do
  let queryId ← getInt env "query_end" "query_id"
  let messageCount ← getInt env "query_end" "message_count"
  some (queryId, messageCount)

/-- `SERIALIZERS`. A payload that the function of the type cannot take makes it raise. -/
def serializers (t : MsgType) (env : Envelope D) (payload : Payload D T) : Option (Envelope D) :=
  match batchData.lookup t, t, payload with
  | some data, _, .batch records => serializeBatch data env records
  | none, .transactionBatch, .transactions txs => serializeTransactionBatch iso env txs
  | none, .count, .count count => serializeCount env count
  | none, .eof, .eof messageCount => serializeEof env messageCount
  | none, .ringEof, .ringEof ring => serializeRingEof env ring
  | none, .queryEnd, .queryEnd queryId messageCount => serializeQueryEnd env queryId messageCount
  | _, _, _ => none

/-- `DESERIALIZERS`. -/
def deserializers (t : MsgType) (env : Envelope D) : Option (Payload D T) :=
  match batchData.lookup t, t with
  | some data, _ => (deserializeBatch data env).map .batch
  | none, .transactionBatch => (deserializeTransactionBatch iso env).map .transactions
  | none, .count => (deserializeCount env).map .count
  | none, .eof => (deserializeEof env).map .eof
  | none, .ringEof => (deserializeRingEof env).map .ringEof
  | none, .queryEnd => (deserializeQueryEnd env).map fun p ↦ .queryEnd p.1 p.2
  | none, _ => none

/-- The envelope that `serialize_msg` makes. -/
def toEnvelope (t : MsgType) (clientId : String) (payload : Payload D T) (messageId : String) :
    Option (Envelope D) :=
  (Proto.envelope.new [("client_id", .string clientId), ("message_id", .string messageId)]).bind
    fun env ↦ serializers iso t env payload

/-- What `deserialize_msg` makes of an envelope. -/
def ofEnvelope (env : Envelope D) : Option (MsgType × String × Payload D T × String) := do
  let name ← env.whichOneof
  let payloadType ← types.lookup name
  let payload ← deserializers iso payloadType env
  let clientId ← getString Proto.envelope.header env.header "client_id"
  let messageId ← getString Proto.envelope.header env.header "message_id"
  some (payloadType, clientId, payload, messageId)

variable {Data : Type} (codec : Codec (Envelope D) Data)

def serializeMsg (t : MsgType) (clientId : String) (payload : Payload D T) (messageId : String) :
    Option Data :=
  (toEnvelope iso t clientId payload messageId).map codec.serializeToString

def deserializeMsg (data : Data) : Option (MsgType × String × Payload D T × String) :=
  (codec.parseFromString data).bind (ofEnvelope iso)

/-! ## The round trip -/

/-- A payload of the type whose numbers are in the ranges of the declared fields. -/
inductive Declared : MsgType → Payload D T → Prop
  | batch {t : MsgType} {data : BatchData} {records : List (Record D)}
      (hdata : batchData.lookup t = some data)
      (hrecords : ∀ desc, Proto.envelope.payload.lookup data.fieldName = some desc →
        ∀ r ∈ records, Instance data.cls desc.items r) : Declared t (.batch records)
  | transactions (transactions : List (Transaction D T)) :
      Declared .transactionBatch (.transactions transactions)
  | count {count : ℤ} (hcount : 0 ≤ count ∧ count < 2 ^ 32) : Declared .count (.count count)
  | eof {messageCount : ℤ} (hcount : -2 ^ 31 ≤ messageCount ∧ messageCount < 2 ^ 31) :
      Declared .eof (.eof messageCount)
  | ringEof {ring : RingEOF}
      (hexpected : -2 ^ 31 ≤ ring.expectedCount ∧ ring.expectedCount < 2 ^ 31)
      (hprocessed : 0 ≤ ring.totalProcessedCount ∧ ring.totalProcessedCount < 2 ^ 32)
      (hcoordinator : ∀ id, ring.coordinatorId = some id → id < 2 ^ 32)
      (hsent : ∀ count, ring.totalSentCount = some count → 0 ≤ count ∧ count < 2 ^ 32) :
      Declared .ringEof (.ringEof ring)
  | queryEnd {queryId messageCount : ℤ} (hquery : 0 ≤ queryId ∧ queryId < 2 ^ 32)
      (hcount : -2 ^ 31 ≤ messageCount ∧ messageCount < 2 ^ 31) :
      Declared .queryEnd (.queryEnd queryId messageCount)

/-- An entry of the table fits the class, the declaration and `TYPES`. -/
def Fits (t : MsgType) (data : BatchData) : Prop :=
  types.lookup data.fieldName = some t ∧
    match Proto.envelope.payload.lookup data.fieldName with
    | some desc => desc = .batch desc.items ∧ Coherent data.cls desc.items data.fields
    | none => False

instance (t : MsgType) (data : BatchData) : Decidable (Fits t data) := by
  unfold Fits
  split <;> infer_instance

theorem batchData_coherent : ∀ entry ∈ batchData, Fits entry.1 entry.2 := by decide +kernel

/-- What a serializer has to make of a new envelope. -/
structure Written (t : MsgType) (payload : Payload D T) (env env' : Envelope D) : Prop where
  header : env'.header = env.header
  type : (env'.whichOneof.bind fun name ↦ types.lookup name) = some t
  read : deserializers iso t env' = some payload

variable {iso} {env : Envelope D}

theorem exists_serializeBatch {t : MsgType} {data : BatchData}
    (hdata : batchData.lookup t = some data) {records : List (Record D)}
    (hrecords : ∀ desc, Proto.envelope.payload.lookup data.fieldName = some desc →
      ∀ r ∈ records, Instance data.cls desc.items r) (hnew : env.payload = none) :
    ∃ env', serializers iso t env (.batch records) = some env' ∧
      Written iso t (.batch records) env env' := by
  have hmem : (t, data) ∈ batchData := by
    obtain ⟨before, after, hsplit, -⟩ := List.lookup_eq_some_iff.mp hdata
    simp [hsplit]
  obtain ⟨htype, hdesc⟩ := batchData_coherent (t, data) hmem
  match hlookup : Proto.envelope.payload.lookup data.fieldName with
  | none => simp [hlookup] at hdesc
  | some desc =>
    rw [hlookup] at hdesc
    obtain ⟨items, hadd, hread⟩ := readItems_addItems hdesc.2 (hrecords desc hlookup)
    let env' : Envelope D :=
      { env with payload := some (data.fieldName, ⟨desc.fields.new, items, none⟩) }
    have hmodify : serializeBatch data env records = some env' := by
      refine EnvelopeDescriptor.modify_of_none hnew hlookup ?_
      rw [hadd]
      rfl
    have hbody := EnvelopeDescriptor.body_of_selected env' rfl hlookup
    refine ⟨env', ?_, rfl, htype, ?_⟩
    · simp only [serializers, hdata]
      exact hmodify
    · simp only [deserializers, hdata, deserializeBatch, hbody, Option.bind_some, hread,
        Option.map_some]

variable (iso) in
omit [Zero D] in
/-- The fields of a transaction are declared. -/
theorem transactionFields_allowed (tx : Transaction D T) :
    ∀ p ∈ transactionFields iso tx, Proto.transaction.Allows p.1 p.2 := by
  simp only [transactionFields, List.forall_mem_cons]
  exact ⟨⟨_, rfl, trivial⟩, ⟨_, rfl, trivial⟩, ⟨_, rfl, trivial⟩, ⟨_, rfl, trivial⟩,
    ⟨_, rfl, trivial⟩, ⟨_, rfl, trivial⟩, ⟨_, rfl, trivial⟩, ⟨_, rfl, trivial⟩, by simp⟩

variable (iso) in
/-- **A transaction is read back.** -/
theorem deserializeTransaction_setattrs (tx : Transaction D T) :
    ∃ item, Proto.transaction.setattrs Proto.transaction.new
      (transactionFields iso tx) = some item ∧
      deserializeTransaction iso Proto.transaction item = some tx := by
  have hallows := transactionFields_allowed iso tx
  have hnodup : ((transactionFields iso tx).map Prod.fst).Nodup := by
    simp [transactionFields]
  obtain ⟨item, hset, -, -⟩ := Descriptor.exists_setattrs hallows hnodup Proto.transaction.new
  refine ⟨item, hset, ?_⟩
  have hvalues := Descriptor.getattr_of_setattrs hallows hnodup hset
  simp only [transactionFields, List.forall_mem_cons] at hvalues
  obtain ⟨h₁, h₂, h₃, h₄, h₅, h₆, h₇, h₈, -⟩ := hvalues
  simp [deserializeTransaction, getString, h₁, h₂, h₃, h₄, h₅, h₆, h₇, h₈, Scalar.toString?,
    Scalar.toDouble?, iso.fromisoformat_isoformat]

theorem exists_serializeTransactionBatch (txs : List (Transaction D T))
    (hnew : env.payload = none) :
    ∃ env', serializers iso .transactionBatch env (.transactions txs) = some env' ∧
      Written iso .transactionBatch (.transactions txs) env env' := by
  have hitems : ∃ items, (txs.mapM fun tx ↦
      Proto.transaction.setattrs Proto.transaction.new (transactionFields iso tx)) = some items ∧
        items.mapM (deserializeTransaction iso Proto.transaction) = some txs := by
    induction txs with
    | nil => exact ⟨[], rfl, rfl⟩
    | cons tx txs ih =>
      obtain ⟨items, hset, hread⟩ := ih
      obtain ⟨item, hset', hread'⟩ := deserializeTransaction_setattrs iso tx
      exact ⟨item :: items, by simp [hset', hset], by simp [hread', hread]⟩
  obtain ⟨items, hset, hread⟩ := hitems
  have hlookup : Proto.envelope.payload.lookup "transaction_batch"
      = some (.batch Proto.transaction) := rfl
  let env' : Envelope D :=
    { env with payload := some ("transaction_batch", ⟨Descriptor.new [], items, none⟩) }
  have hmodify : serializeTransactionBatch iso env txs = some env' := by
    refine EnvelopeDescriptor.modify_of_none hnew hlookup ?_
    simp only [BodyDescriptor.batch, BodyDescriptor.new, hset]
    rfl
  have hbody := EnvelopeDescriptor.body_of_selected env' rfl hlookup
  refine ⟨env', hmodify, rfl, rfl, ?_⟩
  change (deserializeTransactionBatch iso env').map Payload.transactions = _
  simp only [deserializeTransactionBatch, hbody, Option.bind_some, BodyDescriptor.batch]
  rw [hread]
  rfl

theorem getInt_of_getField {name field : String} {n : ℤ}
    (h : Proto.envelope.getField env name field = some (.int n)) :
    getInt env name field = some n := by
  rw [getInt, h]
  rfl

theorem exists_serializeCount {count : ℤ} (hcount : 0 ≤ count ∧ count < 2 ^ 32)
    (hnew : env.payload = none) :
    ∃ env' : Envelope D, serializers iso .count env (.count count : Payload D T) = some env' ∧
      Written iso .count (.count count) env env' := by
  have hdesc : Proto.envelope.payload.lookup "count" = some (.scalars Proto.count) := rfl
  obtain ⟨env', hset, hheader, hwhich, hvalues, -⟩ :=
    EnvelopeDescriptor.exists_setFields hnew hdesc [("count", .int count)]
      (List.forall_mem_singleton.mpr ⟨_, rfl, hcount⟩) (List.nodup_singleton _)
  have hread := getInt_of_getField (hvalues _ List.mem_cons_self)
  refine ⟨env', hset, hheader, ?_, ?_⟩
  · rw [hwhich]
    rfl
  · change (deserializeCount env').map Payload.count = _
    rw [deserializeCount, hread]
    rfl

theorem exists_serializeEof {messageCount : ℤ}
    (hcount : -2 ^ 31 ≤ messageCount ∧ messageCount < 2 ^ 31) (hnew : env.payload = none) :
    ∃ env' : Envelope D, serializers iso .eof env (.eof messageCount : Payload D T) = some env' ∧
      Written iso .eof (.eof messageCount) env env' := by
  have hdesc : Proto.envelope.payload.lookup "eof" = some (.scalars Proto.eof) := rfl
  obtain ⟨env', hset, hheader, hwhich, hvalues, -⟩ :=
    EnvelopeDescriptor.exists_setFields hnew hdesc [("message_count", .int messageCount)]
      (List.forall_mem_singleton.mpr ⟨_, rfl, hcount⟩) (List.nodup_singleton _)
  have hread := getInt_of_getField (hvalues _ List.mem_cons_self)
  refine ⟨env', hset, hheader, ?_, ?_⟩
  · rw [hwhich]
    rfl
  · change (deserializeEof env').map Payload.eof = _
    rw [deserializeEof, hread]
    rfl

theorem exists_serializeQueryEnd {queryId messageCount : ℤ}
    (hquery : 0 ≤ queryId ∧ queryId < 2 ^ 32)
    (hcount : -2 ^ 31 ≤ messageCount ∧ messageCount < 2 ^ 31) (hnew : env.payload = none) :
    ∃ env' : Envelope D,
      serializers iso .queryEnd env (.queryEnd queryId messageCount : Payload D T) = some env' ∧
        Written iso .queryEnd (.queryEnd queryId messageCount) env env' := by
  have hdesc : Proto.envelope.payload.lookup "query_end" = some (.scalars Proto.queryEnd) := rfl
  have hallows : ∀ p ∈ [("query_id", .int queryId), ("message_count", .int messageCount)],
      (BodyDescriptor.scalars Proto.queryEnd).fields.Allows p.1 (p.2 : Scalar D) := by
    rw [List.forall_mem_cons, List.forall_mem_singleton]
    exact ⟨⟨_, rfl, hquery⟩, ⟨_, rfl, hcount⟩⟩
  obtain ⟨env', hset, hheader, hwhich, hvalues, -⟩ :=
    EnvelopeDescriptor.exists_setFields hnew hdesc _ hallows (by simp)
  rw [List.forall_mem_cons, List.forall_mem_singleton] at hvalues
  have hread := getInt_of_getField hvalues.1
  have hread' := getInt_of_getField hvalues.2
  refine ⟨env', hset, hheader, ?_, ?_⟩
  · rw [hwhich]
    rfl
  · change (deserializeQueryEnd env').map (fun p ↦ Payload.queryEnd p.1 p.2) = _
    rw [deserializeQueryEnd, hread, hread']
    rfl

/-- An optional field is read as it was written: not at all, or with its value, also if that
is 0. -/
theorem getOptional_eq {field : String} {value : Option ℤ}
    (hhas : Proto.envelope.hasField env "ring_eof" field = value.isSome)
    (hvalue : ∀ n, value = some n → Proto.envelope.getField env "ring_eof" field = some (.int n)) :
    getOptional env field = some value := by
  rw [getOptional, hhas]
  match value with
  | none => rfl
  | some n =>
    rw [getInt_of_getField (hvalue n rfl)]
    rfl

omit [Zero D] in
theorem ringEofFields_allowed {ring : RingEOF}
    (hexpected : -2 ^ 31 ≤ ring.expectedCount ∧ ring.expectedCount < 2 ^ 31)
    (hprocessed : 0 ≤ ring.totalProcessedCount ∧ ring.totalProcessedCount < 2 ^ 32)
    (hcoordinator : ∀ id, ring.coordinatorId = some id → id < 2 ^ 32)
    (hsent : ∀ count, ring.totalSentCount = some count → 0 ≤ count ∧ count < 2 ^ 32) :
    ∀ p ∈ ringEofFields ring, Proto.ringEof.Allows p.1 (p.2 : Scalar D) := by
  intro p hp
  simp only [ringEofFields, List.mem_append, List.mem_cons, List.not_mem_nil, or_false,
    List.mem_map, Option.mem_toList] at hp
  rcases hp with ((rfl | rfl) | ⟨id, hid, rfl⟩) | ⟨count, hcount, rfl⟩
  · exact ⟨_, rfl, hexpected⟩
  · exact ⟨_, rfl, hprocessed⟩
  · refine ⟨_, rfl, Int.natCast_nonneg id, ?_⟩
    exact_mod_cast hcoordinator id hid
  · exact ⟨_, rfl, hsent count hcount⟩

omit [Zero D] in
/-- Which fields of a token are set. -/
theorem map_ringEofFields (ring : RingEOF) :
    (ringEofFields ring : List (String × Scalar D)).map Prod.fst
      = ["expected_count", "total_processed_count"]
        ++ (ring.coordinatorId.toList.map fun _ ↦ "coordinator_id")
        ++ ring.totalSentCount.toList.map fun _ ↦ "total_sent_count" := by
  simp [ringEofFields, Function.comp_def]

theorem exists_serializeRingEof {ring : RingEOF}
    (hexpected : -2 ^ 31 ≤ ring.expectedCount ∧ ring.expectedCount < 2 ^ 31)
    (hprocessed : 0 ≤ ring.totalProcessedCount ∧ ring.totalProcessedCount < 2 ^ 32)
    (hcoordinator : ∀ id, ring.coordinatorId = some id → id < 2 ^ 32)
    (hsent : ∀ count, ring.totalSentCount = some count → 0 ≤ count ∧ count < 2 ^ 32)
    (hnew : env.payload = none) :
    ∃ env' : Envelope D, serializers iso .ringEof env (.ringEof ring : Payload D T) = some env' ∧
      Written iso .ringEof (.ringEof ring) env env' := by
  have hdesc : Proto.envelope.payload.lookup "ring_eof" = some (.scalars Proto.ringEof) := rfl
  have hnames := map_ringEofFields (D := D) ring
  have hnodup : ((ringEofFields ring : List (String × Scalar D)).map Prod.fst).Nodup := by
    rw [hnames]
    match ring.coordinatorId, ring.totalSentCount with
    | none, none | none, some _ | some _, none | some _, some _ => simp
  obtain ⟨env', hset, hheader, hwhich, hvalues, hhas⟩ :=
    EnvelopeDescriptor.exists_setFields hnew hdesc (ringEofFields ring)
      (ringEofFields_allowed hexpected hprocessed hcoordinator hsent) hnodup
  have hread {field : String} {n : ℤ} (hmem : (field, Scalar.int n) ∈ ringEofFields (D := D) ring) :
      getInt env' "ring_eof" field = some n := getInt_of_getField (hvalues _ hmem)
  have hfirst := hread (List.mem_append_left _ (List.mem_append_left _ List.mem_cons_self))
  have hsecond := hread (List.mem_append_left _
    (List.mem_append_left _ (List.mem_cons_of_mem _ List.mem_cons_self)))
  have hthird : getOptional env' "coordinator_id"
      = some (ring.coordinatorId.map fun id : NodeId ↦ (id : ℤ)) := by
    refine getOptional_eq ?_ fun n hn ↦ ?_
    · rw [hhas, hnames]
      match ring.coordinatorId, ring.totalSentCount with
      | none, none | none, some _ | some _, none | some _, some _ => rfl
    · obtain ⟨id, hid, rfl⟩ := Option.map_eq_some_iff.mp hn
      refine hvalues ("coordinator_id", .int id)
        (List.mem_append_left _ (List.mem_append_right _ ?_))
      exact List.mem_map.mpr ⟨id, Option.mem_toList.mpr hid, rfl⟩
  have hfourth : getOptional env' "total_sent_count" = some ring.totalSentCount := by
    refine getOptional_eq ?_ fun n hn ↦ ?_
    · rw [hhas, hnames]
      match ring.coordinatorId, ring.totalSentCount with
      | none, none | none, some _ | some _, none | some _, some _ => rfl
    · refine hvalues ("total_sent_count", .int n) (List.mem_append_right _ ?_)
      exact List.mem_map.mpr ⟨n, Option.mem_toList.mpr hn, rfl⟩
  refine ⟨env', hset, hheader, ?_, ?_⟩
  · rw [hwhich]
    rfl
  · change (deserializeRingEof env').map Payload.ringEof = _
    have hid : (Int.toNat ∘ fun id : NodeId ↦ (id : ℤ)) = id := funext Int.toNat_natCast
    rw [deserializeRingEof, hfirst, hsecond, hthird, hfourth]
    simp [hid]

variable (iso) in
/-- What is written of each declared payload. -/
theorem exists_serialize {t : MsgType} {payload : Payload D T} (h : Declared t payload)
    (hnew : env.payload = none) :
    ∃ env', serializers iso t env payload = some env' ∧ Written iso t payload env env' := by
  match h with
  | .batch hdata hrecords => exact exists_serializeBatch hdata hrecords hnew
  | .transactions txs => exact exists_serializeTransactionBatch txs hnew
  | .count hcount => exact exists_serializeCount hcount hnew
  | .eof hcount => exact exists_serializeEof hcount hnew
  | .ringEof hexpected hprocessed hcoordinator hsent =>
    exact exists_serializeRingEof hexpected hprocessed hcoordinator hsent hnew
  | .queryEnd hquery hcount => exact exists_serializeQueryEnd hquery hcount hnew

/-- An envelope with its client and message id. -/
theorem exists_new (clientId messageId : String) :
    ∃ env : Envelope D, Proto.envelope.new
        [("client_id", .string clientId), ("message_id", .string messageId)] = some env ∧
      env.payload = none ∧ getString Proto.envelope.header env.header "client_id" = some clientId ∧
      getString Proto.envelope.header env.header "message_id" = some messageId := by
  let values : List (String × Scalar D) :=
    [("client_id", .string clientId), ("message_id", .string messageId)]
  have hallows : ∀ p ∈ values, Proto.envelope.header.Allows p.1 p.2 := by
    rw [List.forall_mem_cons, List.forall_mem_singleton]
    exact ⟨⟨_, rfl, trivial⟩, ⟨_, rfl, trivial⟩⟩
  have hnodup : (values.map Prod.fst).Nodup := by simp [values]
  obtain ⟨header, hset, -, -⟩ := Descriptor.exists_setattrs hallows hnodup
    (Proto.envelope.header.new : Flat D)
  have hvalues := Descriptor.getattr_of_setattrs hallows hnodup hset
  rw [List.forall_mem_cons, List.forall_mem_singleton] at hvalues
  refine ⟨⟨header, none⟩, ?_, rfl, ?_, ?_⟩
  · rw [EnvelopeDescriptor.new, hset]
    rfl
  · rw [getString, hvalues.1]
    rfl
  · rw [getString, hvalues.2]
    rfl

variable (iso) in
/-- **What was put in an envelope is found there.** -/
theorem ofEnvelope_toEnvelope {t : MsgType} {payload : Payload D T} (h : Declared t payload)
    (clientId messageId : String) :
    ∃ env, toEnvelope iso t clientId payload messageId = some env ∧
      ofEnvelope iso env = some (t, clientId, payload, messageId) := by
  obtain ⟨env, hnewEnv, hnew, hclient, hmessage⟩ := exists_new (D := D) clientId messageId
  obtain ⟨env', hserialize, hwritten⟩ := exists_serialize iso h hnew
  refine ⟨env', ?_, ?_⟩
  · rw [toEnvelope, hnewEnv, Option.bind_some, hserialize]
  · obtain ⟨name, hname, htype⟩ := Option.bind_eq_some_iff.mp hwritten.type
    simp [ofEnvelope, hname, htype, hwritten.read, hwritten.header, hclient, hmessage]

variable {Data : Type} {codec : Codec (Envelope D) Data}

/-- **A message is read as it was written**: its type, its client, its payload and its id. -/
theorem internal_round_trip {t : MsgType} {payload : Payload D T} (h : Declared t payload)
    (clientId messageId : String)
    (hlossless : ∀ env, toEnvelope iso t clientId payload messageId = some env →
      codec.Lossless env) :
    ∃ data, serializeMsg iso codec t clientId payload messageId = some data ∧
      deserializeMsg iso codec data = some (t, clientId, payload, messageId) := by
  obtain ⟨env, htoEnvelope, hofEnvelope⟩ := ofEnvelope_toEnvelope iso h clientId messageId
  refine ⟨codec.serializeToString env, ?_, ?_⟩
  · rw [serializeMsg, htoEnvelope, Option.map_some]
  · rw [deserializeMsg, hlossless env htoEnvelope, Option.bind_some, hofEnvelope]

/-- One moment. -/
def oneMoment : IsoFormat Unit where
  isoformat _ := "2022-09-01T00:00:00"
  fromisoformat text := if text = "2022-09-01T00:00:00" then some () else none
  fromisoformat_isoformat := by decide

/-- The end of the input of a client that is cleaned up, as bytes. -/
def cleanupBytes : List UInt8 :=
  [0x0a, 0x01, 0x63, 0xa2, 0x01, 0x0b, 0x08, 0xff, 0xff, 0xff, 0xff, 0xff, 0xff, 0xff, 0xff, 0xff,
    0x01, 0xba, 0x01, 0x01, 0x6d]

def cleanupCodec : Codec (Envelope ℤ) (List UInt8) where
  serializeToString _ := cleanupBytes
  parseFromString data :=
    if data = cleanupBytes then toEnvelope oneMoment .eof "c" (.eof (-1)) "m" else none

theorem internal_round_trip_cleanup :
    ∃ data, serializeMsg oneMoment cleanupCodec .eof "c" (.eof (-1)) "m" = some data ∧
      deserializeMsg oneMoment cleanupCodec data = some (.eof, "c", .eof (-1), "m") :=
  internal_round_trip (.eof (by decide)) "c" "m" fun _ henv ↦ henv

end Internal

end MoneyLaundering
