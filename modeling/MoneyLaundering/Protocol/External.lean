import MoneyLaundering.Protocol.Framing
import MoneyLaundering.Protocol.Records

/-!
# The external protocol

How a client, the proxy and the gateway write and read what they send each other
(`common/communication/protocol/external.py`): ten types of messages in an envelope, each behind its
length on the stream. What a message returns depends on its type: some return the client and the
message id, some the delivery id, some neither.

`external_framing` says that successive calls of `recv_msg` return what was sent, in order, however
the stream is split, and that a message which is cut off is not returned.
-/

namespace MoneyLaundering

namespace External

open Protobuf Framing

inductive MsgType
  | transactionBatch
  | accountBatch
  | eofTransactions
  | eofAccounts
  | queryResult
  | queryEnd
  | redirect
  | ack
  | announce
  | resultAck
  deriving DecidableEq, Repr

namespace Proto

open CommonProto

def queryResult : BodyDescriptor where
  fields := [plain "query_id" .uint32]
  items := []
  results := [("q1", q1Result), ("q2", q2Result), ("q3", q3Result), ("q4", q4Result),
    ("q5", q5Result)]

def queryEnd : Descriptor := [plain "query_id" .uint32, plain "message_count" .uint32]

def redirect : Descriptor := [plain "host" .string, plain "port" .uint32]

def envelope : EnvelopeDescriptor where
  header := [plain "client_id" .string, plain "message_id" .string, plain "delivery_id" .uint64]
  payload :=
    [("transaction_batch", .batch rawTransaction),
      ("account_batch", .batch rawAccount),
      ("eof_transactions", .scalars []),
      ("eof_accounts", .scalars []),
      ("query_result", queryResult),
      ("query_end", .scalars queryEnd),
      ("redirect", .scalars redirect),
      ("ack", .scalars []),
      ("announce", .scalars []),
      ("result_ack", .scalars [])]

end Proto

/-- `QUERY_RESULT_DATA`. -/
def queryResultData : List (ℤ × BatchData) :=
  [(1, ⟨Classes.q1Result, "q1",
      ["from_bank", "from_account", "to_bank", "to_account", "amount_paid"]⟩),
    (2, ⟨Classes.q2Result, "q2", ["bank_name", "from_account", "amount_paid"]⟩),
    (3, ⟨Classes.q3Result, "q3", ["from_bank", "from_account", "amount_paid"]⟩),
    (4, ⟨Classes.q4Result, "q4", ["bank", "account"]⟩),
    (5, ⟨Classes.q5Result, "q5", ["count"]⟩)]

/-- `TYPES`. -/
def types : List (String × MsgType) :=
  [("transaction_batch", .transactionBatch), ("account_batch", .accountBatch),
    ("eof_transactions", .eofTransactions), ("eof_accounts", .eofAccounts),
    ("query_result", .queryResult), ("query_end", .queryEnd), ("redirect", .redirect),
    ("ack", .ack), ("announce", .announce), ("result_ack", .resultAck)]

/-- What is passed to `send_msg` beside the ids. -/
inductive Args (D : Type)
  | none
  | records (records : List (Record D))
  | queryResult (queryId : ℤ) (records : List (Record D))
  | queryEnd (queryId messageCount : ℤ)
  | redirect (host : String) (port : ℤ)
  deriving DecidableEq

/-- What `recv_msg` returns beside the type. -/
inductive Received (D : Type)
  | none
  | records (records : List (Record D)) (clientId messageId : String)
  | ids (clientId messageId : String)
  | queryResult (queryId : ℤ) (records : List (Record D)) (messageId : String) (deliveryId : ℤ)
  | queryEnd (queryId messageCount deliveryId : ℤ)
  | redirect (host : String) (port : ℤ)
  | announce (clientId : String)
  | resultAck (deliveryId : ℤ)

/-- A call of `send_msg`. -/
structure Outgoing (D : Type) where
  msgType : MsgType
  args : Args D
  clientId : String
  messageId : String
  deliveryId : ℤ
  deriving DecidableEq

variable {D : Type} [Zero D]

/-! ## Writing -/

/-- `env.<name>.SetInParent()`. -/
def setInParent (env : Envelope D) (name : String) : Option (Envelope D) :=
  Proto.envelope.modify env name fun _ body ↦ some body

def serializeBatch (env : Envelope D) (name : String) (records : List (Record D))
    (fields : List String) : Option (Envelope D) :=
  Proto.envelope.modify env name fun desc body ↦
    (addItems desc.items fields records).map fun items ↦ { body with items := body.items ++ items }

/-- The items of the batch `name` of a query result. -/
def resultItems (body : Body D) (name : String) : List (Flat D) :=
  match body.results with
  | some (selected, items) => if selected = name then items else []
  | .none => []

def serializeQueryResult (env : Envelope D) (queryId : ℤ) (records : List (Record D)) :
    Option (Envelope D) :=
  (queryResultData.lookup queryId).bind fun data ↦
    Proto.envelope.modify env "query_result" fun desc body ↦
      (desc.fields.setattrs body.fields [("query_id", .int queryId)]).bind fun fields ↦
        (desc.results.lookup data.fieldName).bind fun item ↦
          (addItems item data.fields records).map fun items ↦
            { body with
              fields
              results := some (data.fieldName, resultItems body data.fieldName ++ items) }

def serializeQueryEnd (env : Envelope D) (queryId messageCount : ℤ) : Option (Envelope D) :=
  Proto.envelope.setFields env "query_end"
    [("query_id", .int queryId), ("message_count", .int messageCount)]

def serializeRedirect (env : Envelope D) (host : String) (port : ℤ) : Option (Envelope D) :=
  Proto.envelope.setFields env "redirect" [("host", .string host), ("port", .int port)]

/-- `SERIALIZERS`. Arguments that the function of the type cannot take make it raise. -/
def serializers (t : MsgType) (env : Envelope D) (args : Args D) : Option (Envelope D) :=
  match t, args with
  | .transactionBatch, .records records => serializeBatch env "transaction_batch" records ["raw"]
  | .accountBatch, .records records => serializeBatch env "account_batch" records ["raw"]
  | .eofTransactions, .none => setInParent env "eof_transactions"
  | .eofAccounts, .none => setInParent env "eof_accounts"
  | .queryResult, .queryResult queryId records => serializeQueryResult env queryId records
  | .queryEnd, .queryEnd queryId messageCount => serializeQueryEnd env queryId messageCount
  | .redirect, .redirect host port => serializeRedirect env host port
  | .ack, .none => setInParent env "ack"
  | .announce, .none => setInParent env "announce"
  | .resultAck, .none => setInParent env "result_ack"
  | _, _ => none

/-! ## Reading -/

/-- A string of the header. -/
def headerString (env : Envelope D) (name : String) : Option String :=
  (Proto.envelope.header.getattr env.header name).bind Scalar.toString?

def headerInt (env : Envelope D) (name : String) : Option ℤ :=
  (Proto.envelope.header.getattr env.header name).bind Scalar.toInt?

/-- An integer attribute of a payload. -/
def getInt (env : Envelope D) (name field : String) : Option ℤ :=
  (Proto.envelope.getField env name field).bind Scalar.toInt?

def getString (env : Envelope D) (name field : String) : Option String :=
  (Proto.envelope.getField env name field).bind Scalar.toString?

def deserializeBatch (env : Envelope D) (name : String) (cls : RecordClass)
    (fields : List String) : Option (Received D) := do
  let (desc, body) ← Proto.envelope.body env name
  let records ← readItems cls desc.items fields body.items
  let clientId ← headerString env "client_id"
  let messageId ← headerString env "message_id"
  some (.records records clientId messageId)

def deserializeIds (env : Envelope D) : Option (Received D) := do
  let clientId ← headerString env "client_id"
  let messageId ← headerString env "message_id"
  some (.ids clientId messageId)

def deserializeQueryResult (env : Envelope D) : Option (Received D) := do
  let (desc, body) ← Proto.envelope.body env "query_result"
  let queryId ← getInt env "query_result" "query_id"
  let data ← queryResultData.lookup queryId
  let item ← desc.results.lookup data.fieldName
  let records ← readItems data.cls item data.fields (resultItems body data.fieldName)
  let messageId ← headerString env "message_id"
  let deliveryId ← headerInt env "delivery_id"
  some (.queryResult queryId records messageId deliveryId)

def deserializeQueryEnd (env : Envelope D) : Option (Received D) := do
  let queryId ← getInt env "query_end" "query_id"
  let messageCount ← getInt env "query_end" "message_count"
  let deliveryId ← headerInt env "delivery_id"
  some (.queryEnd queryId messageCount deliveryId)

def deserializeRedirect (env : Envelope D) : Option (Received D) := do
  let host ← getString env "redirect" "host"
  let port ← getInt env "redirect" "port"
  some (.redirect host port)

/-- `DESERIALIZERS`. -/
def deserializers (t : MsgType) (env : Envelope D) : Option (Received D) :=
  match t with
  | .transactionBatch => deserializeBatch env "transaction_batch" Classes.rawTransaction ["raw"]
  | .accountBatch => deserializeBatch env "account_batch" Classes.rawAccount ["raw"]
  | .eofTransactions | .eofAccounts => deserializeIds env
  | .queryResult => deserializeQueryResult env
  | .queryEnd => deserializeQueryEnd env
  | .redirect => deserializeRedirect env
  | .ack => some .none
  | .announce => (headerString env "client_id").map .announce
  | .resultAck => (headerInt env "delivery_id").map .resultAck

/-! ## Sending and receiving -/

/-- The envelope that `send_msg` makes. -/
def toEnvelope (m : Outgoing D) : Option (Envelope D) :=
  (Proto.envelope.new [("client_id", .string m.clientId), ("message_id", .string m.messageId),
    ("delivery_id", .int m.deliveryId)]).bind fun env ↦ serializers m.msgType env m.args

/-- What `recv_msg` makes of an envelope. -/
def ofEnvelope (env : Envelope D) : Option (MsgType × Received D) := do
  let name ← env.whichOneof
  let payloadType ← types.lookup name
  let received ← deserializers payloadType env
  some (payloadType, received)

variable (codec : Codec (Envelope D) (List UInt8))

/-- The bytes that `send_msg` sends; nothing when it raises. -/
def sendMsg (m : Outgoing D) : Option (List UInt8) :=
  (toEnvelope m).bind fun env ↦ frame (codec.serializeToString env)

def recvMsg (s : Socket) : Except RecvError ((MsgType × Received D) × Socket) :=
  s.recvFrame.bind fun p ↦
    match (codec.parseFromString p.1).bind ofEnvelope with
    | some message => .ok (message, p.2)
    | none => .error .malformed

/-- The bytes of several calls of `send_msg`. -/
def sendMsgs (messages : List (Outgoing D)) : Option (List UInt8) :=
  (messages.mapM (sendMsg codec)).map List.flatten

/-- Some calls of `recv_msg`, up to the first that raises: what they return, and either the error or
the socket. -/
def recvMsgs : ℕ → Socket → List (MsgType × Received D) × Except RecvError Socket
  | 0, s => ([], .ok s)
  | k + 1, s =>
    match recvMsg codec s with
    | .ok (message, s) => (message :: (recvMsgs k s).1, (recvMsgs k s).2)
    | .error e => ([], .error e)

/-- What is returned for a message: of its ids, those which its type carries. -/
def Outgoing.returned (m : Outgoing D) : Received D :=
  match m.msgType, m.args with
  | .transactionBatch, .records records | .accountBatch, .records records =>
    .records records m.clientId m.messageId
  | .eofTransactions, _ | .eofAccounts, _ => .ids m.clientId m.messageId
  | .queryResult, .queryResult queryId records =>
    .queryResult queryId records m.messageId m.deliveryId
  | .queryEnd, .queryEnd queryId messageCount => .queryEnd queryId messageCount m.deliveryId
  | .redirect, .redirect host port => .redirect host port
  | .announce, _ => .announce m.clientId
  | .resultAck, _ => .resultAck m.deliveryId
  | _, _ => .none

/-! ## The round trip of an envelope -/

/-- Arguments of the type whose numbers are in the ranges of the declared fields. -/
inductive Declared : MsgType → Args D → Prop
  | transactionBatch {records : List (Record D)}
      (hrecords : ∀ r ∈ records, Instance Classes.rawTransaction CommonProto.rawTransaction r) :
      Declared .transactionBatch (.records records)
  | accountBatch {records : List (Record D)}
      (hrecords : ∀ r ∈ records, Instance Classes.rawAccount CommonProto.rawAccount r) :
      Declared .accountBatch (.records records)
  | eofTransactions : Declared .eofTransactions .none
  | eofAccounts : Declared .eofAccounts .none
  | queryResult {queryId : ℤ} {data : BatchData} {records : List (Record D)}
      (hdata : queryResultData.lookup queryId = some data)
      (hrecords : ∀ item, Proto.queryResult.results.lookup data.fieldName = some item →
        ∀ r ∈ records, Instance data.cls item r) :
      Declared .queryResult (.queryResult queryId records)
  | queryEnd {queryId messageCount : ℤ} (hquery : 0 ≤ queryId ∧ queryId < 2 ^ 32)
      (hcount : 0 ≤ messageCount ∧ messageCount < 2 ^ 32) :
      Declared .queryEnd (.queryEnd queryId messageCount)
  | redirect (host : String) {port : ℤ} (hport : 0 ≤ port ∧ port < 2 ^ 32) :
      Declared .redirect (.redirect host port)
  | ack : Declared .ack .none
  | announce : Declared .announce .none
  | resultAck : Declared .resultAck .none

/-- A message that can be sent. -/
structure Outgoing.Valid (m : Outgoing D) : Prop where
  declared : Declared m.msgType m.args
  deliveryId : 0 ≤ m.deliveryId ∧ m.deliveryId < 2 ^ 64

/-- The ids in the header of an envelope. -/
structure Headed (m : Outgoing D) (env : Envelope D) : Prop where
  clientId : headerString env "client_id" = some m.clientId
  messageId : headerString env "message_id" = some m.messageId
  deliveryId : headerInt env "delivery_id" = some m.deliveryId

/-- An envelope from which a message is read. -/
structure Written (m : Outgoing D) (env : Envelope D) : Prop where
  type : (env.whichOneof.bind fun name ↦ types.lookup name) = some m.msgType
  read : deserializers m.msgType env = some m.returned

variable {env : Envelope D} {clientId messageId : String} {deliveryId : ℤ}

/-- The header does not depend on the payload. -/
theorem Headed.of_header {m m' : Outgoing D} {env env' : Envelope D} (h : Headed m env)
    (hheader : env'.header = env.header) (hclient : m'.clientId = m.clientId)
    (hmessage : m'.messageId = m.messageId) (hdelivery : m'.deliveryId = m.deliveryId) :
    Headed m' env' where
  clientId := by
    rw [headerString, hheader, hclient]
    exact h.clientId
  messageId := by
    rw [headerString, hheader, hmessage]
    exact h.messageId
  deliveryId := by
    rw [headerInt, hheader, hdelivery]
    exact h.deliveryId

/-- A payload without fields is selected. -/
theorem exists_setInParent (name : String) {desc : BodyDescriptor} (hnew : env.payload = none)
    (hdesc : Proto.envelope.payload.lookup name = some desc) :
    ∃ env', setInParent env name = some env' ∧ env'.header = env.header ∧
      env'.whichOneof = some name :=
  ⟨_, EnvelopeDescriptor.modify_of_none hnew hdesc rfl, rfl, rfl⟩

/-- The end of an input returns the client and the message id. -/
theorem deserializeIds_eq (hclient : headerString env "client_id" = some clientId)
    (hmessage : headerString env "message_id" = some messageId) :
    deserializeIds env = some (.ids clientId messageId) := by
  rw [deserializeIds, hclient, hmessage]
  rfl

/-- A batch of raw lines. -/
theorem exists_serializeBatch (name : String) {cls : RecordClass} {item : Descriptor}
    (hdesc : Proto.envelope.payload.lookup name = some (.batch item))
    (hcoherent : Coherent cls item ["raw"]) {records : List (Record D)}
    (hrecords : ∀ r ∈ records, Instance cls item r) (hnew : env.payload = none) :
    ∃ env', serializeBatch env name records ["raw"] = some env' ∧ env'.header = env.header ∧
      env'.whichOneof = some name ∧ ∀ {clientId messageId : String},
        headerString env' "client_id" = some clientId →
        headerString env' "message_id" = some messageId →
          deserializeBatch env' name cls ["raw"] = some (.records records clientId messageId) := by
  obtain ⟨items, hadd, hread⟩ := readItems_addItems hcoherent hrecords
  let env' : Envelope D := { env with payload := some (name, ⟨Descriptor.new [], items, none⟩) }
  have hmodify : serializeBatch env name records ["raw"] = some env' := by
    refine EnvelopeDescriptor.modify_of_none hnew hdesc ?_
    simp only [BodyDescriptor.batch, BodyDescriptor.new, hadd]
    rfl
  have hbody := EnvelopeDescriptor.body_of_selected env' rfl hdesc
  refine ⟨env', hmodify, rfl, rfl, fun hclient hmessage ↦ ?_⟩
  simp [deserializeBatch, hbody, BodyDescriptor.batch, hread, hclient, hmessage]

/-- An entry of the table fits the class and the declaration. -/
def Fits (data : BatchData) : Prop :=
  match Proto.queryResult.results.lookup data.fieldName with
  | some item => Coherent data.cls item data.fields
  | none => False

instance (data : BatchData) : Decidable (Fits data) := by
  unfold Fits
  split <;> infer_instance

theorem queryResultData_coherent : ∀ entry ∈ queryResultData,
    Fits entry.2 ∧ 0 ≤ entry.1 ∧ entry.1 < 2 ^ 32 := by decide +kernel

theorem exists_serializeQueryResult {queryId : ℤ} {data : BatchData} {records : List (Record D)}
    (hdata : queryResultData.lookup queryId = some data)
    (hrecords : ∀ item, Proto.queryResult.results.lookup data.fieldName = some item →
      ∀ r ∈ records, Instance data.cls item r) (hnew : env.payload = none) :
    ∃ env', serializeQueryResult env queryId records = some env' ∧ env'.header = env.header ∧
      env'.whichOneof = some "query_result" ∧ ∀ {messageId : String} {deliveryId : ℤ},
        headerString env' "message_id" = some messageId →
        headerInt env' "delivery_id" = some deliveryId →
          deserializeQueryResult env'
            = some (.queryResult queryId records messageId deliveryId) := by
  have hmem : (queryId, data) ∈ queryResultData := by
    obtain ⟨before, after, hsplit, -⟩ := List.lookup_eq_some_iff.mp hdata
    simp [hsplit]
  obtain ⟨hfits, hrange⟩ := queryResultData_coherent (queryId, data) hmem
  unfold Fits at hfits
  match hitem : Proto.queryResult.results.lookup data.fieldName with
  | none => simp [hitem] at hfits
  | some item =>
    rw [hitem] at hfits
    obtain ⟨items, hadd, hread⟩ := readItems_addItems hfits (hrecords item hitem)
    have hallows : ∀ p ∈ [("query_id", Scalar.int queryId)],
        Proto.queryResult.fields.Allows p.1 (p.2 : Scalar D) :=
      List.forall_mem_singleton.mpr ⟨_, rfl, hrange⟩
    obtain ⟨fields, hset, hvalues, -⟩ := Descriptor.exists_setattrs hallows
      (List.nodup_singleton _) Proto.queryResult.fields.new
    have hdesc : Proto.envelope.payload.lookup "query_result" = some Proto.queryResult := rfl
    let env' : Envelope D :=
      { env with payload := some ("query_result", ⟨fields, [], some (data.fieldName, items)⟩) }
    have hmodify : serializeQueryResult env queryId records = some env' := by
      rw [serializeQueryResult, hdata, Option.bind_some]
      refine EnvelopeDescriptor.modify_of_none hnew hdesc ?_
      simp only [BodyDescriptor.new, hset, hitem, hadd, Option.bind_some, Option.map_some]
      rfl
    have hbody := EnvelopeDescriptor.body_of_selected env' rfl hdesc
    have hquery : getInt env' "query_result" "query_id" = some queryId := by
      rw [getInt, EnvelopeDescriptor.getField, hbody, Option.bind_some,
        Descriptor.getattr_of_allows (hallows _ List.mem_cons_self) (hvalues _ List.mem_cons_self)]
      rfl
    refine ⟨env', hmodify, rfl, rfl, fun hmessage hdelivery ↦ ?_⟩
    simp [deserializeQueryResult, hbody, hquery, hdata, hitem, resultItems, hread, hmessage,
      hdelivery]

theorem exists_serializeQueryEnd {queryId messageCount : ℤ}
    (hquery : 0 ≤ queryId ∧ queryId < 2 ^ 32)
    (hcount : 0 ≤ messageCount ∧ messageCount < 2 ^ 32) (hnew : env.payload = none) :
    ∃ env', serializeQueryEnd env queryId messageCount = some env' ∧ env'.header = env.header ∧
      env'.whichOneof = some "query_end" ∧ ∀ {deliveryId : ℤ},
        headerInt env' "delivery_id" = some deliveryId →
          deserializeQueryEnd env' = some (.queryEnd queryId messageCount deliveryId) := by
  have hdesc : Proto.envelope.payload.lookup "query_end" = some (.scalars Proto.queryEnd) := rfl
  have hallows : ∀ p ∈ [("query_id", .int queryId), ("message_count", .int messageCount)],
      (BodyDescriptor.scalars Proto.queryEnd).fields.Allows p.1 (p.2 : Scalar D) := by
    rw [List.forall_mem_cons, List.forall_mem_singleton]
    exact ⟨⟨_, rfl, hquery⟩, ⟨_, rfl, hcount⟩⟩
  obtain ⟨env', hset, hheader, hwhich, hvalues, -⟩ :=
    EnvelopeDescriptor.exists_setFields hnew hdesc _ hallows (by simp)
  rw [List.forall_mem_cons, List.forall_mem_singleton] at hvalues
  refine ⟨env', hset, hheader, hwhich, fun hdelivery ↦ ?_⟩
  simp [deserializeQueryEnd, getInt, hvalues.1, hvalues.2, Scalar.toInt?, hdelivery]

theorem exists_serializeRedirect (host : String) {port : ℤ} (hport : 0 ≤ port ∧ port < 2 ^ 32)
    (hnew : env.payload = none) :
    ∃ env', serializeRedirect env host port = some env' ∧ env'.whichOneof = some "redirect" ∧
      deserializeRedirect env' = some (.redirect host port) := by
  have hdesc : Proto.envelope.payload.lookup "redirect" = some (.scalars Proto.redirect) := rfl
  have hallows : ∀ p ∈ [("host", .string host), ("port", .int port)],
      (BodyDescriptor.scalars Proto.redirect).fields.Allows p.1 (p.2 : Scalar D) := by
    rw [List.forall_mem_cons, List.forall_mem_singleton]
    exact ⟨⟨_, rfl, trivial⟩, ⟨_, rfl, hport⟩⟩
  obtain ⟨env', hset, -, hwhich, hvalues, -⟩ :=
    EnvelopeDescriptor.exists_setFields hnew hdesc _ hallows (by simp)
  rw [List.forall_mem_cons, List.forall_mem_singleton] at hvalues
  refine ⟨env', hset, hwhich, ?_⟩
  simp [deserializeRedirect, getString, getInt, hvalues.1, hvalues.2, Scalar.toString?,
    Scalar.toInt?]

/-- An envelope with its ids. -/
theorem exists_new (m : Outgoing D) (hdelivery : 0 ≤ m.deliveryId ∧ m.deliveryId < 2 ^ 64) :
    ∃ env : Envelope D, Proto.envelope.new [("client_id", .string m.clientId),
        ("message_id", .string m.messageId), ("delivery_id", .int m.deliveryId)] = some env ∧
      env.payload = none ∧ Headed m env := by
  let values : List (String × Scalar D) := [("client_id", .string m.clientId),
    ("message_id", .string m.messageId), ("delivery_id", .int m.deliveryId)]
  have hallows : ∀ p ∈ values, Proto.envelope.header.Allows p.1 p.2 := by
    rw [List.forall_mem_cons, List.forall_mem_cons, List.forall_mem_singleton]
    exact ⟨⟨_, rfl, trivial⟩, ⟨_, rfl, trivial⟩, ⟨_, rfl, hdelivery⟩⟩
  have hnodup : (values.map Prod.fst).Nodup := by simp [values]
  obtain ⟨header, hset, -, -⟩ := Descriptor.exists_setattrs hallows hnodup
    (Proto.envelope.header.new : Flat D)
  have hvalues := Descriptor.getattr_of_setattrs hallows hnodup hset
  rw [List.forall_mem_cons, List.forall_mem_cons, List.forall_mem_singleton] at hvalues
  refine ⟨⟨header, none⟩, ?_, rfl, ?_, ?_, ?_⟩
  · rw [EnvelopeDescriptor.new, hset]
    rfl
  · rw [headerString, hvalues.1]
    rfl
  · rw [headerString, hvalues.2.1]
    rfl
  · rw [headerInt, hvalues.2.2]
    rfl

/-- What is written of each declared message. -/
theorem exists_serialize {t : MsgType} {args : Args D} (h : Declared t args)
    (hheaded : Headed ⟨t, args, clientId, messageId, deliveryId⟩ env) (hnew : env.payload = none) :
    ∃ env', serializers t env args = some env' ∧
      Written ⟨t, args, clientId, messageId, deliveryId⟩ env' := by
  have hkept {env' : Envelope D} (hheader : env'.header = env.header) :
      Headed ⟨t, args, clientId, messageId, deliveryId⟩ env' :=
    hheaded.of_header hheader rfl rfl rfl
  match h with
  | .transactionBatch hrecords =>
    obtain ⟨env', hserialize, hheader, hwhich, hread⟩ :=
      exists_serializeBatch "transaction_batch" rfl (by decide) hrecords hnew
    exact ⟨env', hserialize, by rw [hwhich]; rfl,
      hread (hkept hheader).clientId (hkept hheader).messageId⟩
  | .accountBatch hrecords =>
    obtain ⟨env', hserialize, hheader, hwhich, hread⟩ :=
      exists_serializeBatch "account_batch" rfl (by decide) hrecords hnew
    exact ⟨env', hserialize, by rw [hwhich]; rfl,
      hread (hkept hheader).clientId (hkept hheader).messageId⟩
  | .eofTransactions =>
    obtain ⟨env', hset, hheader, hwhich⟩ := exists_setInParent "eof_transactions" hnew rfl
    exact ⟨env', hset, by rw [hwhich]; rfl,
      deserializeIds_eq (hkept hheader).clientId (hkept hheader).messageId⟩
  | .eofAccounts =>
    obtain ⟨env', hset, hheader, hwhich⟩ := exists_setInParent "eof_accounts" hnew rfl
    exact ⟨env', hset, by rw [hwhich]; rfl,
      deserializeIds_eq (hkept hheader).clientId (hkept hheader).messageId⟩
  | .queryResult hdata hrecords =>
    obtain ⟨env', hserialize, hheader, hwhich, hread⟩ :=
      exists_serializeQueryResult hdata hrecords hnew
    exact ⟨env', hserialize, by rw [hwhich]; rfl,
      hread (hkept hheader).messageId (hkept hheader).deliveryId⟩
  | .queryEnd hquery hcount =>
    obtain ⟨env', hserialize, hheader, hwhich, hread⟩ :=
      exists_serializeQueryEnd hquery hcount hnew
    exact ⟨env', hserialize, by rw [hwhich]; rfl, hread (hkept hheader).deliveryId⟩
  | .redirect host hport =>
    obtain ⟨env', hserialize, hwhich, hread⟩ := exists_serializeRedirect host hport hnew
    exact ⟨env', hserialize, by rw [hwhich]; rfl, hread⟩
  | .ack =>
    obtain ⟨env', hset, -, hwhich⟩ := exists_setInParent "ack" hnew rfl
    exact ⟨env', hset, by rw [hwhich]; rfl, rfl⟩
  | .announce =>
    obtain ⟨env', hset, hheader, hwhich⟩ := exists_setInParent "announce" hnew rfl
    refine ⟨env', hset, by rw [hwhich]; rfl, ?_⟩
    change (headerString env' "client_id").map Received.announce = _
    rw [(hkept hheader).clientId]
    rfl
  | .resultAck =>
    obtain ⟨env', hset, hheader, hwhich⟩ := exists_setInParent "result_ack" hnew rfl
    refine ⟨env', hset, by rw [hwhich]; rfl, ?_⟩
    change (headerInt env' "delivery_id").map Received.resultAck = _
    rw [(hkept hheader).deliveryId]
    rfl

/-- **What was put in an envelope is found there.** -/
theorem ofEnvelope_toEnvelope {m : Outgoing D} (h : m.Valid) :
    ∃ env, toEnvelope m = some env ∧ ofEnvelope env = some (m.msgType, m.returned) := by
  obtain ⟨env, hnewEnv, hnew, hheaded⟩ := exists_new m h.deliveryId
  obtain ⟨env', hserialize, hwritten⟩ := exists_serialize h.declared hheaded hnew
  refine ⟨env', ?_, ?_⟩
  · rw [toEnvelope, hnewEnv, Option.bind_some, hserialize]
  · obtain ⟨name, hname, htype⟩ := Option.bind_eq_some_iff.mp hwritten.type
    have hread : deserializers m.msgType env' = some m.returned := hwritten.read
    simp [ofEnvelope, hname, htype, hread]

/-! ## The round trip of a stream -/

variable {codec : Codec (Envelope D) (List UInt8)}

/-- The codec is lossless on the envelope of a message, and its bytes can be framed. -/
structure Encodes (codec : Codec (Envelope D) (List UInt8)) (m : Outgoing D) : Prop where
  lossless : ∀ env, toEnvelope m = some env → codec.Lossless env
  size : ∀ env, toEnvelope m = some env → (codec.serializeToString env).length < 2 ^ 32

/-- The frame of a message. -/
theorem exists_sendMsg {m : Outgoing D} (h : m.Valid) (hencodes : Encodes codec m) :
    ∃ env bytes, ofEnvelope env = some (m.msgType, m.returned) ∧ codec.Lossless env ∧
      (codec.serializeToString env).length < 2 ^ 32 ∧
      frame (codec.serializeToString env) = some bytes ∧ sendMsg codec m = some bytes := by
  obtain ⟨env, htoEnvelope, hofEnvelope⟩ := ofEnvelope_toEnvelope h
  have hsize := hencodes.size env htoEnvelope
  obtain ⟨size, hframe, -, -⟩ := exists_frame hsize
  refine ⟨env, _, hofEnvelope, hencodes.lossless env htoEnvelope, hsize, hframe, ?_⟩
  rw [sendMsg, htoEnvelope, Option.bind_some, hframe]

/-- **One message is received as it was sent.** -/
theorem recvMsg_sendMsg {m : Outgoing D} (h : m.Valid) (hencodes : Encodes codec m)
    {bytes rest : List UInt8} (hsend : sendMsg codec m = some bytes) {s : Socket}
    (hincoming : s.incoming = bytes ++ rest) :
    ∃ s', recvMsg codec s = .ok ((m.msgType, m.returned), s') ∧ s'.incoming = rest := by
  obtain ⟨env, bytes', hofEnvelope, hlossless, hsize, hframe, hsend'⟩ := exists_sendMsg h hencodes
  obtain rfl := Option.some.inj (hsend.symm.trans hsend')
  obtain ⟨s', hok, hrest⟩ := recvFrame_frame hframe hsize hincoming
  refine ⟨s', ?_, hrest⟩
  rw [recvMsg, hok]
  change (match (codec.parseFromString (codec.serializeToString env)).bind ofEnvelope with
    | some message => Except.ok (message, s')
    | none => .error RecvError.malformed) = _
  rw [hlossless, Option.bind_some, hofEnvelope]

/-- **A message that is cut off is not returned.** -/
theorem recvMsg_torn {m : Outgoing D} (h : m.Valid) (hencodes : Encodes codec m)
    {bytes : List UInt8} (hsend : sendMsg codec m = some bytes) {s : Socket}
    (hbegins : s.incoming <+: bytes) (hne : s.incoming ≠ bytes) :
    ∃ received expected, recvMsg codec s = .error (.incompleteRead received expected) := by
  obtain ⟨env, bytes', -, -, hsize, hframe, hsend'⟩ := exists_sendMsg h hencodes
  obtain rfl := Option.some.inj (hsend.symm.trans hsend')
  obtain ⟨received, expected, herror⟩ := recvFrame_torn hframe hsize hbegins hne
  exact ⟨received, expected, by rw [recvMsg, herror]; rfl⟩

theorem sendMsgs_cons (m : Outgoing D) (messages : List (Outgoing D)) :
    sendMsgs codec (m :: messages)
      = (sendMsg codec m).bind fun head ↦
          (sendMsgs codec messages).map fun tail ↦ head ++ tail := by
  rw [sendMsgs, sendMsgs, List.mapM_cons]
  match sendMsg codec m, messages.mapM (sendMsg codec) with
  | none, _ | some _, none | some _, some _ => rfl

/-- Some messages, and what is behind them on the stream. -/
theorem recvMsgs_sendMsgs {messages : List (Outgoing D)} (hvalid : ∀ m ∈ messages, m.Valid)
    (hencodes : ∀ m ∈ messages, Encodes codec m) :
    ∃ bytes, sendMsgs codec messages = some bytes ∧ ∀ (s : Socket) (rest : List UInt8),
      s.incoming = bytes ++ rest → ∃ s', recvMsgs codec messages.length s
        = (messages.map fun m ↦ (m.msgType, m.returned), .ok s') ∧ s'.incoming = rest := by
  induction messages with
  | nil => exact ⟨[], rfl, fun s rest hs ↦ ⟨s, rfl, hs⟩⟩
  | cons m messages ih =>
    obtain ⟨hm, hvalid⟩ := List.forall_mem_cons.mp hvalid
    obtain ⟨hmEncodes, hencodes⟩ := List.forall_mem_cons.mp hencodes
    obtain ⟨bytes, hsend, hrecv⟩ := ih hvalid hencodes
    obtain ⟨-, head, -, -, -, -, hsendHead⟩ := exists_sendMsg hm hmEncodes
    refine ⟨head ++ bytes, ?_, fun s rest hs ↦ ?_⟩
    · rw [sendMsgs_cons, hsendHead, hsend]
      rfl
    · rw [List.append_assoc] at hs
      obtain ⟨s₁, hok, hincoming⟩ := recvMsg_sendMsg hm hmEncodes hsendHead hs
      obtain ⟨s', htail, hrest⟩ := hrecv s₁ rest hincoming
      refine ⟨s', ?_, hrest⟩
      rw [List.length_cons, recvMsgs, hok]
      simp only [htail, List.map_cons]

/-- **Messages are received as they were sent, however the stream is split.** Some messages are
sent, and then the beginning of another one, or nothing, before the connection is closed. As many
calls of `recv_msg` as there are messages return them in order; the next one raises
`IncompleteReadError`. -/
theorem external_framing {messages : List (Outgoing D)} {next : Outgoing D} {part : List UInt8}
    (hallValid : ∀ m ∈ next :: messages, m.Valid)
    (hallEncode : ∀ m ∈ next :: messages, Encodes codec m)
    (hpart : ∀ bytes, sendMsg codec next = some bytes → part <+: bytes ∧ part ≠ bytes)
    (splits : ℕ → ℕ) :
    ∃ bytes, sendMsgs codec messages = some bytes ∧
      ∃ s, recvMsgs codec messages.length ⟨bytes ++ part, splits⟩
          = (messages.map fun m ↦ (m.msgType, m.returned), .ok s) ∧
        s.incoming = part ∧
        ∃ received expected, recvMsg codec s = .error (.incompleteRead received expected) := by
  obtain ⟨hnextValid, hvalid⟩ := List.forall_mem_cons.mp hallValid
  obtain ⟨hnextEncodes, hencodes⟩ := List.forall_mem_cons.mp hallEncode
  obtain ⟨-, nextBytes, -, -, -, -, hnextSend⟩ := exists_sendMsg hnextValid hnextEncodes
  obtain ⟨hbegins, hne⟩ := hpart nextBytes hnextSend
  obtain ⟨bytes, hsend, hrecv⟩ := recvMsgs_sendMsgs hvalid hencodes
  obtain ⟨s, hrecv, hincoming⟩ := hrecv ⟨bytes ++ part, splits⟩ part rfl
  exact ⟨bytes, hsend, s, hrecv, hincoming, recvMsg_torn hnextValid hnextEncodes hnextSend
    (hincoming.symm ▸ hbegins) (hincoming.symm ▸ hne)⟩

/-! ## A stream -/

/-- Two lines of an upload. -/
def upload : Outgoing ℤ where
  msgType := .transactionBatch
  args := .records [[("raw", .string "1,A")], [("raw", .string "2,B")]]
  clientId := "c"
  messageId := "c:0"
  deliveryId := 0

/-- One result of the second query. -/
def result : Outgoing ℤ where
  msgType := .queryResult
  args := .queryResult 2
    [[("bank_name", .string "Uno"), ("from_account", .string "A"), ("amount_paid", .double 1)]]
  clientId := ""
  messageId := "c:2:0"
  deliveryId := 1

def resultEnd : Outgoing ℤ := ⟨.queryEnd, .queryEnd 2 1, "", "", 2⟩

def announcement : Outgoing ℤ := ⟨.announce, .none, "c", "", 0⟩

def announcementBytes : List UInt8 := [0x4a, 0x00, 0x52, 0x01, 0x63]

/-- These messages as bytes, by the names of their payloads. -/
def wire : List (String × Outgoing ℤ × List UInt8) :=
  [("transaction_batch", upload,
      [0x0a, 0x0e, 0x0a, 0x05, 0x0a, 0x03, 0x31, 0x2c, 0x41, 0x0a, 0x05, 0x0a, 0x03, 0x32, 0x2c,
        0x42, 0x52, 0x01, 0x63, 0x5a, 0x03, 0x63, 0x3a, 0x30]),
    ("query_result", result,
      [0x2a, 0x17, 0x08, 0x02, 0x1a, 0x13, 0x0a, 0x11, 0x0a, 0x03, 0x55, 0x6e, 0x6f, 0x12, 0x01,
        0x41, 0x19, 0x00, 0x00, 0x00, 0x00, 0x00, 0x00, 0xf0, 0x3f, 0x5a, 0x05, 0x63, 0x3a, 0x32,
        0x3a, 0x30, 0x60, 0x01]),
    ("query_end", resultEnd, [0x32, 0x04, 0x08, 0x02, 0x10, 0x01, 0x60, 0x02]),
    ("announce", announcement, announcementBytes)]

def wireCodec : Codec (Envelope ℤ) (List UInt8) where
  serializeToString env :=
    ((env.whichOneof.bind fun name ↦ wire.lookup name).map Prod.snd).getD []
  parseFromString data := (wire.find? fun p ↦ p.2.2 = data).bind fun p ↦ toEnvelope p.2.1

theorem valid_wire : ∀ p ∈ wire, p.2.1.Valid := by
  simp only [wire, List.forall_mem_cons]
  refine ⟨⟨.transactionBatch (by decide), by decide⟩, ⟨.queryResult rfl ?_, by decide⟩,
    ⟨.queryEnd (by decide) (by decide), by decide⟩, ⟨.announce, by decide⟩, List.forall_mem_nil _⟩
  intro item hitem
  obtain rfl := Option.some.inj hitem
  decide

/-- The bytes of a message of the table are its own. -/
theorem wireCodec_eq : ∀ p ∈ wire, ∀ env, toEnvelope p.2.1 = some env →
    wireCodec.serializeToString env = p.2.2 ∧ wireCodec.parseFromString p.2.2 = some env := by
  have hwhich : ∀ p ∈ wire, (toEnvelope p.2.1).bind Envelope.whichOneof = some p.1 := by
    decide +kernel
  have hname : ∀ p ∈ wire, wire.lookup p.1 = some p.2 := by decide
  have hfind : ∀ p ∈ wire, wire.find? (fun q ↦ q.2.2 = p.2.2) = some p := by decide
  intro p hp env henv
  have hwhich := hwhich p hp
  rw [henv, Option.bind_some] at hwhich
  constructor
  · simp only [wireCodec, hwhich, Option.bind_some, hname p hp, Option.map_some, Option.getD_some]
  · simp only [wireCodec, hfind p hp, Option.bind_some, henv]

theorem encodes_wire : ∀ p ∈ wire, Encodes wireCodec p.2.1 := by
  have hsize : ∀ p ∈ wire, p.2.2.length < 2 ^ 32 := by decide
  intro p hp
  constructor
  · intro env henv
    rw [Codec.Lossless, (wireCodec_eq p hp env henv).1]
    exact (wireCodec_eq p hp env henv).2
  · intro env henv
    rw [(wireCodec_eq p hp env henv).1]
    exact hsize p hp

/-- An upload, a result and the end of a query arrive three bytes at a time, and then the beginning
of an announcement. -/
theorem external_framing_torn :
    ∃ bytes, sendMsgs wireCodec [upload, result, resultEnd] = some bytes ∧
      ∃ s, recvMsgs wireCodec 3 ⟨bytes ++ [0, 0, 0, 5, 0x4a, 0], fun _ ↦ 3⟩
          = ([upload, result, resultEnd].map fun m ↦ (m.msgType, m.returned), .ok s) ∧
        s.incoming = [0, 0, 0, 5, 0x4a, 0] ∧
        ∃ received expected, recvMsg wireCodec s = .error (.incompleteRead received expected) := by
  have htable : ∀ m ∈ [announcement, upload, result, resultEnd], ∃ p ∈ wire, p.2.1 = m := by decide
  refine @external_framing ℤ _ wireCodec [upload, result, resultEnd] announcement _
    (fun m hm ↦ ?_) (fun m hm ↦ ?_) (fun bytes hsend ↦ ?_) fun _ ↦ 3
  · obtain ⟨p, hp, rfl⟩ := htable m hm
    exact valid_wire p hp
  · obtain ⟨p, hp, rfl⟩ := htable m hm
    exact encodes_wire p hp
  · obtain ⟨env, henv, hframe⟩ := Option.bind_eq_some_iff.mp hsend
    have hmem : ("announce", announcement, announcementBytes) ∈ wire := by decide
    rw [(wireCodec_eq _ hmem env henv).1] at hframe
    have hbytes : frame announcementBytes = some [0, 0, 0, 5, 0x4a, 0x00, 0x52, 0x01, 0x63] := by
      decide
    obtain rfl := Option.some.inj (hbytes.symm.trans hframe)
    exact ⟨by decide, by decide⟩

end External

end MoneyLaundering
