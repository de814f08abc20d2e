import MoneyLaundering.Messages.Ids

/-!
# Records and messages

The records that travel between the workers (`common/models`), over an arbitrary type `A` of
amounts, and the messages that carry them. A field that some worker compares with `None` is an
`Option`.

A batch is a list, but nothing downstream depends on the order inside it, nor on the order in which
one node publishes a set of batches. `SameMessages` is equality up to both.
-/

namespace MoneyLaundering

/-- The token that circulates on the control channel of a ring. -/
structure RingEOF where
  expectedCount : ℤ
  totalProcessedCount : ℤ
  coordinatorId : Option NodeId
  totalSentCount : Option ℤ
  deriving DecidableEq, Repr

/-- A `RING_EOF` message. -/
structure Token where
  messageId : MessageId
  ring : RingEOF
  deriving DecidableEq, Repr

/-- A bank and an account number. -/
abbrev Account := String × String

structure Transaction (A : Type) where
  /-- Minutes; only the order is used. -/
  timestamp : Option ℕ
  fromBank : Option String
  fromAccount : Option String
  toBank : Option String
  toAccount : Option String
  amount : Option A
  currency : Option String
  paymentFormat : Option String

structure AccountEdge where
  bank : String
  account : String
  otherBank : String
  otherAccount : String
  isSender : Bool
  deriving DecidableEq, Repr

structure Path where
  fromBank : String
  fromAccount : String
  midBank : String
  midAccount : String
  toBank : String
  toAccount : String
  deriving DecidableEq, Repr

structure Q2Result (A : Type) where
  bankName : String
  fromAccount : String
  amountPaid : A
  deriving DecidableEq

structure Q3Result (A : Type) where
  fromBank : String
  fromAccount : String
  amountPaid : A
  deriving DecidableEq

structure Bank where
  bankId : String
  name : String
  deriving DecidableEq, Repr

structure Q4Result where
  bank : String
  account : String
  deriving DecidableEq, Repr

structure BankMaxPartial (A : Type) where
  fromBank : String
  fromAccount : String
  amount : A
  deriving DecidableEq

structure PaymentFormatPartial (A : Type) where
  paymentFormat : String
  totalAmount : A
  count : ℕ
  deriving DecidableEq

structure PaymentFormatAverage (A : Type) where
  paymentFormat : String
  averageAmount : A
  deriving DecidableEq

structure TransactionAmount (A : Type) where
  amount : A

structure Count where
  count : ℤ
  deriving DecidableEq, Repr

structure Q5Result where
  count : ℤ
  deriving DecidableEq, Repr

/-- The message types of the data messages. -/
inductive MsgType
  | q2ResultBatch
  | q3ResultBatch
  | q4ResultBatch
  | q5ResultBatch
  | count
  | bankMaxPartialBatch
  | paymentFormatPartialBatch
  | paymentFormatAverageBatch
  | accountEdgeBatch
  | pathBatch
  deriving DecidableEq, Repr

/-- A published data message. A `COUNT` message is a batch of one. -/
structure Message (α : Type) where
  msgType : MsgType
  routingKey : Option String
  messageId : MessageId
  payload : List α
  deriving DecidableEq

namespace Message

variable {α : Type}

/-- A message without the order inside its batch. -/
def unordered (m : Message α) : MsgType × Option String × MessageId × Multiset α :=
  (m.msgType, m.routingKey, m.messageId, (m.payload : Multiset α))

end Message

/-- The same messages, up to their order and the order inside each. -/
def SameMessages {α : Type} (l₁ l₂ : List (Message α)) : Prop :=
  (l₁.map Message.unordered).Perm (l₂.map Message.unordered)

theorem SameMessages.refl {α : Type} (l : List (Message α)) : SameMessages l l := List.Perm.refl _

theorem SameMessages.length_eq {α : Type} {l₁ l₂ : List (Message α)} (h : SameMessages l₁ l₂) :
    l₁.length = l₂.length := by simpa using List.Perm.length_eq h

end MoneyLaundering
