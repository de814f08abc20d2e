import MoneyLaundering.Protocol.Envelope

/-!
# The records of both protocols

The dataclasses of `common/models` whose fields are all scalars, by the names of their fields, and
the declarations of `common_protobuf.proto`, which both protocols use.
-/

namespace MoneyLaundering

open Protobuf

namespace Classes

def rawTransaction : RecordClass := ["raw"]

def rawAccount : RecordClass := ["raw"]

def bank : RecordClass := ["bank_id", "name"]

def transactionForCurrencyConversion : RecordClass := ["timestamp", "amount", "currency"]

def transactionAmount : RecordClass := ["amount"]

def bankMaxPartial : RecordClass := ["from_bank", "from_account", "amount"]

def paymentFormatPartial : RecordClass := ["payment_format", "total_amount", "count"]

def paymentFormatAverage : RecordClass := ["payment_format", "average_amount"]

def accountEdge : RecordClass := ["bank", "account", "other_bank", "other_account", "is_sender"]

def path : RecordClass :=
  ["from_bank", "from_account", "mid_bank", "mid_account", "to_bank", "to_account"]

def q1Result : RecordClass :=
  ["from_bank", "from_account", "to_bank", "to_account", "amount_paid"]

def q2Result : RecordClass := ["bank_name", "from_account", "amount_paid"]

def q3Result : RecordClass := ["from_bank", "from_account", "amount_paid"]

def q4Result : RecordClass := ["bank", "account"]

def q5Result : RecordClass := ["count"]

end Classes

namespace CommonProto

def rawTransaction : Descriptor := [plain "raw" .string]

def rawAccount : Descriptor := [plain "raw" .string]

def q1Result : Descriptor :=
  [plain "from_bank" .string, plain "from_account" .string, plain "to_bank" .string,
    plain "to_account" .string, plain "amount_paid" .double]

def q2Result : Descriptor :=
  [plain "bank_name" .string, plain "from_account" .string, plain "amount_paid" .double]

def q3Result : Descriptor :=
  [plain "from_bank" .string, plain "from_account" .string, plain "amount_paid" .double]

def q4Result : Descriptor := [plain "bank" .string, plain "account" .string]

def q5Result : Descriptor := [plain "count" .uint32]

end CommonProto

/-- An entry of `BATCH_DATA` or of `QUERY_RESULT_DATA`. -/
structure BatchData where
  cls : RecordClass
  fieldName : String
  fields : List String
  deriving DecidableEq, Repr

end MoneyLaundering
