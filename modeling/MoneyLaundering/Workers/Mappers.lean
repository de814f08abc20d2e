import MoneyLaundering.Worker.Stateless

/-!
# The stateless workers

Raw lines are parsed into transactions and banks (`workers/transactions_field_mapper`,
`workers/accounts_field_mapper`), and transactions are filtered by date, payment format and amount
and converted to dollars (`workers/date_filter`, `workers/payment_format_filter`,
`workers/amount_filter`, `workers/currency_mapper`).

Each worker is written as its source is: the records of a batch are computed, and then one message
is sent after the other. What Python's library does with texts, dates and rounding is left open, as
a `Library`; nothing below depends on it.
-/

namespace MoneyLaundering

/-- The functions of Python's library that the workers call. Times are in minutes. -/
structure Library (A : Type) where
  lower : String → String
  /-- Reads a text by a format; nothing when it raises. -/
  strptime : String → String → Option ℕ
  strftime : String → ℕ → String
  /-- Nothing when it raises. -/
  float : String → Option A
  /-- Rounds to a number of decimal places. -/
  round : A → ℕ → A

/-- `raw.split(",")` -/
def fieldsOf (raw : String) : List String := (raw.toList.splitOn ',').map String.ofList

variable {A : Type} (lib : Library A) (hash : String → ℕ)

/-! ## TransactionsFieldMapper -/

namespace TransactionsFieldMapper

/-- The keys and exchanges are different from one another, as `compose_generator` sets them. -/
structure Config where
  outputExchange : String
  outputRoutingKeyUsd : String
  outputRoutingKeyAll : String
  outputRoutingKeyEof : String
  usdCurrency : String
  bankMaxExchange : String
  bankMaxNodeCount : ℕ
  exchange_ne : outputExchange ≠ bankMaxExchange
  usd_ne_all : outputRoutingKeyUsd ≠ outputRoutingKeyAll
  eof_ne_usd : outputRoutingKeyEof ≠ outputRoutingKeyUsd
  eof_ne_all : outputRoutingKeyEof ≠ outputRoutingKeyAll
  nodeCount_pos : 0 < bankMaxNodeCount

def bankMaxEofShard : String := "0"

def timestampFormat : String := "%Y/%m/%d %H:%M"

/-- `_parse` -/
def parse (raw : String) : Option (Transaction A) := do
  let fields := fieldsOf raw
  let timestamp ← fields[0]?.bind (lib.strptime timestampFormat)
  let fromBank ← fields[1]?
  let fromAccount ← fields[2]?
  let toBank ← fields[3]?
  let toAccount ← fields[4]?
  let amount ← fields[7]?.bind lib.float
  let currency ← fields[8]?
  let paymentFormat ← fields[9]?
  some
    { timestamp := some timestamp
      fromBank := some fromBank
      fromAccount := some fromAccount
      toBank := some toBank
      toAccount := some toAccount
      amount := some amount
      currency := some currency
      paymentFormat := some paymentFormat }

def isUsd (cfg : Config) (tx : Transaction A) : Bool :=
  tx.currency.map lib.lower = some (lib.lower cfg.usdCurrency)

/-- The USD transactions and all transactions; the former once more for the bank maxima. -/
def handleDataMessage (cfg : Config) (currentMessageId : MessageId) (client : ClientId)
    (payload : List String) : Option (List (Outgoing A)) := do
  let transactions ← payload.mapM (parse lib)
  let usdTransactions := transactions.filter (isUsd lib cfg)
  sendAll currentMessageId client
    [(⟨.exchange cfg.outputExchange, some cfg.outputRoutingKeyUsd⟩,
      .transactionBatch usdTransactions),
      (⟨.exchange cfg.outputExchange, some cfg.outputRoutingKeyAll⟩,
        .transactionBatch transactions),
      (⟨.exchange cfg.bankMaxExchange,
          some (toString (shardOf hash currentMessageId cfg.bankMaxNodeCount))⟩,
        .transactionBatch usdTransactions)]

def sendFinalEof (cfg : Config) (client : ClientId) (eof : EOF) : List (Outgoing A) :=
  [⟨⟨.exchange cfg.outputExchange, some cfg.outputRoutingKeyEof⟩, client,
    finalEofId client eof none,
      .eof eof⟩,
    ⟨⟨.exchange cfg.bankMaxExchange, some bankMaxEofShard⟩, client, finalEofId client eof none,
      .eof eof⟩]

def worker (cfg : Config) : StatelessWorker A where
  Item := String
  handleDataMessage := handleDataMessage lib hash cfg
  sendFinalEof := sendFinalEof cfg

/-- A line of the transactions file that can be parsed. -/
structure WellFormed (raw : String) : Prop where
  fields : 10 ≤ (fieldsOf raw).length
  timestamp : ∀ text, (fieldsOf raw)[0]? = some text → lib.strptime timestampFormat text ≠ none
  amount : ∀ text, (fieldsOf raw)[7]? = some text → lib.float text ≠ none

/-- The groups of `AmountFilter`, `DateFilter` and `BankMaxAggregator`. -/
def routes (cfg : Config) : List Route :=
  [.bound (.exchange cfg.outputExchange) cfg.outputRoutingKeyUsd cfg.outputRoutingKeyEof,
    .bound (.exchange cfg.outputExchange) cfg.outputRoutingKeyAll cfg.outputRoutingKeyEof,
    .sharded hash (.exchange cfg.bankMaxExchange) cfg.bankMaxNodeCount]

end TransactionsFieldMapper

/-! ## AccountsFieldMapper -/

/-- `AccountsFieldMapper._parse`; nothing when it raises. -/
def parseAccount (raw : String) : Option Bank :=
  match raw.toList.splitOn ',' with
  | name :: bankId :: _ => some ⟨String.ofList bankId, String.ofList name⟩
  | _ => none

example : parseAccount "First Bank,012,80A1,80B2" = some ⟨"012", "First Bank"⟩ := by decide

/-- The bank mapper that is sent the name of a bank. -/
def nameNode (outputNodeCount : ℕ) (bank : Bank) : ℕ := shardOf hash bank.bankId outputNodeCount

/-- The banks of a batch that `AccountsFieldMapper` sends to one bank mapper. -/
def shardedBanks (outputNodeCount : ℕ) (banks : List Bank) (node : ℕ) : List Bank :=
  banks.filter fun bank ↦ nameNode hash outputNodeCount bank = node

namespace AccountsFieldMapper

/-- The routing keys of the ends of streams are the ids of the bank mappers, as `compose_generator`
sets them. -/
structure Config where
  outputExchange : String
  outputRoutingKeys : List String
  outputNodeCount : ℕ
  outputNodePrefix : String
  routingKeys_eq : outputRoutingKeys = (List.range outputNodeCount).map toString
  nodeCount_pos : 0 < outputNodeCount

/-- `_output_prefix_routing_key` -/
def outputPrefixRoutingKey (cfg : Config) (routingKey : String) : String :=
  cfg.outputNodePrefix ++ routingKey

/-- One batch for every bank mapper, also if it has no bank in it. -/
def handleDataMessage (cfg : Config) (currentMessageId : MessageId) (client : ClientId)
    (payload : List String) : Option (List (Outgoing A)) := do
  let banks ← payload.mapM parseAccount
  sendAll currentMessageId client <| (List.range cfg.outputNodeCount).map fun node ↦
    (⟨.exchange cfg.outputExchange, some (outputPrefixRoutingKey cfg (toString node))⟩,
      .bankBatch (shardedBanks hash cfg.outputNodeCount banks node))

def sendFinalEof (cfg : Config) (client : ClientId) (eof : EOF) : List (Outgoing A) :=
  cfg.outputRoutingKeys.map fun key ↦
    ⟨⟨.exchange cfg.outputExchange, some (outputPrefixRoutingKey cfg key)⟩, client,
      finalEofId client eof none, .eof eof⟩

def worker (A : Type) (cfg : Config) : StatelessWorker A where
  Item := String
  handleDataMessage := handleDataMessage hash cfg
  sendFinalEof := sendFinalEof cfg

/-- A line of the accounts file that can be parsed. -/
def WellFormed (raw : String) : Prop := 2 ≤ (fieldsOf raw).length

/-- The bank mappers, each a route of its own. -/
def routes (cfg : Config) : List Route :=
  (List.range cfg.outputNodeCount).map fun node ↦
    .single (.exchange cfg.outputExchange) (outputPrefixRoutingKey cfg (toString node))

end AccountsFieldMapper

/-! ## DateFilter -/

namespace DateFilter

/-- The exchanges are different from one another, as `compose_generator` sets them. -/
structure Config where
  outputQueue : String
  dateFrom1 : ℕ
  dateTo1 : ℕ
  dateFrom2 : ℕ
  dateTo2 : ℕ
  /-- In lower case. -/
  usdCurrency : String
  outputRoutingKeyUsd : String
  outputRoutingKeyAll : String
  outputRoutingKeyPeriod1 : String
  outputRoutingKeyPeriod2 : String
  paymentFormatAggregatorExchange : String
  paymentFormatAggregatorNodeCount : ℕ
  bidirectionalSharderExchange : String
  bidirectionalSharderNodeCount : ℕ
  anomalyFilterExchange : String
  anomalyFilterNodeCount : ℕ
  exchanges : [paymentFormatAggregatorExchange, bidirectionalSharderExchange,
    anomalyFilterExchange].Nodup
  aggregators_pos : 0 < paymentFormatAggregatorNodeCount
  sharders_pos : 0 < bidirectionalSharderNodeCount
  filters_pos : 0 < anomalyFilterNodeCount

def eofShard : String := "0"

namespace Config

variable (cfg : Config)

def usdPeriod1Key : String := cfg.outputRoutingKeyUsd ++ "." ++ cfg.outputRoutingKeyPeriod1

def usdPeriod2Key : String := cfg.outputRoutingKeyUsd ++ "." ++ cfg.outputRoutingKeyPeriod2

def allPeriod1Key : String := cfg.outputRoutingKeyAll ++ "." ++ cfg.outputRoutingKeyPeriod1

end Config

/-- `_classify_transaction`; nothing when it raises, on a transaction without currency or time. -/
def classifyTransaction (cfg : Config) (tx : Transaction A) : Option (List String) := do
  let currency ← tx.currency
  let isUsd := lib.lower currency = cfg.usdCurrency
  let timestamp ← tx.timestamp
  if cfg.dateFrom1 ≤ timestamp ∧ timestamp ≤ cfg.dateTo1 then
    some (cfg.allPeriod1Key :: if isUsd then [cfg.usdPeriod1Key] else [])
  else if (cfg.dateFrom2 ≤ timestamp ∧ timestamp ≤ cfg.dateTo2) ∧ isUsd then
    some [cfg.usdPeriod2Key]
  else some []

/-- The entry of `transactions_by_routing_key`, for transactions with the keys they are put
under. -/
def transactionsByRoutingKey (classified : List (Transaction A × List String)) (key : String) :
    List (Transaction A) :=
  classified.flatMap fun p ↦ (p.2.filter (· = key)).map fun _ ↦ p.1

/-- `_shard_routing_key` -/
def shardRoutingKey (currentMessageId : MessageId) (nodeCount : ℕ) : Option String :=
  some (toString (shardOf hash currentMessageId nodeCount))

def handleDataMessage (cfg : Config) (currentMessageId : MessageId) (client : ClientId)
    (payload : List (Transaction A)) : Option (List (Outgoing A)) := do
  let classified ← payload.mapM fun tx ↦ (classifyTransaction lib cfg tx).map fun keys ↦ (tx, keys)
  sendAll currentMessageId client
    [(⟨.queue cfg.outputQueue, none⟩,
        .transactionBatch (transactionsByRoutingKey classified cfg.allPeriod1Key)),
      (⟨.exchange cfg.bidirectionalSharderExchange,
          shardRoutingKey hash currentMessageId cfg.bidirectionalSharderNodeCount⟩,
        .transactionBatch (transactionsByRoutingKey classified cfg.usdPeriod1Key)),
      (⟨.exchange cfg.anomalyFilterExchange,
          shardRoutingKey hash currentMessageId cfg.anomalyFilterNodeCount⟩,
        .transactionBatch (transactionsByRoutingKey classified cfg.usdPeriod2Key)),
      (⟨.exchange cfg.paymentFormatAggregatorExchange,
          shardRoutingKey hash currentMessageId cfg.paymentFormatAggregatorNodeCount⟩,
        .transactionBatch (transactionsByRoutingKey classified cfg.usdPeriod1Key))]

def sendFinalEof (cfg : Config) (client : ClientId) (eof : EOF) : List (Outgoing A) :=
  [⟨.queue cfg.outputQueue, none⟩, ⟨.exchange cfg.paymentFormatAggregatorExchange, some eofShard⟩,
    ⟨.exchange cfg.bidirectionalSharderExchange, some eofShard⟩,
    ⟨.exchange cfg.anomalyFilterExchange, some eofShard⟩].map fun address ↦
      ⟨address, client, finalEofId client eof none, .eof eof⟩

def worker (cfg : Config) : StatelessWorker A where
  Item := Transaction A
  handleDataMessage := handleDataMessage lib hash cfg
  sendFinalEof := sendFinalEof cfg

/-- `PaymentFormatFilter` shares a queue; the other three stages have one for each replica. -/
def routes (cfg : Config) : List Route :=
  [.direct cfg.outputQueue,
    .sharded hash (.exchange cfg.bidirectionalSharderExchange) cfg.bidirectionalSharderNodeCount,
    .sharded hash (.exchange cfg.anomalyFilterExchange) cfg.anomalyFilterNodeCount,
    .sharded hash (.exchange cfg.paymentFormatAggregatorExchange)
      cfg.paymentFormatAggregatorNodeCount]

end DateFilter

/-! ## PaymentFormatFilter -/

namespace PaymentFormatFilter

structure Config where
  outputQueue : String
  /-- Stripped and in lower case. -/
  validPaymentFormats : List String

/-- The record that is passed on, if the transaction is. -/
def convert (cfg : Config) (tx : Transaction A) : Option (TransactionForCurrencyConversion A) :=
  match tx.timestamp, tx.paymentFormat, tx.amount, tx.currency with
  | some timestamp, some paymentFormat, some amount, some currency =>
    if lib.lower paymentFormat ∈ cfg.validPaymentFormats then
      some ⟨lib.strftime TransactionsFieldMapper.timestampFormat timestamp, amount, currency⟩
    else none
  | _, _, _, _ => none

def handleDataMessage (cfg : Config) (currentMessageId : MessageId) (client : ClientId)
    (payload : List (Transaction A)) : Option (List (Outgoing A)) :=
  sendAll currentMessageId client
    [(⟨.queue cfg.outputQueue, none⟩,
      .currencyConversionBatch (payload.filterMap (convert lib cfg)))]

def sendFinalEof (cfg : Config) (client : ClientId) (eof : EOF) : List (Outgoing A) :=
  [⟨⟨.queue cfg.outputQueue, none⟩, client, finalEofId client eof none, .eof eof⟩]

def worker (cfg : Config) : StatelessWorker A where
  Item := Transaction A
  handleDataMessage := handleDataMessage lib cfg
  sendFinalEof := sendFinalEof cfg

/-- The queue of `CurrencyMapper`. -/
def routes (cfg : Config) : List Route := [.direct cfg.outputQueue]

end PaymentFormatFilter

/-! ## CurrencyMapper -/

namespace CurrencyMapper

structure Config where
  outputExchange : String
  outputNodeCount : ℕ
  ratesDateFormat : String
  transactionDateFormat : String
  nodeCount_pos : 0 < outputNodeCount

def eofShard : String := "0"

def currencyNameToIso : List (String × String) :=
  [("australian dollar", "AUD"), ("bitcoin", "BTC"), ("brazil real", "BRL"),
    ("canadian dollar", "CAD"), ("euro", "EUR"), ("mexican peso", "MXN"), ("ruble", "RUB"),
    ("rupee", "INR"), ("saudi riyal", "SAR"), ("shekel", "ILS"), ("swiss franc", "CHF"),
    ("uk pound", "GBP"), ("yen", "JPY"), ("yuan", "CNY")]

def decimalPlaces : ℕ := 2

section Rates

variable [Mul A] [Div A] [Zero A] [OfScientific A] [DecidableEq A]

def btcRates : List (String × A) :=
  [("2022-09-01", 1.0 / 19793.1), ("2022-09-02", 1.0 / 199999.0), ("2022-09-03", 1.0 / 19831.4),
    ("2022-09-04", 1.0 / 19952.7), ("2022-09-05", 1.0 / 20126.1)]

def defaultRate : A := 1.0

/-- `_fetch_rates`, from the dates, quotes and rates that the service answers with. -/
def fetchRates (entries : List (String × String × A)) : Dict String (Dict String A) :=
  btcRates.foldl (fun rates entry ↦ rates.upsert entry.1 Dict.empty (·.set "BTC" entry.2))
    (entries.foldl (fun rates entry ↦ rates.upsert entry.1 Dict.empty (·.set entry.2.1 entry.2.2))
      Dict.empty)

/-- The rate of a currency on a day. -/
def rateOf (rates : Dict String (Dict String A)) (currency dateStr : String) : A :=
  match currencyNameToIso.lookup (lib.lower currency) with
  | some isoCode => (((rates.get dateStr).getD Dict.empty).get isoCode).getD defaultRate
  | none => defaultRate

/-- `_resolve_rate`; nothing when the time cannot be read or the rate is zero. -/
def resolveRate (cfg : Config) (rates : Dict String (Dict String A)) (amount : A)
    (currency timestamp : String) : Option A := do
  let date ← lib.strptime cfg.transactionDateFormat timestamp
  let rate := rateOf lib rates currency (lib.strftime cfg.ratesDateFormat date)
  if rate = 0 then none else some (lib.round (amount * (1.0 / rate)) decimalPlaces)

def handleDataMessage (cfg : Config) (rates : Dict String (Dict String A))
    (currentMessageId : MessageId) (client : ClientId)
    (payload : List (TransactionForCurrencyConversion A)) : Option (List (Outgoing A)) := do
  let converted ← payload.mapM fun transaction ↦
    (resolveRate lib cfg rates transaction.amount transaction.currency transaction.timestamp).map
      TransactionAmount.mk
  sendAll currentMessageId client
    [(⟨.exchange cfg.outputExchange,
        some (toString (shardOf hash currentMessageId cfg.outputNodeCount))⟩,
      .amountTransactionBatch converted)]

def sendFinalEof (cfg : Config) (client : ClientId) (eof : EOF) : List (Outgoing A) :=
  [⟨⟨.exchange cfg.outputExchange, some eofShard⟩, client, finalEofId client eof none, .eof eof⟩]

def worker (cfg : Config) (entries : List (String × String × A)) : StatelessWorker A where
  Item := TransactionForCurrencyConversion A
  handleDataMessage := handleDataMessage lib hash cfg (fetchRates entries)
  sendFinalEof := sendFinalEof cfg

/-- The time can be read, and the rate of the day is a number that can be divided by. -/
def WellFormed (cfg : Config) (entries : List (String × String × A))
    (transaction : TransactionForCurrencyConversion A) : Prop :=
  ∃ date, lib.strptime cfg.transactionDateFormat transaction.timestamp = some date ∧
    rateOf lib (fetchRates entries) transaction.currency (lib.strftime cfg.ratesDateFormat date) ≠ 0

end Rates

/-- The replicas of `LowAmountAggregator`. -/
def routes (cfg : Config) : List Route :=
  [.sharded hash (.exchange cfg.outputExchange) cfg.outputNodeCount]

end CurrencyMapper

/-! ## AmountFilter -/

namespace AmountFilter

structure Config (A : Type) where
  outputExchange : String
  queryId : ℕ
  amountThreshold : A

variable [LT A] [DecidableLT A]

/-- The result for a transaction, if it has the required fields and is small. -/
def result (cfg : Config A) (tx : Transaction A) : Option (Q1Result A) :=
  match tx.fromBank, tx.fromAccount, tx.toBank, tx.toAccount, tx.amount with
  | some fromBank, some fromAccount, some toBank, some toAccount, some amount =>
    if amount < cfg.amountThreshold then some ⟨fromBank, fromAccount, toBank, toAccount, amount⟩
    else none
  | _, _, _, _, _ => none

def handleDataMessage (cfg : Config A) (currentMessageId : MessageId) (client : ClientId)
    (payload : List (Transaction A)) : Option (List (Outgoing A)) :=
  sendAll currentMessageId client
    [(⟨.exchange cfg.outputExchange, some client⟩, .q1ResultBatch (payload.filterMap (result cfg)))]

omit [LT A] [DecidableLT A] in
def sendFinalEof (cfg : Config A) (client : ClientId) (eof : EOF) : List (Outgoing A) :=
  [⟨⟨.exchange cfg.outputExchange, some client⟩, client,
    finalEofId client eof (some (toString cfg.queryId)), .queryEnd cfg.queryId eof.messageCount⟩]

def worker (cfg : Config A) : StatelessWorker A where
  Item := Transaction A
  handleDataMessage := handleDataMessage cfg
  sendFinalEof := sendFinalEof cfg

/-- The gateway, with a queue for each client. -/
def routes (cfg : Config A) (client : ClientId) : List Route :=
  [.single (.exchange cfg.outputExchange) client]

end AmountFilter

end MoneyLaundering
