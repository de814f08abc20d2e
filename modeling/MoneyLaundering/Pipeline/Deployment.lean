import Mathlib.Data.PNat.Basic
import MoneyLaundering.Pipeline.RawData
import MoneyLaundering.Pipeline.SideInputStage
import MoneyLaundering.Pipeline.StatefulStage
import MoneyLaundering.Pipeline.StatelessStage
import MoneyLaundering.Workers.Routes

/-!
# The deployment

How the workers are wired (`compose_generator.py`): the exchanges and queues they publish to, the
queues they take their messages from, and the configurations that go with some numbers of replicas.
The names are the generator's. What it sets besides, batch sizes and thresholds and dates, is left
open.

An intake is a channel of a worker, main or side. Each has one sender, and no channel leads back:
a sender has a smaller `rank` than the receiver.
-/

namespace MoneyLaundering

inductive StatelessKind
  | transactionsFieldMapper
  | accountsFieldMapper
  | dateFilter
  | paymentFormatFilter
  | currencyMapper
  | amountFilter
  deriving DecidableEq, Repr

/-- Who sends something to a worker, or is a worker. -/
inductive Participant
  | gateway
  | stateless (kind : StatelessKind)
  | stateful (kind : StatefulKind)
  | sideInput (kind : SideInputKind)
  deriving DecidableEq, Repr

/-- What a worker is fed from: its main channel or, for a node of a worker with a side input, its
side channel. -/
inductive Intake
  | stateless (kind : StatelessKind)
  | stateful (kind : StatefulKind)
  | sideInput (kind : SideInputKind)
  | sideTable (kind : SideInputKind) (node : NodeId)
  deriving DecidableEq, Repr

namespace Intake

def receiver : Intake → Participant
  | stateless kind => .stateless kind
  | stateful kind => .stateful kind
  | sideInput kind => .sideInput kind
  | sideTable kind _ => .sideInput kind

def sender : Intake → Participant
  | stateless .transactionsFieldMapper => .gateway
  | stateless .accountsFieldMapper => .gateway
  | stateless .dateFilter => .stateless .transactionsFieldMapper
  | stateless .amountFilter => .stateless .transactionsFieldMapper
  | stateless .paymentFormatFilter => .stateless .dateFilter
  | stateless .currencyMapper => .stateless .paymentFormatFilter
  | stateful .bankMaxAggregator => .stateless .transactionsFieldMapper
  | stateful .bidirectionalSharder => .stateless .dateFilter
  | stateful .paymentFormatAggregator => .stateless .dateFilter
  | stateful .lowAmountAggregator => .stateless .currencyMapper
  | stateful .bankMaxReducer => .stateful .bankMaxAggregator
  | stateful .lowAmountReducer => .stateful .lowAmountAggregator
  | stateful .paymentFormatReducer => .stateful .paymentFormatAggregator
  | stateful .accountFrequencyFilter => .stateful .bidirectionalSharder
  | stateful .pathMapper => .stateful .accountFrequencyFilter
  | stateful .pathFrequencyFilter => .stateful .pathMapper
  | stateful .duplicateAccountFilter => .stateful .pathFrequencyFilter
  | sideInput .bankMapper => .stateful .bankMaxReducer
  | sideInput .anomalyFilter => .stateless .dateFilter
  | sideTable .bankMapper _ => .stateless .accountsFieldMapper
  | sideTable .anomalyFilter _ => .stateful .paymentFormatReducer

/-- The file that the messages of an intake come from. -/
def file : Intake → RawFile
  | stateless .accountsFieldMapper => .accounts
  | sideTable .bankMapper _ => .accounts
  | _ => .transactions

end Intake

/-- How far a participant is from the gateway. -/
def Participant.rank : Participant → ℕ
  | gateway => 0
  | stateless .transactionsFieldMapper => 1
  | stateless .accountsFieldMapper => 1
  | stateless .dateFilter => 2
  | stateless .amountFilter => 2
  | stateless .paymentFormatFilter => 3
  | stateless .currencyMapper => 4
  | stateful .bankMaxAggregator => 2
  | stateful .bankMaxReducer => 3
  | stateful .bidirectionalSharder => 3
  | stateful .paymentFormatAggregator => 3
  | stateful .paymentFormatReducer => 4
  | stateful .accountFrequencyFilter => 4
  | stateful .lowAmountAggregator => 5
  | stateful .pathMapper => 5
  | stateful .lowAmountReducer => 6
  | stateful .pathFrequencyFilter => 6
  | stateful .duplicateAccountFilter => 7
  | sideInput .bankMapper => 4
  | sideInput .anomalyFilter => 5

theorem Intake.rank_sender_lt (intake : Intake) : intake.sender.rank < intake.receiver.rank := by
  cases intake with
  | stateless kind => cases kind <;> decide
  | stateful kind => cases kind <;> decide
  | sideInput kind => cases kind <;> decide
  | sideTable kind node =>
    cases kind with
    | bankMapper => exact (by decide : 1 < 4)
    | anomalyFilter => exact (by decide : 4 < 5)

theorem Intake.file_of_stateless {intake : Intake} {kind : StatelessKind}
    (h : intake.sender = .stateless kind) : (Intake.stateless kind).file = intake.file := by
  cases intake with
  | stateless kind' => cases kind' <;> cases h <;> rfl
  | stateful kind' => cases kind' <;> cases h <;> rfl
  | sideInput kind' =>
    cases kind' <;> cases h
    rfl
  | sideTable kind' node =>
    cases kind' <;> cases h
    rfl

theorem Intake.file_of_stateful {intake : Intake} {kind : StatefulKind}
    (h : intake.sender = .stateful kind) : (Intake.stateful kind).file = intake.file := by
  cases intake with
  | stateless kind' => cases kind' <;> cases h
  | stateful kind' => cases kind' <;> cases h <;> rfl
  | sideInput kind' =>
    cases kind' <;> cases h
    rfl
  | sideTable kind' node =>
    cases kind' <;> cases h
    rfl

/-! ## Names -/

namespace Deployment

def exchangeRawData : String := "raw_data"
def exchangeFilteredTransactions : String := "filtered_transactions"
def exchangeBankMaxInput : String := "bank_max_input"
def exchangePaymentFormatAggregatorInput : String := "payment_format_aggregator_input"
def queuePaymentFormatFilterInput : String := "payment_format_filter_input"
def exchangeBankCatalog : String := "bank_catalog"
def exchangeBankMaxOutput : String := "bank_max_output"
def exchangeBankMaxSharded : String := "bank_max_sharded"
def exchangePaymentFormatShards : String := "payment_format_shards"
def exchangePaymentFormatAverages : String := "payment_format_averages"
def exchangeBidirectionalSharderInput : String := "bidirectional_sharder_input"
def exchangeBidirectionalSharderOutput : String := "bidirectional_sharder_output"
def exchangeAnomalyFilterInput : String := "anomaly_filter_input"
def exchangeAccountFreqFilterOutput : String := "account_freq_filter_output"
def exchangePathMapperOutput : String := "path_mapper_output"
def exchangePathFreqFilterOutput : String := "path_freq_filter_output"
def exchangeQueryResults : String := "query_results"
def queueCurrencyMapperInput : String := "currency_mapper_input"
def exchangeLowAmountAggregatorInput : String := "low_amount_aggregator_input"
def queueLowAmountAggregatorOutput : String := "low_amount_aggregator_output"

def nodePrefix : String := "node."
def sideInputNodePrefix : String := "bank_mapper_side_input_node_"
def routingKeyUsd : String := "usd"
def routingKeysAll : String := "all"
def routingKeysEof : String := "eof"
def routingKeyPeriod1 : String := "period1"
def routingKeyPeriod2 : String := "period2"
def usdCurrency : String := "US Dollar"
def transactionDateFormat : String := "%Y/%m/%d %H:%M"
def ratesDateFormat : String := "%Y-%m-%d"

/-- The routing keys of the gateway. -/
def router : InternalRouter := ⟨"transaction", "account"⟩

end Deployment

/-- The numbers of replicas, and what is left open. -/
structure Deployment (A : Type) where
  transactionsFieldMappers : ℕ+
  accountsFieldMappers : ℕ+
  dateFilters : ℕ+
  paymentFormatFilters : ℕ+
  currencyMappers : ℕ+
  lowAmountAggregators : ℕ+
  bankMaxAggregators : ℕ+
  bankMaxReducers : ℕ+
  lowAmountReducers : ℕ+
  bankMappers : ℕ+
  amountFilters : ℕ+
  paymentFormatAggregators : ℕ+
  paymentFormatReducers : ℕ+
  anomalyFilters : ℕ+
  bidirectionalSharders : ℕ+
  accountFrequencyFilters : ℕ+
  pathMappers : ℕ+
  pathFrequencyFilters : ℕ+
  duplicateAccountFilters : ℕ+
  dateFrom1 : ℕ
  dateTo1 : ℕ
  dateFrom2 : ℕ
  dateTo2 : ℕ
  minRequiredAccounts : ℕ
  batchSize : StatefulKind → ℕ
  /-- The thresholds of the amount filter, the low amount aggregators and the anomaly filter. -/
  amountThreshold : A
  lowAmountThreshold : A
  anomalyThreshold : A
  /-- What the service of the rates answers with. -/
  rates : List (String × String × A)

namespace Deployment

variable {A : Type} (d : Deployment A)

/-! ## The stateless stages -/

def statelessReplicas : StatelessKind → ℕ+
  | .transactionsFieldMapper => d.transactionsFieldMappers
  | .accountsFieldMapper => d.accountsFieldMappers
  | .dateFilter => d.dateFilters
  | .paymentFormatFilter => d.paymentFormatFilters
  | .currencyMapper => d.currencyMappers
  | .amountFilter => d.amountFilters

def transactionsFieldMapper : TransactionsFieldMapper.Config where
  outputExchange := exchangeFilteredTransactions
  outputRoutingKeyUsd := routingKeyUsd
  outputRoutingKeyAll := routingKeysAll
  outputRoutingKeyEof := routingKeysEof
  usdCurrency := usdCurrency
  bankMaxExchange := exchangeBankMaxInput
  bankMaxNodeCount := d.bankMaxAggregators
  exchange_ne := by decide
  usd_ne_all := by decide
  eof_ne_usd := by decide
  eof_ne_all := by decide
  nodeCount_pos := d.bankMaxAggregators.pos

def accountsFieldMapper : AccountsFieldMapper.Config where
  outputExchange := exchangeBankCatalog
  outputRoutingKeys := (List.range d.bankMappers).map toString
  outputNodeCount := d.bankMappers
  outputNodePrefix := sideInputNodePrefix
  routingKeys_eq := rfl
  nodeCount_pos := d.bankMappers.pos

def dateFilter : DateFilter.Config where
  outputQueue := queuePaymentFormatFilterInput
  dateFrom1 := d.dateFrom1
  dateTo1 := d.dateTo1
  dateFrom2 := d.dateFrom2
  dateTo2 := d.dateTo2
  usdCurrency := "us dollar"
  outputRoutingKeyUsd := routingKeyUsd
  outputRoutingKeyAll := routingKeysAll
  outputRoutingKeyPeriod1 := routingKeyPeriod1
  outputRoutingKeyPeriod2 := routingKeyPeriod2
  paymentFormatAggregatorExchange := exchangePaymentFormatAggregatorInput
  paymentFormatAggregatorNodeCount := d.paymentFormatAggregators
  bidirectionalSharderExchange := exchangeBidirectionalSharderInput
  bidirectionalSharderNodeCount := d.bidirectionalSharders
  anomalyFilterExchange := exchangeAnomalyFilterInput
  anomalyFilterNodeCount := d.anomalyFilters
  exchanges := by decide
  aggregators_pos := d.paymentFormatAggregators.pos
  sharders_pos := d.bidirectionalSharders.pos
  filters_pos := d.anomalyFilters.pos

def stateless : StatelessKind → StatelessStage A
  | .transactionsFieldMapper => .transactionsFieldMapper d.transactionsFieldMapper
  | .accountsFieldMapper => .accountsFieldMapper d.accountsFieldMapper
  | .dateFilter => .dateFilter d.dateFilter
  | .paymentFormatFilter => .paymentFormatFilter
    { outputQueue := queueCurrencyMapperInput
      validPaymentFormats := ["wire", "ach"] }
  | .currencyMapper => .currencyMapper
    { outputExchange := exchangeLowAmountAggregatorInput
      outputNodeCount := d.lowAmountAggregators
      ratesDateFormat := ratesDateFormat
      transactionDateFormat := transactionDateFormat
      nodeCount_pos := d.lowAmountAggregators.pos } d.rates
  | .amountFilter => .amountFilter
    { outputExchange := exchangeQueryResults
      queryId := 1
      amountThreshold := d.amountThreshold }

/-! ## The stateful stages -/

def statefulReplicas : StatefulKind → ℕ+
  | .accountFrequencyFilter => d.accountFrequencyFilters
  | .pathMapper => d.pathMappers
  | .pathFrequencyFilter => d.pathFrequencyFilters
  | .duplicateAccountFilter => d.duplicateAccountFilters
  | .bidirectionalSharder => d.bidirectionalSharders
  | .bankMaxAggregator => d.bankMaxAggregators
  | .bankMaxReducer => d.bankMaxReducers
  | .lowAmountAggregator => d.lowAmountAggregators
  | .lowAmountReducer => d.lowAmountReducers
  | .paymentFormatAggregator => d.paymentFormatAggregators
  | .paymentFormatReducer => d.paymentFormatReducers

/-- `OUTPUT_NODE_COUNT` or `NUM_SHARDS`: the replicas of the next stage. Those whose next stage has
no nodes to tell apart do not read it. -/
def nextReplicas : StatefulKind → ℕ
  | .bidirectionalSharder => d.accountFrequencyFilters
  | .accountFrequencyFilter => d.pathMappers
  | .pathMapper => d.pathFrequencyFilters
  | .pathFrequencyFilter => d.duplicateAccountFilters
  | .bankMaxAggregator => d.bankMaxReducers
  | .bankMaxReducer => d.bankMappers
  | .paymentFormatAggregator => d.paymentFormatReducers
  | .duplicateAccountFilter => 1
  | .lowAmountAggregator => 1
  | .lowAmountReducer => 1
  | .paymentFormatReducer => 1

def queryId : StatefulKind → String
  | .duplicateAccountFilter => "4"
  | .lowAmountReducer => "5"
  | _ => ""

def config (kind : StatefulKind) : Config A where
  minRequiredAccounts := d.minRequiredAccounts
  outputNodeCount := d.nextReplicas kind
  outputNodePrefix := nodePrefix
  numShards := d.nextReplicas kind
  batchSize := d.batchSize kind
  amountThreshold := d.lowAmountThreshold
  queryId := queryId kind

/-- Where a stateful worker publishes (`_output_middleware`), and the routing key in its
`_send_final_eof`. -/
def outlet (client : ClientId) : StatefulKind → Outlet
  | .bidirectionalSharder =>
    ⟨.exchange exchangeBidirectionalSharderOutput, some (nodePrefix ++ "0")⟩
  | .accountFrequencyFilter => ⟨.exchange exchangeAccountFreqFilterOutput, some (nodePrefix ++ "0")⟩
  | .pathMapper => ⟨.exchange exchangePathMapperOutput, some (nodePrefix ++ "0")⟩
  | .pathFrequencyFilter => ⟨.exchange exchangePathFreqFilterOutput, some (nodePrefix ++ "0")⟩
  | .duplicateAccountFilter => ⟨.exchange exchangeQueryResults, some client⟩
  | .bankMaxAggregator => ⟨.exchange exchangeBankMaxOutput, some "0"⟩
  | .bankMaxReducer => ⟨.exchange exchangeBankMaxSharded, some "0"⟩
  | .lowAmountAggregator => ⟨.queue queueLowAmountAggregatorOutput, none⟩
  | .lowAmountReducer => ⟨.exchange exchangeQueryResults, some client⟩
  | .paymentFormatAggregator => ⟨.exchange exchangePaymentFormatShards, some "0"⟩
  | .paymentFormatReducer => ⟨.exchange exchangePaymentFormatAverages, none⟩

/-! ## The stages with a side input -/

def sideInputReplicas : SideInputKind → ℕ+
  | .bankMapper => d.bankMappers
  | .anomalyFilter => d.anomalyFilters

def sideInputQueryId : SideInputKind → String
  | .bankMapper => "2"
  | .anomalyFilter => "3"

/-! ## The queues -/

/-- Replicas with a queue each, under a routing key of their own. -/
def nodes (middleware : Middleware) (routingKeyFor : ℕ → String) (nodeCount : ℕ) : Route where
  middleware := middleware
  queues := (List.range nodeCount).map fun node ↦ [some (routingKeyFor node)]
  key _ := none

/-- `_get_ring_routing_key` -/
def ringRoutingKey (node : ℕ) : String := nodePrefix ++ toString node

/-- A queue of one node, if there is the node. -/
def nodeQueue (middleware : Middleware) (routingKey : Option String) (node : NodeId)
    (nodeCount : ℕ) :
    Route where
  middleware := middleware
  queues := if node < nodeCount then [[routingKey]] else []
  key _ := routingKey

/-- The queues that an intake consists of, as the constructors of the workers bind them. -/
def route (hash : String → ℕ) : Intake → Route
  | .stateless .transactionsFieldMapper => router.route exchangeRawData .transactions
  | .stateless .accountsFieldMapper => router.route exchangeRawData .accounts
  | .stateless .dateFilter =>
    .bound (.exchange exchangeFilteredTransactions) routingKeysAll routingKeysEof
  | .stateless .amountFilter =>
    .bound (.exchange exchangeFilteredTransactions) routingKeyUsd routingKeysEof
  | .stateless .paymentFormatFilter => .direct queuePaymentFormatFilterInput
  | .stateless .currencyMapper => .direct queueCurrencyMapperInput
  | .stateful .bankMaxAggregator =>
    .sharded hash (.exchange exchangeBankMaxInput) d.bankMaxAggregators
  | .stateful .bidirectionalSharder =>
    .sharded hash (.exchange exchangeBidirectionalSharderInput) d.bidirectionalSharders
  | .stateful .paymentFormatAggregator =>
    .sharded hash (.exchange exchangePaymentFormatAggregatorInput) d.paymentFormatAggregators
  | .stateful .lowAmountAggregator =>
    .sharded hash (.exchange exchangeLowAmountAggregatorInput) d.lowAmountAggregators
  | .stateful .lowAmountReducer => .direct queueLowAmountAggregatorOutput
  | .stateful .bankMaxReducer => nodes (.exchange exchangeBankMaxOutput) toString d.bankMaxReducers
  | .stateful .paymentFormatReducer =>
    nodes (.exchange exchangePaymentFormatShards) toString d.paymentFormatReducers
  | .stateful .accountFrequencyFilter =>
    nodes (.exchange exchangeBidirectionalSharderOutput) ringRoutingKey d.accountFrequencyFilters
  | .stateful .pathMapper =>
    nodes (.exchange exchangeAccountFreqFilterOutput) ringRoutingKey d.pathMappers
  | .stateful .pathFrequencyFilter =>
    nodes (.exchange exchangePathMapperOutput) ringRoutingKey d.pathFrequencyFilters
  | .stateful .duplicateAccountFilter =>
    nodes (.exchange exchangePathFreqFilterOutput) ringRoutingKey d.duplicateAccountFilters
  | .sideInput .bankMapper => nodes (.exchange exchangeBankMaxSharded) toString d.bankMappers
  | .sideInput .anomalyFilter =>
    .sharded hash (.exchange exchangeAnomalyFilterInput) d.anomalyFilters
  | .sideTable .bankMapper node =>
    nodeQueue (.exchange exchangeBankCatalog) (some (sideInputNodePrefix ++ toString node)) node
      d.bankMappers
  | .sideTable .anomalyFilter node =>
    nodeQueue (.exchange exchangePaymentFormatAverages) none node d.anomalyFilters

/-- The queue that a node takes its messages from. The low amount reducers share one. -/
def source : StatefulKind → NodeId → ℕ
  | .lowAmountReducer, _ => 0
  | _, node => node

end Deployment

end MoneyLaundering
