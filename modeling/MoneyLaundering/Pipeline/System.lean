import MoneyLaundering.Pipeline.Deployment

/-!
# The pipeline

The workers of a deployment with the gateway, for one client, as a system of components. A run of it
has no crashes, and no session of the client is lost before its uploads are acknowledged; the
messages of an exchange come to a queue in the order of their publication, and otherwise anything
may happen at any time.
-/

namespace MoneyLaundering

variable {A : Type}

/-- What a worker sends at the end of the stream, for other workers. -/
theorem StatelessStage.messageId_sendFinalEof [Mul A] [Div A] [Zero A] [OfScientific A]
    [DecidableEq A] [LT A] [DecidableLT A] {lib : Library A} {hash : String → ℕ}
    {stage : StatelessStage A} (hstage : ∀ cfg, stage ≠ .amountFilter cfg) (client : ClientId)
    (eof : EOF) : ∀ m ∈ (stage.worker lib hash).sendFinalEof client eof,
      m.messageId = finalEofId client eof none := by
  intro m hm
  cases stage with
  | transactionsFieldMapper cfg =>
    rcases List.mem_cons.mp hm with rfl | hm
    · rfl
    · rw [List.mem_singleton.mp hm]
  | accountsFieldMapper cfg =>
    obtain ⟨key, -, rfl⟩ := List.mem_map.mp hm
    rfl
  | dateFilter cfg =>
    obtain ⟨address, -, rfl⟩ := List.mem_map.mp hm
    rfl
  | paymentFormatFilter cfg => rw [List.mem_singleton.mp hm]
  | currencyMapper cfg entries => rw [List.mem_singleton.mp hm]
  | amountFilter cfg => exact absurd rfl (hstage cfg)

/-- What is proved of a stateless stage once for all kinds. -/
theorem StatelessStage.exists_forwards [Mul A] [Div A] [Zero A] [OfScientific A] [DecidableEq A]
    [LT A] [DecidableLT A] (lib : Library A) (hash : String → ℕ) (stage : StatelessStage A) :
    ∃ outputs, Forwards (stage.worker lib hash) (stage.WellFormed lib hash) (stage.routes hash)
      outputs := by
  cases stage with
  | transactionsFieldMapper cfg => exact ⟨_, TransactionsFieldMapper.forwards cfg⟩
  | accountsFieldMapper cfg => exact ⟨_, AccountsFieldMapper.forwards A cfg⟩
  | dateFilter cfg => exact ⟨_, DateFilter.forwards cfg⟩
  | paymentFormatFilter cfg => exact ⟨_, PaymentFormatFilter.forwards cfg⟩
  | currencyMapper cfg entries => exact ⟨_, CurrencyMapper.forwards cfg entries⟩
  | amountFilter cfg => exact ⟨_, AmountFilter.forwards cfg⟩

namespace Deployment

section Definitions

variable [Amount A] [Mul A] [OfScientific A] [LE A] [DecidableLE A] (lib : Library A)
  (hash : String → ℕ) (paymentFormatKey : String → String) (d : Deployment A) (cfg : ClientConfig)
  (client : ClientId)

def statelessWorker (kind : StatelessKind) : StatelessWorker A := (d.stateless kind).worker lib hash

omit [Mul A] [OfScientific A] [LE A] [DecidableLE A] in
def statefulWorker (kind : StatefulKind) : StatefulWorker :=
  kind.worker hash paymentFormatKey (d.config kind)

omit [OfScientific A] in
def sideInputWorker (kind : SideInputKind) : SideInputWorker :=
  kind.worker paymentFormatKey d.anomalyThreshold (sideInputQueryId kind)

def component : Participant → Dataflow.Component Intake Posted
  | .gateway => router.component exchangeRawData cfg client
  | .stateless kind =>
    (d.statelessWorker lib hash kind).component (d.statelessReplicas kind) client (.stateless kind)
  | .stateful kind =>
    (d.statefulWorker hash paymentFormatKey kind).component (d.statefulReplicas kind) client
      (outlet client kind) (source kind) (.stateful kind)
  | .sideInput kind =>
    (d.sideInputWorker paymentFormatKey kind).component (d.sideInputReplicas kind) client
      (.sideInput kind) (.sideTable kind)

/-- The gateway and the workers, for one client. -/
def pipeline : Dataflow.System Participant Intake Posted where
  component := d.component lib hash paymentFormatKey cfg client
  sender := Intake.sender
  receiver := Intake.receiver
  accepts intake := (d.route hash intake).accepts

end Definitions

/-! ## The queues that the senders feed -/

variable {hash : String → ℕ} {d : Deployment A} {client : ClientId} {intake : Intake}

/-- The gateway feeds the field mappers. -/
theorem route_of_gateway (hintake : intake.sender = .gateway) :
    intake ≠ .stateful .bidirectionalSharder ∧
      d.route hash intake = router.route exchangeRawData intake.file := by
  cases intake with
  | stateless kind =>
    cases kind with
    | transactionsFieldMapper => exact ⟨Intake.noConfusion, rfl⟩
    | accountsFieldMapper => exact ⟨Intake.noConfusion, rfl⟩
    | dateFilter => cases hintake
    | amountFilter => cases hintake
    | paymentFormatFilter => cases hintake
    | currencyMapper => cases hintake
  | stateful kind => cases kind <;> cases hintake
  | sideInput kind => cases kind <;> cases hintake
  | sideTable kind node => cases kind <;> cases hintake

theorem queues_nodeQueue_of_le {middleware : Middleware} {routingKey : Option String}
    {node : NodeId}
    {nodeCount : ℕ} (h : nodeCount ≤ node) :
    (nodeQueue middleware routingKey node nodeCount).queues = [] := if_neg h.not_gt

/-- What a stateless worker feeds is one of its routes. -/
theorem route_mem {kind : StatelessKind} (hintake : intake.sender = .stateless kind) :
    kind ≠ .amountFilter ∧ (d.route hash intake ∈ (d.stateless kind).routes hash client ∨
      (d.route hash intake).queues = []) := by
  cases intake with
  | stateless kind' =>
    cases kind' with
    | transactionsFieldMapper => cases hintake
    | accountsFieldMapper => cases hintake
    | dateFilter =>
      cases hintake
      exact ⟨by decide, Or.inl (.tail _ (.head _))⟩
    | amountFilter =>
      cases hintake
      exact ⟨by decide, Or.inl (.head _)⟩
    | paymentFormatFilter =>
      cases hintake
      exact ⟨by decide, Or.inl (.head _)⟩
    | currencyMapper =>
      cases hintake
      exact ⟨by decide, Or.inl (.head _)⟩
  | stateful kind' =>
    cases kind' with
    | bankMaxAggregator =>
      cases hintake
      exact ⟨by decide, Or.inl (.tail _ (.tail _ (.head _)))⟩
    | bidirectionalSharder =>
      cases hintake
      exact ⟨by decide, Or.inl (.tail _ (.head _))⟩
    | paymentFormatAggregator =>
      cases hintake
      exact ⟨by decide, Or.inl (.tail _ (.tail _ (.tail _ (.head _))))⟩
    | lowAmountAggregator =>
      cases hintake
      exact ⟨by decide, Or.inl (.head _)⟩
    | bankMaxReducer => cases hintake
    | lowAmountReducer => cases hintake
    | paymentFormatReducer => cases hintake
    | accountFrequencyFilter => cases hintake
    | pathMapper => cases hintake
    | pathFrequencyFilter => cases hintake
    | duplicateAccountFilter => cases hintake
  | sideInput kind' =>
    cases kind' with
    | bankMapper => cases hintake
    | anomalyFilter =>
      cases hintake
      exact ⟨by decide, Or.inl (.tail _ (.tail _ (.head _)))⟩
  | sideTable kind' node =>
    cases kind' with
    | anomalyFilter => cases hintake
    | bankMapper =>
      cases hintake
      refine ⟨by decide, ?_⟩
      -- the field mapper has one key for each bank mapper, and none for the others
      by_cases hnode : node < d.bankMappers
      · refine Or.inl (List.mem_map.mpr ⟨node, List.mem_range.mpr hnode, ?_⟩)
        simp [route, nodeQueue, hnode, Route.single, AccountsFieldMapper.outputPrefixRoutingKey,
          accountsFieldMapper]
      · exact Or.inr (queues_nodeQueue_of_le (not_lt.mp hnode))

theorem keyed_nodes (middleware : Middleware) {routingKeyFor : ℕ → String}
    (hinj : Function.Injective routingKeyFor) (nodeCount : ℕ) :
    (nodes middleware routingKeyFor nodeCount).Keyed :=
  ⟨(List.range nodeCount).map fun node ↦ some (routingKeyFor node),
    by rw [List.map_map]; rfl,
    List.nodup_range.map fun _ _ h ↦ hinj (Option.some.inj h)⟩

theorem keyed_nodeQueue (middleware : Middleware) (routingKey : Option String) (node : NodeId)
    (nodeCount : ℕ) : (nodeQueue middleware routingKey node nodeCount).Keyed := by
  by_cases h : node < nodeCount
  · exact ⟨[routingKey], if_pos h, List.nodup_singleton _⟩
  · exact ⟨[], if_neg h, List.nodup_nil⟩

theorem ringRoutingKey_injective : Function.Injective ringRoutingKey := fun _ _ h ↦
  natToString_injective (String.append_right_inj _ |>.mp h)

/-- What a stateful worker feeds has a queue for each routing key, and it is not the bidirectional
sharder. Two kinds of workers publish to the clients only. -/
theorem keyed_route {kind : StatefulKind} (hintake : intake.sender = .stateful kind) :
    kind ≠ .duplicateAccountFilter ∧ kind ≠ .lowAmountReducer ∧
      intake ≠ .stateful .bidirectionalSharder ∧ (d.route hash intake).Keyed := by
  have hnat : Function.Injective (toString : ℕ → String) := fun _ _ ↦ natToString_injective
  cases intake with
  | stateless kind' => cases kind' <;> cases hintake
  | stateful kind' =>
    cases kind' with
    | bankMaxAggregator => cases hintake
    | bidirectionalSharder => cases hintake
    | paymentFormatAggregator => cases hintake
    | lowAmountAggregator => cases hintake
    | bankMaxReducer =>
      cases hintake
      exact ⟨by decide, by decide, by decide, keyed_nodes _ hnat _⟩
    | lowAmountReducer =>
      cases hintake
      exact ⟨by decide, by decide, by decide, [none], rfl, List.nodup_singleton _⟩
    | paymentFormatReducer =>
      cases hintake
      exact ⟨by decide, by decide, by decide, keyed_nodes _ hnat _⟩
    | accountFrequencyFilter =>
      cases hintake
      exact ⟨by decide, by decide, by decide, keyed_nodes _ ringRoutingKey_injective _⟩
    | pathMapper =>
      cases hintake
      exact ⟨by decide, by decide, by decide, keyed_nodes _ ringRoutingKey_injective _⟩
    | pathFrequencyFilter =>
      cases hintake
      exact ⟨by decide, by decide, by decide, keyed_nodes _ ringRoutingKey_injective _⟩
    | duplicateAccountFilter =>
      cases hintake
      exact ⟨by decide, by decide, by decide, keyed_nodes _ ringRoutingKey_injective _⟩
  | sideInput kind' =>
    cases kind' with
    | anomalyFilter => cases hintake
    | bankMapper =>
      cases hintake
      exact ⟨by decide, by decide, Intake.noConfusion, keyed_nodes _ hnat _⟩
  | sideTable kind' node =>
    cases kind' with
    | bankMapper => cases hintake
    | anomalyFilter =>
      cases hintake
      exact ⟨by decide, by decide, Intake.noConfusion, keyed_nodeQueue _ _ _ _⟩

theorem sender_ne_sideInput (intake : Intake) (kind : SideInputKind) :
    intake.sender ≠ .sideInput kind := by
  intro hintake
  cases intake with
  | stateless kind' => cases kind' <;> cases hintake
  | stateful kind' => cases kind' <;> cases hintake
  | sideInput kind' => cases kind' <;> cases hintake
  | sideTable kind' node => cases kind' <;> cases hintake

end Deployment

end MoneyLaundering
