import MoneyLaundering.Client.Results
import MoneyLaundering.Pipeline.Announced
import MoneyLaundering.Pipeline.Gateway

/-!
# The results of the pipeline

The workers at its ends publish results to the client, who drops a batch if it knows the id, and
takes a query for finished when as many batches have come as the end of the query announces. Of the
workers that are fed by other workers only, no two batches for one query have the same id
(`results_clean`), and a pipeline that is at rest has sent one end with the right number
(`results_served`).
-/

namespace MoneyLaundering

open Deployment

/-- The query that a worker answers, and what it takes its messages from. -/
def Intake.queryId : Intake → Option String
  | .stateless .amountFilter => some "1"
  | .stateful .duplicateAccountFilter => some "4"
  | .stateful .lowAmountReducer => some "5"
  | _ => none

/-- The queue of a client (`ClientHandler`, on the exchange of the results). -/
def resultsRoute (client : ClientId) : Route := .single (.exchange exchangeQueryResults) client

theorem keyed_resultsRoute (client : ClientId) : (resultsRoute client).Keyed :=
  ⟨[some client], rfl, List.nodup_singleton _⟩

section Pipeline

variable {A : Type} [Amount A] [Mul A] [OfScientific A] [LE A] [DecidableLE A] {lib : Library A}
  {hash : String → ℕ} {paymentFormatKey : String → String} {d : Deployment A} {cfg : ClientConfig}
  {client : ClientId} {s : (d.pipeline lib hash paymentFormatKey cfg client).State}
  {intake : Intake} {queryId : String}

/-- What the receiver of an intake has published for the client. -/
def resultsOf (s : (d.pipeline lib hash paymentFormatKey cfg client).State) (intake : Intake) :
    List Header := (resultsRoute client).routed (s.published intake.receiver) 0

/-! ## One worker -/

omit [LE A] [DecidableLE A] in
theorem amountFilter_tally {n : ℕ} {arrived : Intake → ℕ → List Posted} {published : List Posted}
    {s : ((d.statelessWorker lib hash .amountFilter).component n client
      (Intake.stateless .amountFilter)).State}
    (h : ((d.statelessWorker lib hash .amountFilter).component n client
      (Intake.stateless .amountFilter)).History arrived published s) :
    RouteTally client (some "1") (resultsRoute client)
      ((arrived (.stateless .amountFilter) 0).map Posted.header) published s := by
  have hdisc : toString 1 = "1" := by decide
  refine tally_of_history (AmountFilter.forwards _) (fun client eof m hm ↦ ?_)
    (List.mem_singleton_self _) h
  rw [List.mem_singleton.mp hm, ← hdisc]

omit [Mul A] [OfScientific A] [LE A] [DecidableLE A] in
/-- The stateful workers that answer a query publish to the client. -/
theorem queryId_stateful {kind : StatefulKind} (h : (Intake.stateful kind).queryId = some queryId) :
    (d.statefulWorker hash paymentFormatKey kind).queryId = some queryId ∧
      (outlet client kind).middleware = .exchange exchangeQueryResults ∧
      ∀ key, kind.Key (d.config kind) client key → key = some client := by
  cases kind with
  | duplicateAccountFilter => exact ⟨h, rfl, fun _ hkey ↦ hkey⟩
  | lowAmountReducer => exact ⟨h, rfl, fun _ hkey ↦ hkey⟩
  | _ => exact absurd h.symm (Option.some_ne_none _)

theorem queryId_stateless {kind : StatelessKind}
    (h : (Intake.stateless kind).queryId = some queryId) :
    kind = .amountFilter ∧ queryId = "1" := by
  cases kind with
  | amountFilter => exact ⟨rfl, (Option.some.inj h).symm⟩
  | _ => exact absurd h.symm (Option.some_ne_none _)

/-! ## The pipeline -/

/-- The batches of results for a query, and its end, have ids of their own. -/
theorem results_clean (hreach : (d.pipeline lib hash paymentFormatKey cfg client).Reachable s)
    (hquery : intake.queryId = some queryId) :
    CleanQueues client (some queryId)
      ((resultsRoute client).routed (s.published intake.receiver)) := by
  have hlocal := Dataflow.System.local_of_reachable hreach
  obtain ⟨arrived, hhistory, hsees⟩ := hlocal.exists_history intake.receiver
  have htidy := tidy_of_reachable hreach intake
  rw [← hsees intake rfl] at htidy
  cases intake with
  | stateless kind =>
    obtain ⟨rfl, rfl⟩ := queryId_stateless hquery
    exact (amountFilter_tally hhistory).clean htidy.clean
  | stateful kind =>
    obtain ⟨hdisc, -, -⟩ := @queryId_stateful A _ hash paymentFormatKey d client queryId kind hquery
    have hbehaved := behaved_of_history hhistory
    rw [hbehaved.published_eq, ← hdisc]
    exact (distinct_of_behaved hbehaved htidy).clean (keyed_resultsRoute client)
  | sideInput kind => exact absurd hquery.symm (Option.some_ne_none _)
  | sideTable kind node => exact absurd hquery.symm (Option.some_ne_none _)

/-- **The client drops no result.** No two messages for one query have the same id, cleanups apart.
-/
theorem results_unique (hreach : (d.pipeline lib hash paymentFormatKey cfg client).Reachable s)
    (hquery : intake.queryId = some queryId) :
    (((resultsOf s intake).filter fun m ↦ !m.isCleanup).map Header.messageId).Nodup :=
  (results_clean hreach hquery).nodup_messageId 0

/-- While no session is cleaned up, the end of a query announces at least the results there are. -/
theorem results_enough (hreach : (d.pipeline lib hash paymentFormatKey cfg client).Reachable s)
    (hquiet : ∀ m ∈ s.published .gateway, m.header.isCleanup = false)
    (hquery : intake.queryId = some queryId) :
    Enough 1 ((resultsRoute client).routed (s.published intake.receiver)) := by
  have hlocal := Dataflow.System.local_of_reachable hreach
  obtain ⟨arrived, hhistory, hsees⟩ := hlocal.exists_history intake.receiver
  have htidy := tidy_of_reachable hreach intake
  have hinput := enough_of_reachable hreach hquiet intake
  rw [← hsees intake rfl] at htidy hinput
  cases intake with
  | stateless kind =>
    obtain ⟨rfl, rfl⟩ := queryId_stateless hquery
    exact (amountFilter_tally hhistory).enough hinput 1
  | stateful kind =>
    exact (behaved_of_history hhistory).enough htidy.clean hinput (fun _ hi ↦ source_lt hi)
      (keyed_resultsRoute client).copies_le 1
  | sideInput kind => exact absurd hquery.symm (Option.some_ne_none _)
  | sideTable kind node => exact absurd hquery.symm (Option.some_ne_none _)

/-- **A query is answered completely** when everything on the way to its worker is at rest, and the
worker is idle: the client was sent one end, and as many results as it announces. -/
theorem results_served (hreach : (d.pipeline lib hash paymentFormatKey cfg client).Reachable s)
    (hquiet : ∀ m ∈ s.published .gateway, m.header.isCleanup = false)
    (hquery : intake.queryId = some queryId) (hrest : AtRest s intake)
    (hidle : Idle s intake.receiver)
    (hfile : headersOf client .transactions (messagesToSend cfg).1 ≠ []) :
    Served 1 ((resultsRoute client).routed (s.published intake.receiver)) := by
  have hlocal := Dataflow.System.local_of_reachable hreach
  obtain ⟨arrived, hhistory, hsees⟩ := hlocal.exists_history intake.receiver
  have htidy := tidy_of_reachable hreach intake
  cases intake with
  | stateless kind =>
    obtain ⟨rfl, rfl⟩ := queryId_stateless hquery
    have hinput := served_of_atRest hreach hquiet _ hrest hfile Nat.one_pos
    rw [← hsees (.stateless .amountFilter) rfl] at hinput
    exact (amountFilter_tally hhistory).served hinput hidle
  | stateful kind =>
    obtain ⟨-, hmiddleware, hkeys⟩ :=
      @queryId_stateful A _ hash paymentFormatKey d client queryId kind hquery
    have hfile' : (Intake.stateful kind).file = .transactions := by cases kind <;> rfl
    have hinput :=
      served_of_atRest hreach hquiet _ hrest (hfile' ▸ hfile) (length_route_stateful kind)
    rw [← hsees (.stateful kind) rfl] at hinput htidy
    have hbehaved := behaved_of_history hhistory
    have hcopies : ∀ m ∈ s.published (Intake.stateful kind).receiver,
        (resultsRoute client).copies m.address = 1 := by
      intro m hm
      obtain ⟨key, hkey, haddress⟩ := exists_key hbehaved hm
      rw [haddress, hmiddleware, hkeys key hkey]
      exact (Route.copies_single _ _ _).trans (if_pos rfl)
    exact hbehaved.served htidy.clean hinput (fun _ hi ↦ source_lt hi) hcopies
      (fun i ↦ (hidle i).1) fun i ↦ (hidle i).2
  | sideInput kind => exact absurd hquery.symm (Option.some_ne_none _)
  | sideTable kind node => exact absurd hquery.symm (Option.some_ne_none _)

end Pipeline

/-! ## The client -/

/-- Of two that count, if only one is counted. -/
theorem eq_of_countP_le_one {α : Type} {p : α → Bool} {l : List α} (h : l.countP p ≤ 1) {a b : α}
    (ha : a ∈ l) (hb : b ∈ l) (hpa : p a = true) (hpb : p b = true) : a = b := by
  rw [List.countP_eq_length_filter] at h
  have hmema : a ∈ l.filter p := List.mem_filter.mpr ⟨ha, hpa⟩
  have hmemb : b ∈ l.filter p := List.mem_filter.mpr ⟨hb, hpb⟩
  generalize l.filter p = l' at h hmema hmemb
  match l', h with
  | [c], _ => rw [List.mem_singleton.mp hmema, List.mem_singleton.mp hmemb]

theorem eq_of_nodup_filterMap {α β : Type} {f : α → Option β} {l : List α}
    (h : (l.filterMap f).Nodup) {a a' : α} {b : β} (ha : a ∈ l) (ha' : a' ∈ l) (hb : f a = some b)
    (hb' : f a' = some b) : a = a' := by
  induction l with
  | nil => exact absurd ha List.not_mem_nil
  | cons c l ih =>
    have hnew : f c = some b → ∀ a ∈ l, f a ≠ some b := by
      intro hc a hal hfa
      rw [List.filterMap_cons_some hc] at h
      exact (List.nodup_cons.mp h).1 (List.mem_filterMap.mpr ⟨a, hal, hfa⟩)
    rcases List.mem_cons.mp ha with rfl | hal
    · rcases List.mem_cons.mp ha' with rfl | hal'
      · rfl
      · exact absurd hb' (hnew hb a' hal')
    · rcases List.mem_cons.mp ha' with rfl | hal'
      · exact absurd hb (hnew hb' a hal)
      · exact ih (h.sublist ((List.sublist_cons_self c l).filterMap f)) hal hal'

/-- An end that announces no more than there is ends what is complete. -/
theorem Enough.served {r : Route} {published : List Posted} {client : ClientId}
    {disc : Option String} (hr : r.queues.length = 1) (h : Enough 1 (r.routed published))
    (hclean : CleanQueues client disc (r.routed published)) {m : Header} {eof : EOF}
    (hm : m ∈ r.routed published 0) (hsome : m.eof = some eof)
    (hle : eof.messageCount ≤ dataCount 1 (r.routed published)) :
    Served 1 (r.routed published) := by
  constructor
  · have hpos : 0 < Header.ends (r.routed published 0) :=
      List.countP_pos_iff.mpr ⟨m, hm, h.isEnd hm hsome⟩
    have hends := hclean.ends_le 0
    rw [Finset.sum_range_one]
    omega
  · intro q m' hm' eof' hsome'
    have hmem' := mem_zero_of_mem_routed hr hm'
    obtain rfl := eq_of_countP_le_one (hclean.ends_le 0) hm hmem' (h.isEnd hm hsome)
      (h.isEnd hmem' hsome')
    obtain rfl := Option.some.inj (hsome.symm.trans hsome')
    exact le_antisymm hle (h 0 _ hm _ hsome)

section Shown

variable {R : Type}

namespace ResultMessage

def queryId : ResultMessage R → ℤ
  | batch queryId _ _ => queryId
  | queryEnd queryId _ => queryId

def batchId : ResultMessage R → Option MessageId
  | batch _ _ messageId => some messageId
  | queryEnd _ _ => none

/-- A message of a results queue has such a header. -/
def Shows : ResultMessage R → Header → Prop
  | batch _ _ messageId, m => m = ⟨messageId, none⟩
  | queryEnd _ messageCount, m => m.eof = some ⟨messageCount⟩

theorem Shows.batchId_eq {message : ResultMessage R} {m : Header} (h : message.Shows m) :
    message.batchId = m.dataId := by
  cases message with
  | batch queryId records messageId =>
    rw [show m = _ from h]
    rfl
  | queryEnd queryId messageCount =>
    have hsome : m.eof = some ⟨messageCount⟩ := h
    rw [batchId, Header.dataId, hsome]

end ResultMessage

/-- What was published for a query has such headers. -/
def Shown (published : List (ResultMessage R)) (queryId : ℤ) (results : List Header) : Prop :=
  List.Forall₂ ResultMessage.Shows (published.filter fun m ↦ m.queryId = queryId) results

namespace Shown

variable {published : List (ResultMessage R)} {queryId : ℤ} {results : List Header}

theorem filterMap_batchId (h : Shown published queryId results) :
    (published.filter fun m ↦ m.queryId = queryId).filterMap ResultMessage.batchId
      = results.filterMap Header.dataId := by
  rw [Shown] at h
  generalize published.filter (fun m ↦ m.queryId = queryId) = messages at h ⊢
  induction h with
  | nil => rfl
  | cons hshows _ ih => rw [List.filterMap_cons, List.filterMap_cons, hshows.batchId_eq, ih]

theorem exists_header (h : Shown published queryId results) {message : ResultMessage R}
    (hmem : message ∈ published) (hquery : message.queryId = queryId) :
    ∃ m ∈ results, message.Shows m := by
  have hfilter : message ∈ published.filter fun m ↦ m.queryId = queryId :=
    List.mem_filter.mpr ⟨hmem, decide_eq_true hquery⟩
  obtain ⟨i, hi, rfl⟩ := List.mem_iff_getElem.mp hfilter
  exact ⟨_, List.getElem_mem (h.length_eq ▸ hi), h.get hi (h.length_eq ▸ hi)⟩

theorem batchIds_eq (h : Shown published queryId results)
    (hids : ∀ messageId ∈ Header.ids results, messageId ≠ "") :
    batchIds published queryId = (Header.ids results).toFinset := by
  ext messageId
  rw [mem_batchIds, Multiset.mem_toFinset]
  constructor
  · rintro ⟨-, records, hmem⟩
    obtain ⟨m, hm, rfl⟩ := h.exists_header hmem rfl
    exact Header.mem_ids.mpr hm
  · intro hid
    refine ⟨hids messageId hid, ?_⟩
    rw [Header.ids, ← h.filterMap_batchId, Multiset.mem_coe, List.mem_filterMap] at hid
    obtain ⟨message, hmessage, heq⟩ := hid
    obtain ⟨hmem, hquery⟩ := List.mem_filter.mp hmessage
    cases message with
    | batch queryId' records messageId' =>
      obtain rfl := Option.some.inj heq
      obtain rfl : queryId' = queryId := of_decide_eq_true hquery
      exact ⟨records, hmem⟩
    | queryEnd queryId' messageCount => exact absurd heq (Option.some_ne_none _).symm

/-- What a client is sent for a query that is complete. -/
theorem counted (h : Shown published queryId results) (hids : (Header.ids results).Nodup)
    (hnamed : ∀ messageId ∈ Header.ids results, messageId ≠ "")
    (hends : ∀ m ∈ results, ∀ eof, m.eof = some eof →
      eof.messageCount = (Header.ids results).card) : Counted published queryId where
  ids records messageId hmem := by
    obtain ⟨m, hm, rfl⟩ := h.exists_header hmem rfl
    exact hnamed messageId (Header.mem_ids.mpr hm)
  distinct records records' messageId hmem hmem' := by
    have hnodup := hids
    rw [Header.ids, ← h.filterMap_batchId, Multiset.coe_nodup] at hnodup
    have hsame := eq_of_nodup_filterMap hnodup
      (List.mem_filter.mpr ⟨hmem, decide_eq_true rfl⟩)
      (List.mem_filter.mpr ⟨hmem', decide_eq_true rfl⟩) rfl rfl
    exact (ResultMessage.batch.inj hsame).2.1
  count count hmem := by
    obtain ⟨m, hm, hshows⟩ := h.exists_header hmem rfl
    rw [h.batchIds_eq hnamed, Multiset.toFinset_card_of_nodup hids]
    exact hends m hm _ hshows

end Shown

end Shown

section Client

open EventRuns Conversation

variable {A : Type} [Amount A] [Mul A] [OfScientific A] [LE A] [DecidableLE A] {lib : Library A}
  {hash : String → ℕ} {paymentFormatKey : String → String} {d : Deployment A} {cfg : ClientConfig}
  {client : ClientId} {intake : Intake} {disc : String} {R : Type} {queryId : ℤ}

/-- When a client has finalized a query on what the pipeline has published for it, that is all there
is, and the client has written it. -/
theorem complete_of_finalized {s : (d.pipeline lib hash paymentFormatKey cfg client).State}
    (hreach : (d.pipeline lib hash paymentFormatKey cfg client).Reachable s)
    (hquiet : ∀ m ∈ s.published .gateway, m.header.isCleanup = false)
    (hquery : intake.queryId = some disc) {c : Conversation R} (hinvariant : c.ResultInvariant)
    (hshown : Shown c.published queryId (resultsOf s intake))
    (hfinal : queryId ∈ c.client.finalized) :
    Served 1 ((resultsRoute client).routed (s.published intake.receiver)) ∧
      ∀ records messageId, .batch queryId records messageId ∈ c.published →
        (queryId, records, messageId) ∈ c.client.written := by
  obtain ⟨hagrees, hfrom⟩ := hinvariant
  have hclean := results_clean hreach hquery
  have henough := results_enough hreach hquiet hquery
  have hids : (Header.ids (resultsOf s intake)).Nodup := hclean.ids 0
  have hnamed : ∀ messageId ∈ Header.ids (resultsOf s intake), messageId ≠ "" := fun messageId hid ↦
    (hclean.data 0 _ (Header.mem_ids.mp hid) rfl).ne_empty
  have hbatches := hshown.batchIds_eq hnamed
  have hcard : (batchIds c.published queryId).card
      = dataCount 1 ((resultsRoute client).routed (s.published intake.receiver)) := by
    rw [hbatches, Multiset.toFinset_card_of_nodup hids, dataCount_one]
    rfl
  -- the client was sent an end, and has written as many results as that announces
  obtain ⟨count, hcount, hle⟩ := hagrees.recorded.finalized queryId hfinal
  have hanonymous : c.client.anonymous queryId = 0 := by
    refine anonymous_eq_zero hfrom fun records messageId hmem ↦ ?_
    obtain ⟨m, hm, rfl⟩ := hshown.exists_header hmem rfl
    exact hnamed messageId (Header.mem_ids.mpr hm)
  rw [hagrees.recorded.received_eq, hanonymous, Nat.add_zero] at hle
  have hwritten := Finset.card_le_card (writtenIds_subset hfrom queryId)
  obtain ⟨m, hm, hshows⟩ := hshown.exists_header (hfrom.ends _ hcount) rfl
  have hannounced : count
      ≤ dataCount 1 ((resultsRoute client).routed (s.published intake.receiver)) := by
    omega
  have hserved := henough.served rfl hclean hm hshows hannounced
  have hcounted : Counted c.published queryId := by
    refine hshown.counted hids hnamed fun m' hm' eof hsome ↦ ?_
    rw [hserved.announced 0 m' hm' eof hsome, dataCount_one]
    rfl
  have hexact :
      (dataCount 1 ((resultsRoute client).routed (s.published intake.receiver)) : ℤ) = count :=
    (hserved.announced 0 m hm _ hshows).symm
  refine ⟨hserved, fun records messageId hmem ↦ mem_written_of_counted hfrom hcounted ?_ hmem⟩
  omega

/-- **A query that the client takes for finished is finished.** When it finalizes the query, however
often its sessions were lost once their uploads were acknowledged, then the pipeline has published
all results of the query, and the client has written them. -/
theorem finalized_complete {s : (d.acknowledging lib hash paymentFormatKey cfg client R).State}
    (hreach : (d.acknowledging lib hash paymentFormatKey cfg client R).Reachable s)
    (hquiet : ∀ m ∈ s.published .gateway, m.header.isCleanup = false)
    (hquery : intake.queryId = some disc)
    (hshown : Shown (conversation s).published queryId
      ((resultsRoute client).routed (s.published intake.receiver) 0))
    (hfinal : queryId ∈ (conversation s).client.finalized) :
    Served 1 ((resultsRoute client).routed (s.published intake.receiver)) ∧
      ∀ records messageId, .batch queryId records messageId ∈ (conversation s).published →
        (queryId, records, messageId) ∈ (conversation s).client.written := by
  obtain ⟨t, hreach', hpublished, -, hmatches⟩ := exists_pipeline hreach
  obtain ⟨⟨events, -, hrun⟩, -⟩ : HasForwarded router cfg client (conversation s) _ :=
    hmatches .gateway
  have hinvariant : (conversation s).ResultInvariant := hrun ▸ resultInvariant_run events
  rw [← hpublished] at hquiet hshown ⊢
  exact complete_of_finalized hreach' hquiet hquery hinvariant hshown hfinal

end Client

/-! ## A run -/

/-- One transaction. -/
def oneTransaction : ClientConfig where
  inputCsvTransactions := ["header", "day,1,a,2,b,,,7,US Dollar,Wire"]
  inputCsvAccounts := ["header"]
  transactionsBatchSize := 1
  accountsBatchSize := 1
  expectedQueryIds := [1]

/-- A library that reads every day as the first, and every amount as seven. -/
def lenientLibrary : Library ℚ := { plainLibrary with strptime _ _ := some 0, float _ := some 7 }

def smallPaymentPipeline : Dataflow.System Participant Intake Posted :=
  singleDeployment.pipeline lenientLibrary (fun _ ↦ 0) id oneTransaction "c"

def smallPayment : Transaction ℚ :=
  ⟨some 0, some "1", some "a", some "2", some "b", some 7, some "US Dollar", some "Wire"⟩

def smallPaymentResults : List Header :=
  [⟨"c:0", none⟩, ⟨finalEofId "c" ⟨1⟩ (some "1"), some ⟨1⟩⟩]

/-- The transaction has come through the field mapper and the amount filter. -/
theorem exists_smallPayment_run :
    ∃ s : smallPaymentPipeline.State, smallPaymentPipeline.Reachable s ∧
    (∀ m ∈ s.published .gateway, m.header.isCleanup = false) ∧
    Idle s .gateway ∧ Idle s (.stateless .transactionsFieldMapper) ∧
    Idle s (.stateless .amountFilter) ∧
    (∀ q, s.arrived (.stateless .transactionsFieldMapper) q
      = smallPaymentPipeline.routed s.published (.stateless .transactionsFieldMapper) q) ∧
    (∀ q, s.arrived (.stateless .amountFilter) q
      = smallPaymentPipeline.routed s.published (.stateless .amountFilter) q) ∧
    resultsOf s (.stateless .amountFilter) = smallPaymentResults := by
  have h₀ : smallPaymentPipeline.Reachable smallPaymentPipeline.initial := .refl
  -- the gateway
  have h₁ := h₀.works .gateway _ (1 : ℕ)
    (Or.inl ⟨.transactionBatch ["day,1,a,2,b,,,7,US Dollar,Wire"] 0, _, rfl, rfl, rfl, rfl⟩)
  have h₂ := h₁.works .gateway _ (2 : ℕ)
    (Or.inl ⟨.eofTransactions 1, _, rfl, InternalRouter.dispatch_eofTransactions _ _ _, rfl, rfl⟩)
  have h₃ := h₂.works .gateway _ (3 : ℕ)
    (Or.inl ⟨.eofAccounts 0, _, rfl, InternalRouter.dispatch_eofAccounts _ _ _, rfl, rfl⟩)
  -- the field mapper
  have h₄ := h₃.delivers (.stateless .transactionsFieldMapper) 0
    ⟨⟨.exchange exchangeRawData, some "transaction"⟩, ⟨"c:0", none⟩⟩ _ (by decide +kernel)
    (StatelessWorker.receives ⟨"c", "c:0", .data ["day,1,a,2,b,,,7,US Dollar,Wire"]⟩ rfl rfl)
  have h₅ := h₄.delivers (.stateless .transactionsFieldMapper) 0
    ⟨⟨.exchange exchangeRawData, some "transaction"⟩, ⟨eofId "c" none, some ⟨1⟩⟩⟩ _
    (by decide +kernel) (StatelessWorker.receives ⟨"c", eofId "c" none, .eof ⟨1⟩⟩ rfl rfl)
  have h₆ := h₅.works (.stateless .transactionsFieldMapper) _ _
    (@Replicas.Works.handles _ _ _ _ 0 [] _ _ _ (by decide) rfl rfl)
  have h₇ := h₆.works (.stateless .transactionsFieldMapper) _ _
    (@Replicas.Works.handles _ _ _ _ 0 [] _ _ _ (by decide) rfl rfl)
  -- the amount filter
  have h₈ := h₇.delivers (.stateless .amountFilter) 0
    ⟨⟨.exchange exchangeFilteredTransactions, some "usd"⟩, ⟨"c:0", none⟩⟩ _ (by decide +kernel)
    (StatelessWorker.receives ⟨"c", "c:0", .data [smallPayment]⟩ rfl rfl)
  have h₉ := h₈.delivers (.stateless .amountFilter) 0
    ⟨⟨.exchange exchangeFilteredTransactions, some "eof"⟩,
      ⟨finalEofId "c" ⟨1⟩ none, some ⟨1⟩⟩⟩ _ (by decide +kernel)
    (StatelessWorker.receives ⟨"c", finalEofId "c" ⟨1⟩ none, .eof ⟨1⟩⟩ rfl rfl)
  have h₁₀ := h₉.works (.stateless .amountFilter) _ _
    (@Replicas.Works.handles _ _ _ _ 0 [] _ _ _ (by decide) rfl rfl)
  have h₁₁ := h₁₀.works (.stateless .amountFilter) _ _
    (@Replicas.Works.handles _ _ _ _ 0 [] _ _ _ (by decide) rfl rfl)
  exact ⟨_, h₁₁, by decide +kernel, rfl, rfl, rfl, Nat.rec (by decide +kernel) fun _ _ ↦ rfl,
    Nat.rec (by decide +kernel) fun _ _ ↦ rfl, by decide +kernel⟩

/-- The result and the end of the query have different ids. -/
theorem results_unique_smallPayment : ∃ s : smallPaymentPipeline.State,
    resultsOf s (.stateless .amountFilter) = smallPaymentResults ∧
      (((resultsOf s (.stateless .amountFilter)).filter fun m ↦ !m.isCleanup).map
        Header.messageId).Nodup := by
  obtain ⟨s, hreach, -, -, -, -, -, -, hresults⟩ := exists_smallPayment_run
  exact ⟨s, hresults, results_unique hreach rfl⟩

/-- The end announces one result, and that is what there is. -/
theorem results_served_smallPayment : ∃ s : smallPaymentPipeline.State,
    resultsOf s (.stateless .amountFilter) = smallPaymentResults ∧
      Served 1 ((resultsRoute "c").routed (s.published (.stateless .amountFilter))) := by
  obtain ⟨s, hreach, hquiet, hgateway, hmapper, hfilter, hraw, hfiltered, hresults⟩ :=
    exists_smallPayment_run
  have hlines : AtRest s (.stateless .transactionsFieldMapper) :=
    .of_idle hgateway hraw fun g hg ↦ absurd hg g.receiver_ne_gateway
  have hrest : AtRest s (.stateless .amountFilter) := by
    refine .of_idle hmapper hfiltered fun g hg ↦ ?_
    rwa [Intake.eq_of_receiver_stateless hg]
  exact ⟨s, hresults, results_served hreach hquiet rfl hrest hfilter (by decide +kernel)⟩

/-- The same pipeline, and the client. -/
def smallPaymentSessions : Dataflow.System Participant Intake Posted :=
  singleDeployment.acknowledging lenientLibrary (fun _ ↦ 0) id oneTransaction "c" Unit

/-- The first session is lost when the result has been sent, before the client takes it. In the
second one the end of the query comes first. -/
def smallPaymentEvents : List (Conversation.Event Unit) :=
  [.publish (.batch 1 [()] "c:0"), .publish (.queryEnd 1 1), .orchestrate, .orchestrate,
    .deliver 0 0, .sends 0, .receiverFails, .orchestrate, .orchestrate, .senderTakes, .orchestrate,
    .requeue 0 0, .connect, .orchestrate, .orchestrate, .deliver 1 0, .deliver 1 0, .sends 1,
    .sends 1, .receives, .receives, .orchestrate, .orchestrate]

open Conversation in
/-- The pipeline has done the same, and the client has finalized the query. -/
theorem exists_finalized_run :
    ∃ s : smallPaymentSessions.State, smallPaymentSessions.Reachable s ∧
      (∀ m ∈ s.published .gateway, m.header.isCleanup = false) ∧
      (resultsRoute "c").routed (s.published (.stateless .amountFilter)) 0 = smallPaymentResults ∧
      (conversation s).published = [.batch 1 [()] "c:0", .queryEnd 1 1] ∧
        (conversation s).count = 2 ∧
      1 ∈ (conversation s).client.finalized := by
  obtain ⟨t, hreach, hquiet, hidle, -, -, -, -, hresults⟩ := exists_smallPayment_run
  obtain ⟨s, hreach', hpublished, -, hmatches⟩ := exists_acknowledging hreach Unit
  have hserves : Serves router oneTransaction "c" 3 (conversation s) := by
    have hgateway : t.state .gateway = (3 : ℕ) := hidle
    exact hgateway ▸ hmatches .gateway
  have hserved := hserves.2.resolve_right fun h ↦ absurd h.1 (by decide)
  have hruns : EventRuns.Runs (Conversation.step oneTransaction router "c") Acknowledged
      (conversation s) smallPaymentEvents := by
    rw [hserved]
    decide +kernel
  obtain ⟨s', hreach'', hconversation, hpublished'⟩ := exists_converses hreach' hruns rfl (by
    rw [hserved]
    decide +kernel)
  refine ⟨s', hreach'', ?_, ?_, ?_⟩
  · rw [hpublished', hpublished]
    exact hquiet
  · rw [hpublished', hpublished]
    exact hresults
  · rw [hconversation, hserved]
    exact ⟨rfl, rfl, by decide +kernel⟩

/-- The client has finalized the query, and has the result. -/
theorem finalized_complete_smallPayment :
    ∃ s : smallPaymentSessions.State,
      (resultsRoute "c").routed (s.published (.stateless .amountFilter)) 0 = smallPaymentResults ∧
      (conversation s).count = 2 ∧
      Served 1 ((resultsRoute "c").routed (s.published (.stateless .amountFilter))) ∧
      (1, [()], "c:0") ∈ (conversation s).client.written := by
  obtain ⟨s, hreach, hquiet, hresults, hpublished, hcount, hfinal⟩ := exists_finalized_run
  have hshown : Shown (conversation s).published 1
      ((resultsRoute "c").routed (s.published (.stateless .amountFilter)) 0) := by
    rw [hresults, hpublished]
    exact .cons rfl (.cons rfl .nil)
  have hquery : (Intake.stateless .amountFilter).queryId = some "1" := rfl
  obtain ⟨hserved, hwritten⟩ := finalized_complete hreach hquiet hquery hshown hfinal
  refine ⟨s, hresults, hcount, hserved, hwritten [()] "c:0" ?_⟩
  rw [hpublished]
  exact List.mem_cons_self

end MoneyLaundering
