import MoneyLaundering.Pipeline.Uniqueness
import MoneyLaundering.Ring.Announced

/-!
# The counts of the pipeline

The end of a stream announces how many messages the stream has. While no session is cleaned up, no
group of queues is ever sent more data messages than the end in it announces
(`announced_of_reachable`). When the pipeline has come to rest it has been sent just as many
(`served_of_rest`): nothing got lost, and no stage has stopped half way.
-/

namespace MoneyLaundering

open Deployment

/-! ## Counts -/

/-- How many data messages some queues were sent. -/
def dataCount (count : ℕ) (queues : ℕ → List Header) : ℕ :=
  ∑ q ∈ Finset.range count, (Header.ids (queues q)).card

/-- The ends in some queues announce at least the data messages that the queues were sent. -/
def Enough (count : ℕ) (queues : ℕ → List Header) : Prop :=
  ∀ q, ∀ m ∈ queues q, ∀ eof, m.eof = some eof → (dataCount count queues : ℤ) ≤ eof.messageCount

/-- Queues were sent an end, and the data messages it announces. -/
structure Served (count : ℕ) (queues : ℕ → List Header) : Prop where
  ends : ∑ q ∈ Finset.range count, Header.ends (queues q) = 1
  announced : ∀ q, ∀ m ∈ queues q, ∀ eof, m.eof = some eof →
    eof.messageCount = dataCount count queues

section Counts

variable {count : ℕ} {queues queues' : ℕ → List Header} {r : Route}

theorem Enough.of_sublist (h : Enough count queues) (hsub : ∀ q, (queues' q).Sublist (queues q)) :
    Enough count queues' := by
  intro q m hm eof hsome
  have hle : dataCount count queues' ≤ dataCount count queues :=
    Finset.sum_le_sum fun q _ ↦ Multiset.card_le_card (Header.ids_le (hsub q))
  have hannounced := h q m ((hsub q).subset hm) eof hsome
  omega

theorem dataCount_routed_le (l : List Posted) (count : ℕ) :
    dataCount count (r.routed l)
      ≤ (l.map fun m ↦ r.copies m.address • Header.ids [m.header]).sum.card := by
  rw [dataCount, ← Multiset.card_sum]
  exact Multiset.card_le_card (Route.sum_ids_routed_le l count)

theorem dataCount_routed (l : List Posted) :
    dataCount r.queues.length (r.routed l)
      = (l.map fun m ↦ r.copies m.address • Header.ids [m.header]).sum.card := by
  rw [dataCount, ← Multiset.card_sum, ← Route.sum_routed fun m ↦ Header.ids [m]]
  simp only [← Header.ids_eq_sum]

theorem ends_routed (l : List Posted) :
    ∑ q ∈ Finset.range r.queues.length, Header.ends (r.routed l q)
      = (l.map fun m ↦ r.copies m.address • Header.ends [m.header]).sum := by
  rw [← Route.sum_routed fun m ↦ Header.ends [m]]
  simp only [← Header.ends_eq_sum]

theorem exists_of_mem_routed {l : List Posted} {q : ℕ} {m : Header} (hm : m ∈ r.routed l q) :
    ∃ m' ∈ l, m'.header = m := by
  obtain ⟨m', hm', heq⟩ := List.mem_map.mp hm
  exact ⟨m', List.mem_of_mem_filter hm', heq⟩

theorem mem_zero_of_mem_routed (hr : r.queues.length = 1) {l : List Posted} {q : ℕ} {m : Header}
    (hm : m ∈ r.routed l q) : m ∈ r.routed l 0 := by
  by_cases hq : q = 0
  · rwa [← hq]
  · rw [Route.routed_of_le (hr.trans_le (Nat.one_le_iff_ne_zero.mpr hq))] at hm
    exact absurd hm List.not_mem_nil

/-- An end of a stream is no cleanup, when it announces messages. -/
theorem Enough.isEnd (h : Enough count queues) {q : ℕ} {m : Header} (hm : m ∈ queues q) {eof : EOF}
    (hsome : m.eof = some eof) : m.isEnd = true := by
  have hannounced := h q m hm eof hsome
  have hcleanup : isCleanupEof eof = false := decide_eq_false (by
    rw [cleanupExpectedCount]
    omega)
  rw [Header.isEnd, hsome]
  simp only [hcleanup, Bool.not_false]

end Counts

/-! ## The gateway -/

section Gateway

variable {router : InternalRouter} {exchange : String} {cfg : ClientConfig} {client : ClientId}
  {file : RawFile} {published : List Posted} {k : ℕ}

theorem dataCount_one (queues : ℕ → List Header) :
    dataCount 1 queues = (Header.ids (queues 0)).card := by
  rw [dataCount, Finset.sum_range_one]

theorem Forwarded.enough (h : Forwarded router exchange cfg client file published k)
    (hquiet : ∀ m ∈ published, m.header.isCleanup = false) :
    Enough 1 ((router.route exchange file).routed published) := by
  intro q m hm eof hsome
  have hmem := mem_zero_of_mem_routed rfl hm
  rw [dataCount_one]
  rw [h.headers hquiet] at hmem ⊢
  have hsub : (headersOf client file ((messagesToSend cfg).1.take k)).Sublist
      (headersOf client file (messagesToSend cfg).1) :=
    ((List.take_sublist k _).filter _).map _
  rcases exists_headersOf cfg client file with hnil | ⟨count, hheaders⟩
  · rw [hnil] at hsub
    rw [List.sublist_nil.mp hsub] at hmem
    exact absurd hmem List.not_mem_nil
  · rw [hheaders] at hsub
    obtain rfl := eof_of_mem_fileHeaders (hsub.subset hmem) hsome
    have hle := Multiset.card_le_card (Header.ids_le hsub)
    rw [ids_fileHeaders, Multiset.coe_card, List.length_map, List.length_range] at hle
    exact Int.ofNat_le.mpr hle

/-- A file that was forwarded completely. -/
theorem Forwarded.served (h : Forwarded router exchange cfg client file published k)
    (hquiet : ∀ m ∈ published, m.header.isCleanup = false) (hk : k = (messagesToSend cfg).1.length)
    (hfile : headersOf client file (messagesToSend cfg).1 ≠ []) :
    Served 1 ((router.route exchange file).routed published) := by
  obtain ⟨count, hheaders⟩ := (exists_headersOf cfg client file).resolve_left hfile
  have hall := h.headers hquiet
  rw [hk, List.take_length, hheaders] at hall
  refine ⟨?_, fun q m hm eof hsome ↦ ?_⟩
  · rw [Finset.sum_range_one, hall, ends_fileHeaders]
  · have hmem := mem_zero_of_mem_routed rfl hm
    rw [hall] at hmem
    rw [dataCount_one, hall, eof_of_mem_fileHeaders hmem hsome, ids_fileHeaders, Multiset.coe_card,
      List.length_map, List.length_range]

end Gateway

/-! ## A stateless stage -/

section Stateless

variable {A : Type} {w : StatelessWorker A} {client : ClientId} {disc : Option String} {r : Route}
  {queues : ℕ → List Header} {published : List Posted} {s : Replicas w}

theorem RouteTally.enough (h : RouteTally client disc r (queues 0) published s)
    (henough : Enough 1 queues) (count : ℕ) : Enough count (r.routed published) := by
  intro q m hm eof hsome
  obtain ⟨m', hm', rfl⟩ := exists_of_mem_routed hm
  obtain ⟨-, m'', hm'', hsome'⟩ := h.eofs m' hm' eof hsome
  have hannounced := henough 0 m'' hm'' eof hsome'
  have hle := (dataCount_routed_le published count).trans
    (Multiset.card_le_card ((Multiset.le_add_right _ _).trans h.ids.le))
  rw [dataCount_one] at hannounced
  omega

/-- Nothing is left in the queue. -/
theorem RouteTally.served (h : RouteTally client disc r (queues 0) published s)
    (hserved : Served 1 queues) (hqueue : s.queue = []) :
    Served r.queues.length (r.routed published) := by
  have hids := h.ids
  have hends := h.ends
  rw [hqueue, List.map_nil, Header.ids_nil, add_zero] at hids
  rw [hqueue, List.map_nil, Header.ends_nil, Nat.add_zero] at hends
  refine ⟨?_, fun q m hm eof hsome ↦ ?_⟩
  · rw [ends_routed, hends, ← hserved.ends, Finset.sum_range_one]
  · obtain ⟨m', hm', rfl⟩ := exists_of_mem_routed hm
    obtain ⟨-, m'', hm'', hsome'⟩ := h.eofs m' hm' eof hsome
    rw [hserved.announced 0 m'' hm'' eof hsome', dataCount_routed, hids, dataCount_one]

end Stateless

/-! ## A stateful stage -/

section Stateful

variable {w : StatefulWorker} {n : ℕ} {client : ClientId} {disc : Option String} {outlet : Outlet}
  {source : NodeId → ℕ} {queues : ℕ → List Header} {inbox : NodeId → List (MainMessage w)}
  {count : ℕ} {r : Route} {published : List Posted} {s : Stage w}

theorem Filled.mem (h : Filled n source queues inbox) {i : NodeId} {message : MainMessage w}
    (hmem : message ∈ inbox i) : message.header ∈ queues (source i) :=
  (h.rows i).subset (List.mem_map_of_mem hmem)

theorem Filled.fits (h : Filled n source queues inbox) (hclean : CleanQueues client disc queues)
    (henough : Enough count queues) (hcount : ∀ i < n, source i < count) : Fits n inbox where
  outside := h.outside
  starts := h.undelivered_le hclean
  announced i mid marker hmem := by
    have hannounced := henough _ _ (h.mem hmem) marker rfl
    rwa [h.dataIdsOf_eq hcount, Multiset.card_sum]
  ne i mid marker hmem mid' payload hmem' heq :=
    (hclean.data _ _ (h.mem hmem') rfl).ne_eofId _
      (heq.trans (hclean.eofs _ _ (h.mem hmem) marker rfl))

theorem card_ids_posted {α : Type} (outlet : Outlet) (net : Network α) :
    (Header.ids ((net.posted outlet).map Posted.header)).card = net.messages.length := by
  rw [Header.ids, Multiset.coe_card, Network.posted, List.map_filterMap, List.filterMap_filterMap,
    Network.messages, List.length_filterMap_eq_countP, List.length_filterMap_eq_countP]
  refine List.countP_congr fun p _ ↦ ?_
  obtain ⟨i, o⟩ := p
  cases o <;> simp [Outlet.posted, Output.toMessage, Header.dataId]

/-- What a group of queues is sent, when no message is copied. -/
theorem sum_copies_le (hcopies : ∀ address, r.copies address ≤ 1) (l : List Posted) :
    (l.map fun m ↦ r.copies m.address • Header.ids [m.header]).sum
      ≤ Header.ids (l.map Posted.header) := by
  rw [Header.ids_eq_sum (l.map Posted.header), List.map_map]
  refine List.sum_le_sum fun m _ ↦ ?_
  refine (nsmul_le_nsmul_left zero_le (hcopies m.address)).trans ?_
  rw [one_nsmul]
  exact le_rfl

/-- The same, when every message is for the group. -/
theorem sum_copies_eq {l : List Posted} (hcopies : ∀ m ∈ l, r.copies m.address = 1) :
    (l.map fun m ↦ r.copies m.address • Header.ids [m.header]).sum
      = Header.ids (l.map Posted.header) ∧
      (l.map fun m ↦ r.copies m.address • Header.ends [m.header]).sum
        = Header.ends (l.map Posted.header) := by
  constructor
  · rw [Header.ids_eq_sum (l.map Posted.header), List.map_map]
    refine congrArg List.sum (List.map_congr_left fun m hm ↦ ?_)
    rw [hcopies m hm, one_nsmul]
    rfl
  · rw [Header.ends_eq_sum (l.map Posted.header), List.map_map]
    refine congrArg List.sum (List.map_congr_left fun m hm ↦ ?_)
    rw [hcopies m hm, one_nsmul]
    rfl

/-- The end that a stage publishes announces what the stage has published. -/
theorem Behaved.announces (h : Behaved n client outlet source queues published s)
    (hclean : CleanQueues client disc queues) (henough : Enough count queues)
    (hcount : ∀ i < n, source i < count) {m : Posted} (hm : m ∈ published) {eof : EOF}
    (hsome : m.header.eof = some eof) : eof.messageCount = s.net.messages.length := by
  obtain ⟨⟨inbox, hfilled, hreach⟩, rfl⟩ := h
  rcases mem_posted hm with ⟨p, -, heq⟩ | ⟨i, mid, eof', hmem, heq⟩
  · rw [heq] at hsome
    exact absurd hsome (Option.some_ne_none _).symm
  · rw [heq] at hsome
    obtain rfl := Option.some.inj hsome
    exact (hfilled.fits hclean henough hcount).announces_of_reachable hreach hmem

theorem Behaved.enough (h : Behaved n client outlet source queues published s)
    (hclean : CleanQueues client disc queues) (henough : Enough count queues)
    (hcount : ∀ i < n, source i < count) (hcopies : ∀ address, r.copies address ≤ 1) (count' : ℕ) :
    Enough count' (r.routed published) := by
  intro q m hm eof hsome
  obtain ⟨m', hm', rfl⟩ := exists_of_mem_routed hm
  rw [h.announces hclean henough hcount hm' hsome]
  have hle := (dataCount_routed_le published count').trans
    (Multiset.card_le_card (sum_copies_le hcopies published))
  rw [h.published_eq, card_ids_posted, ← h.published_eq] at hle
  exact Int.ofNat_le.mpr hle

/-- **A stage that is at rest has served the next one.** -/
theorem Behaved.served (h : Behaved n client outlet source queues published s)
    (hclean : CleanQueues client disc queues) (hserved : Served count queues)
    (hcount : ∀ i < n, source i < count) (hcopies : ∀ m ∈ published, r.copies m.address = 1)
    (hinbox : ∀ i, s.inbox i = []) (hcontrol : ∀ i, s.net.control i = []) :
    Served r.queues.length (r.routed published) := by
  have henough : Enough count queues :=
    fun q m hm eof hsome ↦ (hserved.announced q m hm eof hsome).ge
  obtain ⟨hids, hends⟩ := sum_copies_eq hcopies
  refine ⟨?_, fun q m hm eof hsome ↦ ?_⟩
  · obtain ⟨⟨inbox, hfilled, hreach⟩, hpublished⟩ := h
    have hfits := hfilled.fits hclean henough hcount
    -- the end of the input has been in one of the queues
    have hinput := hserved.ends
    rw [← hfilled.ends count hcount] at hinput
    obtain ⟨j, -, hj⟩ := Finset.exists_ne_zero_of_sum_ne_zero (hinput ▸ one_ne_zero)
    obtain ⟨m, hm, hend⟩ := List.countP_pos_iff.mp (Nat.pos_of_ne_zero hj)
    obtain ⟨message, hmessage, rfl⟩ := List.mem_map.mp hm
    cases message with
    | data mid payload => exact absurd hend Bool.false_ne_true
    | eof mid marker =>
      obtain ⟨i, mid', eof, hmem⟩ := hfits.ended_of_reachable hreach hmessage hinbox hcontrol
      have hle : s.net.ends ≤ 1 := (Stage.turns_of_reachable hfits.starts hreach).turn.ends_le
      have hannounces := hfits.announces_of_reachable hreach hmem
      have hpos : 0 < s.net.ends := by
        refine List.countP_pos_iff.mpr ⟨_, hmem, ?_⟩
        rw [Output.isEnd, isCleanupEof, cleanupExpectedCount]
        simp only [Bool.not_eq_true', decide_eq_false_iff_not]
        omega
      rw [ends_routed, hends, hpublished, ends_posted]
      omega
  · obtain ⟨m', hm', rfl⟩ := exists_of_mem_routed hm
    rw [h.announces hclean henough hcount hm' hsome, dataCount_routed, hids, h.published_eq,
      card_ids_posted]

end Stateful

/-! ## Where the stateful workers publish -/

section Addresses

variable {A : Type} {hash : String → ℕ} {d : Deployment A} {client : ClientId} {intake : Intake}

theorem copies_nodes (middleware : Middleware) {routingKeyFor : ℕ → String}
    (hinj : Function.Injective routingKeyFor) {node nodeCount : ℕ} (h : node < nodeCount) :
    (nodes middleware routingKeyFor nodeCount).copies
      ⟨middleware, some (routingKeyFor node)⟩ = 1 := by
  have hkey : (List.range nodeCount).countP
        (fun other ↦ some (routingKeyFor node) ∈ [some (routingKeyFor other)])
      = (List.range nodeCount).count node := by
    refine List.countP_congr fun other _ ↦ ?_
    simp only [List.mem_singleton, Option.some_inj, decide_eq_true_eq, beq_iff_eq]
    exact ⟨fun heq ↦ (hinj heq).symm, fun heq ↦ by rw [heq]⟩
  rw [Route.copies_of_eq rfl, nodes, List.countP_map]
  exact hkey.trans (List.count_eq_one_of_mem List.nodup_range (List.mem_range.mpr h))

theorem copies_nodeQueue (middleware : Middleware) (key : Option String) {node nodeCount : ℕ}
    (h : 0 < (nodeQueue middleware key node nodeCount).queues.length) :
    (nodeQueue middleware key node nodeCount).copies ⟨middleware, key⟩ = 1 := by
  have hqueues : (nodeQueue middleware key node nodeCount).queues = [[key]] := by
    rw [nodeQueue] at h ⊢
    by_cases hnode : node < nodeCount
    · exact if_pos hnode
    · simp [hnode] at h
  rw [Route.copies_of_eq rfl, hqueues]
  simp

/-- What a stateful worker publishes for another worker is put in one queue. -/
theorem copies_of_key {kind : StatefulKind} (hintake : intake.sender = .stateful kind)
    (hqueues : 0 < (d.route hash intake).queues.length) {key : Option String}
    (hkey : kind.Key (d.config kind) client key) :
    (d.route hash intake).copies ⟨(outlet client kind).middleware, key⟩ = 1 := by
  have hnat : Function.Injective (toString : ℕ → String) := fun _ _ ↦ natToString_injective
  cases intake with
  | stateless kind' => cases kind' <;> cases hintake
  | stateful kind' =>
    cases kind' with
    | bankMaxAggregator => cases hintake
    | bidirectionalSharder => cases hintake
    | paymentFormatAggregator => cases hintake
    | lowAmountAggregator => cases hintake
    | bankMaxReducer =>
      cases hintake
      obtain ⟨shard, hshard, rfl⟩ := hkey
      exact copies_nodes _ hnat hshard
    | paymentFormatReducer =>
      cases hintake
      obtain ⟨shard, hshard, rfl⟩ := hkey
      exact copies_nodes _ hnat hshard
    | lowAmountReducer =>
      cases hintake
      obtain rfl := hkey
      exact Route.copies_direct _
    | accountFrequencyFilter =>
      cases hintake
      obtain ⟨shard, hshard, rfl⟩ := hkey
      exact copies_nodes _ ringRoutingKey_injective hshard
    | pathMapper =>
      cases hintake
      obtain ⟨shard, hshard, rfl⟩ := hkey
      exact copies_nodes _ ringRoutingKey_injective hshard
    | pathFrequencyFilter =>
      cases hintake
      obtain ⟨shard, hshard, rfl⟩ := hkey
      exact copies_nodes _ ringRoutingKey_injective hshard
    | duplicateAccountFilter =>
      cases hintake
      obtain ⟨shard, hshard, rfl⟩ := hkey
      exact copies_nodes _ ringRoutingKey_injective hshard
  | sideInput kind' =>
    cases kind' with
    | anomalyFilter => cases hintake
    | bankMapper =>
      cases hintake
      obtain ⟨shard, hshard, rfl⟩ := hkey
      exact copies_nodes _ hnat hshard
  | sideTable kind' node =>
    cases kind' with
    | bankMapper => cases hintake
    | anomalyFilter =>
      cases hintake
      obtain rfl := hkey
      exact copies_nodeQueue _ _ hqueues

theorem nextReplicas_pos (d : Deployment A) (kind : StatefulKind) : 0 < d.nextReplicas kind := by
  cases kind with
  | bidirectionalSharder => exact d.accountFrequencyFilters.pos
  | accountFrequencyFilter => exact d.pathMappers.pos
  | pathMapper => exact d.pathFrequencyFilters.pos
  | pathFrequencyFilter => exact d.duplicateAccountFilters.pos
  | bankMaxAggregator => exact d.bankMaxReducers.pos
  | bankMaxReducer => exact d.bankMappers.pos
  | paymentFormatAggregator => exact d.paymentFormatReducers.pos
  | _ => exact Nat.one_pos

/-- The ends of streams are addressed to the first replica, or to all. -/
theorem key_eof (d : Deployment A) (client : ClientId) (kind : StatefulKind) :
    kind.Key (d.config kind) client (outlet client kind).eofKey := by
  cases kind with
  | bidirectionalSharder => exact ⟨0, d.accountFrequencyFilters.pos, rfl⟩
  | accountFrequencyFilter => exact ⟨0, d.pathMappers.pos, rfl⟩
  | pathMapper => exact ⟨0, d.pathFrequencyFilters.pos, rfl⟩
  | pathFrequencyFilter => exact ⟨0, d.duplicateAccountFilters.pos, rfl⟩
  | bankMaxAggregator => exact ⟨0, d.bankMaxReducers.pos, rfl⟩
  | bankMaxReducer => exact ⟨0, d.bankMappers.pos, rfl⟩
  | paymentFormatAggregator => exact ⟨0, d.paymentFormatReducers.pos, rfl⟩
  | lowAmountAggregator => rfl
  | paymentFormatReducer => rfl
  | duplicateAccountFilter => rfl
  | lowAmountReducer => rfl

/-- Everything that has left a stage went to an address of its kind. -/
theorem exists_key [Amount A] {paymentFormatKey : String → String} {kind : StatefulKind} {n : ℕ}
    {queues : ℕ → List Header} {published : List Posted}
    {s : Stage (d.statefulWorker hash paymentFormatKey kind)}
    (h : Behaved n client (outlet client kind) (source kind) queues published s) {m : Posted}
    (hm : m ∈ published) : ∃ key, kind.Key (d.config kind) client key ∧
      m.address = ⟨(outlet client kind).middleware, key⟩ := by
  obtain ⟨⟨inbox, -, hreach⟩, rfl⟩ := h
  have hsends : (d.statefulWorker hash paymentFormatKey kind).SendsTo client fun key ↦
      kind.Key (d.config kind) client key :=
    StatefulKind.sendsTo (nextReplicas_pos d kind) (nextReplicas_pos d kind) kind
  have hkeys := Stage.key_of_reachable hsends hreach
  obtain ⟨⟨i, o⟩, hmem, hposted⟩ := List.mem_filterMap.mp hm
  cases o with
  | data message =>
    obtain rfl := Option.some.inj hposted
    exact ⟨_, hkeys (i, message) (Network.mem_messages.mpr hmem), rfl⟩
  | ring node token => exact absurd hposted (Option.some_ne_none _).symm
  | finalEof messageId eof =>
    obtain rfl := Option.some.inj hposted
    exact ⟨_, key_eof d client kind, rfl⟩

end Addresses

/-! ## The pipeline -/

section Pipeline

variable {A : Type} [Amount A] [Mul A] [OfScientific A] [LE A] [DecidableLE A] {lib : Library A}
  {hash : String → ℕ} {paymentFormatKey : String → String} {d : Deployment A} {cfg : ClientConfig}
  {client : ClientId} {s : (d.pipeline lib hash paymentFormatKey cfg client).State}

omit [Amount A] [Mul A] [OfScientific A] [LE A] [DecidableLE A] in
theorem length_route_stateless (kind : StatelessKind) :
    (d.route hash (.stateless kind)).queues.length = 1 := by
  cases kind <;> rfl

omit [Amount A] [Mul A] [OfScientific A] [LE A] [DecidableLE A] in
theorem source_lt {kind : StatefulKind} {i : NodeId} (hi : i < d.statefulReplicas kind) :
    source kind i < (d.route hash (.stateful kind)).queues.length := by
  have hlength : ∀ {n : ℕ} {f : ℕ → List (Option String)}, i < n →
      i < ((List.range n).map f).length := fun h ↦ by rwa [List.length_map, List.length_range]
  cases kind with
  | lowAmountReducer => exact Nat.one_pos
  | _ => exact hlength hi

omit [LE A] [DecidableLE A] in
theorem enough_stateless {kind : StatelessKind} {n : ℕ} {arrived : Intake → ℕ → List Posted}
    {published : List Posted} {intake : Intake}
    {s : ((d.statelessWorker lib hash kind).component n client (Intake.stateless kind)).State}
    (h : ((d.statelessWorker lib hash kind).component n client (Intake.stateless kind)).History
      arrived published s)
    (henough : Enough 1 fun q ↦ (arrived (.stateless kind) q).map Posted.header)
    (hintake : intake.sender = .stateless kind) (count : ℕ) :
    Enough count ((d.route hash intake).routed published) := by
  rcases exists_tally h hintake with htally | hnone
  · exact htally.enough henough count
  · intro q m hm
    rw [Route.routed_of_le (by rw [hnone]; exact Nat.zero_le q)] at hm
    exact absurd hm List.not_mem_nil

theorem enough_of_reachable (hreach : (d.pipeline lib hash paymentFormatKey cfg client).Reachable s)
    (hquiet : ∀ m ∈ s.published .gateway, m.header.isCleanup = false) (intake : Intake) :
    Enough (d.route hash intake).queues.length fun q ↦ (s.arrived intake q).map Posted.header := by
  refine Dataflow.System.holds_of_local Participant.rank Intake.rank_sender_lt
    (fun intake queues ↦ Enough (d.route hash intake).queues.length fun q ↦
      (queues q).map Posted.header)
    (fun _ _ _ hinitial h ↦ h.of_sublist fun q ↦ (hinitial q).sublist.map Posted.header)
    (Dataflow.System.local_of_reachable hreach)
    (fun c arrived hhistory hsees henough intake hintake ↦ ?_) intake
  cases c with
  | gateway =>
    obtain ⟨-, hroute⟩ := @route_of_gateway A hash d intake hintake
    change Enough (d.route hash intake).queues.length
      ((d.route hash intake).routed (s.published .gateway))
    rw [hroute]
    have hforwarded := forwarded_of_history (by decide) hhistory intake.file
    exact hforwarded.enough hquiet
  | stateless kind =>
    have hinput := henough (.stateless kind) rfl
    rw [length_route_stateless, ← hsees (.stateless kind) rfl] at hinput
    exact enough_stateless hhistory hinput hintake _
  | stateful kind =>
    have hinput := henough (.stateful kind) rfl
    have htidy := tidy_of_reachable hreach (.stateful kind)
    rw [← hsees (.stateful kind) rfl] at hinput htidy
    obtain ⟨-, -, -, hkeyed⟩ := @keyed_route A hash d intake kind hintake
    exact (behaved_of_history hhistory).enough htidy.clean hinput (fun _ hi ↦ source_lt hi)
      hkeyed.copies_le _
  | sideInput kind => exact absurd hintake (sender_ne_sideInput intake kind)

/-- **No stage is sent more than was announced to it**, while no session is cleaned up. -/
theorem announced_of_reachable
    (hreach : (d.pipeline lib hash paymentFormatKey cfg client).Reachable s)
    (hquiet : ∀ m ∈ s.published .gateway, m.header.isCleanup = false) (intake : Intake) {q : ℕ}
    {m : Posted} (hm : m ∈ s.arrived intake q) {eof : EOF} (hsome : m.header.eof = some eof) :
    dataCount (d.route hash intake).queues.length (fun q ↦ (s.arrived intake q).map Posted.header)
      ≤ eof.messageCount :=
  enough_of_reachable hreach hquiet intake q m.header (List.mem_map_of_mem hm) eof hsome

/-! ## At rest -/

/-- The replicas of a stateless worker. -/
def replicasOf (s : (d.pipeline lib hash paymentFormatKey cfg client).State)
    (kind : StatelessKind) :
    Replicas (d.statelessWorker lib hash kind) := s.state (.stateless kind)

/-- The client was read completely, or the workers have nothing left to take. -/
def Idle (s : (d.pipeline lib hash paymentFormatKey cfg client).State) : Participant → Prop
  | .gateway => s.state .gateway = ((messagesToSend cfg).1.length : ℕ)
  | .stateless kind => (replicasOf s kind).queue = []
  | .stateful kind => ∀ i, (stageOf s kind).inbox i = [] ∧ (stageOf s kind).net.control i = []
  | .sideInput kind => ∀ i, (replicaOf s kind i).inbox = []

theorem Intake.receiver_ne_gateway (intake : Intake) : intake.receiver ≠ .gateway := by
  cases intake <;> exact Participant.noConfusion

theorem Intake.eq_of_receiver_stateless {intake : Intake} {kind : StatelessKind}
    (h : intake.receiver = .stateless kind) : intake = .stateless kind := by
  cases intake <;> cases h
  rfl

theorem Intake.eq_of_receiver_stateful {intake : Intake} {kind : StatefulKind}
    (h : intake.receiver = .stateful kind) : intake = .stateful kind := by
  cases intake <;> cases h
  rfl

/-- The receiver of the one intake is the sender of the other. -/
def Intake.Feeds (g g' : Intake) : Prop := g.receiver = g'.sender

/-- On the way to an intake all workers are idle, and all messages are in their queues. -/
def AtRest (s : (d.pipeline lib hash paymentFormatKey cfg client).State) (intake : Intake) : Prop :=
  ∀ g, Relation.ReflTransGen Intake.Feeds g intake → Idle s g.sender ∧
    ∀ q, s.arrived g q
      = (d.pipeline lib hash paymentFormatKey cfg client).routed s.published g q

theorem AtRest.of_feeds {g g' : Intake} (h : AtRest s g') (hfeeds : g.receiver = g'.sender) :
    AtRest s g := fun g'' hg'' ↦ h g'' (hg''.tail hfeeds)

/-- An intake is at rest when its sender is idle, and all that the sender is fed from is at rest. -/
theorem AtRest.of_idle {intake : Intake} (hidle : Idle s intake.sender)
    (harrived : ∀ q, s.arrived intake q
      = (d.pipeline lib hash paymentFormatKey cfg client).routed s.published intake q)
    (hbefore : ∀ g, g.receiver = intake.sender → AtRest s g) : AtRest s intake := by
  intro g hg
  rcases hg.cases_tail with rfl | ⟨g', hg', hfeeds⟩
  · exact ⟨hidle, harrived⟩
  · exact hbefore g' hfeeds g hg'

omit [Amount A] [Mul A] [OfScientific A] [LE A] [DecidableLE A] in
theorem length_route_stateful (kind : StatefulKind) :
    0 < (d.route hash (.stateful kind)).queues.length :=
  (Nat.zero_le _).trans_lt (source_lt (d.statefulReplicas kind).pos)

theorem served_of_atRest (hreach : (d.pipeline lib hash paymentFormatKey cfg client).Reachable s)
    (hquiet : ∀ m ∈ s.published .gateway, m.header.isCleanup = false) (intake : Intake)
    (hrest : AtRest s intake) (hfile : headersOf client intake.file (messagesToSend cfg).1 ≠ [])
    (hqueues : 0 < (d.route hash intake).queues.length) :
    Served (d.route hash intake).queues.length fun q ↦ (s.arrived intake q).map Posted.header := by
  have hlocal := Dataflow.System.local_of_reachable hreach
  refine @Dataflow.System.forall_of_rank _ _ _ (d.pipeline lib hash paymentFormatKey cfg client)
    Participant.rank Intake.rank_sender_lt
    (fun intake ↦ AtRest s intake → headersOf client intake.file (messagesToSend cfg).1 ≠ [] →
      0 < (d.route hash intake).queues.length →
      Served (d.route hash intake).queues.length fun q ↦ (s.arrived intake q).map Posted.header)
    (fun intake ih hrest hfile hqueues ↦ ?_) intake hrest hfile hqueues
  obtain ⟨hidle, hdelivered⟩ := hrest intake .refl
  have hrouted : (fun q ↦ (s.arrived intake q).map Posted.header)
      = (d.route hash intake).routed (s.published intake.sender) := by
    funext q
    rw [hdelivered]
    rfl
  rw [hrouted]
  cases hintake : intake.sender with
  | gateway =>
    obtain ⟨arrived, hhistory, -⟩ := hlocal.exists_history .gateway
    have hforwarded := forwarded_of_history (by decide) hhistory intake.file
    rw [hintake] at hidle
    rw [(@route_of_gateway A hash d intake hintake).2]
    exact hforwarded.served hquiet hidle hfile
  | stateless kind =>
    -- what comes in is complete by induction, and the worker passes on as many messages
    obtain ⟨arrived, hhistory, hsees⟩ := hlocal.exists_history (.stateless kind)
    have hinput := ih (.stateless kind) hintake.symm (hrest.of_feeds hintake.symm)
      (Intake.file_of_stateless hintake ▸ hfile) (by rw [length_route_stateless]; exact Nat.one_pos)
    rw [length_route_stateless, ← hsees (.stateless kind) rfl] at hinput
    rw [hintake] at hidle
    rcases exists_tally hhistory hintake with htally | hnone
    · exact htally.served hinput hidle
    · rw [hnone] at hqueues
      exact absurd hqueues (lt_irrefl 0)
  | stateful kind =>
    obtain ⟨arrived, hhistory, hsees⟩ := hlocal.exists_history (.stateful kind)
    have hinput := ih (.stateful kind) hintake.symm (hrest.of_feeds hintake.symm)
      (Intake.file_of_stateful hintake ▸ hfile) (length_route_stateful kind)
    have htidy := tidy_of_reachable hreach (.stateful kind)
    rw [← hsees (.stateful kind) rfl] at hinput htidy
    rw [hintake] at hidle
    have hbehaved := behaved_of_history hhistory
    refine hbehaved.served htidy.clean hinput (fun _ hi ↦ source_lt hi) (fun m hm ↦ ?_)
      (fun i ↦ (hidle i).1) fun i ↦ (hidle i).2
    -- every flushed message has the key of one of the queues
    obtain ⟨key, hkey, haddress⟩ := exists_key hbehaved hm
    rw [haddress]
    exact copies_of_key hintake hqueues hkey
  | sideInput kind => exact absurd hintake (sender_ne_sideInput intake kind)

/-- **What is at rest is complete.** When everything on the way to an intake is at rest, and the
messages come from a file that the client sends, then the intake was sent one end, and as many data
messages as it announces. -/
theorem served_of_rest (hreach : (d.pipeline lib hash paymentFormatKey cfg client).Reachable s)
    (hquiet : ∀ m ∈ s.published .gateway, m.header.isCleanup = false) (intake : Intake)
    (hrest : AtRest s intake) (hfile : headersOf client intake.file (messagesToSend cfg).1 ≠ [])
    (hqueues : 0 < (d.route hash intake).queues.length) :
    (∑ q ∈ Finset.range (d.route hash intake).queues.length,
      Header.ends ((s.arrived intake q).map Posted.header)) = 1 ∧
    ∀ q, ∀ m ∈ s.arrived intake q, ∀ eof, m.header.eof = some eof → eof.messageCount
      = dataCount (d.route hash intake).queues.length
        fun q ↦ (s.arrived intake q).map Posted.header := by
  have hserved := served_of_atRest hreach hquiet intake hrest hfile hqueues
  exact ⟨hserved.ends, fun q m hm ↦ hserved.announced q m.header (List.mem_map_of_mem hm)⟩

end Pipeline

/-! ## A run -/

/-- The end of the accounts, as the gateway and the field mapper publish it. -/
def accountsEnd : Posted :=
  ⟨⟨.exchange exchangeRawData, some "account"⟩, ⟨eofId "c" none, some ⟨2⟩⟩⟩

def banksEnd : Posted :=
  ⟨⟨.exchange exchangeBankCatalog, some "bank_mapper_side_input_node_0"⟩,
    ⟨finalEofId "c" ⟨2⟩ none, some ⟨2⟩⟩⟩

/-- The accounts have been read, and all that is known of them has come to the bank mapper. -/
theorem exists_accounts_run : ∃ s : catalogPipeline.State, catalogPipeline.Reachable s ∧
    (∀ m ∈ s.published .gateway, m.header.isCleanup = false) ∧
    Idle s .gateway ∧ Idle s (.stateless .accountsFieldMapper) ∧
    (∀ q, s.arrived (.stateless .accountsFieldMapper) q
      = catalogPipeline.routed s.published (.stateless .accountsFieldMapper) q) ∧
    (∀ q, s.arrived (.sideTable .bankMapper 0) q
      = catalogPipeline.routed s.published (.sideTable .bankMapper 0) q) ∧
    s.arrived (.sideTable .bankMapper 0) 0 = [bankBatch "c:0", bankBatch "c:1", banksEnd] := by
  have h₀ : catalogPipeline.Reachable catalogPipeline.initial := .refl
  -- the gateway
  have h₁ := h₀.works .gateway _ (1 : ℕ)
    (Or.inl ⟨_, _, rfl, InternalRouter.dispatch_eofTransactions _ _ _, rfl, rfl⟩)
  have h₂ := h₁.works .gateway _ (2 : ℕ)
    (Or.inl ⟨.accountBatch ["North,1"] 0, _, rfl, rfl, rfl, rfl⟩)
  have h₃ := h₂.works .gateway _ (3 : ℕ)
    (Or.inl ⟨.accountBatch ["South,2"] 1, _, rfl, rfl, rfl, rfl⟩)
  have h₄ := h₃.works .gateway _ (4 : ℕ)
    (Or.inl ⟨.eofAccounts 2, _, rfl, InternalRouter.dispatch_eofAccounts _ _ _, rfl, rfl⟩)
  -- the field mapper
  have h₅ := h₄.delivers (.stateless .accountsFieldMapper) 0 (accountBatch "c:0") _
    (by decide +kernel) (StatelessWorker.receives ⟨"c", "c:0", .data ["North,1"]⟩ rfl rfl)
  have h₆ := h₅.delivers (.stateless .accountsFieldMapper) 0 (accountBatch "c:1") _
    (by decide +kernel) (StatelessWorker.receives ⟨"c", "c:1", .data ["South,2"]⟩ rfl rfl)
  have h₇ := h₆.delivers (.stateless .accountsFieldMapper) 0 accountsEnd _
    (by decide +kernel) (StatelessWorker.receives ⟨"c", eofId "c" none, .eof ⟨2⟩⟩ rfl rfl)
  have h₈ := h₇.works (.stateless .accountsFieldMapper) _ _
    (@Replicas.Works.handles _ _ _ _ 0 [] _ _ _ (by decide) rfl rfl)
  have h₉ := h₈.works (.stateless .accountsFieldMapper) _ _
    (@Replicas.Works.handles _ _ _ _ 0 [] _ _ _ (by decide) rfl rfl)
  have h₁₀ := h₉.works (.stateless .accountsFieldMapper) _ _
    (@Replicas.Works.handles _ _ _ _ 0 [] _ _ _ (by decide) rfl rfl)
  -- the bank mapper
  have h₁₁ := h₁₀.delivers (.sideTable .bankMapper 0) 0 (bankBatch "c:0") _ (by decide +kernel)
    (SideInputWorker.receives 0 (.side (.batch "c:0" [⟨"1", "North"⟩])) (by decide) rfl rfl)
  have h₁₂ := h₁₁.delivers (.sideTable .bankMapper 0) 0 (bankBatch "c:1") _ (by decide +kernel)
    (SideInputWorker.receives 0 (.side (.batch "c:1" [⟨"2", "South"⟩])) (by decide) rfl rfl)
  have h₁₃ := h₁₂.delivers (.sideTable .bankMapper 0) 0 banksEnd _ (by decide +kernel)
    (SideInputWorker.receives 0 (.side (.eof (finalEofId "c" ⟨2⟩ none) ⟨2⟩)) (by decide) rfl rfl)
  exact ⟨_, h₁₃, by decide +kernel, rfl, rfl,
    Nat.rec (by decide +kernel) fun _ _ ↦ rfl, Nat.rec (by decide +kernel) fun _ _ ↦ rfl, rfl⟩

theorem exists_rest_run : ∃ s : catalogPipeline.State, catalogPipeline.Reachable s ∧
    (∀ m ∈ s.published .gateway, m.header.isCleanup = false) ∧
    AtRest s (.sideTable .bankMapper 0) ∧
    s.arrived (.sideTable .bankMapper 0) 0 = [bankBatch "c:0", bankBatch "c:1", banksEnd] := by
  obtain ⟨s, hreach, hquiet, hgateway, hmapper, haccounts, hbanks, harrived⟩ := exists_accounts_run
  have hraw : AtRest s (.stateless .accountsFieldMapper) :=
    .of_idle hgateway haccounts fun g hg ↦ absurd hg g.receiver_ne_gateway
  refine ⟨s, hreach, hquiet, .of_idle hmapper hbanks fun g hg ↦ ?_, harrived⟩
  rwa [Intake.eq_of_receiver_stateless hg]

/-- The bank mapper has been sent two batches, of the two that were announced. -/
theorem announced_of_reachable_catalog : ∃ s : catalogPipeline.State,
    s.arrived (.sideTable .bankMapper 0) 0 = [bankBatch "c:0", bankBatch "c:1", banksEnd] ∧
      (dataCount 1 fun q ↦ (s.arrived (.sideTable .bankMapper 0) q).map Posted.header : ℤ) ≤ 2 := by
  obtain ⟨s, hreach, hquiet, -, harrived⟩ := exists_rest_run
  have hend : banksEnd ∈ s.arrived (.sideTable .bankMapper 0) 0 := by
    rw [harrived]
    exact List.mem_of_mem_getLast? rfl
  exact ⟨s, harrived, announced_of_reachable hreach hquiet (.sideTable .bankMapper 0) hend rfl⟩

/-- And nothing is missing. -/
theorem served_of_rest_catalog : ∃ s : catalogPipeline.State,
    s.arrived (.sideTable .bankMapper 0) 0 = [bankBatch "c:0", bankBatch "c:1", banksEnd] ∧
      2 = dataCount 1 fun q ↦ (s.arrived (.sideTable .bankMapper 0) q).map Posted.header := by
  obtain ⟨s, hreach, hquiet, hrest, harrived⟩ := exists_rest_run
  have hend : banksEnd ∈ s.arrived (.sideTable .bankMapper 0) 0 := by
    rw [harrived]
    exact List.mem_of_mem_getLast? rfl
  obtain ⟨-, hannounced⟩ := served_of_rest hreach hquiet (.sideTable .bankMapper 0) hrest
    (by decide +kernel) (by decide)
  exact ⟨s, harrived, Int.ofNat.inj (hannounced 0 banksEnd hend ⟨2⟩ rfl)⟩

end MoneyLaundering
