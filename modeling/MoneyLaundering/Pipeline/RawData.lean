import MoneyLaundering.Client.Stream
import MoneyLaundering.Collections.Dataflow
import MoneyLaundering.Pipeline.Headers

/-!
# The raw data

The gateway forwards the batches of a client to two queues, one for each of the files
(`gateway/internal/internal_router.py`), and may send a cleanup to both at any time. A batch has the
number of its line block in its id, so that the queues are clean if each batch is forwarded once. A
client whose session is lost before an upload is acknowledged sends that again, and the gateway
forwards it again; such runs are left out.
-/

namespace MoneyLaundering

/-- The two files of a client. -/
inductive RawFile
  | transactions
  | accounts
  deriving DecidableEq

namespace Upload

def file : Upload → RawFile
  | .transactionBatch _ _ | .eofTransactions _ => .transactions
  | .accountBatch _ _ | .eofAccounts _ => .accounts

/-- The header under which an upload is forwarded. -/
def header (client : ClientId) : Upload → Header
  | .transactionBatch _ batchIndex | .accountBatch _ batchIndex =>
    ⟨rootId client (toString batchIndex), none⟩
  | .eofTransactions count | .eofAccounts count => ⟨eofId client none, some ⟨count⟩⟩

end Upload

/-- A message on the exchange of the raw data, as it is published. -/
def RawMessage.posted (exchange : String) (m : RawMessage) : Posted where
  address := ⟨.exchange exchange, some m.routingKey⟩
  header :=
    { messageId := m.messageId
      eof :=
        match m.payload with
        | .rawTransactionBatch _ => none
        | .rawAccountBatch _ => none
        | .eof eof => some eof }

namespace InternalRouter

def routingKey (router : InternalRouter) : RawFile → String
  | .transactions => router.transactionRk
  | .accounts => router.accountRk

/-- `forward_cleanup_eof` -/
def forwardCleanupEof (router : InternalRouter) (client : ClientId) : List RawMessage :=
  let eof : EOF := ⟨cleanupExpectedCount⟩
  let messageId := finalEofId client eof none
  [⟨client, .eof eof, router.transactionRk, messageId⟩,
    ⟨client, .eof eof, router.accountRk, messageId⟩]

/-- The gateway as a component that has forwarded a number of the uploads of a client. Each upload
is forwarded once: no session of the client is lost before its uploads are acknowledged. -/
def component {G : Type} (router : InternalRouter) (exchange : String) (cfg : ClientConfig)
    (client : ClientId) : Dataflow.Component G Posted where
  State := ℕ
  initial := 0
  Receives _ _ _ _ _ := False
  Works k more k' :=
    (∃ u m, (messagesToSend cfg).1[k]? = some u ∧ router.dispatch client u = some m ∧
      more = [m.posted exchange] ∧ k' = k + 1) ∨
    (more = (router.forwardCleanupEof client).map (RawMessage.posted exchange) ∧ k' = k)

end InternalRouter

/-! ## The uploads of a file -/

section Uploads

variable {client : ClientId} {cfg : ClientConfig} {file : RawFile}

/-- The headers of the uploads of a file. -/
def headersOf (client : ClientId) (file : RawFile) (uploads : List Upload) : List Header :=
  (uploads.filter fun u ↦ u.file = file).map (Upload.header client)

/-- The headers of a file with a number of batches. -/
def fileHeaders (client : ClientId) (count : ℕ) : List Header :=
  (List.range count).map (fun i ↦ ⟨rootId client (toString i), none⟩)
    ++ [⟨eofId client none, some ⟨count⟩⟩]

theorem headersOf_numbered {batchOf : List String → ℕ → Upload} {eofOf : ℕ → Upload}
    (hbatch : ∀ records i, (batchOf records i).file = file ∧
      (batchOf records i).header client = ⟨rootId client (toString i), none⟩)
    (heof : ∀ count, (eofOf count).file = file ∧
      (eofOf count).header client = ⟨eofId client none, some ⟨count⟩⟩)
    (batches : List (List String)) :
    headersOf client file (numbered batchOf eofOf batches) = fileHeaders client batches.length := by
  have hall : ∀ u ∈ numbered batchOf eofOf batches, decide (u.file = file) = true := by
    intro u hu
    rcases mem_numbered.mp hu with ⟨records, i, -, rfl⟩ | rfl
    · exact decide_eq_true (hbatch records i).1
    · exact decide_eq_true (heof _).1
  have hsnd : batches.zipIdx.map (fun p ↦ (batchOf p.1 p.2).header client)
      = (batches.zipIdx.map Prod.snd).map fun i ↦ ⟨rootId client (toString i), none⟩ := by
    rw [List.map_map]
    exact List.map_congr_left fun p _ ↦ (hbatch p.1 p.2).2
  rw [headersOf, List.filter_eq_self.mpr hall, numbered, List.map_append, List.map_map,
    List.map_singleton, (heof _).2, fileHeaders]
  congr 1
  refine hsnd.trans ?_
  rw [List.zipIdx_map_snd, ← List.range_eq_range']

theorem headersOf_numbered_of_ne {batchOf : List String → ℕ → Upload} {eofOf : ℕ → Upload}
    (hbatch : ∀ records i, (batchOf records i).file ≠ file)
    (heof : ∀ count, (eofOf count).file ≠ file) (batches : List (List String)) :
    headersOf client file (numbered batchOf eofOf batches) = [] := by
  rw [headersOf, List.filter_eq_nil_iff.mpr, List.map_nil]
  intro u hu
  rcases mem_numbered.mp hu with ⟨records, i, -, rfl⟩ | rfl
  · exact fun h ↦ hbatch records i (of_decide_eq_true h)
  · exact fun h ↦ heof _ (of_decide_eq_true h)

/-- A client yields the batches of a file in order, and then its end. -/
theorem exists_headersOf (cfg : ClientConfig) (client : ClientId) (file : RawFile) :
    headersOf client file (messagesToSend cfg).1 = [] ∨
      ∃ count, headersOf client file (messagesToSend cfg).1 = fileHeaders client count := by
  have hsplit : ∀ us us', headersOf client file (us ++ us')
      = headersOf client file us ++ headersOf client file us' := fun us us' ↦ by
    rw [headersOf, List.filter_append, List.map_append]
    rfl
  have htransactions (batches : List (List String)) :
      headersOf client .transactions (numbered .transactionBatch .eofTransactions batches)
        = fileHeaders client batches.length :=
    @headersOf_numbered client .transactions .transactionBatch .eofTransactions
      (fun _ _ ↦ ⟨rfl, rfl⟩) (fun _ ↦ ⟨rfl, rfl⟩) batches
  have haccounts (batches : List (List String)) :
      headersOf client .accounts (numbered .accountBatch .eofAccounts batches)
        = fileHeaders client batches.length :=
    @headersOf_numbered client .accounts .accountBatch .eofAccounts
      (fun _ _ ↦ ⟨rfl, rfl⟩) (fun _ ↦ ⟨rfl, rfl⟩) batches
  have hnone (batches : List (List String)) :
      headersOf client .accounts (numbered .transactionBatch .eofTransactions batches) = [] :=
    headersOf_numbered_of_ne (fun _ _ ↦ by simp [Upload.file])
      (fun _ ↦ by simp [Upload.file]) batches
  have hnone' (batches : List (List String)) :
      headersOf client .transactions (numbered .accountBatch .eofAccounts batches) = [] :=
    headersOf_numbered_of_ne (fun _ _ ↦ by simp [Upload.file])
      (fun _ ↦ by simp [Upload.file]) batches
  rw [messagesToSend]
  split
  · exact Or.inl rfl
  · split
    · cases file with
      | transactions => exact Or.inr ⟨_, htransactions _⟩
      | accounts => exact Or.inl (hnone _)
    · rw [hsplit]
      cases file with
      | transactions => exact Or.inr ⟨_, by rw [htransactions, hnone', List.append_nil]⟩
      | accounts => exact Or.inr ⟨_, by rw [haccounts, hnone, List.nil_append]⟩

theorem ids_fileHeaders (client : ClientId) (count : ℕ) : Header.ids (fileHeaders client count)
    = ((List.range count).map fun i ↦ rootId client (toString i) : List MessageId) := by
  have hdata : (Header.dataId ∘ fun i : ℕ ↦ (⟨rootId client (toString i), none⟩ : Header))
      = fun i ↦ some (rootId client (toString i)) := rfl
  rw [fileHeaders, Header.ids_append, Header.ids, List.filterMap_map, hdata, List.filterMap_eq_map']
  exact add_zero _

theorem nodup_ids_fileHeaders (client : ClientId) (count : ℕ) :
    (Header.ids (fileHeaders client count)).Nodup := by
  rw [ids_fileHeaders, Multiset.coe_nodup]
  exact List.nodup_range.map fun i j h ↦ natToString_injective (rootId_injective h)

theorem ends_fileHeaders (client : ClientId) (count : ℕ) :
    Header.ends (fileHeaders client count) = 1 := by
  have hdata :
      Header.ends ((List.range count).map fun i ↦ ⟨rootId client (toString i), none⟩) = 0 := by
    rw [Header.ends, List.countP_map, List.countP_eq_zero]
    exact fun _ _ ↦ Bool.false_ne_true
  have hcleanup : isCleanupEof ⟨count⟩ = false := decide_eq_false (by
    simp only [cleanupExpectedCount]
    omega)
  have hend : (⟨eofId client none, some ⟨count⟩⟩ : Header).isEnd = true := by
    simp only [Header.isEnd, hcleanup, Bool.not_false]
  rw [fileHeaders, Header.ends_append, hdata, Nat.zero_add, Header.ends, List.countP_singleton,
    if_pos hend]

theorem eof_of_mem_fileHeaders {count : ℕ} {m : Header}
    (hm : m ∈ fileHeaders client count) {eof : EOF}
    (hsome : m.eof = some eof) : eof = ⟨count⟩ := by
  rcases List.mem_append.mp hm with hm | hm
  · obtain ⟨i, -, rfl⟩ := List.mem_map.mp hm
    exact absurd hsome (Option.some_ne_none _).symm
  · rw [List.mem_singleton.mp hm] at hsome
    exact (Option.some.inj hsome).symm

/-- The uploads of a file have different ids, and the file has one end. -/
theorem clean_headersOf (cfg : ClientConfig) (client : ClientId) (file : RawFile) :
    (Header.ids (headersOf client file (messagesToSend cfg).1)).Nodup ∧
      Header.ends (headersOf client file (messagesToSend cfg).1) ≤ 1 := by
  rcases exists_headersOf cfg client file with hnil | ⟨count, hheaders⟩
  · rw [hnil]
    exact ⟨Multiset.nodup_zero, Nat.zero_le 1⟩
  · rw [hheaders]
    exact ⟨nodup_ids_fileHeaders client count, (ends_fileHeaders client count).le⟩

end Uploads

/-! ## What the gateway publishes -/

section Gateway

variable {G : Type} {router : InternalRouter} {exchange : String} {cfg : ClientConfig}
  {client : ClientId} {file : RawFile} {arrived : G → ℕ → List Posted} {published : List Posted}

/-- An upload is forwarded under its header, with the routing key of its file. -/
theorem posted_of_dispatch (exchange : String) {u : Upload} {m : RawMessage}
    (h : router.dispatch client u = some m) : m.posted exchange
      = ⟨⟨.exchange exchange, some (router.routingKey u.file)⟩, u.header client⟩ := by
  cases u with
  | transactionBatch records batchIndex =>
    obtain rfl := Option.some.inj h
    rfl
  | accountBatch records batchIndex =>
    obtain rfl := Option.some.inj h
    rfl
  | eofTransactions count =>
    rw [InternalRouter.dispatch_eofTransactions] at h
    obtain rfl := Option.some.inj h
    rfl
  | eofAccounts count =>
    rw [InternalRouter.dispatch_eofAccounts] at h
    obtain rfl := Option.some.inj h
    rfl

/-- The queue of a file. -/
def InternalRouter.route (router : InternalRouter) (exchange : String) (file : RawFile) : Route :=
  .single (.exchange exchange) (router.routingKey file)

theorem routed_upload (hkeys : router.transactionRk ≠ router.accountRk) (u : Upload) :
    (router.route exchange file).routed
        [⟨⟨.exchange exchange, some (router.routingKey u.file)⟩, u.header client⟩] 0
      = headersOf client file [u] := by
  have hkey : router.routingKey u.file = router.routingKey file ↔ u.file = file := by
    cases u.file <;> cases file <;> simp [InternalRouter.routingKey, hkeys, hkeys.symm]
  have haccepts : (router.route exchange file).accepts 0
      ⟨⟨.exchange exchange, some (router.routingKey u.file)⟩, u.header client⟩
        = decide (u.file = file) := by
    simp [Route.accepts, InternalRouter.route, Route.single, hkey]
  rw [Route.routed, headersOf, List.filter_singleton, List.filter_singleton, haccepts]
  cases decide (u.file = file) <;> rfl

/-- What has been forwarded of a file, among the cleanups. -/
structure Forwarded (router : InternalRouter) (exchange : String) (cfg : ClientConfig)
    (client : ClientId) (file : RawFile) (published : List Posted) (k : ℕ) : Prop where
  ids : Header.ids ((router.route exchange file).routed published 0)
    = Header.ids (headersOf client file ((messagesToSend cfg).1.take k))
  ends : Header.ends ((router.route exchange file).routed published 0)
    = Header.ends (headersOf client file ((messagesToSend cfg).1.take k))
  data : ∀ m ∈ published, m.header.eof = none → ∃ i : ℕ,
    m.header.messageId = rootId client (toString i)
  eofs : ∀ m ∈ published, ∀ eof, m.header.eof = some eof →
    m.header.messageId = finalEofId client eof none
  headers : (∀ m ∈ published, m.header.isCleanup = false) →
    (router.route exchange file).routed published 0
      = headersOf client file ((messagesToSend cfg).1.take k)

theorem routed_cleanup (router : InternalRouter) (exchange : String) (client : ClientId)
    (file : RawFile) (q : ℕ) :
    Header.ids ((router.route exchange file).routed
        ((router.forwardCleanupEof client).map (RawMessage.posted exchange)) q) = 0 ∧
      Header.ends ((router.route exchange file).routed
        ((router.forwardCleanupEof client).map (RawMessage.posted exchange)) q) = 0 := by
  have hall : ∀ m ∈ (router.route exchange file).routed
      ((router.forwardCleanupEof client).map (RawMessage.posted exchange)) q,
      m.eof = some ⟨cleanupExpectedCount⟩ := by
    intro m hm
    obtain ⟨m', hm', rfl⟩ := List.mem_map.mp hm
    have hmem := List.mem_of_mem_filter hm'
    simp only [InternalRouter.forwardCleanupEof, List.map_cons, List.map_nil, List.mem_cons,
      List.not_mem_nil, or_false] at hmem
    rcases hmem with rfl | rfl <;> rfl
  constructor
  · rw [Header.ids, List.filterMap_eq_nil_iff.mpr fun m hm ↦ by rw [Header.dataId, hall m hm]]
    rfl
  · rw [Header.ends, List.countP_eq_zero]
    intro m hm
    rw [Header.isEnd, hall m hm]
    exact Bool.false_ne_true

/-- The next upload is forwarded. -/
theorem Forwarded.upload {k : ℕ} (h : Forwarded router exchange cfg client file published k)
    (hkeys : router.transactionRk ≠ router.accountRk) {u : Upload} {m : RawMessage}
    (hu : (messagesToSend cfg).1[k]? = some u) (hdispatch : router.dispatch client u = some m) :
    Forwarded router exchange cfg client file (published ++ [m.posted exchange]) (k + 1) := by
  have hposted := posted_of_dispatch exchange hdispatch
  have hsplit : headersOf client file ((messagesToSend cfg).1.take (k + 1))
      = headersOf client file ((messagesToSend cfg).1.take k) ++ headersOf client file [u] := by
    rw [List.take_add_one, hu, headersOf, List.filter_append, List.map_append]
    rfl
  refine ⟨?_, ?_, fun m' hm' hnone ↦ ?_, fun m' hm' eof hsome ↦ ?_, fun hquiet ↦ ?_⟩
  · rw [hsplit, Route.routed_append, Header.ids_append, Header.ids_append, h.ids, hposted,
      routed_upload hkeys]
  · rw [hsplit, Route.routed_append, Header.ends_append, Header.ends_append, h.ends, hposted,
      routed_upload hkeys]
  · rcases List.mem_append.mp hm' with hm' | hm'
    · exact h.data m' hm' hnone
    · rw [List.mem_singleton.mp hm', hposted] at hnone ⊢
      cases u with
      | transactionBatch records batchIndex => exact ⟨batchIndex, rfl⟩
      | accountBatch records batchIndex => exact ⟨batchIndex, rfl⟩
      | eofTransactions count => exact absurd hnone (Option.some_ne_none _)
      | eofAccounts count => exact absurd hnone (Option.some_ne_none _)
  · rcases List.mem_append.mp hm' with hm' | hm'
    · exact h.eofs m' hm' eof hsome
    · rw [List.mem_singleton.mp hm', hposted] at hsome ⊢
      have hcount : ∀ count : ℕ, isCleanupEof ⟨count⟩ = false := fun count ↦
        decide_eq_false (by simp only [cleanupExpectedCount]; omega)
      cases u with
      | transactionBatch records batchIndex => exact absurd hsome (Option.some_ne_none _).symm
      | accountBatch records batchIndex => exact absurd hsome (Option.some_ne_none _).symm
      | eofTransactions count =>
        obtain rfl := Option.some.inj hsome
        exact (finalEofId_eq (hcount count) none).symm
      | eofAccounts count =>
        obtain rfl := Option.some.inj hsome
        exact (finalEofId_eq (hcount count) none).symm
  · rw [hsplit, Route.routed_append, h.headers fun m' hm' ↦ hquiet m' (List.mem_append_left _ hm'),
      hposted, routed_upload hkeys]

/-- A cleanup counts for nothing. -/
theorem Forwarded.cleanup {k : ℕ} (h : Forwarded router exchange cfg client file published k) :
    Forwarded router exchange cfg client file
      (published ++ (router.forwardCleanupEof client).map (RawMessage.posted exchange)) k := by
  obtain ⟨hids, hends⟩ := routed_cleanup router exchange client file 0
  have hmore : ∀ m ∈ (router.forwardCleanupEof client).map (RawMessage.posted exchange),
      m.header = ⟨finalEofId client ⟨cleanupExpectedCount⟩ none, some ⟨cleanupExpectedCount⟩⟩ := by
    intro m hm
    simp only [InternalRouter.forwardCleanupEof, List.map_cons, List.map_nil, List.mem_cons,
      List.not_mem_nil, or_false] at hm
    rcases hm with rfl | rfl <;> rfl
  refine ⟨?_, ?_, fun m hm hnone ↦ ?_, fun m hm eof hsome ↦ ?_, fun hquiet ↦ ?_⟩
  · rw [Route.routed_append, Header.ids_append, h.ids, hids, add_zero]
  · rw [Route.routed_append, Header.ends_append, h.ends, hends, Nat.add_zero]
  · rcases List.mem_append.mp hm with hm | hm
    · exact h.data m hm hnone
    · rw [hmore m hm] at hnone
      exact absurd hnone (Option.some_ne_none _)
  · rcases List.mem_append.mp hm with hm | hm
    · exact h.eofs m hm eof hsome
    · rw [hmore m hm] at hsome ⊢
      obtain rfl := Option.some.inj hsome
      rfl
  · have hfirst := hquiet _ (List.mem_append_right _ (List.mem_map_of_mem List.mem_cons_self))
    have hcleanup : isCleanupEof ⟨cleanupExpectedCount⟩ = true := rfl
    exact absurd (hcleanup.symm.trans hfirst) Bool.noConfusion

theorem forwarded_of_history (hkeys : router.transactionRk ≠ router.accountRk) [DecidableEq G]
    {k : (router.component exchange cfg client : Dataflow.Component G Posted).State}
    (h : (router.component exchange cfg client).History arrived published k) (file : RawFile) :
    Forwarded router exchange cfg client file published k := by
  induction h with
  | initial => exact ⟨rfl, rfl, fun m hm ↦ absurd hm List.not_mem_nil,
      fun m hm ↦ absurd hm List.not_mem_nil, fun _ ↦ rfl⟩
  | receives _ hreceives ih => exact hreceives.elim
  | works _ hworks ih =>
    rcases hworks with ⟨u, m, hu, hdispatch, rfl, rfl⟩ | ⟨rfl, rfl⟩
    · exact ih.upload hkeys hu hdispatch
    · exact ih.cleanup

/-- **The queues of the raw data are clean.** -/
theorem Forwarded.clean {k : ℕ} (h : Forwarded router exchange cfg client file published k) :
    CleanQueues client none ((router.route exchange file).routed published) := by
  obtain ⟨hids, hends⟩ := clean_headersOf cfg client file
  have hsub : (headersOf client file ((messagesToSend cfg).1.take k)).Sublist
      (headersOf client file (messagesToSend cfg).1) :=
    ((List.take_sublist k _).filter _).map _
  have hzero : ∀ q, q ≠ 0 → (router.route exchange file).routed published q = [] := fun q hq ↦
    Route.routed_of_le (Nat.one_le_iff_ne_zero.mpr hq) published
  refine ⟨fun q ↦ ?_, fun count ↦ ?_, fun q m hm hnone ↦ ?_, fun q m hm eof hsome ↦ ?_⟩
  · by_cases hq : q = 0
    · rw [hq, h.ids]
      exact Multiset.nodup_of_le (Header.ids_le hsub) hids
    · rw [hzero q hq]
      exact Multiset.nodup_zero
  · refine le_trans (Finset.sum_le_sum_of_ne_zero (t := {0}) fun q _ hq ↦ ?_) ?_
    · refine Finset.mem_singleton.mpr (not_not.mp fun hne ↦ hq ?_)
      rw [hzero q hne, Header.ends_nil]
    · rw [Finset.sum_singleton, h.ends]
      exact hsub.countP_le.trans hends
  · obtain ⟨m', hm', rfl⟩ := List.mem_map.mp hm
    obtain ⟨i, hi⟩ := h.data m' (List.mem_of_mem_filter hm') hnone
    rw [hi]
    exact isDataId_rootId client i
  · obtain ⟨m', hm', rfl⟩ := List.mem_map.mp hm
    exact h.eofs m' (List.mem_of_mem_filter hm') eof hsome

end Gateway

end MoneyLaundering
