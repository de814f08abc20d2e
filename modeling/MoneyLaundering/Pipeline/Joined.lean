import MoneyLaundering.Joins.Completed
import MoneyLaundering.Pipeline.Results
import MoneyLaundering.Queries.Anomalies

/-!
# The joins of the pipeline

A worker with a side input is sent the batches of its main channel while the side input is still
coming. In the pipeline the side input has an end, which announces how many batches it has, and all
of them have different ids, so that what holds of a join in isolation (`Joins.Once`) holds here: a
replica that is idle, and whose side input is complete, has answered each main batch once, from the
whole of the side input (`joined_of_rest`).
-/

namespace MoneyLaundering

open Dataflow Deployment SideInputWorker

variable {w : SideInputWorker} {client : ClientId}

/-! ## One replica -/

namespace SideDelivery

def mainBatch : SideDelivery w → Option (MessageId × w.Payload)
  | .main (.data messageId payload) => some (messageId, payload)
  | .main (.eof _ _) => none
  | .side _ => none

def sideBatch : SideDelivery w → Option (MessageId × w.SidePayload)
  | .main _ => none
  | .side (.batch messageId payload) => some (messageId, payload)
  | .side (.eof _ _) => none

theorem mainBatch_eq_some {d : SideDelivery w} {b : MessageId × w.Payload}
    (h : d.mainBatch = some b) : d = .main (.data b.1 b.2) := by
  cases d with
  | main message =>
    cases message with
    | data messageId payload =>
      obtain rfl := Option.some.inj h
      rfl
    | eof messageId eof => exact absurd h (Option.some_ne_none _).symm
  | side message => exact absurd h (Option.some_ne_none _).symm

theorem sideBatch_eq_some {d : SideDelivery w} {b : MessageId × w.SidePayload}
    (h : d.sideBatch = some b) : d = .side (.batch b.1 b.2) := by
  cases d with
  | main message => exact absurd h (Option.some_ne_none _).symm
  | side message =>
    cases message with
    | batch messageId payload =>
      obtain rfl := Option.some.inj h
      rfl
    | eof messageId eof => exact absurd h (Option.some_ne_none _).symm

end SideDelivery

theorem ids_mainBatch (taken : List (SideDelivery w)) :
    ((taken.filterMap SideDelivery.mainBatch).map Prod.fst : Multiset MessageId)
      = Header.ids (headersOn .main taken) := by
  rw [Header.ids, headersOn, List.map_filterMap, List.filterMap_map,
    List.filterMap_filter]
  refine congrArg _ (List.filterMap_congr fun d _ ↦ ?_)
  cases d with
  | main message => cases message <;> rfl
  | side message => rfl

theorem ids_sideBatch (taken : List (SideDelivery w)) :
    ((taken.filterMap SideDelivery.sideBatch).map Prod.fst : Multiset MessageId)
      = Header.ids (headersOn .side taken) := by
  rw [Header.ids, headersOn, List.map_filterMap, List.filterMap_map,
    List.filterMap_filter]
  refine congrArg _ (List.filterMap_congr fun d _ ↦ ?_)
  cases d with
  | main message => rfl
  | side message => cases message <;> rfl

/-- A queue whose data messages have ids of their own, and which no session ends. -/
structure Stream (client : ClientId) (l : List Header) : Prop where
  ids : (Header.ids l).Nodup
  data : ∀ m ∈ l, m.eof = none → IsDataId client m.messageId
  eofs : ∀ m ∈ l, ∀ eof, m.eof = some eof →
    m.messageId = eofId client none ∧ isCleanupEof eof = false

/-- A queue that has been sent its end, and all that the end announces. -/
structure EndedStream (client : ClientId) (l : List Header) : Prop extends Stream client l where
  ended : ∃ m ∈ l, m.eof ≠ none
  announced : ∀ m ∈ l, ∀ eof, m.eof = some eof → eof.messageCount = (Header.ids l).card

/-- What a replica has made of what is in its queues. -/
structure Answers (client : ClientId) (mains sides : List Header) (s : SideProcess w) : Prop where
  /-- Each main batch was answered once. -/
  ids : (s.publishedIds client : Multiset MessageId) = Header.ids mains
  /-- A result is that of a batch, and of all that came on the side channel. -/
  joined : ∃ x : SideInputs w,
    (x.mains.map Prod.fst : Multiset MessageId) = Header.ids mains ∧
    (x.sides.map Prod.fst : Multiset MessageId) = Header.ids sides ∧
    (∀ b ∈ x.mains, (client, .main (.data b.1 b.2)) ∈ s.handled) ∧
    (∀ b ∈ x.sides, (client, .side (.batch b.1 b.2)) ∈ s.handled) ∧
    ∀ p ∈ s.published client,
      (∃ b ∈ x.mains, w.emit client p.flow.table b.1 b.2 = some p.message) ∧
      ∃ order, order.Perm x.sides ∧ w.tableOf order = some p.flow.table

section Replica

variable {arrived : Channel → List Header} {taken : List (SideDelivery w)} {s : SideReplica w}

theorem Took.mem_arrived (h : Took client arrived taken s) {d : SideDelivery w} (hd : d ∈ taken) :
    d.header ∈ arrived d.channel := by
  refine (h.arrived d.channel).subset (List.mem_map_of_mem (List.mem_filter.mpr ⟨?_, ?_⟩))
  · exact List.mem_append_right _ hd
  · exact decide_eq_true rfl

/-- A replica that has taken all that has arrived. -/
theorem Took.ids_eq (h : Took client arrived taken s) (hinbox : s.inbox = []) (ch : Channel) :
    Header.ids (headersOn ch taken) = Header.ids (arrived ch) := by
  have hperm := h.arrived ch
  rw [hinbox, List.nil_append] at hperm
  exact Header.ids_perm hperm

/-- All that a replica has taken it has handled, when it is idle. -/
theorem Took.handled (h : Took client arrived taken s) (hhandling : s.process.handling = none)
    {d : SideDelivery w} (hd : d ∈ taken) : (client, d) ∈ s.process.handled := by
  refine (h.has d hd).resolve_right ?_
  rintro ⟨h', hsome, -, -⟩
  exact absurd (hhandling.symm.trans hsome).symm (Option.some_ne_none _)

/-- The end of a stream is no data message of it. -/
theorem Stream.eofId_notMem {l : List Header} (h : Stream client l) :
    eofId client none ∉ Header.ids l := fun hid ↦
  (h.data _ (Header.mem_ids.mp hid) rfl).ne_eofId none rfl

/-- What a replica was sent, when it has taken all of it. -/
theorem Took.exists_inputs (h : Took client arrived taken s) (hmain : Stream client (arrived .main))
    (hside : EndedStream client (arrived .side)) (hinbox : s.inbox = []) :
    ∃ x : SideInputs w, x.mains = taken.filterMap SideDelivery.mainBatch ∧
      x.sides = taken.filterMap SideDelivery.sideBatch ∧ x.eofId = eofId client none ∧
      SideFeed.Sends (fun c d ↦ c = client ∧ d ∈ taken) client x := by
  have hmains := (ids_mainBatch taken).trans (h.ids_eq hinbox .main)
  have hsides := (ids_sideBatch taken).trans (h.ids_eq hinbox .side)
  have hnodup : ((taken.filterMap SideDelivery.mainBatch).map Prod.fst).Nodup :=
    Multiset.coe_nodup.mp (hmains ▸ hmain.ids)
  have hnodup' : (eofId client none ::
      (taken.filterMap SideDelivery.sideBatch).map Prod.fst).Nodup := by
    refine List.nodup_cons.mpr ⟨fun hmem ↦ hside.eofId_notMem ?_, ?_⟩
    · rw [← hsides]
      exact Multiset.mem_coe.mpr hmem
    · exact Multiset.coe_nodup.mp (hsides ▸ hside.ids)
  refine ⟨⟨_, _, _, hnodup, hnodup'⟩, rfl, rfl, rfl, fun mid payload hd ↦ ?_, fun mid eof hd ↦ ?_,
    fun mid payload hd ↦ ?_, fun mid eof hd ↦ ?_⟩
  · exact List.mem_filterMap.mpr ⟨_, hd.2, rfl⟩
  · obtain ⟨hid, hcleanup⟩ := hmain.eofs _ (h.mem_arrived hd.2) eof rfl
    refine ⟨fun hmem ↦ hmain.eofId_notMem ?_, hcleanup⟩
    rw [← hmains, ← hid]
    exact Multiset.mem_coe.mpr hmem
  · exact List.mem_filterMap.mpr ⟨_, hd.2, rfl⟩
  · refine ⟨(hside.eofs _ (h.mem_arrived hd.2) eof rfl).1, ?_⟩
    rw [hside.announced _ (h.mem_arrived hd.2) eof rfl, ← hsides, Multiset.coe_card,
      List.length_map]
    rfl

/-- The end of the side channel is among what a replica has taken. -/
theorem Took.exists_end (h : Took client arrived taken s)
    (hside : EndedStream client (arrived .side))
    (hinbox : s.inbox = []) : ∃ eof, .side (.eof (eofId client none) eof) ∈ taken := by
  obtain ⟨m, hm, hne⟩ := hside.ended
  have hperm := h.arrived .side
  rw [hinbox, List.nil_append] at hperm
  obtain ⟨d, hd, rfl⟩ := List.mem_map.mp (hperm.symm.subset hm)
  obtain ⟨hd, hchannel⟩ := List.mem_filter.mp hd
  cases d with
  | main message => exact absurd (of_decide_eq_true hchannel) Channel.noConfusion
  | side message =>
    cases message with
    | batch mid payload => exact absurd rfl hne
    | eof mid eof =>
      obtain ⟨rfl, -⟩ := hside.eofs _ (h.mem_arrived hd) eof rfl
      exact ⟨eof, hd⟩

theorem main_mem_taken {b : MessageId × w.Payload}
    (hb : b ∈ taken.filterMap SideDelivery.mainBatch) : .main (.data b.1 b.2) ∈ taken := by
  obtain ⟨d, hd, hbatch⟩ := List.mem_filterMap.mp hb
  rwa [← SideDelivery.mainBatch_eq_some hbatch]

theorem side_mem_taken {b : MessageId × w.SidePayload}
    (hb : b ∈ taken.filterMap SideDelivery.sideBatch) : .side (.batch b.1 b.2) ∈ taken := by
  obtain ⟨d, hd, hbatch⟩ := List.mem_filterMap.mp hb
  rwa [← SideDelivery.sideBatch_eq_some hbatch]

/-- The log of an idle replica has the whole of its side input. -/
theorem Took.allSide (h : Took client arrived taken s) {x : SideInputs w}
    (honce : (s.process.part client).Once x) (hside : EndedStream client (arrived .side))
    (hinbox : s.inbox = []) (hhandling : s.process.handling = none)
    (hsides : x.sides = taken.filterMap SideDelivery.sideBatch)
    (heofId : x.eofId = eofId client none) :
    x.AllSide (s.process.part client).records := by
  have hrecorded : ∀ d ∈ taken, d.RecordedIn (s.process.part client).records := fun d hd ↦
    honce.handled d (List.mem_filterMap.mpr ⟨_, h.handled hhandling hd, if_pos rfl⟩)
  intro mid hmid
  rcases List.mem_cons.mp hmid with rfl | hmid
  · obtain ⟨eof, hend⟩ := h.exists_end hside hinbox
    rw [heofId]
    exact hrecorded _ hend
  · obtain ⟨b, hb, rfl⟩ := List.mem_map.mp hmid
    exact hrecorded _ (side_mem_taken (hsides ▸ hb))

/-- An idle worker that has the whole side input of a client has drained its spill. -/
theorem drained_of_allSide {s : SideProcess w} {x : SideInputs w} (honce : (s.part client).Once x)
    (hall : x.AllSide (s.part client).records) (hhandling : s.handling = none)
    (hdraining : s.draining = none) : s.Drained client := by
  have hsignals : s.signals client = 1 := by
    refine (honce.complete hall).resolve_right ?_
    -- the signal would be an effect of the handler
    rintro ⟨delivery, heq⟩
    have hnone : (s.part client).handler = none := SideProcess.handler_eq_none fun h' hsome ↦
      absurd (hhandling.symm.trans hsome).symm (Option.some_ne_none _)
    exact absurd (hnone.symm.trans heq).symm (Option.some_ne_none _)
  refine ⟨hsignals ▸ Nat.one_pos, fun d hsome ↦ ?_⟩
  exact absurd (hdraining.symm.trans hsome).symm (Option.some_ne_none _)

/-- **A replica whose side input is complete answers all that it is sent.** -/
theorem Took.answers (h : Took client arrived taken s) (hforwards : w.Forwards)
    (hmain : Stream client (arrived .main)) (hside : EndedStream client (arrived .side))
    (hinbox : s.inbox = []) (hhandling : s.process.handling = none)
    (hdraining : s.process.draining = none) :
    Answers client (arrived .main) (arrived .side) s.process := by
  obtain ⟨x, hmains, hsides, heofId, hsends⟩ := h.exists_inputs hmain hside hinbox
  obtain ⟨hjoined, honce⟩ := SideProcess.once_of_reachable hforwards hsends h.reach
  have hmainIds : (x.mains.map Prod.fst : Multiset MessageId) = Header.ids (arrived .main) := by
    rw [hmains]
    exact (ids_mainBatch taken).trans (h.ids_eq hinbox .main)
  have hsideIds : (x.sides.map Prod.fst : Multiset MessageId) = Header.ids (arrived .side) := by
    rw [hsides]
    exact (ids_sideBatch taken).trans (h.ids_eq hinbox .side)
  have hmain' : ∀ b ∈ x.mains, (client, .main (.data b.1 b.2)) ∈ s.process.handled := fun b hb ↦
    h.handled hhandling (main_mem_taken (hmains ▸ hb))
  have hside' : ∀ b ∈ x.sides, (client, .side (.batch b.1 b.2)) ∈ s.process.handled := fun b hb ↦
    h.handled hhandling (side_mem_taken (hsides ▸ hb))
  have hall := h.allSide honce hside hinbox hhandling hsides heofId
  have hdrained := drained_of_allSide honce hall hhandling hdraining
  have hmem : ∀ messageId, messageId ∈ s.process.publishedIds client ↔
      messageId ∈ x.mains.map Prod.fst := by
    intro messageId
    constructor
    · intro hpublished
      obtain ⟨p, hp, rfl⟩ := List.mem_map.mp hpublished
      obtain ⟨-, -, b, hb, hemit⟩ := hjoined.part.published p hp
      rw [hforwards client _ b.1 b.2 _ hemit]
      exact List.mem_map_of_mem hb
    · intro hmain
      obtain ⟨b, hb, rfl⟩ := List.mem_map.mp hmain
      exact SideProcess.mem_publishedIds_of_drained hjoined honce hdrained (hmain' b hb)
  refine ⟨?_, x, hmainIds, hsideIds, hmain', hside', fun p hp ↦ ?_⟩
  · have hnodup := Multiset.coe_nodup.mpr (List.nodup_append.mp honce.nodup).1
    rw [← hmainIds]
    refine (Multiset.Nodup.ext hnodup (hmainIds ▸ hmain.ids)).mpr fun messageId ↦ ?_
    rw [Multiset.mem_coe, Multiset.mem_coe]
    exact hmem messageId
  · -- the results were made of one table, which the side batches add up to
    obtain ⟨-, htable, b, hb, hemit⟩ := hjoined.part.published p hp
    obtain ⟨order, hadds⟩ := hjoined.part.adds
    refine ⟨⟨b, hb, hemit⟩, order, hadds.perm hall, ?_⟩
    rw [htable]
    exact hadds.table

end Replica

/-! ## The pipeline -/

section Queues

variable {queues : ℕ → List Header} {count : ℕ}

theorem stream_of_clean (hclean : CleanQueues client none queues) (henough : Enough count queues)
    (q : ℕ) : Stream client (queues q) where
  ids := hclean.ids q
  data := hclean.data q
  eofs m hm eof hsome := by
    have hcleanup : isCleanupEof eof = false := by
      have hend := henough.isEnd hm hsome
      rw [Header.isEnd, hsome] at hend
      exact Bool.not_eq_true' _ ▸ hend
    exact ⟨(hclean.eofs q m hm eof hsome).trans (finalEofId_eq hcleanup none), hcleanup⟩

theorem endedStream_of_served (hclean : CleanQueues client none queues)
    (hserved : Served 1 queues) :
    EndedStream client (queues 0) where
  toStream := stream_of_clean hclean
    (fun q m hm eof hsome ↦ (hserved.announced q m hm eof hsome).ge) 0
  ended := by
    have hends := hserved.ends
    rw [Finset.sum_range_one] at hends
    obtain ⟨m, hm, hend⟩ := List.countP_pos_iff.mp (hends ▸ Nat.one_pos)
    refine ⟨m, hm, fun hnone ↦ ?_⟩
    rw [Header.isEnd, hnone] at hend
    exact Bool.false_ne_true hend
  announced m hm eof hsome := by
    rw [hserved.announced 0 m hm eof hsome, dataCount_one]

end Queues

/-- A replica has nothing left to do. -/
structure SideReplica.Rests (s : SideReplica w) : Prop where
  inbox : s.inbox = []
  handling : s.process.handling = none
  draining : s.process.draining = none

namespace SideReplica

theorem step_of_process {s : SideReplica w} {process : SideProcess w}
    (h : Relation.ReflTransGen (SideProcess.Step fun _ _ ↦ False) s.process process) :
    Relation.ReflTransGen (Step client) s ⟨s.inbox, process⟩ := by
  induction h with
  | refl => exact .refl
  | tail _ hstep ih => exact ih.tail (.continues hstep)

/-- **A replica that raises no exceptions can take all that waits.** -/
theorem exists_rests (hw : w.Total) {s : SideReplica w} (hidle : s.process.Idle) :
    ∃ s', Relation.ReflTransGen (Step client) s s' ∧ s'.Rests := by
  obtain ⟨inbox, process⟩ := s
  induction inbox generalizing process with
  | nil => exact ⟨_, .refl, rfl, hidle.handling, hidle.draining⟩
  | cons delivery inbox ih =>
    obtain ⟨entered, es, henter, hstarting, hhandling, hdraining, -⟩ :=
      @SideProcess.exists_entered w client (fun c d ↦ c = client ∧ d = delivery) process hw hidle
        delivery ⟨rfl, rfl⟩
    obtain ⟨process', hrun, hidle', -⟩ :=
      @SideProcess.exists_finished w client (fun _ _ ↦ False) entered hw delivery es hstarting
        hhandling hdraining
    have htakes : Step client ⟨delivery :: inbox, process⟩ ⟨inbox, entered⟩ :=
      @Step.takes w client ⟨delivery :: inbox, process⟩ [] inbox delivery entered rfl henter
        hidle.handling (hhandling ▸ Option.some_ne_none _)
    obtain ⟨s', hrest, hrests⟩ := ih process' hidle'
    exact ⟨s', .head htakes ((step_of_process hrun).trans hrest), hrests⟩

end SideReplica

section Pipeline

variable {A : Type} [Amount A] [Mul A] [OfScientific A] [LE A] [DecidableLE A] {lib : Library A}
  {hash : String → ℕ} {paymentFormatKey : String → String} {d : Deployment A} {cfg : ClientConfig}
  {s : (d.pipeline lib hash paymentFormatKey cfg client).State}

omit [Amount A] [Mul A] [OfScientific A] [LE A] [DecidableLE A] in
theorem length_route_sideInput (kind : SideInputKind) :
    (d.route hash (.sideInput kind)).queues.length = d.sideInputReplicas kind := by
  cases kind with
  | bankMapper => exact (List.length_map _).trans List.length_range
  | anomalyFilter => exact (List.length_map _).trans List.length_range

omit [Amount A] [Mul A] [OfScientific A] [LE A] [DecidableLE A] in
theorem length_route_sideTable {kind : SideInputKind} {i : NodeId}
    (hi : i < d.sideInputReplicas kind) :
    (d.route hash (.sideTable kind i)).queues.length = 1 := by
  cases kind with
  | bankMapper => exact congrArg List.length (if_pos hi)
  | anomalyFilter => exact congrArg List.length (if_pos hi)

/-- A replica that is at rest, and whose side input is. -/
theorem answers_of_rest (hreach : (d.pipeline lib hash paymentFormatKey cfg client).Reachable s)
    (hquiet : ∀ m ∈ s.published .gateway, m.header.isCleanup = false)
    (hfiles : ∀ file, headersOf client file (messagesToSend cfg).1 ≠ []) {kind : SideInputKind}
    {i : NodeId} (hi : i < d.sideInputReplicas kind) (hside : AtRest s (.sideTable kind i))
    (hrests : (replicaOf s kind i).Rests) :
    Answers client ((s.arrived (.sideInput kind) i).map Posted.header)
      ((s.arrived (.sideTable kind i) 0).map Posted.header) (replicaOf s kind i).process := by
  obtain ⟨arrived, hhistory, hsees⟩ :=
    (Dataflow.System.local_of_reachable hreach).exists_history (.sideInput kind)
  obtain ⟨taken, htook⟩ := took_of_history (fun _ _ h ↦ (Intake.sideTable.inj h).2)
    (fun _ ↦ Intake.noConfusion) hhistory i
  have hmain := stream_of_clean (tidy_of_reachable hreach (.sideInput kind)).clean
    (enough_of_reachable hreach hquiet (.sideInput kind)) i
  have hserved := served_of_atRest hreach hquiet _ hside (hfiles _)
    ((length_route_sideTable hi).symm ▸ Nat.one_pos)
  rw [length_route_sideTable hi] at hserved
  have hended := endedStream_of_served (tidy_of_reachable hreach (.sideTable kind i)).clean hserved
  rw [← hsees (.sideInput kind) rfl] at hmain ⊢
  rw [← hsees (.sideTable kind i) rfl] at hended ⊢
  exact htook.answers (kind.forwards _ _ _) hmain hended hrests.inbox hrests.handling
    hrests.draining

/-- **A query with a side input is answered completely.** When everything is at rest, each main
batch was answered once, from the whole of the side input. There are as many answers as the end of
the main channel announces, and those of the anomaly filters have different ids. -/
theorem joined_of_rest (hreach : (d.pipeline lib hash paymentFormatKey cfg client).Reachable s)
    (hquiet : ∀ m ∈ s.published .gateway, m.header.isCleanup = false)
    (hfiles : ∀ file, headersOf client file (messagesToSend cfg).1 ≠ []) (kind : SideInputKind)
    (hmain : AtRest s (.sideInput kind))
    (hside : ∀ i < (d.sideInputReplicas kind : ℕ), AtRest s (.sideTable kind i))
    (hrests : ∀ i < (d.sideInputReplicas kind : ℕ), (replicaOf s kind i).Rests) :
    (∀ i < (d.sideInputReplicas kind : ℕ),
      Answers client ((s.arrived (.sideInput kind) i).map Posted.header)
        ((s.arrived (.sideTable kind i) 0).map Posted.header) (replicaOf s kind i).process) ∧
    (∀ q, ∀ m ∈ s.arrived (.sideInput kind) q, ∀ eof, m.header.eof = some eof →
      eof.messageCount = (∑ i ∈ Finset.range (d.sideInputReplicas kind),
        ((replicaOf s kind i).process.publishedIds client).length : ℕ)) ∧
    (kind = .anomalyFilter → (∑ i ∈ Finset.range (d.sideInputReplicas kind),
      ((replicaOf s kind i).process.publishedIds client : Multiset MessageId)).Nodup) := by
  have hanswers : ∀ i < (d.sideInputReplicas kind : ℕ),
      Answers client ((s.arrived (.sideInput kind) i).map Posted.header)
        ((s.arrived (.sideTable kind i) 0).map Posted.header) (replicaOf s kind i).process :=
    fun i hi ↦ answers_of_rest hreach hquiet hfiles hi (hside i hi) (hrests i hi)
  have hserved := served_of_atRest hreach hquiet _ hmain (hfiles _)
    ((@length_route_sideInput A hash d kind).symm ▸ (d.sideInputReplicas kind).pos)
  rw [length_route_sideInput] at hserved
  refine ⟨hanswers, fun q m hm eof hsome ↦ ?_, fun hkind ↦ ?_⟩
  · rw [hserved.announced q _ (List.mem_map_of_mem hm) eof hsome, dataCount]
    refine congrArg _ (Finset.sum_congr rfl fun i hi ↦ ?_)
    rw [← (hanswers i (Finset.mem_range.mp hi)).ids, Multiset.coe_card]
  · have hsum := Finset.sum_congr rfl fun i hi ↦ (hanswers i (Finset.mem_range.mp hi)).ids
    subst hkind
    rw [hsum]
    exact apart_of_reachable hreach rfl _

/-- In the pipeline a replica can go on with what it has, and nothing else changes. -/
theorem exists_replica_run (hreach : (d.pipeline lib hash paymentFormatKey cfg client).Reachable s)
    {kind : SideInputKind} {i : NodeId} (hi : i < d.sideInputReplicas kind)
    {replica : SideReplica (d.sideInputWorker paymentFormatKey kind)}
    (hrun : Relation.ReflTransGen (SideReplica.Step client) (replicaOf s kind i) replica) :
    ∃ s', (d.pipeline lib hash paymentFormatKey cfg client).Reachable s' ∧
      s'.published = s.published ∧ s'.arrived = s.arrived ∧ replicaOf s' kind i = replica ∧
      ∀ c ≠ .sideInput kind, s'.state c = s.state c := by
  induction hrun with
  | refl => exact ⟨s, hreach, rfl, rfl, rfl, fun _ _ ↦ rfl⟩
  | tail _ hstep ih =>
    obtain ⟨s', hreach', hpublished, harrived, hreplica, hothers⟩ := ih
    rw [← hreplica] at hstep
    refine ⟨_, hreach'.works (.sideInput kind) [] _
      (SideInputWorker.works i hi hstep), ?_, harrived,
      ?_, fun c hc ↦ ?_⟩
    · simp only [Dataflow.System.State.work, List.append_nil, Function.update_eq_self, hpublished]
    · exact (congrFun (Function.update_self (Participant.sideInput kind) _ s'.state) i).trans
        (Function.update_self ..)
    · exact (Function.update_of_ne hc _ _).trans (hothers c hc)

/-- What is at rest stays so while a replica with a side input works. -/
theorem AtRest.of_eq {s' : (d.pipeline lib hash paymentFormatKey cfg client).State}
    {kind : SideInputKind} {intake : Intake} (h : AtRest s intake)
    (hpublished : s'.published = s.published) (harrived : s'.arrived = s.arrived)
    (hothers : ∀ c ≠ .sideInput kind, s'.state c = s.state c) : AtRest s' intake := by
  intro g hg
  obtain ⟨hidle, hdelivered⟩ := h g hg
  have hstate := hothers g.sender (sender_ne_sideInput g kind)
  rw [hpublished, harrived]
  refine ⟨?_, hdelivered⟩
  cases hsender : g.sender with
  | sideInput kind' => exact absurd hsender (sender_ne_sideInput g kind')
  | _ =>
    rw [hsender] at hidle hstate
    simpa only [Idle, replicasOf, stageOf, hstate] using hidle

end Pipeline

/-! ## A run -/

/-- Two transactions, one of each period. -/
def twoPeriods : ClientConfig where
  inputCsvTransactions := ["header", "first,1,a,2,b,,,700,us dollar,Wire",
    "second,1,a,2,b,,,1,us dollar,Wire"]
  inputCsvAccounts := ["header"]
  transactionsBatchSize := 2
  accountsBatchSize := 1
  expectedQueryIds := [3]

def periodsLibrary : Library ℚ :=
  { plainLibrary with
    strptime _ text := if text = "first" then some 1 else some 2
    float text := if text = "700" then some 700 else some 1 }

def periodsDeployment : Deployment ℚ :=
  { singleDeployment with dateFrom1 := 1, dateTo1 := 1, dateFrom2 := 2, dateTo2 := 2 }

def anomalyPipeline : Dataflow.System Participant Intake Posted :=
  periodsDeployment.pipeline periodsLibrary (fun _ ↦ 0) id twoPeriods "c"

def largePayment : Transaction ℚ :=
  ⟨some 1, some "1", some "a", some "2", some "b", some 700, some "us dollar", some "Wire"⟩

def tinyPayment : Transaction ℚ :=
  ⟨some 2, some "1", some "a", some "2", some "b", some 1, some "us dollar", some "Wire"⟩

/-! ### What comes to the workers -/

def linesArrived : List Posted :=
  [⟨⟨.exchange exchangeRawData, some "transaction"⟩, ⟨"c:0", none⟩⟩,
    ⟨⟨.exchange exchangeRawData, some "transaction"⟩, ⟨eofId "c" none, some ⟨1⟩⟩⟩]

def transactionsArrived : List Posted :=
  [⟨⟨.exchange exchangeFilteredTransactions, some "all"⟩, ⟨"c:0", none⟩⟩,
    ⟨⟨.exchange exchangeFilteredTransactions, some "eof"⟩, ⟨finalEofId "c" ⟨1⟩ none, some ⟨1⟩⟩⟩]

def paymentsArrived : List Posted :=
  [⟨⟨.exchange exchangePaymentFormatAggregatorInput, some "0"⟩, ⟨"c:0", none⟩⟩,
    ⟨⟨.exchange exchangePaymentFormatAggregatorInput, some "0"⟩,
      ⟨finalEofId "c" ⟨1⟩ none, some ⟨1⟩⟩⟩]

def partialsArrived : List Posted :=
  [⟨⟨.exchange exchangePaymentFormatShards, some "0"⟩, ⟨flushId 0 "c" 0, none⟩⟩,
    ⟨⟨.exchange exchangePaymentFormatShards, some "0"⟩, ⟨finalEofId "c" ⟨1⟩ none, some ⟨1⟩⟩⟩]

def anomalyArrived : List Posted :=
  [⟨⟨.exchange exchangeAnomalyFilterInput, some "0"⟩, ⟨"c:0", none⟩⟩,
    ⟨⟨.exchange exchangeAnomalyFilterInput, some "0"⟩, ⟨finalEofId "c" ⟨1⟩ none, some ⟨1⟩⟩⟩]

def averagesArrived : List Posted :=
  [⟨⟨.exchange exchangePaymentFormatAverages, none⟩, ⟨flushId 0 "c" 0, none⟩⟩,
    ⟨⟨.exchange exchangePaymentFormatAverages, none⟩, ⟨finalEofId "c" ⟨1⟩ none, some ⟨1⟩⟩⟩]

/-- What is published for the only queue of an intake. -/
def Supplies (published : List Posted) (intake : Intake) (queue : List Posted) : Prop :=
  ∀ q, published.filter (anomalyPipeline.accepts intake q) = if q = 0 then queue else []

/-! ### What each of them does -/

/-- The gateway forwards the two transactions, and the ends of both files. -/
theorem exists_gateway_history : ∃ published,
    (anomalyPipeline.component .gateway).History (singleQueues fun _ ↦ []) published (3 : ℕ) ∧
      (∀ m ∈ published, m.header.isCleanup = false) ∧
      Supplies published (.stateless .transactionsFieldMapper) linesArrived := by
  have h₀ := Component.History.initial_single (anomalyPipeline.component .gateway)
  have h₁ : (anomalyPipeline.component .gateway).History _ _ (1 : ℕ) :=
    h₀.works (Or.inl ⟨.transactionBatch ["first,1,a,2,b,,,700,us dollar,Wire",
      "second,1,a,2,b,,,1,us dollar,Wire"] 0, _, rfl, rfl, rfl, rfl⟩)
  have h₂ : (anomalyPipeline.component .gateway).History _ _ (2 : ℕ) :=
    h₁.works (Or.inl
      ⟨.eofTransactions 1, _, rfl, InternalRouter.dispatch_eofTransactions _ _ _, rfl, rfl⟩)
  have h₃ : (anomalyPipeline.component .gateway).History _ _ (3 : ℕ) :=
    h₂.works (Or.inl ⟨.eofAccounts 0, _, rfl, InternalRouter.dispatch_eofAccounts _ _ _, rfl, rfl⟩)
  exact ⟨_, h₃, by decide +kernel, Nat.rec (by decide +kernel) fun _ _ ↦ rfl⟩

theorem exists_mapper_history : ∃ published, ∃ state : Replicas
      (periodsDeployment.statelessWorker periodsLibrary (fun _ ↦ 0) .transactionsFieldMapper),
    (anomalyPipeline.component (.stateless .transactionsFieldMapper)).History
        (singleQueues (Function.update (fun _ ↦ []) (.stateless .transactionsFieldMapper)
          linesArrived)) published state ∧
      state.queue = [] ∧ Supplies published (.stateless .dateFilter) transactionsArrived := by
  have h₀ := (Component.History.initial_single
    (anomalyPipeline.component (.stateless .transactionsFieldMapper))).name_single
    (.stateless .transactionsFieldMapper) rfl
  have h₁ := h₀.receives_single (m := linesArrived[0]) (StatelessWorker.receives ⟨"c", "c:0",
    .data ["first,1,a,2,b,,,700,us dollar,Wire", "second,1,a,2,b,,,1,us dollar,Wire"]⟩ rfl rfl)
  have h₂ := h₁.receives_single (m := linesArrived[1])
    (StatelessWorker.receives ⟨"c", eofId "c" none, .eof ⟨1⟩⟩ rfl rfl)
  have h₃ := h₂.works (StatelessWorker.works 0 (by decide) rfl (by decide +kernel))
  have h₄ := h₃.works (StatelessWorker.works 0 (by decide) rfl (by decide +kernel))
  exact ⟨_, _, h₄, rfl, Nat.rec (by decide +kernel) fun _ _ ↦ rfl⟩

/-- The date filter sends the first transaction to the aggregators, and the second one on. -/
theorem exists_filter_history : ∃ published, ∃ state : Replicas
      (periodsDeployment.statelessWorker periodsLibrary (fun _ ↦ 0) .dateFilter),
    (anomalyPipeline.component (.stateless .dateFilter)).History
        (singleQueues (Function.update (fun _ ↦ []) (.stateless .dateFilter) transactionsArrived))
        published state ∧
      state.queue = [] ∧ Supplies published (.stateful .paymentFormatAggregator) paymentsArrived ∧
      Supplies published (.sideInput .anomalyFilter) anomalyArrived := by
  have h₀ := (Component.History.initial_single
    (anomalyPipeline.component (.stateless .dateFilter))).name_single (.stateless .dateFilter) rfl
  have h₁ := h₀.receives_single (m := transactionsArrived[0])
    (StatelessWorker.receives ⟨"c", "c:0", .data [largePayment, tinyPayment]⟩ rfl rfl)
  have h₂ := h₁.receives_single (m := transactionsArrived[1])
    (StatelessWorker.receives ⟨"c", finalEofId "c" ⟨1⟩ none, .eof ⟨1⟩⟩ rfl rfl)
  have h₃ := h₂.works (StatelessWorker.works 0 (by decide) rfl (by decide +kernel))
  have h₄ := h₃.works (StatelessWorker.works 0 (by decide) rfl (by decide +kernel))
  exact ⟨_, _, h₄, rfl, Nat.rec (by decide +kernel) fun _ _ ↦ rfl,
    Nat.rec (by decide +kernel) fun _ _ ↦ rfl⟩

theorem exists_aggregator_history : ∃ published, ∃ state : Stage
      (periodsDeployment.statefulWorker (fun _ ↦ 0) id .paymentFormatAggregator),
    (anomalyPipeline.component (.stateful .paymentFormatAggregator)).History
        (singleQueues (Function.update (fun _ ↦ []) (.stateful .paymentFormatAggregator)
          paymentsArrived)) published state ∧
      (∀ i, state.inbox i = [] ∧ state.net.control i = []) ∧
      Supplies published (.stateful .paymentFormatReducer) partialsArrived := by
  have h₀ := (Component.History.initial_single
    (anomalyPipeline.component (.stateful .paymentFormatAggregator))).name_single
    (.stateful .paymentFormatAggregator) rfl
  have h₁ := h₀.receives_single (m := paymentsArrived[0])
    ⟨rfl, 0, .data "c:0" [largePayment], by decide, rfl, rfl, rfl⟩
  have h₂ := h₁.receives_single (m := paymentsArrived[1])
    ⟨rfl, 0, .eof (finalEofId "c" ⟨1⟩ none) ⟨1⟩, by decide, rfl, rfl, rfl⟩
  have h₃ := h₂.works (StatefulWorker.works_main 0 (by decide) rfl (by decide +kernel))
  have h₄ := h₃.works (StatefulWorker.works_main 0 (by decide) rfl (by decide +kernel))
  have h₅ := h₄.works (StatefulWorker.works_token 0 _ _ (by decide) rfl rfl)
  have h₆ := h₅.works (StatefulWorker.works_token 0 _ _ (by decide) rfl rfl)
  exact ⟨_, _, h₆, Nat.rec ⟨rfl, rfl⟩ fun _ _ ↦ ⟨rfl, rfl⟩,
    Nat.rec (by decide +kernel) fun _ _ ↦ rfl⟩

theorem exists_reducer_history : ∃ published, ∃ state : Stage
      (periodsDeployment.statefulWorker (fun _ ↦ 0) id .paymentFormatReducer),
    (anomalyPipeline.component (.stateful .paymentFormatReducer)).History
        (singleQueues (Function.update (fun _ ↦ []) (.stateful .paymentFormatReducer)
          partialsArrived)) published state ∧
      (∀ i, state.inbox i = [] ∧ state.net.control i = []) ∧
      Supplies published (.sideTable .anomalyFilter 0) averagesArrived := by
  have h₀ := (Component.History.initial_single
    (anomalyPipeline.component (.stateful .paymentFormatReducer))).name_single
    (.stateful .paymentFormatReducer) rfl
  have h₁ := h₀.receives_single (m := partialsArrived[0])
    ⟨rfl, 0, .data (flushId 0 "c" 0) [⟨"Wire", 700, 1⟩], by decide, rfl, rfl, rfl⟩
  have h₂ := h₁.receives_single (m := partialsArrived[1])
    ⟨rfl, 0, .eof (finalEofId "c" ⟨1⟩ none) ⟨1⟩, by decide, rfl, rfl, rfl⟩
  have h₃ := h₂.works (StatefulWorker.works_main 0 (by decide) rfl (by decide +kernel))
  have h₄ := h₃.works (StatefulWorker.works_main 0 (by decide) rfl (by decide +kernel))
  have h₅ := h₄.works (StatefulWorker.works_token 0 _ _ (by decide) rfl rfl)
  have h₆ := h₅.works (StatefulWorker.works_token 0 _ _ (by decide) rfl rfl)
  exact ⟨_, _, h₆, Nat.rec ⟨rfl, rfl⟩ fun _ _ ↦ ⟨rfl, rfl⟩,
    Nat.rec (by decide +kernel) fun _ _ ↦ rfl⟩

/-- The anomaly filter has done nothing yet with what it has got. -/
theorem exists_anomaly_history :
    ∃ state : NodeId → SideReplica (periodsDeployment.sideInputWorker id .anomalyFilter),
      (anomalyPipeline.component (.sideInput .anomalyFilter)).History
          (singleQueues (Function.update
            (Function.update (fun _ ↦ []) (.sideInput .anomalyFilter) anomalyArrived)
            (.sideTable .anomalyFilter 0) averagesArrived)) [] state ∧
        (state 0).process.Idle := by
  have h₀ := (Component.History.initial_single
    (anomalyPipeline.component (.sideInput .anomalyFilter))).name_single
    (.sideInput .anomalyFilter) rfl
  have h₁ := h₀.receives_single (m := anomalyArrived[0])
    (SideInputWorker.receives 0 (.main (.data "c:0" [tinyPayment])) (by decide) rfl rfl)
  have h₂ := h₁.receives_single (m := anomalyArrived[1])
    (SideInputWorker.receives 0 (.main (.eof (finalEofId "c" ⟨1⟩ none) ⟨1⟩)) (by decide) rfl rfl)
  have h₃ := h₂.name_single (.sideTable .anomalyFilter 0) rfl
  have h₄ := h₃.receives_single (m := averagesArrived[0]) (SideInputWorker.receives 0
    (.side (.batch (flushId 0 "c" 0) [⟨"Wire", 700⟩])) (by decide) rfl rfl)
  have h₅ := h₄.receives_single (m := averagesArrived[1]) (SideInputWorker.receives 0
    (.side (.eof (finalEofId "c" ⟨1⟩ none) ⟨1⟩)) (by decide) rfl rfl)
  exact ⟨_, h₅, rfl, rfl, rfl⟩

/-! ### All of them -/

/-- Nothing waits on the way to an intake. -/
def Through (s : anomalyPipeline.State) (intake : Intake) : Prop :=
  Idle s intake.sender ∧ ∀ q, s.arrived intake q = anomalyPipeline.routed s.published intake q

/-- The averages of the first period and the transactions of the second have come to the anomaly
filter. -/
theorem exists_anomaly_run : ∃ s : anomalyPipeline.State, anomalyPipeline.Reachable s ∧
    (∀ m ∈ s.published .gateway, m.header.isCleanup = false) ∧
    Through s (.stateless .transactionsFieldMapper) ∧ Through s (.stateless .dateFilter) ∧
    Through s (.stateful .paymentFormatAggregator) ∧ Through s (.stateful .paymentFormatReducer) ∧
    Through s (.sideInput .anomalyFilter) ∧ Through s (.sideTable .anomalyFilter 0) ∧
    s.arrived (.sideInput .anomalyFilter) 0 = anomalyArrived ∧
    (replicaOf s .anomalyFilter 0).process.Idle := by
  obtain ⟨uploads, hgateway, hquiet, hlines⟩ := exists_gateway_history
  obtain ⟨transactions, mappers, hmapper, hmapped, htransactions⟩ := exists_mapper_history
  obtain ⟨filtered, filters, hfilter, hfiltered, hpayments, hcandidates⟩ := exists_filter_history
  obtain ⟨partials, aggregators, haggregator, haggregated, hpartials⟩ := exists_aggregator_history
  obtain ⟨averages, reducers, hreducer, hreduced, haverages⟩ := exists_reducer_history
  obtain ⟨replicas, hanomaly, hidle⟩ := exists_anomaly_history
  have hself : ∀ c g, anomalyPipeline.receiver g = c → anomalyPipeline.sender g ≠ c := by
    rintro c g rfl heq
    have hlt := g.rank_sender_lt
    rw [show g.sender = g.receiver from heq] at hlt
    exact lt_irrefl _ hlt
  have hnone := @System.supplied_nil _ _ _ anomalyPipeline
  have h₁ := System.reachedBy_initial.proceed (c := .gateway) (by decide) (hself _) hgateway
    (hnone _ _)
  have h₂ := h₁.proceed (by decide) (hself _) hmapper ((hnone _ _).update rfl (hlines 0).symm)
  have h₃ := h₂.proceed (by decide) (hself _) hfilter
    ((hnone _ _).update rfl (htransactions 0).symm)
  have h₄ := h₃.proceed (by decide) (hself _) haggregator
    ((hnone _ _).update rfl (hpayments 0).symm)
  have h₅ := h₄.proceed (by decide) (hself _) hreducer ((hnone _ _).update rfl (hpartials 0).symm)
  have h₆ := h₅.proceed (by decide) (hself _) hanomaly
    (((hnone _ _).update rfl (hcandidates 0).symm).update rfl (haverages 0).symm)
  exact ⟨_, h₆.reachable, hquiet, ⟨rfl, fun q ↦ (hlines q).symm⟩,
    ⟨hmapped, fun q ↦ (htransactions q).symm⟩, ⟨hfiltered, fun q ↦ (hpayments q).symm⟩,
    ⟨haggregated, fun q ↦ (hpartials q).symm⟩, ⟨hfiltered, fun q ↦ (hcandidates q).symm⟩,
    ⟨hreduced, fun q ↦ (haverages q).symm⟩, rfl, hidle⟩

/-- And it has answered them. -/
theorem exists_anomaly_rest : ∃ s : anomalyPipeline.State, anomalyPipeline.Reachable s ∧
    (∀ m ∈ s.published .gateway, m.header.isCleanup = false) ∧
    AtRest s (.sideInput .anomalyFilter) ∧ AtRest s (.sideTable .anomalyFilter 0) ∧
    s.arrived (.sideInput .anomalyFilter) 0 = anomalyArrived ∧
    (replicaOf s .anomalyFilter 0).Rests := by
  obtain ⟨s, hreach, hquiet, hlines, hfiltered, hpayments, hpartials, hcandidates, haverages,
    harrived, hidle⟩ := exists_anomaly_run
  have hmapper : AtRest s (.stateless .transactionsFieldMapper) :=
    .of_idle hlines.1 hlines.2 fun g hg ↦ absurd hg g.receiver_ne_gateway
  have hfilter : AtRest s (.stateless .dateFilter) :=
    .of_idle hfiltered.1 hfiltered.2 fun g hg ↦ by rwa [Intake.eq_of_receiver_stateless hg]
  have haggregator : AtRest s (.stateful .paymentFormatAggregator) :=
    .of_idle hpayments.1 hpayments.2 fun g hg ↦ by rwa [Intake.eq_of_receiver_stateless hg]
  have hreducer : AtRest s (.stateful .paymentFormatReducer) :=
    .of_idle hpartials.1 hpartials.2 fun g hg ↦ by rwa [Intake.eq_of_receiver_stateful hg]
  have hmain : AtRest s (.sideInput .anomalyFilter) :=
    .of_idle hcandidates.1 hcandidates.2 fun g hg ↦ by rwa [Intake.eq_of_receiver_stateless hg]
  have hside : AtRest s (.sideTable .anomalyFilter 0) :=
    .of_idle haverages.1 haverages.2 fun g hg ↦ by rwa [Intake.eq_of_receiver_stateful hg]
  have hnode : (0 : NodeId) < periodsDeployment.sideInputReplicas .anomalyFilter := Nat.one_pos
  obtain ⟨replica, hrun, hrests⟩ := SideReplica.exists_rests total_anomalyFilter hidle
  obtain ⟨s', hreach', hpublished, harrived', hreplica, hothers⟩ :=
    exists_replica_run hreach hnode hrun
  refine ⟨s', hreach', hpublished ▸ hquiet, hmain.of_eq hpublished harrived' hothers,
    hside.of_eq hpublished harrived' hothers, harrived' ▸ harrived, ?_⟩
  rwa [hreplica]

/-- One batch was sent to it, and it has given one answer. -/
theorem joined_of_rest_anomaly : ∃ s : anomalyPipeline.State,
    s.arrived (.sideInput .anomalyFilter) 0 = anomalyArrived ∧
      ((replicaOf s .anomalyFilter 0).process.publishedIds "c").length = 1 := by
  obtain ⟨s, hreach, hquiet, hmain, hside, harrived, hrests⟩ := exists_anomaly_rest
  have hzero : ∀ {i : ℕ}, i < (periodsDeployment.sideInputReplicas .anomalyFilter : ℕ) → i = 0 :=
    Nat.lt_one_iff.mp
  have hend : ⟨⟨.exchange exchangeAnomalyFilterInput, some "0"⟩,
      ⟨finalEofId "c" ⟨1⟩ none, some ⟨1⟩⟩⟩ ∈ s.arrived (.sideInput .anomalyFilter) 0 := by
    rw [harrived]
    exact List.mem_of_mem_getLast? rfl
  obtain ⟨-, hannounced, -⟩ :=
    joined_of_rest hreach hquiet (fun file ↦ by cases file <;> decide +kernel)
    .anomalyFilter hmain (fun i hi ↦ hzero hi ▸ hside) fun i hi ↦ hzero hi ▸ hrests
  have hcount := hannounced 0 _ hend ⟨1⟩ rfl
  have hone : (periodsDeployment.sideInputReplicas .anomalyFilter : ℕ) = 1 := rfl
  rw [hone, Finset.sum_range_one] at hcount
  exact ⟨s, harrived, (Int.ofNat.inj hcount).symm⟩

end MoneyLaundering
