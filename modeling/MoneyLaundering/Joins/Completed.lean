import MoneyLaundering.Joins.Once

/-!
# What a side-input worker has done in the end

A worker that is sent some `SideInputs`, whose handlers do not raise, can take all of them: from a
state in which nothing is in progress every message can be handled to the end, with the drain that
it may start (`exists_handled`). When all main batches have been handled and the spill is drained,
what has been published are the results of the main batches, each once, under the table that all
side batches make (`published_of_done`).
-/

namespace MoneyLaundering

open WriteAhead SideInputWorker

variable {w : SideInputWorker} {x : SideInputs w} {client : ClientId} {feed : SideFeed w}

/-- Every side batch can be read, and a result made of every main batch. -/
structure SideInputWorker.Total (w : SideInputWorker) : Prop where
  sideDelta : ∀ payload, w.sideDelta payload ≠ none
  emit : ∀ client table mid payload, w.emit client table mid payload ≠ none

/-- No handler raises. -/
theorem SideInputWorker.Total.handle (hw : w.Total) (client : ClientId) (flow : SideFlow w.Table)
    (delivery : SideDelivery w) : SideInputWorker.handle client flow delivery ≠ none := by
  cases delivery with
  | main message =>
    rw [SideInputWorker.handle, handleMessage]
    split
    · exact Option.some_ne_none _
    · cases message with
      | data mid payload =>
        rw [acceptMessage, handleDataMessage]
        split
        · exact mt Option.map_eq_none_iff.mp
            (mt Option.map_eq_none_iff.mp (hw.emit client _ mid payload))
        · exact Option.some_ne_none _
      | eof mid eof => exact Option.some_ne_none _
  | side message =>
    rw [SideInputWorker.handle, handleSideMessage]
    split
    · exact Option.some_ne_none _
    · cases message with
      | batch mid payload => exact mt Option.map_eq_none_iff.mp (hw.sideDelta payload)
      | eof mid eof =>
        rw [acceptSideMessage]
        split <;> exact Option.some_ne_none _

namespace SideProcess

variable {s : SideProcess w}

/-- All main batches of the client have been handled, and the spill has been drained. -/
structure Done (x : SideInputs w) (client : ClientId) (s : SideProcess w) : Prop where
  drained : s.Drained client
  handled : ∀ b ∈ x.mains, (client, .main (.data b.1 b.2)) ∈ s.handled

/-! ## A run that handles everything -/

/-- Nothing is in progress. -/
structure Idle (s : SideProcess w) : Prop where
  starting : s.starting = none
  handling : s.handling = none
  draining : s.draining = none

/-- A handler goes through its effects; it may leave a drain to be begun. -/
theorem exists_effects {delivery : SideDelivery w} {es : List (SideEff w)}
    (hstarting : s.starting = none) (hhandling : s.handling = some ⟨client, delivery, es⟩)
    (hdraining : s.draining = none ∨ s.draining = some ⟨client, none⟩) :
    ∃ s', Relation.ReflTransGen (Step feed) s s' ∧ s'.starting = none ∧
      s'.handling = some ⟨client, delivery, []⟩ ∧
      (s'.draining = none ∨ s'.draining = some ⟨client, none⟩) ∧ s'.handled = s.handled := by
  induction es generalizing s with
  | nil => exact ⟨s, .refl, hstarting, hhandling, hdraining, rfl⟩
  | cons e es ih =>
    cases e with
    | publish o =>
      let next := { s with handling := some ⟨client, delivery, es⟩ }.perform client o
      have hnext : next.starting = none ∧ next.handling = some ⟨client, delivery, es⟩ ∧
          (next.draining = none ∨ next.draining = some ⟨client, none⟩) ∧
          next.handled = s.handled := by
        cases o with
        | drain => exact ⟨hstarting, rfl, Or.inr rfl, rfl⟩
        | result m => exact ⟨hstarting, rfl, hdraining, rfl⟩
        | spill mid payload => exact ⟨hstarting, rfl, hdraining, rfl⟩
        | discard => exact ⟨hstarting, rfl, hdraining, rfl⟩
        | finalEof mid eof => exact ⟨hstarting, rfl, hdraining, rfl⟩
      obtain ⟨hstarting', hhandling', hdraining', hhandled⟩ := hnext
      obtain ⟨s', hrun, h⟩ := ih hstarting' hhandling' hdraining'
      exact ⟨s', .head (.perform hhandling) hrun, h.1, h.2.1, h.2.2.1, h.2.2.2.trans hhandled⟩
    | append r =>
      obtain ⟨s', hrun, h⟩ := @ih
        ({ s with handling := some ⟨client, delivery, es⟩ }.append client delivery r) hstarting rfl
        hdraining
      exact ⟨s', .head (.append hhandling) hrun, h⟩
    | checkpoint flow =>
      obtain ⟨s', hrun, h⟩ := @ih { s with handling := some ⟨client, delivery, es⟩ } hstarting rfl
        hdraining
      exact ⟨s', .head (.keep hhandling) hrun, h⟩

/-- A drain goes through its entries. -/
theorem exists_entries (hw : w.Total) {entries : List (MessageId × w.Payload)}
    (hstarting : s.starting = none) (hhandling : s.handling = none)
    (hdraining : s.draining = some ⟨client, some entries⟩) :
    ∃ s', Relation.ReflTransGen (Step feed) s s' ∧ s'.Idle ∧ s'.handled = s.handled := by
  induction entries generalizing s with
  | nil => exact ⟨_, .single (.closeSpill hdraining), ⟨hstarting, hhandling, rfl⟩, rfl⟩
  | cons e entries ih =>
    obtain ⟨m, hemit⟩ := Option.ne_none_iff_exists'.mp
      (hw.emit client (s.store.mem client).table e.1 e.2)
    obtain ⟨s', hrun, hidle, hhandled⟩ := @ih
      ({ s with draining := some ⟨client, some entries⟩ }.publish client m) hstarting hhandling rfl
    exact ⟨s', .head (.emitEntry hdraining hemit) hrun, hidle, hhandled⟩

/-- A handler in progress is gone through to the end, and so is the drain it may start. -/
theorem exists_finished (hw : w.Total) {delivery : SideDelivery w} {es : List (SideEff w)}
    (hstarting : s.starting = none) (hhandling : s.handling = some ⟨client, delivery, es⟩)
    (hdraining : s.draining = none) :
    ∃ s', Relation.ReflTransGen (Step feed) s s' ∧ s'.Idle ∧
      s'.handled = s.handled ++ [(client, delivery)] := by
  obtain ⟨s₁, hrun, hstarting, hhandling, hdraining, hhandled⟩ :=
    @exists_effects w client feed s delivery es hstarting hhandling (Or.inl hdraining)
  let s₂ : SideProcess w :=
    { s₁ with
      handling := none
      handled := s₁.handled ++ [(client, delivery)] }
  have hrun₂ : Relation.ReflTransGen (Step feed) s s₂ := hrun.tail (.leave hhandling)
  have hhandled₂ : s₂.handled = s.handled ++ [(client, delivery)] := by rw [← hhandled]
  rcases hdraining with hdraining | hdraining
  · exact ⟨s₂, hrun₂, ⟨hstarting, rfl, hdraining⟩, hhandled₂⟩
  · have hopen : Step feed s₂ { s₂ with draining := some ⟨client, some (s₂.spill client)⟩ } :=
      .openSpill hdraining (fun _ h ↦ absurd h (Option.some_ne_none _).symm)
        fun _ h ↦ absurd h (Option.some_ne_none _).symm
    obtain ⟨s₃, hrun₃, hidle₃, hhandled₃⟩ := @exists_entries w client feed
      { s₂ with draining := some ⟨client, some (s₂.spill client)⟩ } hw _ hstarting rfl rfl
    exact ⟨s₃, (hrun₂.tail hopen).trans hrun₃, hidle₃, hhandled₃.trans hhandled₂⟩

/-- A message can be taken when nothing is in progress. -/
theorem exists_entered (hw : w.Total) (hidle : s.Idle) {delivery : SideDelivery w}
    (hfeed : feed client delivery) :
    ∃ entered es, Step feed s entered ∧ entered.starting = none ∧
      entered.handling = some ⟨client, delivery, es⟩ ∧ entered.draining = none ∧
      entered.handled = s.handled := by
  obtain ⟨⟨flow, es⟩, hhandle⟩ := Option.ne_none_iff_exists'.mp
    (hw.handle client (s.store.mem client) delivery)
  refine ⟨_, es, .enter hidle.starting hidle.handling hfeed (fun _ ↦ hidle.draining)
    (fun _ d hd ↦ ?_) hhandle, hidle.starting, rfl, hidle.draining, rfl⟩
  exact absurd (hidle.draining.symm.trans hd) (Option.some_ne_none d).symm

/-- A message is handled to the end, and so is the drain it may start. -/
theorem exists_handled (hw : w.Total) (hidle : s.Idle) {delivery : SideDelivery w}
    (hfeed : feed client delivery) :
    ∃ s', Relation.ReflTransGen (Step feed) s s' ∧ s'.Idle ∧
      s'.handled = s.handled ++ [(client, delivery)] := by
  obtain ⟨entered, es, henter, hstarting, hhandling, hdraining, hhandled⟩ :=
    exists_entered hw hidle hfeed
  obtain ⟨s', hrun, hidle', hhandled'⟩ :=
    @exists_finished w client feed entered hw delivery es hstarting hhandling hdraining
  exact ⟨s', .head henter hrun, hidle', hhandled'.trans (by rw [hhandled])⟩

theorem exists_handled_all (hw : w.Total) (hidle : s.Idle) {deliveries : List (SideDelivery w)}
    (hfeed : ∀ delivery ∈ deliveries, feed client delivery) :
    ∃ s', Relation.ReflTransGen (Step feed) s s' ∧ s'.Idle ∧
      s'.handled = s.handled ++ deliveries.map fun delivery ↦ (client, delivery) := by
  induction deliveries generalizing s with
  | nil => exact ⟨s, .refl, hidle, (List.append_nil _).symm⟩
  | cons delivery deliveries ih =>
    obtain ⟨s₁, hrun₁, hidle₁, hhandled₁⟩ := exists_handled hw hidle (hfeed _ List.mem_cons_self)
    obtain ⟨s₂, hrun₂, hidle₂, hhandled₂⟩ :=
      ih hidle₁ fun d hd ↦ hfeed d (List.mem_cons_of_mem _ hd)
    refine ⟨s₂, hrun₁.trans hrun₂, hidle₂, ?_⟩
    rw [hhandled₂, hhandled₁, List.map_cons, List.append_assoc]
    rfl

/-- The messages of the inputs: the side input first. -/
def deliveries (x : SideInputs w) : List (SideDelivery w) :=
  (x.sides.map fun b ↦ .side (.batch b.1 b.2)) ++
    .side (.eof x.eofId ⟨x.announced⟩) :: x.mains.map fun b ↦ .main (.data b.1 b.2)

/-- A feed of exactly these messages. -/
theorem sends_deliveries (x : SideInputs w) (client : ClientId) :
    SideFeed.Sends (fun _ delivery ↦ delivery ∈ deliveries x) client x := by
  have hmem : ∀ delivery, delivery ∈ deliveries x ↔
      (∃ b ∈ x.sides, .side (.batch b.1 b.2) = delivery) ∨
        delivery = .side (.eof x.eofId ⟨x.announced⟩) ∨
        ∃ b ∈ x.mains, .main (.data b.1 b.2) = delivery := by
    intro delivery
    rw [deliveries, List.mem_append, List.mem_cons, List.mem_map, List.mem_map]
  constructor
  · intro mid payload h
    rcases (hmem _).mp h with ⟨b, -, heq⟩ | heq | ⟨b, hb, heq⟩
    · cases heq
    · cases heq
    · cases heq
      exact hb
  · intro mid eof h
    rcases (hmem _).mp h with ⟨b, -, heq⟩ | heq | ⟨b, -, heq⟩ <;> cases heq
  · intro mid payload h
    rcases (hmem _).mp h with ⟨b, hb, heq⟩ | heq | ⟨b, -, heq⟩
    · cases heq
      exact hb
    · cases heq
    · cases heq
  · intro mid eof h
    rcases (hmem _).mp h with ⟨b, -, heq⟩ | heq | ⟨b, -, heq⟩
    · cases heq
    · cases heq
      exact ⟨rfl, rfl⟩
    · cases heq

/-- A client whose spill has been drained is ready, when no handler of it is in progress. -/
theorem isReady_of_drained (hforwards : w.Forwards) (hsends : feed.Sends client x)
    (hreach : Reachable feed s) (hdrained : s.Drained client)
    (hidle : ∀ h, s.handling = some h → h.client ≠ client) :
    (s.store.mem client).tracker.isReady = true := by
  obtain ⟨-, hjoined⟩ := joined_of_crashReachable hforwards hsends hreach.crashReachable
  obtain ⟨-, honce⟩ := once_of_reachable hforwards hsends hreach
  have hobserve := hjoined.part.progress.observe_eq fun _ _ hsome ↦
    absurd ((handler_eq_none hidle).symm.trans hsome).symm (Option.some_ne_none _)
  refine (hjoined.part.isReady_iff hobserve).mpr ?_
  by_contra hnot
  exact absurd (honce.incomplete hnot) hdrained.1.ne'

/-- **A worker that does not raise can take all of its inputs.** -/
theorem exists_done (hw : w.Total) (hforwards : w.Forwards) (hsends : feed.Sends client x)
    (hfeed : ∀ delivery ∈ deliveries x, feed client delivery) :
    ∃ s, Reachable feed s ∧ s.Done x client ∧ s.Idle := by
  obtain ⟨s, hreach, hidle, hhandled⟩ :=
    @exists_handled_all w client feed (init w) hw ⟨rfl, rfl, rfl⟩
    _ hfeed
  obtain ⟨-, honce⟩ := once_of_reachable hforwards hsends hreach
  have hmem : ∀ delivery ∈ deliveries x, delivery ∈ (s.part client).handled := by
    intro delivery hdelivery
    refine List.mem_filterMap.mpr ⟨(client, delivery), ?_, if_pos rfl⟩
    rw [hhandled]
    exact List.mem_append_right _ (List.mem_map_of_mem hdelivery)
  have hall : x.AllSide (s.part client).records := by
    intro mid hmid
    rcases List.mem_cons.mp hmid with rfl | hmid
    · exact honce.handled _ (hmem (.side (.eof x.eofId ⟨x.announced⟩))
        (List.mem_append_right _ List.mem_cons_self))
    · obtain ⟨b, hb, rfl⟩ := List.mem_map.mp hmid
      exact honce.handled _ (hmem (.side (.batch b.1 b.2))
        (List.mem_append_left _ (List.mem_map.mpr ⟨b, hb, rfl⟩)))
  have hhandler : (s.part client).handler = none :=
    handler_eq_none fun h hh ↦ absurd (hidle.handling.symm.trans hh) (Option.some_ne_none h).symm
  have hsignals : s.signals client = 1 := (honce.complete hall).resolve_right fun ⟨_, heq⟩ ↦
    absurd (hhandler.symm.trans heq) (Option.some_ne_none _).symm
  refine ⟨s, hreach, ⟨⟨hsignals ▸ Nat.one_pos, fun d hd ↦ ?_⟩, fun b hb ↦ ?_⟩, hidle⟩
  · exact absurd (hidle.draining.symm.trans hd) (Option.some_ne_none d).symm
  · rw [hhandled]
    exact List.mem_append_right _ (List.mem_map_of_mem
      (List.mem_append_right _ (List.mem_cons_of_mem _ (List.mem_map.mpr ⟨b, hb, rfl⟩))))

/-! ## What has been published -/

/-- The table of a client that is ready is made of all side batches. -/
theorem table_of_ready (hforwards : w.Forwards) (hsends : feed.Sends client x)
    (hreach : Reachable feed s) (hready : (s.store.mem client).tracker.isReady = true)
    (hidle : ∀ h, s.handling = some h → h.client ≠ client) :
    ∃ order, order.Perm x.sides ∧ w.tableOf order = some (s.store.mem client).table := by
  obtain ⟨-, hjoined⟩ := joined_of_crashReachable hforwards hsends hreach.crashReachable
  have hhandler := handler_eq_none hidle
  have hobserve := hjoined.part.progress.observe_eq fun _ _ hsome ↦
    absurd (hhandler.symm.trans hsome).symm (Option.some_ne_none _)
  have hall := (hjoined.part.isReady_iff hobserve).mp hready
  obtain ⟨order, hadds⟩ := hjoined.part.adds
  refine ⟨order, hadds.perm hall, ?_⟩
  have htable : (s.store.mem client).table = (s.part client).logged.table :=
    hjoined.part.table_eq hall
  rw [htable]
  exact hadds.table

/-- **In the end every main batch has been published once**, as what the complete table makes of
it. -/
theorem published_of_done (hforwards : w.Forwards) (hsends : feed.Sends client x)
    (hreach : Reachable feed s) (hdone : s.Done x client) :
    ∃ order table, order.Perm x.sides ∧ w.tableOf order = some table ∧
      ((s.published client).map fun p ↦ some p.message).Perm
        (x.mains.map fun b ↦ w.emit client table b.1 b.2) := by
  obtain ⟨-, hjoined⟩ := joined_of_crashReachable hforwards hsends hreach.crashReachable
  obtain ⟨-, honce⟩ := once_of_reachable hforwards hsends hreach
  have hall : x.AllSide (s.part client).records := by
    by_contra hnot
    exact absurd (honce.incomplete hnot) hdone.drained.1.ne'
  obtain ⟨order, hadds⟩ := hjoined.part.adds
  refine ⟨order, (s.part client).logged.table, hadds.perm hall, hadds.table, ?_⟩
  have hemitted : ∀ p ∈ s.published client, ∃ b ∈ x.mains, p.message.messageId = b.1 ∧
      w.emit client (s.part client).logged.table b.1 b.2 = some p.message := by
    intro p hp
    obtain ⟨-, htable, b, hb, hemit⟩ := hjoined.part.published p hp
    rw [htable] at hemit
    exact ⟨b, hb, hforwards client _ b.1 b.2 _ hemit, hemit⟩
  have hnodup : (s.publishedIds client).Nodup := (List.nodup_append.mp honce.nodup).1
  have hids : ∀ b ∈ x.mains, ∃ p ∈ s.published client, p.message.messageId = b.1 := fun b hb ↦
    List.mem_map.mp (mem_publishedIds_of_drained hjoined honce hdone.drained (hdone.handled b hb))
  have hmain : ∀ b ∈ x.mains, ∀ b' ∈ x.mains, b.1 = b'.1 → b = b' := fun b hb b' hb' h ↦
    List.inj_on_of_nodup_map x.nodup_mains hb hb' h
  refine (List.perm_ext_iff_of_nodup ?_ ?_).mpr fun o ↦ ⟨fun ho ↦ ?_, fun ho ↦ ?_⟩
  · refine List.Nodup.of_map (fun o : Option (Message w.Item) ↦ o.map Message.messageId) ?_
    rw [List.map_map]
    have hsome := hnodup.map (Option.some_injective MessageId)
    rwa [publishedIds, List.map_map] at hsome
  · refine List.Nodup.map_on (fun b hb b' hb' heq ↦ hmain b hb b' hb' ?_) (x.nodup_mains.of_map _)
    obtain ⟨p, hp, hid⟩ := hids b hb
    obtain ⟨b₁, hb₁, hid₁, hemit⟩ := hemitted p hp
    obtain rfl := hmain b hb b₁ hb₁ (hid.symm.trans hid₁)
    exact hid.symm.trans (hforwards client _ b'.1 b'.2 _ (heq ▸ hemit))
  · obtain ⟨p, hp, rfl⟩ := List.mem_map.mp ho
    obtain ⟨b, hb, -, hemit⟩ := hemitted p hp
    exact List.mem_map.mpr ⟨b, hb, hemit⟩
  · obtain ⟨b, hb, rfl⟩ := List.mem_map.mp ho
    obtain ⟨p, hp, hid⟩ := hids b hb
    obtain ⟨b₁, hb₁, hid₁, hemit⟩ := hemitted p hp
    obtain rfl := hmain b hb b₁ hb₁ (hid.symm.trans hid₁)
    exact List.mem_map.mpr ⟨p, hp, hemit.symm⟩

end SideProcess

end MoneyLaundering
