import MoneyLaundering.Joins.Once

/-!
# A side input joined across crashes

For a client that is sent some `SideInputs` and no cleanup, recovery rebuilds what a worker would
hold that had handled, without a crash, the deliveries whose records became durable
(`SideInputWorker.live`); no main batch of the log is lost; the spill of a client that is ready is
drained before the threads are started; and results with one id are one result.

A cleanup is different: it removes the spill before the log says so, and a crash in between leaves a
client whose batches are recorded and gone.
-/

namespace MoneyLaundering

open WriteAhead SideInputWorker

variable {w : SideInputWorker} {x : SideInputs w} {client : ClientId}

/-- What a worker holds for a client after it has handled some deliveries without a crash. -/
def SideInputWorker.live (w : SideInputWorker) (client : ClientId)
    (deliveries : List (SideDelivery w)) : Option (SideFlow w.Table) :=
  deliveries.foldlM (fun flow delivery ↦ (handle client flow delivery).map Prod.fst) w.emptyFlow

/-- Handling a delivery that causes a record does to the memory what replaying the record does. -/
theorem SideDelivery.Causes.handle {delivery : SideDelivery w} {flow : SideFlow w.Table}
    {r : SideRecord w.SideDelta} (h : delivery.Causes client flow r)
    (hmain : ∀ mid, r.mainId = some mid → mid ∉ flow.seen.mids .main)
    (hside : ∀ mid, r.sideId = some mid → mid ∉ flow.seen.mids .side) :
    ∃ es, SideInputWorker.handle client flow delivery = some (w.replayRecord r flow, es) := by
  match delivery, r, h with
  | .main (.data mid payload), .message _ false, ⟨rfl, hemits⟩ =>
    have hunseen := hmain _ rfl
    rw [SideInputWorker.handle, handleMessage, if_neg (by rwa [Seen.mids_setdefault]),
      acceptMessage, handleDataMessage]
    by_cases hready : flow.tracker.isReady = true
    · obtain ⟨m, hm⟩ := Option.ne_none_iff_exists'.mp (hemits hready)
      rw [if_pos hready, hm]
      exact ⟨_, rfl⟩
    · rw [if_neg hready]
      exact ⟨_, rfl⟩
  | .main (.eof mid eof), .message _ true, ⟨rfl, hcleanup⟩ =>
    have hunseen := hmain _ rfl
    rw [SideInputWorker.handle, handleMessage, if_neg (by rwa [Seen.mids_setdefault])]
    simp only [acceptMessage, handleEofMessage, hcleanup, Bool.false_eq_true, if_false]
    exact ⟨_, rfl⟩
  | .side (.batch mid payload), .side _ delta, ⟨rfl, hdelta⟩ =>
    have hunseen := hside _ rfl
    rw [SideInputWorker.handle, handleSideMessage, if_neg (by rwa [Seen.mids_setdefault]),
      acceptSideMessage, hdelta]
    exact ⟨_, rfl⟩
  | .side (.eof mid eof), .sideEof _ _, ⟨rfl, rfl, hcleanup⟩ =>
    have hunseen := hside _ rfl
    rw [SideInputWorker.handle, handleSideMessage, if_neg (by rwa [Seen.mids_setdefault])]
    simp only [acceptSideMessage, hcleanup, Bool.false_eq_true, if_false]
    exact ⟨_, rfl⟩

namespace Local

variable {l : Local w}

/-- Handling the deliveries of the log without a crash gives what the log says. -/
def Lives (x : SideInputs w) (client : ClientId) (l : Local w) : Prop :=
  ∃ flow, w.live client (l.durable.map SideDurable.delivery) = some flow ∧
    flow.Sane x.announced ∧ flow.observe = l.logged

/-- A record is caused from what the log says as it was from memory. -/
theorem Before.causes_live {delivery : SideDelivery w} {r : SideRecord w.SideDelta}
    {tail : List (SideEff w)} (hbefore : l.Before x client delivery [] r tail)
    (h : l.Joined x client) {flow : SideFlow w.Table} (hsane : flow.Sane x.announced)
    (hobserve : flow.observe = l.logged) : delivery.Causes client flow r := by
  have hcauses := hbefore.causes
  match delivery, r, hcauses, hbefore with
  | .main (.data mid payload), .message _ false, ⟨rfl, hemits⟩, hbefore =>
    have hmemory := hbefore.observe_eq
    rw [← hobserve] at hmemory
    have htable : l.flow.table = flow.table := congrArg SideObserved.table hmemory
    have hexpected : l.flow.observe.expected = flow.observe.expected :=
      (congrArg SideObserved.expected hmemory).trans rfl
    have hreceived : l.flow.observe.received = flow.observe.received :=
      (congrArg SideObserved.received hmemory).trans rfl
    refine ⟨rfl, fun hready ↦ ?_⟩
    rw [← htable]
    obtain ⟨e, he, hle⟩ := hsane.sound.mp hready
    exact hemits (h.sane.sound.mpr ⟨e, hexpected.trans he, hle.trans_eq hreceived.symm⟩)
  | .main (.eof mid eof), .message _ true, hcauses, _ => exact hcauses
  | .side (.batch mid payload), .side _ delta, hcauses, _ => exact hcauses
  | .side (.eof mid eof), .sideEof _ _, hcauses, _ => exact hcauses

/-- The handler appends its record. -/
theorem Lives.append {delivery : SideDelivery w} {r : SideRecord w.SideDelta}
    {tail : List (SideEff w)} (hlives : l.Lives x client) (h : l.Joined x client)
    (hbefore : l.Before x client delivery [] r tail) :
    { l.append delivery r with handler := some (delivery, tail) }.Lives x client := by
  obtain ⟨flow, hlive, hsane, hobserve⟩ := hlives
  obtain ⟨order, hadds⟩ := h.adds
  have hmain : ∀ mid, r.mainId = some mid → mid ∉ flow.seen.mids .main := by
    intro mid hmid hseen
    rw [← hobserve] at hadds
    exact hbefore.fresh_main mid hmid ((hadds.main mid).mp hseen)
  have hside : ∀ mid, r.sideId = some mid → mid ∉ flow.seen.mids .side := by
    intro mid hmid hseen
    rw [← hobserve] at hadds
    exact hbefore.fresh_side mid hmid ((hadds.side mid).mp hseen)
  obtain ⟨es, hhandle⟩ := (hbefore.causes_live h hsane hobserve).handle hmain hside
  refine ⟨w.replayRecord r flow, ?_, sane_replayRecord hbefore.plain.sane hsane, ?_⟩
  · rw [live] at hlive
    show live _ _ (List.map _ (l.durable ++ [⟨delivery, r⟩])) = _
    rw [live, List.map_append, List.foldlM_append, hlive]
    simp [hhandle]
  · rw [observe_replayRecord, hobserve]
    rfl

/-- Every step but the append leaves the log alone. -/
theorem Lives.step {feed : SideFeed w} {l' : Local w} (hlives : l.Lives x client)
    (h : l.Joined x client) (hstep : Step feed client l l') : l'.Lives x client := by
  cases hstep with
  | append hhandler => exact hlives.append h (hhandler ▸ h.progress).append
  | @perform delivery o es hhandler => cases o <;> exact hlives
  | enter => exact hlives
  | checkpoint => exact hlives
  | leave => exact hlives
  | openSpill => exact hlives
  | emitEntry => exact hlives
  | closeSpill => exact hlives
  | next => exact hlives

theorem Lives.crash {e : ℤ} {l' : Local w} (hlives : l.Lives x client) (hcrash : Crash e l l') :
    l'.Lives x client := by
  cases hcrash with
  | restart => exact hlives

end Local

namespace SideProcess

variable {s s' : SideProcess w} {feed : SideFeed w}

theorem lives_init : ((init w).part client).Lives x client :=
  ⟨w.emptyFlow, rfl, sane_emptyFlow, rfl⟩

/-- What the log says is what handling its deliveries without a crash gives. -/
theorem lives_of_crashReachable (hforwards : w.Forwards) (hsends : feed.Sends client x)
    (hreach : CrashReachable feed s) : (s.part client).Lives x client := by
  induction hreach with
  | refl => exact lives_init
  | tail hreach hstep ih =>
    obtain ⟨horderly, hjoined⟩ := joined_of_crashReachable hforwards hsends hreach
    rcases hstep with hstep | hcrash
    · rcases hjoined.part_step horderly hstep with heq | hlocal
      · exact heq ▸ ih
      · exact ih.step hjoined.part hlocal
    · exact ih.crash (hjoined.part_crash hcrash).1

/-- A worker can be restarted at any point. -/
theorem exists_crash (s : SideProcess w) : ∃ s', Crash s s' := by
  classical
  obtain ⟨store, hrestarts⟩ := w.exists_restarts s.store.log
  refine ⟨_, @Crash.restart _ _ _ ((s.store.log.map Prod.fst).filter fun client ↦
    w.discipline.tracked (store.mem client) ∧ (store.mem client).tracker.isReady = true)
    hrestarts fun client ↦ ?_⟩
  rw [List.mem_filter, decide_eq_true_iff, and_iff_right_iff_imp]
  rintro ⟨htracked, -⟩
  by_contra hnot
  rw [hrestarts.1, Discipline.recovered_of_notMem hnot] at htracked
  exact not_tracked_emptyFlow htracked

/-- What holds of a client that the start has passed and nobody drains. -/
theorem spill_eq_nil (hjoined : Joined x client s) (hstarted : s.starting = none)
    (hidle : ∀ h, s.handling = some h → h.client ≠ client)
    (hdraining : ∀ d, s.draining = some d → d.client ≠ client)
    (hready : (s.store.mem client).tracker.isReady = true) : s.spill client = [] := by
  have hhandler := handler_eq_none hidle
  have hobserve := hjoined.part.progress.observe_eq fun _ _ hsome ↦
    absurd (hhandler.symm.trans hsome).symm (Option.some_ne_none _)
  rcases hjoined.part.drained ((hjoined.part.isReady_iff hobserve).mp hready) with
    hempty | hdrain | ⟨clients, hclients, -⟩ | ⟨delivery, hsignals⟩
  · exact hempty
  · exact absurd (drain_eq_none hdraining) hdrain
  · exact absurd (hstarted.symm.trans hclients).symm (Option.some_ne_none clients)
  · exact absurd (hhandler.symm.trans hsignals).symm (Option.some_ne_none _)

/-- After a recovery, memory is what handling the deliveries of the log without a crash gives. -/
theorem live_of_crash (hforwards : w.Forwards) (hsends : feed.Sends client x)
    (hreach : CrashReachable feed s) (hcrash : Crash s s') :
    ∃ live, w.live client ((s'.durable client).map SideDurable.delivery) = some live ∧
      live.observe = (s'.store.mem client).observe ∧
      live.tracker.isReady = (s'.store.mem client).tracker.isReady := by
  have hreach' : CrashReachable feed s' := hreach.tail (Or.inr hcrash)
  obtain ⟨horderly, hjoined⟩ := joined_of_crashReachable hforwards hsends hreach'
  obtain ⟨live, hlive, hsane, hobserve⟩ := lives_of_crashReachable hforwards hsends hreach'
  have hmemory : (s'.store.mem client).observe = (s'.part client).logged := by
    refine hjoined.part.progress.observe_eq fun delivery es hsome ↦ ?_
    cases hcrash with
    | restart => exact absurd hsome.symm (Option.some_ne_none _)
  have hobserve' := hobserve.trans hmemory.symm
  have hready : live.observe.Complete ↔ (s'.store.mem client).observe.Complete := by rw [hobserve']
  exact ⟨live, hlive, hobserve', Bool.eq_iff_iff.mpr
    (hsane.sound.trans (hready.trans hjoined.part.sane.sound.symm))⟩

/-- A main batch that the log has is in the spill, or has been published. -/
theorem kept_of_recovered (hjoined : Joined x client s) {mid : MessageId}
    (hmem : mid ∈ x.mains.map Prod.fst)
    (hseen : mid ∈ (w.discipline.recovered s.store.log client).seen.mids .main) :
    mid ∈ (s.spill client).map Prod.fst ∨ mid ∈ s.publishedIds client := by
  obtain ⟨order, hadds⟩ := hjoined.part.adds
  obtain ⟨r, hr, hid⟩ := List.mem_filterMap.mp ((hadds.main mid).mp hseen)
  exact hjoined.part.covered mid (SideInputs.message_mem hjoined.part.plain hmem hr hid)

/-- Results with one id are one result. -/
theorem message_eq (hforwards : w.Forwards) (hjoined : Joined x client s) {p q : Publication w}
    (hp : p ∈ s.published client) (hq : q ∈ s.published client)
    (hid : p.message.messageId = q.message.messageId) : p.message = q.message := by
  obtain ⟨-, htable, b, hb, hemit⟩ := hjoined.part.published p hp
  obtain ⟨-, htable', b', hb', hemit'⟩ := hjoined.part.published q hq
  have hids : b.1 = b'.1 := by
    rw [← hforwards client _ _ _ _ hemit, hid, hforwards client _ _ _ _ hemit']
  obtain rfl := List.inj_on_of_nodup_map x.nodup_mains hb hb' hids
  rw [htable] at hemit
  rw [htable', hemit] at hemit'
  exact Option.some.inj hemit'

end SideProcess

section Kinds

variable {A : Type} [Zero A] [Mul A] [LE A] [DecidableLE A] [LT A] [DecidableLT A]

/-- **Across crashes, a side input is joined and nothing is lost.** After a recovery the worker
holds what handling the deliveries of the log without a crash gives; a main batch that the log has
is in the spill or has been published; once the threads are started a client that is ready has no
spill, except while it is drained; and all results with one id are the same. -/
theorem side_input_recovered (paymentFormatKey : String → String) (threshold : A)
    (queryId : String) (kind : SideInputKind)
    {x : SideInputs (kind.worker paymentFormatKey threshold queryId)} {client : ClientId}
    {feed : SideFeed (kind.worker paymentFormatKey threshold queryId)}
    {s : SideProcess (kind.worker paymentFormatKey threshold queryId)}
    (hsends : feed.Sends client x) (hreach : SideProcess.CrashReachable feed s) :
    (∀ s', SideProcess.Crash s s' → ∃ live,
      (kind.worker paymentFormatKey threshold queryId).live client
        ((s'.durable client).map SideDurable.delivery) = some live ∧
      live.observe = (s'.store.mem client).observe ∧
      live.tracker.isReady = (s'.store.mem client).tracker.isReady) ∧
    (∀ b ∈ x.mains,
      b.1 ∈ ((kind.worker paymentFormatKey threshold queryId).discipline.recovered s.store.log
        client).seen.mids .main →
      b.1 ∈ (s.spill client).map Prod.fst ∨ b.1 ∈ s.publishedIds client) ∧
    (s.starting = none → (∀ h, s.handling = some h → h.client ≠ client) →
      (∀ d, s.draining = some d → d.client ≠ client) →
      (s.store.mem client).tracker.isReady = true → s.spill client = []) ∧
    (∀ p ∈ s.published client, ∀ q ∈ s.published client,
      p.message.messageId = q.message.messageId → p.message = q.message) := by
  have hforwards := kind.forwards paymentFormatKey threshold queryId
  obtain ⟨-, hjoined⟩ := SideProcess.joined_of_crashReachable hforwards hsends hreach
  exact ⟨fun s' hcrash ↦ SideProcess.live_of_crash hforwards hsends hreach hcrash,
    fun b hb hseen ↦ SideProcess.kept_of_recovered hjoined (List.mem_map_of_mem hb) hseen,
    SideProcess.spill_eq_nil hjoined,
    fun p hp q hq hid ↦ SideProcess.message_eq hforwards hjoined hp hq hid⟩

end Kinds

/-- The batch is spilled and the worker crashes: the batch is still known, and in the spill. -/
theorem side_input_recovered_spilled : ∃ s s' : SideProcess belowAverage,
    SideProcess.CrashReachable oneBatchFeed s ∧ SideProcess.Crash s s' ∧
    s'.spill "c" = [("m", [wirePayment])] ∧
    ∃ live, belowAverage.live "c" ((s'.durable "c").map SideDurable.delivery) = some live ∧
      live.observe = (s'.store.mem "c").observe ∧
      live.tracker.isReady = (s'.store.mem "c").tracker.isReady := by
  obtain ⟨s, h, -⟩ := exists_spilled (show oneBatchFeed _ _ from List.mem_cons_self)
  obtain ⟨s', hcrash⟩ := SideProcess.exists_crash s
  have hreach := h.reach.crashReachable
  have hlive := (side_input_recovered (fun key ↦ key) (1 : ℕ) "3" .anomalyFilter
    (sends_oneBatchFeed "c") hreach).1 s' hcrash
  refine ⟨s, s', hreach, hcrash, ?_, hlive⟩
  cases hcrash with
  | restart => exact h.spilled

/-- One batch and a cleanup. -/
def cleanedFeed : SideFeed belowAverage
  | _, .main (.data mid payload) => (mid, payload) ∈ oneBatchEach.mains
  | _, .main (.eof mid eof) => mid = "x" ∧ eof.messageCount = cleanupExpectedCount
  | _, .side _ => False

/-- The batch is spilled; then a cleanup arrives, whose handler removes the spill and crashes. After
the recovery the batch is still known, and it is neither in the spill nor published. -/
theorem side_input_cleaned_crash : ∃ s s' : SideProcess belowAverage,
    SideProcess.CrashReachable cleanedFeed s ∧ SideProcess.Crash s s' ∧
    "m" ∈ oneBatchEach.mains.map Prod.fst ∧ "m" ∈ (s'.store.mem "c").seen.mids .main ∧
    "m" ∉ (s'.spill "c").map Prod.fst ∧ "m" ∉ s'.publishedIds "c" := by
  obtain ⟨s, h, hlog⟩ := exists_spilled (show cleanedFeed _ _ from List.mem_cons_self)
  have hunseen : "x" ∉ (s.store.mem "c").seen.mids .main := by
    rw [h.mem]
    decide
  have hcleaned : ∃ s', SideProcess.Reachable cleanedFeed s' ∧ s'.spill "c" = [] ∧
      s'.published "c" = [] ∧ s'.store.log = [("c", .message "m" false)] := by
    refine ⟨_, h.reach.trans <|
      .head (@SideProcess.Step.enter _ _ _ "c" (.main (.eof "x" ⟨-1⟩)) _ _ h.starting h.handling
        ⟨rfl, rfl⟩ (fun h ↦ h.elim)
        (fun _ _ hd ↦ absurd (h.draining.symm.trans hd).symm (Option.some_ne_none _))
        (handleMessage_cleanup "c" hunseen rfl)) <|
      .single (@SideProcess.Step.perform _ _ _ _ _ .discard _ rfl), ?_, h.published, hlog⟩
    simp [SideProcess.perform, SideProcess.setSpill]
  obtain ⟨s₁, hreach, hspill, hpublished, hlog₁⟩ := hcleaned
  obtain ⟨s₂, hcrash⟩ := SideProcess.exists_crash s₁
  refine ⟨s₁, s₂, hreach.crashReachable, hcrash, List.mem_singleton_self "m", ?_⟩
  cases hcrash with
  | restart hrestarts hclients =>
    refine ⟨?_, ?_, ?_⟩
    · rw [hrestarts.1, hlog₁]
      decide
    · simp [hspill]
    · simp [SideProcess.publishedIds, hpublished]

end MoneyLaundering
