import MoneyLaundering.Joins.Runs

/-!
# A side input joined without crashes

As long as the worker does not crash, every main batch of a client that is sent some `SideInputs` is
published at most once, and exactly once when the side input is complete and the spill drained.

`Local.Once` carries this through a run. A main batch whose result has been published, or is still
to come from the spill, is in the log or about to be (`Local.Knows`), so that the batch of a handler
that has not appended its record yet is neither.
-/

namespace MoneyLaundering

open WriteAhead SideInputWorker

variable {w : SideInputWorker} {x : SideInputs w} {client : ClientId}

/-- The log has a record of the delivery. -/
def SideDelivery.RecordedIn (rs : List (SideRecord w.SideDelta)) : SideDelivery w → Prop
  | .main (.data mid _) => .message mid false ∈ rs
  | .main (.eof mid _) => mid ∈ rs.filterMap SideRecord.mainId
  | .side message => message.messageId ∈ rs.filterMap SideRecord.sideId

theorem SideDelivery.RecordedIn.mono {rs rs' : List (SideRecord w.SideDelta)}
    {delivery : SideDelivery w} (h : delivery.RecordedIn rs) (hsub : rs ⊆ rs') :
    delivery.RecordedIn rs' := by
  match delivery, h with
  | .main (.data mid payload), h => exact hsub h
  | .main (.eof mid eof), h => exact List.filterMap_subset _ hsub h
  | .side message, h => exact List.filterMap_subset _ hsub h

namespace Local

variable {l : Local w}

/-- The main batches whose results are still to come from the spill. -/
def pending (l : Local w) : List MessageId :=
  match l.drain with
  | some (some entries) => entries.map Prod.fst
  | _ => l.spill.map Prod.fst

/-- The main batch is in the log, or the handler has made its output and appends its record next. -/
def Knows (l : Local w) (mid : MessageId) : Prop :=
  .message mid false ∈ l.records ∨
    ∃ delivery tail, l.handler = some (delivery, effectsOf [] (.message mid false) tail)

/-- What holds of a client, besides `Joined`, as long as the worker does not crash. -/
structure Once (x : SideInputs w) (l : Local w) : Prop where
  started : ¬l.Waits
  nodup : (l.publishedIds ++ l.pending).Nodup
  known : ∀ mid ∈ l.publishedIds ++ l.pending, l.Knows mid
  drains : l.drain ≠ none → l.signals = 1
  unsignalled : l.Signals → l.signals = 0
  incomplete : ¬x.AllSide l.records → l.signals = 0
  complete : x.AllSide l.records → l.signals = 1 ∨ l.Signals
  recorded : ∀ delivery es, l.handler = some (delivery, es) →
    delivery.RecordedIn (l.records ++ appends es)
  handled : ∀ delivery ∈ l.handled, delivery.RecordedIn l.records

/-! ## Entering -/

section Enter

variable {feed : SideFeed w} {flow : SideFlow w.Table} {es : List (SideEff w)}

/-- A main batch that has been seen is in the log as a batch. -/
theorem Joined.message_mem (h : l.Joined x client) (hidle : l.handler = none) {mid : MessageId}
    (hseen : mid ∈ l.flow.seen.mids .main) (hmem : mid ∈ x.mains.map Prod.fst) :
    .message mid false ∈ l.records := by
  obtain ⟨order, hadds⟩ := h.adds
  have hobserve := h.progress.observe_eq fun _ _ hsome ↦
    absurd (hidle.symm.trans hsome).symm (Option.some_ne_none _)
  have hlogged : mid ∈ l.logged.seen .main := by
    rw [← hobserve]
    exact hseen
  obtain ⟨r, hr, hid⟩ := List.mem_filterMap.mp ((hadds.main mid).mp hlogged)
  exact SideInputs.message_mem h.plain hmem hr hid

/-- What has been seen is in the log. -/
theorem Joined.mem_of_seen (h : l.Joined x client) (hidle : l.handler = none) {mid : MessageId} :
    (mid ∈ l.flow.seen.mids .main → mid ∈ l.records.filterMap SideRecord.mainId) ∧
      (mid ∈ l.flow.seen.mids .side → mid ∈ l.records.filterMap SideRecord.sideId) := by
  obtain ⟨order, hadds⟩ := h.adds
  have hobserve := h.progress.observe_eq fun _ _ hsome ↦
    absurd (hidle.symm.trans hsome).symm (Option.some_ne_none _)
  rw [← hadds.main, ← hadds.side, ← hobserve]
  exact ⟨id, id⟩

/-- A handler does nothing about a message that is in the log, and appends a record of any other. -/
theorem Joined.recorded_of_handle (hsends : feed.Sends client x) (h : l.Joined x client)
    (hidle : l.handler = none) {delivery : SideDelivery w} (hfeed : feed client delivery)
    (hhandle : SideInputWorker.handle client l.flow delivery = some (flow, es)) :
    es = [] ∧ delivery.RecordedIn l.records ∨
      ∃ outs r tail, es = effectsOf outs r tail ∧ delivery.RecordedIn (l.records ++ [r]) := by
  match delivery, hfeed, hhandle with
  | .main (.data mid payload), hfeed, hhandle =>
    have hmem := List.mem_map_of_mem (f := Prod.fst) (hsends.data mid payload hfeed)
    rw [SideInputWorker.handle, handleMessage] at hhandle
    split at hhandle
    case isTrue hseen =>
      obtain ⟨-, rfl⟩ := Prod.ext_iff.mp (Option.some.inj hhandle)
      rw [Seen.mids_setdefault] at hseen
      exact Or.inl ⟨rfl, h.message_mem hidle hseen hmem⟩
    case isFalse =>
      obtain ⟨es', hes', heq⟩ := Option.map_eq_some_iff.mp hhandle
      obtain ⟨-, rfl⟩ := Prod.ext_iff.mp heq
      have hrecorded : (SideDelivery.main (.data mid payload) : SideDelivery w).RecordedIn
          (l.records ++ [.message mid false]) :=
        List.mem_append_right _ (List.mem_singleton_self _)
      rw [handleDataMessage] at hes'
      split at hes'
      · -- the side input is ready, and the batch is answered at once
        obtain ⟨m, -, rfl⟩ := Option.map_eq_some_iff.mp hes'
        exact Or.inr ⟨[.result m], _, _, rfl, hrecorded⟩
      · -- it is not, and the batch is spilled
        obtain rfl := Option.some.inj hes'
        exact Or.inr ⟨[.spill mid payload], _, _, rfl, hrecorded⟩
  | .main (.eof mid eof), hfeed, hhandle =>
    have hcleanup := (hsends.eof mid eof hfeed).2
    rw [SideInputWorker.handle, handleMessage] at hhandle
    split at hhandle
    case isTrue hseen =>
      obtain ⟨-, rfl⟩ := Prod.ext_iff.mp (Option.some.inj hhandle)
      rw [Seen.mids_setdefault] at hseen
      exact Or.inl ⟨rfl, (h.mem_of_seen hidle).1 hseen⟩
    case isFalse =>
      simp only [acceptMessage, handleEofMessage, hcleanup, Bool.false_eq_true, if_false] at hhandle
      obtain ⟨-, rfl⟩ := Prod.ext_iff.mp (Option.some.inj hhandle)
      refine Or.inr ⟨[.finalEof _ _], .message mid true, _, rfl, ?_⟩
      simp [SideDelivery.RecordedIn, SideRecord.mainId]
  | .side (.batch mid payload), hfeed, hhandle =>
    rw [SideInputWorker.handle, handleSideMessage] at hhandle
    split at hhandle
    case isTrue hseen =>
      obtain ⟨-, rfl⟩ := Prod.ext_iff.mp (Option.some.inj hhandle)
      rw [Seen.mids_setdefault] at hseen
      exact Or.inl ⟨rfl, (h.mem_of_seen hidle).2 hseen⟩
    case isFalse =>
      obtain ⟨delta, -, heq⟩ := Option.map_eq_some_iff.mp hhandle
      obtain ⟨-, rfl⟩ := Prod.ext_iff.mp heq
      refine Or.inr ⟨[], .side mid delta, _, rfl, ?_⟩
      simp [SideDelivery.RecordedIn, SideRecord.sideId, SideMessage.messageId]
  | .side (.eof mid eof), hfeed, hhandle =>
    obtain ⟨-, hcount⟩ := hsends.sideEof mid eof hfeed
    have hcleanup := isCleanupEof_of_announced hcount
    rw [SideInputWorker.handle, handleSideMessage] at hhandle
    split at hhandle
    case isTrue hseen =>
      obtain ⟨-, rfl⟩ := Prod.ext_iff.mp (Option.some.inj hhandle)
      rw [Seen.mids_setdefault] at hseen
      exact Or.inl ⟨rfl, (h.mem_of_seen hidle).2 hseen⟩
    case isFalse =>
      simp only [acceptSideMessage, hcleanup, Bool.false_eq_true, if_false] at hhandle
      obtain ⟨-, rfl⟩ := Prod.ext_iff.mp (Option.some.inj hhandle)
      refine Or.inr ⟨[], .sideEof mid eof.messageCount, _, rfl, ?_⟩
      simp [SideDelivery.RecordedIn, SideRecord.sideId, SideMessage.messageId]

/-- A handler has been entered. -/
theorem Once.enter {feed : SideFeed w} {delivery : SideDelivery w} {flow : SideFlow w.Table}
    {es : List (SideEff w)} (ho : l.Once x) (hsends : feed.Sends client x) (h : l.Joined x client)
    (hidle : l.handler = none) (hfeed : feed client delivery)
    (hhandle : SideInputWorker.handle client l.flow delivery = some (flow, es)) :
    { l with flow := flow, handler := some (delivery, es) }.Once x := by
  have hentered := h.recorded_of_handle hsends hidle hfeed hhandle
  have hsignals : ¬l.Signals := fun ⟨_, hs⟩ ↦
    absurd (hidle.symm.trans hs).symm (Option.some_ne_none _)
  have hsignals' : ¬{ l with flow := flow, handler := some (delivery, es) }.Signals := by
    rcases hentered with ⟨rfl, -⟩ | ⟨outs, r, tail, rfl, -⟩
    · rintro ⟨delivery', heq⟩
      simp at heq
    · exact not_signals_of_effectsOf rfl
  refine
    { started := ho.started
      nodup := ho.nodup
      known := fun mid hmid ↦ Or.inl ((ho.known mid hmid).resolve_right fun ⟨_, _, hs⟩ ↦
        absurd (hidle.symm.trans hs).symm (Option.some_ne_none _))
      drains := ho.drains
      unsignalled := fun hs ↦ absurd hs hsignals'
      incomplete := ho.incomplete
      complete := fun hall ↦ Or.inl ((ho.complete hall).resolve_right hsignals)
      recorded := ?_
      handled := ho.handled }
  intro delivery' es' heq
  obtain ⟨rfl, rfl⟩ := Prod.ext_iff.mp (Option.some.inj heq)
  rcases hentered with ⟨rfl, hrecorded⟩ | ⟨outs, r, tail, rfl, hrecorded⟩
  · exact hrecorded.mono (List.subset_append_left _ _)
  · refine hrecorded.mono fun r' hr' ↦ ?_
    rw [effectsOf, appends_map_publish, appends]
    rcases List.mem_append.mp hr' with hr' | hr'
    · exact List.mem_append_left _ hr'
    · exact List.mem_append_right _ (List.mem_singleton.mp hr' ▸ List.mem_cons_self)

end Enter

/-! ## The steps of a handler -/

section Handler

variable {delivery : SideDelivery w} {es : List (SideEff w)}

/-- The record of a handler that has not made its output yet is not known. -/
theorem Once.fresh {o : SideOutput w} {mid : MessageId} {tail : List (SideEff w)} (ho : l.Once x)
    (hhandler : l.handler = some (delivery, effectsOf [o] (.message mid false) tail))
    (hbefore : l.Before x client delivery [o] (.message mid false) tail) :
    mid ∉ l.publishedIds ++ l.pending := by
  intro hmid
  rcases ho.known mid hmid with hrecord | ⟨delivery', tail', heq⟩
  · exact hbefore.fresh_main mid rfl (List.mem_filterMap.mpr ⟨_, hrecord, rfl⟩)
  · simpa [effectsOf] using hhandler.symm.trans heq

/-- What is known of other batches when the handler makes its output. -/
theorem Once.known_of_output {o : SideOutput w} {r : SideRecord w.SideDelta}
    {tail : List (SideEff w)} (ho : l.Once x)
    (hhandler : l.handler = some (delivery, effectsOf [o] r tail)) {mid : MessageId}
    (hmid : mid ∈ l.publishedIds ++ l.pending) : .message mid false ∈ l.records := by
  refine (ho.known mid hmid).resolve_right fun ⟨delivery', tail', heq⟩ ↦ ?_
  simpa [effectsOf] using hhandler.symm.trans heq

/-- The handler makes its output. -/
theorem Once.perform (hforwards : w.Forwards) (ho : l.Once x) (h : l.Joined x client)
    {o : SideOutput w} {r : SideRecord w.SideDelta} {tail : List (SideEff w)}
    (hhandler : l.handler = some (delivery, effectsOf [o] r tail))
    (hbefore : l.Before x client delivery [o] r tail) :
    { l.perform o with handler := some (delivery, effectsOf [] r tail) }.Once x := by
  have hallows := hbefore.allows o (List.mem_singleton_self o)
  have hsignals : ¬l.Signals := not_signals_of_effectsOf hhandler
  have hrecorded : delivery.RecordedIn (l.records ++ appends (effectsOf [] r tail)) := by
    have hold := ho.recorded delivery _ hhandler
    rwa [effectsOf, appends_map_publish] at hold
  have hcomplete : x.AllSide l.records → l.signals = 1 := fun hall ↦
    (ho.complete hall).resolve_right hsignals
  cases o with
  | result m =>
    obtain ⟨hall, b, -, hemit, rfl⟩ := hallows
    have hid : m.messageId = b.1 := hforwards client _ b.1 b.2 m hemit
    -- the batch has no record yet, so no answer of it was published or is pending
    have hfresh : m.messageId ∉ l.publishedIds ++ l.pending := hid ▸ ho.fresh hhandler hbefore
    have hpublished : (l.perform (.result m)).publishedIds ++ l.pending
        = l.publishedIds ++ m.messageId :: l.pending := by
      rw [publishedIds_perform, List.append_assoc, List.singleton_append]
    refine
      { started := ho.started
        nodup := ?_
        known := ?_
        drains := ho.drains
        unsignalled := fun hs ↦ absurd hs (not_signals_of_effectsOf rfl)
        incomplete := ho.incomplete
        complete := fun hall ↦ Or.inl (hcomplete hall)
        recorded := fun delivery' es' heq ↦ ?_
        handled := ho.handled }
    · show ((l.perform (.result m)).publishedIds ++ l.pending).Nodup
      rw [hpublished, List.nodup_middle]
      exact List.nodup_cons.mpr ⟨hfresh, ho.nodup⟩
    · show ∀ mid ∈ (l.perform (.result m)).publishedIds ++ l.pending, _
      rw [hpublished]
      intro mid hmid
      rcases List.mem_cons.mp (List.perm_middle.mem_iff.mp hmid) with rfl | hmid
      · exact Or.inr ⟨delivery, tail, by rw [hid]⟩
      · exact Or.inl (ho.known_of_output hhandler hmid)
    · obtain ⟨rfl, rfl⟩ := Prod.ext_iff.mp (Option.some.inj heq)
      exact hrecorded
  | spill mid payload =>
    obtain ⟨hnot, -, rfl⟩ := hallows
    -- nothing is spilled once the spill is being drained, as the side input is complete then
    have hdrain : l.drain = none := by
      by_contra hne
      exact hnot (h.complete (Or.inl hne))
    have hfresh : mid ∉ l.publishedIds ++ l.pending := ho.fresh hhandler hbefore
    have hpending : { l.perform (.spill mid payload) with
          handler := some (delivery, effectsOf [] (.message mid false) tail) }.pending
        = l.pending ++ [mid] := by
      simp only [pending, Local.perform, hdrain, List.map_append, List.map_cons, List.map_nil]
    refine
      { started := ho.started
        nodup := ?_
        known := ?_
        drains := ho.drains
        unsignalled := fun hs ↦ absurd hs (not_signals_of_effectsOf rfl)
        incomplete := ho.incomplete
        complete := fun hall ↦ Or.inl (hcomplete hall)
        recorded := fun delivery' es' heq ↦ ?_
        handled := ho.handled }
    · rw [hpending]
      show (l.publishedIds ++ (l.pending ++ [mid])).Nodup
      rw [← List.append_assoc, List.nodup_append_comm]
      exact List.nodup_cons.mpr ⟨hfresh, ho.nodup⟩
    · rw [hpending]
      intro mid' hmid'
      rw [← List.append_assoc] at hmid'
      rcases List.mem_append.mp hmid' with hmid' | hmid'
      · exact Or.inl (ho.known_of_output hhandler hmid')
      · exact Or.inr ⟨delivery, tail, by rw [List.mem_singleton.mp hmid']⟩
    · obtain ⟨rfl, rfl⟩ := Prod.ext_iff.mp (Option.some.inj heq)
      exact hrecorded
  | drain => exact hallows.elim
  | discard => exact hallows.elim
  | finalEof mid eof =>
    exact
      { started := ho.started
        nodup := ho.nodup
        known := fun mid' hmid' ↦ Or.inl (ho.known_of_output hhandler hmid')
        drains := ho.drains
        unsignalled := fun hs ↦ absurd hs (not_signals_of_effectsOf rfl)
        incomplete := ho.incomplete
        complete := fun hall ↦ Or.inl (hcomplete hall)
        recorded := fun delivery' es' heq ↦ by
          obtain ⟨rfl, rfl⟩ := Prod.ext_iff.mp (Option.some.inj heq)
          exact hrecorded
        handled := ho.handled }

/-- The handler appends its record. -/
theorem Once.append (ho : l.Once x) {r : SideRecord w.SideDelta} {tail : List (SideEff w)}
    (hhandler : l.handler = some (delivery, effectsOf [] r tail))
    (hbefore : l.Before x client delivery [] r tail) :
    { l.append delivery r with handler := some (delivery, tail) }.Once x := by
  have hrecords : { l.append delivery r with handler := some (delivery, tail) }.records
      = l.records ++ [r] := records_append delivery r
  have hsignals : ¬l.Signals := not_signals_of_effectsOf hhandler
  refine
    { started := ho.started
      nodup := ho.nodup
      known := ?_
      drains := ho.drains
      unsignalled := ?_
      incomplete := fun hnot ↦ ho.incomplete fun hall ↦
        hnot (hrecords ▸ allSide_append hall r)
      complete := ?_
      recorded := ?_
      handled := fun delivery' hmem ↦ hrecords ▸
        (ho.handled delivery' hmem).mono (List.subset_append_left _ _) }
  · intro mid hmid
    refine Or.inl (hrecords ▸ ?_)
    rcases ho.known mid hmid with hrecord | ⟨delivery', tail', heq⟩
    · exact List.mem_append_left _ hrecord
    · -- it is the record that is appended now
      have hes := (Prod.ext_iff.mp (Option.some.inj (hhandler.symm.trans heq))).2
      obtain rfl := Effect.append.inj (List.cons.inj hes).1
      exact List.mem_append_right _ (List.mem_singleton_self _)
  · rintro ⟨delivery', heq⟩
    have htail : tail = [.publish .drain] := (Prod.ext_iff.mp (Option.some.inj heq)).2
    subst htail
    exact ho.incomplete (hbefore.signals.mp (List.mem_singleton_self _)).2
  · rw [hrecords]
    intro hall
    by_cases hall' : x.AllSide l.records
    · exact Or.inl ((ho.complete hall').resolve_right hsignals)
    · have hmem := hbefore.signals.mpr ⟨hall, hall'⟩
      refine Or.inr ⟨delivery, ?_⟩
      rcases hbefore.tail_eq with ⟨flow, rfl⟩ | rfl | rfl
      · exact absurd hmem (by simp)
      · exact absurd hmem List.not_mem_nil
      · rfl
  · intro delivery' es' heq
    obtain ⟨rfl, rfl⟩ := Prod.ext_iff.mp (Option.some.inj heq)
    rw [hrecords, List.append_assoc]
    exact ho.recorded delivery _ hhandler

/-- The handler reaches a checkpoint. -/
theorem Once.checkpoint (ho : l.Once x) {flow : SideFlow w.Table}
    (hhandler : l.handler = some (delivery, [.checkpoint flow])) :
    { l with handler := some (delivery, []) }.Once x where
  started := ho.started
  nodup := ho.nodup
  known mid hmid := Or.inl ((ho.known mid hmid).resolve_right fun ⟨_, _, heq⟩ ↦ by
    simpa [effectsOf] using hhandler.symm.trans heq)
  drains := ho.drains
  unsignalled := fun ⟨_, heq⟩ ↦ by simp at heq
  incomplete := ho.incomplete
  complete hall := Or.inl ((ho.complete hall).resolve_right fun ⟨_, heq⟩ ↦ by
    simpa using hhandler.symm.trans heq)
  recorded delivery' es' heq := by
    obtain ⟨rfl, rfl⟩ := Prod.ext_iff.mp (Option.some.inj heq)
    exact ho.recorded delivery [.checkpoint flow] hhandler
  handled := ho.handled

/-- The handler is done. -/
theorem Once.leave (ho : l.Once x) (hhandler : l.handler = some (delivery, [])) :
    { l with handler := none, handled := l.handled ++ [delivery] }.Once x where
  started := ho.started
  nodup := ho.nodup
  known mid hmid := Or.inl ((ho.known mid hmid).resolve_right fun ⟨_, _, heq⟩ ↦ by
    simpa [effectsOf] using hhandler.symm.trans heq)
  drains := ho.drains
  unsignalled := fun ⟨_, heq⟩ ↦ absurd heq.symm (Option.some_ne_none _)
  incomplete := ho.incomplete
  complete hall := Or.inl ((ho.complete hall).resolve_right fun ⟨_, heq⟩ ↦ by
    simpa using hhandler.symm.trans heq)
  recorded _ _ heq := absurd heq.symm (Option.some_ne_none _)
  handled delivery' hmem := by
    rcases List.mem_append.mp hmem with hmem | hmem
    · exact ho.handled delivery' hmem
    · have hrecorded := ho.recorded delivery [] hhandler
      rw [appends, List.append_nil] at hrecorded
      exact List.mem_singleton.mp hmem ▸ hrecorded

/-- The handler signals that the side input is complete. -/
theorem Once.signal (ho : l.Once x) (hall : x.AllSide l.records)
    (hhandler : l.handler = some (delivery, [.publish .drain])) :
    { l.perform .drain with handler := some (delivery, []) }.Once x := by
  have hzero : l.signals = 0 := ho.unsignalled ⟨delivery, hhandler⟩
  have hone : l.signals + 1 = 1 := by rw [hzero]
  have hdrain : l.drain = none := by
    by_contra hne
    exact absurd (ho.drains hne) (by simp [hzero])
  have hpending : { l.perform .drain with handler := some (delivery, []) }.pending = l.pending := by
    simp only [pending, Local.perform, hdrain]
  refine
    { started := ho.started
      nodup := hpending ▸ ho.nodup
      known := fun mid hmid ↦ Or.inl ((ho.known mid (hpending ▸ hmid)).resolve_right ?_)
      drains := fun _ ↦ hone
      unsignalled := ?_
      incomplete := fun hnot ↦ absurd hall hnot
      complete := fun _ ↦ Or.inl hone
      recorded := fun delivery' es' heq ↦ ?_
      handled := ho.handled }
  · rintro ⟨_, _, heq⟩
    simpa [effectsOf] using hhandler.symm.trans heq
  · rintro ⟨_, heq⟩
    simp at heq
  · obtain ⟨rfl, rfl⟩ := Prod.ext_iff.mp (Option.some.inj heq)
    exact ho.recorded delivery [.publish .drain] hhandler

end Handler

/-! ## The steps of a drain -/

section Drain

/-- The drain opens the spill. -/
theorem Once.openSpill (ho : l.Once x) (hdrain : l.drain = some none) :
    { l with drain := some (some l.spill) }.Once x := by
  have hpending : { l with drain := some (some l.spill) }.pending = l.pending := by
    simp only [pending, hdrain]
  exact { ho with
    nodup := hpending ▸ ho.nodup
    known := fun mid hmid ↦ ho.known mid (hpending ▸ hmid)
    drains := fun _ ↦ ho.drains (by rw [hdrain]; exact Option.some_ne_none _) }

/-- The drain emits an entry. -/
theorem Once.emitEntry (hforwards : w.Forwards) (ho : l.Once x) {e : MessageId × w.Payload}
    {entries : List (MessageId × w.Payload)} {m : Message w.Item}
    (hdrain : l.drain = some (some (e :: entries)))
    (hemit : w.emit client l.flow.table e.1 e.2 = some m) :
    { l.perform (.result m) with drain := some (some entries) }.Once x := by
  have hid : m.messageId = e.1 := hforwards client _ e.1 e.2 m hemit
  have hpending : l.pending = m.messageId :: entries.map Prod.fst := by
    simp only [pending, hdrain, List.map_cons, hid]
  have howed : (l.perform (.result m)).publishedIds ++ entries.map Prod.fst
      = l.publishedIds ++ l.pending := by
    rw [publishedIds_perform, hpending, List.append_assoc, List.singleton_append]
  exact { ho with
    nodup := howed ▸ ho.nodup
    known := fun mid hmid ↦ ho.known mid (howed ▸ hmid)
    drains := fun _ ↦ ho.drains (by rw [hdrain]; exact Option.some_ne_none _) }

/-- The drain is done. -/
theorem Once.closeSpill (ho : l.Once x) (hdrain : l.drain = some (some [])) :
    { l with drain := none, spill := [] }.Once x := by
  have hpending : { l with drain := none, spill := [] }.pending = l.pending := by
    simp only [pending, hdrain, List.map_nil]
  exact { ho with
    nodup := hpending ▸ ho.nodup
    known := fun mid hmid ↦ ho.known mid (hpending ▸ hmid)
    drains := fun hne ↦ absurd rfl hne }

end Drain

/-- **One step keeps what holds of a client that has seen no crash.** -/
theorem Once.step {feed : SideFeed w} {l' : Local w} (hforwards : w.Forwards)
    (hsends : feed.Sends client x) (ho : l.Once x) (h : l.Joined x client)
    (hstep : Step feed client l l') : l'.Once x := by
  cases hstep with
  | enter hidle hfeed hthread hhandle => exact ho.enter hsends h hidle hfeed hhandle
  | perform hhandler =>
    rcases (hhandler ▸ h.progress).publish with
      ⟨outs, r, tail, rfl, hbefore⟩ | ⟨rfl, rfl, hobserve, hall⟩
    · obtain rfl : outs = [] := List.length_eq_zero_iff.mp (by simpa using hbefore.single)
      exact ho.perform hforwards h hhandler hbefore
    · exact ho.signal hall hhandler
  | append hhandler => exact ho.append hhandler (hhandler ▸ h.progress).append
  | @checkpoint delivery flow es hhandler =>
    obtain ⟨rfl, -⟩ := (hhandler ▸ h.progress).checkpoint
    exact ho.checkpoint hhandler
  | leave hhandler => exact ho.leave hhandler
  | openSpill hdrain => exact ho.openSpill hdrain
  | emitEntry hdrain hemit => exact ho.emitEntry hforwards hdrain hemit
  | closeSpill hdrain => exact ho.closeSpill hdrain
  | next hwaits _ waits => exact absurd hwaits ho.started

/-- A client whose side input is complete is not spilled any more. -/
theorem Joined.spill_step {feed : SideFeed w} {l' : Local w} (h : l.Joined x client)
    (hready : l.flow.tracker.isReady = true) (hstep : Step feed client l l') :
    l'.spill = l.spill ∨ l'.spill = [] := by
  cases hstep with
  | enter => exact Or.inl rfl
  | @perform delivery o es hhandler =>
    cases o with
    | spill mid payload =>
      rcases (hhandler ▸ h.progress).publish with ⟨outs, r, tail, -, hbefore⟩ | ⟨hdrain, -⟩
      · -- a handler that spills was entered before the side input was complete
        obtain ⟨hnot, -, rfl⟩ := hbefore.allows _ List.mem_cons_self
        obtain ⟨order, hadds⟩ := h.adds
        have hcomplete : l.flow.observe.Complete := h.sane.sound.mp hready
        rw [hbefore.observe_eq] at hcomplete
        exact absurd (hadds.complete_iff.mp hcomplete) hnot
      · exact absurd hdrain (by simp)
    | result m => exact Or.inl rfl
    | drain => exact Or.inl rfl
    | discard => exact Or.inr rfl
    | finalEof mid eof => exact Or.inl rfl
  | append => exact Or.inl rfl
  | checkpoint => exact Or.inl rfl
  | leave => exact Or.inl rfl
  | openSpill => exact Or.inl rfl
  | emitEntry => exact Or.inl rfl
  | closeSpill => exact Or.inr rfl
  | next => exact Or.inl rfl

end Local

/-! ## Runs -/

namespace SideProcess

variable {s s' : SideProcess w} {feed : SideFeed w}

theorem once_init : ((init w).part client).Once x where
  started := by simp [part, init]
  nodup := List.nodup_nil
  known _ hmid := absurd hmid List.not_mem_nil
  drains hne := absurd rfl hne
  unsignalled _ := rfl
  incomplete _ := rfl
  complete hall := absurd (hall x.eofId List.mem_cons_self) List.not_mem_nil
  recorded _ _ heq := absurd heq.symm (Option.some_ne_none _)
  handled _ hmem := absurd hmem List.not_mem_nil

/-- **What holds of a client in every state of every run without crashes.** -/
theorem once_of_reachable (hforwards : w.Forwards) (hsends : feed.Sends client x)
    (hreach : Reachable feed s) : Joined x client s ∧ (s.part client).Once x := by
  induction hreach with
  | refl => exact ⟨joined_init, once_init⟩
  | tail hreach hstep ih =>
    obtain ⟨horderly, hjoined⟩ := joined_of_crashReachable hforwards hsends
      (Reachable.crashReachable hreach)
    refine ⟨hjoined.step hforwards hsends horderly hstep, ?_⟩
    rcases hjoined.part_step horderly hstep with heq | hlocal
    · exact heq ▸ ih.2
    · exact ih.2.step hforwards hsends hjoined.part hlocal

/-- The ids of the results published for a client. -/
def publishedIds (s : SideProcess w) (client : ClientId) : List MessageId :=
  (s.published client).map fun p ↦ p.message.messageId

/-- The client has been signalled to be ready, and its spill is not being drained any more. -/
def Drained (s : SideProcess w) (client : ClientId) : Prop :=
  0 < s.signals client ∧ ∀ d, s.draining = some d → d.client ≠ client

theorem drain_eq_none (h : ∀ d, s.draining = some d → d.client ≠ client) :
    (s.part client).drain = none := by
  cases hdraining : s.draining with
  | none => simp [part, hdraining]
  | some d => simp [part, hdraining, Option.filter, h d hdraining]

/-- The handler of the client is not in progress. -/
theorem handler_eq_none (h : ∀ h, s.handling = some h → h.client ≠ client) :
    (s.part client).handler = none := by
  cases hhandling : s.handling with
  | none => simp [part, hhandling]
  | some h' => simp [part, hhandling, Option.filter, h h' hhandling]

/-- Once the spill has been drained, every main batch that was handled has been published. -/
theorem mem_publishedIds_of_drained (hjoined : Joined x client s) (honce : (s.part client).Once x)
    (hdrained : s.Drained client) {mid : MessageId} {payload : w.Payload}
    (hhandled : (client, .main (.data mid payload)) ∈ s.handled) :
    mid ∈ s.publishedIds client := by
  obtain ⟨hsignals, hdraining⟩ := hdrained
  have hall : x.AllSide (s.part client).records := by
    by_contra hnot
    exact absurd (honce.incomplete hnot) hsignals.ne'
  have hmem : (.main (.data mid payload) : SideDelivery w) ∈ (s.part client).handled :=
    List.mem_filterMap.mpr ⟨_, hhandled, if_pos rfl⟩
  have hspill : (s.part client).spill = [] := by
    rcases hjoined.part.drained hall with hempty | hdrain | hwaits | hsignalled
    · exact hempty
    · exact absurd (drain_eq_none hdraining) hdrain
    · exact absurd hwaits honce.started
    · exact absurd (honce.unsignalled hsignalled) hsignals.ne'
  rcases hjoined.part.covered mid (honce.handled _ hmem) with hkept | hid
  · rw [hspill] at hkept
    exact absurd hkept List.not_mem_nil
  · exact hid

/-- The transition to ready is signalled at most once, and has been signalled when no handler of the
client is in progress. -/
theorem signals_of_ready (hjoined : Joined x client s) (honce : (s.part client).Once x) :
    s.signals client ≤ 1 ∧
      ((s.store.mem client).tracker.isReady = true →
        (∀ h, s.handling = some h → h.client ≠ client) →
        s.signals client = 1) := by
  constructor
  · by_cases hall : x.AllSide (s.part client).records
    · rcases honce.complete hall with hone | hsignals
      · exact hone.le
      · exact (honce.unsignalled hsignals).le.trans (Nat.zero_le 1)
    · exact (honce.incomplete hall).le.trans (Nat.zero_le 1)
  · intro hready hidle
    have hhandler := handler_eq_none hidle
    have hobserve := hjoined.part.progress.observe_eq fun _ _ hsome ↦
      absurd (hhandler.symm.trans hsome).symm (Option.some_ne_none _)
    refine (honce.complete ((hjoined.part.isReady_iff hobserve).mp hready)).resolve_right ?_
    rintro ⟨delivery, heq⟩
    exact absurd (hhandler.symm.trans heq).symm (Option.some_ne_none _)

end SideProcess

/-! ## The two kinds -/

section Kinds

variable {A : Type} [Zero A] [Mul A] [LE A] [DecidableLE A] [LT A] [DecidableLT A]

/-- Both kinds pass the id of the main batch on. -/
theorem SideInputKind.forwards (paymentFormatKey : String → String) (threshold : A)
    (queryId : String) (kind : SideInputKind) :
    (kind.worker paymentFormatKey threshold queryId).Forwards := by
  intro client table mid payload m hemit
  cases kind with
  | bankMapper =>
    obtain ⟨mapped, -, rfl⟩ := Option.map_eq_some_iff.mp hemit
    rfl
  | anomalyFilter => exact congrArg Message.messageId (Option.some.inj hemit).symm

/-- **Without crashes, a side input is joined exactly once.** Every result is that of a main batch,
made when the table holds every side batch; no main batch is published twice, and none is missing
once the spill has been drained; a client that is ready is not spilled any more; and the client
becomes ready once. -/
theorem side_input_joined_once (paymentFormatKey : String → String) (threshold : A)
    (queryId : String) (kind : SideInputKind)
    {x : SideInputs (kind.worker paymentFormatKey threshold queryId)} {client : ClientId}
    {feed : SideFeed (kind.worker paymentFormatKey threshold queryId)}
    {s : SideProcess (kind.worker paymentFormatKey threshold queryId)}
    (hsends : feed.Sends client x) (hreach : SideProcess.Reachable feed s) :
    (∀ p ∈ s.published client,
      (∃ b ∈ x.mains, p.message.messageId = b.1 ∧
        (kind.worker paymentFormatKey threshold queryId).emit client p.flow.table b.1 b.2
          = some p.message) ∧
      ∃ order, order.Perm x.sides ∧
        (kind.worker paymentFormatKey threshold queryId).tableOf order = some p.flow.table) ∧
    (s.publishedIds client).Nodup ∧
    (s.Drained client → ∀ mid payload, (client, .main (.data mid payload)) ∈ s.handled →
      (s.publishedIds client).count mid = 1) ∧
    ((s.store.mem client).tracker.isReady = true → ∀ s', SideProcess.Step feed s s' →
      s'.spill client = s.spill client ∨ s'.spill client = []) ∧
    s.signals client ≤ 1 ∧
    ((s.store.mem client).tracker.isReady = true →
      (∀ h, s.handling = some h → h.client ≠ client) → s.signals client = 1) := by
  have hforwards := kind.forwards paymentFormatKey threshold queryId
  obtain ⟨horderly, hjoined⟩ := SideProcess.joined_of_crashReachable hforwards hsends
    hreach.crashReachable
  obtain ⟨-, honce⟩ := SideProcess.once_of_reachable hforwards hsends hreach
  have hnodup : (s.publishedIds client).Nodup := (List.nodup_append.mp honce.nodup).1
  refine ⟨fun p hp ↦ ?_, hnodup, fun hdrained mid payload hhandled ↦ ?_, fun hready s' hstep ↦ ?_,
    SideProcess.signals_of_ready hjoined honce⟩
  · obtain ⟨hall, htable, b, hb, hemit⟩ := hjoined.part.published p hp
    obtain ⟨order, hadds⟩ := hjoined.part.adds
    refine ⟨⟨b, hb, hforwards client _ b.1 b.2 _ hemit, hemit⟩, order, hadds.perm hall, ?_⟩
    rw [htable]
    exact hadds.table
  · exact List.count_eq_one_of_mem hnodup
      (SideProcess.mem_publishedIds_of_drained hjoined honce hdrained hhandled)
  · rcases hjoined.part_step horderly hstep with heq | hlocal
    · exact Or.inl (congrArg Local.spill heq)
    · exact hjoined.part.spill_step hready hlocal

end Kinds

/-- Payments below the average of their format. -/
abbrev belowAverage : SideInputWorker := anomalyFilter (fun key ↦ key) (1 : ℕ) "3"

def wirePayment : Transaction ℕ := ⟨none, some "1", some "a", none, none, some 3, none, some "wire"⟩

def oneBatchEach : SideInputs belowAverage where
  mains := [("m", [wirePayment])]
  sides := [("s", [⟨"wire", 4⟩])]
  eofId := "e"
  nodup_mains := List.nodup_singleton "m"
  nodup_sides := by decide

def oneBatchFeed : SideFeed belowAverage
  | _, .main (.data mid payload) => (mid, payload) ∈ oneBatchEach.mains
  | _, .main (.eof _ _) => False
  | _, .side (.batch mid payload) => (mid, payload) ∈ oneBatchEach.sides
  | _, .side (.eof mid eof) => mid = "e" ∧ eof.messageCount = oneBatchEach.announced

theorem sends_oneBatchFeed (client : ClientId) : oneBatchFeed.Sends client oneBatchEach where
  data _ _ h := h
  eof _ _ h := h.elim
  batch _ _ h := h
  sideEof _ _ h := h

/-- No handler is in progress, and this is what the worker has of the client. -/
structure Resting (feed : SideFeed belowAverage) (flow : SideFlow belowAverage.Table)
    (draining : Option (Drain belowAverage)) (s : SideProcess belowAverage) : Prop where
  reach : SideProcess.Reachable feed s
  starting : s.starting = none
  handling : s.handling = none
  draining : s.draining = draining
  mem : s.store.mem "c" = flow
  spilled : s.spill "c" = [("m", [wirePayment])]
  published : s.published "c" = []

def seenBatch : Seen := (Seen.empty.setdefault .main).addTo .main "m"

theorem exists_spilled {feed : SideFeed belowAverage}
    (hfeed : feed "c" (.main (.data "m" [wirePayment]))) :
    ∃ s, Resting feed ⟨seenBatch, Tracker.empty, Dict.empty⟩ none s ∧
      s.store.log = [("c", .message "m" false)] := by
  refine ⟨_, ⟨.head (@SideProcess.Step.enter _ _ _ "c" (.main (.data "m" [wirePayment]))
      ⟨seenBatch, Tracker.empty, Dict.empty⟩ _ rfl rfl hfeed (fun h ↦ h.elim)
      (fun _ _ h ↦ absurd h.symm (Option.some_ne_none _)) rfl) <|
    .head (.perform rfl) <| .head (.append rfl) <| .head (.keep rfl) <| .single (.leave rfl),
    rfl, rfl, rfl, ?_, rfl, rfl⟩, rfl⟩
  simp [SideProcess.perform, SideProcess.append, SideProcess.setSpill]

/-- The batch arrives first and is spilled; then the side input arrives, and the spill is drained.
-/
theorem side_input_joined_once_spilled : ∃ s : SideProcess belowAverage,
    SideProcess.Reachable oneBatchFeed s ∧
    (s.published "c").map (fun p ↦ p.message) = [⟨.q3ResultBatch, some "c", "m", [⟨"1", "a", 3⟩]⟩] ∧
    (s.publishedIds "c").Nodup := by
  let seen₂ : Seen := (seenBatch.setdefault .side).addTo .side "s"
  let averages : Dict String ℕ := Dict.empty.set "wire" 4
  have hbatch : ∃ s, Resting oneBatchFeed ⟨seen₂, ⟨some 1, none, some false⟩, averages⟩ none s := by
    obtain ⟨s, h, -⟩ := exists_spilled (show oneBatchFeed _ _ from List.mem_cons_self)
    refine ⟨_, h.reach.trans <|
      .head (@SideProcess.Step.enter _ _ _ "c" (.side (.batch "s" [⟨"wire", 4⟩]))
        ⟨seen₂, ⟨some 1, none, some false⟩, averages⟩ _ h.starting h.handling
        List.mem_cons_self (fun _ ↦ h.draining)
        (fun _ _ hd ↦ absurd (h.draining.symm.trans hd).symm (Option.some_ne_none _))
        (by rw [h.mem]; rfl)) <|
      .head (.append rfl) <| .single (.leave rfl),
      h.starting, rfl, h.draining, ?_, h.spilled, h.published⟩
    simp [SideProcess.append]
  have hready : ∃ s, Resting oneBatchFeed ⟨(seen₂.setdefault .side).addTo .side "e",
      ⟨some 1, some 1, some true⟩, averages⟩ (some ⟨"c", none⟩) s := by
    obtain ⟨s, h⟩ := hbatch
    refine ⟨_, h.reach.trans <|
      .head (@SideProcess.Step.enter _ _ _ "c" (.side (.eof "e" ⟨1⟩))
        ⟨(seen₂.setdefault .side).addTo .side "e", ⟨some 1, some 1, some true⟩, averages⟩ _
        h.starting h.handling ⟨rfl, rfl⟩ (fun _ ↦ h.draining)
        (fun _ _ hd ↦ absurd (h.draining.symm.trans hd).symm (Option.some_ne_none _))
        (by rw [h.mem]; rfl)) <|
      .head (.append rfl) <| .head (@SideProcess.Step.perform _ _ _ _ _ .drain [] rfl) <|
      .single (.leave rfl), h.starting, rfl, rfl, ?_, h.spilled, h.published⟩
    simp [SideProcess.perform, SideProcess.append]
  obtain ⟨s, h⟩ := hready
  let opened : SideProcess belowAverage := { s with draining := some ⟨"c", some (s.spill "c")⟩ }
  have hopened : opened.draining = some ⟨"c", some [("m", [wirePayment])]⟩ :=
    congrArg (fun entries ↦ some (⟨"c", some entries⟩ : Drain belowAverage)) h.spilled
  have hemit : belowAverage.emit "c" (opened.store.mem "c").table "m" [wirePayment]
      = some ⟨.q3ResultBatch, some "c", "m", [⟨"1", "a", 3⟩]⟩ := by
    rw [show opened.store.mem "c" = _ from h.mem]
    rfl
  have hidle : ∀ h', s.handling = some h' → False := fun _ hh ↦
    absurd (h.handling.symm.trans hh).symm (Option.some_ne_none _)
  have hreach := h.reach.trans <|
    .head (.openSpill h.draining (fun _ hh ↦ (hidle _ hh).elim) (fun _ hh ↦ (hidle _ hh).elim)) <|
    .head (.emitEntry hopened hemit) <| .single (.closeSpill rfl)
  refine ⟨_, hreach, ?_, (side_input_joined_once (fun key ↦ key) (1 : ℕ) "3" .anomalyFilter
    (sends_oneBatchFeed "c") hreach).2.1⟩
  simp [SideProcess.publish, SideProcess.setSpill, h.published]

end MoneyLaundering
