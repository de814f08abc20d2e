import MoneyLaundering.Joins.Local

/-!
# Entering a handler

What `_handle_message` and `_handle_side_message` do for a client that is sent some inputs: either
the message has been seen, and nothing happens, or the handler will append one record, and memory is
ahead of the log by that record.
-/

namespace MoneyLaundering

open WriteAhead SideInputWorker

variable {w : SideInputWorker} {x : SideInputs w} {client : ClientId} {l : Local w}

namespace Local

/-! ## What is known about a client -/

theorem Joined.adds (h : l.Joined x client) : ∃ order, x.Adds l.records order l.logged := by
  rw [h.replayed]
  exact SideInputs.adds_of_plain h.plain h.nodup_side

/-- The client is ready when all of the side input is in the log. -/
theorem Joined.isReady_iff (h : l.Joined x client) (hobserve : l.flow.observe = l.logged) :
    l.flow.tracker.isReady = true ↔ x.AllSide l.records := by
  obtain ⟨order, hadds⟩ := h.adds
  have hcomplete : l.flow.tracker.Complete ↔ l.logged.Complete := by
    rw [← hobserve]
    rfl
  exact Iff.trans h.sane.sound (hcomplete.trans hadds.complete_iff)

/-- Once the side input is complete, the table of the log stays what it is. -/
theorem Before.table_eq {delivery : SideDelivery w} {outs : List (SideOutput w)}
    {r : SideRecord w.SideDelta} {tail : List (SideEff w)}
    (h : l.Before x client delivery outs r tail) (hall : x.AllSide l.records) :
    (w.replayObserved r l.logged).table = l.logged.table := by
  have hnone := hall.sideId_eq_none h.plain h.fresh_side
  have hplain := h.plain
  cases r with
  | message mid eof => rfl
  | side mid delta => exact absurd hnone (Option.some_ne_none mid)
  | sideEof mid expected => exact absurd hnone (Option.some_ne_none mid)
  | snapshot seen received e state => exact hplain.elim
  | cleanup => exact hplain.elim

/-- Once all of the side input is in the log, the table in memory is that of the log. -/
theorem Joined.table_eq (h : l.Joined x client) (hall : x.AllSide l.records) :
    l.flow.table = l.logged.table := by
  have hprogress := h.progress
  generalize l.handler = handler at hprogress
  cases hprogress with
  | idle hobserve => exact congrArg SideObserved.table hobserve
  | before hbefore =>
    exact (congrArg SideObserved.table hbefore.observe_eq).trans (hbefore.table_eq hall)
  | after hobserve => exact congrArg SideObserved.table hobserve

/-! ## Entering -/

/-- A handler has been entered. -/
theorem Joined.enter (h : l.Joined x client) (hidle : l.handler = none) {flow : SideFlow w.Table}
    {delivery : SideDelivery w} {es : List (SideEff w)} (hsane : flow.Sane x.announced)
    (hprogress : { l with flow := flow, handler := some (delivery, es) }.Progress x client
      (some (delivery, es))) :
    { l with flow := flow, handler := some (delivery, es) }.Joined x client where
  sane := hsane
  replayed := h.replayed
  plain := h.plain
  nodup_main := h.nodup_main
  nodup_side := h.nodup_side
  progress := hprogress
  spilled := h.spilled
  complete := h.complete
  entries := h.entries
  drained hall := (h.drained hall).imp_right fun hor ↦ hor.imp_right fun hor ↦ hor.imp_right
    fun ⟨_, hsignals⟩ ↦ absurd (hidle.symm.trans hsignals) (Option.some_ne_none _).symm
  covered := h.covered
  published := h.published

theorem sane_of_tracker {flow flow' : SideFlow w.Table} {e : ℤ} (h : flow.Sane e)
    (htracker : flow'.tracker = flow.tracker) (hseen : ∃ ch, flow'.seen ch ≠ none) :
    flow'.Sane e where
  settled := Or.inl hseen
  sound := htracker ▸ h.sound
  expected_eq := htracker ▸ h.expected_eq

/-- The message has been seen. -/
theorem Joined.enter_seen (h : l.Joined x client) (hidle : l.handler = none) (ch : Channel)
    (delivery : SideDelivery w) :
    { l with
      flow := { l.flow with seen := l.flow.seen.setdefault ch }
      handler := some (delivery, []) }.Joined x client := by
  have hprogress := h.progress
  rw [hidle] at hprogress
  cases hprogress with
  | idle hobserve =>
    refine h.enter hidle (sane_of_tracker h.sane rfl ⟨ch, l.flow.seen.setdefault_self_ne_none ch⟩)
      (.after ?_ (Or.inr (Or.inl rfl)))
    rw [← hobserve]
    simp [SideFlow.observe]

section Main

variable (h : l.Joined x client) (hidle : l.handler = none) {mid : MessageId}
  (hseen : mid ∉ l.flow.seen.mids .main)

include h hidle hseen

/-- A message of the main channel that has not been seen. -/
theorem Joined.enter_message {delivery : SideDelivery w} {eof : Bool}
    (outs : List (SideOutput w)) {flow : SideFlow w.Table}
    (hflow : flow = { l.flow with seen := (l.flow.seen.setdefault .main).addTo .main mid })
    (hplain : eof = false ↔ mid ∈ x.mains.map Prod.fst)
    (hcauses : delivery.Causes client l.flow (.message mid eof))
    (hallows : ∀ o ∈ outs, l.Allows x client (.message mid eof) o) (hsingle : outs.length ≤ 1)
    (hcovers : eof = false → ∃ o ∈ outs, o.batchId = some mid) :
    { l with
      flow := flow
      handler := some (delivery, effectsOf outs (.message mid eof) [.checkpoint flow]) }.Joined x
        client := by
  have hprogress := h.progress
  rw [hidle] at hprogress
  obtain ⟨order, hadds⟩ := h.adds
  cases hprogress with
  | idle hobserve =>
    have hunrecorded : mid ∉ l.records.filterMap SideRecord.mainId := by
      rw [← hadds.main, ← hobserve]
      exact hseen
    have hall : x.AllSide (l.records ++ [.message mid eof]) ↔ x.AllSide l.records := by
      rw [SideInputs.AllSide, SideInputs.AllSide, List.filterMap_append]
      simp [SideRecord.sideId]
    subst hflow
    refine h.enter hidle (sane_of_tracker h.sane rfl tracked_addTo) (.before
      { observe_eq := ?_
        plain := hplain
        fresh_main := fun mid' hmid ↦ Option.some.inj hmid ▸ hunrecorded
        fresh_side := fun _ hmid ↦ absurd hmid.symm (Option.some_ne_none _)
        causes := ?_
        allows := hallows
        single := hsingle
        covers := fun mid' heq ↦ ?_
        tail_eq := Or.inl ⟨_, rfl⟩
        signals := ?_ })
    · rw [← hobserve]
      simp only [SideFlow.observe, replayObserved, SideObserved.see, seen_setdefault_addTo]
    · cases delivery with
      | main message => cases message <;> cases eof <;> exact hcauses
      | side message => cases message <;> exact hcauses.elim
    · obtain ⟨rfl, rfl⟩ := SideRecord.message.inj heq
      exact Or.inr (hcovers rfl)
    · show _ ↔ x.AllSide (l.records ++ [.message mid eof]) ∧ ¬x.AllSide l.records
      rw [hall]
      simp

end Main

section Side

variable (h : l.Joined x client) (hidle : l.handler = none)

include h hidle

/-- A message of the side channel that has not been seen. -/
theorem Joined.enter_side {delivery : SideDelivery w} {r : SideRecord w.SideDelta}
    {flow : SideFlow w.Table} {became : Bool} (hsane : flow.Sane x.announced)
    (hobserve' : flow.observe = w.replayObserved r l.flow.observe) (hplain : x.Plain r)
    (hmain : r.mainId = none)
    (hfresh : ∀ mid, r.sideId = some mid → mid ∉ l.flow.seen.mids .side)
    (hcauses : ∀ flow, delivery.Causes client flow r)
    (hbecame : became = true ↔ l.flow.tracker.isReady = false ∧ flow.tracker.isReady = true) :
    { l with
      flow := flow
      handler := some (delivery, effectsOf [] r (if became then [.publish .drain] else [])) }.Joined
        x client := by
  have hprogress := h.progress
  rw [hidle] at hprogress
  obtain ⟨order, hadds⟩ := h.adds
  cases hprogress with
  | idle hobserve =>
    have hunrecorded : ∀ mid, r.sideId = some mid →
        mid ∉ l.records.filterMap SideRecord.sideId := by
      intro mid hmid
      rw [← hadds.side, ← hobserve]
      exact hfresh mid hmid
    obtain ⟨order', hadds'⟩ := hadds.append hplain hunrecorded
    have hready : flow.tracker.isReady = true ↔ x.AllSide (l.records ++ [r]) := by
      rw [← hadds'.complete_iff, ← hobserve, ← hobserve']
      exact hsane.sound
    refine h.enter hidle hsane (.before
      { observe_eq := by rw [← hobserve]; exact hobserve'
        plain := hplain
        fresh_main := fun mid hmid ↦ absurd (hmain.symm.trans hmid).symm (Option.some_ne_none mid)
        fresh_side := hunrecorded
        causes := hcauses _
        allows := fun _ ho ↦ absurd ho List.not_mem_nil
        single := Nat.zero_le 1
        covers := ?_
        tail_eq := ?_
        signals := ?_ })
    · rintro mid rfl
      exact absurd hmain (Option.some_ne_none mid)
    · cases became
      · exact Or.inr (Or.inl rfl)
      · exact Or.inr (Or.inr rfl)
    · show _ ↔ x.AllSide (l.records ++ [r]) ∧ ¬x.AllSide l.records
      rw [← hready, ← h.isReady_iff hobserve, Bool.not_eq_true, and_comm, ← hbecame]
      cases became <;> simp

end Side

section Handle

variable {feed : SideFeed w} {flow : SideFlow w.Table} {es : List (SideEff w)}

/-- A main batch. -/
theorem Joined.handle_data (hforwards : w.Forwards) (hsends : feed.Sends client x)
    (h : l.Joined x client) (hidle : l.handler = none) {mid : MessageId} {payload : w.Payload}
    (hfeed : feed client (.main (.data mid payload)))
    (hhandle : handleMessage client l.flow (.data mid payload) = some (flow, es)) :
    { l with flow := flow, handler := some (.main (.data mid payload), es) }.Joined x client := by
  have hmem := hsends.data mid payload hfeed
  have hplain : false = false ↔ mid ∈ x.mains.map Prod.fst :=
    ⟨fun _ ↦ List.mem_map_of_mem hmem, fun _ ↦ rfl⟩
  have hprogress := h.progress
  rw [hidle] at hprogress
  by_cases hseen : mid ∈ l.flow.seen.mids .main
  · rw [handleMessage, if_pos (by rwa [Seen.mids_setdefault])] at hhandle
    obtain ⟨rfl, rfl⟩ := Prod.ext_iff.mp (Option.some.inj hhandle)
    exact h.enter_seen hidle .main _
  · rw [handleMessage, if_neg (by rwa [Seen.mids_setdefault])] at hhandle
    cases hprogress with
    | idle hobserve =>
      by_cases hready : l.flow.tracker.isReady = true
      · -- the batch is joined with the table
        have hall := (h.isReady_iff hobserve).mp hready
        rw [acceptMessage, handleDataMessage, if_pos hready] at hhandle
        cases hemit : w.emit client l.flow.table mid payload with
        | none => simp [hemit] at hhandle
        | some m =>
          simp only [hemit, Option.map_some] at hhandle
          obtain ⟨rfl, rfl⟩ := Prod.ext_iff.mp (Option.some.inj hhandle)
          have hallows : l.Allows x client (.message mid false) (.result m) :=
            ⟨hall, (mid, payload), hmem, by rw [← h.table_eq hall]; exact hemit, rfl⟩
          refine h.enter_message hidle hseen [.result m] rfl hplain ⟨rfl, fun _ ↦ ?_⟩ ?_ le_rfl ?_
          · rw [hemit]
            exact Option.some_ne_none m
          · exact fun o ho ↦ List.mem_singleton.mp ho ▸ hallows
          · exact fun _ ↦ ⟨_, List.mem_singleton_self _,
              congrArg some (hforwards client l.flow.table mid payload m hemit)⟩
      · -- the batch is spilled
        have hall := mt (h.isReady_iff hobserve).mpr hready
        rw [acceptMessage, handleDataMessage, if_neg hready, Option.map_some] at hhandle
        obtain ⟨rfl, rfl⟩ := Prod.ext_iff.mp (Option.some.inj hhandle)
        have hallows : l.Allows x client (.message mid false) (.spill mid payload) :=
          ⟨hall, hmem, rfl⟩
        refine h.enter_message hidle hseen [.spill mid payload] rfl hplain
          ⟨rfl, fun hr ↦ absurd hr hready⟩ ?_ le_rfl ?_
        · exact fun o ho ↦ List.mem_singleton.mp ho ▸ hallows
        · exact fun _ ↦ ⟨_, List.mem_singleton_self _, rfl⟩

/-- The end of the main stream. -/
theorem Joined.handle_eof (hsends : feed.Sends client x) (h : l.Joined x client)
    (hidle : l.handler = none) {mid : MessageId} {eof : EOF}
    (hfeed : feed client (.main (.eof mid eof)))
    (hhandle : handleMessage client l.flow (.eof mid eof) = some (flow, es)) :
    { l with flow := flow, handler := some (.main (.eof mid eof), es) }.Joined x client := by
  obtain ⟨hmem, hcleanup⟩ := hsends.eof mid eof hfeed
  by_cases hseen : mid ∈ l.flow.seen.mids .main
  · rw [handleMessage, if_pos (by rwa [Seen.mids_setdefault])] at hhandle
    obtain ⟨rfl, rfl⟩ := Prod.ext_iff.mp (Option.some.inj hhandle)
    exact h.enter_seen hidle .main _
  · rw [handleMessage, if_neg (by rwa [Seen.mids_setdefault])] at hhandle
    simp only [acceptMessage, handleEofMessage, hcleanup, Bool.false_eq_true, if_false] at hhandle
    obtain ⟨rfl, rfl⟩ := Prod.ext_iff.mp (Option.some.inj hhandle)
    refine h.enter_message hidle hseen [.finalEof _ _] rfl ?_ ⟨rfl, hcleanup⟩ ?_ le_rfl ?_
    · exact ⟨fun heq ↦ absurd heq (by simp), fun hm ↦ absurd hm hmem⟩
    · exact fun o ho ↦ List.mem_singleton.mp ho ▸ trivial
    · exact fun heq ↦ absurd heq (by simp)

/-- A side batch. -/
theorem Joined.handle_batch (hsends : feed.Sends client x) (h : l.Joined x client)
    (hidle : l.handler = none) {mid : MessageId} {payload : w.SidePayload}
    (hfeed : feed client (.side (.batch mid payload)))
    (hhandle : handleSideMessage l.flow (.batch mid payload) = some (flow, es)) :
    { l with flow := flow, handler := some (.side (.batch mid payload), es) }.Joined x client := by
  by_cases hseen : mid ∈ l.flow.seen.mids .side
  · rw [handleSideMessage, if_pos (by rwa [Seen.mids_setdefault])] at hhandle
    obtain ⟨rfl, rfl⟩ := Prod.ext_iff.mp (Option.some.inj hhandle)
    exact h.enter_seen hidle .side _
  · rw [handleSideMessage, if_neg (by rwa [Seen.mids_setdefault]), acceptSideMessage] at hhandle
    cases hdelta : w.sideDelta payload with
    | none => simp [hdelta] at hhandle
    | some delta =>
      simp only [hdelta, Option.map_some] at hhandle
      obtain ⟨rfl, rfl⟩ := Prod.ext_iff.mp (Option.some.inj hhandle)
      obtain ⟨hready, hbecame⟩ := Tracker.checkReady_spec
        { l.flow.tracker with received := some (l.flow.tracker.received.getD 0 + 1) }
      refine h.enter_side hidle (r := .side mid delta)
        (sane_replayRecord (r := .side mid delta) trivial h.sane)
        (observe_replayRecord (.side mid delta) l.flow)
        ⟨payload, hsends.batch mid payload hfeed, hdelta⟩ rfl
        (fun _ hmid ↦ Option.some.inj hmid ▸ hseen) (fun _ ↦ ⟨rfl, hdelta⟩) ?_
      refine Iff.trans hbecame (and_congr_right fun hnot ↦ Iff.trans ?_ hready.symm)
      rw [hnot]
      simp

/-- The end of the side input is no cleanup. -/
theorem isCleanupEof_of_announced {eof : EOF} (h : eof.messageCount = x.announced) :
    isCleanupEof eof = false := by
  rw [isCleanupEof, h, decide_eq_false_iff_not, SideInputs.announced, cleanupExpectedCount]
  omega

/-- The end of the side input. -/
theorem Joined.handle_sideEof (hsends : feed.Sends client x) (h : l.Joined x client)
    (hidle : l.handler = none) {mid : MessageId} {eof : EOF}
    (hfeed : feed client (.side (.eof mid eof)))
    (hhandle : handleSideMessage l.flow (.eof mid eof) = some (flow, es)) :
    { l with flow := flow, handler := some (.side (.eof mid eof), es) }.Joined x client := by
  obtain ⟨hmid, hcount⟩ := hsends.sideEof mid eof hfeed
  have hcleanup := isCleanupEof_of_announced hcount
  by_cases hseen : mid ∈ l.flow.seen.mids .side
  · rw [handleSideMessage, if_pos (by rwa [Seen.mids_setdefault])] at hhandle
    obtain ⟨rfl, rfl⟩ := Prod.ext_iff.mp (Option.some.inj hhandle)
    exact h.enter_seen hidle .side _
  · rw [handleSideMessage, if_neg (by rwa [Seen.mids_setdefault])] at hhandle
    simp only [acceptSideMessage, hcleanup, Bool.false_eq_true, if_false] at hhandle
    obtain ⟨rfl, rfl⟩ := Prod.ext_iff.mp (Option.some.inj hhandle)
    obtain ⟨hready, hbecame⟩ := Tracker.checkReady_spec
      { l.flow.tracker with expected := some eof.messageCount }
    refine h.enter_side hidle (r := .sideEof mid eof.messageCount)
      (sane_replayRecord (r := .sideEof mid eof.messageCount) hcount h.sane)
      (observe_replayRecord (.sideEof mid eof.messageCount) l.flow) ⟨hmid, hcount⟩ rfl
      (fun _ hmid ↦ Option.some.inj hmid ▸ hseen) (fun _ ↦ ⟨rfl, rfl, hcleanup⟩) ?_
    refine Iff.trans hbecame (and_congr_right fun hnot ↦ Iff.trans ?_ hready.symm)
    rw [hnot]
    simp

/-- **What a thread takes changes memory by one record, or not at all.** -/
theorem Joined.handle (hforwards : w.Forwards) (hsends : feed.Sends client x)
    (h : l.Joined x client) (hidle : l.handler = none) {delivery : SideDelivery w}
    (hfeed : feed client delivery)
    (hhandle : SideInputWorker.handle client l.flow delivery = some (flow, es)) :
    { l with flow := flow, handler := some (delivery, es) }.Joined x client := by
  cases delivery with
  | main message =>
    cases message with
    | data mid payload => exact h.handle_data hforwards hsends hidle hfeed hhandle
    | eof mid eof => exact h.handle_eof hsends hidle hfeed hhandle
  | side message =>
    cases message with
    | batch mid payload => exact h.handle_batch hsends hidle hfeed hhandle
    | eof mid eof => exact h.handle_sideEof hsends hidle hfeed hhandle

end Handle

end Local

end MoneyLaundering
