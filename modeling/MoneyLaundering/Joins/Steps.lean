import MoneyLaundering.Joins.Entering

/-!
# The steps of one client

What holds of a client, `Local.Joined`, is kept by each step that a handler, a drain, the start or a
crash takes on the part of the state that concerns the client.
-/

namespace MoneyLaundering

open WriteAhead SideInputWorker

variable {w : SideInputWorker} {x : SideInputs w} {client : ClientId}

namespace Local

variable {l : Local w}

theorem records_append (delivery : SideDelivery w) (r : SideRecord w.SideDelta) :
    (l.append delivery r).records = l.records ++ [r] := List.map_append

/-! ## The phases of a handler -/

section Phases

variable {delivery : SideDelivery w} {es : List (SideEff w)}

/-- A handler that is about to make an output. -/
theorem Progress.publish {o : SideOutput w}
    (h : l.Progress x client (some (delivery, .publish o :: es))) :
    (∃ outs r tail, es = effectsOf outs r tail ∧ l.Before x client delivery (o :: outs) r tail) ∨
      o = .drain ∧ es = [] ∧ l.flow.observe = l.logged ∧ x.AllSide l.records := by
  generalize hes : Effect.publish o :: es = es' at h
  cases h with
  | @before _ outs r tail hbefore =>
    cases outs with
    | nil => exact absurd hes (by simp [effectsOf])
    | cons o' outs =>
      obtain ⟨ho, rfl⟩ := List.cons.inj hes
      obtain rfl := Effect.publish.inj ho
      exact Or.inl ⟨outs, r, tail, rfl, hbefore⟩
  | after hobserve htail =>
    rcases htail with ⟨flow, rfl⟩ | rfl | ⟨rfl, hall⟩
    · exact absurd hes (by simp)
    · exact absurd hes (by simp)
    · obtain ⟨ho, rfl⟩ := List.cons.inj hes
      exact Or.inr ⟨Effect.publish.inj ho, rfl, hobserve, hall⟩

/-- A handler that is about to append its record. -/
theorem Progress.append {r : SideRecord w.SideDelta}
    (h : l.Progress x client (some (delivery, .append r :: es))) :
    l.Before x client delivery [] r es := by
  generalize hes : Effect.append r :: es = es' at h
  cases h with
  | @before _ outs r' tail hbefore =>
    cases outs with
    | nil =>
      obtain ⟨hr, rfl⟩ := List.cons.inj hes
      obtain rfl := Effect.append.inj hr
      exact hbefore
    | cons o outs => exact absurd hes (by simp [effectsOf])
  | after hobserve htail =>
    rcases htail with ⟨flow, rfl⟩ | rfl | ⟨rfl, hall⟩ <;> exact absurd hes (by simp)

/-- A handler that has reached a checkpoint. -/
theorem Progress.checkpoint {flow : SideFlow w.Table}
    (h : l.Progress x client (some (delivery, .checkpoint flow :: es))) :
    es = [] ∧ l.flow.observe = l.logged := by
  generalize hes : Effect.checkpoint flow :: es = es' at h
  cases h with
  | @before _ outs r' tail hbefore => cases outs <;> exact absurd hes (by simp [effectsOf])
  | after hobserve htail =>
    rcases htail with ⟨flow', rfl⟩ | rfl | ⟨rfl, hall⟩
    · exact ⟨(List.cons.inj hes).2, hobserve⟩
    · exact absurd hes (by simp)
    · exact absurd hes (by simp)

/-- A handler that is done, or a client without a handler. -/
theorem Progress.observe_eq {handler : Option (SideDelivery w × List (SideEff w))}
    (h : l.Progress x client handler)
    (hdone : ∀ delivery es, handler = some (delivery, es) → es = []) :
    l.flow.observe = l.logged := by
  cases h with
  | idle hobserve => exact hobserve
  | @before delivery outs r tail hbefore =>
    have hnil := hdone delivery _ rfl
    cases outs <;> exact absurd hnil (by simp [effectsOf])
  | after hobserve => exact hobserve

end Phases

/-! ## The steps -/

section Handler

variable {delivery : SideDelivery w} {es : List (SideEff w)}

/-- A step of the handler that touches nothing else. -/
theorem Joined.move (h : l.Joined x client) {handler : Option (SideDelivery w × List (SideEff w))}
    (hsignals : ¬l.Signals) (hprogress : { l with handler := handler }.Progress x client handler) :
    { l with handler := handler }.Joined x client where
  sane := h.sane
  replayed := h.replayed
  plain := h.plain
  nodup_main := h.nodup_main
  nodup_side := h.nodup_side
  progress := hprogress
  spilled := h.spilled
  complete := h.complete
  entries := h.entries
  drained hall := (h.drained hall).imp_right fun hor ↦ hor.imp_right fun hor ↦
    Or.inl (hor.resolve_right hsignals)
  covered := h.covered
  published := h.published

theorem publishedIds_perform (m : Message w.Item) :
    (l.perform (.result m)).publishedIds = l.publishedIds ++ [m.messageId] := List.map_append

theorem map_fst_spill_perform (mid : MessageId) (payload : w.Payload) :
    (l.perform (.spill mid payload)).spill.map Prod.fst = l.spill.map Prod.fst ++ [mid] :=
  List.map_append

/-- What is kept stays kept. -/
theorem Kept.perform {mid : MessageId} (h : l.Kept mid) {o : SideOutput w} (ho : o ≠ .discard) :
    (l.perform o).Kept mid := by
  cases o with
  | result m =>
    refine h.imp_right fun hmem ↦ ?_
    rw [publishedIds_perform]
    exact List.mem_append_left _ hmem
  | spill mid' payload =>
    refine h.imp_left fun hmem ↦ ?_
    rw [map_fst_spill_perform]
    exact List.mem_append_left _ hmem
  | drain => exact h
  | discard => exact absurd rfl ho
  | finalEof mid' eof => exact h

/-- An output about a main batch keeps it. -/
theorem kept_perform {mid : MessageId} {o : SideOutput w} (h : o.batchId = some mid) :
    (l.perform o).Kept mid := by
  cases o with
  | result m =>
    refine Or.inr ?_
    rw [publishedIds_perform, Option.some.inj h]
    exact List.mem_append_right _ (List.mem_singleton_self mid)
  | spill mid' payload =>
    refine Or.inl ?_
    rw [map_fst_spill_perform, Option.some.inj h]
    exact List.mem_append_right _ (List.mem_singleton_self mid)
  | drain => exact absurd h.symm (Option.some_ne_none mid)
  | discard => exact absurd h.symm (Option.some_ne_none mid)
  | finalEof mid' eof => exact absurd h.symm (Option.some_ne_none mid)

variable {o : SideOutput w} {outs : List (SideOutput w)} {r : SideRecord w.SideDelta}
  {tail : List (SideEff w)}

/-- An output before the record is in the log. -/
theorem Before.perform (h : l.Before x client delivery (o :: outs) r tail) :
    (l.perform o).Before x client delivery outs r tail := by
  have ho := h.allows o List.mem_cons_self
  have hdiscard : o ≠ .discard := by
    rintro rfl
    exact ho
  have hcovers : ∀ mid, r = .message mid false →
      (l.perform o).Kept mid ∨ ∃ o' ∈ outs, o'.batchId = some mid := by
    intro mid hr
    rcases h.covers mid hr with hkept | ⟨o', ho', hid⟩
    · exact Or.inl (hkept.perform hdiscard)
    · rcases List.mem_cons.mp ho' with rfl | ho'
      · exact Or.inl (kept_perform hid)
      · exact Or.inr ⟨o', ho', hid⟩
  have hallows : ∀ o' ∈ outs, l.Allows x client r o' := fun o' ho' ↦
    h.allows o' (List.mem_cons_of_mem _ ho')
  have hsingle : outs.length ≤ 1 := (Nat.le_succ _).trans h.single
  cases o with
  | result m => exact { h with allows := hallows, single := hsingle, covers := hcovers }
  | spill mid payload => exact { h with allows := hallows, single := hsingle, covers := hcovers }
  | drain => exact ho.elim
  | discard => exact ho.elim
  | finalEof mid eof => exact { h with allows := hallows, single := hsingle, covers := hcovers }

theorem not_signals_of_effectsOf (hhandler : l.handler = some (delivery, effectsOf outs r tail)) :
    ¬l.Signals := by
  rintro ⟨delivery', heq⟩
  have hes := (Prod.ext_iff.mp (Option.some.inj (hhandler.symm.trans heq))).2
  cases outs with
  | nil => exact absurd hes (by simp [effectsOf])
  | cons o outs => exact absurd hes (by cases outs <;> simp [effectsOf])

/-- The handler makes an output before its record is in the log. -/
theorem Joined.perform (h : l.Joined x client)
    (hhandler : l.handler = some (delivery, effectsOf (o :: outs) r tail))
    (hbefore : l.Before x client delivery (o :: outs) r tail) :
    { l.perform o with handler := some (delivery, effectsOf outs r tail) }.Joined x client := by
  have ho := hbefore.allows o List.mem_cons_self
  have hprogress : { l.perform o with handler := some (delivery, effectsOf outs r tail) }.Progress x
      client (some (delivery, effectsOf outs r tail)) := by
    have hb := hbefore.perform
    exact .before { hb with }
  have hsignals := not_signals_of_effectsOf hhandler
  have hdrained : x.AllSide l.records → l.spill = [] ∨ l.drain ≠ none ∨ l.Waits := fun hall ↦
    (h.drained hall).imp_right fun hor ↦ hor.imp_right fun hor ↦ hor.resolve_right hsignals
  have hkept : ∀ mid, l.Kept mid → o ≠ .discard → (l.perform o).Kept mid := fun _ hk hne ↦
    hk.perform hne
  cases o with
  | result m =>
    obtain ⟨hall, b, hb, hemit, -⟩ := ho
    refine { h with
      progress := hprogress
      entries := ?_
      drained := ?_
      covered := ?_
      published := ?_ }
    · intro es hes
      obtain ⟨hmains, hspill⟩ := h.entries es hes
      refine ⟨hmains, fun e he ↦ (hspill e he).imp_right fun hid ↦ ?_⟩
      show e.1 ∈ (l.perform (.result m)).publishedIds
      rw [publishedIds_perform]
      exact List.mem_append_left _ hid
    · exact fun hall ↦ (hdrained hall).imp_right fun hor ↦ hor.imp_right Or.inl
    · exact fun mid hmid ↦ hkept mid (h.covered mid hmid) (by simp)
    · intro p hp
      rcases List.mem_append.mp hp with hp | hp
      · exact h.published p hp
      · -- the answer was made from the table of the whole side input
        obtain rfl := List.mem_singleton.mp hp
        have htable := h.table_eq hall
        exact ⟨hall, htable, b, hb, by rw [htable]; exact hemit⟩
  | spill mid payload =>
    obtain ⟨hall, hmem, -⟩ := ho
    refine { h with
      progress := hprogress
      spilled := ?_
      entries := ?_
      drained := ?_
      covered := ?_ }
    · intro e he
      rcases List.mem_append.mp he with he | he
      · exact h.spilled e he
      · exact List.mem_singleton.mp he ▸ hmem
    · -- a spill that is being drained belongs to a side input that is complete
      intro es hes
      have hes' : l.drain = some (some es) := hes
      exact absurd (h.complete (Or.inl (by rw [hes']; exact Option.some_ne_none _))) hall
    · exact fun hall' ↦ absurd hall' hall
    · exact fun mid hmid ↦ hkept mid (h.covered mid hmid) (by simp)
  | drain => exact ho.elim
  | discard => exact ho.elim
  | finalEof mid eof =>
    exact { h with
      progress := hprogress
      drained := fun hall ↦ (hdrained hall).imp_right fun hor ↦ hor.imp_right Or.inl }

/-- A further record leaves a complete side input complete. -/
theorem allSide_append {rs : List (SideRecord w.SideDelta)} (hall : x.AllSide rs)
    (r : SideRecord w.SideDelta) : x.AllSide (rs ++ [r]) := fun mid hmid ↦ by
  rw [List.filterMap_append]
  exact List.mem_append_left _ (hall mid hmid)

theorem nodup_append {rs : List (SideRecord w.SideDelta)} {r : SideRecord w.SideDelta}
    {id : SideRecord w.SideDelta → Option MessageId} (hnodup : (rs.filterMap id).Nodup)
    (hfresh : ∀ mid, id r = some mid → mid ∉ rs.filterMap id) :
    ((rs ++ [r]).filterMap id).Nodup := by
  rw [List.filterMap_append, List.nodup_append]
  refine ⟨hnodup, ?_, fun mid hmid mid' hmid' heq ↦ hfresh mid ?_ hmid⟩
  · cases hid : id r <;> simp [hid]
  · rw [heq]
    simpa using hmid'

/-- The handler appends its record. -/
theorem Joined.append (h : l.Joined x client)
    (hhandler : l.handler = some (delivery, effectsOf [] r tail))
    (hbefore : l.Before x client delivery [] r tail) :
    { l.append delivery r with handler := some (delivery, tail) }.Joined x client := by
  have hrecords : { l.append delivery r with handler := some (delivery, tail) }.records
      = l.records ++ [r] := records_append delivery r
  have hdrained : x.AllSide (l.records ++ [r]) →
      l.spill = [] ∨ l.drain ≠ none ∨ l.Waits ∨ tail = [.publish .drain] := by
    intro hall
    by_cases hall' : x.AllSide l.records
    · exact (h.drained hall').imp_right fun hor ↦ hor.imp_right fun hor ↦
        Or.inl (hor.resolve_right (not_signals_of_effectsOf hhandler))
    · -- this record completes the side input
      have hmem := hbefore.signals.mpr ⟨hall, hall'⟩
      rcases hbefore.tail_eq with ⟨flow, rfl⟩ | rfl | rfl
      · exact absurd hmem (by simp)
      · exact absurd hmem List.not_mem_nil
      · exact Or.inr (Or.inr (Or.inr rfl))
  refine
    { sane := h.sane
      replayed := ?_
      plain := ?_
      nodup_main := hrecords ▸ nodup_append h.nodup_main hbefore.fresh_main
      nodup_side := hrecords ▸ nodup_append h.nodup_side hbefore.fresh_side
      progress := .after hbefore.observe_eq ?_
      spilled := h.spilled
      complete := fun hor ↦ hrecords ▸ allSide_append (h.complete hor) r
      entries := h.entries
      drained := ?_
      covered := ?_
      published := ?_ }
  · rw [hrecords, View.applyAll_append, ← h.replayed]
    rfl
  · rw [hrecords]
    intro r' hr'
    rcases List.mem_append.mp hr' with hr' | hr'
    · exact h.plain r' hr'
    · exact List.mem_singleton.mp hr' ▸ hbefore.plain
  · rw [hrecords]
    refine hbefore.tail_eq.imp_right fun hor ↦ hor.imp_right fun heq ↦ ⟨heq, ?_⟩
    exact (hbefore.signals.mp (heq ▸ List.mem_singleton_self _)).1
  · rw [hrecords]
    refine fun hall ↦ (hdrained hall).imp_right fun hor ↦ hor.imp_right fun hor ↦
      hor.imp_right fun heq ↦ ⟨delivery, ?_⟩
    rw [heq]
  · rw [hrecords]
    intro mid hmid
    rcases List.mem_append.mp hmid with hmid | hmid
    · exact h.covered mid hmid
    · exact (hbefore.covers mid (List.mem_singleton.mp hmid).symm).resolve_right
        fun ⟨o, ho, _⟩ ↦ List.not_mem_nil ho
  · rw [hrecords]
    intro p hp
    obtain ⟨hall, htable, hemit⟩ := h.published p hp
    exact ⟨allSide_append hall r, htable.trans (hbefore.table_eq hall).symm, hemit⟩

end Handler

/-! ## The steps of a drain -/

section Drain

/-- The handler signals that the side input is complete. -/
theorem Joined.signal (h : l.Joined x client) {delivery : SideDelivery w}
    (hobserve : l.flow.observe = l.logged) (hall : x.AllSide l.records) :
    { l.perform .drain with handler := some (delivery, []) }.Joined x client where
  sane := h.sane
  replayed := h.replayed
  plain := h.plain
  nodup_main := h.nodup_main
  nodup_side := h.nodup_side
  progress := .after hobserve (Or.inr (Or.inl rfl))
  spilled := h.spilled
  complete _ := hall
  entries es hes := absurd (Option.some.inj hes).symm (Option.some_ne_none es)
  drained _ := Or.inr (Or.inl (Option.some_ne_none _))
  covered := h.covered
  published := h.published

/-- Where a handler is depends on memory, log and what is kept. -/
theorem Progress.mono {l' : Local w} {handler : Option (SideDelivery w × List (SideEff w))}
    (h : l.Progress x client handler) (hflow : l'.flow = l.flow) (hlogged : l'.logged = l.logged)
    (hdurable : l'.durable = l.durable) (hkept : ∀ mid, l.Kept mid → l'.Kept mid) :
    l'.Progress x client handler := by
  have hrecords : l'.records = l.records := congrArg (List.map SideDurable.record) hdurable
  cases h with
  | idle hobserve => exact .idle (by rw [hflow, hlogged]; exact hobserve)
  | @before _ _ r _ hbefore =>
    refine .before
      { observe_eq := by rw [hflow, hlogged]; exact hbefore.observe_eq
        plain := hbefore.plain
        fresh_main := by rw [hrecords]; exact hbefore.fresh_main
        fresh_side := by rw [hrecords]; exact hbefore.fresh_side
        causes := by rw [hflow]; exact hbefore.causes
        allows := fun o ho ↦ ?_
        single := hbefore.single
        covers := fun mid hr ↦ (hbefore.covers mid hr).imp_left (hkept mid)
        tail_eq := hbefore.tail_eq
        signals := by rw [hrecords]; exact hbefore.signals }
    have hallows := hbefore.allows o ho
    cases o <;> simp only [Allows, hrecords, hlogged] at hallows ⊢ <;> exact hallows
  | after hobserve htail =>
    exact .after (by rw [hflow, hlogged]; exact hobserve) (by rw [hrecords]; exact htail)

/-- The drain of the client is scheduled when the worker is started. -/
theorem Joined.next (h : l.Joined x client) (hwaits : l.Waits) (waits : Prop) :
    { l with drain := some none, Waits := waits }.Joined x client where
  sane := h.sane
  replayed := h.replayed
  plain := h.plain
  nodup_main := h.nodup_main
  nodup_side := h.nodup_side
  progress := h.progress.mono rfl rfl rfl fun _ hkept ↦ hkept
  spilled := h.spilled
  complete _ := h.complete (Or.inr hwaits)
  entries es hes := absurd (Option.some.inj hes).symm (Option.some_ne_none es)
  drained _ := Or.inr (Or.inl (Option.some_ne_none _))
  covered := h.covered
  published := h.published

/-- The drain opens the spill. -/
theorem Joined.openSpill (h : l.Joined x client) (hdrain : l.drain = some none) :
    { l with drain := some (some l.spill) }.Joined x client where
  sane := h.sane
  replayed := h.replayed
  plain := h.plain
  nodup_main := h.nodup_main
  nodup_side := h.nodup_side
  progress := h.progress.mono rfl rfl rfl fun _ hkept ↦ hkept
  spilled := h.spilled
  complete _ := h.complete (Or.inl (by rw [hdrain]; exact Option.some_ne_none none))
  entries es hes := by
    obtain rfl := Option.some.inj (Option.some.inj hes)
    exact ⟨h.spilled, fun e he ↦ Or.inl he⟩
  drained _ := Or.inr (Or.inl (Option.some_ne_none _))
  covered := h.covered
  published := h.published

/-- The drain emits an entry. -/
theorem Joined.emitEntry (hforwards : w.Forwards) (h : l.Joined x client)
    {e : MessageId × w.Payload} {entries : List (MessageId × w.Payload)} {m : Message w.Item}
    (hdrain : l.drain = some (some (e :: entries)))
    (hemit : w.emit client l.flow.table e.1 e.2 = some m) :
    { l.perform (.result m) with drain := some (some entries) }.Joined x client := by
  have hall : x.AllSide l.records :=
    h.complete (Or.inl (by rw [hdrain]; exact Option.some_ne_none _))
  obtain ⟨hmains, hspill⟩ := h.entries _ hdrain
  have hkept : ∀ mid, l.Kept mid → (l.perform (.result m)).Kept mid := fun mid hk ↦
    hk.perform (by simp)
  refine
    { sane := h.sane
      replayed := h.replayed
      plain := h.plain
      nodup_main := h.nodup_main
      nodup_side := h.nodup_side
      progress := h.progress.mono rfl rfl rfl hkept
      spilled := h.spilled
      complete := fun _ ↦ hall
      entries := ?_
      drained := fun _ ↦ Or.inr (Or.inl (Option.some_ne_none _))
      covered := fun mid hmid ↦ hkept mid (h.covered mid hmid)
      published := ?_ }
  · intro es hes
    obtain rfl := Option.some.inj (Option.some.inj hes)
    refine ⟨fun e' he' ↦ hmains e' (List.mem_cons_of_mem _ he'), fun e' he' ↦ ?_⟩
    show e' ∈ entries ∨ e'.1 ∈ (l.perform (.result m)).publishedIds
    rw [publishedIds_perform, List.mem_append, List.mem_singleton]
    rcases hspill e' he' with hmem | hid
    · rcases List.mem_cons.mp hmem with rfl | hmem
      · exact Or.inr (Or.inr (hforwards client l.flow.table e'.1 e'.2 m hemit).symm)
      · exact Or.inl hmem
    · exact Or.inr (Or.inl hid)
  · intro p hp
    rcases List.mem_append.mp hp with hp | hp
    · exact h.published p hp
    · obtain rfl := List.mem_singleton.mp hp
      exact ⟨hall, h.table_eq hall, e, hmains e List.mem_cons_self, hemit⟩

/-- The drain is done: the spill is removed. -/
theorem Joined.closeSpill (h : l.Joined x client) (hdrain : l.drain = some (some [])) :
    { l with drain := none, spill := [] }.Joined x client := by
  have hkept : ∀ mid, l.Kept mid → { l with drain := none, spill := [] }.Kept mid := by
    rintro mid (hmem | hid)
    · obtain ⟨e, he, rfl⟩ := List.mem_map.mp hmem
      exact Or.inr (((h.entries [] hdrain).2 e he).resolve_left List.not_mem_nil)
    · exact Or.inr hid
  exact
    { sane := h.sane
      replayed := h.replayed
      plain := h.plain
      nodup_main := h.nodup_main
      nodup_side := h.nodup_side
      progress := h.progress.mono rfl rfl rfl hkept
      spilled := fun _ he ↦ absurd he List.not_mem_nil
      complete := fun _ ↦ h.complete (Or.inl (by rw [hdrain]; exact Option.some_ne_none _))
      entries := fun es hes ↦ absurd hes.symm (Option.some_ne_none _)
      drained := fun _ ↦ Or.inl rfl
      covered := fun mid hmid ↦ hkept mid (h.covered mid hmid)
      published := h.published }

end Drain

/-- A crash and the recovery from the log. -/
theorem Joined.crash (h : l.Joined x client) {flow : SideFlow w.Table}
    (hsane : flow.Sane x.announced) (hobserve : flow.observe = l.logged) :
    { l with
      flow := flow
      handler := none
      drain := none
      Waits := w.discipline.tracked flow ∧ flow.tracker.isReady = true }.Joined x client := by
  obtain ⟨order, hadds⟩ := h.adds
  have hready : flow.tracker.isReady = true ↔ x.AllSide l.records := by
    rw [← hadds.complete_iff, ← hobserve]
    exact hsane.sound
  refine
    { sane := hsane
      replayed := h.replayed
      plain := h.plain
      nodup_main := h.nodup_main
      nodup_side := h.nodup_side
      progress := .idle hobserve
      spilled := h.spilled
      complete := fun hor ↦ hready.mp (hor.resolve_left (fun hne ↦ hne rfl)).2
      entries := fun es hes ↦ absurd hes.symm (Option.some_ne_none _)
      drained := fun hall ↦ Or.inr (Or.inr (Or.inl ⟨?_, hready.mpr hall⟩))
      covered := h.covered
      published := h.published }
  rcases hsane.settled with htracked | hempty
  · exact htracked
  · have hunset : flow.tracker.isReady = false := by
      rw [hempty]
      rfl
    exact absurd (hready.mpr hall) (by rw [hunset]; exact Bool.false_ne_true)

/-! ## Every step -/

/-- The handler is done. -/
theorem Joined.leave (h : l.Joined x client) {delivery : SideDelivery w}
    (hhandler : l.handler = some (delivery, [])) (handled : List (SideDelivery w)) :
    { l with handler := none, handled := handled }.Joined x client := by
  have hsignals : ¬l.Signals := by
    rintro ⟨delivery', heq⟩
    simpa using hhandler.symm.trans heq
  have hobserve := h.progress.observe_eq fun delivery' es hsome ↦
    (Prod.ext_iff.mp (Option.some.inj (hhandler.symm.trans hsome))).2.symm
  have hmoved := h.move hsignals (.idle hobserve)
  exact { hmoved with progress := hmoved.progress.mono rfl rfl rfl fun _ hkept ↦ hkept }

/-- **One step keeps what holds of a client.** -/
theorem Joined.step {feed : SideFeed w} {l' : Local w} (hforwards : w.Forwards)
    (hsends : feed.Sends client x) (h : l.Joined x client) (hstep : Step feed client l l') :
    l'.Joined x client := by
  cases hstep with
  | enter hidle hfeed hthread hhandle => exact h.handle hforwards hsends hidle hfeed hhandle
  | perform hhandler =>
    rcases (hhandler ▸ h.progress).publish with
      ⟨outs, r, tail, rfl, hbefore⟩ | ⟨rfl, rfl, hobserve, hall⟩
    · exact h.perform hhandler hbefore
    · exact h.signal hobserve hall
  | append hhandler => exact h.append hhandler (hhandler ▸ h.progress).append
  | @checkpoint delivery flow es hhandler =>
    obtain ⟨rfl, hobserve⟩ := (hhandler ▸ h.progress).checkpoint
    refine h.move ?_ (.after hobserve (Or.inr (Or.inl rfl)))
    rintro ⟨delivery', heq⟩
    simpa using hhandler.symm.trans heq
  | leave hhandler => exact h.leave hhandler _
  | openSpill hdrain => exact h.openSpill hdrain
  | emitEntry hdrain hemit => exact h.emitEntry hforwards hdrain hemit
  | closeSpill hdrain => exact h.closeSpill hdrain
  | next hwaits _ waits => exact h.next hwaits waits

/-- **A crash keeps what holds of a client.** -/
theorem Joined.crash_step {l' : Local w} (h : l.Joined x client) (hcrash : Crash x.announced l l') :
    l'.Joined x client := by
  cases hcrash with
  | restart hsane hobserve => exact h.crash hsane hobserve

end Local

end MoneyLaundering
