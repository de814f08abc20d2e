import MoneyLaundering.Joins.Observation

/-!
# What the records of a client add up to

`SideInputs` is what a side-input worker is sent for a client: main batches, side batches, and the
message that ends the side input and announces how many side batches there are. When all records of
a client come from these, what they add up to is determined by the ids in them: `adds_of_plain`. In
particular the side input is complete exactly when all its messages have been recorded, and then the
table is made of every side batch once.
-/

namespace MoneyLaundering

open WriteAhead

namespace SideRecord

variable {Δ : Type}

/-- The id of a message of the main channel. -/
def mainId : SideRecord Δ → Option MessageId
  | .message mid _ => some mid
  | _ => none

/-- The id of a message of the side channel. -/
def sideId : SideRecord Δ → Option MessageId
  | .side mid _ => some mid
  | .sideEof mid _ => some mid
  | _ => none

end SideRecord

/-- The table after some side batches; nothing when one of them cannot be read. -/
def SideInputWorker.tableOf (w : SideInputWorker) (batches : List (MessageId × w.SidePayload)) :
    Option w.Table :=
  batches.foldlM (fun table b ↦ (w.sideDelta b.2).map fun delta ↦ w.applySideDelta delta table)
    w.emptyTable

theorem SideInputWorker.tableOf_append_singleton {w : SideInputWorker}
    {batches : List (MessageId × w.SidePayload)} {table : w.Table} {b : MessageId × w.SidePayload}
    {delta : w.SideDelta} (h : w.tableOf batches = some table)
    (hdelta : w.sideDelta b.2 = some delta) :
    w.tableOf (batches ++ [b]) = some (w.applySideDelta delta table) := by
  rw [tableOf] at h
  rw [tableOf, List.foldlM_append, h]
  simp [hdelta]

/-- What a side-input worker is sent for a client, short of a cleanup. -/
structure SideInputs (w : SideInputWorker) where
  mains : List (MessageId × w.Payload)
  sides : List (MessageId × w.SidePayload)
  /-- The id of the message that ends the side input. -/
  eofId : MessageId
  nodup_mains : (mains.map Prod.fst).Nodup
  nodup_sides : (eofId :: sides.map Prod.fst).Nodup

namespace SideInputs

variable {w : SideInputWorker} (x : SideInputs w)

/-- How many side batches the end of the side input announces: all of them. -/
def announced : ℤ := x.sides.length

/-- A record that some message of the inputs causes. -/
def Plain : SideRecord w.SideDelta → Prop
  | .message mid eof => eof = false ↔ mid ∈ x.mains.map Prod.fst
  | .side mid delta => ∃ payload, (mid, payload) ∈ x.sides ∧ w.sideDelta payload = some delta
  | .sideEof mid expected => mid = x.eofId ∧ expected = x.announced
  | _ => False

theorem Plain.sane {x : SideInputs w} {r : SideRecord w.SideDelta} (h : x.Plain r) :
    r.Sane x.announced := by
  cases r with
  | message mid eof => exact trivial
  | side mid delta => exact trivial
  | sideEof mid e => exact h.2
  | snapshot seen received e state => exact h.elim
  | cleanup => exact h.elim

/-- All messages of the side channel have been recorded. -/
def AllSide (rs : List (SideRecord w.SideDelta)) : Prop :=
  ∀ mid ∈ x.eofId :: x.sides.map Prod.fst, mid ∈ rs.filterMap SideRecord.sideId

/-- What some records add up to; `order` are the side batches among them. -/
structure Adds (rs : List (SideRecord w.SideDelta)) (order : List (MessageId × w.SidePayload))
    (v : SideObserved w.Table) : Prop where
  main : ∀ mid, mid ∈ v.seen .main ↔ mid ∈ rs.filterMap SideRecord.mainId
  side : ∀ mid, mid ∈ v.seen .side ↔ mid ∈ rs.filterMap SideRecord.sideId
  expected : v.expected
    = if x.eofId ∈ rs.filterMap SideRecord.sideId then some x.announced else none
  received : v.received = order.length
  batches : ∀ b ∈ order, b ∈ x.sides
  order_ids : ∀ mid, mid ∈ rs.filterMap SideRecord.sideId ↔
    mid ∈ order.map Prod.fst ∨ mid = x.eofId ∧ x.eofId ∈ rs.filterMap SideRecord.sideId
  nodup : (order.map Prod.fst).Nodup
  table : w.tableOf order = some v.table

variable {x}

theorem notMem_sides {b : MessageId × w.SidePayload} (h : b ∈ x.sides) : b.1 ≠ x.eofId := by
  intro heq
  exact (List.nodup_cons.mp x.nodup_sides).1 (heq ▸ List.mem_map_of_mem h)

theorem adds_nil : x.Adds [] [] w.nothing := by
  constructor <;> simp [SideInputWorker.nothing, SideFlow.observe, SideInputWorker.emptyFlow,
    Seen.empty, Seen.mids, Tracker.empty, SideInputWorker.tableOf]

section Append

variable {rs : List (SideRecord w.SideDelta)} {order : List (MessageId × w.SidePayload)}
  {v : SideObserved w.Table}

/-- One more message of the main channel. -/
theorem Adds.message (h : x.Adds rs order v) (mid : MessageId) (eof : Bool) :
    x.Adds (rs ++ [.message mid eof]) order (w.replayObserved (.message mid eof) v) := by
  have hside : (rs ++ [SideRecord.message mid eof]).filterMap SideRecord.sideId
      = rs.filterMap SideRecord.sideId := by simp [List.filterMap_append, SideRecord.sideId]
  refine ⟨fun mid' ↦ ?_, fun mid' ↦ ?_, ?_, h.received, h.batches, ?_, h.nodup, h.table⟩
  · have hmem := h.main mid'
    simp [SideInputWorker.replayObserved, SideObserved.see, List.filterMap_append,
      SideRecord.mainId] at hmem ⊢
    rw [hmem, or_comm]
  · rw [hside, ← h.side]
    rfl
  · rw [hside]
    exact h.expected
  · rw [hside]
    exact h.order_ids

/-- One more side batch. -/
theorem Adds.sideBatch (h : x.Adds rs order v) {mid : MessageId} {payload : w.SidePayload}
    {delta : w.SideDelta} (hfresh : mid ∉ rs.filterMap SideRecord.sideId)
    (hmem : (mid, payload) ∈ x.sides) (hdelta : w.sideDelta payload = some delta) :
    x.Adds (rs ++ [.side mid delta]) (order ++ [(mid, payload)])
      (w.replayObserved (.side mid delta) v) := by
  have hne : mid ≠ x.eofId := notMem_sides hmem
  have hmain : (rs ++ [SideRecord.side mid delta]).filterMap SideRecord.mainId
      = rs.filterMap SideRecord.mainId := by simp [List.filterMap_append, SideRecord.mainId]
  have hside : (rs ++ [SideRecord.side mid delta]).filterMap SideRecord.sideId
      = rs.filterMap SideRecord.sideId ++ [mid] := by
    simp [List.filterMap_append, SideRecord.sideId]
  have heof : x.eofId ∈ rs.filterMap SideRecord.sideId ++ [mid]
      ↔ x.eofId ∈ rs.filterMap SideRecord.sideId := by
    rw [List.mem_append, List.mem_singleton]
    exact or_iff_left hne.symm
  refine ⟨fun mid' ↦ ?_, fun mid' ↦ ?_, ?_, ?_, ?_, fun mid' ↦ ?_, ?_,
    SideInputWorker.tableOf_append_singleton h.table hdelta⟩
  · rw [hmain, ← h.main]
    rfl
  · have hold := h.side mid'
    rw [hside, List.mem_append, List.mem_singleton, ← hold]
    simp [SideInputWorker.replayObserved, SideObserved.see, or_comm]
  · rw [hside]
    simp only [heof]
    exact h.expected
  · show v.received + 1 = _
    rw [h.received, List.length_append, List.length_singleton, Nat.cast_add, Nat.cast_one]
  · intro b hb
    rcases List.mem_append.mp hb with hb | hb
    · exact h.batches b hb
    · exact List.mem_singleton.mp hb ▸ hmem
  · rw [hside, heof, List.mem_append, h.order_ids, List.map_append, List.mem_append]
    exact or_right_comm
  · rw [List.map_append, List.nodup_append]
    refine ⟨h.nodup, List.nodup_singleton mid, fun a ha b hb hab ↦ hfresh ?_⟩
    have hb' : b = mid := List.mem_singleton.mp hb
    rw [hab, hb'] at ha
    exact (h.order_ids mid).mpr (Or.inl ha)

/-- The end of the side input. -/
theorem Adds.sideEof (h : x.Adds rs order v) :
    x.Adds (rs ++ [.sideEof x.eofId x.announced]) order
      (w.replayObserved (.sideEof x.eofId x.announced) v) := by
  have hmain : (rs ++ [SideRecord.sideEof x.eofId x.announced]).filterMap SideRecord.mainId
      = rs.filterMap SideRecord.mainId := by simp [List.filterMap_append, SideRecord.mainId]
  have hside : (rs ++ [SideRecord.sideEof x.eofId x.announced]).filterMap SideRecord.sideId
      = rs.filterMap SideRecord.sideId ++ [x.eofId] := by
    simp [List.filterMap_append, SideRecord.sideId]
  have heof : x.eofId ∈ rs.filterMap SideRecord.sideId ++ [x.eofId] :=
    List.mem_append_right _ (List.mem_singleton_self _)
  refine ⟨fun mid' ↦ ?_, fun mid' ↦ ?_, ?_, h.received, h.batches, fun mid' ↦ ?_, h.nodup, h.table⟩
  · rw [hmain, ← h.main]
    rfl
  · have hold := h.side mid'
    rw [hside, List.mem_append, List.mem_singleton, ← hold]
    simp [SideInputWorker.replayObserved, SideObserved.see, or_comm]
  · rw [hside, if_pos heof]
    rfl
  · rw [hside, List.mem_append, List.mem_singleton, h.order_ids]
    constructor
    · rintro ((hmem | ⟨rfl, -⟩) | rfl)
      · exact Or.inl hmem
      · exact Or.inr ⟨rfl, heof⟩
      · exact Or.inr ⟨rfl, heof⟩
    · rintro (hmem | ⟨rfl, -⟩)
      · exact Or.inl (Or.inl hmem)
      · exact Or.inr rfl

/-- One more record of the inputs. -/
theorem Adds.append (h : x.Adds rs order v) {r : SideRecord w.SideDelta} (hr : x.Plain r)
    (hfresh : ∀ mid, r.sideId = some mid → mid ∉ rs.filterMap SideRecord.sideId) :
    ∃ order', x.Adds (rs ++ [r]) order' (w.replayObserved r v) := by
  cases r with
  | message mid eof => exact ⟨order, h.message mid eof⟩
  | side mid delta =>
    obtain ⟨payload, hmem, hdelta⟩ := hr
    exact ⟨_, h.sideBatch (hfresh mid rfl) hmem hdelta⟩
  | sideEof mid expected =>
    obtain ⟨rfl, rfl⟩ := hr
    exact ⟨order, h.sideEof⟩
  | snapshot seen received e state => exact hr.elim
  | cleanup => exact hr.elim

end Append

/-- **What the records of a client add up to.** -/
theorem adds_of_plain {rs : List (SideRecord w.SideDelta)} (hplain : ∀ r ∈ rs, x.Plain r)
    (hnodup : (rs.filterMap SideRecord.sideId).Nodup) :
    ∃ order, x.Adds rs order (w.sideObservation.applyAll rs w.nothing) := by
  induction rs using List.reverseRecOn with
  | nil => exact ⟨[], adds_nil⟩
  | append_singleton rs r ih =>
    rw [List.filterMap_append, List.nodup_append] at hnodup
    obtain ⟨order, horder⟩ := ih (fun r' hr' ↦ hplain r' (List.mem_append_left _ hr')) hnodup.1
    rw [View.applyAll_append]
    refine horder.append (hplain r (List.mem_append_right _ (List.mem_singleton_self r)))
      fun mid hmid hold ↦ hnodup.2.2 mid hold mid ?_ rfl
    simp [hmid]

/-- **The side input is complete exactly when all of it has been recorded.** -/
theorem Adds.complete_iff {rs : List (SideRecord w.SideDelta)}
    {order : List (MessageId × w.SidePayload)} {v : SideObserved w.Table} (h : x.Adds rs order v) :
    v.Complete ↔ x.AllSide rs := by
  have hsub : order.map Prod.fst ⊆ x.sides.map Prod.fst := List.map_subset _ h.batches
  have hsubperm := List.subperm_of_subset h.nodup hsub
  constructor
  · rintro ⟨e, hexpected, hle⟩
    by_cases heof : x.eofId ∈ rs.filterMap SideRecord.sideId
    · rw [h.expected, if_pos heof] at hexpected
      obtain rfl := Option.some.inj hexpected
      rw [h.received, announced, Nat.cast_le] at hle
      have hperm := hsubperm.perm_of_length_le (by simpa using hle)
      intro mid hmid
      rcases List.mem_cons.mp hmid with rfl | hmid
      · exact heof
      · exact (h.order_ids mid).mpr (Or.inl (hperm.mem_iff.mpr hmid))
    · rw [h.expected, if_neg heof] at hexpected
      exact absurd hexpected.symm (Option.some_ne_none e)
  · intro hall
    have heof := hall x.eofId List.mem_cons_self
    refine ⟨x.announced, by rw [h.expected, if_pos heof], ?_⟩
    have hsup : x.sides.map Prod.fst ⊆ order.map Prod.fst := fun mid hmid ↦
      ((h.order_ids mid).mp (hall mid (List.mem_cons_of_mem _ hmid))).elim id fun heq ↦
        absurd hmid (heq.1 ▸ (List.nodup_cons.mp x.nodup_sides).1)
    have hlen := (List.subperm_of_subset (List.nodup_cons.mp x.nodup_sides).2 hsup).length_le
    rw [h.received, announced, Nat.cast_le]
    simpa using hlen

/-- Once all of the side input has been recorded, the table is made of each side batch once. -/
theorem Adds.perm {rs : List (SideRecord w.SideDelta)} {order : List (MessageId × w.SidePayload)}
    {v : SideObserved w.Table} (h : x.Adds rs order v) (hall : x.AllSide rs) :
    order.Perm x.sides := by
  obtain ⟨e, hexpected, hle⟩ := h.complete_iff.mpr hall
  have heof := hall x.eofId List.mem_cons_self
  rw [h.expected, if_pos heof] at hexpected
  obtain rfl := Option.some.inj hexpected
  rw [h.received, announced, Nat.cast_le] at hle
  exact (List.subperm_of_subset (List.Nodup.of_map _ h.nodup) h.batches).perm_of_length_le hle

/-- When all of the side input has been recorded, a new record is one of the main channel. -/
theorem AllSide.sideId_eq_none {rs : List (SideRecord w.SideDelta)} (hall : x.AllSide rs)
    {r : SideRecord w.SideDelta} (hr : x.Plain r)
    (hfresh : ∀ mid, r.sideId = some mid → mid ∉ rs.filterMap SideRecord.sideId) :
    r.sideId = none := by
  cases r with
  | message mid eof => rfl
  | side mid delta =>
    obtain ⟨payload, hmem, -⟩ := hr
    exact absurd (hall mid (List.mem_cons_of_mem _ (List.mem_map_of_mem hmem))) (hfresh mid rfl)
  | sideEof mid expected =>
    obtain ⟨rfl, -⟩ := hr
    exact absurd (hall x.eofId List.mem_cons_self) (hfresh x.eofId rfl)
  | snapshot seen received e state => exact hr.elim
  | cleanup => exact hr.elim

/-- The record of a main batch says that it is one. -/
theorem message_mem {rs : List (SideRecord w.SideDelta)} (hplain : ∀ r ∈ rs, x.Plain r)
    {mid : MessageId} (hmem : mid ∈ x.mains.map Prod.fst) {r : SideRecord w.SideDelta} (hr : r ∈ rs)
    (hid : r.mainId = some mid) : .message mid false ∈ rs := by
  cases r with
  | message mid' eof =>
    obtain rfl := Option.some.inj hid
    obtain rfl := (hplain _ hr).mpr hmem
    exact hr
  | side mid' delta => exact absurd hid.symm (Option.some_ne_none mid)
  | sideEof mid' expected => exact absurd hid.symm (Option.some_ne_none mid)
  | snapshot seen received expected state => exact absurd hid.symm (Option.some_ne_none mid)
  | cleanup => exact absurd hid.symm (Option.some_ne_none mid)

end SideInputs

end MoneyLaundering
