import MoneyLaundering.Worker.SideInput

/-!
# What a side-input worker knows about a client

The log of a side-input worker describes a client by what was seen, the counters of the side input
and the side table; `sideObservation` is that view. Whether the side input is complete is not part
of it: the event of the tracker follows from the counters as long as only one number of side batches
is announced, and `Tracker.Sound` is that fact.

The second half of the module says what a list of records adds up to, when all of them come from the
messages of one client.
-/

namespace MoneyLaundering

open WriteAhead

/-! ## The tracker -/

namespace Tracker

/-- The number of side batches has been announced, and as many have arrived. -/
def Complete (t : Tracker) : Prop := ∃ e, t.expected = some e ∧ e ≤ t.received.getD 0

/-- The event is set exactly when the side input is complete. -/
def Sound (t : Tracker) : Prop := t.isReady = true ↔ t.Complete

theorem sound_empty : empty.Sound := by simp [Sound, isReady, empty, Complete]

@[simp] theorem received_checkReady (t : Tracker) : t.checkReady.1.received = t.received := by
  unfold checkReady
  repeat' split
  all_goals rfl

@[simp] theorem expected_checkReady (t : Tracker) : t.checkReady.1.expected = t.expected := by
  unfold checkReady
  repeat' split
  all_goals rfl

/-- A check sets the event if the side input is complete, and says whether it has just done so. -/
theorem checkReady_spec (t : Tracker) :
    (t.checkReady.1.isReady = true ↔ t.isReady = true ∨ t.Complete) ∧
      (t.checkReady.2 = true ↔ t.isReady = false ∧ t.Complete) := by
  unfold checkReady Complete
  by_cases hready : t.isReady = true
  · simp [hready]
  · have hunset : t.ready.getD false = false := Bool.eq_false_iff.mpr hready
    rw [if_neg hready]
    cases hexpected : t.expected with
    | none => simp [isReady, hunset]
    | some e =>
      by_cases hlt : t.received.getD 0 < e
      · simp [isReady, hunset, hlt]
      · simp [isReady, hunset, hlt, not_lt.mp hlt]

/-- A check makes the event sound, if it is not set too early. -/
theorem sound_checkReady {t : Tracker} (h : t.isReady = true → t.Complete) :
    t.checkReady.1.Sound := by
  have hcomplete : t.checkReady.1.Complete ↔ t.Complete := by
    rw [Complete, Complete, received_checkReady, expected_checkReady]
  rw [Sound, hcomplete, (checkReady_spec t).1]
  exact ⟨fun hor ↦ hor.elim h id, Or.inr⟩

theorem Sound.trackBatch {t : Tracker} (h : t.Sound) : t.trackBatch.1.Sound := by
  refine sound_checkReady fun hready ↦ ?_
  obtain ⟨e, hexpected, hle⟩ := h.mp hready
  exact ⟨e, hexpected, hle.trans (by simp)⟩

theorem Sound.setExpected {t : Tracker} (h : t.Sound) {e : ℤ}
    (hexpected : t.expected = none ∨ t.expected = some e) : (t.setExpected e).1.Sound := by
  refine sound_checkReady fun hready ↦ ?_
  obtain ⟨e', he', hle⟩ := h.mp hready
  rcases hexpected with hnone | hsome
  · exact absurd (hnone.symm.trans he') (Option.some_ne_none e').symm
  · obtain rfl := Option.some.inj (hsome.symm.trans he')
    exact ⟨e, rfl, hle⟩

theorem sound_restore (t : Tracker) (received : ℤ) (expected : Option ℤ) :
    (t.restore received expected).Sound :=
  sound_checkReady fun hready ↦ absurd hready (by simp [isReady])

end Tracker

/-! ## The observation -/

/-- What the records of a client determine. -/
structure SideObserved (τ : Type) where
  seen : Channel → Finset MessageId
  received : ℤ
  expected : Option ℤ
  table : τ

def SideFlow.observe {τ : Type} (flow : SideFlow τ) : SideObserved τ where
  seen := flow.seen.mids
  received := flow.tracker.received.getD 0
  expected := flow.tracker.expected
  table := flow.table

namespace SideObserved

variable {τ : Type}

def see (v : SideObserved τ) (ch : Channel) (mid : MessageId) : SideObserved τ :=
  { v with seen := Function.update v.seen ch (insert mid (v.seen ch)) }

/-- As many side batches as announced have been received. -/
def Complete (v : SideObserved τ) : Prop := ∃ e, v.expected = some e ∧ e ≤ v.received

end SideObserved

namespace SideInputWorker

variable (w : SideInputWorker)

/-- The observation of a client nothing is known about. -/
def nothing : SideObserved w.Table := w.emptyFlow.observe

/-- Replaying a record, as far as it can be observed. -/
def replayObserved : SideRecord w.SideDelta → SideObserved w.Table → SideObserved w.Table
  | .message mid _, v => v.see .main mid
  | .side mid delta, v =>
    { v.see .side mid with received := v.received + 1, table := w.applySideDelta delta v.table }
  | .sideEof mid expected, v => { v.see .side mid with expected := some expected }
  | .snapshot seen received expected state, v =>
    { seen := fun ch ↦ v.seen ch ∪ seen.mids ch
      received
      expected := expected.orElse fun _ ↦ v.expected
      table := w.applySideDelta state v.table }
  | .cleanup, _ => w.nothing

variable {w}

theorem seen_setdefault_addTo (seen : Seen) (ch : Channel) (mid : MessageId) :
    ((seen.setdefault ch).addTo ch mid).mids
      = Function.update seen.mids ch (insert mid (seen.mids ch)) := by
  rw [Seen.mids_addTo (seen.setdefault_self_ne_none ch), Seen.mids_setdefault]

theorem mids_merge (seen snapshot : Seen) (ch : Channel) :
    (seen.merge snapshot).mids ch = seen.mids ch ∪ snapshot.mids ch := by
  unfold Seen.mids Seen.merge
  cases snapshot ch with
  | none => simp
  | some mids => simp [Seen.mids]

theorem observe_replayRecord (r : SideRecord w.SideDelta) (flow : SideFlow w.Table) :
    (w.replayRecord r flow).observe = w.replayObserved r flow.observe := by
  cases r with
  | message mid eof =>
    simp only [replayRecord, replayObserved, SideFlow.observe, SideObserved.see,
      seen_setdefault_addTo]
  | side mid delta =>
    simp only [replayRecord, replayObserved, SideFlow.observe, SideObserved.see,
      seen_setdefault_addTo, Tracker.trackBatch, Tracker.received_checkReady,
      Tracker.expected_checkReady, Option.getD_some]
  | sideEof mid expected =>
    simp only [replayRecord, replayObserved, SideFlow.observe, SideObserved.see,
      seen_setdefault_addTo, Tracker.setExpected, Tracker.received_checkReady,
      Tracker.expected_checkReady]
  | snapshot seen received expected state =>
    simp only [replayRecord, replayObserved, SideFlow.observe, Tracker.restore,
      Tracker.received_checkReady, Tracker.expected_checkReady, Option.getD_some]
    congr 1
    funext ch
    exact mids_merge flow.seen seen ch
  | cleanup => rfl

/-- A snapshot restores everything that can be observed. -/
theorem replayObserved_snapshot (flow : SideFlow w.Table) :
    w.replayObserved (.snapshot flow.seen (flow.tracker.received.getD 0) flow.tracker.expected
      (w.sideStateAsDelta flow.table)) w.nothing = flow.observe := by
  have hseen : (fun ch ↦ w.nothing.seen ch ∪ flow.seen.mids ch) = flow.seen.mids :=
    funext fun ch ↦ Finset.empty_union _
  have hexpected : (flow.tracker.expected.orElse fun _ ↦ w.nothing.expected)
      = flow.tracker.expected := by
    cases flow.tracker.expected <;> rfl
  have htable : w.applySideDelta (w.sideStateAsDelta flow.table) w.nothing.table = flow.table :=
    w.restore flow.table
  simp only [replayObserved, hseen, hexpected, htable]
  rfl

variable (w)

/-- What the log of a side-input worker says about a client. -/
def sideObservation : View w.discipline (SideObserved w.Table) where
  view := SideFlow.observe
  apply := w.replayObserved
  view_apply := observe_replayRecord
  view_snap := by
    rintro flow r rfl
    exact replayObserved_snapshot flow

end SideInputWorker

/-! ## Sane records -/

/-- The record announces no other number of side batches than `expected`, and a snapshot has a set
of seen messages. -/
def SideRecord.Sane {Δ : Type} (expected : ℤ) : SideRecord Δ → Prop
  | .sideEof _ e => e = expected
  | .snapshot seen _ e _ => (e = none ∨ e = some expected) ∧ ∃ ch, seen ch ≠ none
  | _ => True

/-- The worker knows of no other announcement, the event is sound, and a compaction writes the
client out unless there is nothing to write. -/
structure SideFlow.Sane {w : SideInputWorker} (expected : ℤ) (flow : SideFlow w.Table) : Prop where
  settled : w.discipline.Settled flow
  sound : flow.tracker.Sound
  expected_eq : flow.tracker.expected = none ∨ flow.tracker.expected = some expected

namespace SideInputWorker

variable {w : SideInputWorker} {expected : ℤ}

theorem sane_emptyFlow : SideFlow.Sane expected w.emptyFlow :=
  ⟨Discipline.settled_empty, Tracker.sound_empty, Or.inl rfl⟩

theorem tracked_addTo {seen : Seen} {ch : Channel} {mid : MessageId} :
    ∃ ch', (seen.setdefault ch).addTo ch mid ch' ≠ none :=
  ⟨ch, Seen.addTo_self_ne_none (seen.setdefault_self_ne_none ch) mid⟩

theorem sane_replayRecord {r : SideRecord w.SideDelta} (hr : r.Sane expected)
    {flow : SideFlow w.Table} (h : flow.Sane expected) : (w.replayRecord r flow).Sane expected := by
  cases r with
  | message mid eof => exact ⟨Or.inl tracked_addTo, h.sound, h.expected_eq⟩
  | side mid delta =>
    refine ⟨Or.inl tracked_addTo, h.sound.trackBatch, ?_⟩
    simpa [replayRecord, Tracker.trackBatch] using h.expected_eq
  | sideEof mid e =>
    obtain rfl : e = expected := hr
    refine ⟨Or.inl tracked_addTo, h.sound.setExpected h.expected_eq, Or.inr ?_⟩
    simp [replayRecord, Tracker.setExpected]
  | snapshot seen received e state =>
    obtain ⟨he, ch, hch⟩ := hr
    refine ⟨Or.inl ⟨ch, ?_⟩, Tracker.sound_restore _ _ _, ?_⟩
    · obtain ⟨mids, hmids⟩ := Option.ne_none_iff_exists'.mp hch
      simp [replayRecord, Seen.merge, hmids]
    · rcases he with rfl | rfl
      · simpa [replayRecord, Tracker.restore] using h.expected_eq
      · exact Or.inr (by simp [replayRecord, Tracker.restore])
  | cleanup => exact sane_emptyFlow

/-- A client whose records are sane is sane after a restart. -/
theorem sane_recovered {log : List (ClientId × SideRecord w.SideDelta)} {client : ClientId}
    (h : ∀ r ∈ KeyedLog.ofKey client log, r.Sane expected) :
    (w.discipline.recovered log client).Sane expected := by
  rw [Discipline.recovered, KeyedLog.replay_apply]
  generalize KeyedLog.ofKey client log = rs at h
  suffices hfold : ∀ flow : SideFlow w.Table, flow.Sane expected →
      (rs.foldl (fun flow r ↦ w.discipline.apply r flow) flow).Sane expected from
    hfold _ sane_emptyFlow
  induction rs with
  | nil => exact fun flow hflow ↦ hflow
  | cons r rs ih =>
    intro flow hflow
    exact ih (fun r' hr' ↦ h r' (List.mem_cons_of_mem _ hr')) _
      (sane_replayRecord (h r List.mem_cons_self) hflow)

end SideInputWorker

end MoneyLaundering
