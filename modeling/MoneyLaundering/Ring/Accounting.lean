import MoneyLaundering.Ring.Completion
import MoneyLaundering.Ring.Progress

/-!
# The accounting of a ring

Without crashes one token is on its way at a time. It counts, lap after lap, until a node finds that
everything was processed; then it makes every node flush, the coordinator last, who ends the stream.
`Phase` says where the token is and what has happened by then, and `Accounting` that it is kept by
every step. `ring_accounting` reads off what the stage promises: nobody flushes too early or twice,
and the end of the stream announces the number of messages that were sent.
-/

namespace MoneyLaundering

open WriteAhead StatefulWorker

variable {α : Type}

def Output.isData : Output α → Bool
  | .data _ => true
  | .ring _ _ => false
  | .finalEof _ _ => false

def Output.isFinal : Output α → Bool
  | .data _ => false
  | .ring _ _ => false
  | .finalEof _ _ => true

namespace Network

/-- The data messages published so far. -/
def published (net : Network α) : List (NodeId × Output α) := net.outputs.filter fun p ↦ p.2.isData

/-- The ends of the stream published so far. -/
def finals (net : Network α) : List (NodeId × Output α) := net.outputs.filter fun p ↦ p.2.isFinal

end Network

/-- Where the token of a ring is. -/
inductive Phase (feed : Feed) (n : ℕ) (client : ClientId) (r : Ring α) : Prop
  | waiting (heof : feed.eofId ∉ (r.node feed.eofNode).seen .main)
      (hcontrol : r.net.control = fun _ ↦ []) (hseen : ∀ j, (r.node j).seen .control = ∅)
      (hreported : ∀ j, (r.node j).partialProcessed = 0 ∧ (r.node j).partialSent = 0)
      (hflushes : r.net.flushes = []) (hfinals : r.net.finals = [])
  | counting (k : ℕ) (envelope : Envelope) (heof : feed.eofId ∈ (r.node feed.eofNode).seen .main)
      (hcontrol : r.net.control
        = Function.update (fun _ ↦ []) ((feed.eofNode + 1 + k) % n) [envelope])
      (hcoord : envelope.token.ring.coordinatorId = none)
      (hid : envelope.messageId = ringId client ringPhaseCount k)
      (hcarries : ∀ j, envelope.processedOf j = (r.node j).partialProcessed ∧
        envelope.sentOf j = (r.node j).partialSent)
      (hseen : ∀ j, ∀ mid ∈ (r.node j).seen .control,
        ∃ m < k, mid = ringId client ringPhaseCount m)
      (hflushes : r.net.flushes = []) (hfinals : r.net.finals = [])
  | flushing (k : ℕ) (b : NodeId) (envelope : Envelope) (hk : k < n) (hb : b < n)
      (heof : feed.eofId ∈ (r.node feed.eofNode).seen .main)
      (hcontrol : r.net.control = Function.update (fun _ ↦ []) ((b + 1 + k) % n) [envelope])
      (hcoord : envelope.token.ring.coordinatorId = some b)
      (hid : envelope.messageId = ringId client ringPhaseFlush k)
      (hcarries : ∀ j, envelope.sentOf j = (r.node j).partialSent)
      (hseen : ∀ j, ∀ mid ∈ (r.node j).seen .control,
        (∃ m : ℕ, mid = ringId client ringPhaseCount m) ∨
          ∃ m < k, mid = ringId client ringPhaseFlush m)
      (hreported : feed.expected ≤ ∑ j ∈ Finset.range n, (r.node j).partialProcessed)
      (hflushes : r.net.flushes = (List.range k).map fun m ↦ (b + 1 + m) % n)
      (hfinals : r.net.finals = [])
  | done (b : NodeId) (mid : MessageId) (hb : b < n)
      (heof : feed.eofId ∈ (r.node feed.eofNode).seen .main)
      (hcontrol : r.net.control = fun _ ↦ [])
      (hreported : feed.expected ≤ ∑ j ∈ Finset.range n, (r.node j).partialProcessed)
      (hflushes : r.net.flushes = (List.range n).map fun m ↦ (b + 1 + m) % n)
      (hfinals : r.net.finals = [(b, .finalEof mid ⟨∑ j ∈ Finset.range n, (r.node j).sent⟩)])

/-- The invariant of runs without crashes. -/
structure Accounting (feed : Feed) (n : ℕ) (client : ClientId) (r : Ring α) : Prop
    extends Traffic feed n client r where
  published : (r.net.published.length : ℤ) = ∑ j ∈ Finset.range n, (r.node j).sent
  /-- A node that has reported what it processed has reported what it sent. -/
  reported : ∀ j, (r.node j).partialProcessed = (r.node j).processed →
    (r.node j).partialSent = (r.node j).sent
  phase : Phase feed n client r

/-- The token a node passes on when it has flushed, with `sent` messages more than reported. -/
def flushToken (client : ClientId) (sent : ℤ) (token : Token) : Token where
  messageId := ringId client ringPhaseFlush (ringSeqOf token.messageId + 1)
  ring := { token.ring with totalSentCount := some (token.ring.totalSentCount.getD 0 + sent) }

variable {feed : Feed} {n : ℕ} {client : ClientId} {queryId : Option String} {cfg : NodeConfig}
  {i : NodeId} {taken : Taken} {sends : ℕ} {outs : List (Output α)} {v v' : Observed Unit}
  {r : Ring α}

/-! ## Counters -/

theorem filter_map_data (i : NodeId) (msgs : List (Message α)) :
    ((msgs.map Output.data).map (Prod.mk i)).filter (fun p ↦ p.2.isData)
        = (msgs.map Output.data).map (Prod.mk i) ∧
      ((msgs.map Output.data).map (Prod.mk i)).filter (fun p ↦ p.2.isFinal) = [] := by
  constructor
  · refine List.filter_eq_self.mpr fun p hp ↦ ?_
    simp only [List.mem_map] at hp
    obtain ⟨o, ⟨m, -, rfl⟩, rfl⟩ := hp
    rfl
  · refine List.filter_eq_nil_iff.mpr fun p hp ↦ ?_
    simp only [List.mem_map] at hp
    obtain ⟨o, ⟨m, -, rfl⟩, rfl⟩ := hp
    simp [Output.isFinal]

/-- A node counts the messages it sends. -/
theorem sent_of_completion (h : Completion cfg client queryId v taken sends outs v')
    (hquiet : ∀ envelope, taken = .token envelope →
      envelope.token.ring.expectedCount ≠ cleanupExpectedCount) (i : NodeId) :
    (((outs.map (Prod.mk i)).filter fun p ↦ p.2.isData).length : ℤ) = v'.sent - v.sent := by
  cases h with
  | duplicate h => simp
  | data msgs h =>
    rw [(filter_map_data i msgs).1]
    simp [Observed.count, Observed.see]
  | eof h => simp [Output.isData, Observed.report, Observed.see]
  | count h hcoord => simp [Output.isData, Observed.report, Observed.see]
  | flush msgs h hcoord hexp =>
    rw [List.map_append, List.filter_append, (filter_map_data i msgs).1, flushOutput]
    split <;> simp [Output.isData, flushed, Observed.see]
  | cleanup h hcoord hexp => exact absurd hexp (hquiet _ rfl)

theorem reported_of_completion (h : Completion cfg client queryId v taken sends outs v')
    (hquiet : ∀ envelope, taken = .token envelope →
      envelope.token.ring.expectedCount ≠ cleanupExpectedCount) (hmarks : v.Marked)
    (hreported : v.partialProcessed = v.processed → v.partialSent = v.sent) :
    v'.partialProcessed = v'.processed → v'.partialSent = v'.sent := by
  cases h with
  | duplicate h => exact hreported
  | data msgs h =>
    intro heq
    have := hmarks.partialProcessed_le
    simp only [Observed.count, Observed.see] at heq
    omega
  | eof h => exact fun _ ↦ rfl
  | count h hcoord => exact fun _ ↦ rfl
  | flush msgs h hcoord hexp => exact fun _ ↦ rfl
  | cleanup h hcoord hexp => exact absurd hexp (hquiet _ rfl)

/-- Nothing comes of a message that was handled before. -/
theorem Network.handled_duplicate {σ : Type} {u : Observed σ} (h : ¬taken.Fresh u)
    (net : Network α) : net.handled i u taken [] = net := by
  simp [handled, h]

theorem Ring.react_duplicate (h : ¬taken.Fresh (r.node i)) :
    r.react i taken [] (r.node i) = r := by
  rw [react, Network.handled_duplicate h, Function.update_eq_self]

namespace Traffic

theorem step {r' : Ring α} {l : Label} (h : Traffic feed n client r)
    (hstep : Ring.Step n client queryId r l r') : Traffic feed n client r' :=
  Ring.step_preserves hstep h.quiet h.token_notMem_inbox h
    (fun hi htakes hreaction _ ↦ h.react hi htakes hreaction) (fun h hsub ↦ h.ack hsub)
    (fun h hhead hseen ↦ h.pop hhead hseen)

/-- When as much was reported as was announced, every node has processed and reported everything. -/
theorem all_of_reported (h : Traffic feed n client r)
    (hexpected : feed.expected = ∑ i ∈ Finset.range n, ((feed.addressed i).card : ℤ))
    (hreported : feed.expected ≤ ∑ j ∈ Finset.range n, (r.node j).partialProcessed) (hi : i < n) :
    (r.node i).partialProcessed = (r.node i).processed ∧
      feed.addressed i ⊆ (r.node i).seen .main := by
  have hrange := Finset.mem_range.mpr hi
  have hcard : ∀ j ∈ Finset.range n, (r.node j).processed ≤ ((feed.addressed j).card : ℤ) := by
    intro j _
    rw [h.processed]
    exact_mod_cast Finset.card_le_card Finset.inter_subset_right
  have hle : ∀ j ∈ Finset.range n, (r.node j).partialProcessed ≤ (r.node j).processed :=
    fun j _ ↦ (h.marks j).partialProcessed_le
  have hsum := Finset.sum_le_sum hle
  have hsum' := Finset.sum_le_sum hcard
  have hpart := (Finset.sum_eq_sum_iff_of_le hle).mp (by omega) i hrange
  have hprocessed := (Finset.sum_eq_sum_iff_of_le hcard).mp (by omega) i hrange
  refine ⟨hpart, ?_⟩
  rw [h.processed] at hprocessed
  have hinter := Finset.eq_of_subset_of_card_le Finset.inter_subset_right
    (by exact_mod_cast hprocessed.ge : (feed.addressed i).card
      ≤ ((r.node i).seen .main ∩ feed.addressed i).card)
  exact Finset.inter_eq_right.mp hinter

end Traffic

theorem Feed.quiet_of_allows (hallows : feed.Allows i taken ∨
      ∃ envelope, taken = .token envelope ∧ feed.Labels client envelope) (envelope : Envelope)
    (htaken : taken = .token envelope) :
    envelope.token.ring.expectedCount ≠ cleanupExpectedCount := by
  obtain ⟨_, heq, hlabels⟩ := hallows.resolve_left (by simp [htaken, Feed.Allows])
  obtain rfl := Taken.token.inj (htaken.symm.trans heq)
  rw [hlabels.1]
  exact feed.expected_ne

/-! ## The token -/

namespace Phase

/-- The token on its way has not been seen by anyone. -/
theorem fresh (h : Phase feed n client r) {envelope : Envelope} {j : NodeId}
    (hmem : envelope ∈ r.net.control i) : envelope.messageId ∉ (r.node j).seen .control := by
  have honly : ∀ {i' : NodeId} {envelope' : Envelope},
      r.net.control = Function.update (fun _ ↦ []) i' [envelope'] → envelope = envelope' := by
    intro i' envelope' hcontrol
    rw [hcontrol] at hmem
    by_cases hi : i = i'
    · subst hi
      simpa using hmem
    · simp [Function.update_of_ne hi] at hmem
  cases h with
  | waiting heof hcontrol => simp [hcontrol] at hmem
  | counting k envelope' heof hcontrol hcoord hid hcarries hseen =>
    obtain rfl := honly hcontrol
    intro hmid
    obtain ⟨m, hm, heq⟩ := hseen j _ hmid
    have := ringId_seq_injective (hid.symm.trans heq)
    omega
  | flushing k b envelope' hk hb heof hcontrol hcoord hid hcarries hseen =>
    obtain rfl := honly hcontrol
    intro hmid
    rcases hseen j _ hmid with ⟨m, heq⟩ | ⟨m, hm, heq⟩
    · exact ringId_count_ne_flush client m k (heq.symm.trans hid)
    · have := ringId_seq_injective (hid.symm.trans heq)
      omega
  | done b mid hb heof hcontrol => simp [hcontrol] at hmem

/-- A node that is to flush has not flushed yet. -/
theorem length_flushes (h : Phase feed n client r) {envelope : Envelope} {rest : List Envelope}
    (hhead : r.net.control i = envelope :: rest)
    (hcoord : envelope.token.ring.coordinatorId ≠ none) : i < n ∧ r.net.flushes.length < n := by
  cases h with
  | waiting heof hcontrol => simp [hcontrol] at hhead
  | counting k envelope' heof hcontrol hcoord' =>
    obtain ⟨-, rfl⟩ := Network.eq_of_control hcontrol hhead
    exact absurd hcoord' hcoord
  | flushing k b envelope' hk hb heof hcontrol hcoord' hid hcarries hseen hreported hflushes =>
    obtain ⟨rfl, rfl⟩ := Network.eq_of_control hcontrol hhead
    rw [hflushes, List.length_map, List.length_range]
    exact ⟨Nat.mod_lt _ (Nat.zero_lt_of_lt hk), hk⟩
  | done b mid hb heof hcontrol => simp [hcontrol] at hhead

/-- Where a node has flushed, another one is to flush, or the stream was ended. -/
theorem flushing_or_ended (h : Phase feed n client r) (hflushes : r.net.flushes ≠ []) :
    (∃ i envelope, r.net.control i = [envelope] ∧ envelope.token.ring.coordinatorId ≠ none) ∨
      r.net.finals ≠ [] := by
  cases h with
  | waiting heof hcontrol hseen hreported hflushes' => exact absurd hflushes' hflushes
  | counting k envelope heof hcontrol hcoord hid hcarries hseen hflushes' =>
    exact absurd hflushes' hflushes
  | flushing k b envelope hk hb heof hcontrol hcoord =>
    refine Or.inl ⟨(b + 1 + k) % n, envelope, ?_, ?_⟩
    · rw [hcontrol, Function.update_self]
    · rw [hcoord]
      exact Option.some_ne_none b
  | done b mid hb heof hcontrol hreported hflushes' hfinals =>
    rw [hfinals]
    exact Or.inr (List.cons_ne_nil _ _)

/-- The main queues have no part in it. -/
theorem ack (h : Phase feed n client r) (inbox : NodeId → List Taken) :
    Phase feed n client { r with inbox } := by
  cases h with
  | waiting h₁ h₂ h₃ h₄ h₅ h₆ => exact .waiting h₁ h₂ h₃ h₄ h₅ h₆
  | counting k envelope h₁ h₂ h₃ h₄ h₅ h₆ h₇ h₈ =>
    exact .counting k envelope h₁ h₂ h₃ h₄ h₅ h₆ h₇ h₈
  | flushing k b envelope hk hb h₁ h₂ h₃ h₄ h₅ h₆ h₇ h₈ h₉ =>
    exact .flushing k b envelope hk hb h₁ h₂ h₃ h₄ h₅ h₆ h₇ h₈ h₉
  | done b mid hb h₁ h₂ h₃ h₄ h₅ => exact .done b mid hb h₁ h₂ h₃ h₄ h₅

end Phase

namespace Accounting

variable {l : Label}

theorem init {inbox : NodeId → List Taken} (hinbox : ∀ i, ∀ taken ∈ inbox i, feed.Allows i taken) :
    Accounting feed n client (Ring.init inbox : Ring α) where
  toTraffic := Traffic.init hinbox
  published := by simp [Ring.init, Network.published, Network.empty, Observed.zero]
  reported _ _ := rfl
  phase := .waiting (by simp [Ring.init, Observed.zero]) rfl (fun _ ↦ rfl)
    (fun _ ↦ ⟨rfl, rfl⟩) rfl rfl

/-- Processing a data message does not move the token. -/
theorem phase_data (h : Accounting feed n client r)
    (hexpected : feed.expected = ∑ i ∈ Finset.range n, ((feed.addressed i).card : ℤ)) (hi : i < n)
    {mid : MessageId} (hallows : feed.Allows i (.data mid)) (hfresh : mid ∉ (r.node i).seen .main)
    (msgs : List (Message α)) :
    Phase feed n client
      (r.react i (.data mid) (msgs.map .data) ((r.node i).count mid msgs.length)) := by
  set r' := r.react i (.data mid) (msgs.map .data) ((r.node i).count mid msgs.length) with hr'
  have hcontrol : r'.net.control = r.net.control :=
    Network.control_handled_leaves (leaves_map_data msgs)
  have hflushes : r'.net.flushes = r.net.flushes :=
    Network.flushes_handled_of_not (by simp [Taken.Flushes])
  have hfinals : r'.net.finals = r.net.finals := by
    rw [Network.finals, hr', Traffic.outputs_react, List.filter_append, (filter_map_data i msgs).2,
      List.append_nil]
    rfl
  have hkeep : ∀ j, (r'.node j).seen .control = (r.node j).seen .control ∧
      (r'.node j).partialProcessed = (r.node j).partialProcessed ∧
      (r'.node j).partialSent = (r.node j).partialSent :=
    Family.forall_update
      (P := fun j (u : Observed Unit) ↦ u.seen .control = (r.node j).seen .control ∧
      u.partialProcessed = (r.node j).partialProcessed ∧ u.partialSent = (r.node j).partialSent)
      (fun _ ↦ ⟨rfl, rfl, rfl⟩) ⟨see_control_main (r.node i) mid, rfl, rfl⟩
  have hmain : ∀ j, ∀ mid' ∈ (r'.node j).seen .main,
      mid' ∈ (r.node j).seen .main ∨ (j = i ∧ mid' = mid) :=
    Family.forall_update (P := fun j (u : Observed Unit) ↦ ∀ mid' ∈ u.seen .main,
      mid' ∈ (r.node j).seen .main ∨ (j = i ∧ mid' = mid)) (fun _ _ ↦ Or.inl) (by
        intro mid' hmid'
        rw [Observed.count, see_self, Finset.mem_insert] at hmid'
        exact hmid'.symm.imp id fun h ↦ ⟨rfl, h⟩)
  have hmono : ∀ j, (r.node j).seen .main ⊆ (r'.node j).seen .main :=
    Family.forall_update (P := fun j (u : Observed Unit) ↦ (r.node j).seen .main ⊆ u.seen .main)
      (fun _ ↦ Finset.Subset.refl _) (subset_see (r.node i) .main .main mid)
  cases h.phase with
  | waiting heof hcontrol' hseen hreported hflushes' hfinals' =>
    refine .waiting (fun hmem ↦ ?_) (hcontrol.trans hcontrol') (fun j ↦ (hkeep j).1.trans (hseen j))
      (fun j ↦ ?_) (hflushes.trans hflushes') (hfinals.trans hfinals')
    · rcases hmain _ _ hmem with hmem | ⟨rfl, rfl⟩
      · exact heof hmem
      · exact feed.eofId_notMem hallows
    · rw [(hkeep j).2.1, (hkeep j).2.2]
      exact hreported j
  | counting k envelope heof hcontrol' hcoord hid hcarries hseen hflushes' hfinals' =>
    refine .counting k envelope (hmono _ heof) (hcontrol.trans hcontrol') hcoord hid (fun j ↦ ?_)
      (fun j ↦ ?_) (hflushes.trans hflushes') (hfinals.trans hfinals')
    · rw [(hkeep j).2.1, (hkeep j).2.2]
      exact hcarries j
    · rw [(hkeep j).1]
      exact hseen j
  | flushing k b envelope hk hb heof hcontrol' hcoord hid hcarries hseen hreported =>
    -- a flush begins when everything was seen, so no data message is new then
    exact absurd ((h.all_of_reported hexpected hreported hi).2 hallows) hfresh
  | done b _ hb heof hcontrol' hreported =>
    exact absurd ((h.all_of_reported hexpected hreported hi).2 hallows) hfresh

/-- The end of the stream sends the token on its way. -/
theorem phase_eof (h : Accounting feed n client r) {mid : MessageId} {marker : EOF}
    (hallows : feed.Allows i (.eof mid marker)) (hfresh : mid ∉ (r.node i).seen .main) :
    Phase feed n client (r.react i (.eof mid marker)
      [.ring ((i + 1) % n) (startToken client (r.node i) marker)]
      ((r.node i).report.see .main mid)) := by
  obtain ⟨rfl, rfl, rfl⟩ := hallows
  cases h.phase with
  | waiting heof hcontrol hseen hreported hflushes hfinals =>
    refine .counting 0 (Envelope.blank.pass feed.eofNode
      (startToken client (r.node feed.eofNode) ⟨feed.expected⟩)) ?_ ?_ rfl ?_ (fun j ↦ ?_)
      (fun j ↦ ?_) ?_ ?_
    · rw [Ring.node_react_self, see_self]
      exact Finset.mem_insert_self _ _
    · refine (Network.control_handled_ring leaves_nil ((feed.eofNode + 1) % n)
        (startToken client (r.node feed.eofNode) ⟨feed.expected⟩)).trans ?_
      rw [hcontrol]
      rfl
    · simp [Envelope.pass, Envelope.messageId, startToken, feed.expected_ne]
    · by_cases hj : j = feed.eofNode
      · subst hj
        simp [Envelope.pass, Envelope.blank, Envelope.total, Envelope.totalSent, startToken,
          Observed.report, Observed.see, hreported]
      · rw [Ring.node_react_of_ne hj, (hreported j).1, (hreported j).2]
        simp [Envelope.pass, Envelope.blank, Function.update_of_ne hj]
    · refine Family.forall_update (P := fun _ (u : Observed Unit) ↦ ∀ mid ∈ u.seen .control,
        ∃ m : ℕ, m < 0 ∧ mid = ringId client ringPhaseCount m) (fun j ↦ ?_) ?_ j
      · simp [hseen j]
      · rw [see_control_main]
        simp [Observed.report, hseen feed.eofNode]
    · exact (Network.flushes_handled_of_not (by simp [Taken.Flushes])).trans hflushes
    · rw [Network.finals, Traffic.outputs_react, List.filter_append]
      exact congrArg (· ++ []) hfinals
  | counting k envelope heof => exact absurd heof hfresh
  | flushing k b envelope hk hb heof => exact absurd heof hfresh
  | done b mid hb heof => exact absurd heof hfresh

/-- A lap of counting goes on, or a coordinator is found. -/
theorem phase_count (h : Accounting feed n client r) (hi : i < n) {envelope : Envelope}
    {rest : List Envelope} (hhead : r.net.control i = envelope :: rest)
    (hcoord : envelope.token.ring.coordinatorId = none) :
    Phase feed n client
      ⟨Function.update r.node i ((r.node i).report.see .control envelope.messageId), r.inbox,
        (r.net.handled i (r.node i) (.token envelope)
          [.ring ((i + 1) % n) (countToken ⟨i, n⟩ client (r.node i) envelope.token)]).pop i⟩ := by
  have hmem : envelope ∈ r.net.control i := by
    rw [hhead]
    exact List.mem_cons_self
  cases h.phase with
  | waiting heof hcontrol => simp [hcontrol] at hhead
  | flushing k b envelope' hk hb heof hcontrol hcoord' =>
    obtain ⟨-, rfl⟩ := Network.eq_of_control hcontrol hhead
    exact absurd (hcoord'.symm.trans hcoord) (by simp)
  | done b mid hb heof hcontrol => simp [hcontrol] at hhead
  | counting k envelope' heof hcontrol hcoord' hid hcarries hseen hflushes hfinals =>
    obtain ⟨hposition, rfl⟩ := Network.eq_of_control hcontrol hhead
    set token := countToken ⟨i, n⟩ client (r.node i) envelope'.token with htoken
    set v := (r.node i).report.see .control envelope'.messageId with hv
    have heof' : feed.eofId ∈ (Function.update r.node i v feed.eofNode).seen .main :=
      Family.forall_update (P := fun j (u : Observed Unit) ↦ (r.node j).seen .main ⊆ u.seen .main)
        (fun _ ↦ Finset.Subset.refl _) (subset_see (r.node i).report .control .main _) _ heof
    have hcontrol' : ((r.net.handled i (r.node i) (.token envelope')
        [.ring ((i + 1) % n) token]).pop i).control
          = Function.update (fun _ ↦ []) ((i + 1) % n) [envelope'.pass i token] :=
      Network.control_relay (hposition ▸ hcontrol) leaves_nil
    -- what the token carries of a node is what the node has on record as reported
    have hcarries' : ∀ j, (envelope'.pass i token).processedOf j
          = (Function.update r.node i v j).partialProcessed ∧
        (envelope'.pass i token).sentOf j = (Function.update r.node i v j).partialSent := by
      intro j
      by_cases hj : j = i
      · subst hj
        simp only [Envelope.pass, Function.update_self, hcarries j, htoken, hv, countToken,
          Observed.report, Observed.see, Envelope.total, Envelope.totalSent, Option.getD_some]
        omega
      · simp only [Envelope.pass, Function.update_of_ne hj]
        exact hcarries j
    have hseen' : ∀ j, ∀ mid ∈ (Function.update r.node i v j).seen .control,
        ∃ m < k + 1, mid = ringId client ringPhaseCount m := by
      refine Family.forall_update (P := fun _ (u : Observed Unit) ↦ ∀ mid ∈ u.seen .control,
        ∃ m < k + 1, mid = ringId client ringPhaseCount m) (fun j mid hmid ↦ ?_) fun mid hmid ↦ ?_
      · obtain ⟨m, hm, heq⟩ := hseen j mid hmid
        exact ⟨m, by omega, heq⟩
      · rw [hv, see_self, Finset.mem_insert] at hmid
        rcases hmid with rfl | hmid
        · exact ⟨k, by omega, hid⟩
        · obtain ⟨m, hm, heq⟩ := hseen i mid hmid
          exact ⟨m, by omega, heq⟩
    have hflushes' : (r.net.handled i (r.node i) (.token envelope')
        [.ring ((i + 1) % n) token]).flushes = [] :=
      (Network.flushes_handled_of_not (by simp [Taken.Flushes, hcoord])).trans hflushes
    have hfinals' : (r.net.handled i (r.node i) (.token envelope')
        [.ring ((i + 1) % n) token]).finals = [] := by
      rw [Network.finals, Network.outputs_handled, List.filter_append]
      exact congrArg (· ++ []) hfinals
    have hseq : ringSeqOf envelope'.token.messageId = k := by
      rw [show envelope'.token.messageId = _ from hid, ringSeqOf_ringId]
    have hexp : envelope'.token.ring.expectedCount = feed.expected := (h.tokens i _ hmem).1
    by_cases helected : envelope'.token.ring.expectedCount
        ≤ envelope'.token.ring.totalProcessedCount + (r.node i).processed
          - (r.node i).partialProcessed
    · -- everything was processed: the flush starts at the next node
      refine .flushing 0 i (envelope'.pass i token) (Nat.zero_lt_of_lt hi) hi heof' hcontrol' ?_ ?_
        (fun j ↦ (hcarries' j).2) (fun j mid hmid ↦ ?_) ?_ hflushes' hfinals'
      · exact if_pos helected
      · simp [Envelope.pass, Envelope.messageId, htoken, countToken, helected,
          hexp ▸ feed.expected_ne]
      · obtain ⟨m, -, heq⟩ := hseen' j mid hmid
        exact Or.inl ⟨m, heq⟩
      · have htotal := ((h.totals i _ hmem).pass hi token).1
        simp only [(hcarries' _).1] at htotal
        rw [htotal, ← hexp]
        exact helected
    · -- something is missing: the lap goes on
      refine .counting (k + 1) (envelope'.pass i token) heof' ?_ ?_ ?_ hcarries' hseen' hflushes'
        hfinals'
      · rw [Around.next_step n (feed.eofNode + 1) k, hposition]
        exact hcontrol'
      · exact if_neg helected
      · simp [Envelope.pass, Envelope.messageId, htoken, countToken, helected, hseq]

/-- The data of a flush are no ends of the stream. -/
theorem finals_handled_flush (net : Network α) (u : Observed Unit) (msgs : List (Message α))
    (o : Output α) : (net.handled i u taken (msgs.map .data ++ [o])).finals
      = net.finals ++ [(i, o)].filter fun p ↦ p.2.isFinal := by
  rw [Network.finals, Network.outputs_handled, List.filter_append, List.map_append,
    List.filter_append, (filter_map_data i msgs).2]
  rfl

/-- The coordinator announces all that was sent. -/
theorem flushOutput_last (h : Accounting feed n client r)
    (hexpected : feed.expected = ∑ i ∈ Finset.range n, ((feed.addressed i).card : ℤ)) (hi : i < n)
    {envelope : Envelope} (hmem : envelope ∈ r.net.control i)
    (hcarries : ∀ j, envelope.sentOf j = (r.node j).partialSent)
    (hreported : feed.expected ≤ ∑ j ∈ Finset.range n, (r.node j).partialProcessed) {sent : ℤ}
    (hv : v.sent = (r.node i).sent + sent) :
    (flushOutput ⟨i, n⟩ client queryId ((r.node i).sent + sent - (r.node i).partialSent)
        envelope.token i : Output α)
      = .finalEof (finalEofId client ⟨∑ j ∈ Finset.range n, (Function.update r.node i v j).sent⟩
          queryId) ⟨∑ j ∈ Finset.range n, (Function.update r.node i v j).sent⟩ := by
  -- everything was processed, so what the nodes had sent before the flush was reported
  have hsent : envelope.token.ring.totalSentCount.getD 0
      = ∑ j ∈ Finset.range n, (r.node j).sent := by
    have htotal := (h.totals i _ hmem).2
    simp only [hcarries] at htotal
    refine htotal.symm.trans (Finset.sum_congr rfl fun j hj ↦ ?_)
    exact h.reported j (h.all_of_reported hexpected hreported (Finset.mem_range.mp hj)).1
  have hown : (r.node i).partialSent = (r.node i).sent :=
    h.reported i (h.all_of_reported hexpected hreported hi).1
  have hsum : ∑ j ∈ Finset.range n, (Function.update r.node i v j).sent
      = ∑ j ∈ Finset.range n, (r.node j).sent + sent := by
    rw [Family.sum_update (Finset.mem_range.mpr hi) r.node v Observed.sent, hv]
    omega
  rw [flushOutput, hsum, hsent, hown]
  simp

/-- The node that flushes has seen one more token. -/
theorem seen_flush {k : ℕ} {mid : MessageId} (hid : mid = ringId client ringPhaseFlush k)
    (hseen : ∀ j, ∀ mid ∈ (r.node j).seen .control,
      (∃ m : ℕ, mid = ringId client ringPhaseCount m) ∨
        ∃ m < k, mid = ringId client ringPhaseFlush m)
    (hv : v.seen .control = (r.node i).seen .control) (j : NodeId) :
    ∀ mid' ∈ (Function.update r.node i (v.see .control mid) j).seen .control,
      (∃ m : ℕ, mid' = ringId client ringPhaseCount m) ∨
        ∃ m < k + 1, mid' = ringId client ringPhaseFlush m := by
  have hlater : ∀ mid, (∃ m < k, mid = ringId client ringPhaseFlush m) →
      ∃ m < k + 1, mid = ringId client ringPhaseFlush m := by
    rintro mid ⟨m, hm, heq⟩
    exact ⟨m, Nat.lt_succ_of_lt hm, heq⟩
  refine Family.forall_update (P := fun _ (u : Observed Unit) ↦ ∀ mid ∈ u.seen .control,
    (∃ m : ℕ, mid = ringId client ringPhaseCount m) ∨
      ∃ m < k + 1, mid = ringId client ringPhaseFlush m) (fun j mid hmid ↦ ?_)
    (fun mid hmid ↦ ?_) j
  · exact (hseen j mid hmid).imp id (hlater mid)
  · rw [see_self, Finset.mem_insert, hv] at hmid
    rcases hmid with rfl | hmid
    · exact Or.inr ⟨k, Nat.lt_succ_self k, hid⟩
    · exact (hseen i mid hmid).imp id (hlater mid)

/-- A node flushes and passes the token on, or ends the stream if it is the coordinator. -/
theorem phase_flush (h : Accounting feed n client r)
    (hexpected : feed.expected = ∑ i ∈ Finset.range n, ((feed.addressed i).card : ℤ)) (hi : i < n)
    {envelope : Envelope} {rest : List Envelope} (hhead : r.net.control i = envelope :: rest)
    {coordinatorId : NodeId} (hcoord : envelope.token.ring.coordinatorId = some coordinatorId)
    (msgs : List (Message α)) :
    Phase feed n client
      ⟨Function.update r.node i ((flushed (r.node i) msgs.length).see .control envelope.messageId),
        r.inbox, (r.net.handled i (r.node i) (.token envelope)
          (msgs.map .data ++ [flushOutput ⟨i, n⟩ client queryId
            ((r.node i).sent + msgs.length - (r.node i).partialSent) envelope.token
            coordinatorId])).pop i⟩ := by
  have hmem : envelope ∈ r.net.control i := by
    rw [hhead]
    exact List.mem_cons_self
  have hfresh : envelope.messageId ∉ (r.node i).seen .control := h.phase.fresh hmem
  cases h.phase with
  | waiting heof hcontrol => simp [hcontrol] at hhead
  | counting k envelope' heof hcontrol hcoord' =>
    obtain ⟨-, rfl⟩ := Network.eq_of_control hcontrol hhead
    exact absurd (hcoord'.symm.trans hcoord) (by simp)
  | done b mid hb heof hcontrol => simp [hcontrol] at hhead
  | flushing k b envelope' hk hb heof hcontrol hcoord' hid hcarries hseen hreported hflushes
      hfinals =>
    obtain ⟨hposition, rfl⟩ := Network.eq_of_control hcontrol hhead
    obtain rfl := Option.some.inj (hcoord'.symm.trans hcoord)
    set v := (flushed (r.node i) msgs.length).see .control envelope'.messageId with hv
    have heof' : feed.eofId ∈ (Function.update r.node i v feed.eofNode).seen .main :=
      Family.forall_update (P := fun j (u : Observed Unit) ↦ (r.node j).seen .main ⊆ u.seen .main)
        (fun _ ↦ Finset.Subset.refl _)
        (subset_see (flushed (r.node i) msgs.length) .control .main _) _ heof
    -- to flush is not to report anything that was processed
    have hreported' : feed.expected
        ≤ ∑ j ∈ Finset.range n, (Function.update r.node i v j).partialProcessed := by
      have hkeep : ∀ j, (Function.update r.node i v j).partialProcessed
          = (r.node j).partialProcessed :=
        Family.forall_update (P := fun j (u : Observed Unit) ↦
          u.partialProcessed = (r.node j).partialProcessed) (fun _ ↦ rfl) rfl
      simp only [hkeep]
      exact hreported
    have hflushes' : ∀ outs : List (Output α), (r.net.handled i (r.node i) (.token envelope')
        outs).flushes = (List.range (k + 1)).map fun m ↦ (b + 1 + m) % n := by
      intro outs
      have hexp : envelope'.token.ring.expectedCount ≠ cleanupExpectedCount := h.quiet i _ hmem
      rw [Network.flushes_handled, if_pos ⟨hfresh, by simp [hcoord], hexp⟩, hflushes,
        List.range_succ, List.map_append, List.map_singleton, hposition]
    by_cases hlast : b = i
    · -- the coordinator has flushed last
      subst hlast
      have hk' : k + 1 = n := Around.eq_of_return hi hk hposition
      rw [h.flushOutput_last hexpected hi hmem hcarries hreported (v := v) rfl]
      refine .done b (finalEofId client ⟨∑ j ∈ Finset.range n,
        (Function.update r.node b v j).sent⟩ queryId) hb heof' ?_ hreported' ?_ ?_
      · refine Network.control_last (hposition ▸ hcontrol) fun o ho ↦ ?_
        rcases List.mem_append.mp ho with ho | ho
        · exact leaves_map_data msgs o ho
        · rw [List.mem_singleton.mp ho]
          exact trivial
      · rw [Network.pop, hflushes', hk']
      · exact (finals_handled_flush r.net (r.node b) msgs _).trans (congrArg (· ++ _) hfinals)
    · -- another node passes the token on, one place further
      have hk' : k + 1 < n := by
        refine lt_of_le_of_ne hk fun heq ↦ hlast ?_
        rw [← hposition, Nat.add_assoc, Nat.add_comm 1 k, heq, Nat.add_mod_right,
          Nat.mod_eq_of_lt hb]
      set token : Token := flushToken client
        ((r.node i).sent + msgs.length - (r.node i).partialSent) envelope'.token with htoken
      have hring : flushOutput ⟨i, n⟩ client queryId
          ((r.node i).sent + msgs.length - (r.node i).partialSent) envelope'.token b
          = (.ring ((i + 1) % n) token : Output α) := if_neg hlast
      rw [hring]
      refine .flushing (k + 1) b (envelope'.pass i token) hk' hb heof' ?_ hcoord ?_ (fun j ↦ ?_)
        (seen_flush hid hseen rfl) hreported' (hflushes' _) ?_
      · rw [Around.next_step n (b + 1) k, hposition]
        exact Network.control_relay (hposition ▸ hcontrol) (leaves_map_data msgs)
      · rw [Envelope.messageId, Envelope.pass, htoken, flushToken,
          show envelope'.token.messageId = _ from hid, ringSeqOf_ringId]
        push_cast
        rfl
      · by_cases hj : j = i
        · subst hj
          simp only [Envelope.pass, Function.update_self, hcarries j, htoken,
            flushToken, hv, flushed,
            Observed.see, Envelope.totalSent, Option.getD_some]
          omega
        · simp only [Envelope.pass, Function.update_of_ne hj]
          exact hcarries j
      · exact (finals_handled_flush r.net (r.node i) msgs _).trans (congrArg (· ++ _) hfinals)

theorem published_react (h : Accounting feed n client r) (hi : i < n)
    (hquiet : ∀ envelope, taken = .token envelope →
      envelope.token.ring.expectedCount ≠ cleanupExpectedCount)
    (hcompletion : Completion ⟨i, n⟩ client queryId (r.node i) taken sends outs v) :
    ((r.react i taken outs v).net.published.length : ℤ)
      = ∑ j ∈ Finset.range n, ((r.react i taken outs v).node j).sent := by
  have hsent := sent_of_completion hcompletion hquiet i
  have hpublished : ((r.net.outputs.filter fun p ↦ p.2.isData).length : ℤ)
      = ∑ j ∈ Finset.range n, (r.node j).sent := h.published
  rw [Network.published, Traffic.outputs_react, List.filter_append, List.length_append, Ring.react,
    Family.sum_update (Finset.mem_range.mpr hi) r.node v Observed.sent]
  push_cast
  rw [hpublished, hsent]

theorem phase_main (h : Accounting feed n client r)
    (hexpected : feed.expected = ∑ i ∈ Finset.range n, ((feed.addressed i).card : ℤ)) (hi : i < n)
    (hmem : taken ∈ r.inbox i)
    (hcompletion : Completion ⟨i, n⟩ client queryId (r.node i) taken sends outs v) :
    Phase feed n client (r.react i taken outs v) := by
  have hallows := h.arrivals i taken hmem
  cases hcompletion with
  | duplicate hfresh =>
    rw [Ring.react_duplicate hfresh]
    exact h.phase
  | data msgs hfresh => exact h.phase_data hexpected hi hallows hfresh msgs
  | eof hfresh => exact h.phase_eof hallows hfresh
  | count hfresh hcoord => exact hallows.elim
  | flush msgs hfresh hcoord hexp => exact hallows.elim
  | cleanup hfresh hcoord hexp => exact hallows.elim

theorem phase_token (h : Accounting feed n client r)
    (hexpected : feed.expected = ∑ i ∈ Finset.range n, ((feed.addressed i).card : ℤ)) (hi : i < n)
    {envelope : Envelope} {rest : List Envelope} (hhead : r.net.control i = envelope :: rest)
    (hcompletion : Completion ⟨i, n⟩ client queryId (r.node i) (.token envelope) sends outs v) :
    Phase feed n client ⟨Function.update r.node i v, r.inbox,
      (r.net.handled i (r.node i) (.token envelope) outs).pop i⟩ := by
  have hmem : envelope ∈ r.net.control i := by
    rw [hhead]
    exact List.mem_cons_self
  cases hcompletion with
  | duplicate hfresh => exact absurd (h.phase.fresh hmem) hfresh
  | count hfresh hcoord => exact h.phase_count hi hhead hcoord
  | flush msgs hfresh hcoord hexp => exact h.phase_flush hexpected hi hhead hcoord msgs
  | cleanup hfresh hcoord hexp => exact absurd hexp (h.quiet i envelope hmem)

theorem step {r' : Ring α} (h : Accounting feed n client r)
    (hexpected : feed.expected = ∑ i ∈ Finset.range n, ((feed.addressed i).card : ℤ))
    (hl : l.Complete) (hstep : Ring.Step n client queryId r l r') :
    Accounting feed n client r' := by
  have htraffic := h.toTraffic.step hstep
  suffices hrest : (r'.net.published.length : ℤ) = ∑ j ∈ Finset.range n, (r'.node j).sent ∧
      (∀ j, (r'.node j).partialProcessed = (r'.node j).processed →
        (r'.node j).partialSent = (r'.node j).sent) ∧ Phase feed n client r' from
    ⟨htraffic, hrest.1, hrest.2.1, hrest.2.2⟩
  have hreported : ∀ {i taken sends outs v}, (∀ envelope, taken = .token envelope →
        envelope.token.ring.expectedCount ≠ cleanupExpectedCount) →
      Completion (α := α) ⟨i, n⟩ client queryId (r.node i) taken sends outs v →
      ∀ j, (Function.update r.node i v j).partialProcessed
        = (Function.update r.node i v j).processed →
        (Function.update r.node i v j).partialSent = (Function.update r.node i v j).sent :=
    fun {i _ _ _ _} hquiet hcompletion ↦ Family.forall_update
      (P := fun _ (u : Observed Unit) ↦ u.partialProcessed = u.processed → u.partialSent = u.sent)
      h.reported (reported_of_completion hcompletion hquiet (h.marks i) (h.reported i))
  refine Ring.complete_preserves (P := fun r' ↦
    (r'.net.published.length : ℤ) = ∑ j ∈ Finset.range n, (r'.node j).sent ∧
      (∀ j, (r'.node j).partialProcessed = (r'.node j).processed →
        (r'.node j).partialSent = (r'.node j).sent) ∧ Phase feed n client r') hstep hl ?_ ?_
  · intro i before taken after sends outs v hi hinbox hcompletion
    have hmem : taken ∈ r.inbox i := by simp [hinbox]
    have hallows : feed.Allows i taken ∨
        ∃ envelope, taken = .token envelope ∧ feed.Labels client envelope :=
      Or.inl (h.arrivals i taken hmem)
    have hquiet := Feed.quiet_of_allows hallows
    exact ⟨h.published_react hi hquiet hcompletion, hreported hquiet hcompletion,
      (h.phase_main hexpected hi hmem hcompletion).ack _⟩
  · intro i envelope rest sends outs v hi hhead hcompletion
    have hquiet : ∀ envelope', Taken.token envelope = .token envelope' →
        envelope'.token.ring.expectedCount ≠ cleanupExpectedCount := by
      intro envelope' heq
      obtain rfl := Taken.token.inj heq
      exact h.quiet i envelope (by rw [hhead]; exact List.mem_cons_self)
    exact ⟨h.published_react hi hquiet hcompletion, hreported hquiet hcompletion,
      h.phase_token hexpected hi hhead hcompletion⟩

end Accounting

/-! ## Runs -/

namespace Stage

variable {w : StatefulWorker} {s : Stage w}

theorem accounting_of_reachable
    (hexpected : feed.expected = ∑ i ∈ Finset.range n, ((feed.addressed i).card : ℤ))
    {inbox : NodeId → List (MainMessage w)}
    (hallows : ∀ i, ∀ message ∈ inbox i, feed.Allows i message.taken)
    (hreach : Stage.Reachable n client (fun _ l ↦ l.Complete) (Stage.init inbox) s) :
    Accounting feed n client (s.ring client) := by
  refine Stage.invariant_of_complete (Accounting.init fun i taken htaken ↦ ?_)
    (fun h hl hstep ↦ h.step hexpected hl hstep) hreach
  obtain ⟨message, hmessage, rfl⟩ := List.mem_map.mp htaken
  exact hallows i message hmessage

/-- A token can always be handled. -/
theorem exists_step_of_token (hi : i < n) {envelope : Envelope} {rest : List Envelope}
    (hhead : s.net.control i = envelope :: rest) :
    ∃ l s' outs, l.Complete ∧ Step n client s l s' ∧
      s'.net = (s.net.handled i (s.node client i) (.token envelope) outs).pop i := by
  obtain ⟨msgs, hflush⟩ := w.exists_flushData i client ((s.store i).mem client).state
  exact ⟨.token i msgs.length true, _, _, rfl, step_token hi hhead hflush rfl, rfl⟩

/-- Once a node is to flush, the stage can be run until the stream is ended. -/
theorem exists_finals
    (hexpected : feed.expected = ∑ i ∈ Finset.range n, ((feed.addressed i).card : ℤ)) {m : ℕ}
    (hm : n ≤ s.net.flushes.length + m) (h : Accounting feed n client (s.ring client))
    {envelope : Envelope} {rest : List Envelope} (hhead : s.net.control i = envelope :: rest)
    (hcoord : envelope.token.ring.coordinatorId ≠ none) :
    ∃ s', Reachable n client (fun _ l ↦ l.Complete) s s' ∧ s'.net.finals ≠ [] := by
  obtain ⟨hi, hlength⟩ := h.phase.length_flushes hhead hcoord
  induction m generalizing s i envelope rest with
  | zero => exact absurd hm hlength.not_ge
  | succ m ih =>
    obtain ⟨l, s', outs, hl, hstep, hnet⟩ := exists_step_of_token hi hhead
    have h' := h.step hexpected hl (ring_step_of_complete hl hstep)
    have hmem : envelope ∈ (s.ring client).net.control i := by
      rw [show (s.ring client).net.control i = _ from hhead]
      exact List.mem_cons_self
    -- the node flushes now
    have hflushes : s'.net.flushes = s.net.flushes ++ [i] := by
      rw [hnet]
      refine Network.flushes_handled.trans ?_
      rw [if_pos ⟨h.phase.fresh hmem, hcoord, h.quiet i envelope hmem⟩]
    have hlast : Reachable n client (fun _ l ↦ l.Complete) s s' := .single ⟨l, hl, hstep⟩
    have hne : s'.net.flushes ≠ [] := by
      rw [hflushes]
      exact List.concat_ne_nil i _
    rcases h'.phase.flushing_or_ended hne with ⟨j, next, hnext, hcoord'⟩ | hfinals
    · obtain ⟨hj, hlength'⟩ := h'.phase.length_flushes hnext hcoord'
      obtain ⟨s'', hreach, hfinals⟩ :=
        ih (by rw [hflushes]; simp; omega) h' hnext hcoord' hj hlength'
      exact ⟨s'', hlast.trans hreach, hfinals⟩
    · exact ⟨s', hlast, hfinals⟩

end Stage

/-- **The accounting of a ring.** In a run without crashes and cleanups: a node flushes only when
every data message was processed, and at most once; the stream is ended at most once, by the node
that flushed last, when all nodes have flushed, and the end announces exactly the data messages that
were published; no token is ever dropped; and after the end of the input was handled, either a token
is on its way or the stream was ended. -/
theorem ring_accounting (w : StatefulWorker) {n : ℕ} {client : ClientId} {feed : Feed}
    (hexpected : feed.expected = ∑ i ∈ Finset.range n, ((feed.addressed i).card : ℤ))
    {inbox : NodeId → List (MainMessage w)}
    (hinbox : ∀ i, ∀ message ∈ inbox i, feed.Allows i message.taken) {s : Stage w}
    (hreach : Stage.Reachable n client (fun _ l ↦ l.Complete) (Stage.init inbox) s) :
    (s.net.flushes ≠ [] → ∀ i < n, feed.addressed i ⊆ (s.node client i).seen .main) ∧
      s.net.flushes.Nodup ∧
      s.net.finals.length ≤ 1 ∧
      (∀ b o, (b, o) ∈ s.net.finals → (∀ i < n, i ∈ s.net.flushes) ∧
        s.net.flushes.getLast? = some b ∧
        ∃ mid, o = .finalEof mid ⟨s.net.published.length⟩) ∧
      (∀ i, ∀ envelope ∈ s.net.control i,
        envelope.messageId ∉ (s.node client i).seen .control) ∧
      (feed.eofId ∈ (s.node client feed.eofNode).seen .main → (∀ i, s.net.control i = []) →
        s.net.finals ≠ []) := by
  have h := Stage.accounting_of_reachable hexpected hinbox hreach
  have hfresh : ∀ i, ∀ envelope ∈ s.net.control i,
      envelope.messageId ∉ (s.node client i).seen .control := fun i _ hmem ↦ h.phase.fresh hmem
  have hall : ∀ hreported : feed.expected ≤ ∑ j ∈ Finset.range n,
      (s.node client j).partialProcessed,
      ∀ i < n, feed.addressed i ⊆ (s.node client i).seen .main :=
    fun hreported i hi ↦ (h.all_of_reported hexpected hreported hi).2
  have hqueued : ∀ {i envelope}, s.net.control = Function.update (fun _ ↦ []) i [envelope] →
      ¬∀ i, s.net.control i = [] := by
    intro i envelope hcontrol hempty
    have := hempty i
    simp [hcontrol] at this
  cases h.phase with
  | waiting heof hcontrol hseen hreported hflushes hfinals =>
    have hflushes : s.net.flushes = [] := hflushes
    have hfinals : s.net.finals = [] := hfinals
    exact ⟨fun hne ↦ absurd hflushes hne, by simp [hflushes], by simp [hfinals], by simp [hfinals],
      hfresh, fun hmem ↦ absurd hmem heof⟩
  | counting k envelope heof hcontrol hcoord hid hcarries hseen hflushes hfinals =>
    have hflushes : s.net.flushes = [] := hflushes
    have hfinals : s.net.finals = [] := hfinals
    exact ⟨fun hne ↦ absurd hflushes hne, by simp [hflushes], by simp [hfinals], by simp [hfinals],
      hfresh, fun _ hempty ↦ absurd hempty (hqueued hcontrol)⟩
  | flushing k b envelope hk hb heof hcontrol hcoord hid hcarries hseen hreported hflushes
      hfinals =>
    have hflushes : s.net.flushes = _ := hflushes
    have hfinals : s.net.finals = [] := hfinals
    refine ⟨fun _ ↦ hall hreported, ?_, by simp [hfinals], by simp [hfinals], hfresh,
      fun _ hempty ↦ absurd hempty (hqueued hcontrol)⟩
    rw [hflushes]
    exact Around.nodup_map hk.le (b + 1)
  | done b mid hb heof hcontrol hreported hflushes hfinals =>
    have hflushes : s.net.flushes = _ := hflushes
    have hfinals : s.net.finals = _ := hfinals
    have hpublished : (s.net.published.length : ℤ)
        = ∑ j ∈ Finset.range n, (s.node client j).sent := h.published
    refine ⟨fun _ ↦ hall hreported, ?_, by simp [hfinals], fun b' o hmem ↦ ⟨fun i hi ↦ ?_, ?_, ?_⟩,
      hfresh, fun _ _ ↦ by simp [hfinals]⟩
    · rw [hflushes]
      exact Around.nodup_map le_rfl (b + 1)
    · rw [hflushes, List.mem_map]
      obtain ⟨k, hk, heq⟩ := Around.exists_step (i := b + 1) hi
      exact ⟨k, List.mem_range.mpr hk, heq⟩
    · rw [hfinals, List.mem_singleton] at hmem
      obtain rfl := (Prod.ext_iff.mp hmem).1
      rw [hflushes]
      exact Around.getLast?_map hb
    · rw [hfinals, List.mem_singleton] at hmem
      rw [hpublished]
      exact ⟨mid, (Prod.ext_iff.mp hmem).2⟩

/-! ## A ring of two nodes -/

/-- A node is sent one message and the end of the stream, the other one message. -/
def pairInbox : NodeId → List (MainMessage countingWorker)
  | 0 => [.data "c:0:0" ⟨1⟩, .eof "c:eof" ⟨2⟩]
  | 1 => [.data "c:1:0" ⟨1⟩]
  | _ => []

def pairFeed : Feed where
  addressed
    | 0 => {"c:0:0"}
    | 1 => {"c:1:0"}
    | _ => ∅
  eofNode := 0
  eofId := "c:eof"
  expected := 2
  eofId_notMem := by decide
  expected_ne := by decide

theorem allows_pairInbox (i : NodeId) :
    ∀ message ∈ pairInbox i, pairFeed.Allows i message.taken := by
  intro message hmessage
  match i with
  | 0 =>
    rcases List.mem_pair.mp hmessage with rfl | rfl
    · exact Finset.mem_singleton_self _
    · exact ⟨rfl, rfl, rfl⟩
  | 1 =>
    obtain rfl := List.mem_singleton.mp hmessage
    exact Finset.mem_singleton_self _
  | _ + 2 => exact absurd hmessage List.not_mem_nil

/-- The end of the stream is taken before the other node has its message. Its token finds then that
nothing is missing, both nodes flush, and the stream is ended. -/
theorem ring_accounting_ended :
    ∃ s : Stage countingWorker,
      Stage.Reachable 2 "c" (fun _ l ↦ l.Complete) (Stage.init pairInbox) s ∧
      (∀ i < 2, i ∈ s.net.flushes) ∧
      ∃ b mid, s.net.finals = [(b, .finalEof mid ⟨s.net.published.length⟩)] := by
  obtain ⟨r, hr, envelope, rest, hhead, hcoord⟩ :
      ∃ r, ((Stage.init pairInbox).ring "c").run 2 "c" countingWorker.queryId
          [.main 0 0 none, .main 0 0 none, .main 1 0 none, .token 1 none] = some r ∧
        ∃ envelope rest, r.net.control 0 = envelope :: rest ∧
          envelope.token.ring.coordinatorId ≠ none := by
    refine ⟨_, rfl, _, _, rfl, ?_⟩
    decide
  obtain ⟨s, hreach, rfl⟩ := Stage.exists_run_complete silent_countingWorker hr
    (by simp [Move.cut])
  have haccounting : Accounting pairFeed 2 "c" (s.ring "c") :=
    Stage.accounting_of_reachable (by decide) allows_pairInbox hreach
  obtain ⟨s', hreach', hfinals⟩ :=
    Stage.exists_finals (by decide) (Nat.le_add_left 2 _) haccounting hhead hcoord
  obtain ⟨-, -, honce, hended, -, -⟩ :=
    ring_accounting countingWorker (by decide) allows_pairInbox (hreach.trans hreach')
  obtain ⟨⟨b, o⟩, hfinal⟩ := List.length_eq_one_iff.mp
    (le_antisymm honce (List.length_pos_iff.mpr hfinals))
  obtain ⟨hall, -, mid, rfl⟩ := hended b o (hfinal ▸ List.mem_singleton_self _)
  exact ⟨s', hreach.trans hreach', hall, b, mid, hfinal⟩

end MoneyLaundering
