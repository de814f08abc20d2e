import MoneyLaundering.Ring.Pending
import MoneyLaundering.Ring.Progress

/-!
# When a coordinator is designated

A node designates itself coordinator when the total of a counting token has reached the announced
count. If a node adds what it has processed to a token that already carries it, this can happen
before every message is processed.

A node that dies between publishing a token and recording it publishes it again, but only after it
has taken the same token again, which is still at the head of its control queue, so nothing it
published comes back to it before. That is the invariant: what a pending token carries of a node is
at most what the node has on record as reported, unless the node has a pending token of its own in
front (`Covered`).

The end of the stream does not come on the control queue. A node that dies after it has published
the first token, and before it has recorded that, may take a token from its control queue first. So
elections are safe in runs in which this does not happen: `election_safe`. In general they are not:
`premature_election`.
-/

namespace MoneyLaundering

open WriteAhead StatefulWorker

/-- The output is a token in which its publisher designates itself coordinator. -/
def Designates {α : Type} : NodeId × Output α → Prop
  | (i, .ring _ token) => token.ring.coordinatorId = some i
  | (_, .data _) => False
  | (_, .finalEof _ _) => False

/-- When a node adds its counts to a counting token, it has on record as reported what it published
when it first started the ring. -/
def Ring.StartReported {α : Type} (client : ClientId) (r : Ring α) : Label → Prop
  | .token i _ _ => ∀ envelope rest, r.net.control i = envelope :: rest → envelope.Counting →
      envelope.messageId ∉ (r.node i).seen .control →
      ∀ m, startedWith client i r.net.outputs = some m → m ≤ (r.node i).partialProcessed
  | .main _ _ _ => True
  | .restart _ => True

variable {α : Type} {feed : Feed} {n : ℕ} {client : ClientId} {queryId : Option String}
  {i j : NodeId} {taken : Taken} {sends : ℕ} {outs : List (Output α)} {v : Observed Unit}
  {r : Ring α} {l : Label} {before : List Envelope} {envelope : Envelope}

/-- What a token in the queue of node `i` carries of node `j` is on record there, or was published
with the first token, or `j` has a pending token which it will take before this one. -/
def Ring.Covered (client : ClientId) (r : Ring α) (i : NodeId) (before : List Envelope)
    (envelope : Envelope) (j : NodeId) : Prop :=
  envelope.processedOf j ≤ (r.node j).partialProcessed ∨
    (∃ m, startedWith client j r.net.outputs = some m ∧ envelope.processedOf j ≤ m) ∨
    ∃ before' own, r.Pending j before' own ∧ (i = j → own ∈ before)

/-- The invariant of elections. -/
structure Accounted (feed : Feed) (n : ℕ) (client : ClientId) (r : Ring α) : Prop
    extends Traffic feed n client r where
  carried : r.net.Forall fun envelope ↦ ∀ j, envelope.processedOf j ≤ (r.node j).processed
  covered : ∀ {i before envelope}, r.Pending i before envelope →
    ∀ j, r.Covered client i before envelope j
  designated : (∃ p ∈ r.net.outputs, Designates p) →
    feed.expected ≤ ∑ j ∈ Finset.range n, (r.node j).processed

/-! ## One step -/

theorem Ring.Covered.react (h : r.Covered client i before envelope j) {i' : NodeId}
    (hp : (r.node j).partialProcessed ≤ ((r.react i' taken outs v).node j).partialProcessed)
    (hown : ∀ before' own, r.Pending j before' own →
      (r.react i' taken outs v).Pending j before' own) :
    (r.react i' taken outs v).Covered client i before envelope j := by
  rcases h with h | ⟨m, hm, hle⟩ | ⟨before', own, hpending, hfront⟩
  · exact Or.inl (h.trans hp)
  · refine Or.inr (Or.inl ⟨m, ?_, hle⟩)
    rw [Traffic.outputs_react, startedWith_append, hm]
    rfl
  · exact Or.inr (Or.inr ⟨before', own, hown before' own hpending, hfront⟩)

namespace Accounted

theorem init {inbox : NodeId → List Taken} (hinbox : ∀ i, ∀ taken ∈ inbox i, feed.Allows i taken) :
    Accounted feed n client (Ring.init inbox : Ring α) where
  toTraffic := Traffic.init hinbox
  carried := Network.forall_empty _
  covered h := by simpa [Ring.init, Network.empty] using h.mem
  designated := by
    rintro ⟨p, hp, -⟩
    simp [Ring.init, Network.empty] at hp

/-- Counts do not decrease. -/
theorem grows (h : Accounted feed n client r)
    (hreaction : Reaction ⟨i, n⟩ client queryId (r.node i) taken sends outs v) (j : NodeId) :
    (r.node j).Grows ((r.react i taken outs v).node j) :=
  Family.forall_update (P := fun j (u : Observed Unit) ↦ (r.node j).Grows u) (fun _ ↦ .refl _)
    (grows_of_reaction hreaction (h.marks i)) j

/-- A token that a node adds to carries no more of it than is on record. -/
theorem carried_le_partial (h : Accounted feed n client r) (hcond : r.StartReported client l)
    (htakes : r.Takes l i (.token envelope) sends)
    (hfresh : envelope.messageId ∉ (r.node i).seen .control)
    (hcounting : envelope.Counting) : envelope.processedOf i ≤ (r.node i).partialProcessed := by
  cases htakes with
  | main hmem => exact absurd hmem (h.token_notMem_inbox i envelope)
  | token hhead =>
    rcases h.covered (pending_head hhead hcounting hfresh) i with hle | ⟨m, hm, hle⟩ |
      ⟨before', own, -, hfront⟩
    · exact hle
    · exact hle.trans (hcond envelope _ hhead hcounting hfresh m hm)
    · exact absurd (hfront rfl) List.not_mem_nil

/-- What a token that is sent carries of its sender. -/
theorem carried_sender (h : Accounted feed n client r) (hcond : r.StartReported client l)
    (htakes : r.Takes l i taken sends)
    (hreaction : Reaction ⟨i, n⟩ client queryId (r.node i) taken sends outs v) {node : NodeId}
    {token : Token} (hmem : .ring node token ∈ outs) :
    (taken.origin.pass i token).processedOf i ≤ (r.node i).processed := by
  have hmarks := h.marks i
  have hpass : (taken.origin.pass i token).processedOf i
      = taken.origin.processedOf i + (token.ring.totalProcessedCount - taken.origin.total) :=
    Function.update_self _ _ _
  have hreaction' := hreaction
  cases hreaction with
  | nothing outs hleaves => exact (hleaves _ hmem).elim
  | data msgs _ => exact (leaves_map_data msgs _ hmem).elim
  | start _ hv =>
    obtain ⟨-, rfl⟩ := Output.ring.inj (List.mem_singleton.mp hmem)
    have hle := hmarks.partialProcessed_nonneg
    rw [hpass]
    simp only [Taken.origin, Envelope.blank, Envelope.total, startToken]
    omega
  | count hfresh hcoord hv =>
    obtain ⟨-, rfl⟩ := Output.ring.inj (List.mem_singleton.mp hmem)
    have hexp := h.quiet i _ (htakes.mem h.toTraffic)
    have hle := h.carried_le_partial hcond htakes hfresh ⟨hcoord, hexp⟩
    rw [hpass]
    simp only [Taken.origin, Envelope.total, countToken]
    omega
  | @flush envelope _ _ msgs hfresh hcoord hv =>
    have hle := h.carried i envelope (htakes.mem h.toTraffic) i
    obtain ⟨-, ⟨_, _, heq, -⟩ | ⟨_, heq, hnone, -⟩ | ⟨_, sent, heq, -, -, rfl⟩⟩ :=
      ring_mem_of_reaction hreaction' hmem
    · exact absurd heq (by simp)
    · obtain rfl := Taken.token.inj heq
      exact absurd (hcoord.symm.trans hnone) (by simp)
    · obtain rfl := Taken.token.inj heq
      rw [hpass]
      simpa [Taken.origin, Envelope.total] using hle

/-- Either the pending tokens of a node stay pending, or the node has just reported its counts. -/
theorem survives_or_reported (h : Accounted feed n client r) (htakes : r.Takes l i taken sends)
    (hreaction : Reaction ⟨i, n⟩ client queryId (r.node i) taken sends outs v) (j : NodeId) :
    (∀ before own, r.Pending j before own → (r.react i taken outs v).Pending j before own) ∨
      j = i ∧ v.partialProcessed = (r.node i).processed := by
  by_cases hj : j = i
  · subst hj
    have hkeep : v.seen .control = (r.node j).seen .control →
        ∀ before own, r.Pending j before own → (r.react j taken outs v).Pending j before own := by
      intro hseen before own hown
      refine hown.react ?_
      rw [Ring.node_react_self, hseen]
      exact hown.2.unseen
    cases hreaction with
    | nothing outs _ => exact Or.inl (hkeep rfl)
    | @data mid _ msgs _ => exact Or.inl (hkeep (see_control_main _ mid))
    | start _ hv =>
      rcases hv with rfl | rfl | rfl
      · exact Or.inl (hkeep rfl)
      · exact Or.inl (hkeep rfl)
      · exact Or.inl (hkeep (see_control_main _ _))
    | count _ _ hv =>
      rcases hv with rfl | rfl
      · exact Or.inl (hkeep rfl)
      · exact Or.inr ⟨rfl, rfl⟩
    | @flush envelope _ _ msgs _ hcoord hv =>
      rcases hv with rfl | rfl
      · exact Or.inl (hkeep rfl)
      · refine Or.inl fun before own hown ↦ hown.react ?_
        -- the id that is now seen is that of a flush token
        obtain ⟨k, hk⟩ := (h.tokens j own hown.mem).2.1 hown.1.1
        obtain ⟨k', hk'⟩ := (h.tokens j envelope (htakes.mem h.toTraffic)).2.2 (by simp [hcoord])
        rw [Ring.node_react_self, see_self, Finset.mem_insert, not_or]
        exact ⟨by rw [hk, hk']; exact ringId_count_ne_flush client _ _, hown.2.unseen⟩
  · refine Or.inl fun before own hown ↦ hown.react ?_
    rw [Ring.node_react_of_ne hj]
    exact hown.2.unseen

/-- A first token carries what was published with it. -/
theorem covered_start (h : Accounted feed n client r) {mid : MessageId} {marker : EOF}
    (htakes : r.Takes l i (.eof mid marker) sends)
    (hunseen : ringId client ringPhaseCount 0 ∉ (r.node ((i + 1) % n)).seen .control)
    (hfirst : ringId client ringPhaseCount 0
      ∉ (r.net.control ((i + 1) % n)).map Envelope.messageId) (j j' : NodeId) :
    let outs : List (Output α) := [.ring ((i + 1) % n) (startToken client (r.node i) marker)]
    (r.react i (.eof mid marker) outs v).Covered client j' before
      (Envelope.blank.pass i (startToken client (r.node i) marker)) j := by
  intro outs
  obtain ⟨rfl, rfl, rfl⟩ := (h.allows_of_takes htakes).resolve_right (by simp)
  by_cases hj : j = feed.eofNode
  · refine Or.inr (Or.inl ⟨(r.node j).processed - (r.node j).partialProcessed, ?_, ?_⟩)
    · have hnone : startedWith client j r.net.outputs = none := by
        by_contra hsome
        obtain ⟨m, hm⟩ := Option.ne_none_iff_exists'.mp hsome
        rw [hj] at hm
        exact (h.started m hm).elim hfirst hunseen
      rw [Traffic.outputs_react, startedWith_append, hnone, Option.none_or]
      simp [outs, startedWith, startTotal, startToken, feed.expected_ne, hj]
    · subst hj
      simp [Envelope.pass, Envelope.blank, Envelope.total, startToken]
  · left
    have hzero : (Envelope.blank.pass feed.eofNode (startToken client (r.node feed.eofNode)
        ⟨feed.expected⟩)).processedOf j = 0 := Function.update_of_ne hj _ _
    rw [hzero, Ring.node_react_of_ne hj]
    exact (h.marks j).partialProcessed_nonneg

/-- A token carries of the other nodes what the token it was made of carried. -/
theorem covered_count (h : Accounted feed n client r) (hcond : r.StartReported client l)
    (htakes : r.Takes l i (.token envelope) sends)
    (hreaction : Reaction ⟨i, n⟩ client queryId (r.node i) (.token envelope) sends outs v)
    (hfresh : envelope.messageId ∉ (r.node i).seen .control) (hcounting : envelope.Counting)
    {node : NodeId} {token : Token} (hmem : .ring node token ∈ outs) (j : NodeId) :
    (r.react i (.token envelope) outs v).Covered client node (r.net.control node)
      (envelope.pass i token) j := by
  obtain ⟨rest, hhead⟩ := htakes.head h.toTraffic
  have hpending : r.Pending i [] envelope := pending_head hhead hcounting hfresh
  rcases h.survives_or_reported htakes hreaction j with hown | ⟨rfl, hreported⟩
  · by_cases hj : j = i
    · -- the node has the token it was made of in front of it
      subst hj
      refine Or.inr (Or.inr ⟨[], envelope, hown _ _ hpending, ?_⟩)
      rintro rfl
      exact hpending.mem
    · have hcarried : (envelope.pass i token).processedOf j = envelope.processedOf j :=
        Function.update_of_ne hj _ _
      rw [Ring.Covered, hcarried]
      refine Ring.Covered.react ?_ (h.grows hreaction j).partialProcessed hown
      rcases h.covered hpending j with hle | hstart | ⟨before', own, hown', -⟩
      · exact Or.inl hle
      · exact Or.inr (Or.inl hstart)
      · exact Or.inr (Or.inr ⟨before', own, hown', fun heq ↦ heq ▸ hown'.mem⟩)
  · left
    rw [Ring.node_react_self, hreported]
    exact h.carried_sender hcond htakes hreaction hmem

theorem covered_react (h : Accounted feed n client r)
    (hcond : (∃ node token, .ring node token ∈ outs) → r.StartReported client l)
    (htakes : r.Takes l i taken sends)
    (hreaction : Reaction ⟨i, n⟩ client queryId (r.node i) taken sends outs v) {i' : NodeId}
    (hpending : (r.react i taken outs v).Pending i' before envelope) (j : NodeId) :
    (r.react i taken outs v).Covered client i' before envelope j := by
  rcases Ring.pending_of_react hreaction (h.marks i) hpending with hold |
    ⟨token, hmem, rfl, rfl, hunseen, hfirst⟩
  · rcases h.survives_or_reported htakes hreaction j with hown | ⟨rfl, hreported⟩
    · exact (h.covered hold j).react (h.grows hreaction j).partialProcessed hown
    · left
      rw [Ring.node_react_self, hreported]
      exact h.carried i' envelope hold.mem j
  · have hreaction' := hreaction
    cases hreaction with
    | nothing outs hleaves => exact (hleaves _ hmem).elim
    | data msgs _ => exact (leaves_map_data msgs _ hmem).elim
    | @start mid marker _ _ _ hv =>
      obtain ⟨rfl, rfl⟩ := Output.ring.inj (List.mem_singleton.mp hmem)
      have hid : (Envelope.blank.pass i (startToken client (r.node i) marker)).messageId
          = ringId client ringPhaseCount 0 := by
        obtain ⟨-, -, rfl⟩ := (h.allows_of_takes htakes).resolve_right (by simp)
        simp [Envelope.pass, Envelope.messageId, startToken, feed.expected_ne]
      rw [Taken.origin, hid] at hunseen hfirst
      exact h.covered_start htakes hunseen hfirst j _
    | count hfresh hcoord hv =>
      exact h.covered_count (hcond ⟨_, _, hmem⟩) htakes hreaction' hfresh
        ⟨hcoord, h.quiet i _ (htakes.mem h.toTraffic)⟩ hmem j
    | flush msgs hfresh hcoord hv =>
      obtain ⟨-, ⟨_, _, heq, -⟩ | ⟨_, heq, hnone, -⟩ | ⟨_, sent, heq, hsome, -, rfl⟩⟩ :=
        ring_mem_of_reaction hreaction' hmem
      · exact absurd heq (by simp)
      · obtain rfl := Taken.token.inj heq
        exact absurd (hcoord.symm.trans hnone) (by simp)
      · obtain rfl := Taken.token.inj heq
        exact absurd hpending.1.1 hsome

theorem carried_react (h : Accounted feed n client r)
    (hcond : (∃ node token, .ring node token ∈ outs) → r.StartReported client l)
    (htakes : r.Takes l i taken sends)
    (hreaction : Reaction ⟨i, n⟩ client queryId (r.node i) taken sends outs v) :
    (r.react i taken outs v).net.Forall fun envelope ↦
      ∀ j, envelope.processedOf j ≤ ((r.react i taken outs v).node j).processed := by
  have hbefore : r.net.Forall fun envelope ↦
      ∀ j, envelope.processedOf j ≤ ((r.react i taken outs v).node j).processed :=
    fun i' envelope hmem j ↦ (h.carried i' envelope hmem j).trans (h.grows hreaction j).processed
  refine hbefore.handled fun node token hmem j ↦ ?_
  by_cases hj : j = i
  · subst hj
    exact (h.carried_sender (hcond ⟨_, _, hmem⟩) htakes hreaction hmem).trans
      (h.grows hreaction j).processed
  · have hpass : (taken.origin.pass i token).processedOf j = taken.origin.processedOf j :=
      Function.update_of_ne hj _ _
    have hblank : Envelope.blank.processedOf j ≤ ((r.react i taken outs v).node j).processed := by
      rw [Ring.node_react_of_ne hj]
      exact (h.marks j).partialProcessed_nonneg.trans (h.marks j).partialProcessed_le
    rw [hpass]
    cases taken with
    | data mid => exact hblank
    | eof mid marker => exact hblank
    | token envelope => exact hbefore i envelope (htakes.mem h.toTraffic) j

/-- The total of a token that a node adds to does not exceed what was processed. -/
theorem total_le (h : Accounted feed n client r) (hi : i < n) (hmem : envelope ∈ r.net.control i)
    (hle : envelope.processedOf i ≤ (r.node i).partialProcessed) :
    envelope.total + (r.node i).processed - (r.node i).partialProcessed
      ≤ ∑ j ∈ Finset.range n, (r.node j).processed := by
  have hrange := Finset.mem_range.mpr hi
  have hsum : ∑ j ∈ (Finset.range n).erase i, envelope.processedOf j
      ≤ ∑ j ∈ (Finset.range n).erase i, (r.node j).processed :=
    Finset.sum_le_sum fun j _ ↦ h.carried i envelope hmem j
  have htotal := (h.totals i envelope hmem).1
  rw [← Finset.add_sum_erase _ _ hrange] at htotal ⊢
  omega

theorem designated_react (h : Accounted feed n client r)
    (hcond : (∃ node token, .ring node token ∈ outs) → r.StartReported client l)
    (hi : i < n) (htakes : r.Takes l i taken sends)
    (hreaction : Reaction ⟨i, n⟩ client queryId (r.node i) taken sends outs v)
    (hdesignated : ∃ p ∈ (r.react i taken outs v).net.outputs, Designates p) :
    feed.expected ≤ ∑ j ∈ Finset.range n, ((r.react i taken outs v).node j).processed := by
  refine le_trans ?_ (Finset.sum_le_sum fun j _ ↦ (h.grows hreaction j).processed)
  obtain ⟨p, hp, hdes⟩ := hdesignated
  rw [Traffic.outputs_react, List.mem_append] at hp
  rcases hp with hp | hp
  · exact h.designated ⟨p, hp, hdes⟩
  · obtain ⟨o, ho, rfl⟩ := List.mem_map.mp hp
    cases o with
    | data m => exact hdes.elim
    | finalEof messageId eof => exact hdes.elim
    | ring node token =>
      have hreaction' := hreaction
      cases hreaction with
      | nothing outs hleaves => exact (hleaves _ ho).elim
      | data msgs _ => exact (leaves_map_data msgs _ ho).elim
      | start _ hv =>
        obtain ⟨rfl, rfl⟩ := Output.ring.inj (List.mem_singleton.mp ho)
        exact absurd hdes (by simp [Designates, startToken])
      | @count envelope _ _ hfresh hcoord hv =>
        obtain ⟨rfl, rfl⟩ := Output.ring.inj (List.mem_singleton.mp ho)
        have hmem := htakes.mem h.toTraffic
        have hle := h.total_le hi hmem (h.carried_le_partial (hcond ⟨_, _, ho⟩) htakes hfresh
          ⟨hcoord, h.quiet i envelope hmem⟩)
        have helected : envelope.token.ring.expectedCount ≤ envelope.token.ring.totalProcessedCount
            + (r.node i).processed - (r.node i).partialProcessed := by
          by_contra hnot
          simp [Designates, countToken, hnot] at hdes
        rw [(h.tokens i envelope hmem).1] at helected
        exact helected.trans hle
      | flush msgs hfresh hcoord hv =>
        obtain ⟨-, ⟨_, _, heq, -⟩ | ⟨_, heq, hnone, -⟩ | ⟨_, sent, heq, -, hne, rfl⟩⟩ :=
          ring_mem_of_reaction hreaction' ho
        · exact absurd heq (by simp)
        · obtain rfl := Taken.token.inj heq
          exact absurd (hcoord.symm.trans hnone) (by simp)
        · exact absurd hdes hne

theorem react (h : Accounted feed n client r)
    (hcond : (∃ node token, .ring node token ∈ outs) → r.StartReported client l) (hi : i < n)
    (htakes : r.Takes l i taken sends)
    (hreaction : Reaction ⟨i, n⟩ client queryId (r.node i) taken sends outs v) :
    Accounted feed n client (r.react i taken outs v) where
  toTraffic := h.toTraffic.react hi htakes hreaction
  carried := h.carried_react hcond htakes hreaction
  covered hpending j := h.covered_react hcond htakes hreaction hpending j
  designated := h.designated_react hcond hi htakes hreaction

theorem ack (h : Accounted feed n client r) {messages : List Taken} (hsub : messages ⊆ r.inbox i) :
    Accounted feed n client { r with inbox := Function.update r.inbox i messages } :=
  { h with toTraffic := h.toTraffic.ack hsub }

theorem pop (h : Accounted feed n client r) {head : Envelope} {rest : List Envelope}
    (hhead : r.net.control i = head :: rest)
    (hseen : head.messageId ∈ (r.node i).seen .control) :
    Accounted feed n client { r with net := r.net.pop i } where
  toTraffic := h.toTraffic.pop hhead hseen
  carried := h.carried.pop i
  designated := h.designated
  covered := by
    intro i' before envelope hpending j
    rcases h.covered (Ring.pending_of_pop hhead hseen hpending) j with hle | hstart |
      ⟨before', own, hown, hfront⟩
    · exact Or.inl hle
    · exact Or.inr (Or.inl hstart)
    · obtain ⟨before'', rfl, hown'⟩ := hown.pop hhead hseen
      refine Or.inr (Or.inr ⟨before'', own, hown', ?_⟩)
      rintro rfl
      have hmem := hfront rfl
      split at hmem
      · rcases List.mem_cons.mp hmem with rfl | hmem
        · exact absurd hseen (by subst_vars; exact hown.2.unseen)
        · exact hmem
      · exact hmem

theorem step {r' : Ring α} (h : Accounted feed n client r)
    (hcond : r.Acts r' → r.StartReported client l)
    (hstep : Ring.Step n client queryId r l r') : Accounted feed n client r' :=
  Ring.step_preserves hstep h.quiet h.token_notMem_inbox h
    (fun hi htakes hreaction hacts ↦
      h.react (fun hring ↦ hcond (hacts (Or.inr hring))) hi htakes hreaction)
    (fun h hsub ↦ h.ack hsub) (fun h hhead hseen ↦ h.pop hhead hseen)

end Accounted

/-! ## Runs -/

variable {w : StatefulWorker}

/-- Every data message addressed to a node is in the log of that node. -/
def Stage.AllRecorded (n : ℕ) (client : ClientId) (feed : Feed) (s : Stage w) : Prop :=
  ∀ i < n, ∀ mid ∈ feed.addressed i,
    mid ∈ (w.discipline.recovered (s.store i).log client).observe.seen .main

/-- What the log of a node says was seen is what the node has seen. -/
theorem Stage.Synced.seen {s : Stage w} (h : s.Synced client) (i : NodeId) (ch : Channel) :
    (w.discipline.recovered (s.store i).log client).observe.seen ch
      = (s.node client i).seen ch :=
  (congrArg (fun v : Observed Unit ↦ v.seen ch) (h i).1).symm

/-- **Elections are safe** in runs in which no node adds its counts to a token while it has not on
record what it published with the first token: whenever a node has designated itself coordinator,
every data message is in the log of its node, and no token in a control queue has counted more
messages than there are in the logs. -/
theorem election_safe (w : StatefulWorker) {n : ℕ} {client : ClientId} {feed : Feed}
    (hexpected : feed.expected = ∑ i ∈ Finset.range n, ((feed.addressed i).card : ℤ))
    {inbox : NodeId → List (MainMessage w)}
    (hinbox : ∀ i, ∀ message ∈ inbox i, feed.Allows i message.taken) {s : Stage w}
    (hreach : Stage.ReachableActing n client (fun s l ↦ (s.ring client).StartReported client l)
      (Stage.init inbox) s) :
    ((∃ p ∈ s.net.outputs, Designates p) → s.AllRecorded n client feed) ∧
      ∀ i, ∀ envelope ∈ s.net.control i, envelope.total
        ≤ ∑ j ∈ Finset.range n, (((w.discipline.recovered (s.store j).log client).observe.seen .main
          ∩ feed.addressed j).card : ℤ) := by
  have hinit : Accounted feed n client
      (Ring.init fun i ↦ (inbox i).map MainMessage.taken : Ring w.Item) := by
    refine Accounted.init fun i taken htaken ↦ ?_
    obtain ⟨message, hmessage, rfl⟩ := List.mem_map.mp htaken
    exact hinbox i message hmessage
  obtain ⟨hsync, h⟩ := Stage.invariant_of_reachable hinit (fun _ h ↦ h.quiet)
    (fun h hcond hstep ↦ h.step hcond hstep) hreach
  have hprocessed : ∀ j, (s.node client j).processed
      = ((s.node client j).seen .main ∩ feed.addressed j).card := h.processed
  constructor
  · intro hdesignated i hi mid hmid
    have hle := h.designated hdesignated
    have hcard : ∀ j ∈ Finset.range n, (s.node client j).processed
        ≤ ((feed.addressed j).card : ℤ) := by
      intro j _
      rw [hprocessed]
      exact_mod_cast Finset.card_le_card Finset.inter_subset_right
    have heq := (Finset.sum_eq_sum_iff_of_le hcard).mp
      (le_antisymm (Finset.sum_le_sum hcard) (hexpected ▸ hle)) i (Finset.mem_range.mpr hi)
    rw [hprocessed] at heq
    have hinter := Finset.eq_of_subset_of_card_le Finset.inter_subset_right
      (by exact_mod_cast heq.ge : (feed.addressed i).card
        ≤ ((s.node client i).seen .main ∩ feed.addressed i).card)
    rw [hsync.seen]
    exact Finset.inter_subset_left (hinter ▸ hmid)
  · intro i envelope hmem
    simp only [hsync.seen, ← hprocessed]
    rw [← (h.totals i envelope hmem).1]
    exact Finset.sum_le_sum fun j _ ↦ h.carried i envelope hmem j

/-- The node dies after it has published the first token, and the end of the stream is delivered to
it again before it takes the token. -/
theorem election_safe_redelivery :
    ∃ s : Stage countingWorker,
      Stage.Reachable 1 "c" (fun s l ↦ (s.ring "c").StartReported "c" l)
        (Stage.init (countingInbox ["c:0:0", "c:1:0"] 2)) s ∧
      (∃ p ∈ s.net.outputs, Designates p) ∧
      s.AllRecorded 1 "c" (countingFeed ["c:0:0", "c:1:0"] 2 (by decide) (by decide)) := by
  let moves : List Move :=
    [.main 0 0 none, .main 0 1 (some 1), .main 0 1 none, .main 0 0 none, .token 0 none]
  let r₀ : Ring countingWorker.Item := (Stage.init (countingInbox ["c:0:0", "c:1:0"] 2)).ring "c"
  obtain ⟨r, hr, hdesignated⟩ : ∃ r, r₀.run 1 "c" countingWorker.queryId moves = some r ∧
      ∃ p ∈ r.net.outputs, Designates p :=
    ⟨_, rfl, _, List.mem_cons_of_mem _ (List.mem_cons_of_mem _ List.mem_cons_self), rfl⟩
  have halong : r₀.Along 1 "c" countingWorker.queryId
      (fun r move ↦ r.Quiet move ∧ r.Allowed (fun r l ↦ r.StartReported "c" l) move) moves := by
    refine ⟨⟨?_, fun _ _ ↦ trivial⟩, ⟨?_, fun _ _ ↦ trivial⟩, ⟨?_, fun _ _ ↦ trivial⟩,
      ⟨?_, fun _ _ ↦ trivial⟩, ⟨?_, fun sends envelope rest hhead _ _ m hm ↦ ?_⟩, trivial⟩
    · rintro envelope ⟨⟩
    · rintro envelope ⟨⟩
    · rintro envelope ⟨⟩
    · rintro envelope ⟨⟩
    · rintro envelope ⟨⟩
      decide
    · obtain rfl := Option.some.inj hm
      decide
  obtain ⟨s, hreach, -, rfl⟩ :=
    Stage.exists_run silent_countingWorker (Stage.synced_init _) hr halong
  refine ⟨s, hreach, hdesignated, ?_⟩
  have hinbox := allows_countingInbox (show "c:eof" ∉ ["c:0:0", "c:1:0"].toFinset by decide)
    (show (2 : ℤ) ≠ cleanupExpectedCount by decide)
  exact (election_safe countingWorker (by decide) hinbox hreach.acting).1 hdesignated

/-- In general elections are not safe. The node processes the first of two messages, dies after it
has published the first token, takes that token before the end of the stream is delivered to it
again, and counts the message twice. -/
theorem premature_election :
    ∃ s : Stage countingWorker,
      Stage.Reachable 1 "c" (fun _ _ ↦ True)
        (Stage.init (countingInbox ["c:0:0", "c:1:0"] 2)) s ∧
      (∃ p ∈ s.net.outputs, Designates p) ∧
      ¬s.AllRecorded 1 "c" (countingFeed ["c:0:0", "c:1:0"] 2 (by decide) (by decide)) := by
  let moves : List Move := [.main 0 0 none, .main 0 1 (some 1), .token 0 none]
  let r₀ : Ring countingWorker.Item := (Stage.init (countingInbox ["c:0:0", "c:1:0"] 2)).ring "c"
  obtain ⟨r, hr, hdesignated, hunseen⟩ : ∃ r, r₀.run 1 "c" countingWorker.queryId moves = some r ∧
      (∃ p ∈ r.net.outputs, Designates p) ∧ "c:1:0" ∉ (r.node 0).seen .main := by
    refine ⟨_, rfl, ⟨_, List.mem_cons_of_mem _ List.mem_cons_self, rfl⟩, ?_⟩
    decide
  have halong : r₀.Along 1 "c" countingWorker.queryId
      (fun r move ↦ r.Quiet move ∧ r.Allowed (fun _ _ ↦ True) move) moves := by
    refine ⟨⟨?_, fun _ _ ↦ trivial⟩, ⟨?_, fun _ _ ↦ trivial⟩, ⟨?_, fun _ ↦ trivial⟩, trivial⟩
    · rintro envelope ⟨⟩
    · rintro envelope ⟨⟩
    · rintro envelope ⟨⟩
      decide
  obtain ⟨s, hreach, hsync, rfl⟩ :=
    Stage.exists_run silent_countingWorker (Stage.synced_init _) hr halong
  refine ⟨s, hreach, hdesignated, fun hall ↦ hunseen ?_⟩
  have hseen := hall 0 (by decide) "c:1:0" (by decide)
  rwa [hsync.seen] at hseen

end MoneyLaundering
