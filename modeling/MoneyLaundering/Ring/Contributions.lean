import MoneyLaundering.Collections.Around
import MoneyLaundering.Ring.Answers
import MoneyLaundering.Ring.Election

/-!
# What the ring has counted is not lost

A pending token and what the nodes have not reported yet should account together for everything
that was processed: then one more lap finds all of it. A node that dies between publishing a token
and recording it publishes it again under the same id, and the copy is dropped. If the node counted
more in between, it records as reported what only the copy carries. Nothing is lost in runs in which
a node finishes first what it has published a token of: `contributions_kept`. In general something
is: `contribution_lost`.
-/

namespace MoneyLaundering

open WriteAhead StatefulWorker

/-- A token that goes on around the ring while nothing else happens, from node `i`. -/
def lap (n : ℕ) (client : ClientId) (v : NodeId → Observed Unit) (i : NodeId) (token : Token) :
    ℕ → Token
  | 0 => token
  | k + 1 =>
    countToken ⟨(i + k) % n, n⟩ client (v ((i + k) % n)) (lap n client v i token k)

variable {α : Type} {feed : Feed} {n : ℕ} {client : ClientId} {queryId : Option String}
  {i j : NodeId} {taken : Taken} {sends : ℕ} {outs : List (Output α)} {v : Observed Unit}
  {r : Ring α} {l : Label} {before : List Envelope} {envelope origin : Envelope} {mid : MessageId}
  {key : Channel × MessageId}

/-- The invariant: a pending token carries what is on record as reported, and all that a node with
an open message has counted, unless it is itself the open one. -/
structure Kept (feed : Feed) (n : ℕ) (client : ClientId) (r : Ring α) : Prop
    extends Answering feed n client r where
  carries : ∀ {i before envelope}, r.Pending i before envelope → ∀ j,
    (r.node j).partialProcessed ≤ envelope.processedOf j ∧
      (r.node j).partialSent ≤ envelope.sentOf j
  covers : ∀ {i key j before envelope}, r.Open i key → r.Pending j before envelope →
    (j = i → key ≠ (.control, envelope.messageId)) →
    (r.node i).processed ≤ envelope.processedOf i ∧ (r.node i).sent ≤ envelope.sentOf i

namespace Kept

theorem init {inbox : NodeId → List Taken} (hinbox : ∀ i, ∀ taken ∈ inbox i, feed.Allows i taken) :
    Kept feed n client (Ring.init inbox : Ring α) where
  toAnswering := Answering.init hinbox
  carries h := absurd h.mem List.not_mem_nil
  covers _ h := absurd h.mem List.not_mem_nil

/-! ## What the pending tokens carry of the node that takes a message -/

/-- An end of the stream that is taken again is open. -/
theorem open_of_eof (h : Kept feed n client r) {marker : EOF}
    (htakes : r.Takes l i (.eof mid marker) sends) (hfresh : mid ∉ (r.node i).seen .main)
    (hpending : r.Pending j before envelope) : r.Open i (.main, mid) := by
  obtain ⟨rfl, rfl, -⟩ := (h.allows_of_takes htakes).resolve_right (by simp)
  refine ⟨h.start fun hnone ↦ ?_, hfresh⟩
  obtain ⟨-, hempty⟩ := h.unstarted hnone
  exact absurd hpending.mem (by simp [hempty])

theorem finishes_token (h : Kept feed n client r) (hcond : r.FinishesFirst l)
    (htakes : r.Takes l i (.token origin) sends)
    (hfresh : origin.messageId ∉ (r.node i).seen .control) (hreports : r.Reports i origin sends) :
    (∀ key, ¬r.Open i key) ∧ ∀ j mid, ¬r.Open j (.control, mid) := by
  cases htakes with
  | main hmem => exact absurd hmem (h.token_notMem_inbox i origin)
  | token hhead => exact hcond _ _ hhead hfresh hreports

/-- When a node takes a counting token, the other tokens carry all that the node has counted. -/
theorem carries_other (h : Kept feed n client r) (hcond : r.FinishesFirst l)
    (htakes : r.Takes l i (.token origin) sends) (horigin : r.Pending i [] origin)
    (hpending : r.Pending j before envelope)
    (hother : j = i → envelope.messageId ≠ origin.messageId) :
    (r.node i).processed ≤ envelope.processedOf i ∧ (r.node i).sent ≤ envelope.sentOf i := by
  by_cases hanswered : r.Answered i origin
  · -- the token was answered before, and nothing was counted since
    refine h.covers (Ring.open_token horigin hanswered) hpending fun hj heq ↦ ?_
    exact hother hj (Prod.mk.inj heq).2.symm
  · by_cases howes : (r.node i).Owes
    · obtain ⟨-, hclosed⟩ := h.finishes_token hcond htakes horigin.2.unseen
        ⟨fun _ ↦ ⟨hanswered, howes⟩, fun hsome ↦ absurd horigin.1.1 hsome⟩
      have hloose : ¬r.Answered j envelope := fun hopen ↦
        hclosed j _ (Ring.open_token hpending hopen)
      obtain ⟨rfl, hid⟩ := h.loose hpending horigin hloose hanswered
      exact absurd hid (hother rfl)
    · -- all that was counted is on record as reported
      obtain ⟨hle, hle'⟩ := not_or.mp howes
      obtain ⟨hcarried, hcarried'⟩ := h.carries hpending i
      exact ⟨(not_lt.mp hle).trans hcarried, (not_lt.mp hle').trans hcarried'⟩

/-- When a node flushes, the pending tokens carry all that it has sent and is going to send. -/
theorem carries_flush (h : Kept feed n client r) (hcond : r.FinishesFirst l)
    (htakes : r.Takes l i (.token origin) sends)
    (hfresh : origin.messageId ∉ (r.node i).seen .control)
    (hcoord : origin.token.ring.coordinatorId ≠ none) (hpending : r.Pending j before envelope) :
    (r.node i).sent + sends ≤ envelope.sentOf i := by
  have hanswered := h.flushing (h.queued i origin (htakes.mem h.toTraffic) hcoord) hpending
  by_cases hreports : (r.node i).partialSent < (r.node i).sent + sends
  · obtain ⟨-, hclosed⟩ := h.finishes_token hcond htakes hfresh
      ⟨fun hnone ↦ absurd hnone hcoord, fun _ ↦ hreports⟩
    exact absurd (Ring.open_token hpending hanswered) (hclosed j _)
  · exact (not_lt.mp hreports).trans (h.carries hpending i).2

/-! ## One step -/

/-- What a node is left with on record is carried by the pending tokens it has not just seen. -/
theorem carries_old (h : Kept feed n client r)
    (hcond : (v ≠ r.node i ∨ ∃ node token, .ring node token ∈ outs) → r.FinishesFirst l)
    (htakes : r.Takes l i taken sends)
    (hreaction : Reaction ⟨i, n⟩ client queryId (r.node i) taken sends outs v)
    (hpending : r.Pending j before envelope)
    (hunseen : envelope.messageId ∉ ((r.react i taken outs v).node j).seen .control) :
    v.partialProcessed ≤ envelope.processedOf i ∧ v.partialSent ≤ envelope.sentOf i := by
  have hkept := h.carries hpending i
  cases hreaction with
  | nothing outs hleaves => exact hkept
  | data msgs _ => exact hkept
  | start hfresh hv =>
    have hcarried := h.covers (h.open_of_eof htakes hfresh hpending) hpending
      fun _ heq ↦ absurd heq (by simp)
    rcases hv with rfl | rfl | rfl
    · exact hkept
    · exact hcarried
    · exact hcarried
  | @count origin _ _ hfresh hcoord hv =>
    rcases hv with rfl | rfl
    · exact hkept
    · refine h.carries_other (hcond (Or.inr ⟨_, _, List.mem_singleton_self _⟩)) htakes
        (h.pending_taken htakes hcoord hfresh) hpending ?_
      rintro rfl hid
      rw [Ring.node_react_self, see_self, hid] at hunseen
      exact hunseen (Finset.mem_insert_self _ _)
  | @flush origin _ _ msgs hfresh hcoord hv =>
    rcases hv with rfl | rfl
    · exact hkept
    · exact ⟨hkept.1, h.carries_flush (hcond (Or.inl (Observed.see_ne hfresh))) htakes hfresh
        (by simp [hcoord]) hpending⟩

/-- A first token that will be accepted is the first that was published. -/
theorem unstarted_of_first (h : Kept feed n client r)
    (hunseen : ringId client ringPhaseCount 0 ∉ (r.node ((feed.eofNode + 1) % n)).seen .control)
    (hfirst : ringId client ringPhaseCount 0
      ∉ (r.net.control ((feed.eofNode + 1) % n)).map Envelope.messageId) (j : NodeId) :
    (r.node j).partialProcessed = 0 ∧ (r.node j).partialSent = 0 := by
  have hnone : startedWith client feed.eofNode r.net.outputs = none := by
    by_contra hsome
    obtain ⟨m, hm⟩ := Option.ne_none_iff_exists'.mp hsome
    exact (h.started m hm).elim hfirst hunseen
  exact (h.unstarted hnone).1 j

/-- What a node has on record as reported is not more than it has counted, when it does not
flush. -/
theorem reported_le (h : Kept feed n client r)
    (hreaction : Reaction ⟨i, n⟩ client queryId (r.node i) taken sends outs v)
    (hcounting : ∀ origin, taken = .token origin → origin.token.ring.coordinatorId = none) :
    v.partialProcessed ≤ (r.node i).processed ∧ v.partialSent ≤ (r.node i).sent := by
  obtain ⟨-, hpc, -, hqs⟩ := h.marks i
  cases hreaction with
  | nothing _ _ => exact ⟨hpc, hqs⟩
  | data _ _ => exact ⟨hpc, hqs⟩
  | start _ hv =>
    rcases hv with rfl | rfl | rfl
    · exact ⟨hpc, hqs⟩
    · exact ⟨le_refl _, le_refl _⟩
    · exact ⟨le_refl _, le_refl _⟩
  | count _ _ hv =>
    rcases hv with rfl | rfl
    · exact ⟨hpc, hqs⟩
    · exact ⟨le_refl _, le_refl _⟩
  | flush _ _ hcoord _ => exact absurd (hcoord.symm.trans (hcounting _ rfl)) (by simp)

/-- A token that a node sends carries everything the node may have on record. -/
theorem carries_sent (h : Kept feed n client r) (htakes : r.Takes l i taken sends)
    (hreaction : Reaction ⟨i, n⟩ client queryId (r.node i) taken sends outs v) {node : NodeId}
    {token : Token} (hmem : .ring node token ∈ outs)
    (hcounting : (taken.origin.pass i token).Counting)
    (hunseen : (taken.origin.pass i token).messageId ∉ (r.node node).seen .control)
    (hfirst : (taken.origin.pass i token).messageId
      ∉ (r.net.control node).map Envelope.messageId) (j : NodeId) :
    ((r.react i taken outs v).node j).partialProcessed ≤ (taken.origin.pass i token).processedOf j ∧
      ((r.react i taken outs v).node j).partialSent ≤ (taken.origin.pass i token).sentOf j := by
  have hreaction' := hreaction
  cases hreaction with
  | nothing outs hleaves => exact (hleaves _ hmem).elim
  | data msgs _ => exact (leaves_map_data msgs _ hmem).elim
  | @start mid marker _ _ hfresh hv =>
    obtain ⟨rfl, rfl⟩ := Output.ring.inj (List.mem_singleton.mp hmem)
    obtain ⟨rfl, rfl, rfl⟩ := (h.allows_of_takes htakes).resolve_right (by simp)
    have hid : (Envelope.blank.pass feed.eofNode
        (startToken client (r.node feed.eofNode) ⟨feed.expected⟩)).messageId
          = ringId client ringPhaseCount 0 := by
      simp [Envelope.pass, Envelope.messageId, startToken, feed.expected_ne]
    rw [Taken.origin, hid] at hunseen hfirst
    -- it is the first token, so no node has reported anything
    have hzero := h.unstarted_of_first hunseen hfirst
    by_cases hj : j = feed.eofNode
    · subst hj
      have hbound := h.reported_le hreaction' fun _ heq ↦ absurd heq (by simp)
      simpa [Taken.origin, Envelope.pass, Envelope.blank, Envelope.total, Envelope.totalSent,
        startToken, (hzero feed.eofNode).1, (hzero feed.eofNode).2] using hbound
    · rw [Ring.node_react_of_ne hj, (hzero j).1, (hzero j).2]
      simp [Taken.origin, Envelope.pass, Envelope.blank, Function.update_of_ne hj]
  | @count envelope _ _ hfresh hcoord hv =>
    obtain ⟨rfl, rfl⟩ := Output.ring.inj (List.mem_singleton.mp hmem)
    have hcarries := h.carries (h.pending_taken htakes hcoord hfresh)
    by_cases hj : j = i
    · subst hj
      have hbound := h.reported_le hreaction' fun _ heq ↦ Taken.token.inj heq ▸ hcoord
      obtain ⟨hle, hle'⟩ := hcarries j
      rw [Ring.node_react_self]
      simp only [Taken.origin, Envelope.pass, Function.update_self, countToken, Envelope.total,
        Envelope.totalSent, Option.getD_some]
      omega
    · rw [Ring.node_react_of_ne hj]
      simpa [Taken.origin, Envelope.pass, Function.update_of_ne hj] using hcarries j
  | flush msgs hfresh hcoord hv =>
    obtain ⟨-, ⟨_, _, heq, -⟩ | ⟨_, heq, hnone, -⟩ | ⟨_, sent, heq, hsome, -, rfl⟩⟩ :=
      ring_mem_of_reaction hreaction' hmem
    · exact absurd heq (by simp)
    · obtain rfl := Taken.token.inj heq
      exact absurd (hcoord.symm.trans hnone) (by simp)
    · obtain rfl := Taken.token.inj heq
      exact absurd hcounting.1 hsome

/-- A message that is open after a reaction was open before, or is the one that was taken. -/
theorem open_react (h : Kept feed n client r) (htakes : r.Takes l i taken sends)
    (hreaction : Reaction ⟨i, n⟩ client queryId (r.node i) taken sends outs v)
    (hopen : (r.react i taken outs v).Open j key) :
    r.Open j key ∨ j = i ∧ key = taken.key ∧ (∃ node token, .ring node token ∈ outs) ∧
      ∀ envelope, taken = .token envelope → envelope.Counting := by
  obtain ⟨ch, mid⟩ := key
  cases ch with
  | main =>
    obtain ⟨hanswered, hunseen⟩ := hopen
    have hbefore : mid ∉ (r.node j).seen .main := fun hmem ↦
      hunseen (Ring.seen_react (grows_of_reaction hreaction (h.marks i)).seen j .main hmem)
    rcases Ring.answered_react.mp hanswered with hold | ⟨heq, hring⟩
    · exact Or.inl ⟨hold, hbefore⟩
    · obtain ⟨rfl, hkey⟩ := Prod.mk.inj heq
      refine Or.inr ⟨rfl, hkey, hring, ?_⟩
      rintro envelope rfl
      exact absurd hkey (by simp [Taken.key])
  | control =>
    obtain ⟨before, envelope, hpending, hanswered, rfl⟩ := hopen
    have hold := (h.pending_react htakes hreaction hpending).resolve_right
      fun hnew ↦ h.not_answered_of_new htakes hnew.1 hanswered
    rcases h.answered_or_taken htakes hold hanswered with hbefore | ⟨rfl, -, rfl, hring⟩
    · exact Or.inl (Ring.open_token hold hbefore)
    · refine Or.inr ⟨rfl, rfl, hring, ?_⟩
      rintro _ ⟨⟩
      exact hpending.1
  | side => exact hopen.elim

/-- A new token carries all that the nodes with an open message have counted. -/
theorem covers_new (h : Kept feed n client r) (htakes : r.Takes l i taken sends)
    (hreaction : Reaction ⟨i, n⟩ client queryId (r.node i) taken sends outs v)
    {k node : NodeId} {token : Token} (hmem : .ring node token ∈ outs)
    (hnew : startedWith client feed.eofNode r.net.outputs = none ∧
        (∃ mid marker, taken = .eof mid marker) ∨
      ∃ origin, taken = .token origin ∧ r.Pending i [] origin ∧ ¬r.Answered i origin)
    (hopen : k ≠ i → r.Open k key) :
    ((r.react i taken outs v).node k).processed ≤ (taken.origin.pass i token).processedOf k ∧
      ((r.react i taken outs v).node k).sent ≤ (taken.origin.pass i token).sentOf k := by
  rcases hnew with ⟨hnone, mid, marker, rfl⟩ | ⟨origin, rfl, horigin, -⟩
  · cases hreaction with
    | nothing outs hleaves => exact (hleaves _ hmem).elim
    | start hfresh hv =>
      obtain ⟨rfl, rfl⟩ := Output.ring.inj (List.mem_singleton.mp hmem)
      by_cases hk : k = i
      · subst hk
        obtain ⟨hp, hq⟩ := (h.unstarted hnone).1 k
        have hcounts : v.processed = (r.node k).processed ∧ v.sent = (r.node k).sent := by
          rcases hv with rfl | rfl | rfl <;> exact ⟨rfl, rfl⟩
        simp [Taken.origin, Envelope.pass, Envelope.blank, Envelope.total, Envelope.totalSent,
          startToken, hcounts.1, hcounts.2, hp, hq]
      · refine absurd (hopen hk) (Ring.not_open fun p hp ↦ ?_)
        rw [(h.unanswered hnone).1] at hp
        exact absurd hp List.not_mem_nil
  · cases hreaction with
    | nothing outs hleaves => exact (hleaves _ hmem).elim
    | count hfresh hcoord hv =>
      obtain ⟨rfl, rfl⟩ := Output.ring.inj (List.mem_singleton.mp hmem)
      by_cases hk : k = i
      · subst hk
        obtain ⟨hp, hq⟩ := h.carries horigin k
        have hcounts : v.processed = (r.node k).processed ∧ v.sent = (r.node k).sent := by
          rcases hv with rfl | rfl <;> exact ⟨rfl, rfl⟩
        rw [Ring.node_react_self, hcounts.1, hcounts.2]
        simp only [Taken.origin, Envelope.pass, Function.update_self, countToken, Envelope.total,
          Envelope.totalSent, Option.getD_some]
        omega
      · rw [Ring.node_react_of_ne hk]
        simpa [Taken.origin, Envelope.pass, Function.update_of_ne hk] using
          h.covers (hopen hk) horigin fun heq ↦ absurd heq.symm hk
    | flush msgs _ hcoord _ => exact absurd (hcoord.symm.trans horigin.1.1) (by simp)

theorem covers_react (h : Kept feed n client r)
    (hcond : (v ≠ r.node i ∨ ∃ node token, .ring node token ∈ outs) → r.FinishesFirst l)
    (htakes : r.Takes l i taken sends)
    (hreaction : Reaction ⟨i, n⟩ client queryId (r.node i) taken sends outs v) {k : NodeId}
    (hopen : (r.react i taken outs v).Open k key)
    (hpending : (r.react i taken outs v).Pending j before envelope)
    (hother : j = k → key ≠ (.control, envelope.messageId)) :
    ((r.react i taken outs v).node k).processed ≤ envelope.processedOf k ∧
      ((r.react i taken outs v).node k).sent ≤ envelope.sentOf k := by
  have hbefore := h.open_react htakes hreaction hopen
  rcases h.pending_react htakes hreaction hpending with hold | ⟨-, token, hmem, rfl, hnew⟩
  · rcases hbefore with hbefore | ⟨rfl, rfl, hring, hcounting⟩
    · have hcovers := h.covers hbefore hold hother
      by_cases hk : k = i
      · subst hk
        rw [Ring.node_react_self]
        cases hreaction with
        | nothing outs _ => exact hcovers
        | @data mid _ msgs hfresh =>
          cases htakes with
          | main hmem => exact absurd hbefore (hcond (Or.inl (Observed.count_ne _ _ _)) hfresh _)
        | start _ hv => rcases hv with rfl | rfl | rfl <;> exact hcovers
        | count _ _ hv => rcases hv with rfl | rfl <;> exact hcovers
        | @flush origin _ _ msgs hfresh hcoord hv =>
          rcases hv with rfl | rfl
          · exact hcovers
          · exact ⟨hcovers.1,
              h.carries_flush (hcond (Or.inl (Observed.see_ne hfresh))) htakes hfresh
              (by simp [hcoord]) hold⟩
      · rw [Ring.node_react_of_ne hk]
        exact hcovers
    · -- the message was taken just now
      rw [Ring.node_react_self]
      cases hreaction with
      | nothing outs hleaves =>
        obtain ⟨_, _, hmem⟩ := hring
        exact (hleaves _ hmem).elim
      | data msgs _ =>
        obtain ⟨_, _, hmem⟩ := hring
        exact (leaves_map_data msgs _ hmem).elim
      | start hfresh hv =>
        have hcovers := h.covers (h.open_of_eof htakes hfresh hold) hold hother
        rcases hv with rfl | rfl | rfl <;> exact hcovers
      | count hfresh hcoord hv =>
        have hcarries := h.carries_other (hcond (Or.inr hring)) htakes
          (h.pending_taken htakes hcoord hfresh) hold
          fun hj heq ↦ hother hj (by rw [heq, Taken.key])
        rcases hv with rfl | rfl <;> exact hcarries
      | flush msgs _ hcoord _ => exact absurd (hcoord.symm.trans (hcounting _ rfl).1) (by simp)
  · exact h.covers_new htakes hreaction hmem hnew fun hk ↦
      hbefore.resolve_right fun htook ↦ hk htook.1

theorem react (h : Kept feed n client r)
    (hcond : (v ≠ r.node i ∨ ∃ node token, .ring node token ∈ outs) → r.FinishesFirst l)
    (hi : i < n) (htakes : r.Takes l i taken sends)
    (hreaction : Reaction ⟨i, n⟩ client queryId (r.node i) taken sends outs v) :
    Kept feed n client (r.react i taken outs v) where
  toAnswering := h.toAnswering.react hcond hi htakes hreaction
  carries := by
    intro j before envelope hpending j'
    rcases Ring.pending_of_react hreaction (h.marks i) hpending with hold |
      ⟨token, hmem, rfl, rfl, hunseen, hfirst⟩
    · by_cases hj : j' = i
      · subst hj
        rw [Ring.node_react_self]
        exact h.carries_old hcond htakes hreaction hold hpending.2.unseen
      · rw [Ring.node_react_of_ne hj]
        exact h.carries hold j'
    · exact h.carries_sent htakes hreaction hmem hpending.1 hunseen hfirst j'
  covers hopen hpending hother := h.covers_react hcond htakes hreaction hopen hpending hother

theorem pop (h : Kept feed n client r) {head : Envelope} {rest : List Envelope}
    (hhead : r.net.control i = head :: rest)
    (hseen : head.messageId ∈ (r.node i).seen .control) :
    Kept feed n client { r with net := r.net.pop i } where
  toAnswering := h.toAnswering.pop hhead hseen
  carries hpending := h.carries (Ring.pending_of_pop hhead hseen hpending)
  covers hopen hpending hother :=
    h.covers (hopen.of_pop hhead hseen) (Ring.pending_of_pop hhead hseen hpending) hother

theorem step {r' : Ring α} (h : Kept feed n client r) (hcond : r.Acts r' → r.FinishesFirst l)
    (hstep : Ring.Step n client queryId r l r') : Kept feed n client r' :=
  Ring.step_preserves hstep h.quiet h.token_notMem_inbox h
    (fun hi htakes hreaction hacts ↦
      h.react (fun hacting ↦ hcond (hacts hacting)) hi htakes hreaction)
    (fun h hsub ↦ { h with toAnswering := h.toAnswering.ack hsub })
    (fun h hhead hseen ↦ h.pop hhead hseen)

/-- A pending token and what is not reported account for everything. -/
theorem conserved (h : Kept feed n client r) (hpending : r.Pending i before envelope) :
    ∑ j ∈ Finset.range n, (r.node j).processed ≤ envelope.total
        + ∑ j ∈ Finset.range n, ((r.node j).processed - (r.node j).partialProcessed) ∧
      ∑ j ∈ Finset.range n, (r.node j).sent ≤ envelope.totalSent
        + ∑ j ∈ Finset.range n, ((r.node j).sent - (r.node j).partialSent) := by
  obtain ⟨htotal, htotalSent⟩ := h.totals i envelope hpending.mem
  rw [← htotal, ← htotalSent, ← Finset.sum_add_distrib, ← Finset.sum_add_distrib]
  constructor
  · refine Finset.sum_le_sum fun j _ ↦ ?_
    have := (h.carries hpending j).1
    omega
  · refine Finset.sum_le_sum fun j _ ↦ ?_
    have := (h.carries hpending j).2
    omega

end Kept

/-! ## One more lap -/

theorem expected_lap (v : NodeId → Observed Unit) (i : NodeId) (token : Token) (k : ℕ) :
    (lap n client v i token k).ring.expectedCount = token.ring.expectedCount := by
  induction k with
  | zero => rfl
  | succ k ih => exact ih

theorem total_lap (v : NodeId → Observed Unit) (i : NodeId) (token : Token) (k : ℕ) :
    (lap n client v i token k).ring.totalProcessedCount = token.ring.totalProcessedCount
      + ∑ k' ∈ Finset.range k,
        ((v ((i + k') % n)).processed - (v ((i + k') % n)).partialProcessed) := by
  induction k with
  | zero => simp [lap]
  | succ k ih =>
    rw [Finset.sum_range_succ, lap, countToken]
    simp only [ih]
    ring

/-- If a token and what is not reported reach the announced count, a coordinator is designated
within one lap. -/
theorem lap_elects (hn : 0 < n) {v : NodeId → Observed Unit} (i : NodeId) {token : Token}
    (hnone : token.ring.coordinatorId = none)
    (hreached : token.ring.expectedCount ≤ token.ring.totalProcessedCount
      + ∑ j ∈ Finset.range n, ((v j).processed - (v j).partialProcessed)) :
    ∃ k < n, (∀ k' ≤ k, (lap n client v i token k').ring.coordinatorId = none) ∧
      (lap n client v i token (k + 1)).ring.coordinatorId = some ((i + k) % n) := by
  have hcoord : ∀ k, (lap n client v i token (k + 1)).ring.coordinatorId
      = if token.ring.expectedCount ≤ (lap n client v i token (k + 1)).ring.totalProcessedCount
        then some ((i + k) % n) else none := by
    intro k
    simp only [lap, countToken, expected_lap]
  have hlast : token.ring.expectedCount
      ≤ (lap n client v i token (n - 1 + 1)).ring.totalProcessedCount := by
    rw [total_lap, Nat.sub_add_cancel hn, Around.sum_range n i fun j ↦
      (v j).processed - (v j).partialProcessed]
    exact hreached
  classical
  have hex : ∃ k, token.ring.expectedCount
      ≤ (lap n client v i token (k + 1)).ring.totalProcessedCount := ⟨n - 1, hlast⟩
  refine ⟨Nat.find hex, ?_, fun k' hk' ↦ ?_, ?_⟩
  · exact lt_of_le_of_lt (Nat.find_le hlast) (Nat.sub_lt hn Nat.one_pos)
  · cases k' with
    | zero => exact hnone
    | succ k' => rw [hcoord, if_neg (Nat.find_min hex hk')]
  · rw [hcoord, if_pos (Nat.find_spec hex)]

/-! ## Runs -/

variable {w : StatefulWorker}

/-- **Nothing that was counted is lost** in runs in which a node with an open message neither
processes data nor reports anything with another message, and no node reports anything while a token
is open: every pending token accounts, with what is not reported, for all that was processed and all
that was sent, and once everything is processed it finds a coordinator within one lap. -/
theorem contributions_kept (w : StatefulWorker) {n : ℕ} (hn : 0 < n) {client : ClientId}
    {feed : Feed} (hexpected : feed.expected = ∑ i ∈ Finset.range n, ((feed.addressed i).card : ℤ))
    {inbox : NodeId → List (MainMessage w)}
    (hinbox : ∀ i, ∀ message ∈ inbox i, feed.Allows i message.taken) {s : Stage w}
    (hreach : Stage.ReachableActing n client (fun s l ↦ (s.ring client).FinishesFirst l)
      (Stage.init inbox) s)
    {i : NodeId} {before : List Envelope} {envelope : Envelope}
    (hpending : (s.ring client).Pending i before envelope) :
    ∑ j ∈ Finset.range n, (((w.discipline.recovered (s.store j).log client).observe.seen .main
          ∩ feed.addressed j).card : ℤ)
        ≤ envelope.total + ∑ j ∈ Finset.range n,
          ((s.node client j).processed - (s.node client j).partialProcessed) ∧
      ∑ j ∈ Finset.range n, (s.node client j).sent ≤ envelope.totalSent
        + ∑ j ∈ Finset.range n, ((s.node client j).sent - (s.node client j).partialSent) ∧
      (s.AllRecorded n client feed →
        ∃ k < n, (∀ k' ≤ k,
            (lap n client (s.node client) i envelope.token k').ring.coordinatorId = none) ∧
          (lap n client (s.node client) i envelope.token (k + 1)).ring.coordinatorId
            = some ((i + k) % n)) := by
  have hinit : Kept feed n client
      (Ring.init fun i ↦ (inbox i).map MainMessage.taken : Ring w.Item) := by
    refine Kept.init fun i taken htaken ↦ ?_
    obtain ⟨message, hmessage, rfl⟩ := List.mem_map.mp htaken
    exact hinbox i message hmessage
  obtain ⟨hsync, h⟩ := Stage.invariant_of_reachable hinit (fun _ h ↦ h.quiet)
    (fun h hcond hstep ↦ h.step hcond hstep) hreach
  have hprocessed : ∀ j, (s.node client j).processed
      = ((s.node client j).seen .main ∩ feed.addressed j).card := h.processed
  obtain ⟨hcount, hsent⟩ := h.conserved hpending
  refine ⟨?_, hsent, fun hall ↦ lap_elects hn i hpending.1.1 ?_⟩
  · simp only [hsync.seen, ← hprocessed]
    exact hcount
  · have hexp : envelope.token.ring.expectedCount = feed.expected := (h.tokens i _ hpending.mem).1
    have hcard : ∑ j ∈ Finset.range n, ((feed.addressed j).card : ℤ)
        = ∑ j ∈ Finset.range n, (s.node client j).processed := by
      refine Finset.sum_congr rfl fun j hj ↦ ?_
      have hsub : feed.addressed j ⊆ (s.node client j).seen .main := fun mid hmid ↦ by
        rw [← hsync.seen]
        exact hall j (Finset.mem_range.mp hj) mid hmid
      rw [hprocessed, Finset.inter_eq_right.mpr hsub]
    rw [hexp, hexpected, hcard]
    exact hcount

/-- The node passes a token on with what it has not reported, dies before that is recorded, and
takes the token again before it processes the last message. -/
theorem contributions_kept_redelivery :
    ∃ (s : Stage countingWorker) (envelope : Envelope),
      Stage.Reachable 1 "c" (fun s l ↦ (s.ring "c").FinishesFirst l)
        (Stage.init (countingInbox ["c:0:0", "c:1:0", "c:2:0"] 3)) s ∧
      (s.ring "c").Pending 0 [] envelope ∧ envelope.total = 2 ∧
      ∑ j ∈ Finset.range 1, (s.node "c" j).sent ≤ envelope.totalSent
        + ∑ j ∈ Finset.range 1, ((s.node "c" j).sent - (s.node "c" j).partialSent) := by
  let moves : List Move := [.main 0 0 none, .main 0 2 none, .main 0 0 none, .token 0 (some 1),
    .token 0 none, .main 0 0 none]
  let r₀ : Ring countingWorker.Item :=
    (Stage.init (countingInbox ["c:0:0", "c:1:0", "c:2:0"] 3)).ring "c"
  obtain ⟨r, hr, envelope, hpending, htotal⟩ :
      ∃ r, r₀.run 1 "c" countingWorker.queryId moves = some r ∧
        ∃ envelope, r.Pending 0 [] envelope ∧ envelope.total = 2 :=
    ⟨_, rfl, _, pending_head rfl (by decide) (by decide), rfl⟩
  have halong : r₀.Along 1 "c" countingWorker.queryId
      (fun r move ↦ r.Quiet move ∧ r.Allowed (fun r l ↦ r.FinishesFirst l) move) moves := by
    refine ⟨⟨?_, ?_⟩, ⟨?_, ?_⟩, ⟨?_, ?_⟩, ⟨?_, ?_⟩, ⟨?_, ?_⟩, ⟨?_, ?_⟩, trivial⟩
    · rintro envelope ⟨⟩
    · rintro taken ⟨⟩ _ key
      exact Ring.not_open (by decide)
    · rintro envelope ⟨⟩
    · rintro taken ⟨⟩ _ _ key hopen
      exact absurd hopen (Ring.not_open (by decide))
    · rintro envelope ⟨⟩
    · rintro taken ⟨⟩ _ key
      exact Ring.not_open (by decide)
    · rintro envelope ⟨⟩
      decide
    · intro sends envelope rest _ _ _
      exact ⟨fun _ ↦ Ring.not_open (by decide), fun _ _ ↦ Ring.not_open (by decide)⟩
    · rintro envelope ⟨⟩
      decide
    · -- the token is taken again, with the counts it was answered with before
      rintro sends envelope rest ⟨⟩ _ hreports
      exact absurd (List.mem_append_right _ (List.mem_singleton_self _)) (hreports.1 rfl).1
    · rintro envelope ⟨⟩
    · rintro taken ⟨⟩ _ key
      exact Ring.not_open (by decide)
  obtain ⟨s, hreach, -, rfl⟩ :=
    Stage.exists_run silent_countingWorker (Stage.synced_init _) hr halong
  have hinbox :=
    allows_countingInbox (show "c:eof" ∉ ["c:0:0", "c:1:0", "c:2:0"].toFinset by decide)
    (show (3 : ℤ) ≠ cleanupExpectedCount by decide)
  exact ⟨s, envelope, hreach, hpending, htotal,
    (contributions_kept countingWorker (by decide) (by decide) hinbox hreach.acting hpending).2.1⟩

/-- In general something is lost. The node dies after it has passed the token on, processes the
second message, and takes the token again: the copy that carries the second message is dropped. -/
theorem contribution_lost :
    ∃ (s : Stage countingWorker) (envelope : Envelope),
      Stage.Reachable 1 "c" (fun _ _ ↦ True)
        (Stage.init (countingInbox ["c:0:0", "c:1:0", "c:2:0"] 3)) s ∧
      s.AllRecorded 1 "c" (countingFeed ["c:0:0", "c:1:0", "c:2:0"] 3 (by decide) (by decide)) ∧
      (s.ring "c").Pending 0 [] envelope ∧
      envelope.total + ∑ j ∈ Finset.range 1,
        ((s.node "c" j).processed - (s.node "c" j).partialProcessed) < 3 := by
  let moves : List Move := [.main 0 0 none, .main 0 2 none, .token 0 (some 1), .main 0 0 none,
    .token 0 none, .main 0 0 none]
  let r₀ : Ring countingWorker.Item :=
    (Stage.init (countingInbox ["c:0:0", "c:1:0", "c:2:0"] 3)).ring "c"
  obtain ⟨r, hr, hseen, envelope, hpending, htotal⟩ :
      ∃ r, r₀.run 1 "c" countingWorker.queryId moves = some r ∧
        (∀ mid ∈ ["c:0:0", "c:1:0", "c:2:0"].toFinset, mid ∈ (r.node 0).seen .main) ∧
        ∃ envelope, r.Pending 0 [] envelope ∧ envelope.total + ∑ j ∈ Finset.range 1,
          ((r.node j).processed - (r.node j).partialProcessed) < 3 :=
    ⟨_, rfl, by decide, _, pending_head rfl (by decide) (by decide), by decide⟩
  have halong : r₀.Along 1 "c" countingWorker.queryId
      (fun r move ↦ r.Quiet move ∧ r.Allowed (fun _ _ ↦ True) move) moves := by
    refine ⟨⟨?_, fun _ _ ↦ trivial⟩, ⟨?_, fun _ _ ↦ trivial⟩, ⟨?_, fun _ ↦ trivial⟩,
      ⟨?_, fun _ _ ↦ trivial⟩, ⟨?_, fun _ ↦ trivial⟩, ⟨?_, fun _ _ ↦ trivial⟩, trivial⟩
    · rintro envelope ⟨⟩
    · rintro envelope ⟨⟩
    · rintro envelope ⟨⟩
      decide
    · rintro envelope ⟨⟩
    · rintro envelope ⟨⟩
      decide
    · rintro envelope ⟨⟩
  obtain ⟨s, hreach, hsync, rfl⟩ :=
    Stage.exists_run silent_countingWorker (Stage.synced_init _) hr halong
  refine ⟨s, envelope, hreach, fun i hi mid hmid ↦ ?_, hpending, htotal⟩
  obtain rfl := Nat.lt_one_iff.mp hi
  rw [hsync.seen]
  exact hseen mid hmid

end MoneyLaundering
