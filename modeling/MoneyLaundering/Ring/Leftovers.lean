import MoneyLaundering.Ring.Progress
import MoneyLaundering.Ring.Queued

/-!
# A token that meets a cleanup

A cleanup sends its own token around the ring and makes every node forget what it counted. If a node
is made to forget, or to report to the cleanup, counts that it has not reported to the counting
token, that token never reaches the announced count and goes around for ever. Everything that is
counted is carried by the counting token, not yet reported, dropped by a cleanup, or not yet
delivered (`Conserving`), so the token can still complete exactly if nothing was dropped:
`leftover_completes_iff`.
-/

namespace MoneyLaundering

open WriteAhead StatefulWorker

namespace Taken

def id : Taken → MessageId
  | .data messageId => messageId
  | .eof messageId _ => messageId
  | .token envelope => envelope.messageId

def isData : Taken → Bool
  | .data _ => true
  | .eof _ _ => false
  | .token _ => false

/-- The message starts a counting ring. -/
def isStart : Taken → Bool
  | .data _ => false
  | .eof _ marker => marker.messageCount ≠ cleanupExpectedCount
  | .token _ => false

end Taken

/-- The tokens in the control queues of a ring that look for a coordinator of a flush. -/
def Network.countingTokens {α : Type} (n : ℕ) (net : Network α) : Multiset Envelope :=
  ∑ j ∈ Finset.range n,
    ((net.control j).filter fun envelope ↦ envelope.Counting : Multiset Envelope)

/-- How many messages of a kind have not been delivered. -/
def undelivered (n : ℕ) (kind : Taken → Bool) (inbox : NodeId → List Taken) : ℕ :=
  ∑ j ∈ Finset.range n, (inbox j).countP kind

/-- What was not reported, was dropped or is not delivered. -/
def Ring.outstanding {α : Type} (n : ℕ) (r : Ring α) : ℤ :=
  ∑ j ∈ Finset.range n, ((r.node j).processed - (r.node j).partialProcessed) + r.net.dropped.sum
    + undelivered n Taken.isData r.inbox

/-- There is at most one counting ring, and while there is one, nothing of what was announced is
unaccounted for. -/
def Balanced (expected : ℤ) (starts : ℕ) (tokens : Multiset Envelope) (outstanding : ℤ) : Prop :=
  starts + tokens.card ≤ 1 ∧
    (starts + tokens.card = 1 → (tokens.map Envelope.total).sum + outstanding = expected)

/-- The invariant of runs without crashes in which a client may be cleaned up. -/
structure Conserving {α : Type} (expected : ℤ) (n : ℕ) (r : Ring α) : Prop where
  marks : ∀ j, (r.node j).Marked
  arrivals : ∀ i envelope, Taken.token envelope ∉ r.inbox i
  distinct : ∀ i, ((r.inbox i).map Taken.id).Nodup
  unseen : ∀ i, ∀ taken ∈ r.inbox i, taken.id ∉ (r.node i).seen .main
  announced : ∀ i mid marker, Taken.eof mid marker ∈ r.inbox i →
    marker.messageCount ≠ cleanupExpectedCount → marker.messageCount = expected
  tokens : r.net.Forall fun envelope ↦ envelope.Counting →
    envelope.token.ring.expectedCount = expected
  dropped : ∀ d ∈ r.net.dropped, 0 ≤ d
  balanced : Balanced expected (undelivered n Taken.isStart r.inbox) (r.net.countingTokens n)
    (r.outstanding n)

variable {α : Type} {expected : ℤ} {n : ℕ} {client : ClientId} {queryId : Option String}
  {cfg : NodeConfig} {i : NodeId} {taken : Taken} {sends : ℕ} {outs : List (Output α)}
  {v v' : Observed Unit} {r : Ring α}

/-! ## Queues -/

/-- The counting token that an output puts into a queue. -/
def Output.counting (i : NodeId) (origin : Envelope) : Output α → Multiset Envelope
  | .ring _ token => ([origin.pass i token].filter fun envelope ↦ envelope.Counting :)
  | .data _ => 0
  | .finalEof _ _ => 0

namespace Network

variable {σ : Type} {u : Observed σ} {net : Network α}

theorem countingTokens_eq (net : Network α) :
    net.countingTokens n = (net.queued Envelope.Counting n).map Prod.snd := by
  rw [queued, ← Multiset.coe_mapAddMonoidHom, map_sum]
  refine Finset.sum_congr rfl fun j _ ↦ ?_
  rw [Multiset.coe_mapAddMonoidHom, queuedFor, Multiset.map_map]
  exact (Multiset.map_id _).symm

theorem sum_counting_eq (origin : Envelope) (outs : List (Output α)) :
    (outs.map (Output.counting i origin)).sum
      = ((outs.map (Output.queued Envelope.Counting i origin)).sum).map Prod.snd := by
  induction outs with
  | nil => rfl
  | cons o outs ih =>
    rw [List.map_cons, List.sum_cons, List.map_cons, List.sum_cons, Multiset.map_add, ih]
    congr 1
    cases o with
    | data m => rfl
    | finalEof messageId eof => rfl
    | ring node token =>
      by_cases h : (origin.pass i token).Counting <;> simp [Output.counting, Output.queued, h]

theorem countingTokens_handled (h : ∀ node token, .ring node token ∈ outs → node < n) :
    (net.handled i u taken outs).countingTokens n
      = net.countingTokens n + (outs.map (Output.counting i taken.origin)).sum := by
  rw [countingTokens_eq, countingTokens_eq, sum_counting_eq, queued_handled _ h, Multiset.map_add]

/-- What is left of the queues, with the token that was taken, is what there was, with what was
sent. -/
theorem countingTokens_relay {envelope : Envelope} {rest : List Envelope} (hi : i < n)
    (hhead : net.control i = envelope :: rest)
    (h : ∀ node token, .ring node token ∈ outs → node < n) :
    ((net.handled i u taken outs).pop i).countingTokens n
        + ([envelope].filter fun envelope ↦ envelope.Counting :)
      = net.countingTokens n + (outs.map (Output.counting i taken.origin)).sum := by
  have hrelay := congrArg (Multiset.map Prod.snd)
    (@queued_relay _ _ n i u taken outs net Envelope.Counting _ envelope rest hi hhead h)
  rw [Multiset.map_add, Multiset.map_add] at hrelay
  rw [countingTokens_eq, countingTokens_eq, sum_counting_eq, ← hrelay]
  congr 1
  by_cases hcounting : envelope.Counting <;> simp [hcounting]

end Network

theorem undelivered_update {inbox : NodeId → List Taken} {before after : List Taken} (hi : i < n)
    (hinbox : inbox i = before ++ taken :: after) (kind : Taken → Bool) :
    undelivered n kind (Function.update inbox i (before ++ after)) + (if kind taken then 1 else 0)
      = undelivered n kind inbox := by
  have hsum := Family.sum_update_add (Finset.mem_range.mpr hi) inbox (before ++ after)
    fun messages ↦ messages.countP kind
  have hcount : (inbox i).countP kind
      = (before ++ after).countP kind + if kind taken then 1 else 0 := by
    rw [hinbox, List.countP_append, List.countP_cons, List.countP_append, Nat.add_assoc]
  rw [undelivered, undelivered]
  omega

/-! ## What one message does -/

theorem filter_counting {envelope : Envelope} (h : envelope.Counting) :
    ([envelope].filter fun envelope ↦ envelope.Counting : Multiset Envelope) = {envelope} := by
  simp [h]

theorem filter_not_counting {envelope : Envelope} (h : ¬envelope.Counting) :
    ([envelope].filter fun envelope ↦ envelope.Counting : Multiset Envelope) = 0 := by
  simp [h]

theorem sum_counting_leaves (h : ∀ o ∈ outs, o.Leaves) (origin : Envelope) :
    (outs.map (Output.counting i origin)).sum = 0 := by
  rw [Network.sum_counting_eq, sum_queued_leaves _ h, Multiset.map_zero]

theorem sum_counting_data (msgs : List (Message α)) (o : Output α) (origin : Envelope) :
    ((msgs.map Output.data ++ [o]).map (Output.counting i origin)).sum = o.counting i origin := by
  rw [List.map_append, List.sum_append, sum_counting_leaves (leaves_map_data msgs)]
  simp

/-- A token that knows its coordinator is not counting, and neither is what comes of it. -/
theorem counting_flushOutput {envelope : Envelope} {coordinatorId : NodeId} {sent : ℤ}
    (hcoord : envelope.token.ring.coordinatorId = some coordinatorId) (i : NodeId) :
    (flushOutput cfg client queryId sent envelope.token coordinatorId :
      Output α).counting i envelope
      = 0 := by
  rw [flushOutput]
  split
  · rfl
  · exact filter_not_counting fun h ↦ by simp [Envelope.Counting, Envelope.pass, hcoord] at h

theorem counting_cleanupOutput {envelope : Envelope} {coordinatorId : NodeId}
    (hcoord : envelope.token.ring.coordinatorId = some coordinatorId) (i : NodeId) :
    (cleanupOutput cfg client queryId envelope.token coordinatorId : Output α).counting i envelope
      = 0 := by
  rw [cleanupOutput]
  split
  · rfl
  · exact filter_not_counting fun h ↦ by simp [Envelope.Counting, Envelope.pass, hcoord] at h

theorem marked_of_completion (h : Completion cfg client queryId v taken sends outs v')
    (hmarks : v.Marked) : v'.Marked := by
  obtain ⟨hp, hpc, hq, hqs⟩ := hmarks
  cases h with
  | duplicate h => exact ⟨hp, hpc, hq, hqs⟩
  | data msgs h =>
    exact ⟨hp, by simp only [Observed.count, Observed.see]; omega, hq,
      by simp only [Observed.count, Observed.see]; omega⟩
  | eof h => exact ⟨hp.trans hpc, le_refl _, hq.trans hqs, le_refl _⟩
  | count h hcoord => exact ⟨hp.trans hpc, le_refl _, hq.trans hqs, le_refl _⟩
  | flush msgs h hcoord hexp =>
    refine ⟨hp, hpc, ?_, le_refl _⟩
    simp only [flushed, Observed.see]
    omega
  | cleanup h hcoord hexp => exact ⟨le_refl _, le_refl _, le_refl _, le_refl _⟩

/-- A node has seen on its main channel at most one message more. -/
theorem seen_of_completion (h : Completion cfg client queryId v taken sends outs v') :
    v'.seen .main ⊆ insert taken.id (v.seen .main) ∧
      ((∃ envelope, taken = .token envelope) → v'.seen .main ⊆ v.seen .main) := by
  cases h with
  | duplicate h => exact ⟨Finset.subset_insert _ _, fun _ ↦ Finset.Subset.refl _⟩
  | data msgs h =>
    refine ⟨?_, by simp⟩
    rw [Observed.count, see_self]
    exact Finset.Subset.refl _
  | eof h =>
    refine ⟨?_, by simp⟩
    rw [see_self]
    exact Finset.Subset.refl _
  | count h hcoord =>
    rw [see_main_control]
    exact ⟨Finset.subset_insert _ _, fun _ ↦ Finset.Subset.refl _⟩
  | flush msgs h hcoord hexp =>
    rw [see_main_control]
    exact ⟨Finset.subset_insert _ _, fun _ ↦ Finset.Subset.refl _⟩
  | cleanup h hcoord hexp => simp [Observed.zero]

/-- Tokens go to the next node. -/
theorem ring_lt_of_completion (hi : i < n)
    (h : Completion ⟨i, n⟩ client queryId v taken sends outs v') {node : NodeId} {token : Token}
    (hmem : .ring node token ∈ outs) : node < n := by
  have hnext : node = (⟨i, n⟩ : NodeConfig).getNextNodeId := by
    cases h with
    | duplicate h => exact absurd hmem List.not_mem_nil
    | data msgs h => exact (leaves_map_data msgs _ hmem).elim
    | eof h => exact (Output.ring.inj (List.mem_singleton.mp hmem)).1
    | count h hcoord => exact (Output.ring.inj (List.mem_singleton.mp hmem)).1
    | flush msgs h hcoord hexp =>
      rcases List.mem_append.mp hmem with hmem | hmem
      · exact (leaves_map_data msgs _ hmem).elim
      · rw [List.mem_singleton, flushOutput] at hmem
        split at hmem
        · exact absurd hmem (by simp)
        · exact (Output.ring.inj hmem).1
    | cleanup h hcoord hexp =>
      rw [List.mem_singleton, cleanupOutput] at hmem
      split at hmem
      · exact absurd hmem (by simp)
      · exact (Output.ring.inj hmem).1
  rw [hnext]
  exact Nat.mod_lt _ (Nat.zero_lt_of_lt hi)

/-- A counting token that is sent announces what was announced. -/
theorem expected_of_completion (h : Completion cfg client queryId v taken sends outs v')
    (heof : ∀ mid marker, taken = .eof mid marker → marker.messageCount ≠ cleanupExpectedCount →
      marker.messageCount = expected)
    (htoken : ∀ envelope, taken = .token envelope → envelope.Counting →
      envelope.token.ring.expectedCount = expected) {node : NodeId} {token : Token}
    (hmem : .ring node token ∈ outs) (hcounting : (taken.origin.pass i token).Counting) :
    token.ring.expectedCount = expected := by
  cases h with
  | duplicate h => exact absurd hmem List.not_mem_nil
  | data msgs h => exact (leaves_map_data msgs _ hmem).elim
  | eof h =>
    obtain ⟨-, rfl⟩ := Output.ring.inj (List.mem_singleton.mp hmem)
    exact heof _ _ rfl hcounting.2
  | count h hcoord =>
    obtain ⟨-, rfl⟩ := Output.ring.inj (List.mem_singleton.mp hmem)
    exact htoken _ rfl ⟨hcoord, hcounting.2⟩
  | flush msgs h hcoord hexp =>
    rcases List.mem_append.mp hmem with hmem | hmem
    · exact (leaves_map_data msgs _ hmem).elim
    · rw [List.mem_singleton, flushOutput] at hmem
      split at hmem
      · exact absurd hmem (by simp)
      · obtain ⟨-, rfl⟩ := Output.ring.inj hmem
        exact absurd (hcoord.symm.trans hcounting.1) (by simp)
  | cleanup h hcoord hexp =>
    rw [List.mem_singleton, cleanupOutput] at hmem
    split at hmem
    · exact absurd hmem (by simp)
    · obtain ⟨-, rfl⟩ := Output.ring.inj hmem
      exact absurd hexp hcounting.2

/-! ## One step -/

namespace Conserving

/-- Node `i` handles the message, and it leaves its queue. -/
theorem outstanding_react (r : Ring α) (hi : i < n) (taken : Taken) (outs : List (Output α))
    (v : Observed Unit) {inbox : NodeId → List Taken} {m : ℕ}
    (hinbox : undelivered n Taken.isData inbox + m = undelivered n Taken.isData r.inbox)
    {net : Network α} (hnet : net.dropped = (r.net.handled i (r.node i) taken outs).dropped) :
    Ring.outstanding n ⟨Function.update r.node i v, inbox, net⟩
      = r.outstanding n + (v.processed - v.partialProcessed)
        - ((r.node i).processed - (r.node i).partialProcessed)
        + (if taken.Fresh (r.node i) ∧ taken.Cleans then
            (r.node i).processed - (r.node i).partialProcessed else 0) - m := by
  have hsum := Family.sum_update (Finset.mem_range.mpr hi) r.node v fun u ↦
    u.processed - u.partialProcessed
  have hdropped : (r.net.dropped ++ if taken.Fresh (r.node i) ∧ taken.Cleans then
      [(r.node i).processed - (r.node i).partialProcessed] else []).sum
      = r.net.dropped.sum + if taken.Fresh (r.node i) ∧ taken.Cleans then
        (r.node i).processed - (r.node i).partialProcessed else 0 := by
    rw [List.sum_append]
    split <;> simp
  rw [Ring.outstanding, Ring.outstanding, hnet, Network.dropped_handled, hdropped]
  simp only at hsum ⊢
  omega

theorem balanced_main (h : Conserving expected n r) (hi : i < n) {before after : List Taken}
    (hinbox : r.inbox i = before ++ taken :: after)
    (hcompletion : Completion ⟨i, n⟩ client queryId (r.node i) taken sends outs v) :
    Balanced expected
      (undelivered n Taken.isStart (Function.update r.inbox i (before ++ after)))
      ((r.net.handled i (r.node i) taken outs).countingTokens n)
      (Ring.outstanding n ⟨Function.update r.node i v, Function.update r.inbox i (before ++ after),
        r.net.handled i (r.node i) taken outs⟩) := by
  have hmem : taken ∈ r.inbox i := by simp [hinbox]
  have hstarts := undelivered_update hi hinbox Taken.isStart
  have houtstanding := outstanding_react r hi taken outs v
    (undelivered_update hi hinbox Taken.isData) rfl
  have htokens : (r.net.handled i (r.node i) taken outs).countingTokens n
      = r.net.countingTokens n + (outs.map (Output.counting i taken.origin)).sum :=
    Network.countingTokens_handled fun _ _ ↦ ring_lt_of_completion hi hcompletion
  obtain ⟨hle, hbalance⟩ := h.balanced
  have hfresh := h.unseen i taken hmem
  rw [houtstanding, htokens]
  cases hcompletion with
  | duplicate hseen =>
    cases taken <;> first | exact absurd hfresh hseen | exact absurd hmem (h.arrivals _ _)
  | data msgs _ =>
    -- the message moves from the queue to what the node has not reported
    rw [sum_counting_leaves (leaves_map_data msgs), add_zero]
    simp only [Taken.isStart, Bool.false_eq_true, if_false, Nat.add_zero] at hstarts
    rw [hstarts]
    refine ⟨hle, fun hone ↦ ?_⟩
    simp only [Observed.count, Observed.see, Taken.Cleans, Taken.isData, if_true,
      and_false, if_false]
    have := hbalance hone
    omega
  | @eof mid marker _ hseen =>
    by_cases hcleanup : marker.messageCount = cleanupExpectedCount
    · -- the EOF of a cleanup: the node drops what it has not reported
      have hzero : ([Output.ring ((i + 1) % n) (startToken client (r.node i) marker)].map
          (Output.counting (α := α) i Envelope.blank)).sum = 0 := by
        rw [List.map_singleton, List.sum_singleton]
        exact filter_not_counting fun hcounting ↦ hcounting.2 hcleanup
      simp only [Taken.isStart, hcleanup, ne_eq, not_true_eq_false, decide_false,
        Bool.false_eq_true,
        if_false, Nat.add_zero] at hstarts
      simp only [Taken.origin, NodeConfig.getNextNodeId, hzero, add_zero, hstarts]
      refine ⟨hle, fun hone ↦ ?_⟩
      simp only [Observed.report, Observed.see, Taken.Fresh, Taken.Cleans, hseen, hcleanup,
        Taken.isData, not_false_eq_true, and_self, if_true, Bool.false_eq_true, if_false]
      have := hbalance hone
      omega
    · -- the token starts with all that the node has processed
      have hone : ([Output.ring ((i + 1) % n) (startToken client (r.node i) marker)].map
          (Output.counting (α := α) i Envelope.blank)).sum
            = {Envelope.blank.pass i (startToken client (r.node i) marker)} := by
        rw [List.map_singleton, List.sum_singleton]
        exact filter_counting ⟨rfl, hcleanup⟩
      simp only [Taken.isStart, hcleanup, ne_eq, not_false_eq_true, decide_true, if_true] at hstarts
      simp only [Taken.origin, NodeConfig.getNextNodeId, hone]
      rw [Balanced, Multiset.card_add, Multiset.card_singleton, Multiset.map_add, Multiset.sum_add,
        Multiset.map_singleton, Multiset.sum_singleton]
      refine ⟨by omega, fun hone ↦ ?_⟩
      simp only [Observed.report, Observed.see, Taken.Cleans, hcleanup, Taken.isData, and_false,
        Bool.false_eq_true, if_false, Envelope.pass, Envelope.total, startToken]
      have := hbalance (by omega)
      omega
  | count hseen hcoord => exact absurd hmem (h.arrivals _ _)
  | flush msgs hseen hcoord hexp => exact absurd hmem (h.arrivals _ _)
  | cleanup hseen hcoord hexp => exact absurd hmem (h.arrivals _ _)

theorem balanced_token (h : Conserving expected n r) (hi : i < n) {envelope : Envelope}
    {rest : List Envelope} (hhead : r.net.control i = envelope :: rest)
    (hcompletion : Completion ⟨i, n⟩ client queryId (r.node i) (.token envelope) sends outs v) :
    Balanced expected (undelivered n Taken.isStart r.inbox)
      (((r.net.handled i (r.node i) (.token envelope) outs).pop i).countingTokens n)
      (Ring.outstanding n ⟨Function.update r.node i v, r.inbox,
        (r.net.handled i (r.node i) (.token envelope) outs).pop i⟩) := by
  obtain ⟨hle, hbalance⟩ := h.balanced
  have hdropped : ((r.net.handled i (r.node i) (.token envelope) outs).pop i).dropped
      = (r.net.handled i (r.node i) (.token envelope) outs).dropped := rfl
  have hpop : ((r.net.handled i (r.node i) (.token envelope) outs).pop i).countingTokens n
        + ([envelope].filter fun envelope ↦ envelope.Counting :)
      = r.net.countingTokens n + (outs.map (Output.counting i envelope)).sum :=
    Network.countingTokens_relay hi hhead fun _ _ ↦ ring_lt_of_completion hi hcompletion
  rw [outstanding_react r hi (.token envelope) outs v (Nat.add_zero _) hdropped]
  have hcard := congrArg Multiset.card hpop
  have hsum := congrArg (fun tokens ↦ (tokens.map Envelope.total).sum) hpop
  simp only [Multiset.card_add, Multiset.map_add, Multiset.sum_add] at hcard hsum
  cases hcompletion with
  | duplicate hseen =>
    simp only [List.map_nil, List.sum_nil, Multiset.card_zero, Multiset.map_zero,
      Multiset.sum_zero, add_zero] at hcard hsum
    -- a token that is taken for a copy is lost
    by_cases hcounting : envelope.Counting
    · rw [filter_counting hcounting, Multiset.card_singleton] at hcard
      exact ⟨by omega, fun hone ↦ by omega⟩
    · rw [filter_not_counting hcounting, Multiset.card_zero] at hcard
      rw [filter_not_counting hcounting, Multiset.map_zero, Multiset.sum_zero] at hsum
      refine ⟨by omega, fun hone ↦ ?_⟩
      simp only [hseen, false_and, if_false]
      have := hbalance (by omega)
      omega
  | count hseen hcoord =>
    rw [List.map_singleton, List.sum_singleton, Output.counting] at hcard hsum
    by_cases hcounting : envelope.Counting
    · rw [filter_counting hcounting] at hcard hsum
      simp only [Multiset.card_singleton, Multiset.map_singleton, Multiset.sum_singleton]
        at hcard hsum
      have hquiet : ¬(Taken.token envelope).Cleans := hcounting.2
      by_cases hnew :
        (envelope.pass i (countToken ⟨i, n⟩ client (r.node i) envelope.token)).Counting
      · -- what the node reports moves to the token
        rw [filter_counting hnew] at hcard hsum
        simp only [Multiset.card_singleton, Multiset.map_singleton, Multiset.sum_singleton]
          at hcard hsum
        have htotal : (envelope.pass i (countToken ⟨i, n⟩ client (r.node i) envelope.token)).total
            = envelope.total + (r.node i).processed - (r.node i).partialProcessed := rfl
        rw [htotal] at hsum
        refine ⟨by omega, fun hone ↦ ?_⟩
        have := hbalance (by omega)
        simp only [hquiet, and_false, if_false, Observed.report, Observed.see]
        omega
      · -- the node is the coordinator, so no token counts any more
        rw [filter_not_counting hnew, Multiset.card_zero] at hcard
        exact ⟨by omega, fun hone ↦ by omega⟩
    · -- the token of a cleanup: the node drops what it has not reported
      have hexp : envelope.token.ring.expectedCount = cleanupExpectedCount := by
        by_contra hne
        exact hcounting ⟨hcoord, hne⟩
      have hnew : ¬(envelope.pass i
          (countToken ⟨i, n⟩ client (r.node i) envelope.token)).Counting :=
        fun hnew ↦ hnew.2 hexp
      rw [filter_not_counting hcounting, filter_not_counting hnew] at hcard hsum
      simp only [Multiset.card_zero, Multiset.map_zero, Multiset.sum_zero] at hcard hsum
      refine ⟨by omega, fun hone ↦ ?_⟩
      have := hbalance (by omega)
      rw [if_pos (show (Taken.token envelope).Fresh (r.node i) ∧ (Taken.token envelope).Cleans from
        ⟨hseen, hexp⟩)]
      simp only [Observed.report, Observed.see]
      omega
  | flush msgs hseen hcoord hexp =>
    have hold : ¬envelope.Counting := fun hold ↦ by simp [Envelope.Counting, hcoord] at hold
    rw [sum_counting_data, counting_flushOutput hcoord, filter_not_counting hold] at hcard hsum
    simp only [Multiset.card_zero, Multiset.map_zero, Multiset.sum_zero] at hcard hsum
    refine ⟨by omega, fun hone ↦ ?_⟩
    have := hbalance (by omega)
    rw [if_neg (show ¬((Taken.token envelope).Fresh (r.node i) ∧ (Taken.token envelope).Cleans) from
      fun hcleans ↦ hexp hcleans.2)]
    simp only [flushed, Observed.see]
    omega
  | cleanup hseen hcoord hexp =>
    have hold : ¬envelope.Counting := fun hold ↦ hold.2 hexp
    rw [List.map_singleton, List.sum_singleton, counting_cleanupOutput hcoord,
      filter_not_counting hold] at hcard hsum
    simp only [Multiset.card_zero, Multiset.map_zero, Multiset.sum_zero] at hcard hsum
    refine ⟨by omega, fun hone ↦ ?_⟩
    have := hbalance (by omega)
    rw [if_pos (show (Taken.token envelope).Fresh (r.node i) ∧ (Taken.token envelope).Cleans from
      ⟨hseen, hexp⟩)]
    simp only [Observed.zero]
    omega

theorem init {inbox : NodeId → List Taken} (hmain : ∀ i envelope, Taken.token envelope ∉ inbox i)
    (hdistinct : ∀ i, ((inbox i).map Taken.id).Nodup)
    (hannounced : ∀ i mid marker, Taken.eof mid marker ∈ inbox i →
      marker.messageCount ≠ cleanupExpectedCount → marker.messageCount = expected)
    (hstarts : undelivered n Taken.isStart inbox ≤ 1)
    (hexpected : expected = undelivered n Taken.isData inbox) :
    Conserving expected n (Ring.init inbox : Ring α) where
  marks _ := ⟨le_refl _, le_refl _, le_refl _, le_refl _⟩
  arrivals := hmain
  distinct := hdistinct
  unseen i taken _ := by simp [Ring.init, Observed.zero]
  announced := hannounced
  tokens := Network.forall_empty _
  dropped := by simp [Ring.init, Network.empty]
  balanced := by
    have htokens : (Ring.init inbox : Ring α).net.countingTokens n = 0 := by
      simp [Ring.init, Network.empty, Network.countingTokens]
    rw [htokens, Balanced, Ring.outstanding]
    refine ⟨hstarts, fun _ ↦ ?_⟩
    simp [Ring.init, Network.empty, Observed.zero, hexpected]

theorem step {r' : Ring α} {l : Label} (h : Conserving expected n r) (hl : l.Complete)
    (hstep : Ring.Step n client queryId r l r') : Conserving expected n r' := by
  have hdropped : ∀ {i taken outs},
      ∀ d ∈ (r.net.handled i (r.node i) taken outs).dropped, 0 ≤ d := by
    intro i taken outs d hd
    rw [Network.dropped_handled, List.mem_append] at hd
    rcases hd with hd | hd
    · exact h.dropped d hd
    · split at hd
      · rw [List.mem_singleton.mp hd, sub_nonneg]
        exact (h.marks i).partialProcessed_le
      · exact absurd hd List.not_mem_nil
  refine Ring.complete_preserves (P := Conserving expected n) hstep hl ?_ ?_
  · intro i before taken after sends outs v hi hinbox hcompletion
    have hmem : taken ∈ r.inbox i := by simp [hinbox]
    have hsub : before ++ after ⊆ r.inbox i := by
      intro message hmessage
      rw [hinbox]
      rcases List.mem_append.mp hmessage with hmessage | hmessage
      · exact List.mem_append_left _ hmessage
      · exact List.mem_append_right _ (List.mem_cons_of_mem _ hmessage)
    have hdistinct := h.distinct i
    rw [hinbox, List.map_append, List.map_cons, List.nodup_middle, List.nodup_cons,
      ← List.map_append] at hdistinct
    have hunseen : ∀ j, ∀ taken' ∈ Function.update r.inbox i (before ++ after) j,
        taken'.id ∉ (Function.update r.node i v j).seen .main := by
      intro j taken' hmem'
      by_cases hj : j = i
      · subst hj
        rw [Function.update_self] at hmem' ⊢
        intro hseen
        rcases Finset.mem_insert.mp ((seen_of_completion hcompletion).1 hseen) with heq | hseen
        · exact hdistinct.1 (heq ▸ List.mem_map_of_mem hmem')
        · exact h.unseen j taken' (hsub hmem') hseen
      · rw [Function.update_of_ne hj] at hmem' ⊢
        exact h.unseen j taken' hmem'
    exact
      { marks := Family.forall_update (P := fun _ (u : Observed Unit) ↦ u.Marked) h.marks
          (marked_of_completion hcompletion (h.marks i))
        arrivals := Family.forall_update
          (P := fun _ (messages : List Taken) ↦ ∀ envelope, Taken.token envelope
            ∉ messages) h.arrivals
          fun envelope hmem ↦ h.arrivals i envelope (hsub hmem)
        distinct := Family.forall_update
          (P := fun _ (messages : List Taken) ↦ (messages.map Taken.id).Nodup)
          h.distinct hdistinct.2
        unseen := hunseen
        announced := Family.forall_update
          (P := fun _ (messages : List Taken) ↦ ∀ mid marker, Taken.eof mid marker ∈ messages →
            marker.messageCount ≠ cleanupExpectedCount → marker.messageCount = expected)
          h.announced fun mid marker hmem ↦ h.announced i mid marker (hsub hmem)
        tokens := h.tokens.handled fun _ _ hring ↦ expected_of_completion hcompletion
          (fun mid marker htaken ↦ h.announced i mid marker (htaken ▸ hmem))
          (fun envelope htaken ↦ absurd hmem (htaken ▸ h.arrivals i envelope)) hring
        dropped := hdropped
        balanced := h.balanced_main hi hinbox hcompletion }
  · intro i envelope rest sends outs v hi hhead hcompletion
    have hmem : envelope ∈ r.net.control i := by
      rw [hhead]
      exact List.mem_cons_self
    have htokens : (r.net.handled i (r.node i) (.token envelope) outs).Forall fun envelope ↦
        envelope.Counting → envelope.token.ring.expectedCount = expected :=
      h.tokens.handled fun _ _ hring ↦ expected_of_completion hcompletion
        (fun mid marker htaken ↦ absurd htaken (by simp)) (fun envelope' htaken ↦ by
          obtain rfl := Taken.token.inj htaken
          exact h.tokens i envelope hmem) hring
    exact
      { marks := Family.forall_update (P := fun _ (u : Observed Unit) ↦ u.Marked) h.marks
          (marked_of_completion hcompletion (h.marks i))
        arrivals := h.arrivals
        distinct := h.distinct
        unseen := Family.forall_update
          (P := fun j (u : Observed Unit) ↦ ∀ taken ∈ r.inbox j, taken.id ∉ u.seen .main) h.unseen
          fun taken hmem hseen ↦
            h.unseen i taken hmem ((seen_of_completion hcompletion).2 ⟨_, rfl⟩ hseen)
        announced := h.announced
        tokens := htokens.pop i
        dropped := hdropped
        balanced := h.balanced_token hi hhead hcompletion }

/-- With everything delivered, a counting token can complete exactly if nothing was dropped. -/
theorem completes_iff (h : Conserving expected n r) (hi : i < n)
    (hdelivered : undelivered n Taken.isData r.inbox = 0) {envelope : Envelope}
    (hmem : envelope ∈ r.net.control i) (hcounting : envelope.Counting) :
    envelope.token.ring.expectedCount ≤ envelope.total
        + ∑ j ∈ Finset.range n, ((r.node j).processed - (r.node j).partialProcessed) ↔
      ∀ d ∈ r.net.dropped, d = 0 := by
  obtain ⟨hle, hbalance⟩ := h.balanced
  have htoken : envelope ∈ r.net.countingTokens n := by
    rw [Network.countingTokens, Multiset.mem_sum]
    exact ⟨i, Finset.mem_range.mpr hi, by simp [hmem, hcounting]⟩
  have hpos := Multiset.card_pos_iff_exists_mem.mpr ⟨envelope, htoken⟩
  obtain ⟨only, honly⟩ := Multiset.card_eq_one.mp (show (r.net.countingTokens n).card = 1 by omega)
  rw [honly, Multiset.mem_singleton] at htoken
  have hbalance := hbalance (by omega)
  rw [honly, ← htoken, Multiset.map_singleton, Multiset.sum_singleton, Ring.outstanding,
    hdelivered] at hbalance
  rw [h.tokens i envelope hmem hcounting]
  have hsum : r.net.dropped.sum ≤ 0 ↔ ∀ d ∈ r.net.dropped, d = 0 := by
    constructor
    · intro hle d hd
      exact List.all_zero_of_le_zero_le_of_sum_eq_zero h.dropped
        (le_antisymm hle (List.sum_nonneg h.dropped)) hd
    · exact fun hzero ↦ (List.sum_eq_zero hzero).le
  rw [← hsum]
  omega

end Conserving

/-! ## Runs -/

variable {w : StatefulWorker}

/-- **When a token that met a cleanup can complete.** Without crashes, and with every message
delivered once and one end of the input: when all data messages were delivered, a counting token
that is on its way reaches the announced count with what is not reported exactly if every node had
reported all it had processed whenever a cleanup made it report or forget. -/
theorem leftover_completes_iff (w : StatefulWorker) {n : ℕ} {client : ClientId} {expected : ℤ}
    {inbox : NodeId → List (MainMessage w)}
    (hdistinct : ∀ i, ((inbox i).map MainMessage.messageId).Nodup)
    (hannounced : ∀ i mid marker, MainMessage.eof mid marker ∈ inbox i →
      marker.messageCount ≠ cleanupExpectedCount → marker.messageCount = expected)
    (hstarts : undelivered n Taken.isStart (fun i ↦ (inbox i).map MainMessage.taken) ≤ 1)
    (hexpected : expected = undelivered n Taken.isData fun i ↦ (inbox i).map MainMessage.taken)
    {s : Stage w} (hreach : Stage.Reachable n client (fun _ l ↦ l.Complete) (Stage.init inbox) s)
    (hdelivered : undelivered n Taken.isData (fun i ↦ (s.inbox i).map MainMessage.taken) = 0)
    {i : NodeId} (hi : i < n) {envelope : Envelope} (hmem : envelope ∈ s.net.control i)
    (hcounting : envelope.Counting) :
    envelope.token.ring.expectedCount ≤ envelope.total + ∑ j ∈ Finset.range n,
        ((s.node client j).processed - (s.node client j).partialProcessed) ↔
      ∀ d ∈ s.net.dropped, d = 0 := by
  have hmain : ∀ i envelope, Taken.token envelope ∉ (inbox i).map MainMessage.taken := by
    intro i envelope hmem
    obtain ⟨message, -, heq⟩ := List.mem_map.mp hmem
    cases message <;> exact absurd heq (by simp [MainMessage.taken])
  have hid : ∀ message : MainMessage w, message.taken.id = message.messageId := by
    intro message
    cases message <;> rfl
  have hinit : Conserving expected n
      (Ring.init fun i ↦ (inbox i).map MainMessage.taken : Ring w.Item) := by
    refine Conserving.init hmain (fun i ↦ ?_) (fun i mid marker hmem ↦ ?_) hstarts hexpected
    · rw [List.map_map]
      exact (List.map_congr_left fun message _ ↦ hid message) ▸ hdistinct i
    · obtain ⟨message, hmessage, heq⟩ := List.mem_map.mp hmem
      cases message with
      | data mid payload => exact absurd heq (by simp [MainMessage.taken])
      | eof mid' marker' =>
        obtain ⟨rfl, rfl⟩ := Taken.eof.inj heq
        exact hannounced i mid' marker' hmessage
  have h : Conserving expected n (s.ring client) :=
    Stage.invariant_of_complete hinit (fun h hl hstep ↦ h.step hl hstep) hreach
  exact h.completes_iff hi hdelivered hmem hcounting

/-- Two data messages, the end of the input and the end of the client's session, for the only node
of a stage. -/
def cleanedInbox (i : NodeId) : List (MainMessage countingWorker) :=
  if i = 0 then [.data "c:0:0" ⟨1⟩, .data "c:1:0" ⟨1⟩, .eof "c:eof" ⟨2⟩,
    .eof "c:eof:cleanup" ⟨cleanupExpectedCount⟩] else []

/-- The cleanup starts when everything was reported. -/
theorem leftover_completes_iff_reported :
    ∃ (s : Stage countingWorker) (envelope : Envelope),
      Stage.Reachable 1 "c" (fun _ l ↦ l.Complete) (Stage.init cleanedInbox) s ∧
      envelope ∈ s.net.control 0 ∧ s.net.dropped = [0] ∧
      envelope.token.ring.expectedCount ≤ envelope.total + ∑ j ∈ Finset.range 1,
        ((s.node "c" j).processed - (s.node "c" j).partialProcessed) := by
  obtain ⟨r, hr, hdelivered, hdropped, envelope, rest, hhead, hcounting⟩ :
      ∃ r, ((Stage.init cleanedInbox).ring "c").run 1 "c" countingWorker.queryId
          [.main 0 0 none, .main 0 0 none, .main 0 0 none, .main 0 0 none] = some r ∧
        undelivered 1 Taken.isData r.inbox = 0 ∧ r.net.dropped = [0] ∧
        ∃ envelope rest, r.net.control 0 = envelope :: rest ∧ envelope.Counting := by
    refine ⟨_, rfl, by decide, by decide, ?_⟩
    refine ⟨_, _, rfl, ?_⟩
    decide
  obtain ⟨s, hreach, rfl⟩ := Stage.exists_run_complete silent_countingWorker hr
    (by simp [Move.cut])
  have hmem : envelope ∈ s.net.control 0 := by
    rw [show s.net.control 0 = _ from hhead]
    exact List.mem_cons_self
  refine ⟨s, envelope, hreach, hmem, hdropped, ?_⟩
  refine (leftover_completes_iff countingWorker (fun i ↦ ?_) (fun i mid marker hmem hne ↦ ?_)
    (by decide) (show (2 : ℤ) = _ by decide) hreach hdelivered (by decide) hmem hcounting).mpr ?_
  · rw [cleanedInbox]
    split <;> decide
  · rw [cleanedInbox] at hmem
    split at hmem <;> simp at hmem
    obtain ⟨-, rfl⟩ | ⟨-, rfl⟩ := hmem
    · rfl
    · exact absurd rfl hne
  · rw [show s.net.dropped = [0] from hdropped]
    simp

/-- In general the token goes around for ever. The node reports the first message to the counting
token and the second one to the cleanup, and then forgets both. -/
theorem leftover_token :
    ∃ (s : Stage countingWorker) (envelope : Envelope),
      Stage.Reachable 1 "c" (fun _ l ↦ l.Complete) (Stage.init cleanedInbox) s ∧
      undelivered 1 Taken.isData (fun i ↦ (s.inbox i).map MainMessage.taken) = 0 ∧
      (∃ mid, (0, Output.finalEof mid ⟨cleanupExpectedCount⟩) ∈ s.net.outputs) ∧
      envelope ∈ s.net.control 0 ∧ envelope.Counting ∧
      envelope.total + ∑ j ∈ Finset.range 1,
        ((s.node "c" j).processed - (s.node "c" j).partialProcessed)
          < envelope.token.ring.expectedCount := by
  obtain ⟨r, hr, hdelivered, ⟨mid, hfinal⟩, envelope, rest, hhead, hcounting, hlt⟩ :
      ∃ r, ((Stage.init cleanedInbox).ring "c").run 1 "c" countingWorker.queryId
          [.main 0 0 none, .main 0 1 none, .main 0 0 none, .main 0 0 none, .token 0 none,
            .token 0 none, .token 0 none, .token 0 none] = some r ∧
        undelivered 1 Taken.isData r.inbox = 0 ∧
        (∃ mid, r.net.outputs.getLast? = some (0, .finalEof mid ⟨cleanupExpectedCount⟩)) ∧
        ∃ envelope rest, r.net.control 0 = envelope :: rest ∧ envelope.Counting ∧
          envelope.total + ∑ j ∈ Finset.range 1,
            ((r.node j).processed - (r.node j).partialProcessed)
              < envelope.token.ring.expectedCount := by
    refine ⟨_, rfl, by decide, ⟨_, rfl⟩, ?_⟩
    refine ⟨_, _, rfl, ?_⟩
    decide
  obtain ⟨s, hreach, rfl⟩ := Stage.exists_run_complete silent_countingWorker hr
    (by simp [Move.cut])
  have hmem : envelope ∈ s.net.control 0 := by
    rw [show s.net.control 0 = _ from hhead]
    exact List.mem_cons_self
  exact ⟨s, envelope, hreach, hdelivered, ⟨mid, List.mem_of_getLast? hfinal⟩, hmem, hcounting,
    hlt⟩

end MoneyLaundering
