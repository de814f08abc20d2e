import Mathlib.Tactic.Ring
import MoneyLaundering.Collections.Update
import MoneyLaundering.Ring.Reaction

/-!
# The traffic of one stream

A stage is fed data messages and one end of the stream that announces how many there are. `Traffic`
collects what then holds in every state of every run, crashes included: the processed count of a
node is the number of data messages it has recorded, a token's totals are the sum of what each node
added to them, ids of tokens tell their phase, and once the first token was published it is either
in the queue of its receiver or seen there.
-/

namespace MoneyLaundering

open WriteAhead StatefulWorker

/-- What a stage is fed: the ids of the data messages addressed to each node, and the end of the
stream, which goes to one node. -/
structure Feed where
  addressed : NodeId → Finset MessageId
  eofNode : NodeId
  eofId : MessageId
  expected : ℤ
  eofId_notMem : eofId ∉ addressed eofNode
  expected_ne : expected ≠ cleanupExpectedCount

/-- The message is one of those addressed to node `i`. Any of them may be delivered repeatedly. -/
def Feed.Allows (feed : Feed) (i : NodeId) : Taken → Prop
  | .data messageId => messageId ∈ feed.addressed i
  | .eof messageId marker => i = feed.eofNode ∧ messageId = feed.eofId ∧ marker = ⟨feed.expected⟩
  | .token _ => False

/-- The id of a token tells its phase. -/
def Feed.Labels (feed : Feed) (client : ClientId) (envelope : Envelope) : Prop :=
  envelope.token.ring.expectedCount = feed.expected ∧
    (envelope.token.ring.coordinatorId = none →
      ∃ k : ℕ, envelope.messageId = ringId client ringPhaseCount k) ∧
    (envelope.token.ring.coordinatorId ≠ none →
      ∃ k : ℕ, envelope.messageId = ringId client ringPhaseFlush k)

/-- The totals of a token are the sum of what each of `n` nodes added to them. -/
def Envelope.Adds (n : ℕ) (envelope : Envelope) : Prop :=
  ∑ i ∈ Finset.range n, envelope.processedOf i = envelope.total ∧
    ∑ i ∈ Finset.range n, envelope.sentOf i = envelope.totalSent

/-- The counts reported to the ring do not exceed the counts. -/
structure Observed.Marked (v : Observed Unit) : Prop where
  partialProcessed_nonneg : 0 ≤ v.partialProcessed
  partialProcessed_le : v.partialProcessed ≤ v.processed
  partialSent_nonneg : 0 ≤ v.partialSent
  partialSent_le : v.partialSent ≤ v.sent

/-- The total of a published message, if it is the first token of a ring that node `i` starts. -/
def startTotal {α : Type} (client : ClientId) (i : NodeId) : NodeId × Output α → Option ℤ
  | (j, .ring _ token) =>
    if j = i ∧ token.messageId = ringId client ringPhaseCount 0 then
      some token.ring.totalProcessedCount
    else none
  | (_, .data _) => none
  | (_, .finalEof _ _) => none

/-- The count that node `i` published when it first started the ring. -/
def startedWith {α : Type} (client : ClientId) (i : NodeId) (outputs : List (NodeId × Output α)) :
    Option ℤ := outputs.findSome? (startTotal client i)

/-- What holds of the traffic of one stream. -/
structure Traffic {α : Type} (feed : Feed) (n : ℕ) (client : ClientId) (r : Ring α) : Prop where
  arrivals : ∀ i, ∀ taken ∈ r.inbox i, feed.Allows i taken
  processed : ∀ i, (r.node i).processed = ((r.node i).seen .main ∩ feed.addressed i).card
  marks : ∀ i, (r.node i).Marked
  tokens : r.net.Forall (feed.Labels client)
  totals : r.net.Forall (Envelope.Adds n)
  /-- The first token has not got lost. -/
  started : ∀ m, startedWith client feed.eofNode r.net.outputs = some m →
    ringId client ringPhaseCount 0 ∈
        (r.net.control ((feed.eofNode + 1) % n)).map Envelope.messageId ∨
      ringId client ringPhaseCount 0 ∈ (r.node ((feed.eofNode + 1) % n)).seen .control
  unstarted : startedWith client feed.eofNode r.net.outputs = none →
    (∀ i, (r.node i).partialProcessed = 0 ∧ (r.node i).partialSent = 0) ∧ ∀ i, r.net.control i = []

variable {α : Type} {feed : Feed} {n : ℕ} {client : ClientId} {queryId : Option String}
  {cfg : NodeConfig} {i : NodeId} {taken : Taken} {sends : ℕ} {outs : List (Output α)}
  {v v' : Observed Unit}

/-! ## Counters -/

theorem see_main_control (v : Observed Unit) (mid : MessageId) :
    (v.see .control mid).seen .main = v.seen .main := by simp [Observed.see]

theorem see_control_main (v : Observed Unit) (mid : MessageId) :
    (v.see .main mid).seen .control = v.seen .control := by simp [Observed.see]

theorem see_self (v : Observed Unit) (ch : Channel) (mid : MessageId) :
    (v.see ch mid).seen ch = insert mid (v.seen ch) := Function.update_self _ _ _

theorem subset_see (v : Observed Unit) (ch ch' : Channel) (mid : MessageId) :
    v.seen ch' ⊆ (v.see ch mid).seen ch' := by
  by_cases h : ch' = ch
  · subst h
    rw [see_self]
    exact Finset.subset_insert mid _
  · simp [Observed.see, Function.update_of_ne h]

/-- Counts do not decrease, and nothing seen is forgotten. -/
structure Observed.Grows (v v' : Observed Unit) : Prop where
  seen : ∀ ch, v.seen ch ⊆ v'.seen ch
  processed : v.processed ≤ v'.processed
  partialProcessed : v.partialProcessed ≤ v'.partialProcessed

theorem Observed.Grows.refl (v : Observed Unit) : v.Grows v :=
  ⟨fun _ ↦ Finset.Subset.refl _, le_refl _, le_refl _⟩

theorem grows_of_reaction (h : Reaction cfg client queryId v taken sends outs v')
    (hmarks : v.Marked) : v.Grows v' := by
  have hpart := hmarks.partialProcessed_le
  cases h with
  | nothing outs h => exact .refl v
  | data msgs h => exact ⟨fun ch ↦ subset_see v .main ch _, by simp [Observed.count], le_refl _⟩
  | start h hv =>
    rcases hv with rfl | rfl | rfl
    · exact .refl _
    · exact ⟨fun _ ↦ Finset.Subset.refl _, le_refl _, hpart⟩
    · exact ⟨fun ch ↦ subset_see _ .main ch _, le_refl _, hpart⟩
  | count h hcoord hv =>
    rcases hv with rfl | rfl
    · exact .refl _
    · exact ⟨fun ch ↦ subset_see _ .control ch _, le_refl _, hpart⟩
  | flush msgs h hcoord hv =>
    rcases hv with rfl | rfl
    · exact .refl _
    · exact ⟨fun ch ↦ subset_see _ .control ch _, le_refl _, le_refl _⟩

theorem marked_of_reaction (h : Reaction cfg client queryId v taken sends outs v')
    (hmarks : v.Marked) : v'.Marked := by
  obtain ⟨hp, hpc, hq, hqs⟩ := hmarks
  cases h with
  | nothing outs h => exact ⟨hp, hpc, hq, hqs⟩
  | data msgs h =>
    exact ⟨hp, by simp only [Observed.count, Observed.see]; omega, hq,
      by simp only [Observed.count, Observed.see]; omega⟩
  | start h hv =>
    rcases hv with rfl | rfl | rfl
    · exact ⟨hp, hpc, hq, hqs⟩
    · exact ⟨hp.trans hpc, le_refl _, hq.trans hqs, le_refl _⟩
    · exact ⟨hp.trans hpc, le_refl _, hq.trans hqs, le_refl _⟩
  | count h hcoord hv =>
    rcases hv with rfl | rfl
    · exact ⟨hp, hpc, hq, hqs⟩
    · exact ⟨hp.trans hpc, le_refl _, hq.trans hqs, le_refl _⟩
  | flush msgs h hcoord hv =>
    rcases hv with rfl | rfl
    · exact ⟨hp, hpc, hq, hqs⟩
    · refine ⟨hp, hpc, ?_, le_refl _⟩
      simp only [flushed, Observed.see]
      omega

/-- The processed count stays the number of recorded data messages. -/
theorem processed_of_reaction (h : Reaction cfg client queryId v taken sends outs v')
    (hallows : feed.Allows i taken ∨ ∃ envelope, taken = .token envelope)
    (hprocessed : v.processed = (v.seen .main ∩ feed.addressed i).card) :
    v'.processed = (v'.seen .main ∩ feed.addressed i).card := by
  cases h with
  | nothing outs h => exact hprocessed
  | @data mid _ msgs h =>
    have hmid : mid ∈ feed.addressed i := hallows.resolve_right (by simp)
    have hseen : (v.count mid msgs.length).seen .main = insert mid (v.seen .main) :=
      see_self v .main mid
    rw [hseen, Finset.insert_inter_of_mem hmid, Finset.card_insert_of_notMem (by simp [h])]
    simp only [Observed.count, Observed.see, hprocessed]
    push_cast
    ring
  | start h hv =>
    obtain ⟨rfl, rfl, -⟩ := hallows.resolve_right (by simp)
    rcases hv with rfl | rfl | rfl
    · exact hprocessed
    · exact hprocessed
    · rw [see_self, Finset.insert_inter_of_notMem feed.eofId_notMem]
      exact hprocessed
  | count h hcoord hv =>
    rcases hv with rfl | rfl
    · exact hprocessed
    · rw [see_main_control]
      exact hprocessed
  | flush msgs h hcoord hv =>
    rcases hv with rfl | rfl
    · exact hprocessed
    · rw [see_main_control]
      exact hprocessed

/-! ## Tokens -/

theorem leaves_map_data (msgs : List (Message α)) : ∀ o ∈ msgs.map Output.data, o.Leaves :=
  leaves_of_isPrefix (List.prefix_refl _)

theorem leaves_nil : ∀ o ∈ ([] : List (Output α)), o.Leaves := by simp

/-- The token of a reaction, if it sends one. -/
theorem ring_mem_of_reaction (h : Reaction cfg client queryId v taken sends outs v') {node : NodeId}
    {token : Token} (hmem : .ring node token ∈ outs) :
    node = cfg.getNextNodeId ∧
      ((∃ mid marker, taken = .eof mid marker ∧ token = startToken client v marker) ∨
      (∃ envelope, taken = .token envelope ∧ envelope.token.ring.coordinatorId = none ∧
        token = countToken cfg client v envelope.token) ∨
      ∃ envelope sent, taken = .token envelope ∧ envelope.token.ring.coordinatorId ≠ none ∧
        envelope.token.ring.coordinatorId ≠ some cfg.nodeId ∧
        token = ⟨ringId client ringPhaseFlush (ringSeqOf envelope.messageId + 1),
          { envelope.token.ring with totalSentCount := some sent }⟩) := by
  cases h with
  | nothing outs h => exact (h _ hmem).elim
  | data msgs h => exact (leaves_map_data msgs _ hmem).elim
  | start h hv =>
    obtain ⟨rfl, rfl⟩ := Output.ring.inj (List.mem_singleton.mp hmem)
    exact ⟨rfl, Or.inl ⟨_, _, rfl, rfl⟩⟩
  | count h hcoord hv =>
    obtain ⟨rfl, rfl⟩ := Output.ring.inj (List.mem_singleton.mp hmem)
    exact ⟨rfl, Or.inr (Or.inl ⟨_, rfl, hcoord, rfl⟩)⟩
  | @flush envelope coordinatorId _ msgs h hcoord hv =>
    rcases List.mem_append.mp hmem with hmem | hmem
    · exact (leaves_map_data msgs _ hmem).elim
    · rw [List.mem_singleton, flushOutput] at hmem
      split at hmem
      · exact absurd hmem (by simp)
      · next hne =>
        obtain ⟨rfl, rfl⟩ := Output.ring.inj hmem
        refine ⟨rfl, Or.inr (Or.inr ⟨envelope, _, rfl, ?_, ?_, rfl⟩)⟩
        · rw [hcoord]
          exact Option.some_ne_none _
        · rw [hcoord]
          exact fun heq ↦ hne (Option.some.inj heq)

/-- The tokens a node sends are labelled like those it takes. -/
theorem labels_of_reaction (h : Reaction cfg client queryId v taken sends outs v')
    (hallows : feed.Allows i taken ∨ ∃ envelope, taken = .token envelope ∧
      feed.Labels client envelope)
    {node : NodeId} {token : Token} (hmem : .ring node token ∈ outs) :
    feed.Labels client (taken.origin.pass i token) := by
  obtain ⟨-, ⟨mid, marker, rfl, rfl⟩ | ⟨envelope, rfl, hcoord, rfl⟩ |
    ⟨envelope, sent, rfl, hcoord, -, rfl⟩⟩ := ring_mem_of_reaction h hmem
  · obtain ⟨-, -, rfl⟩ := hallows.resolve_right (by simp)
    refine ⟨rfl, fun _ ↦ ⟨0, ?_⟩, fun hne ↦ absurd rfl hne⟩
    simp [Envelope.pass, Envelope.messageId, startToken, feed.expected_ne]
  · obtain ⟨_, heq, hexp, hcount, -⟩ := hallows.resolve_left (by simp [Feed.Allows])
    obtain rfl := Taken.token.inj heq
    obtain ⟨k, hk⟩ := hcount hcoord
    have hne : envelope.token.ring.expectedCount ≠ cleanupExpectedCount := hexp ▸ feed.expected_ne
    have hseq : ringSeqOf envelope.token.messageId = k := by
      rw [show envelope.token.messageId = _ from hk, ringSeqOf_ringId]
    refine ⟨hexp, fun hnone ↦ ⟨k + 1, ?_⟩, fun hsome ↦ ⟨0, ?_⟩⟩
    · simp only [Envelope.pass, countToken, ite_eq_right_iff, reduceCtorEq, imp_false] at hnone
      simp only [Envelope.pass, Envelope.messageId, countToken, if_neg hnone, hseq]
      push_cast
      rfl
    · have helected : envelope.token.ring.expectedCount
          ≤ envelope.token.ring.totalProcessedCount + v.processed - v.partialProcessed := by
        by_contra hnot
        simp [Envelope.pass, countToken, hnot] at hsome
      simp [Envelope.pass, Envelope.messageId, countToken, helected, hne]
  · obtain ⟨_, heq, hexp, -, hflush⟩ := hallows.resolve_left (by simp [Feed.Allows])
    obtain rfl := Taken.token.inj heq
    obtain ⟨k, hk⟩ := hflush hcoord
    refine ⟨hexp, fun hnone ↦ absurd hnone hcoord, fun _ ↦ ⟨k + 1, ?_⟩⟩
    rw [hk, ringSeqOf_ringId]
    simp only [Envelope.pass, Envelope.messageId]
    push_cast
    rfl

theorem adds_blank (n : ℕ) : Envelope.blank.Adds n := by
  simp [Envelope.Adds, Envelope.blank, Envelope.total, Envelope.totalSent]

/-- What a node adds to a token is added to its totals. -/
theorem Envelope.Adds.pass {envelope : Envelope} (h : envelope.Adds n) (hi : i < n)
    (token : Token) :
    (envelope.pass i token).Adds n := by
  obtain ⟨hprocessed, hsent⟩ := h
  have hmem := Finset.mem_range.mpr hi
  constructor
  · refine (Family.sum_update hmem envelope.processedOf _ id).trans ?_
    simp only [id, hprocessed, Envelope.pass, Envelope.total]
    ring
  · refine (Family.sum_update hmem envelope.sentOf _ id).trans ?_
    simp only [id, hsent, Envelope.pass, Envelope.totalSent]
    ring

/-! ## The first token -/

theorem startedWith_append (outputs outputs' : List (NodeId × Output α)) :
    startedWith client i (outputs ++ outputs')
      = (startedWith client i outputs).or (startedWith client i outputs') :=
  List.findSome?_append

theorem startedWith_eq_none (h : ∀ node token, .ring node token ∈ outs →
      token.messageId ≠ ringId client ringPhaseCount 0) (j : NodeId) :
    startedWith client j (outs.map (Prod.mk i)) = none := by
  refine List.findSome?_eq_none_iff.mpr fun p hp ↦ ?_
  obtain ⟨o, ho, rfl⟩ := List.mem_map.mp hp
  cases o with
  | data m => rfl
  | ring node token => exact if_neg fun hstart ↦ h node token ho hstart.2
  | finalEof messageId eof => rfl

/-- A token made of another one is not a first token. -/
theorem not_first_of_reaction (h : Reaction cfg client queryId v taken sends outs v')
    {envelope : Envelope} (htaken : taken = .token envelope) (hlabels : feed.Labels client envelope)
    {node : NodeId} {token : Token} (hmem : .ring node token ∈ outs) :
    token.messageId ≠ ringId client ringPhaseCount 0 := by
  subst htaken
  obtain ⟨-, ⟨mid, marker, heq, -⟩ | ⟨_, heq, hcoord, rfl⟩ | ⟨_, sent, heq, -, -, rfl⟩⟩ :=
    ring_mem_of_reaction h hmem
  · exact absurd heq (by simp)
  · obtain rfl := Taken.token.inj heq
    obtain ⟨hexp, hcount, -⟩ := hlabels
    obtain ⟨k, hk⟩ := hcount hcoord
    have hseq : ringSeqOf envelope.token.messageId = k := by
      rw [show envelope.token.messageId = _ from hk, ringSeqOf_ringId]
    simp only [countToken, hseq, hexp, feed.expected_ne, if_false]
    split
    · exact (ringId_count_ne_flush client 0 0).symm
    · intro hid
      have := ringId_seq_injective hid
      omega
  · exact (ringId_count_ne_flush client 0 _).symm

/-- Only the end of the stream makes a node publish a first token. -/
theorem startedWith_reaction (h : Reaction cfg client queryId v taken sends outs v')
    (hallows : feed.Allows i taken ∨ ∃ envelope, taken = .token envelope ∧
      feed.Labels client envelope)
    (j : NodeId) :
    startedWith client j (outs.map (Prod.mk i)) = none ∨ ∃ mid marker, taken = .eof mid marker ∧
      i = j ∧ startedWith client j (outs.map (Prod.mk i))
        = some (v.processed - v.partialProcessed) ∧
      outs = [.ring cfg.getNextNodeId (startToken client v marker)] := by
  rcases hallows with hallows | ⟨envelope, htaken, hlabels⟩
  · cases h with
    | nothing outs h => exact Or.inl (startedWith_eq_none (fun _ _ hmem ↦ (h _ hmem).elim) j)
    | data msgs h =>
      exact Or.inl (startedWith_eq_none (fun _ _ hmem ↦ (leaves_map_data msgs _ hmem).elim) j)
    | @start mid marker _ _ h hv =>
      obtain ⟨-, -, rfl⟩ := hallows
      by_cases hj : i = j
      · refine Or.inr ⟨_, _, rfl, hj, ?_, rfl⟩
        simp [startedWith, startTotal, hj, startToken, feed.expected_ne]
      · exact Or.inl (by simp [startedWith, startTotal, hj])
    | count h hcoord hv => exact hallows.elim
    | flush msgs h hcoord hv => exact hallows.elim
  · exact Or.inl
      (startedWith_eq_none (fun _ _ hmem ↦ not_first_of_reaction h htaken hlabels hmem) j)

/-! ## Every step keeps it -/

namespace Traffic

variable {r r' : Ring α} {l : Label}

theorem init {inbox : NodeId → List Taken} (hinbox : ∀ i, ∀ taken ∈ inbox i, feed.Allows i taken) :
    Traffic feed n client (Ring.init inbox : Ring α) where
  arrivals := hinbox
  processed _ := by simp [Ring.init, Observed.zero]
  marks _ := ⟨le_refl _, le_refl _, le_refl _, le_refl _⟩
  tokens := Network.forall_empty _
  totals := Network.forall_empty _
  started m hm := by simp [Ring.init, Network.empty, startedWith] at hm
  unstarted _ := ⟨fun _ ↦ ⟨rfl, rfl⟩, fun _ ↦ rfl⟩

/-- What a node takes is allowed or labelled. -/
theorem allows_of_takes (h : Traffic feed n client r) (htakes : r.Takes l i taken sends) :
    feed.Allows i taken ∨ ∃ envelope, taken = .token envelope ∧ feed.Labels client envelope := by
  cases htakes with
  | main hmem => exact Or.inl (h.arrivals i taken hmem)
  | token hhead => exact Or.inr ⟨_, rfl, h.tokens i _ (by rw [hhead]; exact List.mem_cons_self)⟩

theorem adds_origin (h : Traffic feed n client r) (htakes : r.Takes l i taken sends) :
    taken.origin.Adds n := by
  cases htakes with
  | token hhead => exact h.totals i _ (by rw [hhead]; exact List.mem_cons_self)
  | main hmem =>
    have hallows := h.arrivals i taken hmem
    cases taken with
    | data mid => exact adds_blank n
    | eof mid marker => exact adds_blank n
    | token envelope => exact hallows.elim

theorem outputs_react : (r.react i taken outs v).net.outputs = r.net.outputs
    ++ outs.map (Prod.mk i) :=
  Network.outputs_handled

/-- A first token that was published stays, in its queue or seen. -/
theorem started_react (h : Traffic feed n client r) (htakes : r.Takes l i taken sends)
    (hreaction : Reaction ⟨i, n⟩ client queryId (r.node i) taken sends outs v) {m : ℤ}
    (hm : startedWith client feed.eofNode (r.react i taken outs v).net.outputs = some m) :
    ringId client ringPhaseCount 0 ∈ ((r.react i taken outs v).net.control
          ((feed.eofNode + 1) % n)).map Envelope.messageId ∨
      ringId client ringPhaseCount 0
        ∈ ((r.react i taken outs v).node ((feed.eofNode + 1) % n)).seen .control := by
  rw [outputs_react, startedWith_append] at hm
  cases hbefore : startedWith client feed.eofNode r.net.outputs with
  | some m' =>
    refine (h.started m' hbefore).imp (fun hmem ↦ ?_) fun hmem ↦ ?_
    · have hpre : r.net.control ((feed.eofNode + 1) % n) <+:
          (r.net.handled i (r.node i) taken outs).control ((feed.eofNode + 1) % n) :=
        Network.control_handled_prefix _
      exact (hpre.map Envelope.messageId).subset hmem
    · have hgrows : ∀ j, (r.node j).Grows (Function.update r.node i v j) :=
        Family.forall_update (P := fun j u ↦ (r.node j).Grows u) (fun j ↦ .refl _)
          (grows_of_reaction hreaction (h.marks i))
      exact (hgrows _).seen .control hmem
  | none =>
    rw [hbefore, Option.none_or] at hm
    rcases startedWith_reaction hreaction (h.allows_of_takes htakes) feed.eofNode with hnone |
      ⟨mid, marker, rfl, rfl, -, rfl⟩
    · exact absurd (hnone.symm.trans hm) (by simp)
    · left
      have hcontrol : (r.net.handled feed.eofNode (r.node feed.eofNode) (.eof mid marker)
          ([] ++ [.ring ((feed.eofNode + 1) % n) (startToken client (r.node feed.eofNode) marker)]
            : List (Output α))).control = _ := Network.control_handled_ring leaves_nil _ _
      have hmarker : marker.messageCount ≠ cleanupExpectedCount := by
        obtain ⟨-, -, rfl⟩ := (h.allows_of_takes htakes).resolve_right (by simp)
        exact feed.expected_ne
      rw [List.nil_append] at hcontrol
      simp only [Ring.react, NodeConfig.getNextNodeId]
      rw [hcontrol, Function.update_self, List.map_append]
      refine List.mem_append_right _ (List.mem_singleton.mpr ?_)
      simp [Envelope.pass, Envelope.messageId, startToken, hmarker]

/-- Before the first token there is nothing in the control queues, and nothing is reported. -/
theorem unstarted_react (h : Traffic feed n client r) (htakes : r.Takes l i taken sends)
    (hreaction : Reaction ⟨i, n⟩ client queryId (r.node i) taken sends outs v)
    (hnone : startedWith client feed.eofNode (r.react i taken outs v).net.outputs = none) :
    (∀ j, ((r.react i taken outs v).node j).partialProcessed = 0 ∧
        ((r.react i taken outs v).node j).partialSent = 0) ∧
      ∀ j, (r.react i taken outs v).net.control j = [] := by
  rw [outputs_react, startedWith_append, Option.or_eq_none_iff] at hnone
  obtain ⟨hmarks, hempty⟩ := h.unstarted hnone.1
  have hkeep : ∀ v : Observed Unit, v.partialProcessed = 0 ∧ v.partialSent = 0 →
      ∀ j, (Function.update r.node i v j).partialProcessed = 0 ∧
        (Function.update r.node i v j).partialSent = 0 := fun v hv ↦
    Family.forall_update
      (P := fun _ (u : Observed Unit) ↦ u.partialProcessed = 0 ∧ u.partialSent = 0) hmarks hv
  have hallows : feed.Allows i taken := by
    cases htakes with
    | main hmem => exact h.arrivals i taken hmem
    | token hhead => exact absurd hhead (by rw [hempty i]; simp)
  cases hreaction with
  | nothing outs hleaves =>
    refine ⟨hkeep _ (hmarks i), fun j ↦ ?_⟩
    rw [Ring.react, Network.control_handled_leaves hleaves]
    exact hempty j
  | data msgs _ =>
    refine ⟨hkeep _ (hmarks i), fun j ↦ ?_⟩
    rw [Ring.react, Network.control_handled_leaves (leaves_map_data msgs)]
    exact hempty j
  | start _ hv =>
    obtain ⟨rfl, -, rfl⟩ := hallows
    simp [startedWith, startTotal, startToken, feed.expected_ne] at hnone
  | count _ _ hv => exact hallows.elim
  | flush msgs _ _ hv => exact hallows.elim

theorem react (h : Traffic feed n client r) (hi : i < n) (htakes : r.Takes l i taken sends)
    (hreaction : Reaction ⟨i, n⟩ client queryId (r.node i) taken sends outs v) :
    Traffic feed n client (r.react i taken outs v) where
  arrivals := h.arrivals
  processed := Family.forall_update
    (P := fun j (u : Observed Unit) ↦
      u.processed = (u.seen .main ∩ feed.addressed j).card) h.processed
    (processed_of_reaction hreaction ((h.allows_of_takes htakes).imp_right
      fun ⟨envelope, htaken, _⟩ ↦ ⟨envelope, htaken⟩) (h.processed i))
  marks := Family.forall_update (P := fun _ (u : Observed Unit) ↦ u.Marked) h.marks
    (marked_of_reaction hreaction (h.marks i))
  tokens := h.tokens.handled fun _ _ hmem ↦
    labels_of_reaction hreaction (h.allows_of_takes htakes) hmem
  totals := h.totals.handled fun _ token _ ↦ (h.adds_origin htakes).pass hi token
  started _ hm := h.started_react htakes hreaction hm
  unstarted hnone := h.unstarted_react htakes hreaction hnone

theorem ack (h : Traffic feed n client r) {messages : List Taken} (hsub : messages ⊆ r.inbox i) :
    Traffic feed n client { r with inbox := Function.update r.inbox i messages } :=
  { h with
    arrivals := Family.forall_update (P := fun j messages ↦ ∀ taken ∈ messages, feed.Allows j taken)
      h.arrivals fun taken hmem ↦ h.arrivals i taken (hsub hmem) }

theorem pop (h : Traffic feed n client r) {envelope : Envelope} {rest : List Envelope}
    (hhead : r.net.control i = envelope :: rest)
    (hseen : envelope.messageId ∈ (r.node i).seen .control) :
    Traffic feed n client { r with net := r.net.pop i } :=
  { h with
    tokens := h.tokens.pop i
    totals := h.totals.pop i
    started := by
      intro m hm
      rcases h.started m hm with hmem | hmem
      · by_cases hi : (feed.eofNode + 1) % n = i
        · subst hi
          rw [hhead, List.map_cons, List.mem_cons] at hmem
          rw [Network.control_pop_self hhead]
          rcases hmem with heq | hmem
          · exact Or.inr (heq ▸ hseen)
          · exact Or.inl hmem
        · rw [Network.control_pop_of_ne hi]
          exact Or.inl hmem
      · exact Or.inr hmem
    unstarted := by
      intro hnone
      obtain ⟨-, hempty⟩ := h.unstarted hnone
      exact absurd hhead (by rw [hempty i]; simp) }

/-- No cleanup is under way. -/
theorem quiet (h : Traffic feed n client r) :
    r.net.Forall fun envelope ↦ envelope.token.ring.expectedCount ≠ cleanupExpectedCount := by
  intro i envelope hmem
  rw [(h.tokens i envelope hmem).1]
  exact feed.expected_ne

theorem token_notMem_inbox (h : Traffic feed n client r) (i : NodeId) (envelope : Envelope) :
    Taken.token envelope ∉ r.inbox i := fun hmem ↦ h.arrivals i _ hmem

end Traffic

/-- A token that a node takes is the head of its control queue. -/
theorem Ring.Takes.head {r : Ring α} {l : Label} {envelope : Envelope}
    (htakes : r.Takes l i (.token envelope) sends) (h : Traffic feed n client r) :
    ∃ rest, r.net.control i = envelope :: rest := by
  cases htakes with
  | main hmem => exact absurd hmem (h.token_notMem_inbox i envelope)
  | token hhead => exact ⟨_, hhead⟩

theorem Ring.Takes.mem {r : Ring α} {l : Label} {envelope : Envelope}
    (htakes : r.Takes l i (.token envelope) sends) (h : Traffic feed n client r) :
    envelope ∈ r.net.control i := by
  obtain ⟨rest, hhead⟩ := htakes.head h
  rw [hhead]
  exact List.mem_cons_self

end MoneyLaundering
