import MoneyLaundering.Ring.Accounting
import MoneyLaundering.Ring.Leftovers

/-!
# Nobody flushes twice

A stage is sent one end of its stream and any number of cleanups. The end starts one token, which
goes around until it has a coordinator and then once more, and nothing else starts such a token: a
cleanup makes nodes forget what they have seen, but not the token. So in a run without crashes every
node flushes at most once and the stream is ended at most once, whatever the cleanups do. `Turn`
says where the token is.
-/

namespace MoneyLaundering

open StatefulWorker

variable {α : Type}

/-- The token asks for a flush, and not for a cleanup. -/
def Envelope.Flushing (envelope : Envelope) : Prop :=
  envelope.token.ring.expectedCount ≠ cleanupExpectedCount

instance : DecidablePred Envelope.Flushing := fun _ ↦ instDecidableNot

/-- An end of the stream, and not of a session. -/
def Output.isEnd : Output α → Bool
  | .data _ => false
  | .ring _ _ => false
  | .finalEof _ eof => !isCleanupEof eof

/-- How many ends of the stream were published. -/
def Network.ends (net : Network α) : ℕ := net.outputs.countP fun p ↦ p.2.isEnd

/-- Where the token of a flush is. -/
inductive Turn (n : ℕ) (r : Ring α) : Prop
  | waiting (hstarts : undelivered n Taken.isStart r.inbox ≤ 1)
      (htokens : r.net.queued Envelope.Flushing n = 0) (hflushes : r.net.flushes = [])
      (hends : r.net.ends = 0)
  | counting (j : NodeId) (envelope : Envelope)
      (hstarts : undelivered n Taken.isStart r.inbox = 0)
      (htokens : r.net.queued Envelope.Flushing n = {(j, envelope)})
      (hcoord : envelope.token.ring.coordinatorId = none) (hflushes : r.net.flushes = [])
      (hends : r.net.ends = 0)
  | flushing (k : ℕ) (b : NodeId) (envelope : Envelope) (hk : k < n) (hb : b < n)
      (hstarts : undelivered n Taken.isStart r.inbox = 0)
      (htokens : r.net.queued Envelope.Flushing n = {((b + 1 + k) % n, envelope)})
      (hcoord : envelope.token.ring.coordinatorId = some b)
      (hflushes : r.net.flushes = (List.range k).map fun m ↦ (b + 1 + m) % n)
      (hends : r.net.ends = 0)
  /-- The coordinator has ended the stream, or the token was dropped. -/
  | finished (hstarts : undelivered n Taken.isStart r.inbox = 0)
      (htokens : r.net.queued Envelope.Flushing n = 0) (hflushes : r.net.flushes.Nodup)
      (hends : r.net.ends ≤ 1)

variable {n : ℕ} {client : ClientId} {queryId : Option String} {cfg : NodeConfig} {i : NodeId}
  {taken : Taken} {sends : ℕ} {outs : List (Output α)} {v v' : Observed Unit} {r r' : Ring α}

/-! ## What is published -/

theorem ends_handled (i : NodeId) (u : Observed Unit) (taken : Taken) (outs : List (Output α))
    (net : Network α) :
    (net.handled i u taken outs).ends = net.ends + outs.countP Output.isEnd := by
  rw [Network.ends, Network.outputs_handled, List.countP_append, List.countP_map]
  rfl

theorem countP_isEnd_data (msgs : List (Message α)) :
    (msgs.map Output.data).countP Output.isEnd = 0 := by
  rw [List.countP_eq_zero]
  intro o ho
  obtain ⟨m, -, rfl⟩ := List.mem_map.mp ho
  exact Bool.false_ne_true

theorem countP_isEnd_flush (msgs : List (Message α)) (o : Output α) :
    (msgs.map Output.data ++ [o]).countP Output.isEnd = if o.isEnd then 1 else 0 := by
  rw [List.countP_append, countP_isEnd_data, Nat.zero_add, List.countP_singleton]

theorem queued_ring_flushing {origin : Envelope} (node : NodeId) (token : Token)
    (h : token.ring.expectedCount ≠ cleanupExpectedCount) :
    (Output.ring node token : Output α).queued Envelope.Flushing i origin
      = {(node, origin.pass i token)} := if_pos h

theorem queued_ring_cleanup {origin : Envelope} (node : NodeId) (token : Token)
    (h : token.ring.expectedCount = cleanupExpectedCount) :
    (Output.ring node token : Output α).queued Envelope.Flushing i origin = 0 :=
  if_neg (not_not_intro h)

/-- A node that is not the coordinator passes the token on. -/
theorem flushOutput_of_ne (client : ClientId) (queryId : Option String) (sent : ℤ) (token : Token)
    {coordinatorId : NodeId} (h : coordinatorId ≠ cfg.nodeId) :
    (flushOutput cfg client queryId sent token coordinatorId : Output α)
      = .ring cfg.getNextNodeId (flushToken client sent token) := if_neg h

namespace Turn

/-- Nothing of it has changed. -/
theorem quiet (h : Turn n r)
    (hstarts : undelivered n Taken.isStart r'.inbox ≤ undelivered n Taken.isStart r.inbox)
    (htokens : r'.net.queued Envelope.Flushing n = r.net.queued Envelope.Flushing n)
    (hflushes : r'.net.flushes = r.net.flushes) (hends : r'.net.ends = r.net.ends) : Turn n r' := by
  cases h with
  | waiting hs ht hf he =>
    exact .waiting (hstarts.trans hs) (htokens.trans ht) (hflushes.trans hf) (hends.trans he)
  | counting j envelope hs ht hcoord hf he =>
    exact .counting j envelope (Nat.le_zero.mp (hs ▸ hstarts)) (htokens.trans ht) hcoord
      (hflushes.trans hf) (hends.trans he)
  | flushing k b envelope hk hb hs ht hcoord hf he =>
    exact .flushing k b envelope hk hb (Nat.le_zero.mp (hs ▸ hstarts)) (htokens.trans ht) hcoord
      (hflushes.trans hf) (hends.trans he)
  | finished hs ht hf he =>
    exact .finished (Nat.le_zero.mp (hs ▸ hstarts)) (htokens.trans ht) (hflushes ▸ hf) (hends ▸ he)

theorem nodup (h : Turn n r) : r.net.flushes.Nodup := by
  cases h with
  | waiting hs ht hf he => rw [hf]; exact List.nodup_nil
  | counting j envelope hs ht hcoord hf he => rw [hf]; exact List.nodup_nil
  | flushing k b envelope hk hb hs ht hcoord hf he =>
    rw [hf]
    exact Around.nodup_map hk.le (b + 1)
  | finished hs ht hf he => exact hf

theorem ends_le (h : Turn n r) : r.net.ends ≤ 1 := by
  cases h with
  | waiting hs ht hf he => omega
  | counting j envelope hs ht hcoord hf he => omega
  | flushing k b envelope hk hb hs ht hcoord hf he => omega
  | finished hs ht hf he => exact he

/-! ## One message -/

/-- A message of the main queue. -/
theorem main (h : Turn n r) (hi : i < n) {before after : List Taken}
    (hinbox : r.inbox i = before ++ taken :: after)
    (hmain : ∀ envelope, taken ≠ .token envelope)
    (hcompletion : Completion ⟨i, n⟩ client queryId (r.node i) taken sends outs v) :
    Turn n { r.react i taken outs v with
      inbox := Function.update r.inbox i (before ++ after) } := by
  have hstarts := undelivered_update hi hinbox Taken.isStart
  have hle : undelivered n Taken.isStart (Function.update r.inbox i (before ++ after))
      ≤ undelivered n Taken.isStart r.inbox := by omega
  have hnot : ¬taken.Flushes := by
    cases taken with
    | data mid => exact id
    | eof mid marker => exact id
    | token envelope => exact absurd rfl (hmain envelope)
  have hflushes : (r.net.handled i (r.node i) taken outs).flushes = r.net.flushes :=
    Network.flushes_handled_of_not hnot
  have hends := ends_handled i (r.node i) taken outs r.net
  have htokens : (r.net.handled i (r.node i) taken outs).queued Envelope.Flushing n
      = r.net.queued Envelope.Flushing n
        + (outs.map (Output.queued Envelope.Flushing i taken.origin)).sum :=
    Network.queued_handled _ fun _ _ ↦ ring_lt_of_completion hi hcompletion
  cases hcompletion with
  | duplicate hseen =>
    rw [List.map_nil, List.sum_nil, add_zero] at htokens
    exact h.quiet hle htokens hflushes hends
  | data msgs hseen =>
    rw [sum_queued_leaves _ (leaves_map_data msgs), add_zero] at htokens
    rw [countP_isEnd_data, Nat.add_zero] at hends
    exact h.quiet hle htokens hflushes hends
  | @eof mid marker _ hseen =>
    rw [List.countP_singleton, Output.isEnd, if_neg Bool.false_ne_true, Nat.add_zero] at hends
    rw [List.map_singleton, List.sum_singleton] at htokens
    by_cases hexp : marker.messageCount = cleanupExpectedCount
    · -- a cleanup starts a token of its own
      rw [queued_ring_cleanup _ _ hexp, add_zero] at htokens
      exact h.quiet hle htokens hflushes hends
    · rw [queued_ring_flushing _ _ hexp] at htokens
      have hstart : Taken.isStart (.eof mid marker) = true := decide_eq_true hexp
      rw [hstart, if_pos rfl] at hstarts
      cases h with
      | waiting hs ht hf he =>
        rw [ht, zero_add] at htokens
        have hzero :
            undelivered n Taken.isStart (Function.update r.inbox i (before ++ after)) = 0 := by
          omega
        exact .counting _ _ hzero htokens rfl (hflushes.trans hf) (hends.trans he)
      | counting j envelope hs ht hcoord hf he => omega
      | flushing k b envelope hk hb hs ht hcoord hf he => omega
      | finished hs ht hf he => omega
  | count hseen hcoord => exact absurd rfl (hmain _)
  | flush msgs hseen hcoord hexp => exact absurd rfl (hmain _)
  | cleanup hseen hcoord hexp => exact absurd rfl (hmain _)

/-- The token of a flush is taken. -/
theorem token_flushing (h : Turn n r) (hi : i < n) {envelope : Envelope}
    (hmem : (i, envelope) ∈ r.net.queued Envelope.Flushing n) (hflushing : envelope.Flushing)
    {net : Network α}
    (htokens : net.queued Envelope.Flushing n + {(i, envelope)} = r.net.queued Envelope.Flushing n
      + (outs.map (Output.queued Envelope.Flushing i envelope)).sum)
    (hflushes : net.flushes = r.net.flushes
      ++ if (Taken.token envelope).Fresh (r.node i) ∧
        (Taken.token envelope).Flushes then [i] else [])
    (hends : net.ends = r.net.ends + outs.countP Output.isEnd)
    (hcompletion : Completion ⟨i, n⟩ client queryId (r.node i) (.token envelope) sends outs v) :
    Turn n ⟨Function.update r.node i v, r.inbox, net⟩ := by
  cases h with
  | waiting hs ht hf he => exact absurd (ht ▸ hmem) (Multiset.notMem_zero _)
  | finished hs ht hf he => exact absurd (ht ▸ hmem) (Multiset.notMem_zero _)
  | counting j envelope' hs ht hcoord hf he =>
    rw [ht, Multiset.mem_singleton] at hmem
    obtain ⟨rfl, rfl⟩ := Prod.mk.inj hmem
    rw [ht, add_comm, add_right_inj] at htokens
    have hnot : ¬(Taken.token envelope).Flushes := fun hflushes ↦ hflushes.1 hcoord
    rw [if_neg fun hfresh ↦ hnot hfresh.2, List.append_nil] at hflushes
    cases hcompletion with
    | duplicate hseen =>
      -- the token is lost before any node has flushed
      exact .finished hs htokens (by rw [hflushes, hf]; exact List.nodup_nil) (by
        rw [hends, he]
        exact Nat.zero_le 1)
    | count hseen hcoord' =>
      have hcounted : (countToken ⟨i, n⟩ client (r.node i) envelope.token).ring.expectedCount
          ≠ cleanupExpectedCount := hflushing
      rw [List.map_singleton, List.sum_singleton, queued_ring_flushing _ _ hcounted] at htokens
      rw [List.countP_singleton, Output.isEnd, if_neg Bool.false_ne_true, he] at hends
      by_cases helected : envelope.token.ring.expectedCount
          ≤ envelope.token.ring.totalProcessedCount + (r.node i).processed
            - (r.node i).partialProcessed
      · -- the node finds that nothing is missing, and the flush begins after it
        have hsome : (countToken ⟨i, n⟩ client (r.node i) envelope.token).ring.coordinatorId
            = some i := if_pos helected
        exact .flushing 0 i _ (Nat.zero_lt_of_lt hi) hi hs htokens hsome (hflushes.trans hf) hends
      · have hnone : (countToken ⟨i, n⟩ client (r.node i) envelope.token).ring.coordinatorId
            = none := if_neg helected
        exact .counting _ _ hs htokens hnone (hflushes.trans hf) hends
    | flush msgs hseen hcoord' hexp => exact absurd (hcoord.symm.trans hcoord') (by simp)
    | cleanup hseen hcoord' hexp => exact absurd hexp hflushing
  | flushing k b envelope' hk hb hs ht hcoord hf he =>
    rw [ht, Multiset.mem_singleton] at hmem
    obtain ⟨rfl, rfl⟩ := Prod.mk.inj hmem
    rw [ht, add_comm, add_right_inj] at htokens
    cases hcompletion with
    | duplicate hseen =>
      -- the token is lost on its lap, and the stream is never ended
      rw [if_neg fun hfresh ↦ hseen hfresh.1, List.append_nil, hf] at hflushes
      exact .finished hs htokens (by rw [hflushes]; exact Around.nodup_map hk.le (b + 1)) (by
        rw [hends, he]
        exact Nat.zero_le 1)
    | count hseen hcoord' => exact absurd (hcoord'.symm.trans hcoord) (by simp)
    | cleanup hseen hcoord' hexp => exact absurd hexp hflushing
    | @flush _ coordinatorId msgs hseen hcoord' hexp =>
      obtain rfl := Option.some.inj (hcoord'.symm.trans hcoord)
      have hflushes' : net.flushes
          = (List.range (k + 1)).map fun m ↦ (coordinatorId + 1 + m) % n := by
        rw [hflushes, hf, if_pos ⟨hseen, by simp [hcoord], hexp⟩, List.range_succ, List.map_append,
          List.map_singleton]
      rw [sum_queued_data] at htokens
      rw [countP_isEnd_flush, he, Nat.zero_add] at hends
      by_cases hlast : coordinatorId = (coordinatorId + 1 + k) % n
      · -- the lap is over
        rw [flushOutput, if_pos hlast] at htokens
        refine .finished hs htokens ?_ ?_
        · rw [hflushes']
          exact Around.nodup_map hk (coordinatorId + 1)
        · rw [hends]
          split <;> omega
      · have hring : (flushOutput ⟨(coordinatorId + 1 + k) % n, n⟩ client queryId
            ((r.node ((coordinatorId + 1 + k) % n)).sent + msgs.length
              - (r.node ((coordinatorId + 1 + k) % n)).partialSent) envelope.token coordinatorId :
              Output α) = _ := flushOutput_of_ne client queryId _ envelope.token hlast
        rw [hring, queued_ring_flushing _ (flushToken client _ envelope.token) hexp] at htokens
        rw [hring, if_neg (show ¬(Output.ring _ _ : Output α).isEnd = true from Bool.false_ne_true)]
          at hends
        have hlt : k + 1 < n := by
          refine lt_of_le_of_ne hk fun heq ↦ hlast ?_
          have hround : coordinatorId + 1 + k = coordinatorId + n := by
            rw [← heq, Nat.add_assoc, Nat.add_comm 1 k]
          rw [hround, Nat.add_mod_right, Nat.mod_eq_of_lt hb]
        have hnext : (coordinatorId + 1 + (k + 1)) % n
            = (⟨(coordinatorId + 1 + k) % n, n⟩ : NodeConfig).getNextNodeId :=
              Around.next_step _ _ _
        exact .flushing (k + 1) coordinatorId (envelope.pass ((coordinatorId + 1 + k) % n)
          (flushToken client _ envelope.token)) hlt hb hs (hnext ▸ htokens) hcoord hflushes' hends

/-- What belongs to a cleanup sends no token of a flush. -/
theorem sum_queued_cleanup {envelope : Envelope}
    (hexp : envelope.token.ring.expectedCount = cleanupExpectedCount)
    (hcompletion : Completion cfg client queryId v (.token envelope) sends outs v') :
    (outs.map (Output.queued Envelope.Flushing i envelope)).sum = 0 ∧
      outs.countP Output.isEnd = 0 := by
  cases hcompletion with
  | duplicate hseen => exact ⟨rfl, rfl⟩
  | count hseen hcoord =>
    refine ⟨?_, rfl⟩
    rw [List.map_singleton, List.sum_singleton]
    exact queued_ring_cleanup _ _ hexp
  | flush msgs hseen hcoord hexp' => exact absurd hexp hexp'
  | cleanup hseen hcoord hexp' =>
    rw [List.map_singleton, List.sum_singleton, List.countP_singleton, cleanupOutput]
    split
    · exact ⟨rfl, rfl⟩
    · exact ⟨queued_ring_cleanup _ _ hexp, rfl⟩

theorem token (h : Turn n r) (hi : i < n) {envelope : Envelope} {rest : List Envelope}
    (hhead : r.net.control i = envelope :: rest)
    (hcompletion : Completion ⟨i, n⟩ client queryId (r.node i) (.token envelope) sends outs v) :
    Turn n { r.react i (.token envelope) outs v with
      net := (r.react i (.token envelope) outs v).net.pop i } := by
  have htokens : ((r.net.handled i (r.node i) (.token envelope) outs).pop i).queued
        Envelope.Flushing n + (if envelope.Flushing then {(i, envelope)} else 0)
      = r.net.queued Envelope.Flushing n
        + (outs.map (Output.queued Envelope.Flushing i envelope)).sum :=
    Network.queued_relay _ hi hhead fun _ _ ↦ ring_lt_of_completion hi hcompletion
  have hends := ends_handled i (r.node i) (.token envelope) outs r.net
  by_cases hflushing : envelope.Flushing
  · rw [if_pos hflushing] at htokens
    have hmem : envelope ∈ r.net.control i := by
      rw [hhead]
      exact List.mem_cons_self
    exact h.token_flushing hi (Network.mem_queued _ hi hmem hflushing) hflushing htokens
      Network.flushes_handled hends hcompletion
  · have hexp : envelope.token.ring.expectedCount = cleanupExpectedCount := not_not.mp hflushing
    obtain ⟨hsum, hcount⟩ := sum_queued_cleanup (i := i) hexp hcompletion
    rw [if_neg hflushing, hsum, add_zero, add_zero] at htokens
    rw [hcount, Nat.add_zero] at hends
    exact h.quiet le_rfl htokens
      (Network.flushes_handled_of_not fun hflushes ↦ hflushing hflushes.2)
      hends

end Turn

/-! ## Runs -/

/-- The id of an end that a node publishes tells what it is the end of. -/
theorem finalEof_of_completion (h : Completion cfg client queryId v taken sends outs v')
    {mid : MessageId} {eof : EOF} (hmem : .finalEof mid eof ∈ outs) :
    mid = finalEofId client eof queryId := by
  have hdata : ∀ msgs : List (Message α), .finalEof mid eof ∉ msgs.map Output.data := by simp
  cases h with
  | duplicate hseen => exact absurd hmem List.not_mem_nil
  | data msgs hseen => exact absurd hmem (hdata msgs)
  | eof hseen => simp at hmem
  | count hseen hcoord => simp at hmem
  | flush msgs hseen hcoord hexp =>
    rcases List.mem_append.mp hmem with hmem | hmem
    · exact absurd hmem (hdata msgs)
    · rw [List.mem_singleton, flushOutput] at hmem
      split at hmem
      · obtain ⟨rfl, rfl⟩ := Output.finalEof.inj hmem
        rfl
      · simp at hmem
  | cleanup hseen hcoord hexp =>
    rw [List.mem_singleton, cleanupOutput] at hmem
    split at hmem
    · obtain ⟨rfl, rfl⟩ := Output.finalEof.inj hmem
      rfl
    · simp at hmem

/-- The invariant of runs without crashes. -/
structure Turns (n : ℕ) (client : ClientId) (queryId : Option String) (r : Ring α) : Prop where
  arrivals : ∀ i envelope, Taken.token envelope ∉ r.inbox i
  turn : Turn n r
  finals : ∀ i mid eof, (i, .finalEof mid eof) ∈ r.net.outputs → mid = finalEofId client eof queryId

namespace Turns

theorem init {inbox : NodeId → List Taken}
    (hmain : ∀ i envelope, Taken.token envelope ∉ inbox i)
    (hstarts : undelivered n Taken.isStart inbox ≤ 1) :
    Turns n client queryId (Ring.init inbox : Ring α) where
  arrivals := hmain
  turn := .waiting hstarts (Network.queued_empty _) rfl rfl
  finals _ _ _ h := absurd h List.not_mem_nil

theorem step {l : Label} (h : Turns n client queryId r) (hl : l.Complete)
    (hstep : Ring.Step n client queryId r l r') : Turns n client queryId r' := by
  have hfinals : ∀ {i taken sends outs v},
      Completion ⟨i, n⟩ client queryId (r.node i) taken sends outs v →
      ∀ j mid eof, (j, .finalEof mid eof) ∈ (r.net.handled i (r.node i) taken outs).outputs →
        mid = finalEofId client eof queryId := by
    intro i taken sends outs v hcompletion j mid eof hmem
    rw [Network.outputs_handled, List.mem_append] at hmem
    rcases hmem with hmem | hmem
    · exact h.finals j mid eof hmem
    · obtain ⟨o, ho, heq⟩ := List.mem_map.mp hmem
      obtain ⟨-, rfl⟩ := Prod.mk.inj heq
      exact finalEof_of_completion hcompletion ho
  refine Ring.complete_preserves (P := Turns n client queryId) hstep hl ?_ ?_
  · intro i before taken after sends outs v hi hinbox hcompletion
    have hmem : taken ∈ r.inbox i := by simp [hinbox]
    refine ⟨Family.forall_update
      (P := fun _ (messages : List Taken) ↦ ∀ envelope, Taken.token envelope ∉ messages) h.arrivals
      fun envelope hmem ↦ h.arrivals i envelope ?_, h.turn.main hi hinbox
        (fun envelope heq ↦ h.arrivals i envelope (heq ▸ hmem)) hcompletion, hfinals hcompletion⟩
    rw [hinbox]
    exact List.mem_append.mpr ((List.mem_append.mp hmem).imp_right (List.mem_cons_of_mem _))
  · intro i envelope rest sends outs v hi hhead hcompletion
    exact ⟨h.arrivals, h.turn.token hi hhead hcompletion, hfinals hcompletion⟩

end Turns

/-! ## Nothing new is discarded -/

/-- Two messages have different ids, unless both belong to cleanups. -/
def Taken.Differ (taken taken' : Taken) : Prop :=
  (taken.Cleans ∧ taken'.Cleans) ∨ taken.id ≠ taken'.id

/-- What is in a queue and does not belong to a cleanup was not seen on the main channel. -/
structure Unseen (r : Ring α) : Prop where
  arrivals : ∀ i envelope, Taken.token envelope ∉ r.inbox i
  differ : ∀ i, (r.inbox i).Pairwise Taken.Differ
  unseen : ∀ i, ∀ taken ∈ r.inbox i, ¬taken.Cleans → taken.id ∉ (r.node i).seen .main

namespace Unseen

theorem init {inbox : NodeId → List Taken}
    (hmain : ∀ i envelope, Taken.token envelope ∉ inbox i)
    (hdiffer : ∀ i, (inbox i).Pairwise Taken.Differ) : Unseen (Ring.init inbox : Ring α) where
  arrivals := hmain
  differ := hdiffer
  unseen i taken _ _ := by simp [Ring.init, Observed.zero]

theorem step {l : Label} (h : Unseen r) (hl : l.Complete)
    (hstep : Ring.Step n client queryId r l r') : Unseen r' := by
  refine Ring.complete_preserves (P := Unseen) hstep hl ?_ ?_
  · intro i before taken after sends outs v hi hinbox hcompletion
    have hsub : (before ++ after).Sublist (r.inbox i) := by
      rw [hinbox]
      exact (List.sublist_cons_self taken after).append_left before
    have hdiffer := h.differ i
    rw [hinbox, List.pairwise_append, List.pairwise_cons] at hdiffer
    obtain ⟨-, ⟨hafter, -⟩, hbefore⟩ := hdiffer
    refine ⟨Family.forall_update
      (P := fun _ (messages : List Taken) ↦ ∀ envelope, Taken.token envelope ∉ messages) h.arrivals
      fun envelope hmem ↦ h.arrivals i envelope (hsub.subset hmem),
      Family.forall_update (P := fun _ (messages : List Taken) ↦ messages.Pairwise Taken.Differ)
        h.differ ((h.differ i).sublist hsub), fun j taken' hmem hcleans ↦ ?_⟩
    by_cases hj : j = i
    · subst hj
      simp only [Function.update_self] at hmem
      simp only [Ring.node_react_self]
      intro hseen
      rcases Finset.mem_insert.mp ((seen_of_completion hcompletion).1 hseen) with heq | hseen
      · -- the message that was taken is another one
        rcases List.mem_append.mp hmem with hmem | hmem
        · exact (hbefore taken' hmem taken List.mem_cons_self).elim (fun hc ↦ hcleans hc.1)
            fun hne ↦ hne heq
        · exact (hafter taken' hmem).elim (fun hc ↦ hcleans hc.2) fun hne ↦ hne heq.symm
      · exact h.unseen j taken' (hsub.subset hmem) hcleans hseen
    · simp only [Function.update_of_ne hj] at hmem
      simp only [Ring.node_react_of_ne hj]
      exact h.unseen j taken' hmem hcleans
  · intro i envelope rest sends outs v hi hhead hcompletion
    refine ⟨h.arrivals, h.differ, fun j taken hmem hcleans ↦ ?_⟩
    by_cases hj : j = i
    · subst hj
      simp only [Ring.node_react_self]
      exact fun hseen ↦ h.unseen j taken hmem hcleans
        ((seen_of_completion hcompletion).2 ⟨_, rfl⟩ hseen)
    · simp only [Ring.node_react_of_ne hj]
      exact h.unseen j taken hmem hcleans

end Unseen

end MoneyLaundering
