import MoneyLaundering.Ring.Completion

/-!
# Tokens in the queues

The tokens of a kind that are in the control queues of a ring, each with the node it is queued for.
A node that takes a token and sends another one changes this by just these two (`queued_relay`).
-/

namespace MoneyLaundering

open StatefulWorker

variable {α σ : Type} {n : ℕ} {i : NodeId} {u : Observed σ} {taken : Taken} {outs : List (Output α)}
  {net : Network α} (P : Envelope → Prop) [DecidablePred P]

/-- The token of a kind that an output puts into a queue. -/
def Output.queued (i : NodeId) (origin : Envelope) : Output α → Multiset (NodeId × Envelope)
  | .ring node token => if P (origin.pass i token) then {(node, origin.pass i token)} else 0
  | .data _ => 0
  | .finalEof _ _ => 0

/-- The tokens of a kind in the queue of a node. -/
def queuedFor (j : NodeId) (queue : List Envelope) : Multiset (NodeId × Envelope) :=
  ((queue.filter fun envelope ↦ P envelope : List Envelope) : Multiset Envelope).map (Prod.mk j)

theorem queuedFor_append (j : NodeId) (queue queue' : List Envelope) :
    queuedFor P j (queue ++ queue') = queuedFor P j queue + queuedFor P j queue' := by
  rw [queuedFor, List.filter_append, ← Multiset.coe_add, Multiset.map_add]
  rfl

theorem queuedFor_singleton (j : NodeId) (envelope : Envelope) :
    queuedFor P j [envelope] = if P envelope then {(j, envelope)} else 0 := by
  by_cases h : P envelope <;> simp [queuedFor, h]

theorem sum_queued_leaves (h : ∀ o ∈ outs, o.Leaves) (origin : Envelope) :
    (outs.map (Output.queued P i origin)).sum = 0 := by
  refine List.sum_eq_zero fun tokens htokens ↦ ?_
  obtain ⟨o, ho, rfl⟩ := List.mem_map.mp htokens
  have hleaves := h o ho
  cases o with
  | data m => rfl
  | ring node token => exact hleaves.elim
  | finalEof messageId eof => rfl

theorem sum_queued_data (msgs : List (Message α)) (o : Output α) (origin : Envelope) :
    ((msgs.map Output.data ++ [o]).map (Output.queued P i origin)).sum = o.queued P i origin := by
  rw [List.map_append, List.sum_append, sum_queued_leaves P (leaves_map_data msgs)]
  simp

namespace Network

/-- The tokens of a kind in the queues of `n` nodes. -/
def queued (n : ℕ) (net : Network α) : Multiset (NodeId × Envelope) :=
  ∑ j ∈ Finset.range n, queuedFor P j (net.control j)

@[simp] theorem queued_empty : (empty : Network α).queued P n = 0 :=
  Finset.sum_eq_zero fun _ _ ↦ rfl

theorem mem_queued {envelope : Envelope} (hi : i < n) (hmem : envelope ∈ net.control i)
    (h : P envelope) : (i, envelope) ∈ net.queued P n := by
  rw [queued, Multiset.mem_sum]
  exact ⟨i, Finset.mem_range.mpr hi, by simp [queuedFor, hmem, h]⟩

/-- One queue is changed. -/
theorem sum_queuedFor_update (hi : i < n) (control : NodeId → List Envelope)
    (queue : List Envelope) :
    ∑ j ∈ Finset.range n, queuedFor P j (Function.update control i queue j)
        + queuedFor P i (control i)
      = ∑ j ∈ Finset.range n, queuedFor P j (control j) + queuedFor P i queue := by
  rw [← Finset.add_sum_erase _ _ (Finset.mem_range.mpr hi),
    ← Finset.add_sum_erase _ (fun j ↦ queuedFor P j (control j)) (Finset.mem_range.mpr hi),
    Function.update_self]
  have hrest : ∑ j ∈ (Finset.range n).erase i, queuedFor P j (Function.update control i queue j)
      = ∑ j ∈ (Finset.range n).erase i, queuedFor P j (control j) :=
    Finset.sum_congr rfl fun j hj ↦ by rw [Function.update_of_ne (Finset.ne_of_mem_erase hj)]
  rw [hrest]
  abel

theorem queued_handled (h : ∀ node token, .ring node token ∈ outs → node < n) :
    (net.handled i u taken outs).queued P n
      = net.queued P n + (outs.map (Output.queued P i taken.origin)).sum := by
  have hfold : ∀ net : Network α, (outs.foldl (publish i taken.origin) net).queued P n
      = net.queued P n + (outs.map (Output.queued P i taken.origin)).sum := by
    induction outs with
    | nil => simp
    | cons o outs ih =>
      intro net
      rw [List.foldl_cons, ih fun node token hmem ↦ h node token (List.mem_cons_of_mem _ hmem),
        List.map_cons, List.sum_cons, ← add_assoc]
      congr 1
      cases o with
      | data m => simp [publish, Output.queued, queued]
      | finalEof messageId eof => simp [publish, Output.queued, queued]
      | ring node token =>
        have hsum := sum_queuedFor_update P (h node token List.mem_cons_self) net.control
          (net.control node ++ [taken.origin.pass i token])
        rw [queuedFor_append, queuedFor_singleton, add_comm (queuedFor P node (net.control node)),
          ← add_assoc] at hsum
        exact add_right_cancel hsum
  exact hfold net

theorem queued_pop {envelope : Envelope} {rest : List Envelope} (hi : i < n)
    (hhead : net.control i = envelope :: rest) :
    net.queued P n = (net.pop i).queued P n + if P envelope then {(i, envelope)} else 0 := by
  have hsum := sum_queuedFor_update P hi net.control (net.control i).tail
  rw [hhead, List.tail_cons, ← List.singleton_append, queuedFor_append, queuedFor_singleton,
    ← add_assoc] at hsum
  have hcancel := add_right_cancel hsum
  rw [queued, queued, pop, hhead]
  exact hcancel.symm

/-- What is left of the queues, with the token that was taken, is what there was, with what was
sent. -/
theorem queued_relay {envelope : Envelope} {rest : List Envelope} (hi : i < n)
    (hhead : net.control i = envelope :: rest)
    (h : ∀ node token, .ring node token ∈ outs → node < n) :
    ((net.handled i u taken outs).pop i).queued P n + (if P envelope then {(i, envelope)} else 0)
      = net.queued P n + (outs.map (Output.queued P i taken.origin)).sum := by
  have hpre : net.control i <+: (net.handled i u taken outs).control i := control_handled_prefix i
  obtain ⟨added, hadded⟩ := hpre
  rw [hhead] at hadded
  rw [← queued_handled P h, queued_pop P hi hadded.symm]

end Network

end MoneyLaundering
