import MoneyLaundering.Collections.DedupQueue
import MoneyLaundering.Ring.Traffic

/-!
# The tokens that will be accepted

A token is dropped when its id was seen, and ids are seen for good. Of the copies of a token in a
control queue, only the first can be accepted, and only if its id was not seen: such a token is
*pending*. This module follows the pending tokens of a counting phase through a step.
-/

namespace MoneyLaundering

open WriteAhead StatefulWorker

variable {α : Type} {n : ℕ} {client : ClientId} {queryId : Option String} {i j : NodeId}
  {taken : Taken} {sends : ℕ} {outs : List (Output α)} {v : Observed Unit}

/-- The counting token in the queue of node `i`, after `before`, will be accepted. -/
def Ring.Pending (r : Ring α) (i : NodeId) (before : List Envelope) (envelope : Envelope) : Prop :=
  envelope.Counting ∧ DedupQueue.Pending Envelope.messageId ((r.node i).seen .control)
    before envelope
    (r.net.control i)

theorem Ring.Pending.mem {r : Ring α} {before : List Envelope} {envelope : Envelope}
    (h : r.Pending i before envelope) : envelope ∈ r.net.control i := h.2.mem

theorem pending_head {r : Ring α} {envelope : Envelope} {rest : List Envelope}
    (hhead : r.net.control i = envelope :: rest) (hcounting : envelope.Counting)
    (hfresh : envelope.messageId ∉ (r.node i).seen .control) : r.Pending i [] envelope := by
  refine ⟨hcounting, ?_⟩
  rw [hhead]
  exact DedupQueue.pending_head hfresh

/-- A pending token with the id of the head of its queue is the head. -/
theorem Ring.Pending.eq_head {r : Ring α} {before : List Envelope} {envelope head : Envelope}
    {rest : List Envelope} (h : r.Pending i before envelope)
    (hhead : r.net.control i = head :: rest)
    (hid : envelope.messageId = head.messageId) : before = [] ∧ envelope = head := by
  have hpre := h.2.isPrefix
  rw [hhead] at hpre
  cases before with
  | nil => exact ⟨rfl, (List.cons_prefix_cons.mp hpre).1⟩
  | cons first before =>
    obtain ⟨rfl, -⟩ := List.cons_prefix_cons.mp hpre
    exact absurd (hid ▸ List.mem_cons_self) h.2.first

/-- A reaction sends at most one token. -/
theorem control_of_reaction {cfg : NodeConfig} {u : Observed Unit}
    (h : Reaction cfg client queryId u taken sends outs v) (net : Network α) (j : NodeId) :
    (net.handled i u taken outs).control j = net.control j ∨
      ∃ token, .ring j token ∈ outs ∧
        (net.handled i u taken outs).control j = net.control j ++ [taken.origin.pass i token] := by
  have hring : ∀ leaves : List (Output α), (∀ o ∈ leaves, o.Leaves) → ∀ node token,
      (net.handled i u taken (leaves ++ [.ring node token])).control j = net.control j ∨
      ∃ token', .ring j token' ∈ leaves ++ [.ring node token] ∧
        (net.handled i u taken (leaves ++ [.ring node token])).control j
          = net.control j ++ [taken.origin.pass i token'] := by
    intro leaves hleaves node token
    rw [Network.control_handled_ring hleaves]
    by_cases hj : j = node
    · subst hj
      exact Or.inr ⟨token, by simp, Function.update_self _ _ _⟩
    · exact Or.inl (Function.update_of_ne hj _ _)
  cases h with
  | nothing outs h => exact Or.inl (congrFun (Network.control_handled_leaves h) j)
  | data msgs h => exact Or.inl (congrFun (Network.control_handled_leaves (leaves_map_data msgs)) j)
  | start h hv => exact hring [] leaves_nil _ _
  | count h hcoord hv => exact hring [] leaves_nil _ _
  | @flush envelope coordinatorId _ msgs h hcoord hv =>
    rw [flushOutput]
    split
    · refine Or.inl (congrFun (Network.control_handled_leaves fun o ho ↦ ?_) j)
      rcases List.mem_append.mp ho with ho | ho
      · exact leaves_map_data msgs o ho
      · rw [List.mem_singleton.mp ho]
        exact trivial
    · exact hring _ (leaves_map_data msgs) _ _

namespace Ring

variable {r : Ring α} {before : List Envelope} {envelope : Envelope}

/-- The seen set of a node grows with a reaction of a node. -/
theorem seen_react (hv : ∀ ch, (r.node i).seen ch ⊆ v.seen ch) (j : NodeId) (ch : Channel) :
    (r.node j).seen ch ⊆ ((r.react i taken outs v).node j).seen ch :=
  Family.forall_update (P := fun j (u : Observed Unit) ↦ (r.node j).seen ch ⊆ u.seen ch)
    (fun _ ↦ Finset.Subset.refl _) (hv ch) j

/-- After a reaction, a pending token was pending before, or is the one that was sent and has a new
id. -/
theorem pending_of_react (hreaction : Reaction ⟨i, n⟩ client queryId (r.node i) taken sends outs v)
    (hmarks : (r.node i).Marked) (h : (r.react i taken outs v).Pending j before envelope) :
    r.Pending j before envelope ∨
      ∃ token, .ring j token ∈ outs ∧ before = r.net.control j ∧
        envelope = taken.origin.pass i token ∧
        envelope.messageId ∉ (r.node j).seen .control ∧
        envelope.messageId ∉ (r.net.control j).map Envelope.messageId := by
  obtain ⟨hcounting, hpending⟩ := h
  have hpending := hpending.mono
    (seen_react (grows_of_reaction hreaction hmarks).seen j .control)
  rcases control_of_reaction hreaction r.net j with heq | ⟨token, hmem, heq⟩
  · rw [react, heq] at hpending
    exact Or.inl ⟨hcounting, hpending⟩
  · rw [react, heq] at hpending
    rcases DedupQueue.pending_append hpending with hpending | ⟨rfl, rfl, hunseen, hfirst⟩
    · exact Or.inl ⟨hcounting, hpending⟩
    · exact Or.inr ⟨token, hmem, rfl, rfl, hunseen, hfirst⟩

/-- A pending token stays pending unless its id is now seen. -/
theorem Pending.react (h : r.Pending j before envelope)
    (hunseen : envelope.messageId ∉ ((r.react i taken outs v).node j).seen .control) :
    (r.react i taken outs v).Pending j before envelope := by
  obtain ⟨hcounting, hpre, -, hfirst⟩ := h
  exact ⟨hcounting, hpre.trans (Network.control_handled_prefix j), hunseen, hfirst⟩

/-- When a seen token leaves its queue, the pending tokens are those that were pending before. -/
theorem pending_of_pop {head : Envelope} {rest : List Envelope}
    (hhead : r.net.control i = head :: rest) (hseen : head.messageId ∈ (r.node i).seen .control)
    (h : ({ r with net := r.net.pop i } : Ring α).Pending j before envelope) :
    r.Pending j (if j = i then head :: before else before) envelope := by
  obtain ⟨hcounting, hpending⟩ := h
  by_cases hj : j = i
  · subst hj
    rw [Network.control_pop_self hhead] at hpending
    refine ⟨hcounting, ?_⟩
    rw [if_pos rfl, hhead]
    exact hpending.cons hseen
  · rw [Network.control_pop_of_ne hj] at hpending
    rw [if_neg hj]
    exact ⟨hcounting, hpending⟩

theorem Pending.pop {head : Envelope} {rest : List Envelope}
    (hhead : r.net.control i = head :: rest) (hseen : head.messageId ∈ (r.node i).seen .control)
    (h : r.Pending j before envelope) :
    ∃ before', before = (if j = i then head :: before' else before') ∧
      ({ r with net := r.net.pop i } : Ring α).Pending j before' envelope := by
  obtain ⟨hcounting, hpending⟩ := h
  by_cases hj : j = i
  · subst hj
    rw [hhead] at hpending
    obtain ⟨before', rfl, hrest⟩ := DedupQueue.pending_cons hpending hseen
    refine ⟨before', (if_pos rfl).symm, hcounting, ?_⟩
    rw [Network.control_pop_self hhead]
    exact hrest
  · refine ⟨before, (if_neg hj).symm, hcounting, ?_⟩
    rw [Network.control_pop_of_ne hj]
    exact hpending

end Ring

end MoneyLaundering
