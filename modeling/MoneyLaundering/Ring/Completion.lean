import MoneyLaundering.Collections.Around
import MoneyLaundering.Ring.Pending

/-!
# Runs without crashes

When no node dies, every handler runs to its end. A step of the ring is then one of the cases of
`Completion`, and what is kept by each of them is kept by every step: `complete_preserves`.
-/

namespace MoneyLaundering

open WriteAhead Visible StatefulWorker

variable {α : Type}

/-- What a node with the counters `v` sends when it handles a message to the end, and the counters
it is left with. -/
inductive Completion (cfg : NodeConfig) (client : ClientId) (queryId : Option String)
    (v : Observed Unit) : Taken → ℕ → List (Output α) → Observed Unit → Prop
  | duplicate {taken : Taken} {sends : ℕ} (h : ¬taken.Fresh v) :
      Completion cfg client queryId v taken sends [] v
  | data {mid : MessageId} {sends : ℕ} (msgs : List (Message α)) (h : mid ∉ v.seen .main) :
      Completion cfg client queryId v (.data mid) sends (msgs.map .data) (v.count mid msgs.length)
  | eof {mid : MessageId} {marker : EOF} {sends : ℕ} (h : mid ∉ v.seen .main) :
      Completion cfg client queryId v (.eof mid marker) sends
        [.ring cfg.getNextNodeId (startToken client v marker)] (v.report.see .main mid)
  | count {envelope : Envelope} {sends : ℕ} (h : envelope.messageId ∉ v.seen .control)
      (hcoord : envelope.token.ring.coordinatorId = none) :
      Completion cfg client queryId v (.token envelope) sends
        [.ring cfg.getNextNodeId (countToken cfg client v envelope.token)]
        (v.report.see .control envelope.messageId)
  | flush {envelope : Envelope} {coordinatorId : NodeId} (msgs : List (Message α))
      (h : envelope.messageId ∉ v.seen .control)
      (hcoord : envelope.token.ring.coordinatorId = some coordinatorId)
      (hexp : envelope.token.ring.expectedCount ≠ cleanupExpectedCount) :
      Completion cfg client queryId v (.token envelope) msgs.length
        (msgs.map .data ++ [flushOutput cfg client queryId
          (v.sent + msgs.length - v.partialSent) envelope.token coordinatorId])
        ((flushed v msgs.length).see .control envelope.messageId)
  | cleanup {envelope : Envelope} {coordinatorId : NodeId} {sends : ℕ}
      (h : envelope.messageId ∉ v.seen .control)
      (hcoord : envelope.token.ring.coordinatorId = some coordinatorId)
      (hexp : envelope.token.ring.expectedCount = cleanupExpectedCount) :
      Completion cfg client queryId v (.token envelope) sends
        [cleanupOutput cfg client queryId envelope.token coordinatorId] .zero

theorem completion_of_plan {cfg : NodeConfig} {client : ClientId} {queryId : Option String}
    {v : Observed Unit} {taken : Taken} {sends : ℕ}
    {plan : List (Visible (Observed Unit) (Output α))}
    (h : Plan cfg client queryId v taken sends plan) :
    Completion cfg client queryId v taken sends (sent plan) (settle v plan) := by
  cases h with
  | duplicate h => exact .duplicate h
  | data msgs h =>
    rw [sent_record, settle_record]
    exact .data msgs h
  | eof h => exact .eof h
  | count h hcoord => exact .count h hcoord
  | flush msgs h hcoord hexp =>
    rw [sent_record, settle_record]
    exact .flush msgs h hcoord hexp
  | cleanup h hcoord hexp => exact .cleanup h hcoord hexp

/-! ## What is remembered -/

namespace Network

variable {σ : Type} {i : NodeId} {u : Observed σ} {net : Network α} {taken : Taken}
  {outs : List (Output α)}

theorem flushes_publish_foldl (origin : Envelope) (outs : List (Output α)) (net : Network α) :
    (outs.foldl (publish i origin) net).flushes = net.flushes ∧
      (outs.foldl (publish i origin) net).dropped = net.dropped := by
  induction outs generalizing net with
  | nil => exact ⟨rfl, rfl⟩
  | cons o outs ih => exact ih _

theorem flushes_handled : (net.handled i u taken outs).flushes
    = net.flushes ++ if taken.Fresh u ∧ taken.Flushes then [i] else [] := by
  rw [handled, (flushes_publish_foldl taken.origin outs net).1]

theorem dropped_handled : (net.handled i u taken outs).dropped
    = net.dropped ++ if taken.Fresh u ∧ taken.Cleans then [u.processed - u.partialProcessed]
      else [] := by
  rw [handled, (flushes_publish_foldl taken.origin outs net).2]

theorem flushes_handled_of_not (h : ¬taken.Flushes) :
    (net.handled i u taken outs).flushes = net.flushes := by
  rw [flushes_handled, if_neg (fun hfresh ↦ h hfresh.2), List.append_nil]

/-- The only token of a ring is the one that is taken. -/
theorem eq_of_control {i' : NodeId} {envelope envelope' : Envelope} {rest : List Envelope}
    (h : net.control = Function.update (fun _ ↦ []) i' [envelope'])
    (hhead : net.control i = envelope :: rest) : i' = i ∧ envelope' = envelope := by
  rw [h] at hhead
  by_cases hi : i = i'
  · subst hi
    rw [Function.update_self] at hhead
    exact ⟨rfl, (List.cons.inj hhead).1⟩
  · simp [Function.update_of_ne hi] at hhead

/-- The only token of a ring is taken and another one sent. -/
theorem control_relay {envelope : Envelope} {node : NodeId} {token : Token}
    (h : net.control = Function.update (fun _ ↦ []) i [envelope]) (hleaves : ∀ o ∈ outs, o.Leaves) :
    ((net.handled i u taken (outs ++ [.ring node token])).pop i).control
      = Function.update (fun _ ↦ []) node [taken.origin.pass i token] := by
  funext j
  rw [pop]
  simp only [control_handled_ring hleaves, h]
  by_cases hj : j = i
  · subst hj
    by_cases hnode : j = node
    · subst hnode
      simp
    · simp [Function.update_of_ne hnode]
  · by_cases hnode : j = node
    · subst hnode
      simp [Function.update_of_ne hj]
    · simp [Function.update_of_ne hj, Function.update_of_ne hnode]

/-- The only token of a ring is taken and none is sent. -/
theorem control_last {envelope : Envelope}
    (h : net.control = Function.update (fun _ ↦ []) i [envelope]) (hleaves : ∀ o ∈ outs, o.Leaves) :
    ((net.handled i u taken outs).pop i).control = fun _ ↦ [] := by
  funext j
  rw [pop]
  simp only [control_handled_leaves hleaves, h]
  by_cases hj : j = i
  · subst hj
    simp
  · simp [Function.update_of_ne hj]

end Network

/-! ## Steps -/

namespace Ring

variable {r r' : Ring α} {l : Label} {n : ℕ} {client : ClientId} {queryId : Option String}

/-- **What is kept by every step of a run without crashes.** -/
theorem complete_preserves {P : Ring α → Prop} (hstep : Step n client queryId r l r')
    (hl : l.Complete)
    (hmain : ∀ {i before taken after sends outs v}, i < n → r.inbox i = before ++ taken :: after →
      Completion ⟨i, n⟩ client queryId (r.node i) taken sends outs v →
      P { r.react i taken outs v with inbox := Function.update r.inbox i (before ++ after) })
    (htoken : ∀ {i envelope rest sends outs v}, i < n → r.net.control i = envelope :: rest →
      Completion ⟨i, n⟩ client queryId (r.node i) (.token envelope) sends outs v →
      P { r.react i (.token envelope) outs v with
        net := (r.react i (.token envelope) outs v).net.pop i }) : P r' := by
  cases hstep with
  | main hi hinbox hplan hseen hdone =>
    obtain rfl : _ = true := hl
    obtain rfl := hdone rfl
    exact hmain hi hinbox (completion_of_plan hplan)
  | token hi hhead hplan hseen hdone =>
    obtain rfl : _ = true := hl
    obtain rfl := hdone rfl
    exact htoken hi hhead (completion_of_plan hplan)
  | restart hi => exact hl.elim

end Ring

end MoneyLaundering
