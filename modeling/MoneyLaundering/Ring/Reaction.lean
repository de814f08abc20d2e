import MoneyLaundering.Ring.Counters

/-!
# What one step of a ring can do

Every plan sends first and then changes the counters, so a step of a ring is described by the
messages its node got to send and the counters it is left with: `Reaction` lists the possibilities.
A crash before anything is recorded leaves the counters alone. The invariants of runs with crashes
are proved in two parts, one for what is sent and one for what becomes of the counters.
-/

namespace MoneyLaundering

open WriteAhead Visible StatefulWorker

variable {α : Type}

/-- A data message or the end of the stream: something that is not a token. -/
def Output.Leaves : Output α → Prop
  | .data _ => True
  | .ring _ _ => False
  | .finalEof _ _ => True

/-- What a node with the counters `v` has sent, and the counters it is left with, after it took a
message that is not part of a cleanup and perhaps died. -/
inductive Reaction (cfg : NodeConfig) (client : ClientId) (queryId : Option String)
    (v : Observed Unit) : Taken → ℕ → List (Output α) → Observed Unit → Prop
  /-- Nothing was recorded, and at most data messages were sent. -/
  | nothing {taken : Taken} {sends : ℕ} (outs : List (Output α)) (h : ∀ o ∈ outs, o.Leaves) :
      Reaction cfg client queryId v taken sends outs v
  | data {mid : MessageId} {sends : ℕ} (msgs : List (Message α)) (h : mid ∉ v.seen .main) :
      Reaction cfg client queryId v (.data mid) sends (msgs.map .data) (v.count mid msgs.length)
  /-- The first token was sent; the counters are as they were, reported, or reported with the end
  of the stream seen. -/
  | start {mid : MessageId} {marker : EOF} {sends : ℕ} {v' : Observed Unit} (h : mid ∉ v.seen .main)
      (hv : v' = v ∨ v' = v.report ∨ v' = v.report.see .main mid) :
      Reaction cfg client queryId v (.eof mid marker) sends
        [.ring cfg.getNextNodeId (startToken client v marker)] v'
  | count {envelope : Envelope} {sends : ℕ} {v' : Observed Unit}
      (h : envelope.messageId ∉ v.seen .control) (hcoord : envelope.token.ring.coordinatorId = none)
      (hv : v' = v ∨ v' = v.report.see .control envelope.messageId) :
      Reaction cfg client queryId v (.token envelope) sends
        [.ring cfg.getNextNodeId (countToken cfg client v envelope.token)] v'
  | flush {envelope : Envelope} {coordinatorId : NodeId} {v' : Observed Unit}
      (msgs : List (Message α)) (h : envelope.messageId ∉ v.seen .control)
      (hcoord : envelope.token.ring.coordinatorId = some coordinatorId)
      (hv : v' = v ∨ v' = (flushed v msgs.length).see .control envelope.messageId) :
      Reaction cfg client queryId v (.token envelope) msgs.length
        (msgs.map .data ++ [flushOutput cfg client queryId
          (v.sent + msgs.length - v.partialSent) envelope.token coordinatorId]) v'

variable {cfg : NodeConfig} {client : ClientId} {queryId : Option String} {v : Observed Unit}
  {taken : Taken} {sends : ℕ}

theorem leaves_of_isPrefix {msgs : List (Message α)} {outs : List (Output α)}
    (h : outs <+: msgs.map .data) : ∀ o ∈ outs, o.Leaves := by
  intro o ho
  obtain ⟨m, -, rfl⟩ := List.mem_map.mp (h.subset ho)
  exact trivial

/-- **Plans as reactions.** -/
theorem reaction_of_plan {plan seen : List (Visible (Observed Unit) (Output α))}
    (hplan : Plan cfg client queryId v taken sends plan) (hseen : seen <+: plan)
    (hquiet : ∀ envelope, taken = .token envelope →
      envelope.token.ring.expectedCount ≠ cleanupExpectedCount) :
    Reaction cfg client queryId v taken sends (sent seen) (settle v seen) := by
  cases hplan with
  | duplicate h =>
    obtain rfl := List.prefix_nil.mp hseen
    exact .nothing [] (by simp)
  | data msgs h =>
    rcases prefix_map_send hseen with ⟨outs, houts, rfl⟩ | rfl
    · rw [sent_sends, settle_sends]
      exact .nothing outs (leaves_of_isPrefix houts)
    · rw [sent_record, settle_record]
      exact .data msgs h
  | eof h =>
    simp only [List.prefix_cons_iff, List.prefix_nil] at hseen
    rcases hseen with rfl | ⟨_, rfl, rfl | ⟨_, rfl, rfl | ⟨_, rfl, rfl⟩⟩⟩
    · exact .nothing [] (by simp)
    · exact .start h (Or.inl rfl)
    · exact .start h (Or.inr (Or.inl rfl))
    · exact .start h (Or.inr (Or.inr rfl))
  | count h hcoord =>
    simp only [List.prefix_cons_iff, List.prefix_nil] at hseen
    rcases hseen with rfl | ⟨_, rfl, rfl | ⟨_, rfl, rfl⟩⟩
    · exact .nothing [] (by simp)
    · exact .count h hcoord (Or.inl rfl)
    · exact .count h hcoord (Or.inr rfl)
  | flush msgs h hcoord hexp =>
    rcases prefix_map_send hseen with ⟨outs, houts, rfl⟩ | rfl
    · rw [sent_sends, settle_sends]
      rcases List.prefix_concat_iff.mp houts with rfl | houts
      · exact .flush msgs h hcoord (Or.inl rfl)
      · exact .nothing outs (leaves_of_isPrefix houts)
    · rw [sent_record, settle_record]
      exact .flush msgs h hcoord (Or.inr rfl)
  | cleanup h hcoord hexp => exact absurd hexp (hquiet _ rfl)

/-- A message that was handled to the end is not fresh any more. -/
theorem not_fresh_of_plan {plan : List (Visible (Observed Unit) (Output α))}
    (hplan : Plan cfg client queryId v taken sends plan)
    (hquiet : ∀ envelope, taken = .token envelope →
      envelope.token.ring.expectedCount ≠ cleanupExpectedCount) :
    ¬taken.Fresh (settle v plan) := by
  have hsee : ∀ (v : Observed Unit) (ch : Channel) (mid : MessageId), mid
      ∈ (v.see ch mid).seen ch := by
    intro v ch mid
    simp [Observed.see]
  cases hplan with
  | duplicate h => exact h
  | data msgs h =>
    rw [settle_record]
    exact not_not_intro (hsee v .main _)
  | eof h => exact not_not_intro (hsee _ _ _)
  | count h hcoord => exact not_not_intro (hsee _ _ _)
  | flush msgs h hcoord hexp =>
    rw [settle_record]
    exact not_not_intro (hsee _ _ _)
  | cleanup h hcoord hexp => exact absurd hexp (hquiet _ rfl)

/-! ## Queues -/

namespace Network

variable {σ : Type} {i : NodeId} {u : Observed σ} {net : Network α} {outs : List (Output α)}

theorem outputs_handled :
    (net.handled i u taken outs).outputs = net.outputs ++ outs.map (Prod.mk i) := by
  have hfold : ∀ net : Network α, (outs.foldl (publish i taken.origin) net).outputs
      = net.outputs ++ outs.map (Prod.mk i) := by
    induction outs with
    | nil => simp
    | cons o outs ih =>
      intro net
      rw [List.foldl_cons, ih]
      simp [publish]
  exact hfold net

theorem answered_publish_foldl (origin : Envelope) (outs : List (Output α)) (net : Network α) :
    (outs.foldl (publish i origin) net).answered = net.answered := by
  induction outs generalizing net with
  | nil => rfl
  | cons o outs ih => exact ih _

theorem answered_handled : (net.handled i u taken outs).answered
    = net.answered ++ if outs.any Output.isRing then [(i, taken.key)] else [] := by
  rw [handled, answered_publish_foldl]

/-- A message is answered when a token is sent, and stays so. -/
theorem mem_answered_handled {p : NodeId × Channel × MessageId} :
    p ∈ (net.handled i u taken outs).answered ↔
      p ∈ net.answered ∨ p = (i, taken.key) ∧ ∃ node token, .ring node token ∈ outs := by
  have hany : outs.any Output.isRing = true ↔ ∃ node token, .ring node token ∈ outs := by
    rw [List.any_eq_true]
    constructor
    · rintro ⟨o, ho, hring⟩
      cases o with
      | data m => exact absurd hring (by simp [Output.isRing])
      | ring node token => exact ⟨node, token, ho⟩
      | finalEof messageId eof => exact absurd hring (by simp [Output.isRing])
    · rintro ⟨node, token, hmem⟩
      exact ⟨_, hmem, rfl⟩
  rw [answered_handled, List.mem_append]
  by_cases hring : outs.any Output.isRing
  · simp only [hring, if_true, List.mem_singleton, and_iff_left (hany.mp hring)]
  · simp only [hring, Bool.false_eq_true, if_false, List.not_mem_nil, or_false,
      mt hany.mpr hring, and_false]

/-- What leaves the stage does not touch the control queues. -/
theorem control_handled_leaves (h : ∀ o ∈ outs, o.Leaves) :
    (net.handled i u taken outs).control = net.control := by
  have hfold : ∀ net : Network α, (outs.foldl (publish i taken.origin) net).control
      = net.control := by
    induction outs with
    | nil => exact fun _ ↦ rfl
    | cons o outs ih =>
      intro net
      rw [List.foldl_cons, ih fun o ho ↦ h o (List.mem_cons_of_mem _ ho)]
      have ho := h o List.mem_cons_self
      cases o with
      | data m => rfl
      | ring node token => exact ho.elim
      | finalEof messageId eof => rfl
  exact hfold net

/-- A token sent last joins the queue of its receiver. -/
theorem control_handled_ring (h : ∀ o ∈ outs, o.Leaves) (node : NodeId) (token : Token) :
    (net.handled i u taken (outs ++ [.ring node token])).control
      = Function.update net.control node (net.control node ++ [taken.origin.pass i token]) := by
  have hleaves : (net.handled i u taken outs).control = net.control := control_handled_leaves h
  simp only [handled, List.foldl_append, List.foldl_cons, List.foldl_nil, publish] at hleaves ⊢
  rw [hleaves]

/-- Tokens only join a queue at its end. -/
theorem control_handled_prefix (j : NodeId) :
    net.control j <+: (net.handled i u taken outs).control j := by
  have hfold : ∀ net : Network α,
      net.control j <+: (outs.foldl (publish i taken.origin) net).control j := by
    induction outs with
    | nil => exact fun _ ↦ List.prefix_refl _
    | cons o outs ih =>
      intro net
      refine List.IsPrefix.trans ?_ (ih _)
      cases o with
      | data m => exact List.prefix_refl _
      | finalEof messageId eof => exact List.prefix_refl _
      | ring node token =>
        by_cases h : j = node
        · subst h
          simp [publish]
        · simp [publish, Function.update_of_ne h]
  exact hfold net

theorem control_pop_self {envelope : Envelope} {rest : List Envelope}
    (h : net.control i = envelope :: rest) : (net.pop i).control i = rest := by
  simp [pop, h]

theorem control_pop_of_ne {j : NodeId} (h : j ≠ i) (net : Network α) :
    (net.pop i).control j = net.control j := Function.update_of_ne h _ _

/-- A token in a queue was there before, or is sent now. -/
theorem mem_control_handled {j : NodeId} {envelope : Envelope}
    (hmem : envelope ∈ (net.handled i u taken outs).control j) :
    envelope ∈ net.control j ∨
      ∃ token, .ring j token ∈ outs ∧ envelope = taken.origin.pass i token := by
  have hfold : ∀ net : Network α, envelope ∈ (outs.foldl (publish i taken.origin) net).control j →
      envelope ∈ net.control j ∨
        ∃ token, .ring j token ∈ outs ∧ envelope = taken.origin.pass i token := by
    clear hmem
    induction outs with
    | nil => exact fun _ hmem ↦ Or.inl hmem
    | cons o outs ih =>
      intro net hmem
      rcases ih _ hmem with hmem | ⟨token, hsent, heq⟩
      · cases o with
        | data m => exact Or.inl hmem
        | finalEof messageId eof => exact Or.inl hmem
        | ring node token =>
          by_cases hj : j = node
          · subst hj
            simp only [publish, Function.update_self, List.mem_append, List.mem_singleton] at hmem
            exact hmem.imp_right fun heq ↦ ⟨token, List.mem_cons_self, heq⟩
          · simp only [publish, Function.update_of_ne hj] at hmem
            exact Or.inl hmem
      · exact Or.inr ⟨token, List.mem_cons_of_mem _ hsent, heq⟩
  exact hfold net hmem

theorem mem_control_pop {j : NodeId} {envelope : Envelope}
    (hmem : envelope ∈ (net.pop i).control j) :
    envelope ∈ net.control j := by
  by_cases hj : j = i
  · subst hj
    simp only [Network.pop, Function.update_self] at hmem
    exact List.mem_of_mem_tail hmem
  · rwa [control_pop_of_ne hj] at hmem

/-- Every queued token has a property. -/
def Forall (P : Envelope → Prop) (net : Network α) : Prop :=
  ∀ i, ∀ envelope ∈ net.control i, P envelope

theorem Forall.handled {P : Envelope → Prop} (h : net.Forall P)
    (houts : ∀ node token, .ring node token ∈ outs → P (taken.origin.pass i token)) :
    (net.handled i u taken outs).Forall P := by
  intro j envelope hmem
  rcases mem_control_handled hmem with hmem | ⟨token, hsent, rfl⟩
  · exact h j envelope hmem
  · exact houts j token hsent

theorem Forall.pop {P : Envelope → Prop} (h : net.Forall P) (i : NodeId) : (net.pop i).Forall P :=
  fun j envelope hmem ↦ h j envelope (mem_control_pop hmem)

theorem forall_empty (P : Envelope → Prop) : (empty : Network α).Forall P := by
  simp [Forall, empty]

end Network

/-! ## Steps -/

namespace Ring

variable {r r' : Ring α} {l : Label} {n : ℕ}

/-- The step that takes a message from a queue of node `i`, and flushes that many messages if it
does flush. -/
inductive Takes (r : Ring α) : Label → NodeId → Taken → ℕ → Prop
  | main {i : NodeId} {taken : Taken} {done : Bool} (h : taken ∈ r.inbox i) (sends : ℕ) :
      Takes r (.main i taken done) i taken sends
  | token {i : NodeId} {envelope : Envelope} {rest : List Envelope} {sends : ℕ} {done : Bool}
      (h : r.net.control i = envelope :: rest) :
      Takes r (.token i sends done) i (.token envelope) sends

/-- The ring after a reaction, before the message is acknowledged. -/
def react (r : Ring α) (i : NodeId) (taken : Taken) (outs : List (Output α)) (v : Observed Unit) :
    Ring α :=
  ⟨Function.update r.node i v, r.inbox, r.net.handled i (r.node i) taken outs⟩

@[simp] theorem node_react_self (r : Ring α) (i : NodeId) (taken : Taken) (outs : List (Output α))
    (v : Observed Unit) : (r.react i taken outs v).node i = v := Function.update_self _ _ _

theorem node_react_of_ne {i j : NodeId} (h : j ≠ i) (r : Ring α) (taken : Taken)
    (outs : List (Output α)) (v : Observed Unit) :
    (r.react i taken outs v).node j = r.node j := Function.update_of_ne h _ _

/-- A step whose reaction sends a token or changes the counters acts. -/
theorem acts_of_reaction {i : NodeId} {taken : Taken} {outs : List (Output α)} {v : Observed Unit}
    (hnode : r'.node = Function.update r.node i v)
    (hanswered : r'.net.answered = (r.net.handled i (r.node i) taken outs).answered)
    (h : v ≠ r.node i ∨ ∃ node token, .ring node token ∈ outs) : r.Acts r' := by
  rcases h with hne | hring
  · refine Or.inl fun heq ↦ hne ?_
    rw [← heq, hnode, Function.update_self]
  · refine Or.inr fun heq ↦ ?_
    rw [hanswered, Network.answered_handled, List.append_right_eq_self] at heq
    obtain ⟨node, token, hmem⟩ := hring
    rw [if_pos (List.any_eq_true.mpr ⟨_, hmem, rfl⟩)] at heq
    exact absurd heq (List.cons_ne_nil _ _)

/-- **What is kept by every step**: what every reaction keeps, and what is not lost when a message
that was handled leaves its queue. -/
theorem step_preserves {P : Ring α → Prop} (hstep : Step n client queryId r l r')
    (hquiet : r.net.Forall fun envelope ↦
      envelope.token.ring.expectedCount ≠ cleanupExpectedCount)
    (hmain : ∀ i envelope, Taken.token envelope ∉ r.inbox i) (hr : P r)
    (hreact : ∀ {i taken sends outs v}, i < n → r.Takes l i taken sends →
      Reaction ⟨i, n⟩ client queryId (r.node i) taken sends outs v →
      ((v ≠ r.node i ∨ ∃ node token, .ring node token ∈ outs) → r.Acts r') →
      P (r.react i taken outs v))
    (hack : ∀ {r : Ring α} {i messages}, P r → messages ⊆ r.inbox i →
      P { r with inbox := Function.update r.inbox i messages })
    (hpop : ∀ {r : Ring α} {i envelope rest}, P r → r.net.control i = envelope :: rest →
      envelope.messageId ∈ (r.node i).seen .control → P { r with net := r.net.pop i }) : P r' := by
  cases hstep with
  | @main i before after taken sends plan seen done hi hinbox hplan hseen hdone =>
    have htaken : taken ∈ r.inbox i := by simp [hinbox]
    have hreacted := hreact hi (.main htaken sends)
      (reaction_of_plan hplan hseen fun envelope h ↦ absurd htaken (h ▸ hmain i envelope))
      (acts_of_reaction rfl rfl)
    cases done with
    | false => exact hreacted
    | true =>
      refine hack hreacted ?_
      rw [react, hinbox]
      intro message hmessage
      rcases List.mem_append.mp hmessage with h | h
      · exact List.mem_append_left _ h
      · exact List.mem_append_right _ (List.mem_cons_of_mem _ h)
  | @token i envelope rest sends plan seen done hi hhead hplan hseen hdone =>
    have hexp : ∀ envelope', Taken.token envelope = .token envelope' →
        envelope'.token.ring.expectedCount ≠ cleanupExpectedCount := by
      intro envelope' h
      obtain rfl := Taken.token.inj h
      exact hquiet i envelope (by rw [hhead]; exact List.mem_cons_self)
    have hanswered : (if done then (r.net.handled i (r.node i) (.token envelope) (sent seen)).pop i
        else r.net.handled i (r.node i) (.token envelope) (sent seen)).answered
        = (r.net.handled i (r.node i) (.token envelope) (sent seen)).answered := by
      cases done <;> rfl
    have hreacted := hreact hi (.token hhead) (reaction_of_plan hplan hseen hexp)
      (acts_of_reaction rfl hanswered)
    cases done with
    | false => exact hreacted
    | true =>
      obtain rfl := hdone rfl
      have hpre : r.net.control i <+: (r.net.handled i (r.node i) (.token envelope)
          (sent seen)).control i := Network.control_handled_prefix i
      obtain ⟨added, hadded⟩ := hpre
      rw [hhead] at hadded
      refine hpop hreacted hadded.symm ?_
      have hfresh := not_fresh_of_plan hplan hexp
      simp only [react, Function.update_self]
      exact not_not.mp hfresh
  | restart hi => exact hr

end Ring

end MoneyLaundering
