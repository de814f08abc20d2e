import MoneyLaundering.Client.Recorded

/-!
# The delivery of results

The gateway gives a new id to each delivery that it sends to the client, and acknowledges the
delivery to the broker when the client acknowledges this id. Both the number of a delivery and this
id begin anew in each session, and what a lost session has not acknowledged is delivered again.
Within a session the two go together (`Handler.Numbered`): delivery `tag` has the id `tag + 1`.
-/

namespace MoneyLaundering

open EventRuns

variable {R : Type} {cfg : ClientConfig} {router : InternalRouter} {clientId : ClientId}

/-- The delivery of an item. -/
def HandlerItem.result? : HandlerItem R → Option (ResultMessage R × ℕ)
  | ack => none
  | result message tag => some (message, tag)

/-! ## The numbers of a session -/

namespace Handler

variable {h h' : Handler R} {c c' : Client R}

/-- A message was delivered that the client knows under an id. -/
def Sent (h : Handler R) (message : ResultMessage R) (deliveryId : ℕ) : Prop :=
  ∃ tag, deliveryId = tag + 1 ∧ h.deliveries[tag]? = some message

/-- The client may acknowledge an id. -/
def Acknowledges (h : Handler R) (c : Client R) (deliveryId : ℕ) : Prop :=
  ∃ message, h.Sent message deliveryId ∧ c.Confirmed message

/-- A delivery is acknowledged to the broker, and will not be so again. -/
def Settled (h : Handler R) (tag : ℕ) : Prop :=
  tag < h.nextDeliveryId ∧ h.pendingAcks (tag + 1) = none

/-- The deliveries in the queue are those that have no id yet, and the others have the number that
follows their own. -/
structure Numbered (h : Handler R) : Prop where
  next : h.nextDeliveryId ≤ h.deliveries.length
  queue : h.queue.filterMap HandlerItem.result? = h.deliveries.zipIdx.drop h.nextDeliveryId
  toClient : ∀ message d, .result message d ∈ h.toClient → h.Sent message d
  pendingAcks : ∀ d tag, h.pendingAcks d = some tag → d = tag + 1 ∧ tag < h.nextDeliveryId

theorem numbered_init : (init : Handler R).Numbered where
  next := Nat.le_refl 0
  queue := rfl
  toClient _ _ hmem := absurd hmem List.not_mem_nil
  pendingAcks _ _ htag := absurd htag (by simp [init])

theorem Sent.mono {message : ResultMessage R} {d : ℕ} (hsent : h.Sent message d)
    (hdeliveries : h.deliveries <+: h'.deliveries) : h'.Sent message d := by
  obtain ⟨tag, hd, htag⟩ := hsent
  obtain ⟨more, hmore⟩ := hdeliveries
  obtain ⟨hlt, -⟩ := List.getElem?_eq_some_iff.mp htag
  exact ⟨tag, hd, by rw [← hmore, List.getElem?_append_left hlt, htag]⟩

theorem Acknowledges.mono {d : ℕ} (hack : h.Acknowledges c d)
    (hdeliveries : h.deliveries <+: h'.deliveries) (hwritten : c.written ⊆ c'.written) :
    h'.Acknowledges c' d :=
  hack.imp fun _ ↦ And.imp (fun hsent ↦ hsent.mono hdeliveries) fun hconf ↦ hconf.mono hwritten

/-- What a step of a handler keeps. -/
structure Advances (h h' : Handler R) : Prop where
  numbered : h'.Numbered
  deliveries : h.deliveries <+: h'.deliveries
  settled : ∀ tag, h.Settled tag → h'.Settled tag

theorem advances_refl (hnum : h.Numbered) : h.Advances h :=
  ⟨hnum, List.prefix_rfl, fun _ ↦ id⟩

/-- The receive loop of the handler and what is under way to it do not matter. -/
theorem advances_receiving (hnum : h.Numbered) (receiving : Receiving) (toGateway : List Request) :
    h.Advances { h with receiving, toGateway } :=
  ⟨⟨hnum.next, hnum.queue, hnum.toClient, hnum.pendingAcks⟩, List.prefix_rfl, fun _ ↦ id⟩

theorem advances_enqueuesAck (hnum : h.Numbered) :
    h.Advances { h with receiving := .reading, queue := h.queue ++ [.ack] } := by
  refine ⟨⟨hnum.next, ?_, hnum.toClient, hnum.pendingAcks⟩, List.prefix_rfl, fun _ ↦ id⟩
  rw [List.filterMap_append, hnum.queue]
  exact List.append_nil _

theorem advances_onResult (hnum : h.Numbered) (message : ResultMessage R) :
    h.Advances (h.onResult message) := by
  have hdeliveries : h.deliveries <+: h.deliveries ++ [message] := List.prefix_append _ _
  refine ⟨⟨hnum.next.trans hdeliveries.length_le, ?_,
    fun message' d hmem ↦ (hnum.toClient message' d hmem).mono hdeliveries, hnum.pendingAcks⟩,
    hdeliveries, fun _ ↦ id⟩
  rw [onResult, List.filterMap_append, hnum.queue, List.zipIdx_append, List.drop_append_of_le_length
    (by simpa using hnum.next), Nat.zero_add]
  rfl

/-- The first of the deliveries that have no id. -/
theorem of_drop_zipIdx {α : Type} {l : List α} {a : α} {n k : ℕ} {rest : List (α × ℕ)}
    (h : l.zipIdx.drop n = (a, k) :: rest) :
    k = n ∧ l[n]? = some a ∧ l.zipIdx.drop (n + 1) = rest := by
  have hhead : (l.zipIdx.drop n)[0]? = some (a, k) := by rw [h]; rfl
  rw [List.getElem?_drop, Nat.add_zero, List.getElem?_zipIdx, Nat.zero_add,
    Option.map_eq_some_iff] at hhead
  obtain ⟨a', ha', heq⟩ := hhead
  obtain ⟨rfl, rfl⟩ := Prod.mk.inj heq
  exact ⟨rfl, ha', by rw [← List.tail_drop, h]; rfl⟩

theorem advances_senderStep (hnum : h.Numbered) (succeeds : Bool) :
    h.Advances (h.senderStep succeeds) := by
  rw [senderStep]
  split
  · split
    · exact advances_refl hnum
    · next queue hqueue =>
      have hrest : queue.filterMap HandlerItem.result?
          = h.deliveries.zipIdx.drop h.nextDeliveryId := by
        rw [← hnum.queue, hqueue]
        rfl
      split
      · refine ⟨⟨hnum.next, hrest, fun message d hmem ↦ ?_, hnum.pendingAcks⟩,
          List.prefix_rfl, fun _ ↦ id⟩
        refine hnum.toClient message d ((List.mem_append.mp hmem).resolve_right fun hmem ↦ ?_)
        cases List.mem_singleton.mp hmem
      · exact ⟨⟨hnum.next, hrest, hnum.toClient, hnum.pendingAcks⟩, List.prefix_rfl, fun _ ↦ id⟩
    · next message tag queue hqueue =>
      obtain ⟨htag, hmessage, hrest⟩ : tag = h.nextDeliveryId ∧
          h.deliveries[h.nextDeliveryId]? = some message ∧
          h.deliveries.zipIdx.drop (h.nextDeliveryId + 1)
            = queue.filterMap HandlerItem.result? := by
        refine of_drop_zipIdx ?_
        rw [← hnum.queue, hqueue]
        rfl
      obtain ⟨hlt, -⟩ := List.getElem?_eq_some_iff.mp hmessage
      have hpending : ∀ d tag', (h.registerPendingAck tag).pendingAcks d = some tag' →
          d = tag' + 1 ∧ tag' < h.nextDeliveryId + 1 := by
        intro d tag' hd
        change Function.update h.pendingAcks (h.nextDeliveryId + 1) (some tag) d = some tag' at hd
        by_cases heq : d = h.nextDeliveryId + 1
        · rw [heq, Function.update_self] at hd
          obtain rfl := Option.some.inj hd
          exact ⟨by rw [heq, htag], by omega⟩
        · rw [Function.update_of_ne heq] at hd
          exact (hnum.pendingAcks d tag' hd).imp_right Nat.lt_succ_of_lt
      have hsettled : ∀ tag', h.Settled tag' → (h.registerPendingAck tag).Settled tag' := by
        intro tag' ⟨hlt, hnone⟩
        refine ⟨Nat.lt_succ_of_lt hlt, ?_⟩
        exact (Function.update_of_ne (by omega) _ _).trans hnone
      split
      · refine ⟨⟨hlt, hrest.symm, fun message' d hmem ↦ ?_, hpending⟩, List.prefix_rfl, hsettled⟩
        rcases List.mem_append.mp hmem with hmem | hmem
        · exact hnum.toClient message' d hmem
        · obtain ⟨rfl, rfl⟩ := Reply.result.inj (List.mem_singleton.mp hmem)
          exact ⟨h.nextDeliveryId, rfl, hmessage⟩
      · exact ⟨⟨hlt, hrest.symm, hnum.toClient, hpending⟩, List.prefix_rfl, hsettled⟩
  · exact advances_refl hnum

/-- The head of what is under way to the client is received. -/
theorem advances_toClient (hnum : h.Numbered) {toClient : List (Reply R)}
    (hsub : toClient ⊆ h.toClient) : h.Advances { h with toClient } :=
  ⟨⟨hnum.next, hnum.queue, fun message d hmem ↦ hnum.toClient message d (hsub hmem),
    hnum.pendingAcks⟩, List.prefix_rfl, fun _ ↦ id⟩

/-- `_on_result_ack`. -/
theorem advances_onResultAck (hnum : h.Numbered) (d : ℕ) (toGateway : List Request) :
    h.Advances { h with toGateway, pendingAcks := Function.update h.pendingAcks d none } := by
  refine ⟨⟨hnum.next, hnum.queue, hnum.toClient, fun d' tag htag ↦ ?_⟩, List.prefix_rfl,
    fun tag ⟨hlt, hnone⟩ ↦ ⟨hlt, ?_⟩⟩
  · change Function.update h.pendingAcks d none d' = some tag at htag
    by_cases heq : d' = d
    · rw [heq, Function.update_self] at htag
      cases htag
    · rw [Function.update_of_ne heq] at htag
      exact hnum.pendingAcks d' tag htag
  · change Function.update h.pendingAcks d none (tag + 1) = none
    by_cases heq : tag + 1 = d
    · rw [heq, Function.update_self]
    · rw [Function.update_of_ne heq, hnone]

@[simp] theorem toGateway_senderStep (h : Handler R) (succeeds : Bool) :
    (h.senderStep succeeds).toGateway = h.toGateway := by
  rw [senderStep]
  split
  · match h.queue, succeeds with
    | [], _ | .ack :: _, true | .ack :: _, false | .result _ _ :: _, true
    | .result _ _ :: _, false => rfl
  · rfl

@[simp] theorem deliveries_senderStep (h : Handler R) (succeeds : Bool) :
    (h.senderStep succeeds).deliveries = h.deliveries := by
  rw [senderStep]
  split
  · match h.queue, succeeds with
    | [], _ | .ack :: _, true | .ack :: _, false | .result _ _ :: _, true
    | .result _ _ :: _, false => rfl
  · rfl

end Handler

/-! ## The sessions of a client -/

namespace Conversation

variable {s s' : Conversation R}

@[simp] theorem update_handlers_self (i : ℕ) (g : Handler R) : (s.update i g).handlers i = g := by
  simp [update]

theorem update_handlers_of_ne {i j : ℕ} (hj : j ≠ i) (g : Handler R) :
    (s.update i g).handlers j = s.handlers j := by
  simp [update, hj]

/-- An acknowledgement of an id is under way to handler `i`. -/
def HasResultAck (s : Conversation R) (i d : ℕ) : Prop :=
  .resultAck d ∈ (s.handlers i).toGateway ∨ i = s.current ∧ s.client.HasResultAck d

/-- What the client and the broker have comes from the results queue. -/
structure FromQueue (s : Conversation R) : Prop where
  ready : ∀ message ∈ s.ready, message ∈ s.published
  unacked : ∀ d ∈ s.unacked, d.2.2 ∈ s.published
  deliveries : ∀ i, ∀ message ∈ (s.handlers i).deliveries, message ∈ s.published
  written : ∀ w ∈ s.client.written, .batch w.1 w.2.1 w.2.2 ∈ s.published
  ends : ∀ e ∈ s.client.ends, .queryEnd e.1 e.2 ∈ s.published

/-- What is known of a session by its ids agrees with the deliveries of it, and what is acknowledged
is written. -/
structure Agrees (s : Conversation R) : Prop where
  recorded : s.client.Recorded
  numbered : ∀ i, (s.handlers i).Numbered
  received : ∀ message d, s.client.HasResult message d →
    (s.handlers s.current).Sent message d
  resultAcks : ∀ i d, s.HasResultAck i d → (s.handlers i).Acknowledges s.client d
  acks : ∀ i tag, (i, tag) ∈ s.acks → (s.handlers i).Settled tag ∧
    (s.handlers i).Acknowledges s.client (tag + 1)
  nodup : s.acks.Nodup
  later : ∀ i, s.count ≤ i → (s.handlers i).deliveries = []

theorem agrees_init : (init : Conversation R).Agrees where
  recorded := Client.recorded_init
  numbered _ := Handler.numbered_init
  received _ _ hmem := absurd hmem List.not_mem_nil
  resultAcks i d hack := by
    rcases hack with hmem | ⟨-, hmem | hsender⟩
    · exact absurd hmem List.not_mem_nil
    · exact absurd hmem List.not_mem_nil
    · cases hsender
  acks _ _ hmem := absurd hmem List.not_mem_nil
  nodup := List.nodup_nil
  later _ _ := rfl

/-- A step within the sessions that there are. -/
theorem Agrees.of_advances (h : s.Agrees) (hcount : s'.count = s.count)
    (hrecorded : s'.client.Recorded) (hsubset : s.client.written ⊆ s'.client.written)
    (hadvances : ∀ j, (s.handlers j).Advances (s'.handlers j))
    (hreceived : ∀ message d, s'.client.HasResult message d →
      (s.handlers s.current).Sent message d)
    (hresultAcks : ∀ j d, s'.HasResultAck j d →
      s.HasResultAck j d ∨ (s.handlers j).Acknowledges s'.client d)
    (hacks : ∀ j tag, (j, tag) ∈ s'.acks → (j, tag) ∈ s.acks ∨
      (s'.handlers j).Settled tag ∧ (s'.handlers j).Acknowledges s'.client (tag + 1))
    (hnodup : s'.acks.Nodup) (hlater : ∀ j, s.count ≤ j → (s'.handlers j).deliveries = []) :
    s'.Agrees where
  recorded := hrecorded
  numbered j := (hadvances j).numbered
  received message d hmem := by
    rw [current, hcount]
    exact (hreceived message d hmem).mono (hadvances _).deliveries
  resultAcks j d hack := by
    rcases hresultAcks j d hack with hack | hack
    · exact (h.resultAcks j d hack).mono (hadvances j).deliveries hsubset
    · exact hack.mono (hadvances j).deliveries (List.Subset.refl _)
  acks j tag hmem := by
    rcases hacks j tag hmem with hmem | hnew
    · obtain ⟨hsettled, hack⟩ := h.acks j tag hmem
      exact ⟨(hadvances j).settled tag hsettled, hack.mono (hadvances j).deliveries hsubset⟩
    · exact hnew
  nodup := hnodup
  later j hj := hlater j (hcount ▸ hj)

/-- A step of the client. -/
theorem Agrees.client (h : s.Agrees) {c : Client R} (hprogress : s.client.Progress c) :
    Agrees { s with client := c } := by
  refine h.of_advances rfl hprogress.recorded hprogress.subset
    (fun j ↦ Handler.advances_refl (h.numbered j))
    (fun message d hmem ↦ h.received message d (hprogress.results message d hmem))
    (fun j d hack ↦ ?_) (fun _ _ ↦ Or.inl) h.nodup h.later
  rcases hack with hmem | ⟨rfl, hmem⟩
  · exact Or.inl (Or.inl hmem)
  · rcases hprogress.resultAcks d hmem with hmem | ⟨message, hhas, hconfirmed⟩
    · exact Or.inl (Or.inr ⟨rfl, hmem⟩)
    · exact Or.inr ⟨message, h.received message d hhas, hconfirmed⟩

theorem Agrees.advances_update (h : s.Agrees) {i : ℕ} {g : Handler R}
    (hadvances : (s.handlers i).Advances g) (j : ℕ) :
    (s.handlers j).Advances ((s.update i g).handlers j) := by
  by_cases hj : j = i
  · subst hj
    rw [update_handlers_self]
    exact hadvances
  · rw [update_handlers_of_ne hj]
    exact Handler.advances_refl (h.numbered j)

/-- A step of a handler. What else the broker does does not matter. -/
theorem Agrees.handler (h : s.Agrees) {i : ℕ} {g : Handler R}
    (hadvances : (s.handlers i).Advances g)
    (hrequests : ∀ d, .resultAck d ∈ g.toGateway → s.HasResultAck i d)
    (hlater : s.count ≤ i → g.deliveries = []) (hclient : s'.client = s.client)
    (hcount : s'.count = s.count) (hhandlers : s'.handlers = (s.update i g).handlers)
    (hacks : s'.acks = s.acks) : s'.Agrees := by
  have hcurrent : s'.current = s.current := by rw [current, current, hcount]
  refine h.of_advances hcount (hclient ▸ h.recorded) (hclient ▸ List.Subset.refl _)
    (hhandlers ▸ h.advances_update hadvances) (fun message d hmem ↦ ?_) (fun j d hack ↦ Or.inl ?_)
    (fun _ _ hmem ↦ Or.inl (hacks ▸ hmem)) (hacks ▸ h.nodup) fun j hj ↦ ?_
  · exact h.received message d (hclient ▸ hmem)
  · rw [HasResultAck, hhandlers, hclient, hcurrent] at hack
    refine hack.elim (fun hmem ↦ ?_) Or.inr
    by_cases hi : j = i
    · subst hi
      rw [update_handlers_self] at hmem
      exact hrequests d hmem
    · rw [update_handlers_of_ne hi] at hmem
      exact Or.inl hmem
  · rw [hhandlers]
    by_cases hi : j = i
    · subst hi
      rw [update_handlers_self]
      exact hlater hj
    · rw [update_handlers_of_ne hi]
      exact h.later j hj

/-- A step of the broker alone. -/
theorem Agrees.broker (h : s.Agrees) (hclient : s'.client = s.client) (hcount : s'.count = s.count)
    (hhandlers : s'.handlers = s.handlers) (hacks : s'.acks = s.acks) : s'.Agrees := by
  refine h.handler (i := 0) (Handler.advances_refl (h.numbered 0)) (fun _ ↦ Or.inl) (h.later 0)
    hclient hcount ?_ hacks
  rw [hhandlers, update, Function.update_eq_self]

/-- A session begins, and nothing of it is under way. -/
theorem Agrees.connect (h : s.Agrees) (hphase : s.client.phase = .disconnected) :
    Agrees { s.update s.count Handler.init with
      client := s.client.runSession, count := s.count + 1 } := by
  have hget (i : ℕ) : (s.update s.count Handler.init).handlers i = Handler.init ∨
      i ≠ s.count ∧ (s.update s.count Handler.init).handlers i = s.handlers i := by
    by_cases hi : i = s.count
    · rw [hi]
      exact Or.inl (update_handlers_self _ _)
    · exact Or.inr ⟨hi, update_handlers_of_ne hi _⟩
  have hsubset : s.client.written ⊆ (s.client.runSession).written := List.Subset.refl _
  refine ⟨?_, fun i ↦ ?_, fun _ _ hmem ↦ absurd hmem List.not_mem_nil, fun i d hack ↦ ?_,
    fun i tag hmem ↦ ?_, h.nodup, fun i hi ↦ ?_⟩
  · exact h.recorded.congr rfl rfl rfl rfl rfl rfl fun hfailed ↦
      absurd (hphase.symm.trans hfailed) (by decide)
  · change ((s.update s.count Handler.init).handlers i).Numbered
    rcases hget i with heq | ⟨-, heq⟩
    · rw [heq]
      exact Handler.numbered_init
    · rw [heq]
      exact h.numbered i
  · change ((s.update s.count Handler.init).handlers i).Acknowledges s.client.runSession d
    rcases hack with hmem | ⟨-, hmem | hsender⟩
    · change .resultAck d ∈ ((s.update s.count Handler.init).handlers i).toGateway at hmem
      rcases hget i with heq | ⟨-, heq⟩
      · rw [heq] at hmem
        exact absurd hmem List.not_mem_nil
      · rw [heq] at hmem ⊢
        exact (h.resultAcks i d (Or.inl hmem)).mono List.prefix_rfl hsubset
    · exact absurd hmem List.not_mem_nil
    · cases hsender
  · change ((s.update s.count Handler.init).handlers i).Settled tag ∧
      ((s.update s.count Handler.init).handlers i).Acknowledges s.client.runSession (tag + 1)
    obtain ⟨hsettled, hack⟩ := h.acks i tag hmem
    rcases eq_or_ne i s.count with rfl | hi
    · -- the handlers of the sessions to come have delivered nothing
      obtain ⟨message, ⟨tag', -, htag'⟩, -⟩ := hack
      rw [h.later _ le_rfl, List.getElem?_nil] at htag'
      cases htag'
    · rw [update_handlers_of_ne hi]
      exact ⟨hsettled, hack.mono List.prefix_rfl hsubset⟩
  · change ((s.update s.count Handler.init).handlers i).deliveries = []
    rcases hget i with heq | ⟨-, heq⟩
    · rw [heq]
      rfl
    · rw [heq]
      exact h.later i (Nat.le_of_succ_le hi)

theorem deliveries_update {i : ℕ} {g : Handler R}
    (hdeliveries : g.deliveries = (s.handlers i).deliveries) (j : ℕ) :
    ((s.update i g).handlers j).deliveries = (s.handlers j).deliveries := by
  by_cases hj : j = i
  · rw [hj, update_handlers_self, hdeliveries]
  · rw [update_handlers_of_ne hj]

/-- The client sends an acknowledgement that it had. -/
theorem Agrees.senderSends (h : s.Agrees) : s.senderSends.Agrees := by
  rw [Conversation.senderSends]
  split
  · next request hsender =>
    refine h.of_advances rfl (h.recorded.congr rfl rfl rfl rfl rfl rfl id) (List.Subset.refl _)
      (h.advances_update (Handler.advances_receiving (h.numbered _) _ _)) h.received
      (fun j d hack ↦ Or.inl ?_) (fun _ _ ↦ Or.inl) h.nodup
      fun j hj ↦ (deliveries_update (by rfl) j).trans (h.later j hj)
    rcases hack with hmem | ⟨hj, hqueue | hsending⟩
    · by_cases hj : j = s.current
      · subst hj
        rw [update_handlers_self] at hmem
        refine (List.mem_append.mp hmem).imp_right fun hmem ↦ ⟨rfl, Or.inr ?_⟩
        rw [hsender, List.mem_singleton.mp hmem]
      · rw [update_handlers_of_ne hj] at hmem
        exact Or.inl hmem
    · exact Or.inr ⟨hj, Or.inl hqueue⟩
    · cases hsending
  · exact h
  · exact h

theorem Agrees.receives (h : s.Agrees) : s.receives.Agrees := by
  rw [Conversation.receives]
  split
  · exact h
  · next reply replies hreplies =>
    split
    · refine h.of_advances rfl (h.recorded.congr rfl rfl rfl rfl rfl rfl id) (List.Subset.refl _)
        (h.advances_update (Handler.advances_toClient (h.numbered _) ?_)) (fun message d hmem ↦ ?_)
        (fun j d hack ↦ Or.inl ?_) (fun _ _ ↦ Or.inl) h.nodup
        fun j hj ↦ (deliveries_update (by rfl) j).trans (h.later j hj)
      · rw [hreplies]
        exact List.subset_cons_self _ _
      · rcases List.mem_append.mp hmem with hmem | hmem
        · exact h.received message d hmem
        · refine (h.numbered _).toClient message d ?_
          rw [hreplies, Option.some.inj (List.mem_singleton.mp hmem)]
          exact List.mem_cons_self
      · refine hack.imp_left fun hmem ↦ ?_
        by_cases hj : j = s.current
        · subst hj
          rw [update_handlers_self] at hmem
          exact hmem
        · rw [update_handlers_of_ne hj] at hmem
          exact hmem
    · exact h

/-- The gateway acknowledges a delivery when the client has acknowledged its id. -/
theorem Agrees.reads (h : s.Agrees) (i : ℕ) : (s.reads i).Agrees := by
  rw [Conversation.reads]
  simp only
  split
  · next u requests hreceiving hrequests =>
    refine h.handler (Handler.advances_receiving (h.numbered i) (.dispatching u) requests)
      (fun d hd ↦ Or.inl ?_) (h.later i) rfl rfl rfl rfl
    rw [hrequests]
    exact List.mem_cons_of_mem _ hd
  · next d requests hreceiving hrequests =>
    have hadvances := h.advances_update (Handler.advances_onResultAck (h.numbered i) d requests)
    have hack : (s.handlers i).Acknowledges s.client d := by
      refine h.resultAcks i d (Or.inl ?_)
      rw [hrequests]
      exact List.mem_cons_self
    -- the handler acknowledges the delivery that it has kept under this number
    have hnew {j tag : ℕ}
        (hmem : (j, tag) ∈ ((s.handlers i).pendingAcks d).toList.map fun tag ↦ (i, tag)) :
        j = i ∧ (s.handlers i).pendingAcks d = some tag := by
      obtain ⟨tag', htag', heq⟩ := List.mem_map.mp hmem
      obtain ⟨rfl, rfl⟩ := Prod.mk.inj heq
      exact ⟨rfl, Option.mem_toList.mp htag'⟩
    refine h.of_advances rfl h.recorded (List.Subset.refl _) hadvances h.received
      (fun j d' hack' ↦ Or.inl ?_) (fun j tag hmem ↦ ?_) ?_
      fun j hj ↦ (deliveries_update (by rfl) j).trans (h.later j hj)
    · refine hack'.imp_left fun hmem ↦ ?_
      by_cases hj : j = i
      · subst hj
        rw [update_handlers_self] at hmem
        rw [hrequests]
        exact List.mem_cons_of_mem _ hmem
      · rw [update_handlers_of_ne hj] at hmem
        exact hmem
    · refine (List.mem_append.mp hmem).imp_right fun hmem ↦ ?_
      obtain ⟨rfl, htag⟩ := hnew hmem
      obtain ⟨rfl, hlt⟩ := (h.numbered j).pendingAcks d tag htag
      refine ⟨?_, hack.mono (hadvances j).deliveries (List.Subset.refl _)⟩
      rw [update_handlers_self]
      exact ⟨hlt, Function.update_self _ _ _⟩
    · refine List.nodup_append.mpr ⟨h.nodup, ?_, fun p hp p' hp' heq ↦ ?_⟩
      · match (s.handlers i).pendingAcks d with
        | none => exact List.nodup_nil
        | some tag => exact List.nodup_singleton _
      · -- a delivery that is acknowledged is no longer pending
        obtain ⟨j, tag⟩ := p'
        obtain ⟨rfl, htag⟩ := hnew hp'
        obtain ⟨rfl, -⟩ := (h.numbered j).pendingAcks d tag htag
        rw [(h.acks j tag (heq ▸ hp)).1.2] at htag
        cases htag
  · exact h

theorem Agrees.forwards (h : s.Agrees) (i : ℕ) : (s.forwards router clientId i).Agrees := by
  have hreceiving (receiving : Receiving) :
      (s.handlers i).Advances { s.handlers i with receiving := receiving } :=
    Handler.advances_receiving (h.numbered i) receiving _
  rw [Conversation.forwards]
  simp only
  split
  · split
    · exact h.handler (hreceiving .ended) (fun _ ↦ Or.inl) (h.later i) rfl rfl rfl rfl
    · exact h.handler (hreceiving .forwarded) (fun _ ↦ Or.inl) (h.later i) rfl rfl rfl rfl
  · exact h
  · exact h
  · exact h

theorem Agrees.step (h : s.Agrees) (event : Event R) :
    (s.step cfg router clientId event).Agrees := by
  match event with
  | .publish message => exact h.broker rfl rfl rfl rfl
  | .deliver i k =>
    rw [Conversation.step]
    split
    · next hi =>
      rw [deliver]
      split
      · exact h
      · next message hmessage =>
        exact h.handler (Handler.advances_onResult (h.numbered i) message) (fun _ ↦ Or.inl)
          (fun hle ↦ absurd hi (Nat.not_lt.mpr hle)) rfl rfl rfl rfl
    · exact h
  | .settle i tag =>
    rw [Conversation.step]
    split
    · exact h.broker rfl rfl rfl rfl
    · exact h
  | .requeue i tag => exact h.broker rfl rfl rfl rfl
  | .connect =>
    rw [Conversation.step]
    split
    · next hphase => exact h.connect hphase
    · exact h
  | .orchestrate => exact h.client (Client.progress_orchestrate h.recorded)
  | .senderTakes => exact h.client (Client.progress_senderTakes h.recorded)
  | .senderSends => exact h.senderSends
  | .senderFails => exact h.client (Client.progress_senderFails h.recorded)
  | .receives => exact h.receives
  | .receiverFails => exact h.client (Client.progress_receiverFails h.recorded)
  | .reads i => exact h.reads i
  | .forwards i => exact h.forwards i
  | .enqueuesAck i =>
    rw [Conversation.step, enqueuesAck]
    split
    · exact h.handler (Handler.advances_enqueuesAck (h.numbered i)) (fun _ ↦ Or.inl) (h.later i)
        rfl rfl rfl rfl
    · exact h
    · exact h
    · exact h
  | .fails i =>
    exact h.handler (Handler.advances_receiving (h.numbered i) .ended _) (fun _ ↦ Or.inl)
      (h.later i) rfl rfl rfl rfl
  | .sends i | .sendFails i =>
    refine h.handler (Handler.advances_senderStep (h.numbered i) _) (fun d hd ↦ Or.inl ?_)
      (fun hi ↦ ?_) rfl rfl rfl rfl
    · rwa [Handler.toGateway_senderStep] at hd
    · rw [Handler.deliveries_senderStep]
      exact h.later i hi

/-! ## The results queue -/

theorem fromQueue_init : (init : Conversation R).FromQueue where
  ready _ hmem := absurd hmem List.not_mem_nil
  unacked _ hmem := absurd hmem List.not_mem_nil
  deliveries _ _ hmem := absurd hmem List.not_mem_nil
  written _ hmem := absurd hmem List.not_mem_nil
  ends _ hmem := absurd hmem List.not_mem_nil

/-- A step that moves messages, and handles none. -/
theorem FromQueue.moves (h : s.FromQueue) (hpublished : s.published ⊆ s'.published)
    (hready : ∀ message ∈ s'.ready, message ∈ s.ready ∨ message ∈ s'.published)
    (hunacked : ∀ d ∈ s'.unacked, d ∈ s.unacked ∨ d.2.2 ∈ s'.published)
    (hdeliveries : ∀ i, ∀ message ∈ (s'.handlers i).deliveries,
      message ∈ (s.handlers i).deliveries ∨ message ∈ s'.published)
    (hwritten : s'.client.written = s.client.written) (hends : s'.client.ends = s.client.ends) :
    s'.FromQueue where
  ready message hmem := (hready message hmem).elim (fun hmem ↦ hpublished (h.ready _ hmem)) id
  unacked d hmem := (hunacked d hmem).elim (fun hmem ↦ hpublished (h.unacked _ hmem)) id
  deliveries i message hmem :=
    (hdeliveries i message hmem).elim (fun hmem ↦ hpublished (h.deliveries i _ hmem)) id
  written w hmem := hpublished (h.written w (hwritten ▸ hmem))
  ends e hmem := hpublished (h.ends e (hends ▸ hmem))

/-- A step that touches the deliveries of no handler, and neither the broker nor the results of the
client. -/
theorem FromQueue.quiet (h : s.FromQueue) (hpublished : s'.published = s.published)
    (hready : s'.ready = s.ready) (hunacked : s'.unacked = s.unacked)
    (hdeliveries : ∀ i, (s'.handlers i).deliveries = (s.handlers i).deliveries)
    (hwritten : s'.client.written = s.client.written) (hends : s'.client.ends = s.client.ends) :
    s'.FromQueue :=
  h.moves (hpublished ▸ List.Subset.refl _) (fun _ hmem ↦ Or.inl (hready ▸ hmem))
    (fun _ hmem ↦ Or.inl (hunacked ▸ hmem)) (fun i _ hmem ↦ Or.inl (hdeliveries i ▸ hmem)) hwritten
    hends

theorem FromQueue.client (h : s.FromQueue) (hagrees : s.Agrees) {c : Client R}
    (hprogress : s.client.Progress c) : FromQueue { s with client := c } where
  ready := h.ready
  unacked := h.unacked
  deliveries := h.deliveries
  written w hmem := by
    rcases hprogress.written w hmem with hmem | ⟨d, hhas⟩
    · exact h.written w hmem
    · obtain ⟨tag, -, htag⟩ := hagrees.received _ d hhas
      exact h.deliveries _ _ (List.mem_of_getElem? htag)
  ends e hmem := by
    rcases hprogress.ends e hmem with hmem | ⟨d, hhas⟩
    · exact h.ends e hmem
    · obtain ⟨tag, -, htag⟩ := hagrees.received _ d hhas
      exact h.deliveries _ _ (List.mem_of_getElem? htag)

theorem FromQueue.step (h : s.FromQueue) (hagrees : s.Agrees) (event : Event R) :
    (s.step cfg router clientId event).FromQueue := by
  match event with
  | .publish message =>
    refine h.moves (List.subset_append_left _ _) (fun message' hmem ↦ ?_) (fun _ ↦ Or.inl)
      (fun _ _ ↦ Or.inl) rfl rfl
    exact (List.mem_append.mp hmem).imp_right (List.mem_append_right _)
  | .deliver i k =>
    rw [Conversation.step]
    split
    · rw [deliver]
      split
      · exact h
      · next message hmessage =>
        -- what is delivered was in the queue, and so was published
        have hpublished : message ∈ s.published := h.ready _ (List.mem_of_getElem? hmessage)
        refine h.moves (List.Subset.refl _) (fun message' hmem ↦ ?_) (fun d hmem ↦ ?_)
          (fun j message' hmem ↦ ?_) rfl rfl
        · exact Or.inl (List.mem_of_mem_eraseIdx hmem)
        · refine (List.mem_append.mp hmem).imp_right fun hmem ↦ ?_
          rw [List.mem_singleton.mp hmem]
          exact hpublished
        · by_cases hj : j = i
          · subst hj
            rw [update_handlers_self] at hmem
            refine (List.mem_append.mp hmem).imp_right fun hmem ↦ ?_
            rw [List.mem_singleton.mp hmem]
            exact hpublished
          · rw [update_handlers_of_ne hj] at hmem
            exact Or.inl hmem
    · exact h
  | .settle i tag =>
    rw [Conversation.step]
    split
    · exact h.moves (List.Subset.refl _) (fun _ ↦ Or.inl)
        (fun d hmem ↦ Or.inl (List.mem_of_mem_filter hmem)) (fun _ _ ↦ Or.inl) rfl rfl
    · exact h
  | .requeue i tag =>
    refine h.moves (List.Subset.refl _) (fun message hmem ↦ ?_)
      (fun d hmem ↦ Or.inl (List.mem_of_mem_filter hmem)) (fun _ _ ↦ Or.inl) rfl rfl
    refine (List.mem_append.mp hmem).imp_right fun hmem ↦ ?_
    obtain ⟨d, hd, rfl⟩ := List.mem_map.mp hmem
    exact h.unacked d (List.mem_of_mem_filter hd)
  | .connect =>
    rw [Conversation.step]
    split
    · refine h.moves (List.Subset.refl _) (fun _ ↦ Or.inl) (fun _ ↦ Or.inl)
        (fun i message hmem ↦ ?_) rfl rfl
      by_cases hi : i = s.count
      · subst hi
        rw [update_handlers_self] at hmem
        exact absurd hmem List.not_mem_nil
      · rw [update_handlers_of_ne hi] at hmem
        exact Or.inl hmem
    · exact h
  | .orchestrate => exact h.client hagrees (Client.progress_orchestrate hagrees.recorded)
  | .senderTakes => exact h.client hagrees (Client.progress_senderTakes hagrees.recorded)
  | .senderFails => exact h.client hagrees (Client.progress_senderFails hagrees.recorded)
  | .receiverFails => exact h.client hagrees (Client.progress_receiverFails hagrees.recorded)
  | .senderSends =>
    rw [Conversation.step, Conversation.senderSends]
    split
    · exact h.quiet rfl rfl rfl (deliveries_update (by rfl)) rfl rfl
    · exact h
    · exact h
  | .receives =>
    rw [Conversation.step, Conversation.receives]
    split
    · exact h
    · split
      · exact h.quiet rfl rfl rfl (deliveries_update (by rfl)) rfl rfl
      · exact h
  | .reads i =>
    rw [Conversation.step, Conversation.reads]
    simp only
    split
    · exact h.quiet rfl rfl rfl (deliveries_update (by rfl)) rfl rfl
    · exact h.quiet rfl rfl rfl (deliveries_update (by rfl)) rfl rfl
    · exact h
  | .forwards i =>
    rw [Conversation.step, Conversation.forwards]
    simp only
    split
    · split
      · exact h.quiet rfl rfl rfl (deliveries_update (by rfl)) rfl rfl
      · exact h.quiet rfl rfl rfl (deliveries_update (by rfl)) rfl rfl
    all_goals exact h
  | .enqueuesAck i =>
    rw [Conversation.step, enqueuesAck]
    split
    · exact h.quiet rfl rfl rfl (deliveries_update (by rfl)) rfl rfl
    all_goals exact h
  | .fails i => exact h.quiet rfl rfl rfl (deliveries_update (by rfl)) rfl rfl
  | .sends i | .sendFails i =>
    exact h.quiet rfl rfl rfl (deliveries_update (Handler.deliveries_senderStep _ _)) rfl rfl

end Conversation

/-! ## What is received -/

/-- The ids of the batches of a query among some messages. -/
def batchIds (messages : List (ResultMessage R)) (queryId : ℤ) : Finset MessageId :=
  (messages.filterMap fun
    | .batch queryId' _ messageId =>
      if queryId' = queryId ∧ messageId ≠ "" then some messageId else none
    | .queryEnd _ _ => none).toFinset

theorem mem_batchIds {messages : List (ResultMessage R)} {queryId : ℤ} {messageId : MessageId} :
    messageId ∈ batchIds messages queryId ↔
      messageId ≠ "" ∧ ∃ records, .batch queryId records messageId ∈ messages := by
  rw [batchIds, List.mem_toFinset, List.mem_filterMap]
  constructor
  · rintro ⟨message, hmem, hid⟩
    match message with
    | .batch queryId' records messageId' =>
      obtain ⟨⟨rfl, hne⟩, heq⟩ := Option.ite_none_right_eq_some.mp hid
      obtain rfl : messageId' = messageId := Option.some.inj heq
      exact ⟨hne, records, hmem⟩
    | .queryEnd _ _ => cases hid
  · rintro ⟨hne, records, hmem⟩
    exact ⟨_, hmem, if_pos ⟨rfl, hne⟩⟩

namespace Client

variable {c : Client R}

/-- The ids of a query that were written. -/
def writtenIds (c : Client R) (queryId : ℤ) : Finset MessageId :=
  ((c.writtenKeys.filter (·.1 = queryId)).map Prod.snd).toFinset

/-- How many batches of a query were written without an id. -/
def anonymous (c : Client R) (queryId : ℤ) : ℕ :=
  c.written.countP fun w ↦ w.1 = queryId ∧ w.2.2 = ""

theorem mem_writtenIds {queryId : ℤ} {messageId : MessageId} :
    messageId ∈ c.writtenIds queryId ↔
      messageId ≠ "" ∧ ∃ records, (queryId, records, messageId) ∈ c.written := by
  rw [← mem_writtenKeys, writtenIds, List.mem_toFinset, List.mem_map]
  constructor
  · rintro ⟨key, hkey, rfl⟩
    obtain ⟨hmem, hquery⟩ := List.mem_filter.mp hkey
    obtain rfl := of_decide_eq_true hquery
    exact hmem
  · intro hkey
    exact ⟨_, List.mem_filter.mpr ⟨hkey, decide_eq_true rfl⟩, rfl⟩

/-- Each batch with an id is received under its own. -/
theorem Recorded.received_eq (h : c.Recorded) (queryId : ℤ) :
    c.received queryId = (c.writtenIds queryId).card + c.anonymous queryId := by
  have hnodup : ((c.writtenKeys.filter (·.1 = queryId)).map Prod.snd).Nodup := by
    refine List.Nodup.map_on (fun key hkey key' hkey' heq ↦ ?_) (h.nodup.filter _)
    have hquery := of_decide_eq_true (List.mem_filter.mp hkey).2
    have hquery' := of_decide_eq_true (List.mem_filter.mp hkey').2
    exact Prod.ext (hquery.trans hquery'.symm) heq
  rw [writtenIds, List.toFinset_card_of_nodup hnodup, List.length_map,
    ← List.countP_eq_length_filter, writtenKeys, List.countP_filter, List.countP_map, h.received,
    anonymous, List.countP_eq_countP_filter_add c.written _ fun w ↦ w.2.2 ≠ "", List.countP_filter,
    List.countP_filter]
  congr 2
  funext w
  simp

end Client

/-! ## The results of a run -/

/-- Every result of a query has its own id, and each of its ends says how many ids there are. -/
structure Counted (published : List (ResultMessage R)) (queryId : ℤ) : Prop where
  ids : ∀ records messageId, .batch queryId records messageId ∈ published → messageId ≠ ""
  distinct : ∀ records records' messageId, .batch queryId records messageId ∈ published →
    .batch queryId records' messageId ∈ published → records = records'
  count : ∀ count : ℤ, .queryEnd queryId count ∈ published →
    count = (batchIds published queryId).card

namespace Conversation

variable {s : Conversation R}

/-- Results are written once, deliveries are acknowledged to the broker once and behind that, and a
query is finalized when all of its results are written. -/
structure Results (s : Conversation R) : Prop where
  writtenOnce : s.client.writtenKeys.Nodup
  written : ∀ w ∈ s.client.written, .batch w.1 w.2.1 w.2.2 ∈ s.published
  acksOnce : s.acks.Nodup
  /-- At every point of a run, what is acknowledged by then is also written by then. -/
  acks : ∀ i tag, (i, tag) ∈ s.acks →
    ∃ message, (s.handlers i).deliveries[tag]? = some message ∧ s.client.Confirmed message
  /-- A query is finalized at the count of an end that was received; results without an id, of which
  a copy cannot be told from a new one, are counted each time. -/
  finalized : ∀ queryId ∈ s.client.finalized, ∃ count, (queryId, count) ∈ s.client.ends ∧
    .queryEnd queryId count ∈ s.published ∧
      count ≤ (s.client.writtenIds queryId).card + s.client.anonymous queryId
  /-- Where all results have ids, at the count of the ids that were written. -/
  finalizedIds : ∀ queryId ∈ s.client.finalized,
    (∀ records messageId, .batch queryId records messageId ∈ s.published → messageId ≠ "") →
      ∃ count, (queryId, count) ∈ s.client.ends ∧ count ≤ (s.client.writtenIds queryId).card
  complete : ∀ queryId ∈ s.client.finalized, Counted s.published queryId →
    ∀ records messageId, .batch queryId records messageId ∈ s.published →
      (queryId, records, messageId) ∈ s.client.written

theorem anonymous_eq_zero (h : s.FromQueue) {queryId : ℤ}
    (hids : ∀ records messageId, .batch queryId records messageId ∈ s.published →
      messageId ≠ "") :
    s.client.anonymous queryId = 0 := by
  refine List.countP_eq_zero.mpr fun w hmem hw ↦ ?_
  obtain ⟨rfl, hid⟩ := of_decide_eq_true hw
  exact hids w.2.1 w.2.2 (h.written w hmem) hid

theorem writtenIds_subset (h : s.FromQueue) (queryId : ℤ) :
    s.client.writtenIds queryId ⊆ batchIds s.published queryId := by
  intro messageId hmem
  obtain ⟨hne, records, hwritten⟩ := Client.mem_writtenIds.mp hmem
  exact mem_batchIds.mpr ⟨hne, records, h.written _ hwritten⟩

/-- When as many ids are written as there are, all of them are. -/
theorem mem_written_of_counted (h : s.FromQueue) {queryId : ℤ}
    (hcounted : Counted s.published queryId)
    (hcard : (batchIds s.published queryId).card ≤ (s.client.writtenIds queryId).card)
    {records : List R} {messageId : MessageId}
    (hmem : .batch queryId records messageId ∈ s.published) :
    (queryId, records, messageId) ∈ s.client.written := by
  have hids : s.client.writtenIds queryId = batchIds s.published queryId :=
    Finset.eq_of_subset_of_card_le (writtenIds_subset h queryId) hcard
  have hid : messageId ∈ s.client.writtenIds queryId := by
    rw [hids]
    exact mem_batchIds.mpr ⟨hcounted.ids records messageId hmem, records, hmem⟩
  obtain ⟨-, records', hwritten⟩ := Client.mem_writtenIds.mp hid
  obtain rfl := hcounted.distinct records records' messageId hmem (h.written _ hwritten)
  exact hwritten

/-- What holds after every run. -/
structure ResultInvariant (s : Conversation R) : Prop where
  agrees : s.Agrees
  fromQueue : s.FromQueue

theorem ResultInvariant.step (h : s.ResultInvariant) (event : Event R) :
    (s.step cfg router clientId event).ResultInvariant :=
  ⟨h.agrees.step event, h.fromQueue.step h.agrees event⟩

theorem resultInvariant_run (events : List (Event R)) :
    (run (step cfg router clientId) init events).ResultInvariant :=
  run_of_invariant (fun _ event h ↦ h.step event) ⟨agrees_init, fromQueue_init⟩

/-- **Results are delivered once.** -/
theorem results_run (events : List (Event R)) :
    (run (step cfg router clientId) init events).Results := by
  have hinvariant : (run (step cfg router clientId) init events).ResultInvariant :=
    resultInvariant_run events
  generalize run (step cfg router clientId) init events = s at hinvariant
  obtain ⟨hagrees, hfrom⟩ := hinvariant
  have hrecorded := hagrees.recorded
  have hfinalized : ∀ queryId ∈ s.client.finalized, ∃ count, (queryId, count) ∈ s.client.ends ∧
      .queryEnd queryId count ∈ s.published ∧
        count ≤ (s.client.writtenIds queryId).card + s.client.anonymous queryId := by
    intro queryId hmem
    obtain ⟨count, hends, hle⟩ := hrecorded.finalized queryId hmem
    refine ⟨count, hends, hfrom.ends _ hends, ?_⟩
    rw [hrecorded.received_eq] at hle
    exact_mod_cast hle
  have hfinalizedIds : ∀ queryId ∈ s.client.finalized,
      (∀ records messageId, .batch queryId records messageId ∈ s.published → messageId ≠ "") →
        ∃ count, (queryId, count) ∈ s.client.ends ∧ count ≤ (s.client.writtenIds queryId).card := by
    intro queryId hmem hids
    obtain ⟨count, hends, -, hle⟩ := hfinalized queryId hmem
    rw [anonymous_eq_zero hfrom hids, Nat.cast_zero, add_zero] at hle
    exact ⟨count, hends, hle⟩
  refine ⟨hrecorded.nodup, hfrom.written, hagrees.nodup, fun i tag hmem ↦ ?_, hfinalized,
    hfinalizedIds, fun queryId hmem hcounted records messageId hbatch ↦ ?_⟩
  · obtain ⟨-, message, ⟨tag', htag', hdelivery⟩, hconfirmed⟩ := hagrees.acks i tag hmem
    obtain rfl := Nat.succ.inj htag'
    exact ⟨message, hdelivery, hconfirmed⟩
  · obtain ⟨count, hends, hle⟩ := hfinalizedIds queryId hmem hcounted.ids
    rw [hcounted.count count (hfrom.ends _ hends)] at hle
    exact mem_written_of_counted hfrom hcounted (by exact_mod_cast hle) hbatch

end Conversation

end MoneyLaundering
