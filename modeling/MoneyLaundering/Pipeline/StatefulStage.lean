import MoneyLaundering.Collections.Dataflow
import MoneyLaundering.Pipeline.Headers
import MoneyLaundering.Ring.Identified

/-!
# A stateful stage in the pipeline

In the pipeline a stage is sent its messages one by one, while it works. Since a node takes them in
any order they might as well have been in its queue from the start (`Step.deliver`), so that what
holds of runs with given queues holds here. What a stage publishes is clean if each queue of the
next stage is bound by one routing key (`Distinct.clean`).
-/

namespace MoneyLaundering

open StatefulWorker

/-- The header of a message in a main queue. -/
def MainMessage.header {w : StatefulWorker} : MainMessage w → Header
  | .data messageId _ => ⟨messageId, none⟩
  | .eof messageId marker => ⟨messageId, some marker⟩

/-- Where a stateful worker publishes, and the routing key of its ends of streams. -/
structure Outlet where
  middleware : Middleware
  eofKey : Option String

/-- The message of an output, if it leaves the stage. -/
def Outlet.posted {α : Type} (outlet : Outlet) : Output α → Option Posted
  | .data m => some ⟨⟨outlet.middleware, m.routingKey⟩, ⟨m.messageId, none⟩⟩
  | .ring _ _ => none
  | .finalEof messageId eof => some ⟨⟨outlet.middleware, outlet.eofKey⟩, ⟨messageId, some eof⟩⟩

/-- What has left the stage. -/
def Network.posted {α : Type} (outlet : Outlet) (net : Network α) : List Posted :=
  net.outputs.filterMap fun p ↦ outlet.posted p.2

variable {w : StatefulWorker} {n : ℕ} {client : ClientId} {G : Type}

namespace Stage

/-- A message is put in the queue of a node. -/
def deliver (s : Stage w) (i : NodeId) (message : MainMessage w) : Stage w :=
  { s with inbox := Function.update s.inbox i (s.inbox i ++ [message]) }

theorem inbox_deliver_self (s : Stage w) (i : NodeId) (message : MainMessage w) :
    (s.deliver i message).inbox i = s.inbox i ++ [message] := Function.update_self _ _ _

theorem inbox_deliver_of_ne (s : Stage w) {i j : NodeId} (h : j ≠ i) (message : MainMessage w) :
    (s.deliver i message).inbox j = s.inbox j := Function.update_of_ne h _ _

theorem deliver_init (inbox : NodeId → List (MainMessage w)) (i : NodeId)
    (message : MainMessage w) :
    (init inbox).deliver i message = init (Function.update inbox i (inbox i ++ [message])) := rfl

/-- **A message that comes late might have been there before.** -/
theorem Step.deliver {s s' : Stage w} {l : Label} (h : Step n client s l s') (i : NodeId)
    (message : MainMessage w) : Step n client (s.deliver i message) l (s'.deliver i message) := by
  cases h with
  | @main j before after taken flow es point outs store compacted hj hinbox hhandles hrun =>
    by_cases hij : j = i
    · subst hij
      have hinbox' : (s.deliver j message).inbox j = before ++ taken :: (after ++ [message]) := by
        rw [inbox_deliver_self, hinbox, List.append_assoc, List.cons_append]
      have hstep := Step.main (s := s.deliver j message) hj hinbox' hhandles hrun
      convert hstep using 1
      rw [Stage.deliver, Stage.deliver, Stage.mk.injEq]
      refine ⟨rfl, ?_, rfl⟩
      dsimp only
      split
      · rw [Function.update_self, Function.update_idem, Function.update_idem, List.append_assoc]
      · rfl
    · have hinbox' : (s.deliver i message).inbox j = before ++ taken :: after := by
        rw [inbox_deliver_of_ne s hij, hinbox]
      have hstep := Step.main (s := s.deliver i message) hj hinbox' hhandles hrun
      convert hstep using 1
      rw [Stage.deliver, Stage.deliver, Stage.mk.injEq]
      refine ⟨rfl, ?_, rfl⟩
      dsimp only
      split
      · rw [Function.update_of_ne (Ne.symm hij), Function.update_comm hij]
      · rfl
  | token hj hhead hflush hhandles hrun =>
    exact .token (s := s.deliver i message) hj hhead hflush hhandles hrun
  | restart hj hrestart => exact .restart (s := s.deliver i message) hj hrestart

theorem Reachable.deliver {inbox : NodeId → List (MainMessage w)} {s : Stage w}
    {condition : Label → Prop} (h : Reachable n client (fun _ l ↦ condition l) (init inbox) s)
    (i : NodeId) (message : MainMessage w) :
    Reachable n client (fun _ l ↦ condition l)
      (init (Function.update inbox i (inbox i ++ [message]))) (s.deliver i message) := by
  rw [← deliver_init]
  induction h with
  | refl => exact .refl
  | tail _ hlast ih =>
    obtain ⟨l, hl, hstep⟩ := hlast
    exact ih.tail ⟨l, hl, hstep.deliver i message⟩

end Stage

/-! ## As a component -/

/-- The nodes of a stage as a component. `source` is the queue that a node takes its messages from.
Whatever a message of the client has in it, a node is given it. -/
def StatefulWorker.component (w : StatefulWorker) (n : ℕ) (client : ClientId) (outlet : Outlet)
    (source : NodeId → ℕ) (intake : G) : Dataflow.Component G Posted where
  State := Stage w
  initial := Stage.init fun _ ↦ []
  Receives s g q m s' := g = intake ∧ ∃ i message, i < n ∧ source i = q ∧
    MainMessage.header message = m.header ∧ s' = s.deliver i message
  Works s more s' := ∃ l outs, l.Complete ∧ Stage.Step n client s l s' ∧
    s'.net.outputs = s.net.outputs ++ outs ∧ more = outs.filterMap fun p ↦ outlet.posted p.2

/-- A stage of which node `i` has handled what it took, with this result. -/
def Stage.handled (s : Stage w) (client : ClientId) (i : NodeId) (taken : Taken)
    (inbox : NodeId → List (MainMessage w)) (result : Flow w.State × List (Eff w)) : Stage w where
  store := Function.update s.store i ⟨Function.update (s.store i).mem client result.1,
    (s.store i).log ++ (WriteAhead.appends result.2).map fun r ↦ (client, r)⟩
  inbox := inbox
  net := s.net.handled i (s.node client i) taken (WriteAhead.publishes result.2)

section Component

variable {outlet : Outlet} {source : NodeId → ℕ} {intake : G} {s : Stage w}

/-- A node takes the first message of its queue. -/
theorem StatefulWorker.works_main (i : NodeId) {message : MainMessage w}
    {after : List (MainMessage w)} (hi : i < n) (hinbox : s.inbox i = message :: after)
    (h : (handleMessage ⟨i, n⟩ client ((s.store i).mem client) message).isSome = true) :
    let result := (handleMessage ⟨i, n⟩ client ((s.store i).mem client) message).get h
    (w.component n client outlet source intake).Works s
      ((WriteAhead.publishes result.2).filterMap outlet.posted)
      (s.handled client i message.taken (Function.update s.inbox i after) result) := by
  refine ⟨.main i message.taken true, _, rfl,
    @Stage.step_main w n client s i [] after message _ _ hi
    hinbox (Option.some_get h).symm, Network.outputs_handled .., ?_⟩
  rw [List.filterMap_map]
  rfl

/-- A node takes the first token of its control queue. -/
theorem StatefulWorker.works_token (i : NodeId) (envelope : Envelope) {rest : List Envelope}
    (msgs : List (Message w.Item)) (hi : i < n) (hhead : s.net.control i = envelope :: rest)
    (hflush : w.FlushData i client ((s.store i).mem client).state msgs) :
    let result := handleControlMessage ⟨i, n⟩ client msgs ((s.store i).mem client) envelope.token
    let handled := s.handled client i (.token envelope) s.inbox result
    (w.component n client outlet source intake).Works s
      ((WriteAhead.publishes result.2).filterMap outlet.posted)
      { handled with net := handled.net.pop i } := by
  refine ⟨.token i msgs.length true, _, rfl, Stage.step_token hi hhead hflush rfl,
    Network.outputs_handled (u := s.node client i) .., ?_⟩
  rw [List.filterMap_map]
  rfl

end Component

/-- The nodes have what was put in the queues of the stage. -/
structure Filled (n : ℕ) (source : NodeId → ℕ) (queues : ℕ → List Header)
    (inbox : NodeId → List (MainMessage w)) : Prop where
  outside : ∀ i, n ≤ i → inbox i = []
  rows : ∀ i, ((inbox i).map MainMessage.header).Sublist (queues (source i))
  ids : ∀ count, (∀ i < n, source i < count) →
    ∑ i ∈ Finset.range n, Header.ids ((inbox i).map MainMessage.header)
      = ∑ q ∈ Finset.range count, Header.ids (queues q)
  ends : ∀ count, (∀ i < n, source i < count) →
    ∑ i ∈ Finset.range n, Header.ends ((inbox i).map MainMessage.header)
      = ∑ q ∈ Finset.range count, Header.ends (queues q)

section Filled

variable {disc : Option String} {source : NodeId → ℕ} {queues : ℕ → List Header}
  {inbox : NodeId → List (MainMessage w)}

/-- One list of a family grows. -/
theorem sum_update_append {M β γ : Type} [AddCancelCommMonoid M] (g : γ → β) (f : List β → M)
    (hf : ∀ l m, f (l ++ [m]) = f l + f [m]) {n i : ℕ} (hi : i < n) (l : ℕ → List γ) (m : γ) :
    ∑ j ∈ Finset.range n, f ((Function.update l i (l i ++ [m]) j).map g)
      = ∑ j ∈ Finset.range n, f ((l j).map g) + f [g m] := by
  have hsum := Family.sum_update_add (Finset.mem_range.mpr hi) l (l i ++ [m]) fun l ↦ f (l.map g)
  rw [List.map_append, List.map_singleton, hf, add_comm (f ((l i).map g)), ← add_assoc] at hsum
  exact add_right_cancel hsum

theorem Filled.deliver (h : Filled n source queues inbox) {i : NodeId} (hi : i < n)
    (message : MainMessage w) :
    Filled n source
      (Function.update queues (source i) (queues (source i) ++ [message.header]))
      (Function.update inbox i (inbox i ++ [message])) where
  outside j hj := by
    rw [Function.update_of_ne (hi.trans_le hj).ne']
    exact h.outside j hj
  rows j := by
    by_cases hj : j = i
    · subst hj
      rw [Function.update_self, Function.update_self, List.map_append, List.map_singleton]
      exact (h.rows j).append_right _
    · rw [Function.update_of_ne hj]
      by_cases hq : source j = source i
      · rw [hq, Function.update_self, ← hq]
        exact (h.rows j).trans (List.sublist_append_left _ _)
      · rw [Function.update_of_ne hq]
        exact h.rows j
  ids count hcount := by
    rw [sum_update_append MainMessage.header Header.ids (fun l m ↦ Header.ids_append l [m]) hi,
      h.ids count hcount]
    have hqueues := sum_update_append id Header.ids (fun l m ↦ Header.ids_append l [m])
      (hcount i hi) queues message.header
    simpa only [List.map_id, id] using hqueues.symm
  ends count hcount := by
    rw [sum_update_append MainMessage.header Header.ends (fun l m ↦ Header.ends_append l [m]) hi,
      h.ends count hcount]
    have hqueues := sum_update_append id Header.ends (fun l m ↦ Header.ends_append l [m])
      (hcount i hi) queues message.header
    simpa only [List.map_id, id] using hqueues.symm

/-- At most one end of the stream is in the queues of the nodes. -/
theorem Filled.undelivered_le (h : Filled n source queues inbox)
    (hclean : CleanQueues client disc queues) :
    undelivered n Taken.isStart (fun i ↦ (inbox i).map MainMessage.taken) ≤ 1 := by
  have hstart : (Taken.isStart ∘ MainMessage.taken : MainMessage w → Bool)
      = Header.isEnd ∘ MainMessage.header := by
    funext message
    cases message with
    | data messageId payload => rfl
    | eof messageId marker => exact decide_not
  have hcount : ∃ count, ∀ i < n, source i < count :=
    ⟨(Finset.range n).sup source + 1, fun i hi ↦
      Nat.lt_succ_of_le (Finset.le_sup (Finset.mem_range.mpr hi))⟩
  obtain ⟨count, hcount⟩ := hcount
  have hends := h.ends count hcount
  have heq : undelivered n Taken.isStart (fun i ↦ (inbox i).map MainMessage.taken)
      = ∑ i ∈ Finset.range n, Header.ends ((inbox i).map MainMessage.header) :=
    Finset.sum_congr rfl fun i _ ↦ by
      rw [List.countP_map, hstart, Header.ends, List.countP_map]
  rw [heq, hends]
  exact hclean.ends count

theorem filterMap_dataId (messages : List (MainMessage w)) :
    (messages.filterMap MainMessage.dataId : Multiset MessageId)
      = Header.ids (messages.map MainMessage.header) := by
  have hid : (MainMessage.dataId : MainMessage w → Option MessageId)
      = Header.dataId ∘ MainMessage.header := by
    funext message
    cases message <;> rfl
  rw [Header.ids, List.filterMap_map, hid]

/-- The ids of the data messages are those that were sent to the queues of the stage. -/
theorem Filled.dataIdsOf_eq (h : Filled n source queues inbox) {count : ℕ}
    (hcount : ∀ i < n, source i < count) :
    dataIdsOf n inbox = ∑ q ∈ Finset.range count, Header.ids (queues q) := by
  rw [← h.ids count hcount]
  exact Finset.sum_congr rfl fun i _ ↦ filterMap_dataId _

/-- The messages in the queue of a node differ. -/
theorem Filled.pairwise_differ (h : Filled n source queues inbox)
    (hclean : CleanQueues client disc queues)
    (i : NodeId) : ((inbox i).map MainMessage.taken).Pairwise Taken.Differ := by
  have hdiffer := (hclean.pairwise_differ (source i)).sublist (h.rows i)
  rw [List.pairwise_map] at hdiffer ⊢
  refine hdiffer.imp fun {m m'} hm ↦ ?_
  have hclean : ∀ m : MainMessage w, m.header.isCleanup = true → m.taken.Cleans := by
    intro m hm
    cases m with
    | data messageId payload => exact absurd hm Bool.false_ne_true
    | eof messageId marker => exact of_decide_eq_true hm
  have hid : ∀ m : MainMessage w, m.taken.id = m.header.messageId := fun m ↦ by cases m <;> rfl
  rw [Taken.Differ, hid, hid]
  exact hm.imp_left fun hboth ↦ ⟨hclean m hboth.1, hclean m' hboth.2⟩

end Filled

/-- What a history of a stage comes to: a run without crashes from queues with all that has arrived.
-/
structure Behaved (n : ℕ) (client : ClientId) (outlet : Outlet) (source : NodeId → ℕ)
    (queues : ℕ → List Header) (published : List Posted) (s : Stage w) : Prop where
  exists_inbox : ∃ inbox, Filled n source queues inbox ∧
    Stage.Reachable n client (fun _ l ↦ l.Complete) (Stage.init inbox) s
  published_eq : published = s.net.posted outlet

theorem behaved_of_history [DecidableEq G] {outlet : Outlet} {source : NodeId → ℕ} {intake : G}
    {arrived : G → ℕ → List Posted} {published : List Posted}
    {s : (w.component n client outlet source intake).State}
    (h : (w.component n client outlet source intake).History arrived published s) :
    Behaved n client outlet source (fun q ↦ (arrived intake q).map Posted.header) published s := by
  induction h with
  | initial =>
    exact ⟨⟨fun _ ↦ [], ⟨fun _ _ ↦ rfl, fun _ ↦ List.nil_sublist _, fun count _ ↦ by simp,
      fun count _ ↦ by simp⟩, .refl⟩, rfl⟩
  | @receives arrived published s s' g q m _ hreceives ih =>
    obtain ⟨rfl, i, message, hi, rfl, hheader, rfl⟩ := hreceives
    obtain ⟨⟨inbox, hfilled, hreach⟩, hpublished⟩ := ih
    refine ⟨⟨_, ?_, hreach.deliver i message⟩, hpublished⟩
    have hqueues : (fun q ↦ (Function.update arrived g (Function.update (arrived g) (source i)
          (arrived g (source i) ++ [m])) g q).map Posted.header)
        = Function.update (fun q ↦ (arrived g q).map Posted.header) (source i)
            ((arrived g (source i)).map Posted.header ++ [message.header]) := by
      funext q
      rw [Function.update_self]
      by_cases hq : q = source i
      · subst hq
        rw [Function.update_self, Function.update_self, List.map_append,
          List.map_singleton, hheader]
      · rw [Function.update_of_ne hq, Function.update_of_ne hq]
    rw [hqueues]
    exact hfilled.deliver hi message
  | works _ hworks ih =>
    obtain ⟨l, outs, hl, hstep, houts, rfl⟩ := hworks
    obtain ⟨⟨inbox, hfilled, hreach⟩, hpublished⟩ := ih
    refine ⟨⟨inbox, hfilled, hreach.tail ⟨l, hl, hstep⟩⟩, ?_⟩
    rw [hpublished, Network.posted, Network.posted, houts, List.filterMap_append]

/-! ## What is published -/

/-- Each queue of the group is bound by one routing key, and no two by the same. -/
def Route.Keyed (r : Route) : Prop :=
  ∃ keys : List (Option String), r.queues = keys.map (fun key ↦ [key]) ∧ keys.Nodup

theorem Route.Keyed.copies_le {r : Route} (h : r.Keyed) (address : Address) :
    r.copies address ≤ 1 := by
  obtain ⟨keys, hqueues, hnodup⟩ := h
  by_cases haddress : address.middleware = r.middleware
  · rw [copies_of_eq haddress, hqueues, List.countP_map]
    refine le_trans (le_of_eq ?_) (List.nodup_iff_count_le_one.mp hnodup address.routingKey)
    refine List.countP_congr fun key _ ↦ ?_
    rw [Function.comp_apply, decide_eq_true_iff, List.mem_singleton, beq_iff_eq, eq_comm]
  · rw [copies_of_ne haddress]
    exact Nat.zero_le _

section Published

variable {α : Type} {outlet : Outlet} {r : Route} {net : Network α}

/-- What a queue is sent has the routing key that the queue is bound by. -/
theorem ids_routed_sublist {q : ℕ} {key : Option String} (hq : r.queues[q]? = some [key])
    (outputs : List (NodeId × Output α)) :
    ((r.routed (outputs.filterMap fun p ↦ outlet.posted p.2) q).filterMap Header.dataId).Sublist
      (idsUnder key (outputs.filterMap fun p ↦ p.2.toMessage.map (Prod.mk p.1))) := by
  induction outputs with
  | nil => exact List.Sublist.refl _
  | cons p outputs ih =>
    obtain ⟨i, o⟩ := p
    cases o with
    | ring node token => exact ih
    | finalEof messageId eof =>
      have hposted : List.filterMap (fun p : NodeId × Output α ↦ outlet.posted p.2)
            ((i, .finalEof messageId eof) :: outputs)
          = ⟨⟨outlet.middleware, outlet.eofKey⟩, ⟨messageId, some eof⟩⟩
            :: outputs.filterMap fun p ↦ outlet.posted p.2 := List.filterMap_cons_some rfl
      rw [hposted, Route.routed, List.filter_cons]
      split
      · rw [List.map_cons, List.filterMap_cons_none rfl]
        exact ih
      · exact ih
    | data m =>
      have hposted : List.filterMap (fun p : NodeId × Output α ↦ outlet.posted p.2)
            ((i, .data m) :: outputs)
          = ⟨⟨outlet.middleware, m.routingKey⟩, ⟨m.messageId, none⟩⟩
            :: outputs.filterMap fun p ↦ outlet.posted p.2 := List.filterMap_cons_some rfl
      have hmessages : List.filterMap (fun p : NodeId × Output α ↦ p.2.toMessage.map (Prod.mk p.1))
            ((i, .data m) :: outputs)
          = (i, m) :: outputs.filterMap fun p ↦ p.2.toMessage.map (Prod.mk p.1) :=
        List.filterMap_cons_some rfl
      rw [hposted, hmessages, Route.routed, List.filter_cons, idsUnder, List.filter_cons]
      by_cases haccepts :
        r.accepts q ⟨⟨outlet.middleware, m.routingKey⟩, ⟨m.messageId, none⟩⟩ = true
      · have hkey : m.routingKey = key := by
          have hmem := (Route.accepts_iff.mp haccepts).2
          rw [hq, Option.getD_some, List.mem_singleton] at hmem
          exact hmem
        rw [if_pos haccepts, if_pos (decide_eq_true hkey), List.map_cons, List.map_cons]
        exact ih.cons_cons m.messageId
      · rw [if_neg haccepts]
        split
        · exact ih.cons _
        · exact ih

/-- The ends of the stream that have left the stage. -/
theorem ends_posted (outlet : Outlet) (net : Network α) :
    Header.ends ((net.posted outlet).map Posted.header) = net.ends := by
  rw [Network.posted, Network.ends, Header.ends, List.countP_map, List.countP_filterMap]
  refine List.countP_congr fun p _ ↦ ?_
  obtain ⟨i, o⟩ := p
  cases o <;> simp [Outlet.posted, Output.isEnd, Header.isEnd]

theorem mem_posted {m : Posted} (hm : m ∈ net.posted outlet) :
    (∃ p ∈ net.messages, m.header = ⟨p.2.messageId, none⟩) ∨
      ∃ i messageId eof, (i, .finalEof messageId eof) ∈ net.outputs ∧
        m.header = ⟨messageId, some eof⟩ := by
  obtain ⟨⟨i, o⟩, hmem, hposted⟩ := List.mem_filterMap.mp hm
  cases o with
  | data message =>
    obtain rfl := Option.some.inj hposted
    exact Or.inl ⟨(i, message), Network.mem_messages.mpr hmem, rfl⟩
  | ring node token => exact absurd hposted (Option.some_ne_none _).symm
  | finalEof messageId eof =>
    obtain rfl := Option.some.inj hposted
    exact Or.inr ⟨i, messageId, eof, hmem, rfl⟩

/-- **A stage that publishes no id twice keeps queues clean.** -/
theorem Stage.Distinct.clean {s : Stage w} (h : s.Distinct client) (hkeyed : r.Keyed) :
    CleanQueues client w.queryId (r.routed (s.net.posted outlet)) where
  ids q := by
    obtain ⟨keys, hqueues, -⟩ := hkeyed
    by_cases hq : r.queues.length ≤ q
    · rw [Route.routed_of_le hq, Header.ids_nil]
      exact Multiset.nodup_zero
    · have hlt : q < keys.length := by
        rw [hqueues, List.length_map] at hq
        exact not_le.mp hq
      have hkey : r.queues[q]? = some [keys[q]] := by
        rw [hqueues, List.getElem?_map, List.getElem?_eq_getElem hlt, Option.map_some]
      exact Multiset.coe_nodup.mpr ((h.ids _).sublist (ids_routed_sublist hkey s.net.outputs))
  ends count := by
    refine le_trans (Route.sum_ends_routed_le _ count) (le_trans ?_ h.ends)
    rw [← ends_posted outlet, Header.ends_eq_sum, List.map_map]
    refine List.sum_le_sum fun m _ ↦ ?_
    rw [smul_eq_mul]
    exact (Nat.mul_le_mul_right _ (hkeyed.copies_le m.address)).trans (one_mul _).le
  data q m hm hnone := by
    obtain ⟨m', hm', rfl⟩ := List.mem_map.mp hm
    rcases mem_posted (List.mem_of_mem_filter hm') with ⟨p, hp, heq⟩ | ⟨i, mid, eof, -, heq⟩
    · rw [heq]
      exact h.data p hp
    · exact absurd (heq ▸ hnone) (Option.some_ne_none _)
  eofs q m hm eof hsome := by
    obtain ⟨m', hm', rfl⟩ := List.mem_map.mp hm
    rcases mem_posted (List.mem_of_mem_filter hm') with ⟨p, -, heq⟩ | ⟨i, mid, eof', hmem, heq⟩
    · exact absurd (heq ▸ hsome) (Option.some_ne_none _).symm
    · rw [heq] at hsome ⊢
      obtain rfl := Option.some.inj hsome
      exact h.finals i mid eof' hmem

end Published

end MoneyLaundering
