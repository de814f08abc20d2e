import MoneyLaundering.Ring.Published
import MoneyLaundering.Worker.ShardedFlush
import MoneyLaundering.Workers.Kinds

/-!
# The ids a stage publishes

A stage that is sent one end of its stream publishes, under each routing key, no id twice
(`Distinct`). A flush takes care of its own ids, and the ids of different nodes differ; a worker
that passes messages on under their ids depends on those it is sent being distinct. And what waits
in the queues of a stage is not taken for a copy of what it has seen (`Unseen`).
-/

namespace MoneyLaundering

open StatefulWorker

variable {α : Type}

/-- If the entries of each owner are distinct, then the entries with their owners are. -/
theorem nodup_map_of_owners {β γ : Type} {l : List (NodeId × β)} (f : β → γ)
    (h : ∀ i, (((l.filter fun p ↦ p.1 = i).map Prod.snd).map f).Nodup) :
    (l.map fun p ↦ (p.1, f p.2)).Nodup := by
  induction l with
  | nil => exact List.nodup_nil
  | cons p l ih =>
    rw [List.map_cons, List.nodup_cons]
    refine ⟨fun hmem ↦ ?_, ih fun i ↦ (h i).sublist ?_⟩
    · -- the owner of `p` would have the entry twice
      obtain ⟨q, hq, heq⟩ := List.mem_map.mp hmem
      obtain ⟨howner, hentry⟩ := Prod.mk.inj heq
      have howned := h p.1
      have hself : ((p :: l).filter fun p' ↦ p'.1 = p.1) = p :: l.filter fun p' ↦ p'.1 = p.1 :=
        List.filter_cons_of_pos (decide_eq_true rfl)
      rw [hself, List.map_cons, List.map_cons, List.nodup_cons] at howned
      refine howned.1 (hentry ▸ List.mem_map_of_mem (List.mem_map_of_mem ?_))
      exact List.mem_filter.mpr ⟨hq, decide_eq_true howner⟩
    · exact (((List.sublist_cons_self p l).filter _).map _).map _

/-- What a flush sends: a routing key and an id determine the message, and the id names the node. -/
def StatefulWorker.FlushesIds (w : StatefulWorker) : Prop :=
  ∀ {node client state msgs}, w.FlushData node client state msgs →
    (msgs.map fun m ↦ (m.routingKey, m.messageId)).Nodup ∧
      ∀ m ∈ msgs, ∃ bucket, m.messageId = flushId node client bucket

namespace Network

theorem mem_messages {net : Network α} {p : NodeId × Message α} :
    p ∈ net.messages ↔ (p.1, .data p.2) ∈ net.outputs := by
  constructor
  · intro hmem
    obtain ⟨q, hq, heq⟩ := List.mem_filterMap.mp hmem
    obtain ⟨m, hm, rfl⟩ := Option.map_eq_some_iff.mp heq
    obtain ⟨i, o⟩ := q
    cases o with
    | data m' =>
      obtain rfl := Option.some.inj hm
      exact hq
    | ring node token => exact absurd hm (Option.some_ne_none _).symm
    | finalEof mid eof => exact absurd hm (Option.some_ne_none _).symm
  · intro hmem
    exact List.mem_filterMap.mpr ⟨_, hmem, rfl⟩

theorem mem_messagesOf {net : Network α} {p : NodeId × Message α} (h : p ∈ net.messages) :
    p.2 ∈ net.messagesOf p.1 :=
  List.mem_map_of_mem (List.mem_filter.mpr ⟨h, decide_eq_true rfl⟩)

end Network

theorem mem_idsUnder {messages : List (NodeId × Message α)} {p : NodeId × Message α}
    (h : p ∈ messages) : p.2.messageId ∈ idsUnder p.2.routingKey messages :=
  List.mem_map_of_mem (List.mem_filter.mpr ⟨h, decide_eq_true rfl⟩)

namespace Stage

variable {w : StatefulWorker} {n : ℕ} {client : ClientId} {s : Stage w}
  {inbox : NodeId → List (MainMessage w)}

/-- No id is published twice under a routing key, and the end of the stream is published once, under
an id of its own. -/
structure Distinct (client : ClientId) (s : Stage w) : Prop where
  ids : ∀ routingKey, (idsUnder routingKey s.net.messages).Nodup
  data : ∀ p ∈ s.net.messages, IsDataId client p.2.messageId
  ends : s.net.ends ≤ 1
  finals : ∀ i mid eof, (i, .finalEof mid eof) ∈ s.net.outputs →
    mid = finalEofId client eof w.queryId

theorem turns_of_reachable
    (hstarts : undelivered n Taken.isStart (fun i ↦ (inbox i).map MainMessage.taken) ≤ 1)
    (hreach : Reachable n client (fun _ l ↦ l.Complete) (init inbox) s) :
    Turns n client w.queryId (s.ring client) := by
  have hinit : Turns n client w.queryId
      (Ring.init fun i ↦ (inbox i).map MainMessage.taken : Ring w.Item) :=
    Turns.init (fun i ↦ notMem_taken (inbox i)) hstarts
  exact invariant_of_complete hinit Turns.step hreach

/-- **Workers that send nothing before they flush.** -/
theorem distinct_of_sendsOnFlush (hw : w.SendsOnFlush) (hids : w.FlushesIds)
    (hstarts : undelivered n Taken.isStart (fun i ↦ (inbox i).map MainMessage.taken) ≤ 1)
    (hreach : Reachable n client (fun _ l ↦ l.Complete) (init inbox) s) : Distinct client s := by
  have hflushed := flushed_of_reachable hw hstarts hreach
  have hnode : ∀ p ∈ s.net.messages, ∃ bucket, p.2.messageId = flushId p.1 client bucket := by
    intro p hp
    have hmem : p.2 ∈ s.net.messagesOf p.1 := Network.mem_messagesOf hp
    by_cases hi : p.1 ∈ s.net.flushes
    · obtain ⟨-, state, hflush⟩ := hflushed.after p.1 hi
      exact (hids hflush).2 p.2 hmem
    · rw [hflushed.before p.1 hi] at hmem
      exact absurd hmem List.not_mem_nil
  have hnodup : (s.net.messages.map fun p ↦ (p.1, p.2.routingKey, p.2.messageId)).Nodup := by
    refine nodup_map_of_owners (fun m : Message w.Item ↦ (m.routingKey, m.messageId)) fun i ↦ ?_
    by_cases hi : i ∈ s.net.flushes
    · obtain ⟨-, state, hflush⟩ := hflushed.after i hi
      exact (hids hflush).1
    · have hnone : (s.net.messages.filter fun p ↦ p.1 = i).map Prod.snd = [] := hflushed.before i hi
      rw [hnone]
      exact List.nodup_nil
  refine ⟨fun routingKey ↦ ?_, fun p hp ↦ ?_, hflushed.turns.turn.ends_le, hflushed.turns.finals⟩
  · -- the id names the node, so that the key and the id determine the message
    refine List.Nodup.map_on (fun p hp q hq hid ↦ ?_) (hnodup.of_map.filter _)
    obtain ⟨hp, hkey⟩ := List.mem_filter.mp hp
    obtain ⟨hq, hkey'⟩ := List.mem_filter.mp hq
    obtain ⟨bucket, hbucket⟩ := hnode p hp
    obtain ⟨bucket', hbucket'⟩ := hnode q hq
    have howner : p.1 = q.1 := (flushId_injective (hbucket.symm.trans (hid.trans hbucket'))).1
    have hsame : p.2.routingKey = q.2.routingKey :=
      (of_decide_eq_true hkey).trans (of_decide_eq_true hkey').symm
    exact List.inj_on_of_nodup_map hnodup hp hq (Prod.ext howner (Prod.ext hsame hid))
  · obtain ⟨bucket, hbucket⟩ := hnode p hp
    rw [hbucket]
    exact isDataId_flushId p.1 client bucket

/-- **Workers that pass messages on**, when what they are sent has distinct ids. -/
theorem distinct_of_passesOn (hw : w.PassesOn)
    (hstarts : undelivered n Taken.isStart (fun i ↦ (inbox i).map MainMessage.taken) ≤ 1)
    (hids : (dataIdsOf n inbox).Nodup) (hdata : ∀ id ∈ dataIdsOf n inbox, IsDataId client id)
    (hreach : Reachable n client (fun _ l ↦ l.Complete) (init inbox) s) : Distinct client s := by
  have hturns := turns_of_reachable hstarts hreach
  have hle : ∀ routingKey,
      (idsUnder routingKey s.net.messages : Multiset MessageId) ≤ dataIdsOf n inbox :=
    fun routingKey ↦
      le_trans (Multiset.le_add_right _ _) (passedOn_of_reachable hw hreach routingKey)
  refine ⟨fun routingKey ↦ ?_, fun p hp ↦ ?_, hturns.turn.ends_le, hturns.finals⟩
  · exact Multiset.coe_nodup.mp (Multiset.nodup_of_le (hle routingKey) hids)
  · exact hdata _ (Multiset.mem_of_le (hle p.2.routingKey) (mem_idsUnder hp))

/-- **What waits in a queue was not seen.** -/
theorem unseen_of_reachable
    (hdiffer : ∀ i, ((inbox i).map MainMessage.taken).Pairwise Taken.Differ)
    (hreach : Reachable n client (fun _ l ↦ l.Complete) (init inbox) s) : Unseen (s.ring client) :=
  invariant_of_complete (Unseen.init (fun i ↦ notMem_taken (inbox i)) hdiffer) Unseen.step hreach

end Stage

/-! ## The kinds of workers -/

section Kinds

variable {A : Type} [Amount A] {hash : String → ℕ} {paymentFormatKey : String → String}
  {cfg : Config A}

/-- Only the bidirectional sharder sends something before it flushes. -/
theorem StatefulKind.sendsOnFlush {k : StatefulKind} (hk : k ≠ .bidirectionalSharder) :
    (k.worker hash paymentFormatKey cfg).SendsOnFlush := by
  intro mid state payload state' msgs delta h
  have hsome : ∀ {handled : (k.worker hash paymentFormatKey cfg).State
      × List (Message (k.worker hash paymentFormatKey cfg).Item)
      × (k.worker hash paymentFormatKey cfg).Delta},
      handled = (state', msgs, delta) → handled.2.1 = [] → msgs = [] := by
    rintro _ rfl hnil
    exact hnil
  have hmax : ∀ {Payload : Type} {batchMax : Payload → Option (BatchMax A)}
      {numShards batchSize : ℕ}
      {payload s s' msgs delta},
      (bankMaxWorker hash Payload batchMax numShards batchSize).handleDataMessage mid s payload
        = some (s', msgs, delta) → msgs = [] := by
    intro _ _ _ _ _ _ _ _ _ hmax
    obtain ⟨_, -, heq⟩ := Option.map_eq_some_iff.mp hmax
    exact (Prod.mk.inj (Prod.mk.inj heq).2).1.symm
  cases k with
  | bidirectionalSharder => exact absurd rfl hk
  | bankMaxAggregator => exact hmax h
  | bankMaxReducer => exact hmax h
  | accountFrequencyFilter => exact hsome (Option.some.inj h) rfl
  | pathMapper => exact hsome (Option.some.inj h) rfl
  | pathFrequencyFilter => exact hsome (Option.some.inj h) rfl
  | duplicateAccountFilter => exact hsome (Option.some.inj h) rfl
  | lowAmountAggregator => exact hsome (Option.some.inj h) rfl
  | lowAmountReducer => exact hsome (Option.some.inj h) rfl
  | paymentFormatAggregator => exact hsome (Option.some.inj h) rfl
  | paymentFormatReducer => exact hsome (Option.some.inj h) rfl

/-- The flush of a stage whose shards have routing keys of their own. -/
theorem flushesIds_flushSharded {msgType : MsgType} {client : ClientId} {node : NodeId}
    {keyOf : α → String} {numShards batchSize : ℕ} {routingKeyFor : ℕ → String}
    (hinj : Function.Injective routingKeyFor) {items : List α} {msgs : List (Message α)}
    (hmsgs : msgs = flushSharded hash msgType client node keyOf numShards batchSize routingKeyFor
      items) :
    (msgs.map fun m ↦ (m.routingKey, m.messageId)).Nodup ∧
      ∀ m ∈ msgs, ∃ bucket, m.messageId = flushId node client bucket := by
  subst hmsgs
  refine ⟨nodup_flushSharded hinj items, fun m hm ↦ ?_⟩
  obtain ⟨-, bucket, -, -, hid, -⟩ := mem_flushSharded hm
  exact ⟨bucket, hid⟩

/-- The flush of a stage that sends one message. -/
theorem flushesIds_singleton {client : ClientId} {node : NodeId} {m : Message α}
    (hid : m.messageId = flushId node client 0) {msgs : List (Message α)} (hmsgs : msgs = [m]) :
    (msgs.map fun m ↦ (m.routingKey, m.messageId)).Nodup ∧
      ∀ m ∈ msgs, ∃ bucket, m.messageId = flushId node client bucket := by
  subst hmsgs
  exact ⟨List.nodup_singleton _, fun m hm ↦ ⟨0, List.mem_singleton.mp hm ▸ hid⟩⟩

/-- The flush of a stage whose only shard is a client. -/
theorem flushesIds_oneShard {msgType : MsgType} {client : ClientId} {node : NodeId}
    {keyOf : α → String} {batchSize : ℕ} {items : List α} {msgs : List (Message α)}
    (hmsgs : msgs
      = flushSharded hash msgType client node keyOf 1 batchSize (fun _ ↦ client) items) :
    (msgs.map fun m ↦ (m.routingKey, m.messageId)).Nodup ∧
      ∀ m ∈ msgs, ∃ bucket, m.messageId = flushId node client bucket := by
  subst hmsgs
  constructor
  · refine List.pairwise_map.mpr
      ((pairwise_messageId items).imp_of_mem fun {m m'} hm hm' hne heq ↦ ?_)
    obtain ⟨-, -, -, -, -, hpayload, -⟩ := mem_flushSharded hm
    obtain ⟨-, -, -, -, -, hpayload', -⟩ := mem_flushSharded hm'
    obtain ⟨item, hitem⟩ := List.exists_mem_of_ne_nil _ hpayload
    obtain ⟨item', hitem'⟩ := List.exists_mem_of_ne_nil _ hpayload'
    have hshard : shardOf hash (keyOf item) 1 = shardOf hash (keyOf item') 1 := by
      rw [shardOf, shardOf, Nat.mod_one, Nat.mod_one]
    exact hne item hitem item' hitem' hshard (Prod.mk.inj heq).2
  · intro m hm
    obtain ⟨-, bucket, -, -, hid, -⟩ := mem_flushSharded hm
    exact ⟨bucket, hid⟩

theorem StatefulKind.flushesIds (k : StatefulKind) :
    (k.worker hash paymentFormatKey cfg).FlushesIds := by
  intro node client state msgs h
  have hnat : Function.Injective (toString : ℕ → String) := fun _ _ ↦ natToString_injective
  cases k with
  | accountFrequencyFilter =>
    obtain ⟨order, horder⟩ := h
    exact flushesIds_flushSharded cfg.routingKey_injective horder
  | pathMapper =>
    obtain ⟨order, horder⟩ := h
    exact flushesIds_flushSharded cfg.routingKey_injective horder
  | pathFrequencyFilter => exact flushesIds_flushSharded cfg.routingKey_injective h
  | duplicateAccountFilter => exact flushesIds_oneShard h
  | bidirectionalSharder =>
    obtain rfl := h
    exact ⟨List.nodup_nil, fun m hm ↦ absurd hm List.not_mem_nil⟩
  | bankMaxAggregator => exact flushesIds_flushSharded hnat h
  | bankMaxReducer => exact flushesIds_flushSharded hnat h
  | lowAmountAggregator => exact flushesIds_singleton rfl h
  | lowAmountReducer => exact flushesIds_singleton rfl h
  | paymentFormatAggregator => exact flushesIds_flushSharded hnat h
  | paymentFormatReducer => exact flushesIds_singleton rfl h

omit [Amount A] in
theorem nodup_routingKey_edgeMessage (mid : MessageId) (edges : Dict ℕ (List AccountEdge)) :
    ((edges.items.map (edgeMessage cfg mid)).map Message.routingKey).Nodup := by
  have hkeys : (Message.routingKey ∘ edgeMessage cfg mid : ℕ × List AccountEdge → Option String)
      = (fun shard ↦ some (cfg.routingKey shard)) ∘ Prod.fst := rfl
  rw [List.map_map, hkeys, ← List.map_map]
  exact edges.nodup.map fun _ _ heq ↦ cfg.routingKey_injective (Option.some.inj heq)

omit [Amount A] in
/-- The edges of a batch are sent once to each shard, under the id of the batch. -/
theorem bidirectionalSharder_passesOn : (bidirectionalSharder hash cfg).PassesOn where
  data h := by
    obtain ⟨-, rfl, -⟩ := Prod.mk.inj (Option.some.inj h) |>.imp_right Prod.mk.inj
    refine ⟨fun m hm ↦ ?_, nodup_routingKey_edgeMessage _ _⟩
    obtain ⟨group, -, rfl⟩ := List.mem_map.mp hm
    rfl
  flush h := h

end Kinds

end MoneyLaundering
