import MoneyLaundering.Ring.Turns

/-!
# What a stage has published

The invariants of a ring forget what the nodes publish. Here a step of a stage is described by that:
it takes a message and sends on what the handler made of it, or it flushes, or it publishes no data
message (`Changes`).

Two kinds of workers are looked at. A worker that sends nothing before it flushes has published, at
any time and from each node, nothing or what one flush sends (`flushed_of_reachable`). A worker that
passes messages on under their ids publishes an id under a routing key at most as often as it was
sent it (`passedOn_of_reachable`).
-/

namespace MoneyLaundering

open WriteAhead StatefulWorker

variable {α : Type}

/-- The data message of an output, if it is one. -/
def Output.toMessage : Output α → Option (Message α)
  | .data m => some m
  | .ring _ _ => none
  | .finalEof _ _ => none

theorem filterMap_toMessage_data (msgs : List (Message α)) :
    (msgs.map Output.data).filterMap Output.toMessage = msgs := by
  rw [List.filterMap_map]
  exact List.filterMap_some

theorem filterMap_toMessage_flush (msgs : List (Message α)) {o : Output α}
    (h : o.toMessage = none) :
    (msgs.map Output.data ++ [o]).filterMap Output.toMessage = msgs := by
  rw [List.filterMap_append, filterMap_toMessage_data, List.filterMap_cons_none h,
    List.filterMap_nil, List.append_nil]

theorem toMessage_cleanupOutput (cfg : NodeConfig) (client : ClientId) (queryId : Option String)
    (token : Token) (coordinatorId : NodeId) :
    (cleanupOutput cfg client queryId token coordinatorId : Output α).toMessage = none := by
  rw [cleanupOutput]
  split <;> rfl

theorem toMessage_flushOutput (cfg : NodeConfig) (client : ClientId) (queryId : Option String)
    (sent : ℤ) (token : Token) (coordinatorId : NodeId) :
    (flushOutput cfg client queryId sent token coordinatorId : Output α).toMessage = none := by
  rw [flushOutput]
  split <;> rfl

namespace Network

variable {σ : Type} {i : NodeId} {u : Observed σ} {taken : Taken} {outs : List (Output α)}

/-- The data messages published so far, with the nodes that published them. -/
def messages (net : Network α) : List (NodeId × Message α) :=
  net.outputs.filterMap fun p ↦ p.2.toMessage.map (Prod.mk p.1)

/-- The data messages that a node has published so far. -/
def messagesOf (i : NodeId) (net : Network α) : List (Message α) :=
  (net.messages.filter fun p ↦ p.1 = i).map Prod.snd

theorem messages_handled (net : Network α) (u : Observed σ) :
    (net.handled i u taken outs).messages
      = net.messages ++ (outs.filterMap Output.toMessage).map (Prod.mk i) := by
  rw [messages, outputs_handled, List.filterMap_append, List.filterMap_map, List.map_filterMap]
  rfl

theorem messagesOf_append {net net' : Network α} {msgs : List (Message α)}
    (h : net'.messages = net.messages ++ msgs.map (Prod.mk i)) (j : NodeId) :
    net'.messagesOf j = net.messagesOf j ++ if j = i then msgs else [] := by
  rw [messagesOf, h, List.filter_append, List.map_append, messagesOf]
  congr 1
  split
  · next hj =>
    rw [List.filter_eq_self.mpr fun p hp ↦ by
      obtain ⟨m, -, rfl⟩ := List.mem_map.mp hp
      simp [hj], List.map_map]
    exact List.map_id _
  · next hj =>
    rw [List.filter_eq_nil_iff.mpr fun p hp ↦ by
      obtain ⟨m, -, rfl⟩ := List.mem_map.mp hp
      simp [Ne.symm hj]]
    rfl

end Network

namespace Stage

variable {w : StatefulWorker} {n : ℕ} {client : ClientId}

/-- What a step changes, as far as data messages are concerned. -/
inductive Changes (n : ℕ) (client : ClientId) (s s' : Stage w) : Prop
  | quiet (hinbox : ∀ j, (s'.inbox j).Sublist (s.inbox j))
      (hmessages : s'.net.messages = s.net.messages) (hflushes : s'.net.flushes = s.net.flushes)
  | data {i : NodeId} {before after : List (MainMessage w)} {mid : MessageId} {payload : w.Payload}
      {state state' : w.State} {msgs : List (Message w.Item)} {delta : w.Delta} (hi : i < n)
      (hinbox : s.inbox i = before ++ .data mid payload :: after)
      (hinbox' : s'.inbox = Function.update s.inbox i (before ++ after))
      (hdata : w.handleDataMessage mid state payload = some (state', msgs, delta))
      (hmessages : s'.net.messages = s.net.messages ++ msgs.map (Prod.mk i))
      (hflushes : s'.net.flushes = s.net.flushes)
  | flush {i : NodeId} {state : w.State} {msgs : List (Message w.Item)} (hi : i < n)
      (hinbox : s'.inbox = s.inbox) (hflush : w.FlushData i client state msgs)
      (hmessages : s'.net.messages = s.net.messages ++ msgs.map (Prod.mk i))
      (hflushes : s'.net.flushes = s.net.flushes ++ [i])

/-- A message leaves the queue of a node. -/
theorem sublist_update {s : Stage w} {i : NodeId} {before after : List (MainMessage w)}
    {message : MainMessage w} (hinbox : s.inbox i = before ++ message :: after) (j : NodeId) :
    (Function.update s.inbox i (before ++ after) j).Sublist (s.inbox j) := by
  by_cases hj : j = i
  · subst hj
    rw [Function.update_self, hinbox]
    exact (List.sublist_cons_self message after).append_left before
  · rw [Function.update_of_ne hj]

/-- Nothing is published, or a token that does not make its receiver flush. -/
theorem quiet_handled {s s' : Stage w} {i : NodeId} {taken : Taken} {outs : List (Output w.Item)}
    (houts : outs.filterMap Output.toMessage = [])
    (hflushes : ¬(taken.Fresh (s.node client i) ∧ taken.Flushes))
    (hinbox : ∀ j, (s'.inbox j).Sublist (s.inbox j))
    (houtputs : s'.net.outputs = (s.net.handled i (s.node client i) taken outs).outputs)
    (hnet : s'.net.flushes = (s.net.handled i (s.node client i) taken outs).flushes) :
    Changes n client s s' := by
  have hmessages : s'.net.messages = (s.net.handled i (s.node client i) taken outs).messages := by
    rw [Network.messages, houtputs, Network.messages]
  refine .quiet hinbox ?_ ?_
  · rw [hmessages, Network.messages_handled, houts, List.map_nil, List.append_nil]
  · rw [hnet, Network.flushes_handled, if_neg hflushes, List.append_nil]

/-- **What a step of a run without crashes can do.** -/
theorem changes_of_step {s s' : Stage w} {l : Label} (hl : l.Complete)
    (hstep : Step n client s l s') : Changes n client s s' := by
  cases hstep with
  | @main i before after message flow es point outs store compacted hi hinbox hhandles hrun =>
    obtain rfl := Option.isNone_iff_eq_none.mp hl
    cases hrun with
    | complete hex =>
      obtain rfl := hex.outs_eq
      have hflushes : ∀ v : Observed Unit, ¬(message.taken.Fresh v ∧ message.taken.Flushes) := by
        intro v h
        cases message <;> exact h.2
      by_cases hseen : message.messageId ∈ ((s.store i).mem client).observe.seen .main
      · obtain ⟨-, rfl⟩ := Prod.ext_iff.mp
          (Option.some.inj ((handleMessage_seen _ client hseen).symm.trans hhandles))
        exact quiet_handled rfl (hflushes _) (sublist_update hinbox) rfl rfl
      · cases message with
        | data mid payload =>
          obtain ⟨state, msgs, delta, hdata, rfl, -, -⟩ :=
            handleMessage_data _ client hseen hhandles
          refine .data hi hinbox rfl hdata ?_ ?_
          · rw [Network.messages_handled, publishes_map_publish, publishes, publishes, publishes,
              List.append_nil, filterMap_toMessage_data]
          · rw [Network.flushes_handled, if_neg (hflushes _), List.append_nil]
        | eof mid marker =>
          obtain ⟨_, _, heq, -⟩ := handleMessage_eof ⟨i, n⟩ client marker hseen
          obtain ⟨-, rfl⟩ := Prod.ext_iff.mp (Option.some.inj (heq.symm.trans hhandles))
          exact quiet_handled rfl (hflushes _) (sublist_update hinbox) rfl rfl
  | @token i envelope rest msgs flow es point outs store compacted hi hhead hflush hhandles hrun =>
    obtain rfl := Option.isNone_iff_eq_none.mp hl
    cases hrun with
    | complete hex =>
      obtain rfl := hex.outs_eq
      have hsame : ∀ j, (s.inbox j).Sublist (s.inbox j) := fun _ ↦ List.Sublist.refl _
      by_cases hseen : envelope.messageId ∈ ((s.store i).mem client).observe.seen .control
      · obtain ⟨-, rfl⟩ := Prod.ext_iff.mp
          ((handleControlMessage_seen ⟨i, n⟩ client hseen msgs).symm.trans hhandles)
        have hquiet : ¬((Taken.token envelope).Fresh (s.node client i)
          ∧ (Taken.token envelope).Flushes) := fun h ↦ h.1 hseen
        exact quiet_handled rfl hquiet hsame rfl rfl
      · cases hcoord : envelope.token.ring.coordinatorId with
        | none =>
          obtain ⟨_, heq, -⟩ := handleControlMessage_count ⟨i, n⟩ client hseen hcoord msgs
          obtain ⟨-, rfl⟩ := Prod.ext_iff.mp (heq.symm.trans hhandles)
          have hquiet : ¬((Taken.token envelope).Fresh (s.node client i)
            ∧ (Taken.token envelope).Flushes) := fun h ↦ h.2.1 hcoord
          exact quiet_handled rfl hquiet hsame rfl rfl
        | some coordinatorId =>
          by_cases hexp : envelope.token.ring.expectedCount = cleanupExpectedCount
          · obtain ⟨-, rfl⟩ := Prod.ext_iff.mp
              ((handleControlMessage_cleanup ⟨i, n⟩ client hseen hcoord hexp
                msgs).symm.trans hhandles)
            have hquiet : ¬((Taken.token envelope).Fresh (s.node client i)
              ∧ (Taken.token envelope).Flushes) := fun h ↦ h.2.2 hexp
            refine quiet_handled ?_ hquiet hsame rfl rfl
            exact List.filterMap_cons_none (toMessage_cleanupOutput _ _ _ _ _)
          · -- the node flushes
            obtain ⟨_, heq, -⟩ := handleControlMessage_flush ⟨i, n⟩ client hseen hcoord hexp msgs
            obtain ⟨-, rfl⟩ := Prod.ext_iff.mp (heq.symm.trans hhandles)
            have hsome : envelope.token.ring.coordinatorId ≠ none := by
              rw [hcoord]
              exact Option.some_ne_none _
            refine .flush hi rfl hflush ?_ ?_
            · refine (Network.messages_handled s.net (s.node client i)).trans ?_
              rw [publishes_map_publish, publishes, publishes, publishes, List.append_nil,
                filterMap_toMessage_flush msgs (toMessage_flushOutput _ _ _ _ _ _)]
            · refine Network.flushes_handled.trans ?_
              rw [if_pos ⟨hseen, hsome, hexp⟩]
  | restart hi hrestart => exact hl.elim

end Stage

/-! ## Workers that send nothing before they flush -/

/-- Handling a data message sends nothing. -/
def StatefulWorker.SendsOnFlush (w : StatefulWorker) : Prop :=
  ∀ {mid state payload state' msgs delta},
    w.handleDataMessage mid state payload = some (state', msgs, delta) → msgs = []

namespace Stage

variable {w : StatefulWorker} {n : ℕ} {client : ClientId}

/-- What each node has published: nothing, or what one flush sends. -/
structure Flushed (n : ℕ) (client : ClientId) (s : Stage w) : Prop where
  turns : Turns n client w.queryId (s.ring client)
  before : ∀ i, i ∉ s.net.flushes → s.net.messagesOf i = []
  after : ∀ i ∈ s.net.flushes, i < n ∧ ∃ state, w.FlushData i client state (s.net.messagesOf i)

theorem Flushed.of_same {s s' : Stage w} (h : Flushed n client s)
    (hturns : Turns n client w.queryId (s'.ring client))
    (hmessages : s'.net.messages = s.net.messages) (hflushes : s'.net.flushes = s.net.flushes) :
    Flushed n client s' := by
  have hof : ∀ i, s'.net.messagesOf i = s.net.messagesOf i := fun i ↦ by
    rw [Network.messagesOf, hmessages, Network.messagesOf]
  refine ⟨hturns, fun i hi ↦ ?_, fun i hi ↦ ?_⟩
  · rw [hof]
    exact h.before i (hflushes ▸ hi)
  · rw [hof]
    exact h.after i (hflushes ▸ hi)

theorem Flushed.step (hw : w.SendsOnFlush) {s s' : Stage w} {l : Label} (h : Flushed n client s)
    (hl : l.Complete) (hstep : Step n client s l s') : Flushed n client s' := by
  have hturns : Turns n client w.queryId (s'.ring client) :=
    h.turns.step hl (ring_step_of_complete hl hstep)
  cases changes_of_step hl hstep with
  | quiet hinbox hmessages hflushes => exact h.of_same hturns hmessages hflushes
  | data hi hinbox hinbox' hdata hmessages hflushes =>
    rw [hw hdata, List.map_nil, List.append_nil] at hmessages
    exact h.of_same hturns hmessages hflushes
  | @flush i state msgs hi hinbox hflush hmessages hflushes =>
    -- the node has not flushed before, since nobody flushes twice
    have hnodup : s'.net.flushes.Nodup := hturns.turn.nodup
    rw [hflushes, List.nodup_append_comm, List.singleton_append, List.nodup_cons] at hnodup
    refine ⟨hturns, fun j hj ↦ ?_, fun j hj ↦ ?_⟩
    · rw [hflushes, List.mem_append, List.mem_singleton, not_or] at hj
      rw [Network.messagesOf_append hmessages, if_neg hj.2, List.append_nil]
      exact h.before j hj.1
    · rw [Network.messagesOf_append hmessages]
      by_cases heq : j = i
      · subst heq
        rw [if_pos rfl, h.before j hnodup.1, List.nil_append]
        exact ⟨hi, state, hflush⟩
      · rw [if_neg heq, List.append_nil]
        rw [hflushes, List.mem_append, List.mem_singleton] at hj
        exact h.after j (hj.resolve_right heq)

theorem notMem_taken (messages : List (MainMessage w)) (envelope : Envelope) :
    Taken.token envelope ∉ messages.map MainMessage.taken := by
  intro hmem
  obtain ⟨message, -, heq⟩ := List.mem_map.mp hmem
  cases message <;> exact absurd heq (by simp [MainMessage.taken])

/-- **What a stage of such workers has published**, cleanups or not: nobody has flushed twice. -/
theorem flushed_of_reachable (hw : w.SendsOnFlush) {inbox : NodeId → List (MainMessage w)}
    (hstarts : undelivered n Taken.isStart (fun i ↦ (inbox i).map MainMessage.taken) ≤ 1)
    {s : Stage w} (hreach : Reachable n client (fun _ l ↦ l.Complete) (init inbox) s) :
    Flushed n client s := by
  induction hreach with
  | refl =>
    exact ⟨Turns.init (fun i ↦ notMem_taken (inbox i)) hstarts, fun _ _ ↦ rfl,
      fun _ h ↦ absurd h List.not_mem_nil⟩
  | tail _ hlast ih =>
    obtain ⟨l, hl, hstep⟩ := hlast
    exact ih.step hw hl hstep

end Stage

/-! ## Workers that pass messages on -/

/-- The id of a data message. -/
def MainMessage.dataId {w : StatefulWorker} : MainMessage w → Option MessageId
  | .data messageId _ => some messageId
  | .eof _ _ => none

/-- The ids of the data messages in the queues of `n` nodes. -/
def dataIdsOf {w : StatefulWorker} (n : ℕ) (inbox : NodeId → List (MainMessage w)) :
    Multiset MessageId :=
  ∑ i ∈ Finset.range n, ((inbox i).filterMap MainMessage.dataId : Multiset MessageId)

/-- A data message is sent on under its id, at most once under each routing key, and a flush sends
nothing. -/
structure StatefulWorker.PassesOn (w : StatefulWorker) : Prop where
  data : ∀ {mid state payload state' msgs delta},
    w.handleDataMessage mid state payload = some (state', msgs, delta) →
      (∀ m ∈ msgs, m.messageId = mid) ∧ (msgs.map Message.routingKey).Nodup
  flush : ∀ {node client state msgs}, w.FlushData node client state msgs → msgs = []

/-- The ids under a routing key. -/
def idsUnder (routingKey : Option String) (messages : List (NodeId × Message α)) : List MessageId :=
  (messages.filter fun p ↦ p.2.routingKey = routingKey).map fun p ↦ p.2.messageId

theorem idsUnder_append (routingKey : Option String)
    (messages messages' : List (NodeId × Message α)) :
    idsUnder routingKey (messages ++ messages')
      = idsUnder routingKey messages ++ idsUnder routingKey messages' := by
  rw [idsUnder, List.filter_append, List.map_append]
  rfl

/-- At most one of the messages sent on has a routing key. -/
theorem StatefulWorker.PassesOn.idsUnder_le {w : StatefulWorker} (hw : w.PassesOn) {mid : MessageId}
    {payload : w.Payload} {state state' : w.State} {msgs : List (Message w.Item)} {delta : w.Delta}
    (hdata : w.handleDataMessage mid state payload = some (state', msgs, delta)) (i : NodeId)
    (routingKey : Option String) :
    (idsUnder routingKey (msgs.map (Prod.mk i)) : Multiset MessageId) ≤ {mid} := by
  obtain ⟨hid, hkeys⟩ := hw.data hdata
  have hids : idsUnder routingKey (msgs.map (Prod.mk i))
      = (msgs.filter fun m ↦ m.routingKey = routingKey).map Message.messageId := by
    rw [idsUnder, List.filter_map, List.map_map]
    rfl
  obtain ⟨found, hfound⟩ : ∃ found, found = msgs.filter fun m ↦
    m.routingKey = routingKey := ⟨_, rfl⟩
  have hsame : found.map Message.routingKey = List.replicate found.length routingKey := by
    refine List.eq_replicate_iff.mpr ⟨List.length_map _, fun key hkey ↦ ?_⟩
    obtain ⟨m, hm, rfl⟩ := List.mem_map.mp hkey
    rw [hfound] at hm
    exact of_decide_eq_true (List.mem_filter.mp hm).2
  have hlength : found.length ≤ 1 := by
    rw [← List.nodup_replicate (a := routingKey), ← hsame, hfound]
    exact hkeys.sublist (List.filter_sublist.map _)
  rw [hids, ← hfound]
  cases found with
  | nil => exact Multiset.zero_le _
  | cons m rest =>
    obtain rfl : rest = [] := List.length_eq_zero_iff.mp (by simpa using hlength)
    have hm : m ∈ msgs := List.mem_of_mem_filter (hfound ▸ List.mem_cons_self)
    rw [List.map_singleton, hid m hm]
    exact le_rfl

namespace Stage

variable {w : StatefulWorker} {n : ℕ} {client : ClientId}

theorem dataIdsOf_le {inbox inbox' : NodeId → List (MainMessage w)}
    (h : ∀ i, (inbox' i).Sublist (inbox i)) : dataIdsOf n inbox' ≤ dataIdsOf n inbox :=
  Finset.sum_le_sum fun i _ ↦ Multiset.coe_le.mpr ((h i).filterMap _).subperm

/-- A data message leaves the queue of a node. -/
theorem dataIdsOf_update {inbox : NodeId → List (MainMessage w)} {i : NodeId}
    {before after : List (MainMessage w)} {mid : MessageId} {payload : w.Payload} (hi : i < n)
    (hinbox : inbox i = before ++ .data mid payload :: after) :
    dataIdsOf n (Function.update inbox i (before ++ after)) + {mid} = dataIdsOf n inbox := by
  have hsum := Family.sum_update_add (Finset.mem_range.mpr hi) inbox (before ++ after)
    fun messages ↦ (messages.filterMap MainMessage.dataId : Multiset MessageId)
  have hids : ((inbox i).filterMap MainMessage.dataId : Multiset MessageId)
      = {mid} + ((before ++ after).filterMap MainMessage.dataId : Multiset MessageId) := by
    have hid : (MainMessage.data mid payload : MainMessage w).dataId = some mid := rfl
    rw [hinbox, List.filterMap_append, List.filterMap_cons_some hid, List.filterMap_append,
      Multiset.singleton_add, Multiset.cons_coe]
    exact Multiset.coe_eq_coe.mpr List.perm_middle
  rw [hids, ← add_assoc] at hsum
  exact add_right_cancel hsum

/-- An id is published under a routing key at most as often as it was taken. -/
theorem passedOn_of_reachable (hw : w.PassesOn) {inbox : NodeId → List (MainMessage w)}
    {s : Stage w} (hreach : Reachable n client (fun _ l ↦ l.Complete) (init inbox) s)
    (routingKey : Option String) :
    (idsUnder routingKey s.net.messages : Multiset MessageId) + dataIdsOf n s.inbox
      ≤ dataIdsOf n inbox := by
  induction hreach with
  | refl => exact (zero_add (dataIdsOf n inbox)).le
  | tail _ hlast ih =>
    obtain ⟨l, hl, hstep⟩ := hlast
    refine le_trans ?_ ih
    cases changes_of_step hl hstep with
    | quiet hinbox hmessages hflushes =>
      rw [hmessages]
      exact add_le_add_right (dataIdsOf_le hinbox) _
    | flush hi hinbox hflush hmessages hflushes =>
      rw [hw.flush hflush, List.map_nil, List.append_nil] at hmessages
      rw [hmessages, hinbox]
    | @data i before after mid payload state state' msgs delta hi hinbox hinbox' hdata hmessages
        hflushes =>
      have htaken := dataIdsOf_update hi hinbox
      have hsent := hw.idsUnder_le hdata i routingKey
      rw [hmessages, idsUnder_append, ← Multiset.coe_add, hinbox', ← htaken, add_assoc,
        add_comm (dataIdsOf n _)]
      exact add_le_add_right (add_le_add_left hsent _) _

end Stage

end MoneyLaundering
