import MoneyLaundering.Worker.Handlers
import MoneyLaundering.Worker.Sharding

/-!
# Stages that collect and flush

Between two flushes a query is a chain of stages. The replicas of a stage are sent messages, each
its own; a replica takes them in any order, and any of them more than once, and when all have been
processed it flushes. What it sends goes to the replica of the next stage that the routing key
names.

`exists_consume` says that what a replica holds is made of each message once, so that neither the
order nor redeliveries matter more than the order of the deltas does; `flatMap_routed` and
`nodup_routed` say what the next stage is sent.
-/

namespace MoneyLaundering

open StatefulWorker

/-! ## One replica -/

namespace StatefulWorker

variable {w : StatefulWorker} (cfg : NodeConfig) (client : ClientId)

/-- The worker takes this message: its delta is `delta`, and it sends `msgs`. -/
def Turns (w : StatefulWorker) (d : MessageId × w.Payload) (delta : w.Delta)
    (msgs : List (Message w.Item)) : Prop :=
  ∀ state, w.handleDataMessage d.1 state d.2 = some (w.applyDelta delta state, msgs, delta)

/-- The data messages among what is published. -/
def dataMessages {α : Type} (outs : List (Output α)) : List (Message α) :=
  outs.filterMap fun o ↦
    match o with
    | .data m => some m
    | .ring _ _ => none
    | .finalEof _ _ => none

/-- What a replica holds after some deliveries, and what it has sent on; nothing when a handler
raises. -/
def consume (deliveries : List (MessageId × w.Payload)) :
    Option (Flow w.State × List (Message w.Item)) :=
  deliveries.foldlM (fun acc d ↦ (handleMessage cfg client acc.1 (.data d.1 d.2)).map fun handled ↦
    (handled.1, acc.2 ++ dataMessages (WriteAhead.publishes handled.2))) (w.emptyFlow, [])

theorem consume_append_singleton (deliveries : List (MessageId × w.Payload))
    (d : MessageId × w.Payload) :
    consume cfg client (deliveries ++ [d])
      = (consume cfg client deliveries).bind fun acc ↦
          (handleMessage cfg client acc.1 (.data d.1 d.2)).map fun handled ↦
            (handled.1, acc.2 ++ dataMessages (WriteAhead.publishes handled.2)) := by
  rw [consume, List.foldlM_append]
  simp [consume]

theorem dataMessages_acceptData {flow : Flow w.State} {mid : MessageId}
    {handled : w.State × List (Message w.Item) × w.Delta} :
    dataMessages (WriteAhead.publishes (acceptData flow mid handled).2) = handled.2.1 := by
  have hdata : ∀ msgs : List (Message w.Item), dataMessages (msgs.map Output.data) = msgs := by
    intro msgs
    rw [dataMessages, List.filterMap_map]
    exact List.filterMap_some
  have hmap : (handled.2.1.map fun m ↦ (.publish (.data m) : Eff w))
      = (handled.2.1.map Output.data).map .publish := by rw [List.map_map]; rfl
  rw [acceptData, hmap, WriteAhead.publishes_map_publish]
  simpa [WriteAhead.publishes] using hdata handled.2.1

/-- A replica has handled some deliveries. `order` has each of them once, and what the replica holds
and has sent on is made of that. -/
structure Consumed (delta : w.Payload → w.Delta)
    (msgs : MessageId × w.Payload → List (Message w.Item))
    (deliveries : List (MessageId × w.Payload)) (flow : Flow w.State)
    (order : List (MessageId × w.Payload)) : Prop where
  run : consume cfg client deliveries = some (flow, order.flatMap msgs)
  nodup : order.Nodup
  mem_iff : ∀ d, d ∈ order ↔ d ∈ deliveries
  seen_iff : ∀ mid, mid ∈ flow.observe.seen .main ↔ mid ∈ deliveries.map Prod.fst
  state_eq : flow.state = order.foldl (fun state d ↦ w.applyDelta (delta d.2) state) w.empty

variable {cfg client} {delta : w.Payload → w.Delta}
  {msgs : MessageId × w.Payload → List (Message w.Item)}
  {sent deliveries order : List (MessageId × w.Payload)} {flow : Flow w.State}

/-- A message is delivered again. -/
theorem Consumed.again (h : Consumed cfg client delta msgs deliveries flow order)
    {d : MessageId × w.Payload} (hd : d ∈ deliveries) :
    Consumed cfg client delta msgs (deliveries ++ [d])
      { flow with seen := flow.seen.setdefault .main } order where
  run := by
    have hseen := (h.seen_iff d.1).mpr (List.mem_map_of_mem hd)
    rw [consume_append_singleton, h.run, Option.bind_some, handleMessage_seen cfg client hseen,
      Option.map_some]
    simp [dataMessages, WriteAhead.publishes]
  nodup := h.nodup
  mem_iff e := by
    rw [h.mem_iff, List.mem_append, List.mem_singleton]
    exact ⟨Or.inl, fun he ↦ he.elim id fun he ↦ he ▸ hd⟩
  seen_iff mid := by
    rw [Flow.observe_setdefault, h.seen_iff, List.map_append, List.mem_append, List.map_singleton,
      List.mem_singleton]
    exact ⟨Or.inl, fun he ↦ he.elim id fun he ↦ he ▸ List.mem_map_of_mem hd⟩
  state_eq := h.state_eq

/-- A message is delivered for the first time. -/
theorem Consumed.first (h : Consumed cfg client delta msgs deliveries flow order)
    {d : MessageId × w.Payload} (hd : d.1 ∉ deliveries.map Prod.fst)
    (hturns : w.Turns d (delta d.2) (msgs d)) :
    Consumed cfg client delta msgs (deliveries ++ [d])
      (acceptData { flow with seen := flow.seen.setdefault .main } d.1
        (w.applyDelta (delta d.2) flow.state, msgs d, delta d.2)).1 (order ++ [d]) := by
  have hdata := hturns flow.state
  have hseen : d.1 ∉ flow.observe.seen .main := mt (h.seen_iff d.1).mp hd
  have hobserve := (observe_acceptData { flow with seen := flow.seen.setdefault .main }
    (Seen.setdefault_self_ne_none flow.seen .main) hdata).1
  rw [Flow.observe_setdefault] at hobserve
  refine ⟨?_, ?_, fun e ↦ ?_, fun mid ↦ ?_, ?_⟩
  · rw [consume_append_singleton, h.run, Option.bind_some,
      handleMessage_data_eq cfg client hseen hdata, Option.map_some, dataMessages_acceptData,
      List.flatMap_append, List.flatMap_singleton]
  · refine List.nodup_append.mpr ⟨h.nodup, List.nodup_singleton d, fun a ha b hb hab ↦ hd ?_⟩
    rw [← List.mem_singleton.mp hb, ← hab]
    exact List.mem_map_of_mem ((h.mem_iff a).mp ha)
  · rw [List.mem_append, List.mem_append, h.mem_iff]
  · rw [hobserve, List.map_append, List.mem_append, List.map_singleton, List.mem_singleton,
      ← h.seen_iff]
    simp [process, Observed.see, or_comm]
  · have hstate := congrArg Observed.state hobserve
    rw [List.foldl_append, List.foldl_cons, List.foldl_nil, ← h.state_eq]
    exact hstate

variable (cfg client)

/-- **What a replica holds is made of each of its messages once**, in the order of their first
deliveries, and so is what it has sent on. -/
theorem exists_consume (hturns : ∀ d ∈ sent, w.Turns d (delta d.2) (msgs d))
    (hids : (sent.map Prod.fst).Nodup) (hdelivers : ∀ d, d ∈ deliveries ↔ d ∈ sent) :
    ∃ (flow : Flow w.State) (order : List (MessageId × w.Payload)),
      consume cfg client deliveries = some (flow, order.flatMap msgs) ∧ order.Perm sent ∧
      flow.state = order.foldl (fun state d ↦ w.applyDelta (delta d.2) state) w.empty := by
  suffices h : ∀ deliveries : List (MessageId × w.Payload), (∀ d ∈ deliveries, d ∈ sent) →
      ∃ flow order, Consumed cfg client delta msgs deliveries flow order by
    obtain ⟨flow, order, hconsumed⟩ := h deliveries fun d hd ↦ (hdelivers d).mp hd
    refine ⟨flow, order, hconsumed.run, ?_, hconsumed.state_eq⟩
    rw [List.perm_ext_iff_of_nodup hconsumed.nodup (List.Nodup.of_map _ hids)]
    exact fun d ↦ (hconsumed.mem_iff d).trans (hdelivers d)
  intro deliveries
  induction deliveries using List.reverseRecOn with
  | nil =>
    intro _
    refine ⟨w.emptyFlow, [], rfl, List.nodup_nil, fun _ ↦ Iff.rfl, fun mid ↦ ?_, rfl⟩
    simp [Flow.observe, emptyFlow]
  | append_singleton deliveries d ih =>
    intro hsent
    obtain ⟨flow, order, hconsumed⟩ := ih fun d' hd' ↦ hsent d' (List.mem_append_left _ hd')
    have hd : d ∈ sent := hsent d (List.mem_append_right _ (List.mem_singleton_self d))
    by_cases hdup : d.1 ∈ deliveries.map Prod.fst
    · -- the id determines the message, so that it is a redelivery
      obtain ⟨d', hd', hid⟩ := List.mem_map.mp hdup
      obtain rfl : d' = d := List.inj_on_of_nodup_map hids
        (hsent d' (List.mem_append_left _ hd')) hd hid
      exact ⟨_, _, hconsumed.again hd'⟩
    · exact ⟨_, _, hconsumed.first hdup (hturns d hd)⟩

end StatefulWorker

/-! ## The replicas of a stage -/

/-- The deliveries to the replicas of a stage are what each was sent, in any order, any of it more
than once. -/
def Delivers {α : Type} (n : ℕ) (sent deliveries : ℕ → List α) : Prop :=
  ∀ i < n, ∀ d, d ∈ deliveries i ↔ d ∈ sent i

/-- Given these deliveries, `output` is what the replicas of a stage may send: what each sends while
it handles them, and what it sends when it flushes. -/
def Yields (w : StatefulWorker) (client : ClientId) (n : ℕ)
    (deliveries : ℕ → List (MessageId × w.Payload)) (output : ℕ → List (Message w.Item)) : Prop :=
  ∀ i < n, ∃ acc flushed, consume ⟨i, n⟩ client (deliveries i) = some acc ∧
    w.FlushData i client acc.1.state flushed ∧ output i = acc.2 ++ flushed

/-- The replicas of a stage may send `output` when they are sent `sent`. -/
def Runs (w : StatefulWorker) (client : ClientId) (n : ℕ)
    (sent : ℕ → List (MessageId × w.Payload)) (output : ℕ → List (Message w.Item)) : Prop :=
  ∃ deliveries, Delivers n sent deliveries ∧ Yields w client n deliveries output

/-- The messages with distinct ids that are given to replica `i`, when `assign` says who gets
which. -/
def assigned {α : Type} (assign : MessageId → ℕ) (batches : List (MessageId × α)) (i : ℕ) :
    List (MessageId × α) := batches.filter fun b ↦ assign b.1 = i

/-- What the replicas of a stage send to the replica with a routing key. -/
def routed {α : Type} (n : ℕ) (output : ℕ → List (Message α)) (routingKey : String) :
    List (MessageId × List α) :=
  (List.range n).flatMap fun i ↦
    ((output i).filter fun m ↦ m.routingKey = some routingKey).map fun m ↦ (m.messageId, m.payload)

theorem nodup_assigned {α : Type} {batches : List (MessageId × α)} {assign : MessageId → ℕ}
    (hids : (batches.map Prod.fst).Nodup) (i : ℕ) :
    ((assigned assign batches i).map Prod.fst).Nodup :=
  hids.sublist (List.filter_sublist.map Prod.fst)

/-- Every message is given to some replica. -/
theorem flatMap_assigned {α : Type} {batches : List (MessageId × α)}
    {assign : MessageId → ℕ} {n : ℕ}
    (hassign : ∀ b ∈ batches, assign b.1 < n) :
    ((List.range n).flatMap (assigned assign batches)).Perm batches :=
  Dict.flatMap_filter List.nodup_range fun b hb ↦ List.mem_range.mpr (hassign b hb)

/-- Whatever is delivered to the replicas of a stage, they can handle it and flush. -/
def AlwaysYields (w : StatefulWorker) (client : ClientId) : Prop :=
  ∀ (n : ℕ) (deliveries : ℕ → List (MessageId × w.Payload)), ∃ output,
    Yields w client n deliveries output

section Stage

variable {w : StatefulWorker} {client : ClientId} {n : ℕ}
  {sent deliveries : ℕ → List (MessageId × w.Payload)}

/-- A worker whose handler never raises can handle any deliveries. -/
theorem alwaysYields (client : ClientId)
    (h : ∀ mid state payload, ∃ handled, w.handleDataMessage mid state payload = some handled) :
    AlwaysYields w client := by
  intro n deliveries
  have hhandle : ∀ (cfg : NodeConfig) (flow : Flow w.State) (d : MessageId × w.Payload),
      ∃ handled, handleMessage cfg client flow (.data d.1 d.2) = some handled := by
    intro cfg flow d
    by_cases hseen : d.1 ∈ flow.observe.seen .main
    · exact ⟨_, handleMessage_seen cfg client hseen⟩
    · obtain ⟨handled, hdata⟩ := h d.1 flow.state d.2
      exact ⟨_, handleMessage_data_eq cfg client hseen hdata⟩
  have hconsume : ∀ (cfg : NodeConfig) (l : List (MessageId × w.Payload)),
      ∃ acc, consume cfg client l = some acc := by
    intro cfg l
    induction l using List.reverseRecOn with
    | nil => exact ⟨_, rfl⟩
    | append_singleton l d ih =>
      obtain ⟨acc, hacc⟩ := ih
      obtain ⟨handled, hhandled⟩ := hhandle cfg acc.1 d
      rw [consume_append_singleton, hacc, Option.bind_some, hhandled]
      exact ⟨_, rfl⟩
  choose acc hacc using fun i ↦ hconsume ⟨i, n⟩ (deliveries i)
  choose flushed hflushed using fun i ↦ w.exists_flushData i client (acc i).1.state
  exact ⟨fun i ↦ (acc i).2 ++ flushed i, fun i _ ↦ ⟨acc i, flushed i, hacc i, hflushed i, rfl⟩⟩

theorem AlwaysYields.exists_runs (h : AlwaysYields w client) (n : ℕ)
    (sent : ℕ → List (MessageId × w.Payload)) : ∃ output, Runs w client n sent output := by
  obtain ⟨output, houtput⟩ := h n sent
  exact ⟨output, sent, fun _ _ _ ↦ Iff.rfl, houtput⟩

/-- A stage flushes whatever the order of its deliveries, when no handler raises. -/
theorem exists_yields (delta : w.Payload → w.Delta)
    (msgs : MessageId × w.Payload → List (Message w.Item))
    (hturns : ∀ i < n, ∀ d ∈ sent i, w.Turns d (delta d.2) (msgs d))
    (hids : ∀ i < n, ((sent i).map Prod.fst).Nodup) (hdelivers : Delivers n sent deliveries) :
    ∃ output, Yields w client n deliveries output := by
  have h : ∀ i, ∃ out : List (Message w.Item), i < n → ∃ acc flushed,
      consume ⟨i, n⟩ client (deliveries i) = some acc ∧
        w.FlushData i client acc.1.state flushed ∧ out = acc.2 ++ flushed := by
    intro i
    by_cases hi : i < n
    · obtain ⟨flow, order, hflow, -, -⟩ := exists_consume ⟨i, n⟩ client (hturns i hi) (hids i hi)
        (hdelivers i hi)
      obtain ⟨flushed, hflushed⟩ := w.exists_flushData i client flow.state
      exact ⟨_, fun _ ↦ ⟨_, flushed, hflow, hflushed, rfl⟩⟩
    · exact ⟨[], fun hlt ↦ absurd hlt hi⟩
  choose output houtput using h
  exact ⟨output, fun i hi ↦ houtput i hi⟩

/-- What a replica sends is made of each of its messages once. -/
theorem Yields.exists_state {output : ℕ → List (Message w.Item)}
    (h : Yields w client n deliveries output) (delta : w.Payload → w.Delta)
    (msgs : MessageId × w.Payload → List (Message w.Item))
    (hturns : ∀ i < n, ∀ d ∈ sent i, w.Turns d (delta d.2) (msgs d))
    (hids : ∀ i < n, ((sent i).map Prod.fst).Nodup) (hdelivers : Delivers n sent deliveries)
    {i : ℕ} (hi : i < n) :
    ∃ (order : List (MessageId × w.Payload)) (flushed : List (Message w.Item)),
      order.Perm (sent i) ∧ output i = order.flatMap msgs ++ flushed ∧ w.FlushData i client
        (order.foldl (fun state d ↦ w.applyDelta (delta d.2) state) w.empty) flushed := by
  obtain ⟨acc, flushed, hflow, hflush, hout⟩ := h i hi
  obtain ⟨flow, order, hflow', hperm, hstate⟩ := exists_consume ⟨i, n⟩ client (hturns i hi)
    (hids i hi) (hdelivers i hi)
  obtain rfl := Option.some.inj (hflow.symm.trans hflow')
  exact ⟨order, flushed, hperm, hout, hstate ▸ hflush⟩

/-- **What the replicas of a stage flush**, when they send nothing before: states that have what
every order of their messages leads to. -/
theorem Yields.exists_states {output : ℕ → List (Message w.Item)}
    (h : Yields w client n deliveries output) (delta : w.Payload → w.Delta)
    (holds : ℕ → w.State → Prop)
    (hturns : ∀ i < n, ∀ d ∈ sent i, w.Turns d (delta d.2) [])
    (hids : ∀ i < n, ((sent i).map Prod.fst).Nodup) (hdelivers : Delivers n sent deliveries)
    (hholds : ∀ i < n, ∀ order : List (MessageId × w.Payload), order.Perm (sent i) →
      holds i (order.foldl (fun state d ↦ w.applyDelta (delta d.2) state) w.empty)) :
    ∃ states : ℕ → w.State, ∀ i < n, holds i (states i) ∧
      w.FlushData i client (states i) (output i) := by
  have hstate : ∀ i, ∃ state, i < n → holds i state ∧ w.FlushData i client state (output i) := by
    intro i
    by_cases hi : i < n
    · obtain ⟨order, flushed, hperm, hout, hflush⟩ :=
        h.exists_state delta (fun _ ↦ []) hturns hids hdelivers hi
      have hnil : (order.flatMap fun _ ↦ ([] : List (Message w.Item))) = [] :=
        List.flatMap_eq_nil_iff.mpr fun _ _ ↦ rfl
      rw [hnil, List.nil_append] at hout
      exact ⟨_, fun _ ↦ ⟨hholds i hi order hperm, hout ▸ hflush⟩⟩
    · exact ⟨w.empty, fun hlt ↦ absurd hlt hi⟩
  choose states hstates using hstate
  exact ⟨states, hstates⟩

end Stage

/-! ## From one stage to the next -/

section Flush

variable {α : Type}

/-- What a stage sends is shared among the replicas of the next one: each gets the items of its
shard, in messages with distinct ids. -/
structure Sharded (n : ℕ) (output : ℕ → List (Message α)) (routingKeyFor : ℕ → String)
    (shard : α → ℕ) (items : List α) : Prop where
  nodup : ∀ r, ((routed n output (routingKeyFor r)).map Prod.fst).Nodup
  perm : ∀ r, ((routed n output (routingKeyFor r)).flatMap Prod.snd).Perm
    (items.filter fun item ↦ shard item = r)

/-- Every replica flushes some items. -/
def FlushesItems (hash : String → ℕ) (msgType : MsgType) (client : ClientId) (keyOf : α → String)
    (n numShards batchSize : ℕ) (routingKeyFor : ℕ → String) (items : ℕ → List α)
    (output : ℕ → List (Message α)) : Prop :=
  ∀ i < n, output i
    = flushSharded hash msgType client i keyOf numShards batchSize routingKeyFor (items i)

variable {hash : String → ℕ} {msgType : MsgType} {client : ClientId} {keyOf : α → String}
  {n numShards batchSize : ℕ} {routingKeyFor : ℕ → String} {items : ℕ → List α}
  {output : ℕ → List (Message α)}

/-- The ids of the messages sent to a replica of the next stage are distinct. -/
theorem nodup_routed (hinj : Function.Injective routingKeyFor)
    (h : FlushesItems hash msgType client keyOf n numShards batchSize routingKeyFor items output)
    (routingKey : String) : ((routed n output routingKey).map Prod.fst).Nodup := by
  rw [routed, List.map_flatMap, List.nodup_flatMap]
  constructor
  · -- within a replica, the routing key and the id determine the message
    intro i hi
    have hnd : ((output i).map fun m ↦ (m.routingKey, m.messageId)).Nodup := by
      rw [h i (List.mem_range.mp hi)]
      exact nodup_flushSharded hinj (items i)
    rw [List.map_map]
    have hfilter := hnd.of_map _ |>.filter fun m : Message α ↦ m.routingKey = some routingKey
    refine List.Nodup.map_on (fun m hm m' hm' hid ↦ ?_) hfilter
    obtain ⟨hin, hkey⟩ := List.mem_filter.mp hm
    obtain ⟨hin', hkey'⟩ := List.mem_filter.mp hm'
    refine List.inj_on_of_nodup_map hnd hin hin' (Prod.ext ?_ hid)
    exact (of_decide_eq_true hkey).trans (of_decide_eq_true hkey').symm
  · -- the replica is part of the id
    refine (List.nodup_range).imp_of_mem fun {i j} hi hj hne ↦ ?_
    rw [Function.onFun, List.disjoint_left]
    intro mid hmid hmid'
    rw [List.map_map] at hmid hmid'
    obtain ⟨m, hm, rfl⟩ := List.mem_map.mp hmid
    obtain ⟨m', hm', hid⟩ := List.mem_map.mp hmid'
    have hin := (List.mem_filter.mp hm).1
    have hin' := (List.mem_filter.mp hm').1
    rw [h i (List.mem_range.mp hi)] at hin
    rw [h j (List.mem_range.mp hj)] at hin'
    obtain ⟨-, bucket, -, -, hbucket, -⟩ := mem_flushSharded hin
    obtain ⟨-, bucket', -, -, hbucket', -⟩ := mem_flushSharded hin'
    exact hne (flushId_injective (hbucket.symm.trans (Eq.trans hid.symm hbucket'))).1

/-- The messages of a flush with a routing key carry the items of the shard. -/
theorem flatMap_filter_flushSharded (hinj : Function.Injective routingKeyFor) {origin : NodeId}
    (items : List α) (shard : ℕ) :
    (((flushSharded hash msgType client origin keyOf numShards batchSize routingKeyFor items).filter
      fun m ↦ m.routingKey = some (routingKeyFor shard)).flatMap Message.payload).Perm
      (items.filter fun item ↦ shardOf hash (keyOf item) numShards = shard) := by
  generalize hmsgs : flushSharded hash msgType client origin keyOf numShards batchSize routingKeyFor
    items = msgs
  have hall : (msgs.flatMap Message.payload).Perm items :=
    hmsgs ▸ flatMap_payload_flushSharded items
  refine List.Perm.trans ?_ (hall.filter _)
  rw [List.filter_flatMap]
  have hmem : ∀ m ∈ msgs, ∀ item ∈ m.payload,
      (m.routingKey = some (routingKeyFor shard) ↔
        shardOf hash (keyOf item) numShards = shard) := by
    intro m hm item hitem
    obtain ⟨shard', -, -, hkey, -, -, hitems⟩ := mem_flushSharded (hmsgs ▸ hm)
    rw [hkey, shardOf, (hitems item hitem).2, Option.some_inj, hinj.eq_iff]
  clear hmsgs hall
  induction msgs with
  | nil => rfl
  | cons m msgs ih =>
    have ih' := ih fun m' hm' ↦ hmem m' (List.mem_cons_of_mem _ hm')
    have hm := hmem m List.mem_cons_self
    rw [List.flatMap_cons]
    by_cases hkey : m.routingKey = some (routingKeyFor shard)
    · rw [List.filter_cons_of_pos (by simpa using hkey), List.flatMap_cons]
      refine List.Perm.append (List.Perm.of_eq ?_) ih'
      exact (List.filter_eq_self.mpr fun item hitem ↦ by simpa using (hm item hitem).mp hkey).symm
    · rw [List.filter_cons_of_neg (by simpa using hkey)]
      have hnone : m.payload.filter (fun item ↦ shardOf hash (keyOf item) numShards = shard) = [] :=
        List.filter_eq_nil_iff.mpr fun item hitem ↦ by simpa using mt (hm item hitem).mpr hkey
      rw [hnone, List.nil_append]
      exact ih'

/-- **What a replica of the next stage is sent are the items of its shard.** -/
theorem flatMap_routed (hinj : Function.Injective routingKeyFor)
    (h : FlushesItems hash msgType client keyOf n numShards batchSize routingKeyFor items output)
    (shard : ℕ) :
    ((routed n output (routingKeyFor shard)).flatMap Prod.snd).Perm
      (((List.range n).flatMap items).filter
        fun item ↦ shardOf hash (keyOf item) numShards = shard) := by
  rw [routed, List.flatMap_assoc, List.filter_flatMap]
  refine List.Perm.flatMap_left _ fun i hi ↦ ?_
  rw [List.flatMap_map, h i (List.mem_range.mp hi)]
  exact flatMap_filter_flushSharded hinj (items i) shard

theorem FlushesItems.sharded (hinj : Function.Injective routingKeyFor)
    (h : FlushesItems hash msgType client keyOf n numShards batchSize routingKeyFor items output) :
    Sharded n output routingKeyFor (fun item ↦ shardOf hash (keyOf item) numShards)
      ((List.range n).flatMap items) where
  nodup r := nodup_routed hinj h (routingKeyFor r)
  perm := flatMap_routed hinj h

/-- Everything the replicas flush. -/
theorem flatMap_payload_routed
    (h : FlushesItems hash msgType client keyOf n numShards batchSize routingKeyFor items output) :
    ((List.range n).flatMap fun i ↦ (output i).flatMap Message.payload).Perm
      ((List.range n).flatMap items) := by
  refine List.Perm.flatMap_left _ fun i hi ↦ ?_
  rw [h i (List.mem_range.mp hi)]
  exact flatMap_payload_flushSharded (items i)

end Flush

end MoneyLaundering
