import MoneyLaundering.Worker.Flow
import MoneyLaundering.Worker.Sharding

/-!
# What a sharded flush does

`StatefulWorker._flush_sharded` sends the batches of `flushSharded` one by one and counts each.
`flush_sharded_partition` collects what a flush amounts to: the items are partitioned into batches,
the batch of an item is determined by its key and by how many items there are in its shard, and the
order in which the items are found does not matter.
-/

namespace MoneyLaundering

variable {α σ : Type}

/-- Send some messages, and increment the sent count after each of them. -/
def Flow.sendEach (flow : Flow σ) (msgs : List (Message α)) : Flow σ × List (Message α) :=
  msgs.foldl (fun sent m ↦ (sent.1.incrementSentCount, sent.2 ++ [m])) (flow, [])

theorem Flow.sendEach_append (flow : Flow σ) (msgs : List (Message α)) (m : Message α) :
    flow.sendEach (msgs ++ [m])
      = ((flow.sendEach msgs).1.incrementSentCount, (flow.sendEach msgs).2 ++ [m]) := by
  rw [Flow.sendEach, List.foldl_append]
  rfl

theorem Flow.sendEach_eq (flow : Flow σ) (msgs : List (Message α)) :
    flow.sendEach msgs = (flow.countSent msgs.length, msgs) := by
  induction msgs using List.reverseRecOn with
  | nil => rfl
  | append_singleton msgs m ih => rw [sendEach_append, ih, List.length_append]; rfl

/-- `_flush_sharded`, with the flow whose messages it counts. -/
def Flow.flushSharded (hash : String → ℕ) (msgType : MsgType) (client : ClientId) (origin : NodeId)
    (keyOf : α → String) (numShards batchSize : ℕ) (routingKeyFor : ℕ → String) (flow : Flow σ)
    (items : List α) : Flow σ × List (Message α) :=
  flow.sendEach (MoneyLaundering.flushSharded hash msgType client origin keyOf numShards batchSize
    routingKeyFor items)

section Buckets

variable {hash : String → ℕ} {msgType : MsgType} {client : ClientId} {origin : NodeId}
  {keyOf : α → String} {numShards batchSize : ℕ} {routingKeyFor : ℕ → String}

/-- The message that an item of a flush travels in: it is determined by the key of the item. -/
def messageOf (hash : String → ℕ) (msgType : MsgType) (client : ClientId) (origin : NodeId)
    (keyOf : α → String) (numShards batchSize : ℕ) (routingKeyFor : ℕ → String) (items : List α)
    (key : String) : Message α :=
  let shard := hash key % numShards
  let pairs := (hashed hash keyOf items).filter fun pair ↦ pair.1 % numShards = shard
  let buckets := numBuckets batchSize pairs.length
  let bucket := hash key / numShards % buckets
  bucketMessage msgType client origin (routingKeyFor shard)
    (bucket, pairs.filter fun pair ↦ pair.1 / numShards % buckets = bucket)

theorem eq_messageOf {items : List α} {m : Message α}
    (hm : m ∈ flushSharded hash msgType client origin keyOf numShards batchSize routingKeyFor items)
    {item : α} (hitem : item ∈ m.payload) :
    m = messageOf hash msgType client origin keyOf numShards batchSize routingKeyFor items
      (keyOf item) := by
  obtain ⟨⟨shard, pairs⟩, hshard, hm⟩ := List.mem_flatMap.mp hm
  obtain ⟨⟨bucket, batch⟩, hbucket, rfl⟩ := List.mem_map.mp hm
  obtain ⟨rfl, -⟩ := Dict.mem_items_groupBy.mp hbucket
  obtain ⟨rfl, -⟩ := Dict.mem_items_groupBy.mp hshard
  obtain ⟨pair, hpair, rfl⟩ := List.mem_map.mp hitem
  obtain ⟨hpair', hbucket'⟩ := List.mem_filter.mp hpair
  obtain ⟨hin, hshard'⟩ := List.mem_filter.mp hpair'
  obtain ⟨item, -, rfl⟩ := List.mem_map.mp hin
  obtain rfl : hash (keyOf item) % numShards = shard := by simpa using hshard'
  simp only [decide_eq_true_eq] at hbucket'
  subst hbucket'
  rfl

/-- The messages of one flush that go to one shard have different ids. -/
theorem pairwise_messageId (items : List α) :
    (flushSharded hash msgType client origin keyOf numShards batchSize routingKeyFor items).Pairwise
      fun m m' ↦ ∀ item ∈ m.payload, ∀ item' ∈ m'.payload,
        shardOf hash (keyOf item) numShards = shardOf hash (keyOf item') numShards →
        m.messageId ≠ m'.messageId := by
  rw [flushSharded, List.pairwise_flatMap]
  constructor
  · -- in one group, the buckets differ
    rintro ⟨shard, pairs⟩ -
    rw [flushShard, List.pairwise_map]
    refine List.Pairwise.imp ?_ (List.pairwise_map.mp (Dict.groupBy _ pairs).nodup)
    intro bucket bucket' hne _ _ _ _ _ heq
    exact hne (flushId_injective heq).2
  · -- the items of two groups have different shards
    refine List.Pairwise.imp_of_mem ?_ (List.pairwise_map.mp (Dict.groupBy _ _).nodup)
    rintro ⟨shard, pairs⟩ ⟨shard', pairs'⟩ hmem hmem' hne m hm m' hm' item hitem item' hitem' hsame
    have hshard : ∀ {shard pairs} {m : Message α} {item : α},
        (shard, pairs) ∈ (Dict.groupBy (fun pair : ℕ × α ↦ pair.1 % numShards)
          (hashed hash keyOf items)).items →
        m ∈ flushShard msgType client origin numShards batchSize routingKeyFor (shard, pairs) →
        item ∈ m.payload → shardOf hash (keyOf item) numShards = shard := by
      intro shard pairs m item hmem hm hitem
      obtain ⟨⟨bucket, batch⟩, hbucket, rfl⟩ := List.mem_map.mp hm
      obtain ⟨rfl, -⟩ := Dict.mem_items_groupBy.mp hbucket
      obtain ⟨rfl, -⟩ := Dict.mem_items_groupBy.mp hmem
      obtain ⟨pair, hpair, rfl⟩ := List.mem_map.mp hitem
      obtain ⟨hin, hkey⟩ := List.mem_filter.mp (List.mem_filter.mp hpair).1
      obtain ⟨item, -, rfl⟩ := List.mem_map.mp hin
      simpa [shardOf] using hkey
    exact absurd ((hshard hmem hm hitem).symm.trans (hsame.trans (hshard hmem' hm' hitem'))) hne

end Buckets

/-- **A sharded flush is a partition that the content determines.** Every item is sent once; a batch
is not empty and goes to the shard of its items; items with one key travel in one batch; the ids of
the batches of a shard differ; each batch is counted; and another order of the items gives the same
batches. -/
theorem flush_sharded_partition (hash : String → ℕ) (msgType : MsgType) (client : ClientId)
    (origin : NodeId) (keyOf : α → String) (numShards batchSize : ℕ) (routingKeyFor : ℕ → String)
    (flow : Flow σ) (items : List α) :
    let flushed := flow.flushSharded hash msgType client origin keyOf numShards batchSize
      routingKeyFor items
    (flushed.2.flatMap Message.payload).Perm items ∧
    (∀ m ∈ flushed.2, m.payload ≠ [] ∧ ∃ shard, m.routingKey = some (routingKeyFor shard) ∧
      ∀ item ∈ m.payload, shardOf hash (keyOf item) numShards = shard) ∧
    (∀ m ∈ flushed.2, ∀ m' ∈ flushed.2, ∀ item ∈ m.payload, ∀ item' ∈ m'.payload,
      keyOf item = keyOf item' → m = m') ∧
    (flushed.2.Pairwise fun m m' ↦ ∀ item ∈ m.payload, ∀ item' ∈ m'.payload,
      shardOf hash (keyOf item) numShards = shardOf hash (keyOf item') numShards →
      m.messageId ≠ m'.messageId) ∧
    flushed.1.observe = { flow.observe with sent := flow.observe.sent + flushed.2.length } ∧
    ∀ items' : List α, items.Perm items' → SameMessages flushed.2
      (flow.flushSharded hash msgType client origin keyOf numShards batchSize routingKeyFor
        items').2 := by
  simp only [Flow.flushSharded, Flow.sendEach_eq]
  refine ⟨flatMap_payload_flushSharded items, fun m hm ↦ ?_, ?_, pairwise_messageId items, ?_,
    fun items' h ↦ sameMessages_flushSharded h⟩
  · obtain ⟨shard, -, -, hkey, -, hne, hshard⟩ := mem_flushSharded hm
    exact ⟨hne, shard, hkey, fun item hitem ↦ (hshard item hitem).2⟩
  · intro m hm m' hm' item hitem item' hitem' hkey
    rw [eq_messageOf hm hitem, eq_messageOf hm' hitem', hkey]
  · exact flow.observe_countSent _

end MoneyLaundering
