import MoneyLaundering.Collections.Dict
import MoneyLaundering.Messages.Models
import MoneyLaundering.Text.Md5

/-!
# Sharding and the deterministic flush

Keys are distributed by their md5 digest read as a number (`common/worker/utils/sharding.py`). A
flush sends the items of each shard in batches, and takes the batch of an item from the same number,
so that which items travel together depends on the items alone (`StatefulWorker._flush_sharded`).

Everything here is over an arbitrary hash function; `hashOf` is the one the workers use.
`sameMessages_flushSharded` says that the order in which a flush finds its items does not matter.
-/

namespace MoneyLaundering

variable {α : Type} (hash : String → ℕ)

/-- Stable integer hash of a key: md5 as a number. -/
def hashOf (key : String) : ℕ := Md5.hexdigestInt key

/-- Stable shard index for a routing key. -/
def shardOf (key : String) (numShards : ℕ) : ℕ := hash key % numShards

/-- How many batches a shard of `n` items is sent in. -/
def numBuckets (batchSize n : ℕ) : ℕ := max 1 ((n + batchSize - 1) / batchSize)

/-- The hash of an item's key, with the item. -/
def hashed (keyOf : α → String) (items : List α) : List (ℕ × α) :=
  items.map fun item ↦ (hash (keyOf item), item)

/-- The message of one bucket of a shard. -/
def bucketMessage (msgType : MsgType) (client : ClientId) (origin : NodeId) (routingKey : String)
    (bucket : ℕ × List (ℕ × α)) : Message α where
  msgType
  routingKey := some routingKey
  messageId := flushId origin client bucket.1
  payload := bucket.2.map Prod.snd

/-- The batches of one shard. -/
def flushShard (msgType : MsgType) (client : ClientId) (origin : NodeId) (numShards batchSize : ℕ)
    (routingKeyFor : ℕ → String) (shard : ℕ × List (ℕ × α)) : List (Message α) :=
  let buckets := numBuckets batchSize shard.2.length
  (Dict.groupBy (fun pair : ℕ × α ↦ pair.1 / numShards % buckets) shard.2).items.map
    (bucketMessage msgType client origin (routingKeyFor shard.1))

/-- The messages a flush sends for a list of items. -/
def flushSharded (msgType : MsgType) (client : ClientId) (origin : NodeId) (keyOf : α → String)
    (numShards batchSize : ℕ) (routingKeyFor : ℕ → String) (items : List α) : List (Message α) :=
  (Dict.groupBy (fun pair : ℕ × α ↦ pair.1 % numShards) (hashed hash keyOf items)).items.flatMap
    (flushShard msgType client origin numShards batchSize routingKeyFor)

variable {hash} {msgType : MsgType} {client : ClientId} {origin : NodeId} {keyOf : α → String}
  {numShards batchSize : ℕ} {routingKeyFor : ℕ → String}

/-! ## The order of the items does not matter -/

theorem sameMessages_flushShard {shard : ℕ} {pairs pairs' : List (ℕ × α)} (h : pairs.Perm pairs') :
    SameMessages
      (flushShard msgType client origin numShards batchSize routingKeyFor (shard, pairs))
      (flushShard msgType client origin numShards batchSize routingKeyFor (shard, pairs')) := by
  rw [SameMessages, flushShard, flushShard, h.length_eq, List.map_map, List.map_map,
    List.map_eq_flatMap, List.map_eq_flatMap]
  refine Dict.flatMap_groupBy_perm _ (fun k l l' hl ↦ ?_) h
  rw [Function.comp_apply, Function.comp_apply, Message.unordered, Message.unordered, bucketMessage,
    bucketMessage, Multiset.coe_eq_coe.mpr (hl.map Prod.snd)]

/-- **A flush sends the same messages whatever order it finds its items in.** -/
theorem sameMessages_flushSharded {items items' : List α} (h : items.Perm items') :
    SameMessages
      (flushSharded hash msgType client origin keyOf numShards batchSize routingKeyFor items)
      (flushSharded hash msgType client origin keyOf numShards batchSize routingKeyFor items') := by
  rw [SameMessages, flushSharded, flushSharded, List.map_flatMap, List.map_flatMap]
  refine Dict.flatMap_groupBy_perm _ (fun k l l' hl ↦ ?_) (h.map _)
  exact sameMessages_flushShard hl

/-! ## What a flush sends -/

/-- Every item is sent once. -/
theorem flatMap_payload_flushSharded (items : List α) :
    ((flushSharded hash msgType client origin keyOf numShards batchSize routingKeyFor
      items).flatMap Message.payload).Perm items := by
  have hshard : ∀ shard : ℕ × List (ℕ × α),
      ((flushShard msgType client origin numShards batchSize routingKeyFor shard).flatMap
        Message.payload).Perm (shard.2.map Prod.snd) := by
    intro shard
    rw [flushShard, List.flatMap_map]
    simp only [bucketMessage]
    rw [← List.map_flatMap]
    exact (Dict.flatMap_snd_groupBy _ shard.2).map Prod.snd
  have hitems : items = (hashed hash keyOf items).map Prod.snd := by
    rw [hashed, List.map_map]
    exact (List.map_id items).symm
  conv_rhs => rw [hitems]
  rw [flushSharded, List.flatMap_assoc]
  refine (List.Perm.flatMap_left _ fun shard _ ↦ hshard shard).trans ?_
  rw [← List.map_flatMap]
  exact (Dict.flatMap_snd_groupBy _ _).map Prod.snd

/-- Where the messages of a flush go and what is in them: an item is sent to its own shard, and the
id of its message names a bucket of that shard. -/
theorem mem_flushSharded {items : List α} {m : Message α}
    (hm : m ∈ flushSharded hash msgType client origin keyOf numShards batchSize routingKeyFor
      items) :
    ∃ shard bucket, m.msgType = msgType ∧ m.routingKey = some (routingKeyFor shard) ∧
      m.messageId = flushId origin client bucket ∧ m.payload ≠ [] ∧
      ∀ item ∈ m.payload, item ∈ items ∧ hash (keyOf item) % numShards = shard := by
  obtain ⟨⟨shard, pairs⟩, hshard, hm⟩ := List.mem_flatMap.mp hm
  obtain ⟨⟨bucket, batch⟩, hbucket, rfl⟩ := List.mem_map.mp hm
  obtain ⟨rfl, pair, hpair, hkey⟩ := Dict.mem_items_groupBy.mp hbucket
  obtain ⟨rfl, -⟩ := Dict.mem_items_groupBy.mp hshard
  refine ⟨shard, bucket, rfl, rfl, rfl, ?_, ?_⟩
  · intro hnil
    have hmem : pair.2 ∈ ([] : List α) := by
      rw [← hnil]
      exact List.mem_map_of_mem (List.mem_filter.mpr ⟨hpair, by simpa using hkey⟩)
    exact List.not_mem_nil hmem
  · intro item hitem
    obtain ⟨pair', hpair', rfl⟩ := List.mem_map.mp hitem
    have hmem := (List.mem_filter.mp hpair').1
    obtain ⟨hin, hshard'⟩ := List.mem_filter.mp hmem
    obtain ⟨x, hx, rfl⟩ := List.mem_map.mp hin
    exact ⟨hx, by simpa using hshard'⟩

/-- **Within one flush, a routing key and an id determine the message**, as long as different shards
have different routing keys. -/
theorem nodup_flushSharded (hinj : Function.Injective routingKeyFor) (items : List α) :
    ((flushSharded hash msgType client origin keyOf numShards batchSize routingKeyFor items).map
      fun m ↦ (m.routingKey, m.messageId)).Nodup := by
  rw [flushSharded, List.map_flatMap, List.nodup_flatMap]
  constructor
  · rintro ⟨shard, pairs⟩ -
    rw [flushShard, List.map_map]
    refine List.Nodup.of_map (fun p : Option String × MessageId ↦ p.2) ?_
    rw [List.map_map]
    have hnd := (Dict.groupBy (fun pair : ℕ × α ↦
      pair.1 / numShards % numBuckets batchSize pairs.length) pairs).nodup
    have heq : (fun p : Option String × MessageId ↦ p.2) ∘ ((fun m : Message α ↦
        (m.routingKey, m.messageId)) ∘ bucketMessage msgType client origin (routingKeyFor shard))
        = flushId origin client ∘ Prod.fst := rfl
    rw [heq, ← List.map_map]
    exact hnd.map fun a b h ↦ (flushId_injective h).2
  · refine List.Pairwise.imp_of_mem ?_ (List.pairwise_map.mp (Dict.groupBy _ _).nodup)
    rintro ⟨shard, pairs⟩ ⟨shard', pairs'⟩ - - hne
    rw [Function.onFun, List.disjoint_left]
    rintro ⟨key, id⟩ h h'
    obtain ⟨m, hm, hk⟩ := List.mem_map.mp h
    obtain ⟨m', hm', hk'⟩ := List.mem_map.mp h'
    obtain ⟨b, -, rfl⟩ := List.mem_map.mp hm
    obtain ⟨b', -, rfl⟩ := List.mem_map.mp hm'
    have := (Prod.ext_iff.mp (hk.trans hk'.symm)).1
    exact hne (hinj (Option.some.inj this))

end MoneyLaundering
