import Mathlib.Algebra.Order.Ring.Rat
import MoneyLaundering.Collections.KeyedSums
import MoneyLaundering.Joins.Completed
import MoneyLaundering.Worker.Replicas
import MoneyLaundering.Workers.Totals

/-!
# The averages and the anomalies of query 3

Query 3 looks for payments that are small for their payment format, compared with the mean of an
earlier period. Totals and counts are added up at four places: over a batch, over what an aggregator
has seen, over a batch of partial totals and over what a reducer has seen. Each is a sum by key, so
that all four together are the sum over the transactions. The reducers send their averages to every
filter, which joins them with the transactions of the later period: `anomalies_refine`.

Amounts are rational numbers. `key` is how a payment format is normalised, `strip().lower()`; all
that is used of it is that normalising twice changes nothing.
-/

namespace MoneyLaundering

open KeyedSums StatefulWorker

/-! ## What is to be found -/

/-- The normalised payment format of a transaction and what is paid in it. -/
def Transaction.paidIn (key : String → String) (tx : Transaction ℚ) : Option (String × ℚ) :=
  match tx.paymentFormat, tx.amount with
  | some format, some amount => some (key format, amount)
  | _, _ => none

/-- The amounts paid in a payment format. -/
def formatAmounts (key : String → String) (txs : List (Transaction ℚ)) (paymentFormat : String) :
    List ℚ :=
  ((txs.filterMap (Transaction.paidIn key)).filter fun p ↦ p.1 = paymentFormat).map Prod.snd

/-- The mean of the amounts paid in a payment format that occurs. -/
def formatMean (key : String → String) (txs : List (Transaction ℚ)) (paymentFormat : String) :
    Option ℚ :=
  let amounts := formatAmounts key txs paymentFormat
  if amounts = [] then none else some (amounts.sum / amounts.length)

/-- What a payment of the later period contributes to the results: itself, when the mean of its
format is positive and the payment is below the multiple of it. -/
def anomalyOf (key : String → String) (threshold : ℚ) (earlier : List (Transaction ℚ))
    (tx : Transaction ℚ) : Option (Q3Result ℚ) :=
  match tx.paymentFormat, tx.amount, tx.fromBank, tx.fromAccount with
  | some format, some amount, some fromBank, some fromAccount =>
    (formatMean key earlier (key format)).bind fun mean ↦
      if 0 < mean ∧ amount < threshold * mean then some ⟨fromBank, fromAccount, amount⟩ else none
  | _, _, _, _ => none

/-- What some transactions add to the totals. -/
def formatEntries (key : String → String) (txs : List (Transaction ℚ)) : List (String × ℚ × ℕ) :=
  (txs.filterMap (Transaction.paidIn key)).map fun p ↦ (p.1, p.2, 1)

variable {key : String → String}

theorem formatEntries_flatMap {α : Type} (f : α → List (Transaction ℚ)) (l : List α) :
    formatEntries key (l.flatMap f) = l.flatMap fun a ↦ formatEntries key (f a) := by
  rw [formatEntries, List.filterMap_flatMap, List.map_flatMap]
  rfl

/-- The total and the count of a payment format. -/
theorem sums_formatEntries (txs : List (Transaction ℚ)) (k : String) :
    sums (formatEntries key txs) k
      = ((formatAmounts key txs k).sum, (formatAmounts key txs k).length) := by
  have hpairs : ∀ amounts : List ℚ,
      (amounts.map fun amount ↦ (amount, 1)).sum = (amounts.sum, amounts.length) := by
    intro amounts
    induction amounts with
    | nil => rfl
    | cons amount amounts ih =>
      rw [List.map_cons, List.sum_cons, ih, List.sum_cons, List.length_cons, Prod.mk_add_mk,
        add_comm 1]
  rw [sums_apply, formatEntries, List.filter_map, List.map_map, ← hpairs,
    formatAmounts, List.map_map]
  rfl

/-- A payment format that occurs is normalised. -/
theorem key_of_formatAmounts (hkey : ∀ s, key (key s) = key s) {txs : List (Transaction ℚ)}
    {k : String} (h : formatAmounts key txs k ≠ []) : key k = k := by
  obtain ⟨p, hp⟩ := List.exists_mem_of_ne_nil _ (mt List.map_eq_nil_iff.mpr h)
  obtain ⟨hmem, hk⟩ := List.mem_filter.mp hp
  obtain ⟨tx, -, hpaid⟩ := List.mem_filterMap.mp hmem
  unfold Transaction.paidIn at hpaid
  split at hpaid
  · next format amount hformat hamount =>
    obtain rfl := Option.some.inj hpaid
    obtain rfl : key format = k := by simpa using hk
    exact hkey format
  · exact absurd hpaid.symm (Option.some_ne_none _)

/-! ## The workers take sums -/

namespace FormatTotals

theorem value_add (totals : FormatTotals ℚ) (paymentFormat : String) (amount : ℚ) (count : ℕ) :
    value (totals.add paymentFormat amount count)
      = value totals + Pi.single paymentFormat (amount, count) :=
  value_addTo totals paymentFormat (amount, count)

/-- Applying a delta adds it. -/
theorem value_applyDelta (delta totals : FormatTotals ℚ) :
    value (applyDelta delta totals) = value totals + value delta := by
  rw [← sums_items delta]
  exact value_foldl_addTo delta.items totals

end FormatTotals

theorem aggregateFormat_eq (delta : FormatTotals ℚ) (tx : Transaction ℚ) :
    aggregateFormat key delta tx = (tx.paidIn key).elim delta fun p ↦ delta.add p.1 p.2 1 := by
  unfold aggregateFormat Transaction.paidIn
  cases tx.paymentFormat with
  | none => rfl
  | some format => cases tx.amount <;> rfl

/-- The delta of a batch of transactions. -/
theorem value_aggregateFormat (batch : List (Transaction ℚ)) (totals : FormatTotals ℚ) :
    value (batch.foldl (aggregateFormat key) totals)
      = value totals + sums (formatEntries key batch) := by
  induction batch generalizing totals with
  | nil => exact (add_zero _).symm
  | cons tx batch ih =>
    rw [List.foldl_cons, ih, aggregateFormat_eq, formatEntries, formatEntries, List.filterMap_cons]
    cases tx.paidIn key with
    | none => rfl
    | some p =>
      rw [Option.elim_some, FormatTotals.value_add, List.map_cons, sums_cons, ← add_assoc]

/-- What a partial total adds. -/
def PaymentFormatPartial.entry (part : PaymentFormatPartial ℚ) : String × ℚ × ℕ :=
  (part.paymentFormat, part.totalAmount, part.count)

/-- The delta of a batch of partial totals. -/
theorem value_reduceFormat (batch : List (PaymentFormatPartial ℚ)) (totals : FormatTotals ℚ) :
    value (batch.foldl
      (fun (delta : FormatTotals ℚ) part ↦ delta.add part.paymentFormat part.totalAmount part.count)
      totals) = value totals + sums (batch.map PaymentFormatPartial.entry) := by
  induction batch generalizing totals with
  | nil => exact (add_zero _).symm
  | cons part batch ih =>
    rw [List.foldl_cons, ih, FormatTotals.value_add, List.map_cons, sums_cons, ← add_assoc]
    rfl

section Stage

variable {P Item : Type} {totalsOf : P → FormatTotals ℚ}
  {flush : NodeId → ClientId → FormatTotals ℚ → List (Message Item)} {client : ClientId} {n : ℕ}
  {sent deliveries : ℕ → List (MessageId × P)} {output : ℕ → List (Message Item)}

theorem turns_totalsWorker (d : MessageId × P) :
    (totalsWorker P Item totalsOf flush).Turns d (totalsOf d.2) [] := fun _ ↦ rfl

/-- A replica adds up what its messages enter. -/
theorem value_foldl_applyDelta {entries : P → List (String × ℚ × ℕ)}
    (hvalue : ∀ p, value (totalsOf p) = sums (entries p)) (order : List (MessageId × P))
    (totals : FormatTotals ℚ) :
    value (order.foldl (fun totals d ↦ FormatTotals.applyDelta (totalsOf d.2) totals) totals)
      = value totals + sums (order.flatMap fun d ↦ entries d.2) := by
  induction order generalizing totals with
  | nil => exact (add_zero _).symm
  | cons d order ih =>
    rw [List.foldl_cons, ih, FormatTotals.value_applyDelta, hvalue, List.flatMap_cons, sums_append,
      add_assoc]

/-- **What a stage of totals flushes**: totals of what each replica was sent. -/
theorem exists_totals (entries : P → List (String × ℚ × ℕ))
    (hvalue : ∀ p, value (totalsOf p) = sums (entries p))
    (hids : ∀ i < n, ((sent i).map Prod.fst).Nodup) (hdelivers : Delivers n sent deliveries)
    (hyields : Yields (totalsWorker P Item totalsOf flush) client n deliveries output) :
    ∃ totals : ℕ → FormatTotals ℚ, ∀ i < n,
      value (totals i) = sums ((sent i).flatMap fun d ↦ entries d.2) ∧
        output i = flush i client (totals i) := by
  refine hyields.exists_states totalsOf
    (fun i (totals : FormatTotals ℚ) ↦ value totals = sums ((sent i).flatMap fun d ↦ entries d.2))
    (fun _ _ d _ ↦ turns_totalsWorker d) hids hdelivers fun i _ order hperm ↦ ?_
  have hfold := value_foldl_applyDelta hvalue order Dict.empty
  rw [value_empty, zero_add] at hfold
  exact hfold.trans (sums_perm (hperm.flatMap_right _))

end Stage

/-! ## The averages -/

theorem formatMean_eq_some_iff {txs : List (Transaction ℚ)} {k : String} {mean : ℚ} :
    formatMean key txs k = some mean
      ↔ (sums (formatEntries key txs) k).2 ≠ 0 ∧
        (sums (formatEntries key txs) k).1 / (sums (formatEntries key txs) k).2 = mean := by
  rw [sums_formatEntries, formatMean]
  by_cases hnil : formatAmounts key txs k = []
  · simp [hnil]
  · simp [hnil]

theorem mem_averages_iff {totals : FormatTotals ℚ} {average : PaymentFormatAverage ℚ} :
    average ∈ averages totals
      ↔ (value totals average.paymentFormat).2 ≠ 0 ∧
        (value totals average.paymentFormat).1 / (value totals average.paymentFormat).2
          = average.averageAmount := by
  rw [averages, List.mem_filterMap]
  constructor
  · rintro ⟨⟨format, total, count⟩, hmem, haverage⟩
    split at haverage
    · exact absurd haverage.symm (Option.some_ne_none _)
    · next hcount =>
      obtain rfl := Option.some.inj haverage
      have hvalue : value totals format = (total, count) := by
        rw [value, Dict.get_eq_some.mpr hmem, Option.getD_some]
      rw [hvalue]
      exact ⟨hcount, rfl⟩
  · rintro ⟨hcount, haverage⟩
    cases hget : totals.get average.paymentFormat with
    | none =>
      rw [value, hget] at hcount
      exact absurd rfl hcount
    | some entry =>
      have hvalue : value totals average.paymentFormat = entry := by
        rw [value, hget, Option.getD_some]
      rw [hvalue] at hcount haverage
      refine ⟨(average.paymentFormat, entry), Dict.get_eq_some.mp hget, ?_⟩
      rw [if_neg hcount, haverage]

/-- What the replicas of a stage send to every replica of the next one. -/
def broadcast {α : Type} (n : ℕ) (output : ℕ → List (Message α)) : List (MessageId × List α) :=
  (List.range n).flatMap fun r ↦ (output r).map fun m ↦ (m.messageId, m.payload)

section Averages

variable {hash : String → ℕ} {cfg : Config ℚ} {client : ClientId} {txs : List (Transaction ℚ)}
  {batches : List (MessageId × List (Transaction ℚ))} {assign : MessageId → ℕ}
  {aggregators reducers : ℕ}

theorem alwaysYields_totalsWorker {P Item : Type} (totalsOf : P → FormatTotals ℚ)
    (flush : NodeId → ClientId → FormatTotals ℚ → List (Message Item)) (client : ClientId) :
    AlwaysYields (totalsWorker P Item totalsOf flush) client :=
  alwaysYields client fun _ _ _ ↦ ⟨_, rfl⟩

/-- The aggregators flush partial totals that add up to the totals of the transactions. -/
theorem formatAggregators_flush (hbatches : (batches.flatMap Prod.snd).Perm txs)
    (hids : (batches.map Prod.fst).Nodup) (hassign : ∀ b ∈ batches, assign b.1 < aggregators)
    {deliveries : ℕ → List (MessageId × List (Transaction ℚ))}
    {output : ℕ → List (Message (PaymentFormatPartial ℚ))}
    (hdelivers : Delivers aggregators (assigned assign batches) deliveries)
    (hyields : Yields (paymentFormatAggregator hash key cfg) client aggregators deliveries output) :
    ∃ parts : ℕ → List (PaymentFormatPartial ℚ),
      FlushesItems hash .paymentFormatPartialBatch client PaymentFormatPartial.paymentFormat
        aggregators cfg.numShards cfg.batchSize toString parts output ∧
      sums (((List.range aggregators).flatMap parts).map PaymentFormatPartial.entry)
        = sums (formatEntries key txs) := by
  obtain ⟨totals, htotals⟩ := exists_totals (formatEntries key)
    (fun batch ↦ (value_aggregateFormat batch Dict.empty).trans (zero_add _))
    (fun i _ ↦ nodup_assigned hids i) hdelivers hyields
  refine ⟨fun i ↦ (totals i).items.map fun p ↦ ⟨p.1, p.2.1, p.2.2⟩,
    fun i hi ↦ (htotals i hi).2, ?_⟩
  have hparts : ∀ i ∈ List.range aggregators,
      sums (((totals i).items.map fun p ↦ (⟨p.1, p.2.1, p.2.2⟩ : PaymentFormatPartial ℚ)).map
        PaymentFormatPartial.entry)
        = sums ((assigned assign batches i).flatMap fun d ↦ formatEntries key d.2) := by
    intro i hi
    rw [List.map_map, ← (htotals i (List.mem_range.mp hi)).1, ← sums_items]
    exact congrArg sums (List.map_id _)
  rw [List.map_flatMap, sums_flatMap, List.map_congr_left hparts, ← sums_flatMap,
    ← List.flatMap_assoc, sums_perm ((flatMap_assigned hassign).flatMap_right _),
    ← formatEntries_flatMap]
  exact sums_perm ((hbatches.filterMap _).map _)

/-- Each reducer flushes the averages of its own shard. -/
theorem formatReducers_flush {parts : ℕ → List (PaymentFormatPartial ℚ)} {batchSize : ℕ}
    {output : ℕ → List (Message (PaymentFormatPartial ℚ))}
    (hflush : FlushesItems hash .paymentFormatPartialBatch client PaymentFormatPartial.paymentFormat
      aggregators reducers batchSize toString parts output)
    (hparts : sums (((List.range aggregators).flatMap parts).map PaymentFormatPartial.entry)
      = sums (formatEntries key txs))
    {deliveries : ℕ → List (MessageId × List (PaymentFormatPartial ℚ))}
    {output' : ℕ → List (Message (PaymentFormatAverage ℚ))}
    (hdelivers : Delivers reducers (fun r ↦ routed aggregators output (toString r)) deliveries)
    (hyields : Yields (paymentFormatReducer ℚ) client reducers deliveries output') :
    ∃ totals : ℕ → FormatTotals ℚ,
      (broadcast reducers output'
        = (List.range reducers).map fun r ↦ (flushId r client 0, averages (totals r))) ∧
      ∀ r < reducers, ∀ average, average ∈ averages (totals r)
        ↔ shardOf hash average.paymentFormat reducers = r ∧
          formatMean key txs average.paymentFormat = some average.averageAmount := by
  have hinj : Function.Injective (toString : ℕ → String) := fun _ _ h ↦ natToString_injective h
  obtain ⟨totals, htotals⟩ := exists_totals
    (fun batch : List (PaymentFormatPartial ℚ) ↦ batch.map PaymentFormatPartial.entry)
    (fun batch ↦ (value_reduceFormat batch Dict.empty).trans (zero_add _))
    (fun r _ ↦ nodup_routed hinj hflush (toString r)) hdelivers hyields
  refine ⟨totals, ?_, fun r hr average ↦ ?_⟩
  · rw [broadcast, List.map_eq_flatMap]
    refine List.flatMap_congr fun r hr ↦ ?_
    rw [(htotals r (List.mem_range.mp hr)).2]
    rfl
  · have hvalue : ∀ k, value (totals r) k = if shardOf hash k reducers = r then
        sums (formatEntries key txs) k else 0 := by
      intro k
      rw [(htotals r hr).1, ← List.map_flatMap,
        sums_perm ((flatMap_routed hinj hflush r).map _), ← hparts,
        ← sums_filter fun k ↦ shardOf hash k reducers = r, List.filter_map]
      rfl
    rw [mem_averages_iff, hvalue, formatMean_eq_some_iff]
    by_cases hshard : shardOf hash average.paymentFormat reducers = r
    · simp [hshard]
    · simp [hshard]

end Averages

/-! ## The filter -/

section Filter

variable {threshold : ℚ} {queryId : String} {client : ClientId} {txs : List (Transaction ℚ)}

/-- A table is what its batches assign, one after the other. -/
theorem tableOf_anomalyFilter (order : List (MessageId × List (PaymentFormatAverage ℚ))) :
    (anomalyFilter key threshold queryId).tableOf order
      = some ((order.flatMap fun b ↦ b.2.map fun average ↦
          (key average.paymentFormat, average.averageAmount)).foldl
            (fun avgs p ↦ avgs.set p.1 p.2) Dict.empty) := by
  induction order using List.reverseRecOn with
  | nil => rfl
  | append_singleton order b ih =>
    rw [List.flatMap_append, List.foldl_append, List.flatMap_singleton]
    exact SideInputWorker.tableOf_append_singleton ih rfl

/-- **The table of a filter holds the means**, in whatever order the averages have arrived. -/
theorem get_tableOf (hkey : ∀ s, key (key s) = key s)
    {order : List (MessageId × List (PaymentFormatAverage ℚ))} {table : Dict String ℚ}
    (hmem : ∀ average, average ∈ order.flatMap Prod.snd
      ↔ formatMean key txs average.paymentFormat = some average.averageAmount)
    (htable : (anomalyFilter key threshold queryId).tableOf order = some table) (k : String) :
    table.get k = formatMean key txs k := by
  have hnormal : ∀ {k : String} {mean : ℚ}, formatMean key txs k = some mean → key k = k := by
    intro k mean h
    have hne : formatAmounts key txs k ≠ [] := by
      intro hnil
      rw [formatMean, hnil] at h
      exact absurd h.symm (Option.some_ne_none mean)
    exact key_of_formatAmounts hkey hne
  have hentry : ∀ p, p ∈ (order.flatMap fun b ↦ b.2.map fun average ↦
      (key average.paymentFormat, average.averageAmount)) ↔ formatMean key txs p.1 = some p.2 := by
    intro p
    rw [← List.map_flatMap, List.mem_map]
    constructor
    · rintro ⟨average, haverage, rfl⟩
      have hmean := (hmem average).mp haverage
      rw [hnormal hmean]
      exact hmean
    · intro hmean
      exact ⟨⟨p.1, p.2⟩, (hmem ⟨p.1, p.2⟩).mpr hmean, Prod.ext (hnormal hmean) rfl⟩
  obtain rfl := Option.some.inj ((tableOf_anomalyFilter order).symm.trans htable)
  rw [Dict.get_foldl_set fun p hp ↦ (hentry p).mp hp]
  split
  · rfl
  · next hnot =>
    rw [Dict.get_empty]
    cases hmean : formatMean key txs k with
    | none => rfl
    | some mean =>
      exact absurd (List.mem_map.mpr ⟨(k, mean), (hentry (k, mean)).mpr hmean, rfl⟩) hnot

theorem anomalyOf_eq (tx : Transaction ℚ) :
    anomalyOf key threshold txs tx = (anomalyCandidate tx).bind fun candidate ↦
      (formatMean key txs (key candidate.paymentFormat)).bind fun mean ↦
        if 0 < mean ∧ candidate.amount < threshold * mean then
          some ⟨candidate.fromBank, candidate.fromAccount, candidate.amount⟩
        else none := by
  unfold anomalyOf anomalyCandidate
  cases tx.paymentFormat <;> cases tx.amount <;> cases tx.fromBank <;> cases tx.fromAccount <;> rfl

/-- With the means in its table, the filter sends what is to be found of a batch. -/
theorem emit_anomalyFilter {table : Dict String ℚ}
    (htable : ∀ k, table.get k = formatMean key txs k)
    (mid : MessageId) (batch : List (Transaction ℚ)) :
    (anomalyFilter key threshold queryId).emit client table mid batch
      = some ⟨.q3ResultBatch, some client, mid, batch.filterMap (anomalyOf key threshold txs)⟩ := by
  refine congrArg (fun payload ↦ some (Message.mk .q3ResultBatch (some client) mid payload)) ?_
  rw [← List.filterMap_eq_filter, List.filterMap_filterMap, List.map_filterMap]
  refine List.filterMap_congr fun tx _ ↦ ?_
  rw [anomalyOf_eq]
  cases anomalyCandidate tx with
  | none => rfl
  | some candidate =>
    rw [Option.bind_some, Option.bind_some]
    have hanomalous := htable (key candidate.paymentFormat)
    cases hmean : formatMean key txs (key candidate.paymentFormat) with
    | none =>
      rw [hmean] at hanomalous
      simp [Option.guard, isAnomalous, hanomalous]
    | some mean =>
      rw [hmean] at hanomalous
      by_cases hpos : 0 < mean
      · simp [Option.guard, isAnomalous, hanomalous, hpos, not_le.mpr hpos, apply_ite]
      · simp [Option.guard, isAnomalous, hanomalous, hpos, not_lt.mp hpos]

theorem total_anomalyFilter : (anomalyFilter key threshold queryId).Total where
  sideDelta _ := Option.some_ne_none _
  emit _ _ _ _ := Option.some_ne_none _

theorem forwards_anomalyFilter : (anomalyFilter key threshold queryId).Forwards :=
  SideInputKind.forwards key threshold queryId .anomalyFilter

end Filter

/-! ## The refinement -/

section Refinement

variable {hash : String → ℕ} {cfg : Config ℚ} {threshold : ℚ} {queryId : String}
  {client : ClientId} {txs txs' : List (Transaction ℚ)}
  {batches batches' : List (MessageId × List (Transaction ℚ))} {assign assign' : MessageId → ℕ}
  {aggregators reducers filters : ℕ}

/-- What a filter replica is sent: its share of the batches and the averages of all reducers. -/
structure FilterInputs (client : ClientId) (assign' : MessageId → ℕ)
    (batches' : List (MessageId × List (Transaction ℚ)))
    (averages : List (MessageId × List (PaymentFormatAverage ℚ)))
    (x : ℕ → SideInputs (anomalyFilter key threshold queryId)) : Prop where
  mains : ∀ j, (x j).mains = assigned assign' batches' j
  sides : ∀ j, (x j).sides = averages
  eofId : ∀ j, (x j).eofId = finalEofId client ⟨(x j).announced⟩ none

/-- The averages of the reducers can be sent to the filters: their ids are distinct, and none is
that of the end of the stream. -/
theorem exists_filterInputs (key : String → String) (threshold : ℚ) (queryId : String)
    (client : ClientId) (assign' : MessageId → ℕ) (hids' : (batches'.map Prod.fst).Nodup)
    (reducers : ℕ) (means : ℕ → List (PaymentFormatAverage ℚ)) :
    ∃ x : ℕ → SideInputs (anomalyFilter key threshold queryId), FilterInputs client assign' batches'
      ((List.range reducers).map fun r ↦ (flushId r client 0, means r)) x := by
  have hnodup : (eofId client none :: ((List.range reducers).map fun r ↦
      (flushId r client 0, means r)).map Prod.fst).Nodup := by
    rw [List.map_map]
    refine List.nodup_cons.mpr ⟨fun hmem ↦ ?_, List.nodup_range.map fun r r' h ↦ ?_⟩
    · obtain ⟨r, -, heq⟩ := List.mem_map.mp hmem
      exact eofId_ne_flushId r client 0 heq.symm
    · exact (flushId_injective h).1
  refine ⟨fun j ↦
    { mains := assigned assign' batches' j
      sides := (List.range reducers).map fun r ↦ (flushId r client 0, means r)
      eofId := eofId client none
      nodup_mains := nodup_assigned hids' j
      nodup_sides := hnodup }, fun _ ↦ rfl, fun _ ↦ rfl, fun j ↦ ?_⟩
  exact (finalEofId_eq (Local.isCleanupEof_of_announced rfl) none).symm

/-- All averages that arrive are the means of the formats that occur. -/
theorem mem_flatMap_averages {totals : ℕ → FormatTotals ℚ} (hreducers : 0 < reducers)
    (h : ∀ r < reducers, ∀ average, average ∈ averages (totals r)
      ↔ shardOf hash average.paymentFormat reducers = r ∧
        formatMean key txs average.paymentFormat = some average.averageAmount)
    {order : List (MessageId × List (PaymentFormatAverage ℚ))}
    (hperm : order.Perm
      ((List.range reducers).map fun r ↦ (flushId r client 0, averages (totals r))))
    (average : PaymentFormatAverage ℚ) : average ∈ order.flatMap Prod.snd
      ↔ formatMean key txs average.paymentFormat = some average.averageAmount := by
  rw [(hperm.flatMap_right _).mem_iff, List.flatMap_map, List.mem_flatMap]
  constructor
  · rintro ⟨r, hr, hmem⟩
    exact ((h r (List.mem_range.mp hr) average).mp hmem).2
  · intro hmean
    have hr : shardOf hash average.paymentFormat reducers < reducers := Nat.mod_lt _ hreducers
    exact ⟨_, List.mem_range.mpr hr, (h _ hr average).mpr ⟨rfl, hmean⟩⟩

/-- The averages a filter holds for a client. -/
def SideProcess.avgs (s : SideProcess (anomalyFilter key threshold queryId)) (client : ClientId) :
    Dict String ℚ := (s.store.mem client).table

/-- A filter that has done everything has sent what is to be found of its share. -/
theorem flatMap_published {x : SideInputs (anomalyFilter key threshold queryId)}
    {feed : SideFeed (anomalyFilter key threshold queryId)}
    {s : SideProcess (anomalyFilter key threshold queryId)} (hsends : feed.Sends client x)
    (hreach : SideProcess.Reachable feed s) (hdone : s.Done x client)
    (htable : ∀ order table, order.Perm x.sides →
      (anomalyFilter key threshold queryId).tableOf order = some table →
      ∀ k, table.get k = formatMean key txs k) :
    ((s.published client).flatMap fun p ↦ p.message.payload).Perm
      ((x.mains.flatMap Prod.snd).filterMap (anomalyOf key threshold txs)) := by
  obtain ⟨order, table, hperm, horder, hpublished⟩ :=
    SideProcess.published_of_done forwards_anomalyFilter hsends hreach hdone
  have hemit : ∀ b ∈ x.mains, (anomalyFilter key threshold queryId).emit client table b.1 b.2
      = some ⟨.q3ResultBatch, some client, b.1, b.2.filterMap (anomalyOf key threshold txs)⟩ :=
    fun b _ ↦ emit_anomalyFilter (htable order table hperm horder) b.1 b.2
  rw [List.map_congr_left hemit] at hpublished
  have hpayloads := hpublished.flatMap_right fun message ↦ message.elim [] Message.payload
  rw [List.flatMap_map, List.flatMap_map] at hpayloads
  exact hpayloads.trans (.of_eq List.filterMap_flatMap.symm)

/-- **Query 3 finds the payments that are small for their format.** However the transactions of both
periods are put into batches, the batches assigned to aggregators and filters, and the messages of
all stages delivered and redelivered: the stages flush, the table of a filter that is ready holds
the means of the formats that occur, and the filters that have done everything, which they can, have
together sent the payments below the multiple of a positive mean. -/
theorem anomalies_refine (hkey : ∀ s, key (key s) = key s)
    (hbatches : (batches.flatMap Prod.snd).Perm txs) (hids : (batches.map Prod.fst).Nodup)
    (hassign : ∀ b ∈ batches, assign b.1 < aggregators) (hreducers : 0 < reducers)
    (hshards : cfg.numShards = reducers)
    (hbatches' : (batches'.flatMap Prod.snd).Perm txs') (hids' : (batches'.map Prod.fst).Nodup)
    (hassign' : ∀ b ∈ batches', assign' b.1 < filters) :
    (∀ deliveries, Delivers aggregators (assigned assign batches) deliveries →
      ∃ output, Yields (paymentFormatAggregator hash key cfg) client aggregators
        deliveries output) ∧
    ∀ deliveries output, Delivers aggregators (assigned assign batches) deliveries →
      Yields (paymentFormatAggregator hash key cfg) client aggregators deliveries output →
      (∀ deliveries',
        Delivers reducers (fun r ↦ routed aggregators output (toString r)) deliveries' →
        ∃ output', Yields (paymentFormatReducer ℚ) client reducers deliveries' output') ∧
      ∀ deliveries' output',
        Delivers reducers (fun r ↦ routed aggregators output (toString r)) deliveries' →
        Yields (paymentFormatReducer ℚ) client reducers deliveries' output' →
        ∃ x : ℕ → SideInputs (anomalyFilter key threshold queryId),
          FilterInputs client assign' batches' (broadcast reducers output') x ∧
          (∀ j feed s, feed.Sends client (x j) → SideProcess.Reachable feed s →
            (∀ h, s.handling = some h → h.client ≠ client) →
            (s.store.mem client).tracker.isReady = true ∨ s.Drained client →
            ∀ k, (s.avgs client).get k = formatMean key txs k) ∧
          (∀ j feed, feed.Sends client (x j) →
            (∀ delivery ∈ SideProcess.deliveries (x j), feed client delivery) →
            ∃ s, SideProcess.Reachable feed s ∧ s.Done (x j) client ∧ s.Idle) ∧
          ∀ (feed : ℕ → SideFeed (anomalyFilter key threshold queryId))
            (s : ℕ → SideProcess (anomalyFilter key threshold queryId)),
            (∀ j < filters, (feed j).Sends client (x j) ∧ SideProcess.Reachable (feed j) (s j) ∧
              (s j).Done (x j) client) →
            ((List.range filters).flatMap fun j ↦
              ((s j).published client).flatMap fun p ↦ p.message.payload).Perm
              (txs'.filterMap (anomalyOf key threshold txs)) := by
  refine ⟨fun deliveries _ ↦ alwaysYields_totalsWorker _ _ client aggregators deliveries,
    fun _ output hdelivers hyields ↦ ⟨fun deliveries _ ↦
      alwaysYields_totalsWorker _ _ client reducers deliveries,
      fun _ output' hdelivers' hyields' ↦ ?_⟩⟩
  obtain ⟨parts, hflush, hparts⟩ := formatAggregators_flush hbatches hids hassign hdelivers hyields
  obtain ⟨totals, hbroadcast, haverages⟩ :=
    formatReducers_flush (hshards ▸ hflush) hparts hdelivers' hyields'
  obtain ⟨x, hx⟩ := exists_filterInputs key threshold queryId client assign' hids' reducers
    fun r ↦ averages (totals r)
  -- whatever the order in which the averages come, they add up to the same table
  have htable : ∀ j order table, order.Perm (x j).sides →
      (anomalyFilter key threshold queryId).tableOf order = some table →
      ∀ k, table.get k = formatMean key txs k := by
    intro j order table hperm
    rw [hx.sides] at hperm
    exact get_tableOf hkey (mem_flatMap_averages hreducers haverages hperm)
  refine ⟨x, hbroadcast ▸ hx, fun j feed s hsends hreach hidle hready ↦ ?_,
    fun j feed hsends hfeed ↦
      SideProcess.exists_done total_anomalyFilter forwards_anomalyFilter hsends hfeed,
    fun feed s hs ↦ ?_⟩
  · have hready := hready.elim id fun hdrained ↦
      SideProcess.isReady_of_drained forwards_anomalyFilter hsends hreach hdrained hidle
    obtain ⟨order, hperm, horder⟩ :=
      SideProcess.table_of_ready forwards_anomalyFilter hsends hreach hready hidle
    exact htable j order _ hperm horder
  · -- each replica answers its own share of the transactions
    have hshare : ∀ j ∈ List.range filters,
        (((s j).published client).flatMap fun p ↦ p.message.payload).Perm
          (((assigned assign' batches' j).flatMap Prod.snd).filterMap
            (anomalyOf key threshold txs)) := by
      intro j hj
      obtain ⟨hsends, hreach, hdone⟩ := hs j (List.mem_range.mp hj)
      exact hx.mains j ▸ flatMap_published hsends hreach hdone (htable j)
    refine (List.Perm.flatMap_left _ hshare).trans ?_
    rw [← List.filterMap_flatMap, ← List.flatMap_assoc]
    exact (((flatMap_assigned hassign').flatMap_right _).trans hbatches').filterMap _

end Refinement

/-- A payment in a payment format. -/
def formatPayment (account : String) (amount : ℚ) (paymentFormat : String) : Transaction ℚ where
  timestamp := none
  fromBank := some "1"
  fromAccount := some account
  toBank := none
  toAccount := none
  amount := some amount
  currency := none
  paymentFormat := some paymentFormat

/-- `strip().lower()` of the payment formats below. -/
def normalFormat (paymentFormat : String) : String :=
  if paymentFormat = " Wire" ∨ paymentFormat = "WIRE" then "wire" else paymentFormat

def twoFormatReducers : Config ℚ where
  minRequiredAccounts := 1
  outputNodeCount := 1
  outputNodePrefix := ""
  numShards := 2
  batchSize := 1
  amountThreshold := 0
  queryId := "3"

/-- Two spellings of a format, two aggregators, reducers and filters, and every message of the first
two stages delivered twice. -/
theorem anomalies_refine_wire :
    ∃ (output : ℕ → List (Message (PaymentFormatPartial ℚ)))
      (output' : ℕ → List (Message (PaymentFormatAverage ℚ)))
      (s : ℕ → SideProcess (anomalyFilter normalFormat (1 / 2) "3")),
      let batches := [("c:0", [formatPayment "a" 2 " Wire"]),
        ("c:1", [formatPayment "b" 4 "WIRE", formatPayment "b" 9 "cheque"])]
      let sent := assigned (fun mid ↦ if mid = "c:0" then 0 else 1) batches
      let sent' := fun r : ℕ ↦ routed 2 output (toString r)
      Yields (paymentFormatAggregator hashOf normalFormat twoFormatReducers) "c" 2
          (fun i ↦ sent i ++ sent i) output ∧
        Yields (paymentFormatReducer ℚ) "c" 2 (fun r ↦ sent' r ++ sent' r) output' ∧
        ((s 0).avgs "c").get "wire" = some 3 ∧ ((s 1).avgs "c").get "cheque" = some 9 ∧
        ((List.range 2).flatMap fun j ↦ ((s j).published "c").flatMap fun p ↦
          p.message.payload).Perm
          [⟨"1", "d", 1⟩] := by
  have hdouble : ∀ {α : Type} (f : ℕ → List α), Delivers 2 f fun i ↦ f i ++ f i := fun f i _ d ↦ by
    rw [List.mem_append, or_self]
  have hkey : ∀ format, normalFormat (normalFormat format) = normalFormat format := by
    intro format
    unfold normalFormat
    split <;> simp_all
  have hfound : [formatPayment "d" 1 "wire", formatPayment "d" 2 " Wire",
      formatPayment "d" 1 "cash"].filterMap (anomalyOf normalFormat (1 / 2)
        [formatPayment "a" 2 " Wire", formatPayment "b" 4 "WIRE", formatPayment "b" 9 "cheque"])
      = [⟨"1", "d", 1⟩] := by decide +kernel
  obtain ⟨hyields, hrest⟩ := @anomalies_refine normalFormat hashOf twoFormatReducers (1 / 2)
    "3" "c" _ _ [("c:0", [formatPayment "a" 2 " Wire"]),
      ("c:1", [formatPayment "b" 4 "WIRE", formatPayment "b" 9 "cheque"])]
    [("c:2", [formatPayment "d" 1 "wire", formatPayment "d" 2 " Wire"]),
      ("c:3", [formatPayment "d" 1 "cash"])]
    (fun mid ↦ if mid = "c:0" then 0 else 1) (fun mid ↦ if mid = "c:2" then 0 else 1) 2 2 2
    hkey (List.Perm.refl _) (by decide) (by decide) (by decide) rfl (List.Perm.refl _) (by decide)
    (by decide)
  obtain ⟨output, houtput⟩ := hyields _ (hdouble _)
  obtain ⟨hyields', hfilters⟩ := hrest _ output (hdouble _) houtput
  obtain ⟨output', houtput'⟩ := hyields' _ (hdouble _)
  obtain ⟨x, -, htable, hdone, hresults⟩ := hfilters _ output' (hdouble _) houtput'
  choose s hreach hs hidle using fun j ↦
    hdone j _ (SideProcess.sends_deliveries (x j) "c") fun _ hmem ↦ hmem
  have hmean : ∀ j k, ((s j).avgs "c").get k = formatMean normalFormat _ k := fun j ↦
    htable j _ (s j) (SideProcess.sends_deliveries (x j) "c") (hreach j)
      (fun h hh ↦ absurd ((hidle j).handling.symm.trans hh).symm (Option.some_ne_none h))
      (Or.inr (hs j).drained)
  refine ⟨output, output', s, houtput, houtput', (hmean 0 "wire").trans ?_,
    (hmean 1 "cheque").trans ?_, (hresults _ s fun j _ ↦
      ⟨SideProcess.sends_deliveries (x j) "c", hreach j, hs j⟩).trans (.of_eq hfound)⟩
  · decide +kernel
  · decide +kernel

end MoneyLaundering
