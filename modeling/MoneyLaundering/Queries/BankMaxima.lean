import MoneyLaundering.Collections.Maxima
import MoneyLaundering.Worker.Replicas
import MoneyLaundering.Workers.BankMax

/-!
# The maxima of query 2

Query 2 takes maxima at four places: over a batch, over what an aggregator has seen, over a batch of
partial maxima and over what a reducer has seen. Each of them is a supremum in the order of `rank`,
by amount and then by the smaller account, so that all four together are the supremum over the
transactions, however these are distributed: `bank_maxima_refine`.
-/

namespace MoneyLaundering

open Maxima StatefulWorker

variable {A : Type}

/-! ## The order -/

/-- How high a payment ranks in its bank. -/
def rank (amount : A) (account : String) : A ×ₗ Stringᵒᵈ := toLex (amount, OrderDual.toDual account)

def entryRank (entry : String × A) : A ×ₗ Stringᵒᵈ := rank entry.2 entry.1

def BankMaxPartial.rank (bankMax : BankMaxPartial A) : A ×ₗ Stringᵒᵈ :=
  MoneyLaundering.rank bankMax.amount bankMax.fromAccount

theorem rank_inj {amount amount' : A} {account account' : String} :
    rank amount account = rank amount' account' ↔ amount = amount' ∧ account = account' := by
  rw [rank, rank, toLex_inj, Prod.mk.injEq, OrderDual.toDual_inj]

variable [LinearOrder A]

theorem rank_lt_iff {amount amount' : A} {account account' : String} :
    rank amount account < rank amount' account'
      ↔ amount < amount' ∨ amount = amount' ∧ account' < account := by
  rw [rank, rank, Prod.Lex.toLex_lt_toLex]
  rfl

theorem beats_eq_true_iff {amount curAmount : A} {account curAccount : String} :
    beats amount account curAmount curAccount = true
      ↔ rank curAmount curAccount < rank amount account := by
  rw [rank_lt_iff, beats, Bool.or_eq_true, Bool.and_eq_true, decide_eq_true_iff, decide_eq_true_iff,
    decide_eq_true_iff, eq_comm]

/-! ## The workers take suprema -/

theorem BatchMax.offer_eq_keep (delta : BatchMax A) (bank account : String) (amount : A) :
    delta.offer bank account amount = keep entryRank delta bank (account, amount) := by
  rw [BatchMax.offer, keep]
  cases delta.get bank with
  | none => rfl
  | some current => exact if_congr beats_eq_true_iff rfl rfl

namespace FlowMax

/-- The best rank of each bank. -/
def best (s : FlowMax A) : String → WithBot (A ×ₗ Stringᵒᵈ) := readout BankMaxPartial.rank s.banks

omit [LinearOrder A] in
@[simp] theorem best_empty : (empty : FlowMax A).best = ⊥ := rfl

theorem banks_offer (s : FlowMax A) (p : String × String × A) :
    (s.offer p).banks = keep BankMaxPartial.rank s.banks p.1 ⟨p.1, p.2.1, p.2.2⟩ := by
  rw [offer, keep]
  cases s.banks.get p.1 with
  | none => rfl
  | some current =>
    have hbeats : beats p.2.2 p.2.1 current.amount current.fromAccount = true
        ↔ current.rank < rank p.2.2 p.2.1 := beats_eq_true_iff
    by_cases h : beats p.2.2 p.2.1 current.amount current.fromAccount = true
    · simp only [if_pos h]
      exact (if_pos (hbeats.mp h)).symm
    · simp only [if_neg h]
      exact (if_neg (mt hbeats.mpr h)).symm

/-- Applying a delta takes the supremum with it. -/
theorem best_applyDelta (delta : BatchMax A) (s : FlowMax A) :
    (applyDelta delta s).best = s.best ⊔ readout entryRank delta := by
  have hbanks : ∀ (l : List (String × String × A)) (s : FlowMax A), (l.foldl offer s).banks
      = l.foldl (fun d p ↦ keep BankMaxPartial.rank d p.1 ⟨p.1, p.2.1, p.2.2⟩) s.banks := by
    intro l
    induction l with
    | nil => exact fun _ ↦ rfl
    | cons p l ih =>
      intro s
      rw [List.foldl_cons, List.foldl_cons, ih, banks_offer]
  rw [best, applyDelta, hbanks, readout_foldl_keep, ← maxima_items entryRank delta]
  rfl

/-- The partial maxima that a flush sends have the maxima of the state. -/
theorem maxima_values (s : FlowMax A) :
    maxima (s.banks.values.map fun p ↦ (p.fromBank, p.rank)) = s.best := by
  rw [best, ← maxima_items, Dict.values, List.map_map]
  refine congrArg maxima (List.map_congr_left fun p hp ↦ ?_)
  rw [Function.comp_apply, s.key_eq p hp]

omit [LinearOrder A] in
theorem mem_values_iff {s : FlowMax A} {p : BankMaxPartial A} :
    p ∈ s.banks.values ↔ s.best p.fromBank = p.rank := by
  have hget : ∀ current : BankMaxPartial A, s.banks.get p.fromBank = some current →
      current.fromBank = p.fromBank := fun current h ↦ s.key_eq _ (Dict.get_eq_some.mp h)
  rw [Dict.values, List.mem_map]
  constructor
  · rintro ⟨⟨bank, p⟩, hp, rfl⟩
    obtain rfl : p.fromBank = bank := s.key_eq _ hp
    rw [best, readout, Dict.get_eq_some.mpr hp]
    rfl
  · intro h
    rw [best, readout] at h
    cases hcurrent : s.banks.get p.fromBank with
    | none =>
      rw [hcurrent] at h
      exact absurd h.symm WithBot.coe_ne_bot
    | some current =>
      rw [hcurrent] at h
      obtain ⟨hamount, haccount⟩ := rank_inj.mp (WithBot.coe_inj.mp h)
      have hbank := hget current hcurrent
      refine ⟨(p.fromBank, current), Dict.get_eq_some.mp hcurrent, ?_⟩
      cases current
      cases p
      subst hamount haccount hbank
      rfl

omit [LinearOrder A] in
theorem nodup_fromBank (s : FlowMax A) : (s.banks.values.map BankMaxPartial.fromBank).Nodup := by
  have hkeys : s.banks.values.map BankMaxPartial.fromBank = s.banks.items.map Prod.fst := by
    rw [Dict.values, List.map_map]
    exact List.map_congr_left fun p hp ↦ s.key_eq p hp
  rw [hkeys]
  exact s.banks.nodup

end FlowMax

/-! ## What a transaction offers -/

/-- The transaction pays `amount` from an account of the bank with this normalised id. -/
def Transaction.Pays (tx : Transaction A) (bank account : String) (amount : A) : Prop :=
  tx.amount = some amount ∧ tx.fromAccount = some account ∧
    ∃ text, tx.fromBank = some text ∧ (PythonInt.pyInt text).map toString = some bank

/-- What the transaction offers to its bank. -/
def Transaction.offered (tx : Transaction A) : List (String × A ×ₗ Stringᵒᵈ) :=
  match tx.amount, tx.fromBank, tx.fromAccount with
  | some amount, some fromBank, some fromAccount =>
    ((PythonInt.pyInt fromBank).map fun z ↦ (toString z, rank amount fromAccount)).toList
  | _, _, _ => []

omit [LinearOrder A] in
theorem Transaction.Pays.offered_eq {tx : Transaction A} {bank account : String} {amount : A}
    (h : tx.Pays bank account amount) : tx.offered = [(bank, rank amount account)] := by
  obtain ⟨hamount, haccount, text, htext, hbank⟩ := h
  obtain ⟨z, hz, rfl⟩ := Option.map_eq_some_iff.mp hbank
  rw [offered, hamount, haccount, htext]
  simp only [hz, Option.map_some, Option.toList_some]

omit [LinearOrder A] in
theorem Transaction.mem_offered_iff {tx : Transaction A} {bank account : String} {amount : A} :
    (bank, rank amount account) ∈ tx.offered ↔ tx.Pays bank account amount := by
  refine ⟨fun h ↦ ?_, fun h ↦ h.offered_eq ▸ List.mem_singleton_self _⟩
  unfold offered at h
  split at h
  · next amount' text account' hamount htext haccount =>
    rw [Option.mem_toList, Option.map_eq_some_iff] at h
    obtain ⟨z, hz, heq⟩ := h
    obtain ⟨rfl, hrank⟩ := Prod.mk.inj heq
    obtain ⟨rfl, rfl⟩ := rank_inj.mp hrank
    exact ⟨hamount, haccount, text, htext, by rw [hz, Option.map_some]⟩
  · exact absurd h List.not_mem_nil

/-- The payment is the best of its bank: no payment of the bank is larger, and none that is as large
comes from a smaller account. -/
def IsBest (txs : List (Transaction A)) (p : BankMaxPartial A) : Prop :=
  (∃ tx ∈ txs, tx.Pays p.fromBank p.fromAccount p.amount) ∧
    ∀ tx ∈ txs, ∀ account amount, tx.Pays p.fromBank account amount →
      amount < p.amount ∨ amount = p.amount ∧ p.fromAccount ≤ account

/-- The best payments are the maxima of what is offered. -/
theorem isBest_iff {txs : List (Transaction A)} {p : BankMaxPartial A} :
    IsBest txs p ↔ maxima (txs.flatMap Transaction.offered) p.fromBank = p.rank := by
  have hrank : ∀ {account : String} {amount : A}, rank amount account ≤ p.rank
      ↔ amount < p.amount ∨ amount = p.amount ∧ p.fromAccount ≤ account := by
    intro account amount
    rw [BankMaxPartial.rank, rank, rank, Prod.Lex.toLex_le_toLex]
    rfl
  rw [maxima_eq_coe_iff, IsBest]
  refine and_congr ?_ ⟨fun h ↦ ?_, fun h tx htx account amount hpays ↦ ?_⟩
  · rw [List.mem_flatMap]
    exact exists_congr fun tx ↦ and_congr_right fun _ ↦ Transaction.mem_offered_iff.symm
  · rintro ⟨bank, r⟩ hmem rfl
    obtain ⟨tx, htx, hr⟩ := List.mem_flatMap.mp hmem
    exact hrank.mpr (h tx htx _ _ (Transaction.mem_offered_iff.mp hr))
  · refine hrank.mp (h (p.fromBank, rank amount account) ?_ rfl)
    exact List.mem_flatMap.mpr ⟨tx, htx, Transaction.mem_offered_iff.mpr hpays⟩

/-! ## The two stages -/

/-- Going through transactions that all pay something, and keeping what each of them pays, takes the
maxima of what they offer. -/
theorem exists_foldlM_keep {W : Type} (value : W → A ×ₗ Stringᵒᵈ) (entry : String → A → W)
    (step : Dict String W → Transaction A → Option (Dict String W)) {txs : List (Transaction A)}
    (hvalue : ∀ account amount, value (entry account amount) = rank amount account)
    (hstep : ∀ d tx bank account amount, tx.Pays bank account amount →
      step d tx = some (keep value d bank (entry account amount)))
    (h : ∀ tx ∈ txs, ∃ bank account amount, tx.Pays bank account amount) (d : Dict String W) :
    ∃ d', txs.foldlM step d = some d' ∧
      readout value d' = readout value d ⊔ maxima (txs.flatMap Transaction.offered) := by
  induction txs generalizing d with
  | nil => exact ⟨d, rfl, (sup_bot_eq _).symm⟩
  | cons tx txs ih =>
    obtain ⟨bank, account, amount, hpays⟩ := h tx List.mem_cons_self
    obtain ⟨d', hd', hread⟩ := ih (fun tx htx ↦ h tx (List.mem_cons_of_mem _ htx))
      (keep value d bank (entry account amount))
    refine ⟨d', by rw [List.foldlM_cons, hstep d tx bank account amount hpays]; exact hd', ?_⟩
    rw [hread, readout_keep, hvalue, List.flatMap_cons, hpays.offered_eq,
      maxima_append, maxima_cons,
      maxima_nil, sup_bot_eq, sup_assoc]

/-- A batch whose transactions all have the fields the aggregators read is turned into its
maxima. -/
theorem exists_aggregated {batch : List (Transaction A)}
    (h : ∀ tx ∈ batch, ∃ bank account amount, tx.Pays bank account amount) :
    ∃ delta, batch.foldlM aggregateTransaction Dict.empty = some delta ∧
      readout entryRank delta = maxima (batch.flatMap Transaction.offered) := by
  have hkeep := exists_foldlM_keep entryRank (fun account amount ↦ (account, amount))
    aggregateTransaction (fun _ _ ↦ rfl) ?_ h Dict.empty
  · rwa [readout_empty, bot_sup_eq] at hkeep
  · rintro delta tx bank account amount ⟨hamount, haccount, text, htext, hbank⟩
    obtain ⟨z, hz, rfl⟩ := Option.map_eq_some_iff.mp hbank
    simp only [aggregateTransaction, hamount, haccount, htext, hz, Option.map_some]
    exact congrArg some (BatchMax.offer_eq_keep delta _ _ _)

/-- The delta of a batch of transactions. -/
def aggregatedBatch (batch : List (Transaction A)) : BatchMax A :=
  (batch.foldlM aggregateTransaction Dict.empty).getD Dict.empty

theorem aggregatedBatch_spec {batch : List (Transaction A)}
    (h : ∀ tx ∈ batch, ∃ bank account amount, tx.Pays bank account amount) :
    batch.foldlM aggregateTransaction Dict.empty = some (aggregatedBatch batch) ∧
      readout entryRank (aggregatedBatch batch) = maxima (batch.flatMap Transaction.offered) := by
  obtain ⟨delta, hdelta, hread⟩ := exists_aggregated h
  have hbatch : aggregatedBatch batch = delta := by rw [aggregatedBatch, hdelta, Option.getD_some]
  exact ⟨hbatch ▸ hdelta, hbatch ▸ hread⟩

/-- The delta of a batch of partial maxima. -/
def reducedBatch (batch : List (BankMaxPartial A)) : BatchMax A :=
  batch.foldl (fun delta bankMax ↦ delta.offer bankMax.fromBank bankMax.fromAccount bankMax.amount)
    Dict.empty

theorem readout_reducedBatch (batch : List (BankMaxPartial A)) :
    readout entryRank (reducedBatch batch) = maxima (batch.map fun p ↦ (p.fromBank, p.rank)) := by
  have h := readout_foldl_keep entryRank BankMaxPartial.fromBank
    (fun p : BankMaxPartial A ↦ (p.fromAccount, p.amount)) batch Dict.empty
  rw [readout_empty, bot_sup_eq] at h
  simp only [reducedBatch, BatchMax.offer_eq_keep]
  exact h

/-- What a replica holds after some messages has the maxima of all of them. -/
theorem best_foldl {P : Type} {delta : P → BatchMax A} {items : P → List (String × A ×ₗ Stringᵒᵈ)}
    {order : List (MessageId × P)}
    (h : ∀ d ∈ order, readout entryRank (delta d.2) = maxima (items d.2)) :
    (order.foldl (fun s d ↦ FlowMax.applyDelta (delta d.2) s) FlowMax.empty).best
      = maxima (order.flatMap fun d ↦ items d.2) := by
  suffices hfold : ∀ s : FlowMax A,
      (order.foldl (fun s d ↦ FlowMax.applyDelta (delta d.2) s) s).best
        = s.best ⊔ maxima (order.flatMap fun d ↦ items d.2) by
    rw [hfold, FlowMax.best_empty, bot_sup_eq]
  induction order with
  | nil => exact fun s ↦ (sup_bot_eq _).symm
  | cons d order ih =>
    intro s
    rw [List.foldl_cons, ih fun d' hd' ↦ h d' (List.mem_cons_of_mem _ hd'),
      FlowMax.best_applyDelta, h d List.mem_cons_self, List.flatMap_cons, maxima_append, sup_assoc]

theorem turns_bankMaxWorker {P : Type} {hash : String → ℕ} {batchMax : P → Option (BatchMax A)}
    {numShards batchSize : ℕ} {mid : MessageId} {payload : P} {delta : BatchMax A}
    (h : batchMax payload = some delta) :
    (bankMaxWorker hash P batchMax numShards batchSize).Turns (mid, payload) delta [] :=
  fun _ ↦ congrArg (Option.map _) h

/-- **What a stage of maxima flushes.** When every batch has the maxima of what it offers, each
replica holds the maxima of what it was sent. -/
theorem exists_states {P : Type} {hash : String → ℕ} {batchMax : P → Option (BatchMax A)}
    {numShards batchSize n : ℕ} {client : ClientId} {delta : P → BatchMax A}
    {offers : P → List (String × A ×ₗ Stringᵒᵈ)} {sent deliveries : ℕ → List (MessageId × P)}
    {output : ℕ → List (Message (BankMaxPartial A))}
    (hbatch : ∀ i < n, ∀ d ∈ sent i, batchMax d.2 = some (delta d.2) ∧
      readout entryRank (delta d.2) = maxima (offers d.2))
    (hids : ∀ i < n, ((sent i).map Prod.fst).Nodup) (hdelivers : Delivers n sent deliveries)
    (hyields : Yields (bankMaxWorker hash P batchMax numShards batchSize) client n
      deliveries output) :
    ∃ states : ℕ → FlowMax A,
      FlushesItems hash .bankMaxPartialBatch client BankMaxPartial.fromBank n numShards batchSize
        toString (fun i ↦ (states i).banks.values) output ∧
      ∀ i < n, (states i).best = maxima ((sent i).flatMap fun d ↦ offers d.2) := by
  have hbest : ∀ i < n, ∀ order : List (MessageId × P), order.Perm (sent i) →
      (order.foldl (fun s d ↦ FlowMax.applyDelta (delta d.2) s) FlowMax.empty).best
        = maxima ((sent i).flatMap fun d ↦ offers d.2) := by
    intro i hi order hperm
    rw [best_foldl fun d hd ↦ (hbatch i hi d (hperm.mem_iff.mp hd)).2]
    exact maxima_congr fun p ↦ (hperm.flatMap_right _).mem_iff
  obtain ⟨states, hstates⟩ := hyields.exists_states delta
    (fun i (s : FlowMax A) ↦ s.best = maxima ((sent i).flatMap fun d ↦ offers d.2))
    (fun i hi d hd ↦ turns_bankMaxWorker (hbatch i hi d hd).1) hids hdelivers hbest
  exact ⟨states, fun i hi ↦ (hstates i hi).2, fun i hi ↦ (hstates i hi).1⟩

/-! ## The reference -/

/-- One transaction in the loop of `_build_query_2`; nothing when it raises. -/
def referenceStep (maxTransactions : Dict String (A × String)) (tx : Transaction A) :
    Option (Dict String (A × String)) :=
  match tx.fromBank, tx.amount, tx.fromAccount with
  | some fromBank, some amountPaid, some fromAccount =>
    (PythonInt.pyInt fromBank).map fun z ↦
      let bankId := toString z
      match maxTransactions.get bankId with
      | none => maxTransactions.set bankId (amountPaid, fromAccount)
      | some current =>
        if current.1 < amountPaid ∨ fromAccount < current.2 ∧ amountPaid = current.1 then
          maxTransactions.set bankId (amountPaid, fromAccount)
        else maxTransactions
  | _, _, _ => none

/-- `_build_query_2`, up to the names: the amount and the account of the best payment of each
normalised bank id. -/
def buildQuery2 (txs : List (Transaction A)) : Option (Dict String (A × String)) :=
  txs.foldlM referenceStep Dict.empty

/-- The reference takes the same suprema. -/
theorem exists_buildQuery2 {txs : List (Transaction A)}
    (h : ∀ tx ∈ txs, ∃ bank account amount, tx.Pays bank account amount) :
    ∃ maxTransactions, buildQuery2 txs = some maxTransactions ∧
      readout (fun p : A × String ↦ rank p.1 p.2) maxTransactions
        = maxima (txs.flatMap Transaction.offered) := by
  have hkeep := exists_foldlM_keep (fun p : A × String ↦ rank p.1 p.2)
    (fun account amount ↦ (amount, account)) referenceStep (fun _ _ ↦ rfl) ?_ h Dict.empty
  · rwa [readout_empty, bot_sup_eq] at hkeep
  · rintro maxTransactions tx bank account amount ⟨hamount, haccount, text, htext, hbank⟩
    obtain ⟨z, hz, rfl⟩ := Option.map_eq_some_iff.mp hbank
    simp only [referenceStep, hamount, haccount, htext, hz, Option.map_some, keep, rank_lt_iff]
    cases maxTransactions.get (toString z) with
    | none => rfl
    | some current =>
      simp only [and_comm, eq_comm]

/-! ## The refinement -/

section Refinement

variable {hash : String → ℕ} {cfg cfg' : Config A} {client : ClientId} {txs : List (Transaction A)}
  {batches : List (MessageId × List (Transaction A))} {assign : MessageId → ℕ}
  {aggregators reducers : ℕ}

omit [LinearOrder A] in
/-- When each replica holds the maxima of its own shard, the replicas together hold each maximum
once. -/
theorem sharded_maxima {f : String → WithBot (A ×ₗ Stringᵒᵈ)} {states : ℕ → FlowMax A} {n : ℕ}
    (hn : 0 < n)
    (hbest : ∀ r < n, ∀ k, (states r).best k = if shardOf hash k n = r then f k else ⊥) :
    (((List.range n).flatMap fun r ↦ (states r).banks.values).map BankMaxPartial.fromBank).Nodup ∧
      ∀ p, p ∈ (List.range n).flatMap (fun r ↦ (states r).banks.values)
        ↔ f p.fromBank = p.rank := by
  have hshard : ∀ r < n, ∀ p ∈ (states r).banks.values, shardOf hash p.fromBank n = r := by
    intro r hr p hp
    by_contra hne
    have h := FlowMax.mem_values_iff.mp hp
    rw [hbest r hr, if_neg hne] at h
    exact WithBot.bot_ne_coe h
  constructor
  · rw [List.map_flatMap, List.nodup_flatMap]
    refine ⟨fun r _ ↦ (states r).nodup_fromBank, ?_⟩
    refine List.nodup_range.imp_of_mem fun {r r'} hr hr' hne ↦ ?_
    rw [Function.onFun, List.disjoint_left]
    intro bank h h'
    obtain ⟨p, hp, rfl⟩ := List.mem_map.mp h
    obtain ⟨p', hp', hbank⟩ := List.mem_map.mp h'
    have hr'' := hshard r' (List.mem_range.mp hr') p' hp'
    rw [hbank, hshard r (List.mem_range.mp hr) p hp] at hr''
    exact hne hr''
  · intro p
    rw [List.mem_flatMap]
    constructor
    · rintro ⟨r, hr, hp⟩
      have hr' := List.mem_range.mp hr
      rw [← FlowMax.mem_values_iff.mp hp, hbest r hr', if_pos (hshard r hr' p hp)]
    · intro h
      have hr : shardOf hash p.fromBank n < n := Nat.mod_lt _ hn
      refine ⟨_, List.mem_range.mpr hr, FlowMax.mem_values_iff.mpr ?_⟩
      rw [hbest _ hr, if_pos rfl, h]

omit [LinearOrder A] in
/-- The entries of the reference are the best payments. -/
theorem reference_items {maxTransactions : Dict String (A × String)}
    {f : String → WithBot (A ×ₗ Stringᵒᵈ)}
    (h : readout (fun p : A × String ↦ rank p.1 p.2) maxTransactions = f) :
    ((maxTransactions.items.map fun p ↦ (⟨p.1, p.2.2, p.2.1⟩ : BankMaxPartial A)).map
      BankMaxPartial.fromBank).Nodup ∧
      ∀ p, p ∈ maxTransactions.items.map (fun p ↦ (⟨p.1, p.2.2, p.2.1⟩ : BankMaxPartial A))
        ↔ f p.fromBank = p.rank := by
  subst h
  refine ⟨by rw [List.map_map]; exact maxTransactions.nodup, fun p ↦ ?_⟩
  have hget : readout (fun p : A × String ↦ rank p.1 p.2) maxTransactions p.fromBank = p.rank
      ↔ maxTransactions.get p.fromBank = some (p.amount, p.fromAccount) := by
    rw [readout]
    cases maxTransactions.get p.fromBank with
    | none =>
      exact ⟨fun h ↦ absurd h WithBot.bot_ne_coe, fun h ↦ absurd h.symm (Option.some_ne_none _)⟩
    | some entry =>
      refine (WithBot.coe_inj.trans rank_inj).trans ?_
      rw [Option.some_inj, Prod.ext_iff]
  rw [hget, Dict.get_eq_some, List.mem_map]
  constructor
  · rintro ⟨⟨bank, amount, account⟩, hmem, rfl⟩
    exact hmem
  · exact fun hmem ↦ ⟨_, hmem, rfl⟩

/-- The partial maxima of the aggregators have the maxima of the transactions. -/
theorem maxima_parts {states : ℕ → FlowMax A} (hbatches : (batches.flatMap Prod.snd).Perm txs)
    (hassign : ∀ b ∈ batches, assign b.1 < aggregators)
    (hbest : ∀ i < aggregators, (states i).best
      = maxima ((assigned assign batches i).flatMap fun d ↦ d.2.flatMap Transaction.offered)) :
    maxima (((List.range aggregators).flatMap fun i ↦ (states i).banks.values).map
      fun p ↦ (p.fromBank, p.rank)) = maxima (txs.flatMap Transaction.offered) := by
  have hparts : (List.range aggregators).map (fun i ↦ maxima ((states i).banks.values.map
      fun p ↦ (p.fromBank, p.rank)))
      = (List.range aggregators).map fun i ↦
        maxima ((assigned assign batches i).flatMap fun d ↦ d.2.flatMap Transaction.offered) :=
    List.map_congr_left fun i hi ↦
      (states i).maxima_values.trans (hbest i (List.mem_range.mp hi))
  rw [List.map_flatMap, maxima_flatMap, hparts, ← maxima_flatMap]
  refine maxima_congr fun p ↦ ?_
  rw [← List.flatMap_assoc, ((flatMap_assigned hassign).flatMap_right _).mem_iff,
    ← List.flatMap_assoc, (hbatches.flatMap_right _).mem_iff]

/-- What a reducer is sent has the maxima of its shard. -/
theorem maxima_routed {parts : ℕ → List (BankMaxPartial A)} {batchSize : ℕ}
    {output : ℕ → List (Message (BankMaxPartial A))}
    (hflush : FlushesItems hash .bankMaxPartialBatch client BankMaxPartial.fromBank
      aggregators reducers
      batchSize toString parts output) (r : ℕ) (bank : String) :
    maxima ((routed aggregators output (toString r)).flatMap fun d ↦
        d.2.map fun p ↦ (p.fromBank, p.rank)) bank
      = if shardOf hash bank reducers = r then
          maxima (((List.range aggregators).flatMap parts).map fun p ↦ (p.fromBank, p.rank)) bank
        else ⊥ := by
  have hrouted := flatMap_routed (fun _ _ h ↦ natToString_injective h) hflush r
  rw [← maxima_filter fun k ↦ shardOf hash k reducers = r]
  refine congrFun (maxima_congr fun p ↦ ?_) bank
  rw [List.filter_map, ← List.map_flatMap]
  exact (hrouted.map _).mem_iff

/-- The aggregators flush, and what they flush has the maxima of the transactions. -/
theorem aggregators_flush
    (hvalid : ∀ tx ∈ txs, ∃ bank account amount, tx.Pays bank account amount)
    (hbatches : (batches.flatMap Prod.snd).Perm txs) (hids : (batches.map Prod.fst).Nodup)
    (hassign : ∀ b ∈ batches, assign b.1 < aggregators)
    {deliveries : ℕ → List (MessageId × List (Transaction A))}
    (hdelivers : Delivers aggregators (assigned assign batches) deliveries) :
    (∃ output, Yields (bankMaxAggregator hash cfg) client aggregators deliveries output) ∧
      ∀ output, Yields (bankMaxAggregator hash cfg) client aggregators deliveries output →
        ∃ parts : ℕ → List (BankMaxPartial A),
          FlushesItems hash .bankMaxPartialBatch client BankMaxPartial.fromBank aggregators
            cfg.numShards cfg.batchSize toString parts output ∧
          maxima (((List.range aggregators).flatMap parts).map fun p ↦ (p.fromBank, p.rank))
            = maxima (txs.flatMap Transaction.offered) := by
  have hids' : ∀ i < aggregators, ((assigned assign batches i).map Prod.fst).Nodup :=
    fun i _ ↦ nodup_assigned hids i
  have haggregated : ∀ i < aggregators, ∀ d ∈ assigned assign batches i,
      d.2.foldlM aggregateTransaction Dict.empty = some (aggregatedBatch d.2) ∧
        readout entryRank (aggregatedBatch d.2) = maxima (d.2.flatMap Transaction.offered) :=
    fun i _ d hd ↦ aggregatedBatch_spec fun tx htx ↦
      hvalid tx (hbatches.mem_iff.mp (List.mem_flatMap.mpr ⟨d, (List.mem_filter.mp hd).1, htx⟩))
  constructor
  · exact exists_yields aggregatedBatch (fun _ ↦ [])
      (fun i hi d hd ↦ turns_bankMaxWorker (haggregated i hi d hd).1) hids' hdelivers
  · intro output hyields
    obtain ⟨states, hflush, hbest⟩ := exists_states haggregated hids' hdelivers hyields
    exact ⟨_, hflush, maxima_parts hbatches hassign hbest⟩

/-- The reducers flush, and together they flush the best payments, each once. -/
theorem reducers_flush (hreducers : 0 < reducers) {parts : ℕ → List (BankMaxPartial A)}
    {batchSize : ℕ} {output : ℕ → List (Message (BankMaxPartial A))}
    (hflush : FlushesItems hash .bankMaxPartialBatch client BankMaxPartial.fromBank
      aggregators reducers
      batchSize toString parts output)
    (hparts : maxima (((List.range aggregators).flatMap parts).map fun p ↦ (p.fromBank, p.rank))
      = maxima (txs.flatMap Transaction.offered))
    {deliveries : ℕ → List (MessageId × List (BankMaxPartial A))}
    (hdelivers : Delivers reducers (fun r ↦ routed aggregators output (toString r)) deliveries) :
    (∃ output', Yields (bankMaxReducer hash cfg') client reducers deliveries output') ∧
      ∀ output', Yields (bankMaxReducer hash cfg') client reducers deliveries output' →
        ∃ items : ℕ → List (BankMaxPartial A),
          FlushesItems hash .bankMaxPartialBatch client BankMaxPartial.fromBank reducers
            cfg'.outputNodeCount cfg'.batchSize toString items output' ∧
          (((List.range reducers).flatMap items).map BankMaxPartial.fromBank).Nodup ∧
          ∀ p, p ∈ (List.range reducers).flatMap items ↔ IsBest txs p := by
  have hids := fun r (_ : r < reducers) ↦
    nodup_routed (fun _ _ h ↦ natToString_injective h) hflush (toString r)
  have hreduced : ∀ r < reducers, ∀ d ∈ routed aggregators output (toString r),
      some (reducedBatch d.2) = some (reducedBatch d.2) ∧ readout entryRank (reducedBatch d.2)
        = maxima (d.2.map fun p ↦ (p.fromBank, p.rank)) :=
    fun _ _ d _ ↦ ⟨rfl, readout_reducedBatch d.2⟩
  constructor
  · exact exists_yields reducedBatch (fun _ ↦ [])
      (fun r hr d hd ↦ turns_bankMaxWorker (hreduced r hr d hd).1) hids hdelivers
  · intro output' hyields
    obtain ⟨states, hflush', hbest⟩ := exists_states hreduced hids hdelivers hyields
    have hshard : ∀ r < reducers, ∀ k, (states r).best k = if shardOf hash k reducers = r then
        maxima (txs.flatMap Transaction.offered) k else ⊥ := by
      intro r hr k
      rw [hbest r hr, ← hparts]
      exact maxima_routed hflush r k
    obtain ⟨hnodup, hmem⟩ := sharded_maxima hreducers hshard
    exact ⟨_, hflush', hnodup, fun p ↦ (hmem p).trans isBest_iff.symm⟩

/-- **Query 2 reports the best payment of each bank.** However the transactions are put into
batches, the batches assigned to aggregators, and the messages of either stage delivered and
redelivered, the stages flush, and the reducers together send one maximum for each bank id: that of
the reference. -/
theorem bank_maxima_refine
    (hvalid : ∀ tx ∈ txs, ∃ bank account amount, tx.Pays bank account amount)
    (hbatches : (batches.flatMap Prod.snd).Perm txs) (hids : (batches.map Prod.fst).Nodup)
    (hassign : ∀ b ∈ batches, assign b.1 < aggregators) (hreducers : 0 < reducers)
    (hshards : cfg.numShards = reducers) :
    (∀ deliveries, Delivers aggregators (assigned assign batches) deliveries →
      ∃ output, Yields (bankMaxAggregator hash cfg) client aggregators deliveries output) ∧
    ∀ deliveries output, Delivers aggregators (assigned assign batches) deliveries →
      Yields (bankMaxAggregator hash cfg) client aggregators deliveries output →
      (∀ deliveries',
        Delivers reducers (fun r ↦ routed aggregators output (toString r)) deliveries' →
        ∃ output', Yields (bankMaxReducer hash cfg') client reducers deliveries' output') ∧
      ∀ deliveries' output',
        Delivers reducers (fun r ↦ routed aggregators output (toString r)) deliveries' →
        Yields (bankMaxReducer hash cfg') client reducers deliveries' output' →
        ∃ flushed, (List.range reducers).flatMap (fun r ↦ (output' r).flatMap Message.payload)
            = flushed ∧
          (flushed.map BankMaxPartial.fromBank).Nodup ∧ (∀ p, p ∈ flushed ↔ IsBest txs p) ∧
          ∃ maxTransactions, buildQuery2 txs = some maxTransactions ∧
            flushed.Perm (maxTransactions.items.map fun p ↦ ⟨p.1, p.2.2, p.2.1⟩) := by
  refine ⟨fun _ hdelivers ↦ (aggregators_flush hvalid hbatches hids hassign hdelivers).1,
    fun _ output hdelivers hyields ↦ ?_⟩
  obtain ⟨parts, hflush, hparts⟩ :=
    (aggregators_flush hvalid hbatches hids hassign hdelivers).2 output hyields
  refine ⟨fun _ hdelivers' ↦ (reducers_flush hreducers (hshards ▸ hflush) hparts hdelivers').1,
    fun _ output' hdelivers' hyields' ↦ ?_⟩
  obtain ⟨items, hflush', hnodup, hmem⟩ :=
    (reducers_flush hreducers (hshards ▸ hflush) hparts hdelivers').2 output' hyields'
  obtain ⟨maxTransactions, hreference, hread⟩ := exists_buildQuery2 hvalid
  obtain ⟨hnodup', hmem'⟩ := reference_items hread
  have hflushed := flatMap_payload_routed hflush'
  refine ⟨_, rfl, (hflushed.map _).nodup_iff.mpr hnodup,
    fun p ↦ hflushed.mem_iff.trans (hmem p), maxTransactions, hreference, hflushed.trans ?_⟩
  exact (List.perm_ext_iff_of_nodup (hnodup.of_map _) (hnodup'.of_map _)).mpr fun p ↦
    ((hmem p).trans isBest_iff).trans (hmem' p).symm

end Refinement

/-- A payment of an account of a bank. -/
def payment (bank account : String) (amount : ℕ) : Transaction ℕ where
  timestamp := none
  fromBank := some bank
  fromAccount := some account
  toBank := none
  toAccount := none
  amount := some amount
  currency := none
  paymentFormat := none

def twoReducers : Config ℕ where
  minRequiredAccounts := 1
  outputNodeCount := 1
  outputNodePrefix := ""
  numShards := 2
  batchSize := 1
  amountThreshold := 0
  queryId := "2"

/-- Two spellings of a bank, a tie, two aggregators, two reducers, and every message delivered
twice. -/
theorem bank_maxima_refine_tie :
    ∃ output output' : ℕ → List (Message (BankMaxPartial ℕ)),
      let batches :=
        [("c:0", [payment "02" "b" 5]), ("c:1", [payment "2" "a" 5, payment "7" "c" 3])]
      let sent := assigned (fun mid ↦ if mid = "c:0" then 0 else 1) batches
      let sent' := fun r : ℕ ↦ routed 2 output (toString r)
      Yields (bankMaxAggregator hashOf twoReducers) "c" 2 (fun i ↦ sent i ++ sent i) output ∧
        Yields (bankMaxReducer hashOf twoReducers) "c" 2 (fun r ↦ sent' r ++ sent' r)
          output' ∧
        ((List.range 2).flatMap fun r ↦ (output' r).flatMap Message.payload).Perm
          [⟨"2", "a", 5⟩, ⟨"7", "c", 3⟩] := by
  have hdouble : ∀ {α : Type} (f : ℕ → List α), Delivers 2 f fun i ↦ f i ++ f i := fun f i _ d ↦ by
    rw [List.mem_append, or_self]
  have hpays : ∀ bank account amount z, PythonInt.pyInt bank = some z →
      (payment bank account amount).Pays (toString z) account amount :=
        fun bank account amount z hz ↦
    ⟨rfl, rfl, bank, rfl, by rw [hz, Option.map_some]⟩
  have hvalid : ∀ tx ∈ [payment "02" "b" 5, payment "2" "a" 5, payment "7" "c" 3],
      ∃ bank account amount, tx.Pays bank account amount := by
    simp only [List.forall_mem_cons]
    exact ⟨⟨_, _, _, hpays "02" "b" 5 2 (by decide)⟩, ⟨_, _, _, hpays "2" "a" 5 2 (by decide)⟩,
      ⟨_, _, _, hpays "7" "c" 3 7 (by decide)⟩, fun _ h ↦ absurd h List.not_mem_nil⟩
  obtain ⟨hyields, hrest⟩ := @bank_maxima_refine ℕ _ hashOf twoReducers twoReducers "c" _
    [("c:0", [payment "02" "b" 5]), ("c:1", [payment "2" "a" 5, payment "7" "c" 3])]
    (fun mid ↦ if mid = "c:0" then 0 else 1) 2 2
    hvalid (List.Perm.refl _) (by decide) (by decide) (by decide) rfl
  obtain ⟨output, houtput⟩ := hyields _ (hdouble _)
  obtain ⟨hyields', hflushed⟩ := hrest _ output (hdouble _) houtput
  obtain ⟨output', houtput'⟩ := hyields' _ (hdouble _)
  obtain ⟨flushed, rfl, -, -, maxTransactions, hreference, hperm⟩ :=
    hflushed _ output' (hdouble _) houtput'
  obtain rfl := Option.some.inj (hreference.symm.trans rfl)
  exact ⟨output, output', houtput, houtput', hperm⟩

end MoneyLaundering
