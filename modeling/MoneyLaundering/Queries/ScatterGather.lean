import MoneyLaundering.Collections.SetDict
import MoneyLaundering.Queries.GraphStages

/-!
# Query 4

Query 4 looks for accounts that send to an account by way of enough others, or receive so. The five
stages come to this without any of them seeing the graph as a whole; the reference does it in one
place. Both prune the ends with too few transfers first, by different rules, and neither loses
anything by it: `scatter_gather_refine`.
-/

namespace MoneyLaundering

open Dict StatefulWorker TwoSteps

variable {A : Type}

/-- The two ends of a transaction; nothing if one is missing. -/
def Transaction.transfer (tx : Transaction A) : List (Account × Account) :=
  match tx.fromBank, tx.fromAccount, tx.toBank, tx.toAccount with
  | some fromBank, some fromAccount, some toBank, some toAccount =>
    [((fromBank, fromAccount), (toBank, toAccount))]
  | _, _, _, _ => []

/-! ## The reference -/

/-- The accounts each account sends to. -/
def scatterMap (rows : List (Account × Account)) : Dict Account (List Account) :=
  rows.foldl (fun d row ↦ addToSet d row.1 row.2) Dict.empty

/-- The accounts that send to enough others. -/
def scatterAccounts (k : ℕ) (rows : List (Account × Account)) : List (Account × List Account) :=
  (scatterMap rows).items.filter fun p ↦ k ≤ p.2.length

/-- The accounts of `scatterAccounts` that send to each account. -/
def intermediateToScatter (k : ℕ) (rows : List (Account × Account)) : Dict Account (List Account) :=
  (scatterAccounts k rows).foldl
    (fun d p ↦ p.2.foldl (fun d toAccount ↦ addToSet d toAccount p.1) d) Dict.empty

/-- For each source and each target the accounts in the middle. -/
def scatterGatherMap (k : ℕ) (rows : List (Account × Account)) :
    Dict Account (Dict Account (List Account)) :=
  let sourcesOf := intermediateToScatter k rows
  rows.foldl (fun d row ↦
    match sourcesOf.get row.1 with
    | none => d
    | some sources => sources.foldl (fun d source ↦
        d.upsert source Dict.empty fun gathered ↦ addToSet gathered row.2 row.1) d) Dict.empty

/-- Add a source and a target with the accounts in the middle to the result. -/
def addEnds (k : ℕ) (unique : List Account) (t : Account × Account × List Account) : List Account :=
  if k ≤ t.2.2.length ∧ t.1 ≠ t.2.1 then (unique.insert t.1).insert t.2.1 else unique

/-- `_build_query_4`, on the filtered transactions. -/
def buildQuery4 (k : ℕ) (rows : List (Account × Account)) : List Account :=
  (scatterGatherMap k rows).items.foldl (fun unique p ↦
    p.2.items.foldl (fun unique q ↦ addEnds k unique (p.1, q)) unique) []

/-! ### What the reference computes -/

section Reference

variable {k : ℕ} {rows : List (Account × Account)}

theorem mem_scatterAccounts {source : Account} {targets : List Account} :
    (source, targets) ∈ scatterAccounts k rows ↔ (scatterMap rows).get source = some targets ∧
      k ≤ (next rows.toFinset source).card := by
  rw [scatterAccounts, List.mem_filter, ← Dict.get_eq_some, decide_eq_true_iff]
  refine and_congr_right fun hget ↦ ?_
  rw [(collects_foldl rows).length_eq_card hget fun v ↦ by rw [mem_next, List.mem_toFinset]]

/-- The sources kept for an account in the middle are those with enough targets. -/
theorem collects_intermediateToScatter : Collects (intermediateToScatter k rows) fun mid source ↦
    (source, mid) ∈ rows ∧ k ≤ (next rows.toFinset source).card := by
  have hloop : intermediateToScatter k rows = ((scatterAccounts k rows).flatMap fun p ↦
      p.2.map fun toAccount ↦ (toAccount, p.1)).foldl (fun d p ↦ addToSet d p.1 p.2)
        Dict.empty := by
    simp only [intermediateToScatter, List.foldl_flatMap, List.foldl_map]
  rw [hloop]
  refine (collects_foldl _).congr fun mid source ↦ ?_
  rw [List.mem_flatMap]
  constructor
  · rintro ⟨⟨source', targets⟩, hmem, hpair⟩
    obtain ⟨mid', hmid, heq⟩ := List.mem_map.mp hpair
    obtain ⟨rfl, rfl⟩ := Prod.mk.inj heq
    obtain ⟨hget, hcard⟩ := mem_scatterAccounts.mp hmem
    exact ⟨((collects_foldl rows).mem_iff _ _).mp ⟨targets, hget, hmid⟩, hcard⟩
  · rintro ⟨hrow, hcard⟩
    obtain ⟨targets, hget, hmid⟩ := ((collects_foldl rows).mem_iff source mid).mpr hrow
    exact ⟨(source, targets), mem_scatterAccounts.mpr ⟨hget, hcard⟩,
      List.mem_map.mpr ⟨mid, hmid, rfl⟩⟩

/-- What the reference finds in the middle are the middles of the paths from busy sources. -/
theorem collects_scatterGatherMap (source : Account) :
    Collects (((scatterGatherMap k rows).get source).getD Dict.empty) fun target mid ↦
      mid ∈ (mids rows.toFinset source target).filter
        fun _ ↦ k ≤ (next rows.toFinset source).card := by
  have hloop : scatterGatherMap k rows = (rows.flatMap fun row ↦
      (((intermediateToScatter k rows).get row.1).getD []).map fun source ↦
        (source, row.2, row.1)).foldl
      (fun d t ↦ d.upsert t.1 Dict.empty fun g ↦ addToSet g t.2.1 t.2.2) Dict.empty := by
    simp only [scatterGatherMap, List.foldl_flatMap, List.foldl_map]
    refine List.foldl_ext _ _ _ fun d row _ ↦ ?_
    cases (intermediateToScatter k rows).get row.1 <;> rfl
  rw [hloop]
  refine (collects_foldl_two _ source).congr fun target mid ↦ ?_
  rw [List.mem_flatMap, Finset.mem_filter, mem_mids, List.mem_toFinset, List.mem_toFinset]
  have hsources := fun mid source ↦ (@collects_intermediateToScatter k rows).mem_iff mid
    source
  constructor
  · rintro ⟨row, hrow, htriple⟩
    obtain ⟨source', hsource, heq⟩ := List.mem_map.mp htriple
    obtain ⟨rfl, rfl, rfl⟩ : source' = source ∧ row.2 = target ∧ row.1 = mid := by
      simpa [Prod.ext_iff] using heq
    cases hget : (intermediateToScatter k rows).get row.1 with
    | none =>
      rw [hget] at hsource
      exact absurd hsource List.not_mem_nil
    | some sources =>
      rw [hget] at hsource
      obtain ⟨hrow', hcard⟩ := (hsources row.1 source').mp ⟨sources, hget, hsource⟩
      exact ⟨⟨hrow', hrow⟩, hcard⟩
  · rintro ⟨⟨hsource, htarget⟩, hcard⟩
    obtain ⟨sources, hget, hmem⟩ := (hsources mid source).mpr ⟨hsource, hcard⟩
    refine ⟨(mid, target), htarget, List.mem_map.mpr ⟨source, ?_, rfl⟩⟩
    rw [hget]
    exact hmem

theorem foldl_addEnds (l : List (Account × Account × List Account)) (unique : List Account) :
    (unique.Nodup → (l.foldl (addEnds k) unique).Nodup) ∧
      ∀ a, a ∈ l.foldl (addEnds k) unique ↔ a ∈ unique ∨
        ∃ t ∈ l, k ≤ t.2.2.length ∧ t.1 ≠ t.2.1 ∧ (a = t.1 ∨ a = t.2.1) := by
  induction l generalizing unique with
  | nil => simp
  | cons t l ih =>
    rw [List.foldl_cons]
    obtain ⟨hnodup, hmem⟩ := ih (addEnds k unique t)
    refine ⟨fun h ↦ hnodup ?_, fun a ↦ ?_⟩
    · unfold addEnds
      split
      · exact (h.insert).insert
      · exact h
    · have hone : a ∈ addEnds k unique t
          ↔ a ∈ unique ∨ k ≤ t.2.2.length ∧ t.1 ≠ t.2.1 ∧ (a = t.1 ∨ a = t.2.1) := by
        unfold addEnds
        split
        · next hkeep =>
          rw [List.mem_insert_iff, List.mem_insert_iff, ← and_assoc, and_iff_right hkeep]
          tauto
        · next hdrop => rw [← and_assoc, or_iff_left fun h ↦ hdrop h.1]
      rw [hmem, List.exists_mem_cons_iff, hone, or_assoc]

/-- **The reference reports the ends of the pairs that are joined by enough paths.** -/
theorem buildQuery4_spec (hk : 0 < k) : (buildQuery4 k rows).Nodup ∧
    ∀ a, a ∈ buildQuery4 k rows ↔ Reported rows.toFinset k a := by
  have hloop : buildQuery4 k rows = ((scatterGatherMap k rows).items.flatMap fun p ↦
      p.2.items.map fun q ↦ (p.1, q)).foldl (addEnds k) [] := by
    simp only [buildQuery4, List.foldl_flatMap, List.foldl_map]
  have hlength : ∀ {source target gathered set},
      (scatterGatherMap k rows).get source = some gathered → gathered.get target = some set →
      (k ≤ set.length ↔ k ≤ (mids rows.toFinset source target).card) := by
    intro source target gathered set hget hset
    have hcollects := @collects_scatterGatherMap k rows source
    rw [hget, Option.getD_some] at hcollects
    rw [hcollects.length_eq_card hset fun _ ↦ Iff.rfl]
    exact le_card_filter_mids_iff fun hnext _ ↦ hnext
  rw [hloop]
  obtain ⟨hnodup, hmem⟩ := foldl_addEnds (k := k) ((scatterGatherMap k rows).items.flatMap fun p ↦
      p.2.items.map fun q ↦ (p.1, q)) []
  refine ⟨hnodup List.nodup_nil, fun a ↦ (hmem a).trans ?_⟩
  rw [or_iff_right List.not_mem_nil]
  constructor
  · rintro ⟨⟨source, target, set⟩, ht, hcard, hne, ha⟩
    obtain ⟨p, hp, ht⟩ := List.mem_flatMap.mp ht
    obtain ⟨q, hq, heq⟩ := List.mem_map.mp ht
    obtain ⟨rfl, rfl⟩ := Prod.mk.inj heq
    have hget := Dict.get_eq_some.mpr (show (p.1, p.2) ∈ (scatterGatherMap k rows).items from hp)
    exact ⟨_, _, hne, (hlength hget (Dict.get_eq_some.mpr hq)).mp hcard, ha⟩
  · rintro ⟨source, target, hne, hcard, ha⟩
    obtain ⟨mid, hmid⟩ := Finset.card_pos.mp (hk.trans_le ((le_card_filter_mids_iff
      (q := k ≤ (next rows.toFinset source).card) fun hnext _ ↦ hnext).mpr hcard))
    obtain ⟨set, hset, -⟩ := ((collects_scatterGatherMap source).mem_iff target mid).mpr hmid
    cases hget : (scatterGatherMap k rows).get source with
    | none =>
      rw [hget] at hset
      exact absurd hset.symm (Option.some_ne_none _)
    | some gathered =>
      rw [hget, Option.getD_some] at hset
      refine ⟨(source, target, set), List.mem_flatMap.mpr ⟨_, Dict.get_eq_some.mp hget,
        List.mem_map.mpr ⟨_, Dict.get_eq_some.mp hset, rfl⟩⟩,
          (hlength hget hset).mpr hcard, hne, ha⟩

end Reference

/-! ## The pipeline -/

/-- The configuration of the workers of query 4. The number of replicas of a stage is what the stage
before is told. -/
structure Query4Config (A : Type) where
  sharders : ℕ
  sharder : Config A
  accountFilter : Config A
  pathMapper : Config A
  pathFilter : Config A
  duplicateFilter : Config A

/-- What the stages of query 4 may send for some transactions, in `batches` that are assigned to the
sharders. -/
structure Query4Run (hash : String → ℕ) (c : Query4Config A) (client : ClientId)
    (batches : List (MessageId × List (Transaction A))) (assign : MessageId → ℕ) where
  edges : ℕ → List (Message AccountEdge)
  keptEdges : ℕ → List (Message AccountEdge)
  paths : ℕ → List (Message Path)
  results : ℕ → List (Message Q4Result)
  accounts : ℕ → List (Message Q4Result)
  sharders_run : Runs (bidirectionalSharder hash c.sharder) client c.sharders
    (assigned assign batches) edges
  accountFilters_run : Runs (accountFrequencyFilter hash c.accountFilter) client
    c.sharder.outputNodeCount (fun r ↦ routed c.sharders edges (c.sharder.routingKey r)) keptEdges
  pathMappers_run : Runs (pathMapper hash c.pathMapper) client c.accountFilter.outputNodeCount
    (fun r ↦ routed c.sharder.outputNodeCount keptEdges (c.accountFilter.routingKey r)) paths
  pathFilters_run : Runs (pathFrequencyFilter hash c.pathFilter) client c.pathMapper.outputNodeCount
    (fun r ↦ routed c.accountFilter.outputNodeCount paths (c.pathMapper.routingKey r)) results
  duplicateFilters_run : Runs (duplicateAccountFilter hash c.duplicateFilter) client
    c.pathFilter.outputNodeCount
    (fun r ↦ routed c.pathMapper.outputNodeCount results (c.pathFilter.routingKey r)) accounts

/-- The accounts that the last stage sends to the client. -/
def Query4Run.reported {hash : String → ℕ} {c : Query4Config A} {client : ClientId}
    {batches : List (MessageId × List (Transaction A))} {assign : MessageId → ℕ}
    (run : Query4Run hash c client batches assign) : List Account :=
  (List.range c.pathFilter.outputNodeCount).flatMap fun r ↦
    ((run.accounts r).flatMap Message.payload).map fun result ↦ (result.bank, result.account)

/-- The stages of query 4 can be run. -/
theorem nonempty_query4Run (hash : String → ℕ) (c : Query4Config A) (client : ClientId)
    (batches : List (MessageId × List (Transaction A))) (assign : MessageId → ℕ) :
    Nonempty (Query4Run hash c client batches assign) := by
  have hsharders : AlwaysYields (bidirectionalSharder hash c.sharder) client :=
    alwaysYields client fun _ _ _ ↦ ⟨_, rfl⟩
  have haccounts : AlwaysYields (accountFrequencyFilter hash c.accountFilter) client :=
    alwaysYields client fun _ _ _ ↦ ⟨_, rfl⟩
  have hmappers : AlwaysYields (pathMapper hash c.pathMapper) client :=
    alwaysYields client fun _ _ _ ↦ ⟨_, rfl⟩
  have hfilters : AlwaysYields (pathFrequencyFilter hash c.pathFilter) client :=
    alwaysYields client fun _ _ _ ↦ ⟨_, rfl⟩
  have hduplicates : AlwaysYields (duplicateAccountFilter hash c.duplicateFilter) client :=
    alwaysYields client fun _ _ _ ↦ ⟨_, rfl⟩
  obtain ⟨edges, hedges⟩ := hsharders.exists_runs c.sharders (assigned assign batches)
  obtain ⟨kept, hkept⟩ := haccounts.exists_runs c.sharder.outputNodeCount
    fun r ↦ routed c.sharders edges (c.sharder.routingKey r)
  obtain ⟨paths, hpaths⟩ := hmappers.exists_runs c.accountFilter.outputNodeCount
    fun r ↦ routed c.sharder.outputNodeCount kept (c.accountFilter.routingKey r)
  obtain ⟨results, hresults⟩ := hfilters.exists_runs c.pathMapper.outputNodeCount
    fun r ↦ routed c.accountFilter.outputNodeCount paths (c.pathMapper.routingKey r)
  obtain ⟨accounts, haccounts⟩ := hduplicates.exists_runs c.pathFilter.outputNodeCount
    fun r ↦ routed c.pathMapper.outputNodeCount results (c.pathFilter.routingKey r)
  exact ⟨⟨edges, kept, paths, results, accounts, hedges, hkept, hpaths, hresults, haccounts⟩⟩

section Pipeline

variable {hash : String → ℕ} {c : Query4Config A} {client : ClientId} {k : ℕ}
  {txs : List (Transaction A)} {batches : List (MessageId × List (Transaction A))}
  {assign : MessageId → ℕ}

theorem transactionEdges_eq (tx : Transaction A) : transactionEdges tx = tx.transfer.flatMap fun t ↦
    [AccountEdges.edgeOf t.1 (true, t.2), AccountEdges.edgeOf t.2 (false, t.1)] := by
  obtain ⟨timestamp, fromBank, fromAccount, toBank, toAccount, amount, currency,
      paymentFormat⟩ := tx
  cases fromBank <;> cases fromAccount <;> cases toBank <;> cases toAccount <;> rfl

theorem mem_transactionEdges {tx : Transaction A} {account other : Account} {sends : Bool} :
    AccountEdges.edgeOf account (sends, other) ∈ transactionEdges tx
      ↔ (if sends then (account, other) else (other, account)) ∈ tx.transfer := by
  rw [transactionEdges_eq, List.mem_flatMap]
  constructor
  · rintro ⟨t, ht, hedge⟩
    rcases List.mem_cons.mp hedge with hedge | hedge
    · obtain ⟨rfl, hother⟩ := AccountEdges.edgeOf_inj.mp hedge
      obtain ⟨rfl, rfl⟩ := Prod.mk.inj hother
      exact ht
    · obtain ⟨rfl, hother⟩ := AccountEdges.edgeOf_inj.mp (List.mem_singleton.mp hedge)
      obtain ⟨rfl, rfl⟩ := Prod.mk.inj hother
      exact ht
  · intro ht
    refine ⟨_, ht, ?_⟩
    cases sends <;> simp

/-- The results of the path frequency filters are the ends of the pairs joined by enough paths. -/
theorem Query4Run.exists_results (run : Query4Run hash c client batches assign)
    (hbatches : (batches.flatMap Prod.snd).Perm txs) (hids : (batches.map Prod.fst).Nodup)
    (hassign : ∀ b ∈ batches, assign b.1 < c.sharders) (hk : 0 < k)
    (haccount : c.accountFilter.minRequiredAccounts = k)
    (hpath : c.pathFilter.minRequiredAccounts = k) (h₁ : 0 < c.sharder.outputNodeCount)
    (h₂ : 0 < c.accountFilter.outputNodeCount) (h₃ : 0 < c.pathMapper.outputNodeCount) :
    ∃ results, Sharded c.pathMapper.outputNodeCount run.results c.pathFilter.routingKey
        (resultShard hash c.pathFilter.outputNodeCount) results ∧
      ∀ result : Q4Result, result ∈ results
        ↔ Reported (txs.flatMap Transaction.transfer).toFinset k (result.bank, result.account) := by
  have hedges := sharders_sharded hids hassign run.sharders_run
  obtain ⟨kept, hkept, hmemKept⟩ := accountFilters_sharded h₁ hedges run.accountFilters_run
  obtain ⟨paths, hpaths, hmemPaths⟩ := pathMappers_sharded h₂ hkept run.pathMappers_run
  obtain ⟨results, hresults, hmemResults⟩ := pathFilters_sharded h₃ (hpath ▸ hk) hpaths
    run.pathFilters_run
  refine ⟨results, hresults, fun result ↦ (hmemResults result).trans ?_⟩
  have hedge : ∀ account sends other, AccountEdges.edgeOf account (sends, other)
      ∈ batches.flatMap (fun b ↦ batchEdges b.2)
      ↔ (if sends then (account, other) else (other, account))
        ∈ (txs.flatMap Transaction.transfer).toFinset := by
    intro account sends other
    have hperm : (batches.flatMap fun b ↦ batchEdges b.2).Perm (txs.flatMap transactionEdges) := by
      simp only [batchEdges]
      rw [← List.flatMap_assoc]
      exact hbatches.flatMap_right _
    rw [hperm.mem_iff, List.mem_toFinset, List.mem_flatMap, List.mem_flatMap]
    exact exists_congr fun tx ↦ and_congr_right fun _ ↦ mem_transactionEdges
  generalize (txs.flatMap Transaction.transfer).toFinset = graph at hedge
  generalize batches.flatMap (fun b ↦ batchEdges b.2) = edges at hedge hmemKept
  have hends : ∀ account, otherEnds edges true account = next graph account ∧
      otherEnds edges false account = prev graph account := by
    refine fun account ↦ ⟨?_, ?_⟩ <;> ext other <;> rw [mem_otherEnds, hedge]
    · rw [if_pos rfl, mem_next]
    · rw [if_neg Bool.false_ne_true, mem_prev]
  -- the paths of a pair are the paths between its ends, if both have enough transfers
  have hmids : ∀ source target, source ≠ target → pathMids paths source target
      = (mids graph source target).filter
          fun _ ↦ k ≤ (next graph source).card ∧ k ≤ (prev graph target).card := by
    intro source target hne
    ext mid
    rw [mem_pathMids, hmemPaths, hmemKept, hmemKept, Finset.mem_filter, mem_mids, hedge, hedge,
      Bool.not_false, Bool.not_true, (hends source).1, (hends target).2, haccount, if_pos rfl,
      if_neg Bool.false_ne_true]
    tauto
  have hnone : ∀ account, pathMids paths account account = ∅ := by
    intro account
    refine Finset.eq_empty_of_forall_notMem fun mid hmid ↦ ?_
    exact ((hmemPaths _ _ _).mp (mem_pathMids.mp hmid)).2.2 rfl
  rw [hpath]
  constructor
  · rintro ⟨source, target, hcard, hresult⟩
    have hne : source ≠ target := by
      rintro rfl
      rw [hnone, Finset.card_empty] at hcard
      exact absurd hcard (not_le.mpr hk)
    rw [hmids source target hne] at hcard
    exact ⟨source, target, hne, (le_card_filter_mids_iff And.intro).mp hcard, hresult⟩
  · rintro ⟨source, target, hne, hcard, hresult⟩
    refine ⟨source, target, ?_, hresult⟩
    rw [hmids source target hne]
    exact (le_card_filter_mids_iff And.intro).mpr hcard

/-- **Query 4 reports what the reference does.** However the transactions are put into batches, the
batches assigned to sharders, and the messages of every stage delivered, the five stages send each
account of the reference once and no other: the ends of the pairs of different accounts that are
joined by at least `k` paths of length two. -/
theorem scatter_gather_refine (hbatches : (batches.flatMap Prod.snd).Perm txs)
    (hids : (batches.map Prod.fst).Nodup) (hassign : ∀ b ∈ batches, assign b.1 < c.sharders)
    (hk : 0 < k) (haccount : c.accountFilter.minRequiredAccounts = k)
    (hpath : c.pathFilter.minRequiredAccounts = k) (h₁ : 0 < c.sharder.outputNodeCount)
    (h₂ : 0 < c.accountFilter.outputNodeCount) (h₃ : 0 < c.pathMapper.outputNodeCount)
    (h₄ : 0 < c.pathFilter.outputNodeCount) :
    (AlwaysYields (bidirectionalSharder hash c.sharder) client ∧
      AlwaysYields (accountFrequencyFilter hash c.accountFilter) client ∧
      AlwaysYields (pathMapper hash c.pathMapper) client ∧
      AlwaysYields (pathFrequencyFilter hash c.pathFilter) client ∧
      AlwaysYields (duplicateAccountFilter hash c.duplicateFilter) client) ∧
    ∀ run : Query4Run hash c client batches assign,
      run.reported.Nodup ∧
      run.reported.Perm (buildQuery4 k (txs.flatMap Transaction.transfer)) ∧
      ∀ account, account ∈ run.reported
        ↔ Reported (txs.flatMap Transaction.transfer).toFinset k account := by
  refine ⟨⟨alwaysYields client fun _ _ _ ↦ ⟨_, rfl⟩, alwaysYields client fun _ _ _ ↦ ⟨_, rfl⟩,
    alwaysYields client fun _ _ _ ↦ ⟨_, rfl⟩, alwaysYields client fun _ _ _ ↦ ⟨_, rfl⟩,
    alwaysYields client fun _ _ _ ↦ ⟨_, rfl⟩⟩, fun run ↦ ?_⟩
  obtain ⟨results, hresults, hmem⟩ :=
    run.exists_results hbatches hids hassign hk haccount hpath h₁ h₂ h₃
  obtain ⟨hnodup, hsent⟩ := duplicateFilters_send h₄ hresults run.duplicateFilters_run
  -- the reports are compared as accounts
  have hinj : Function.Injective fun result : Q4Result ↦ (result.bank, result.account) := by
    rintro ⟨bank, account⟩ ⟨bank', account'⟩ h
    obtain ⟨rfl, rfl⟩ := Prod.mk.inj h
    rfl
  have hreported : run.reported = ((List.range c.pathFilter.outputNodeCount).flatMap fun r ↦
      (run.accounts r).flatMap Message.payload).map fun result ↦ (result.bank, result.account) := by
    rw [List.map_flatMap]
    rfl
  have hreportedMem : ∀ account, account ∈ run.reported
      ↔ Reported (txs.flatMap Transaction.transfer).toFinset k account := by
    intro account
    have hone : account ∈ run.reported ↔ (⟨account.1, account.2⟩ : Q4Result)
        ∈ (List.range c.pathFilter.outputNodeCount).flatMap fun r ↦
          (run.accounts r).flatMap Message.payload := by
      rw [hreported]
      exact List.mem_map_of_injective hinj (a := ⟨account.1, account.2⟩)
    rw [hone, hsent, hmem]
  have hreportedNodup : run.reported.Nodup := by
    rw [hreported]
    exact hnodup.map hinj
  obtain ⟨hreferenceNodup, hreferenceMem⟩ :=
    @buildQuery4_spec k (txs.flatMap Transaction.transfer) hk
  exact ⟨hreportedNodup,
    (List.perm_ext_iff_of_nodup hreportedNodup hreferenceNodup).mpr fun account ↦
    (hreportedMem account).trans (hreferenceMem account).symm, hreportedMem⟩

end Pipeline

/-- A transfer between two accounts of one bank. -/
def transferOf (source target : String) : Transaction ℕ where
  timestamp := none
  fromBank := some "1"
  fromAccount := some source
  toBank := some "1"
  toAccount := some target
  amount := none
  currency := none
  paymentFormat := none

def twoReplicas : Config ℕ := ⟨2, 2, "node", 2, 1, 0, "4"⟩

/-- Two replicas of every stage. -/
def twoReplicasOfEach : Query4Config ℕ :=
  ⟨2, twoReplicas, twoReplicas, twoReplicas, twoReplicas, twoReplicas⟩

/-- Two paths from `s` to `d`. -/
def twoPaths : List (MessageId × List (Transaction ℕ)) :=
  [("c:0", [transferOf "s" "m", transferOf "n" "d"]),
    ("c:1", [transferOf "s" "n", transferOf "m" "d"])]

/-- Two paths from `s` to `d`, in two batches that go to two sharders. -/
theorem scatter_gather_refine_two_paths :
    ∃ run : Query4Run hashOf twoReplicasOfEach "c" twoPaths
        (fun mid ↦ if mid = "c:0" then 0 else 1),
      run.reported.Perm [("1", "d"), ("1", "s")] := by
  obtain ⟨run⟩ := nonempty_query4Run hashOf twoReplicasOfEach "c" twoPaths
    fun mid ↦ if mid = "c:0" then 0 else 1
  have hk : (0 : ℕ) < 2 := by decide
  have hreported :=
    ((scatter_gather_refine (List.Perm.refl _) (by decide) (by decide) hk rfl rfl hk hk
    hk hk).2 run).2.1
  exact ⟨run, hreported.trans (by decide)⟩

end MoneyLaundering
