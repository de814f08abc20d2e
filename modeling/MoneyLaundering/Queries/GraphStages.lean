import MoneyLaundering.Collections.TwoSteps
import MoneyLaundering.Worker.Replicas
import MoneyLaundering.Workers.Paths

/-!
# What the stages of query 4 hold and flush

Every stage of query 4 collects sets, so that what a replica holds is settled by the members of what
it was sent, and every stage but the first flushes what those sets determine. This module says which
members each stage is sent and flushes, in terms of the members the stage before flushes.
-/

namespace MoneyLaundering

open StatefulWorker

/-! ## Edges by account -/

namespace AccountEdges

/-- The other ends of the edges of an account in one direction; those it sends to if `sends`. -/
def others (s : AccountEdges) (sends : Bool) (account : Account) : Finset Account :=
  let accounts := (s.edges.get account).getD (∅, ∅)
  if sends then accounts.2 else accounts.1

theorem exists_edgeOf (edge : AccountEdge) :
    ∃ account sends other, edge = edgeOf account (sends, other) :=
  ⟨(edge.bank, edge.account), edge.isSender, (edge.otherBank, edge.otherAccount), rfl⟩

theorem edgeOf_inj {account account' : Account} {other other' : Bool × Account} :
    edgeOf account other = edgeOf account' other' ↔ account = account' ∧ other = other' := by
  obtain ⟨bank, number⟩ := account
  obtain ⟨bank', number'⟩ := account'
  obtain ⟨sends, otherBank, otherNumber⟩ := other
  obtain ⟨sends', otherBank', otherNumber'⟩ := other'
  simp only [edgeOf, AccountEdge.mk.injEq, Prod.mk.injEq]
  tauto

theorem mem_others_addEdge {s : AccountEdges} {edge : AccountEdge} {sends : Bool}
    {account other : Account} :
    other ∈ (s.addEdge edge).others sends account
      ↔ other ∈ s.others sends account ∨ edge = edgeOf account (sends, other) := by
  obtain ⟨account', sends', other', rfl⟩ := exists_edgeOf edge
  have hget : (s.addEdge (edgeOf account' (sends', other'))).edges.get account
      = if account' = account then
          some (addOther (sends', other') ((s.edges.get account').getD (∅, ∅)))
        else s.edges.get account := Dict.get_upsert ..
  rw [others, hget, edgeOf_inj]
  by_cases haccount : account' = account
  · subst haccount
    cases sends <;> cases sends' <;> simp [others, addOther, or_comm, eq_comm]
  · simp [others, haccount]

theorem mem_others_applyDelta {delta : List AccountEdge} {s : AccountEdges} {sends : Bool}
    {account other : Account} :
    other ∈ (applyDelta delta s).others sends account
      ↔ other ∈ s.others sends account ∨ edgeOf account (sends, other) ∈ delta := by
  induction delta generalizing s with
  | nil => simp [applyDelta]
  | cons edge delta ih =>
    have hstep : applyDelta (edge :: delta) s = applyDelta delta (s.addEdge edge) := rfl
    rw [hstep, ih, mem_others_addEdge, List.mem_cons, or_assoc, eq_comm]

/-- A replica holds the edges it was sent. -/
theorem mem_others_foldl {order : List (MessageId × List AccountEdge)} {sends : Bool}
    {account other : Account} :
    other ∈ (order.foldl (fun s d ↦ applyDelta d.2 s) empty).others sends account
      ↔ edgeOf account (sends, other) ∈ order.flatMap Prod.snd := by
  suffices h : ∀ s : AccountEdges,
      other ∈ (order.foldl (fun s d ↦ applyDelta d.2 s) s).others sends account
        ↔ other ∈ s.others sends account ∨ edgeOf account (sends, other) ∈ order.flatMap Prod.snd by
    rw [h]
    simp [others, empty]
  induction order with
  | nil => simp
  | cons d order ih =>
    intro s
    rw [List.foldl_cons, ih, mem_others_applyDelta, List.flatMap_cons, List.mem_append, or_assoc]

variable {s : AccountEdges}

/-- The entry of an account that has edges. -/
theorem mem_items_of_others {sends : Bool} {account other : Account}
    (h : other ∈ s.others sends account) :
    ∃ accounts, (account, accounts) ∈ s.edges.items ∧
      accounts.1 = s.others false account ∧ accounts.2 = s.others true account := by
  cases hget : s.edges.get account with
  | none =>
    rw [others, hget] at h
    cases sends <;> simp at h
  | some accounts =>
    exact ⟨accounts, Dict.get_eq_some.mp hget, by simp [others, hget], by simp [others, hget]⟩

theorem others_of_mem_items {p : Account × Finset Account × Finset Account}
    (h : p ∈ s.edges.items) : s.others false p.1 = p.2.1 ∧ s.others true p.1 = p.2.2 := by
  have hget := Dict.get_eq_some.mpr (show (p.1, p.2) ∈ s.edges.items from h)
  simp [others, hget]

/-- The edges the frequency filter keeps are those of the accounts with enough of them, turned
round. -/
theorem Order.mem_createEdges (order : Order s) {k : ℕ} {account other : Account} {sends : Bool} :
    edgeOf other (sends, account) ∈ order.createEdges k
      ↔ other ∈ s.others (!sends) account ∧ k ≤ (s.others (!sends) account).card := by
  rw [createEdges, List.mem_flatMap]
  constructor
  · rintro ⟨p, hp, hmem⟩
    obtain ⟨hins, houts⟩ := others_of_mem_items hp
    rcases List.mem_append.mp hmem with hmem | hmem <;> split at hmem
    · exact absurd hmem List.not_mem_nil
    · next hcard =>
      obtain ⟨other', hother, heq⟩ := List.mem_map.mp hmem
      obtain ⟨rfl, hkept⟩ := edgeOf_inj.mp (show edgeOf other' (true, p.1) = _ from heq)
      obtain ⟨rfl, rfl⟩ := Prod.mk.inj hkept
      rw [Bool.not_true, hins]
      exact ⟨((order.enumerates_ins p hp).mem_iff _).mp hother, not_lt.mp hcard⟩
    · exact absurd hmem List.not_mem_nil
    · next hcard =>
      obtain ⟨other', hother, heq⟩ := List.mem_map.mp hmem
      obtain ⟨rfl, hkept⟩ := edgeOf_inj.mp (show edgeOf other' (false, p.1) = _ from heq)
      obtain ⟨rfl, rfl⟩ := Prod.mk.inj hkept
      rw [Bool.not_false, houts]
      exact ⟨((order.enumerates_outs p hp).mem_iff _).mp hother, not_lt.mp hcard⟩
  · rintro ⟨hmem, hcard⟩
    obtain ⟨accounts, hitem, hins, houts⟩ := mem_items_of_others hmem
    refine ⟨_, hitem, List.mem_append.mpr ?_⟩
    cases sends with
    | true =>
      rw [Bool.not_true, ← hins] at hmem hcard
      rw [if_neg (not_lt.mpr hcard)]
      exact Or.inl (List.mem_map.mpr
        ⟨other, ((order.enumerates_ins _ hitem).mem_iff _).mpr hmem, rfl⟩)
    | false =>
      rw [Bool.not_false, ← houts] at hmem hcard
      refine Or.inr ?_
      rw [if_neg (not_lt.mpr hcard)]
      exact List.mem_map.mpr ⟨other, ((order.enumerates_outs _ hitem).mem_iff _).mpr hmem, rfl⟩

/-- The path through an account between two others. -/
def pathOf (source mid target : Account) : Path :=
  ⟨source.1, source.2, mid.1, mid.2, target.1, target.2⟩

theorem pathOf_inj {source source' mid mid' target target' : Account} :
    pathOf source mid target = pathOf source' mid' target'
      ↔ source = source' ∧ mid = mid' ∧ target = target' := by
  simp only [pathOf, Path.mk.injEq, Prod.ext_iff]
  tauto

/-- The paths the path mapper makes are those through an account between two different others. -/
theorem Order.mem_createPaths (order : Order s) {source mid target : Account} :
    pathOf source mid target ∈ order.createPaths
      ↔ source ∈ s.others false mid ∧ target ∈ s.others true mid ∧ source ≠ target := by
  rw [createPaths, List.mem_flatMap]
  constructor
  · rintro ⟨p, hp, hmem⟩
    obtain ⟨hins, houts⟩ := others_of_mem_items hp
    split at hmem
    · exact absurd hmem List.not_mem_nil
    · obtain ⟨source', hsource, hmem⟩ := List.mem_flatMap.mp hmem
      obtain ⟨target', htarget, hmem⟩ := List.mem_flatMap.mp hmem
      split at hmem
      · exact absurd hmem List.not_mem_nil
      · next hne =>
        obtain ⟨rfl, rfl, rfl⟩ := pathOf_inj.mp (List.mem_singleton.mp hmem)
        rw [hins, houts]
        exact ⟨((order.enumerates_ins p hp).mem_iff _).mp hsource,
          ((order.enumerates_outs p hp).mem_iff _).mp htarget, hne⟩
  · rintro ⟨hsource, htarget, hne⟩
    obtain ⟨accounts, hitem, hins, houts⟩ := mem_items_of_others hsource
    rw [← hins] at hsource
    rw [← houts] at htarget
    refine ⟨_, hitem, ?_⟩
    rw [if_neg (not_or.mpr ⟨Finset.ne_empty_of_mem hsource, Finset.ne_empty_of_mem htarget⟩)]
    refine List.mem_flatMap.mpr ⟨source, ((order.enumerates_ins _ hitem).mem_iff _).mpr hsource, ?_⟩
    refine List.mem_flatMap.mpr
      ⟨target, ((order.enumerates_outs _ hitem).mem_iff _).mpr htarget, ?_⟩
    rw [if_neg hne]
    exact List.mem_singleton_self _

end AccountEdges

/-! ## Paths by their ends -/

namespace PathMids

/-- The accounts in the middle of the paths between two accounts. -/
def mids (s : PathMids) (source target : Account) : Finset Account :=
  (s.paths.get (source.1, source.2, target.1, target.2)).getD ∅

theorem mem_mids_addPath {s : PathMids} {source mid target source' mid' target' : Account} :
    mid ∈ (s.addPath (AccountEdges.pathOf source' mid' target')).mids source target
      ↔ mid ∈ s.mids source target ∨ AccountEdges.pathOf source' mid' target'
          = AccountEdges.pathOf source mid target := by
  have hget : (s.addPath (AccountEdges.pathOf source' mid' target')).paths.get
      (source.1, source.2, target.1, target.2)
      = if (source'.1, source'.2, target'.1, target'.2)
            = (source.1, source.2, target.1, target.2) then
          some (insert mid'
            ((s.paths.get (source'.1, source'.2, target'.1, target'.2)).getD ∅))
        else s.paths.get (source.1, source.2, target.1, target.2) := Dict.get_upsert ..
  have hends : (source'.1, source'.2, target'.1, target'.2)
        = (source.1, source.2, target.1, target.2)
      ↔ source' = source ∧ target' = target := by
    simp only [Prod.ext_iff, and_assoc]
  rw [mids, hget, AccountEdges.pathOf_inj]
  by_cases h : source' = source ∧ target' = target
  · obtain ⟨rfl, rfl⟩ := h
    simp [mids, or_comm, eq_comm]
  · rw [if_neg (mt hends.mp h)]
    refine ⟨Or.inl, fun hmem ↦ hmem.resolve_right fun heq ↦ h ⟨heq.1, heq.2.2⟩⟩

theorem mem_mids_applyDelta {delta : List Path} {s : PathMids} {source mid target : Account} :
    mid ∈ (applyDelta delta s).mids source target
      ↔ mid ∈ s.mids source target ∨ AccountEdges.pathOf source mid target ∈ delta := by
  induction delta generalizing s with
  | nil => simp [applyDelta]
  | cons path delta ih =>
    have hstep : applyDelta (path :: delta) s = applyDelta delta (s.addPath path) := rfl
    have hpath : path = AccountEdges.pathOf (path.fromBank, path.fromAccount)
        (path.midBank, path.midAccount) (path.toBank, path.toAccount) := rfl
    rw [hstep, ih, hpath, mem_mids_addPath, List.mem_cons, or_assoc, eq_comm]

/-- A replica holds the paths it was sent. -/
theorem mem_mids_foldl {order : List (MessageId × List Path)} {source mid target : Account} :
    mid ∈ (order.foldl (fun s d ↦ applyDelta d.2 s) empty).mids source target
      ↔ AccountEdges.pathOf source mid target ∈ order.flatMap Prod.snd := by
  suffices h : ∀ s : PathMids, mid ∈ (order.foldl (fun s d ↦ applyDelta d.2 s) s).mids source target
      ↔ mid ∈ s.mids source target ∨ AccountEdges.pathOf source mid target
          ∈ order.flatMap Prod.snd by
    rw [h]
    simp [mids, empty]
  induction order with
  | nil => simp
  | cons d order ih =>
    intro s
    rw [List.foldl_cons, ih, mem_mids_applyDelta, List.flatMap_cons, List.mem_append, or_assoc]

/-- The results are the ends of the pairs with enough accounts in the middle. -/
theorem mem_createResults {s : PathMids} {k : ℕ} (hk : 0 < k) {result : Q4Result} :
    result ∈ s.createResults k ↔ ∃ source target, k ≤ (s.mids source target).card ∧
      ((result.bank, result.account) = source ∨ (result.bank, result.account) = target) := by
  rw [createResults, List.mem_flatMap]
  constructor
  · rintro ⟨p, hp, hmem⟩
    split at hmem
    · exact absurd hmem List.not_mem_nil
    · next hcard =>
      have hget := Dict.get_eq_some.mpr (show (p.1, p.2) ∈ s.paths.items from hp)
      refine ⟨(p.1.1, p.1.2.1), (p.1.2.2.1, p.1.2.2.2), ?_, ?_⟩
      · rw [mids, hget]
        exact not_lt.mp hcard
      · rcases List.mem_cons.mp hmem with rfl | hmem
        · exact Or.inl rfl
        · rw [List.mem_singleton.mp hmem]
          exact Or.inr rfl
  · rintro ⟨source, target, hcard, hresult⟩
    cases hget : s.paths.get (source.1, source.2, target.1, target.2) with
    | none =>
      rw [mids, hget] at hcard
      exact absurd hcard (not_le.mpr hk)
    | some accounts =>
      rw [mids, hget, Option.getD_some] at hcard
      refine ⟨_, Dict.get_eq_some.mp hget, ?_⟩
      rw [if_neg (not_lt.mpr hcard), List.mem_cons, List.mem_singleton]
      rcases hresult with rfl | rfl
      · exact Or.inl rfl
      · exact Or.inr rfl

end PathMids

/-! ## Accounts -/

namespace UniqueAccounts

theorem get_applyDelta {delta : List Account} {s : UniqueAccounts} {account : Account} :
    (applyDelta delta s).accounts.get account ≠ none
      ↔ s.accounts.get account ≠ none ∨ account ∈ delta := by
  induction delta generalizing s with
  | nil => simp [applyDelta]
  | cons account' delta ih =>
    have hstep : applyDelta (account' :: delta) s = applyDelta delta (s.addAccount account') := rfl
    have hget : (s.addAccount account').accounts.get account
        = if account' = account then some ⟨account'.1, account'.2⟩ else s.accounts.get account :=
      Dict.get_set ..
    rw [hstep, ih, hget, List.mem_cons]
    by_cases h : account' = account
    · simp [h]
    · simp [h, Ne.symm h]

theorem mem_values_iff {s : UniqueAccounts} {result : Q4Result} :
    result ∈ s.accounts.values ↔ s.accounts.get (result.bank, result.account) ≠ none := by
  rw [Dict.values, List.mem_map, Option.ne_none_iff_exists']
  constructor
  · rintro ⟨p, hp, rfl⟩
    rw [s.key_eq p hp]
    exact ⟨p.2, Dict.get_eq_some.mpr hp⟩
  · rintro ⟨result', hget⟩
    have hmem := Dict.get_eq_some.mp hget
    have hkey := s.key_eq _ hmem
    exact ⟨_, hmem, hkey⟩

theorem nodup_values (s : UniqueAccounts) : s.accounts.values.Nodup := by
  refine List.Nodup.of_map (fun result : Q4Result ↦ (result.bank, result.account)) ?_
  have hkeys : s.accounts.values.map (fun result : Q4Result ↦ (result.bank, result.account))
      = s.accounts.items.map Prod.fst := by
    rw [Dict.values, List.map_map]
    refine List.map_congr_left fun p hp ↦ ?_
    rw [Function.comp_apply, s.key_eq p hp]
  rw [hkeys]
  exact s.accounts.nodup

/-- A replica holds the accounts it was sent. -/
theorem mem_values_foldl {order : List (MessageId × List Q4Result)} {result : Q4Result} :
    result ∈ (order.foldl (fun s d ↦ applyDelta
        (d.2.map fun account ↦ (account.bank, account.account)) s) empty).accounts.values
      ↔ result ∈ order.flatMap Prod.snd := by
  have hdelta : ∀ batch : List Q4Result, (result.bank, result.account)
      ∈ batch.map (fun account ↦ (account.bank, account.account)) ↔ result ∈ batch := fun batch ↦ by
    refine List.mem_map_of_injective fun r r' h ↦ ?_
    obtain ⟨hbank, haccount⟩ := Prod.mk.inj h
    cases r
    cases r'
    subst hbank haccount
    rfl
  suffices h : ∀ s : UniqueAccounts, (order.foldl (fun s d ↦ applyDelta
        (d.2.map fun account ↦ (account.bank, account.account)) s) s).accounts.get
          (result.bank, result.account) ≠ none
      ↔ s.accounts.get (result.bank, result.account) ≠ none ∨ result ∈ order.flatMap Prod.snd by
    rw [mem_values_iff, h]
    simp [empty]
  induction order with
  | nil => simp
  | cons d order ih =>
    intro s
    rw [List.foldl_cons, ih, get_applyDelta, hdelta, List.flatMap_cons, List.mem_append, or_assoc]

end UniqueAccounts

/-! ## The stages -/

section Stages

variable {A : Type} {hash : String → ℕ} {cfg : Config A} {client : ClientId} {n₀ n : ℕ}
  {key : ℕ → String}

/-- The shard of an edge: that of its account. -/
def edgeShard (hash : String → ℕ) (n : ℕ) (edge : AccountEdge) : ℕ :=
  shardOf hash (accountKey edge.bank edge.account) n

/-- The shard of a path: that of its ends. -/
def pathShard (hash : String → ℕ) (n : ℕ) (path : Path) : ℕ := shardOf hash (pathKey path) n

def resultShard (hash : String → ℕ) (n : ℕ) (result : Q4Result) : ℕ :=
  shardOf hash (accountKey result.bank result.account) n

/-- A replica of a stage that collects what it is sent, when each is sent its shard of `items`. -/
theorem mem_flatMap_order {α : Type} {output : ℕ → List (Message α)} {shard : α → ℕ}
    {items : List α} (hsharded : Sharded n₀ output key shard items) {r : ℕ}
    {order : List (MessageId × List α)} (h : order.Perm (routed n₀ output (key r))) {x : α} :
    x ∈ order.flatMap Prod.snd ↔ x ∈ items ∧ shard x = r := by
  rw [(h.flatMap_right Prod.snd).mem_iff, (hsharded.perm r).mem_iff, List.mem_filter,
    decide_eq_true_iff]

theorem turns_edges {Item : Type}
    {flush : NodeId → ClientId → (s : AccountEdges) → s.Order → List (Message Item)}
    {hflush : ∀ node client s order order', SameMessages (flush node client s order)
      (flush node client s order')} (d : MessageId × List AccountEdge) :
    (AccountEdges.worker flush hflush).Turns d d.2 [] := fun _ ↦ rfl

/-- What the replicas of a stage that collects edges hold when they flush. -/
theorem exists_edge_states {Item : Type}
    {flush : NodeId → ClientId → (s : AccountEdges) → s.Order → List (Message Item)}
    {hflush : ∀ node client s order order', SameMessages (flush node client s order)
      (flush node client s order')} {edges : List AccountEdge}
    {output : ℕ → List (Message AccountEdge)} {output' : ℕ → List (Message Item)}
    (hsharded : Sharded n₀ output key (edgeShard hash n) edges)
    (hruns : Runs (AccountEdges.worker flush hflush) client n (fun r ↦ routed n₀ output (key r))
      output') :
    ∃ (states : ℕ → AccountEdges) (orders : ∀ r, (states r).Order),
      (∀ r < n, output' r = flush r client (states r) (orders r)) ∧
      ∀ r < n, ∀ account sends other, other ∈ (states r).others sends account
        ↔ AccountEdges.edgeOf account (sends, other) ∈ edges ∧
          shardOf hash (accountKey account.1 account.2) n = r := by
  obtain ⟨deliveries, hdelivers, hyields⟩ := hruns
  obtain ⟨states, hstates⟩ := hyields.exists_states (fun delta : List AccountEdge ↦ delta)
    (fun r (s : AccountEdges) ↦ ∀ account sends other, other ∈ s.others sends account
        ↔ AccountEdges.edgeOf account (sends, other) ∈ edges ∧
          shardOf hash (accountKey account.1 account.2) n = r)
    (fun _ _ d _ ↦ turns_edges d) (fun r _ ↦ hsharded.nodup r) hdelivers
    (fun r _ order hperm account sends other ↦
      AccountEdges.mem_others_foldl.trans (mem_flatMap_order hsharded hperm))
  have horders : ∀ r, ∃ order : (states r).Order, r < n → output' r
      = flush r client (states r) order := by
    intro r
    by_cases hr : r < n
    · obtain ⟨order, horder⟩ := (hstates r hr).2
      exact ⟨order, fun _ ↦ horder⟩
    · exact (AccountEdges.exists_order (states r)).elim fun order ↦ ⟨order, fun hlt ↦ absurd hlt hr⟩
  choose orders horders using horders
  exact ⟨states, orders, horders, fun r hr ↦ (hstates r hr).1⟩

/-! ### The sharders -/

/-- The edges of the transactions of a batch. -/
def batchEdges (batch : List (Transaction A)) : List AccountEdge := batch.flatMap transactionEdges

/-- What a sharder sends to one shard for a batch. -/
def shardPart (hash : String → ℕ) (cfg : Config A) (r : ℕ)
    (d : MessageId × List (Transaction A)) : List (MessageId × List AccountEdge) :=
  let edges := (batchEdges d.2).filter fun edge ↦ edgeShard hash cfg.outputNodeCount edge = r
  if edges = [] then [] else [(d.1, edges)]

theorem turns_sharder (d : MessageId × List (Transaction A)) :
    (bidirectionalSharder hash cfg).Turns d
      ((createEdgesByShard hash cfg d.2).items.length : ℤ)
      ((createEdgesByShard hash cfg d.2).items.map (edgeMessage cfg d.1)) := by
  intro state
  have hlength : ((createEdgesByShard hash cfg d.2).items.length : ℤ)
      = ((createEdgesByShard hash cfg d.2).items.map (edgeMessage cfg d.1)).length := by
    rw [List.length_map]
  rw [hlength]
  rfl

theorem shardPart_eq (hash : String → ℕ) (cfg : Config A) (r : ℕ)
    (d : MessageId × List (Transaction A)) :
    (((createEdgesByShard hash cfg d.2).items.map (edgeMessage cfg d.1)).filter
      fun m ↦ m.routingKey = some (cfg.routingKey r)).map (fun m ↦ (m.messageId, m.payload))
      = shardPart hash cfg r d := by
  have hkey : ((fun m : Message AccountEdge ↦ decide (m.routingKey = some (cfg.routingKey r)))
      ∘ edgeMessage cfg d.1) = fun p : ℕ × List AccountEdge ↦ decide (p.1 = r) := by
    funext p
    rw [Function.comp_apply, edgeMessage, decide_eq_decide, Option.some_inj]
    exact cfg.routingKey_injective.eq_iff
  rw [List.filter_map, hkey, Dict.filter_items, createEdgesByShard, Dict.get_groupBy, shardPart]
  by_cases h : (batchEdges d.2).filter (fun edge ↦ edgeShard hash cfg.outputNodeCount edge = r) = []
  · rw [if_pos h]
    exact congrArg (fun o : Option (List AccountEdge) ↦ (((o.map fun v ↦ (r, v)).toList.map
      (edgeMessage cfg d.1)).map fun m ↦ (m.messageId, m.payload))) (if_pos h)
  · rw [if_neg h]
    exact congrArg (fun o : Option (List AccountEdge) ↦ (((o.map fun v ↦ (r, v)).toList.map
      (edgeMessage cfg d.1)).map fun m ↦ (m.messageId, m.payload))) (if_neg h)

theorem flatMap_snd_shardPart (r : ℕ) (d : MessageId × List (Transaction A)) :
    (shardPart hash cfg r d).flatMap Prod.snd
      = (batchEdges d.2).filter fun edge ↦ edgeShard hash cfg.outputNodeCount edge = r := by
  unfold shardPart
  by_cases h : (batchEdges d.2).filter (fun edge ↦ edgeShard hash cfg.outputNodeCount edge = r) = []
  · simp only [h, if_true, List.flatMap_nil]
  · simp only [h, if_false, List.flatMap_cons, List.flatMap_nil, List.append_nil]

theorem map_fst_shardPart_sublist (r : ℕ) (order : List (MessageId × List (Transaction A))) :
    ((order.flatMap (shardPart hash cfg r)).map Prod.fst).Sublist (order.map Prod.fst) := by
  induction order with
  | nil => exact List.Sublist.refl _
  | cons d order ih =>
    have hone : ((shardPart hash cfg r d).map Prod.fst).Sublist [d.1] := by
      unfold shardPart
      by_cases h : (batchEdges d.2).filter
          (fun edge ↦ edgeShard hash cfg.outputNodeCount edge = r) = []
      · simp only [h, if_true, List.map_nil]
        exact List.nil_sublist _
      · simp only [h, if_false]
        exact List.Sublist.refl _
    rw [List.flatMap_cons, List.map_append, List.map_cons]
    exact hone.append ih

/-- **The sharders send every edge of every transaction to its shard.** -/
theorem sharders_sharded {batches : List (MessageId × List (Transaction A))}
    {assign : MessageId → ℕ} {output : ℕ → List (Message AccountEdge)}
    (hids : (batches.map Prod.fst).Nodup) (hassign : ∀ b ∈ batches, assign b.1 < n)
    (hruns : Runs (bidirectionalSharder hash cfg) client n (assigned assign batches) output) :
    Sharded n output cfg.routingKey (edgeShard hash cfg.outputNodeCount)
      (batches.flatMap fun b ↦ batchEdges b.2) := by
  obtain ⟨deliveries, hdelivers, hyields⟩ := hruns
  have horders : ∀ i, ∃ order : List (MessageId × List (Transaction A)), i < n →
      order.Perm (assigned assign batches i) ∧ output i = order.flatMap fun d ↦
        (createEdgesByShard hash cfg d.2).items.map (edgeMessage cfg d.1) := by
    intro i
    by_cases hi : i < n
    · obtain ⟨order, flushed, hperm, hout, hflush⟩ := hyields.exists_state
        (fun batch ↦ ((createEdgesByShard hash cfg batch).items.length : ℤ))
        (fun d ↦ (createEdgesByShard hash cfg d.2).items.map (edgeMessage cfg d.1))
        (fun _ _ d _ ↦ turns_sharder d) (fun i _ ↦ nodup_assigned hids i) hdelivers hi
      have hnil : flushed = [] := hflush
      rw [hnil, List.append_nil] at hout
      exact ⟨order, fun _ ↦ ⟨hperm, hout⟩⟩
    · exact ⟨[], fun hlt ↦ absurd hlt hi⟩
  choose orders horders using horders
  have hall : ((List.range n).flatMap orders).Perm batches :=
    (List.Perm.flatMap_left _ fun i hi ↦ (horders i (List.mem_range.mp hi)).1).trans
      (flatMap_assigned hassign)
  have hrouted : ∀ r, routed n output (cfg.routingKey r)
      = ((List.range n).flatMap orders).flatMap (shardPart hash cfg r) := by
    intro r
    rw [routed, List.flatMap_assoc]
    refine List.flatMap_congr fun i hi ↦ ?_
    rw [(horders i (List.mem_range.mp hi)).2, List.filter_flatMap, List.map_flatMap]
    exact List.flatMap_congr fun d _ ↦ shardPart_eq hash cfg r d
  refine ⟨fun r ↦ ?_, fun r ↦ ?_⟩
  · rw [hrouted]
    exact ((hall.map Prod.fst).nodup_iff.mpr hids).sublist (map_fst_shardPart_sublist r _)
  · rw [hrouted, List.flatMap_assoc, List.filter_flatMap]
    have hpart : ∀ d : MessageId × List (Transaction A), (shardPart hash cfg r d).flatMap Prod.snd
        = ((List.filter fun edge ↦ edgeShard hash cfg.outputNodeCount edge = r)
            ∘ fun b : MessageId × List (Transaction A) ↦ batchEdges b.2) d :=
      fun d ↦ flatMap_snd_shardPart r d
    rw [List.flatMap_congr fun d _ ↦ hpart d]
    exact hall.flatMap_right _

/-! ### The account frequency filters -/

/-- The other ends of the edges of an account in one direction. -/
def otherEnds (edges : List AccountEdge) (sends : Bool) (account : Account) : Finset Account :=
  ((edges.filter fun edge ↦ (edge.bank, edge.account) = account ∧ edge.isSender = sends).map
    fun edge ↦ (edge.otherBank, edge.otherAccount)).toFinset

theorem mem_otherEnds {edges : List AccountEdge} {sends : Bool} {account other : Account} :
    other ∈ otherEnds edges sends account ↔ AccountEdges.edgeOf account (sends, other) ∈ edges := by
  rw [otherEnds, List.mem_toFinset, List.mem_map]
  constructor
  · rintro ⟨edge, hedge, rfl⟩
    obtain ⟨hmem, hdecide⟩ := List.mem_filter.mp hedge
    obtain ⟨rfl, rfl⟩ := of_decide_eq_true hdecide
    exact hmem
  · intro h
    exact ⟨_, List.mem_filter.mpr ⟨h, decide_eq_true ⟨rfl, rfl⟩⟩, rfl⟩

section Edges

variable {edges : List AccountEdge} {output : ℕ → List (Message AccountEdge)}

/-- The account frequency filters turn round the edges of the accounts with enough of them. -/
theorem accountFilters_sharded {output' : ℕ → List (Message AccountEdge)} (hn : 0 < n)
    (hsharded : Sharded n₀ output key (edgeShard hash n) edges)
    (hruns : Runs (accountFrequencyFilter hash cfg) client n (fun r ↦ routed n₀ output (key r))
      output') :
    ∃ edges', Sharded n output' cfg.routingKey (edgeShard hash cfg.outputNodeCount) edges' ∧
      ∀ account sends other, AccountEdges.edgeOf other (sends, account) ∈ edges'
        ↔ AccountEdges.edgeOf account (!sends, other) ∈ edges ∧
          cfg.minRequiredAccounts ≤ (otherEnds edges (!sends) account).card := by
  obtain ⟨states, orders, houtput, hstates⟩ := exists_edge_states hsharded hruns
  have hflush : FlushesItems hash .accountEdgeBatch client
      (fun edge : AccountEdge ↦ accountKey edge.bank edge.account) n
        cfg.outputNodeCount cfg.batchSize
      cfg.routingKey (fun r ↦ (orders r).createEdges cfg.minRequiredAccounts) output' := houtput
  refine ⟨_, hflush.sharded cfg.routingKey_injective, fun account sends other ↦ ?_⟩
  -- the replica of the account holds all of its edges
  have hothers : ∀ r < n, shardOf hash (accountKey account.1 account.2) n = r →
      (states r).others (!sends) account = otherEnds edges (!sends) account := by
    intro r hr hshard
    ext other'
    rw [hstates r hr, mem_otherEnds]
    exact and_iff_left hshard
  rw [List.mem_flatMap]
  constructor
  · rintro ⟨r, hr, hmem⟩
    have hr' := List.mem_range.mp hr
    obtain ⟨hother, hcard⟩ := (orders r).mem_createEdges.mp hmem
    obtain ⟨hedge, hshard⟩ := (hstates r hr' _ _ _).mp hother
    exact ⟨hedge, hothers r hr' hshard ▸ hcard⟩
  · rintro ⟨hedge, hcard⟩
    have hr : shardOf hash (accountKey account.1 account.2) n < n := Nat.mod_lt _ hn
    refine ⟨_, List.mem_range.mpr hr, (orders _).mem_createEdges.mpr ?_⟩
    exact ⟨(hstates _ hr _ _ _).mpr ⟨hedge, rfl⟩, (hothers _ hr rfl).symm ▸ hcard⟩

/-! ### The path mappers -/

/-- The path mappers make the paths through an account between two different others. -/
theorem pathMappers_sharded {output' : ℕ → List (Message Path)} (hn : 0 < n)
    (hsharded : Sharded n₀ output key (edgeShard hash n) edges)
    (hruns : Runs (pathMapper hash cfg) client n (fun r ↦ routed n₀ output (key r)) output') :
    ∃ paths, Sharded n output' cfg.routingKey (pathShard hash cfg.outputNodeCount) paths ∧
      ∀ source mid target, AccountEdges.pathOf source mid target ∈ paths
        ↔ AccountEdges.edgeOf mid (false, source) ∈ edges ∧
          AccountEdges.edgeOf mid (true, target) ∈ edges ∧ source ≠ target := by
  obtain ⟨states, orders, houtput, hstates⟩ := exists_edge_states hsharded hruns
  have hflush : FlushesItems hash .pathBatch client pathKey n cfg.outputNodeCount cfg.batchSize
      cfg.routingKey (fun r ↦ (orders r).createPaths) output' := houtput
  refine ⟨_, hflush.sharded cfg.routingKey_injective, fun source mid target ↦ ?_⟩
  rw [List.mem_flatMap]
  constructor
  · rintro ⟨r, hr, hmem⟩
    have hr' := List.mem_range.mp hr
    obtain ⟨hsource, htarget, hne⟩ := (orders r).mem_createPaths.mp hmem
    exact ⟨((hstates r hr' _ _ _).mp hsource).1, ((hstates r hr' _ _ _).mp htarget).1, hne⟩
  · rintro ⟨hsource, htarget, hne⟩
    have hr : shardOf hash (accountKey mid.1 mid.2) n < n := Nat.mod_lt _ hn
    refine ⟨_, List.mem_range.mpr hr, (orders _).mem_createPaths.mpr ?_⟩
    exact ⟨(hstates _ hr _ _ _).mpr ⟨hsource, rfl⟩, (hstates _ hr _ _ _).mpr ⟨htarget, rfl⟩, hne⟩

end Edges

/-! ### The path frequency filters -/

/-- The accounts in the middle of the paths between two accounts. -/
def pathMids (paths : List Path) (source target : Account) : Finset Account :=
  ((paths.filter fun path ↦ (path.fromBank, path.fromAccount) = source ∧
    (path.toBank, path.toAccount) = target).map fun path ↦ (path.midBank, path.midAccount)).toFinset

theorem mem_pathMids {paths : List Path} {source mid target : Account} :
    mid ∈ pathMids paths source target ↔ AccountEdges.pathOf source mid target ∈ paths := by
  rw [pathMids, List.mem_toFinset, List.mem_map]
  constructor
  · rintro ⟨path, hpath, rfl⟩
    obtain ⟨hmem, hdecide⟩ := List.mem_filter.mp hpath
    obtain ⟨rfl, rfl⟩ := of_decide_eq_true hdecide
    exact hmem
  · intro h
    exact ⟨_, List.mem_filter.mpr ⟨h, decide_eq_true ⟨rfl, rfl⟩⟩, rfl⟩

/-- The path frequency filters report the ends of the pairs with enough accounts in the middle. -/
theorem pathFilters_sharded {paths : List Path} {output : ℕ → List (Message Path)}
    {output' : ℕ → List (Message Q4Result)} (hn : 0 < n) (hk : 0 < cfg.minRequiredAccounts)
    (hsharded : Sharded n₀ output key (pathShard hash n) paths)
    (hruns : Runs (pathFrequencyFilter hash cfg) client n
      (fun r ↦ routed n₀ output (key r)) output') :
    ∃ results, Sharded n output' cfg.routingKey (resultShard hash cfg.outputNodeCount) results ∧
      ∀ result : Q4Result, result ∈ results ↔ ∃ source target,
        cfg.minRequiredAccounts ≤ (pathMids paths source target).card ∧
          ((result.bank, result.account) = source ∨ (result.bank, result.account) = target) := by
  obtain ⟨deliveries, hdelivers, hyields⟩ := hruns
  -- all paths between two ends have the same shard
  obtain ⟨states, hstates⟩ := hyields.exists_states (fun delta : List Path ↦ delta)
    (fun r (s : PathMids) ↦ ∀ source mid target, mid ∈ s.mids source target
      ↔ AccountEdges.pathOf source mid target ∈ paths ∧
        pathShard hash n (AccountEdges.pathOf source mid target) = r)
    (fun _ _ _ _ _ ↦ rfl) (fun r _ ↦ hsharded.nodup r) hdelivers
    (fun r _ order hperm source mid target ↦
      PathMids.mem_mids_foldl.trans (mem_flatMap_order hsharded hperm))
  have hflush : FlushesItems hash .q4ResultBatch client
      (fun result : Q4Result ↦ accountKey result.bank result.account) n cfg.outputNodeCount
      cfg.batchSize cfg.routingKey (fun r ↦ (states r).createResults cfg.minRequiredAccounts)
      output' := fun r hr ↦ (hstates r hr).2
  refine ⟨_, hflush.sharded cfg.routingKey_injective, fun result ↦ ?_⟩
  rw [List.mem_flatMap]
  constructor
  · rintro ⟨r, hr, hmem⟩
    obtain ⟨source, target, hcard, hresult⟩ := (PathMids.mem_createResults hk).mp hmem
    refine ⟨source, target, hcard.trans (Finset.card_le_card fun mid hmid ↦ ?_), hresult⟩
    exact mem_pathMids.mpr (((hstates r (List.mem_range.mp hr)).1 _ _ _).mp hmid).1
  · rintro ⟨source, target, hcard, hresult⟩
    have hr : pathShard hash n (AccountEdges.pathOf source source target) < n := Nat.mod_lt _ hn
    refine ⟨_, List.mem_range.mpr hr, (PathMids.mem_createResults hk).mpr
      ⟨source, target, hcard.trans (Finset.card_le_card fun mid hmid ↦ ?_), hresult⟩⟩
    exact ((hstates _ hr).1 _ _ _).mpr ⟨mem_pathMids.mp hmid, rfl⟩

/-! ### The duplicate account filters -/

/-- The duplicate account filters together send each account they are sent once. -/
theorem duplicateFilters_send {results : List Q4Result}
    {output output' : ℕ → List (Message Q4Result)}
    (hn : 0 < n) (hsharded : Sharded n₀ output key (resultShard hash n) results)
    (hruns : Runs (duplicateAccountFilter hash cfg) client n (fun r ↦ routed n₀ output (key r))
      output') :
    ((List.range n).flatMap fun r ↦ (output' r).flatMap Message.payload).Nodup ∧
      ∀ result, result ∈ (List.range n).flatMap (fun r ↦ (output' r).flatMap Message.payload)
        ↔ result ∈ results := by
  obtain ⟨deliveries, hdelivers, hyields⟩ := hruns
  obtain ⟨states, hstates⟩ := hyields.exists_states
    (fun batch : List Q4Result ↦ batch.map fun account ↦ (account.bank, account.account))
    (fun r (s : UniqueAccounts) ↦ ∀ result, result ∈ s.accounts.values
      ↔ result ∈ results ∧ resultShard hash n result = r)
    (fun _ _ _ _ _ ↦ rfl) (fun r _ ↦ hsharded.nodup r) hdelivers
    (fun r _ order hperm result ↦
      UniqueAccounts.mem_values_foldl.trans (mem_flatMap_order hsharded hperm))
  have hflush : FlushesItems hash .q4ResultBatch client
      (fun result : Q4Result ↦ accountKey result.bank result.account) n 1 cfg.batchSize
      (fun _ ↦ client) (fun r ↦ (states r).accounts.values) output' := fun r hr ↦ (hstates r hr).2
  have hall := flatMap_payload_routed hflush
  constructor
  · rw [hall.nodup_iff, List.nodup_flatMap]
    refine ⟨fun r _ ↦ (states r).nodup_values, ?_⟩
    refine List.nodup_range.imp_of_mem fun {r r'} hr hr' hne ↦ ?_
    rw [Function.onFun, List.disjoint_left]
    intro result hmem hmem'
    have hshard := (((hstates r (List.mem_range.mp hr)).1 result).mp hmem).2
    have hshard' := (((hstates r' (List.mem_range.mp hr')).1 result).mp hmem').2
    exact hne (hshard.symm.trans hshard')
  · intro result
    rw [hall.mem_iff, List.mem_flatMap]
    constructor
    · rintro ⟨r, hr, hmem⟩
      exact (((hstates r (List.mem_range.mp hr)).1 result).mp hmem).1
    · intro hmem
      have hr : resultShard hash n result < n := Nat.mod_lt _ hn
      exact ⟨_, List.mem_range.mpr hr, ((hstates _ hr).1 result).mpr ⟨hmem, rfl⟩⟩

end Stages

end MoneyLaundering
