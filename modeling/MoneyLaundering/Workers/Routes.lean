import MoneyLaundering.Workers.Mappers

/-!
# Every route, every time

Each of the six stateless workers sends one message on each of its routes for each message it takes:
also when the batch is empty, when nothing of it passes the filter, and when nothing of it is for
that route. `preserves_announced_count` says that this keeps the announced counts right, for any
number of replicas.
-/

namespace MoneyLaundering

variable {A : Type} {lib : Library A} {hash : String → ℕ}

/-! ## Addresses -/

theorem shardOf_lt {n : ℕ} (h : 0 < n) (key : String) : shardOf hash key n < n := Nat.mod_lt _ h

namespace Route

/-- The key of the first node, which the ends of streams go to. -/
theorem copies_sharded_zero {middleware : Middleware} {nodeCount : ℕ} (h : 0 < nodeCount) :
    (sharded hash middleware nodeCount).copies ⟨middleware, some "0"⟩ = 1 :=
  copies_sharded middleware h

theorem copies_sharded_shardOf {middleware : Middleware} {nodeCount : ℕ} (h : 0 < nodeCount)
    (messageId : MessageId) : (sharded hash middleware nodeCount).copies
      ⟨middleware, some (toString (shardOf hash messageId nodeCount))⟩ = 1 :=
  copies_sharded middleware (shardOf_lt h messageId)

/-- Of some messages, the route gets the one that is meant for it. -/
theorem keysOf_eq_singleton {r : Route} {addresses : List Address} (hnd : addresses.Nodup)
    {address : Address} (hmem : address ∈ addresses) (hcopies : r.copies address = 1)
    (hother : ∀ a ∈ addresses, a ≠ address → r.copies a = 0) :
    r.keysOf addresses = [address.routingKey] := by
  induction addresses with
  | nil => exact absurd hmem List.not_mem_nil
  | cons a addresses ih =>
    obtain ⟨ha, hnd⟩ := List.nodup_cons.mp hnd
    rw [keysOf_cons]
    rcases List.mem_cons.mp hmem with rfl | hin
    · have hrest : r.keysOf addresses = [] := List.flatMap_eq_nil_iff.mpr fun a' ha' ↦ by
        have hne : a' ≠ address := fun heq ↦ ha (heq ▸ ha')
        rw [hother a' (List.mem_cons_of_mem _ ha') hne, List.replicate_zero]
      rw [hrest, hcopies]
      rfl
    · have hne : a ≠ address := fun heq ↦ ha (heq ▸ hin)
      rw [hother a List.mem_cons_self hne, List.replicate_zero, List.nil_append,
        ih hnd hin fun a' ha' ↦ hother a' (List.mem_cons_of_mem _ ha')]

/-- The messages go to different exchanges and queues. -/
theorem keysOf_eq_of_middleware {r : Route} {addresses : List Address}
    (hnd : (addresses.map Address.middleware).Nodup) {address : Address}
    (hmem : address ∈ addresses) (hmiddleware : address.middleware = r.middleware)
    (hcopies : r.copies address = 1) : r.keysOf addresses = [address.routingKey] :=
  keysOf_eq_singleton hnd.of_map hmem hcopies fun _ ha hne ↦ copies_of_ne fun heq ↦
    hne (List.inj_on_of_nodup_map hnd ha hmem (heq.trans hmiddleware.symm))

/-- The messages go to different consumers at one exchange. -/
theorem keysOf_single {middleware : Middleware} {keys : List String} (hnd : keys.Nodup)
    {key : String} (hkey : key ∈ keys) :
    (single middleware key).keysOf (keys.map fun k ↦ ⟨middleware, some k⟩) = [some key] := by
  have hinj : Function.Injective fun k : String ↦ (⟨middleware, some k⟩ : Address) := fun k k' h ↦
    Option.some.inj (Address.mk.inj h).2
  refine keysOf_eq_singleton (hnd.map hinj) (List.mem_map_of_mem hkey) ?_ fun a ha hne ↦ ?_
  · rw [copies_single, if_pos rfl]
  · obtain ⟨k, -, rfl⟩ := List.mem_map.mp ha
    rw [copies_single, if_neg fun heq ↦ hne (by rw [heq])]

end Route


theorem exists_of_mem_mapM {α β : Type} {f : α → Option β} {l : List α} {l' : List β}
    (h : l.mapM f = some l') {b : β} (hb : b ∈ l') : ∃ a ∈ l, f a = some b := by
  induction l generalizing l' with
  | nil =>
    obtain rfl := Option.some.inj h
    exact absurd hb List.not_mem_nil
  | cons a l ih =>
    simp only [List.mapM_cons, Option.bind_eq_bind, Option.bind_eq_some_iff] at h
    obtain ⟨b', hb', rest, hrest, hl'⟩ := h
    obtain rfl := Option.some.inj hl'
    rcases List.mem_cons.mp hb with rfl | hb
    · exact ⟨a, List.mem_cons_self, hb'⟩
    · obtain ⟨a', ha', hfa'⟩ := ih hrest hb
      exact ⟨a', List.mem_cons_of_mem _ ha', hfa'⟩

/-! ## The workers -/

namespace TransactionsFieldMapper

theorem exists_parse {raw : String} (h : WellFormed lib raw) : parse lib raw ≠ none := by
  have hfields := h.fields
  have hget : ∀ i, i < 10 → ∃ text, (fieldsOf raw)[i]? = some text := fun i hi ↦
    ⟨_, List.getElem?_eq_getElem (hi.trans_le hfields)⟩
  obtain ⟨text₀, h₀⟩ := hget 0 (by omega)
  obtain ⟨text₇, h₇⟩ := hget 7 (by omega)
  obtain ⟨timestamp, htimestamp⟩ := Option.ne_none_iff_exists'.mp (h.timestamp text₀ h₀)
  obtain ⟨amount, hamount⟩ := Option.ne_none_iff_exists'.mp (h.amount text₇ h₇)
  obtain ⟨text₁, h₁⟩ := hget 1 (by omega)
  obtain ⟨text₂, h₂⟩ := hget 2 (by omega)
  obtain ⟨text₃, h₃⟩ := hget 3 (by omega)
  obtain ⟨text₄, h₄⟩ := hget 4 (by omega)
  obtain ⟨text₈, h₈⟩ := hget 8 (by omega)
  obtain ⟨text₉, h₉⟩ := hget 9 (by omega)
  simp [parse, h₀, h₁, h₂, h₃, h₄, h₇, h₈, h₉, htimestamp, hamount]

theorem complete_of_parse {raw : String} {tx : Transaction A} (h : parse lib raw = some tx) :
    tx.complete = true := by
  simp only [parse, Option.bind_eq_bind, Option.bind_eq_some_iff] at h
  obtain ⟨_, -, _, -, _, -, _, -, _, -, _, -, _, -, _, -, h⟩ := h
  rw [← Option.some.inj h]
  rfl

/-- The addresses of the three messages for a batch. -/
def addresses (hash : String → ℕ) (cfg : Config) (messageId : MessageId) : List Address :=
  [⟨.exchange cfg.outputExchange, some cfg.outputRoutingKeyUsd⟩,
    ⟨.exchange cfg.outputExchange, some cfg.outputRoutingKeyAll⟩,
    ⟨.exchange cfg.bankMaxExchange,
      some (toString (shardOf hash messageId cfg.bankMaxNodeCount))⟩]

theorem forwards (cfg : Config) :
    Forwards (worker lib hash cfg) (WellFormed lib) (fun _ ↦ routes hash cfg)
      fun _ ↦ addresses hash cfg := by
  have hne : Middleware.exchange cfg.outputExchange ≠ .exchange cfg.bankMaxExchange := fun h ↦
    cfg.exchange_ne (Middleware.exchange.inj h)
  refine Forwards.of_sendAll (fun payload ↦ payload.mapM (parse lib))
    (fun _ ↦ [⟨.exchange cfg.outputExchange, some cfg.outputRoutingKeyEof⟩,
      ⟨.exchange cfg.bankMaxExchange, some bankMaxEofShard⟩])
    .eof (finalEofId · · none) (fun _ _ _ ↦ rfl) (fun items hitems ↦ ?_) (fun _ _ _ ↦ rfl) ?_ ?_
      (fun _ _ ↦ rfl)
    (fun _ ↦ rfl) ?_
  · obtain ⟨txs, htxs⟩ := exists_mapM fun raw hraw ↦ exists_parse (hitems raw hraw)
    have hcomplete : ∀ tx ∈ txs, tx.complete = true := fun tx htx ↦ by
      obtain ⟨raw, -, hraw⟩ := exists_of_mem_mapM htxs htx
      exact complete_of_parse hraw
    refine ⟨txs, htxs, fun messageId client output houtput ↦ ?_⟩
    have husd : (txs.filter (isUsd lib cfg)).all Transaction.complete = true :=
      List.all_eq_true.mpr fun tx htx ↦ hcomplete tx (List.mem_of_mem_filter htx)
    simp only [List.mem_cons, List.not_mem_nil, or_false] at houtput
    rcases houtput with rfl | rfl | rfl
    · exact husd
    · exact List.all_eq_true.mpr hcomplete
    · exact husd
  · intro messageId client txs output houtput
    simp only [List.mem_cons, List.not_mem_nil, or_false] at houtput
    rcases houtput with rfl | rfl | rfl <;> rfl
  · intro client r hr messageId
    simp only [routes, List.mem_cons, List.not_mem_nil, or_false] at hr
    rcases hr with rfl | rfl | rfl
    · rw [addresses, Route.keysOf_cons, Route.keysOf_cons, Route.keysOf_cons,
        Route.copies_bound_data, Route.copies_bound_of_ne _ cfg.usd_ne_all.symm cfg.eof_ne_all.symm,
        Route.copies_of_ne hne.symm]
      rfl
    · rw [addresses, Route.keysOf_cons, Route.keysOf_cons, Route.keysOf_cons,
        Route.copies_bound_of_ne _ cfg.usd_ne_all cfg.eof_ne_usd.symm, Route.copies_bound_data,
        Route.copies_of_ne hne.symm]
      rfl
    · rw [addresses, Route.keysOf_cons, Route.keysOf_cons, Route.keysOf_cons,
        Route.copies_of_ne hne, Route.copies_of_ne hne,
        Route.copies_sharded_shardOf cfg.nodeCount_pos]
      rfl
  · intro client r hr
    simp only [routes, List.mem_cons, List.not_mem_nil, or_false] at hr
    rcases hr with rfl | rfl | rfl
    · rw [Route.keysOf_cons, Route.keysOf_cons, Route.copies_bound_eof, Route.copies_of_ne hne.symm]
      rfl
    · rw [Route.keysOf_cons, Route.keysOf_cons, Route.copies_bound_eof, Route.copies_of_ne hne.symm]
      rfl
    · rw [Route.keysOf_cons, Route.keysOf_cons, Route.copies_of_ne hne, bankMaxEofShard,
        Route.copies_sharded_zero cfg.nodeCount_pos]
      rfl

end TransactionsFieldMapper

namespace AccountsFieldMapper

theorem parseAccount_ne_none {raw : String} (h : WellFormed raw) : parseAccount raw ≠ none := by
  rw [WellFormed, fieldsOf, List.length_map] at h
  rw [parseAccount]
  match hsplit : raw.toList.splitOn ',' with
  | [] => simp [hsplit] at h
  | [_] => simp [hsplit] at h
  | _ :: _ :: _ => exact Option.some_ne_none _

/-- The routing keys of the bank mappers. -/
def keys (cfg : Config) : List String :=
  (List.range cfg.outputNodeCount).map fun node ↦ outputPrefixRoutingKey cfg (toString node)

theorem nodup_keys (cfg : Config) : (keys cfg).Nodup :=
  List.nodup_range.map fun _ _ h ↦ natToString_injective (String.append_right_inj _ |>.mp h)

theorem routes_eq (cfg : Config) :
    routes cfg = (keys cfg).map (Route.single (.exchange cfg.outputExchange)) := by
  rw [routes, keys, List.map_map]
  rfl

theorem forwards (A : Type) (cfg : Config) :
    Forwards (worker hash A cfg) WellFormed (fun _ ↦ routes cfg)
      fun _ _ ↦ (keys cfg).map fun key ↦ ⟨.exchange cfg.outputExchange, some key⟩ := by
  have hkeys : ∀ r ∈ routes cfg, ∀ messageId, r.keysOf
      ((keys cfg).map fun key ↦ ⟨.exchange cfg.outputExchange, some key⟩) = [r.key messageId] := by
    intro r hr messageId
    rw [routes_eq] at hr
    obtain ⟨key, hkey, rfl⟩ := List.mem_map.mp hr
    exact Route.keysOf_single (nodup_keys cfg) hkey
  refine Forwards.of_sendAll (fun payload ↦ payload.mapM parseAccount)
    (fun _ ↦ (keys cfg).map fun key ↦ ⟨.exchange cfg.outputExchange, some key⟩)
    .eof (finalEofId · · none) (fun _ _ _ ↦ rfl) (fun items hitems ↦ ?_)
      (fun messageId client banks ↦ ?_) ?_
    (fun _ ↦ hkeys) (fun client eof ↦ ?_) (fun _ ↦ rfl) (fun client r hr ↦ ?_)
  · obtain ⟨banks, hbanks⟩ := exists_mapM fun raw hraw ↦ parseAccount_ne_none (hitems raw hraw)
    refine ⟨banks, hbanks, fun messageId client output houtput ↦ ?_⟩
    obtain ⟨node, -, rfl⟩ := List.mem_map.mp houtput
    rfl
  · rw [keys, List.map_map, List.map_map]
    rfl
  · intro messageId client banks output houtput
    obtain ⟨node, -, rfl⟩ := List.mem_map.mp houtput
    rfl
  · -- the routing keys of the configuration are the ids of the bank mappers
    change sendFinalEof cfg client eof = _
    rw [sendFinalEof, cfg.routingKeys_eq, keys, List.map_map, List.map_map, List.map_map]
    rfl
  · rw [hkeys r hr ""]
    rfl

end AccountsFieldMapper

namespace DateFilter

theorem exists_classifyTransaction (cfg : Config) {tx : Transaction A} (h : tx.complete = true) :
    (classifyTransaction lib cfg tx).map (fun keys ↦ (tx, keys)) ≠ none := by
  simp only [Transaction.complete, Bool.and_eq_true, Option.isSome_iff_exists] at h
  obtain ⟨⟨⟨⟨⟨⟨⟨⟨timestamp, htimestamp⟩, -⟩, -⟩, -⟩, -⟩, -⟩, ⟨currency, hcurrency⟩⟩, -⟩ := h
  rw [Ne, Option.map_eq_none_iff, classifyTransaction, hcurrency, htimestamp]
  simp only [Option.bind_eq_bind, Option.bind_some]
  split
  · exact Option.some_ne_none _
  · split <;> exact Option.some_ne_none _

theorem all_complete_transactionsByRoutingKey {classified : List (Transaction A × List String)}
    (h : ∀ p ∈ classified, p.1.complete = true) (key : String) :
    (transactionsByRoutingKey classified key).all Transaction.complete = true := by
  refine List.all_eq_true.mpr fun tx htx ↦ ?_
  obtain ⟨p, hp, hmem⟩ := List.mem_flatMap.mp htx
  obtain ⟨-, -, rfl⟩ := List.mem_map.mp hmem
  exact h p hp

/-- The addresses of the four messages for a batch. -/
def addresses (hash : String → ℕ) (cfg : Config) (messageId : MessageId) : List Address :=
  [⟨.queue cfg.outputQueue, none⟩,
    ⟨.exchange cfg.bidirectionalSharderExchange,
      shardRoutingKey hash messageId cfg.bidirectionalSharderNodeCount⟩,
    ⟨.exchange cfg.anomalyFilterExchange,
      shardRoutingKey hash messageId cfg.anomalyFilterNodeCount⟩,
    ⟨.exchange cfg.paymentFormatAggregatorExchange,
      shardRoutingKey hash messageId cfg.paymentFormatAggregatorNodeCount⟩]

/-- The addresses of the ends of streams. -/
def eofAddresses (cfg : Config) : List Address :=
  [⟨.queue cfg.outputQueue, none⟩, ⟨.exchange cfg.paymentFormatAggregatorExchange, some eofShard⟩,
    ⟨.exchange cfg.bidirectionalSharderExchange, some eofShard⟩,
    ⟨.exchange cfg.anomalyFilterExchange, some eofShard⟩]

theorem keysOf_routes (cfg : Config) {r : Route} (hr : r ∈ routes hash cfg)
    (messageId : MessageId) : r.keysOf (addresses hash cfg messageId) = [r.key messageId] ∧
      (r.keysOf (eofAddresses cfg)).length = 1 := by
  have hnd := cfg.exchanges
  have hdata : ((addresses hash cfg messageId).map Address.middleware).Nodup := by
    simp only [List.nodup_cons, List.mem_cons, List.not_mem_nil, or_false, not_or] at hnd
    simp [addresses, Ne.symm hnd.1.1, Ne.symm hnd.1.2, hnd.2.1]
  have heof : ((eofAddresses cfg).map Address.middleware).Nodup := by
    simp only [List.nodup_cons, List.mem_cons, List.not_mem_nil, or_false, not_or] at hnd
    simp [eofAddresses, hnd.1.1, hnd.1.2, hnd.2.1]
  -- a route that is sent to under these two addresses
  have hroute : ∀ address ∈ addresses hash cfg messageId, ∀ address' ∈ eofAddresses cfg,
      address.middleware = r.middleware → address'.middleware = r.middleware →
      r.copies address = 1 → r.copies address' = 1 → address.routingKey = r.key messageId →
      r.keysOf (addresses hash cfg messageId) = [r.key messageId] ∧
        (r.keysOf (eofAddresses cfg)).length = 1 := by
    intro address hmem address' hmem' hm hm' hcopies hcopies' hkey
    rw [Route.keysOf_eq_of_middleware hdata hmem hm hcopies, hkey,
      Route.keysOf_eq_of_middleware heof hmem' hm' hcopies']
    exact ⟨rfl, rfl⟩
  simp only [routes, List.mem_cons, List.not_mem_nil, or_false] at hr
  rcases hr with rfl | rfl | rfl | rfl
  · exact hroute ⟨.queue cfg.outputQueue, none⟩ (by simp [addresses]) _ (by simp [eofAddresses])
      rfl rfl (Route.copies_direct _) (Route.copies_direct _) rfl
  · exact hroute
      ⟨.exchange cfg.bidirectionalSharderExchange,
        shardRoutingKey hash messageId cfg.bidirectionalSharderNodeCount⟩ (by simp [addresses])
      ⟨.exchange cfg.bidirectionalSharderExchange, some eofShard⟩ (by simp [eofAddresses]) rfl rfl
      (Route.copies_sharded_shardOf cfg.sharders_pos messageId)
      (Route.copies_sharded_zero cfg.sharders_pos) rfl
  · exact hroute
      ⟨.exchange cfg.anomalyFilterExchange,
        shardRoutingKey hash messageId cfg.anomalyFilterNodeCount⟩ (by simp [addresses])
      ⟨.exchange cfg.anomalyFilterExchange, some eofShard⟩ (by simp [eofAddresses]) rfl rfl
      (Route.copies_sharded_shardOf cfg.filters_pos messageId)
      (Route.copies_sharded_zero cfg.filters_pos) rfl
  · exact hroute
      ⟨.exchange cfg.paymentFormatAggregatorExchange,
        shardRoutingKey hash messageId cfg.paymentFormatAggregatorNodeCount⟩ (by simp [addresses])
      ⟨.exchange cfg.paymentFormatAggregatorExchange, some eofShard⟩
        (by simp [eofAddresses]) rfl rfl
      (Route.copies_sharded_shardOf cfg.aggregators_pos messageId)
      (Route.copies_sharded_zero cfg.aggregators_pos) rfl

theorem forwards (cfg : Config) :
    Forwards (worker lib hash cfg) (fun tx ↦ tx.complete = true) (fun _ ↦ routes hash cfg)
      fun _ ↦ addresses hash cfg := by
  refine Forwards.of_sendAll (fun payload ↦ payload.mapM fun tx ↦
      (classifyTransaction lib cfg tx).map fun keys ↦ (tx, keys))
    (fun _ ↦ eofAddresses cfg) .eof (finalEofId · · none) (fun _ _ _ ↦ rfl)
    (fun items hitems ↦ ?_) (fun _ _ _ ↦ rfl) ?_
    (fun _ r hr messageId ↦ (keysOf_routes cfg hr messageId).1) (fun _ _ ↦ rfl) (fun _ ↦ rfl)
    (fun _ r hr ↦ (keysOf_routes cfg hr "").2)
  · obtain ⟨classified, hclassified⟩ := exists_mapM fun tx htx ↦
      exists_classifyTransaction cfg (hitems tx htx)
    have hcomplete : ∀ p ∈ classified, p.1.complete = true := fun p hp ↦ by
      obtain ⟨tx, htx, heq⟩ := exists_of_mem_mapM hclassified hp
      obtain ⟨keys, -, rfl⟩ := Option.map_eq_some_iff.mp heq
      exact hitems tx htx
    refine ⟨classified, hclassified, fun messageId client output houtput ↦ ?_⟩
    simp only [List.mem_cons, List.not_mem_nil, or_false] at houtput
    rcases houtput with rfl | rfl | rfl | rfl <;>
      exact all_complete_transactionsByRoutingKey hcomplete _
  · intro messageId client classified output houtput
    simp only [List.mem_cons, List.not_mem_nil, or_false] at houtput
    rcases houtput with rfl | rfl | rfl | rfl <;> rfl

end DateFilter

namespace PaymentFormatFilter

theorem forwards (cfg : Config) :
    Forwards (worker lib cfg) (fun _ ↦ True) (fun _ ↦ routes cfg)
      fun _ _ ↦ [⟨.queue cfg.outputQueue, none⟩] := by
  have hkeys : ∀ r ∈ routes cfg, r.keysOf [⟨.queue cfg.outputQueue, none⟩] = [none] ∧
      ∀ messageId, r.key messageId = none := by
    intro r hr
    rw [List.mem_singleton.mp hr, Route.keysOf_cons, Route.copies_direct]
    exact ⟨rfl, fun _ ↦ rfl⟩
  refine Forwards.of_sendAll some (fun _ ↦ [⟨.queue cfg.outputQueue, none⟩]) .eof
    (finalEofId · · none) (fun _ _ _ ↦ rfl) (fun items _ ↦ ⟨items, rfl, ?_⟩) (fun _ _ _ ↦ rfl) ?_
    (fun _ r hr messageId ↦ ?_) (fun _ _ ↦ rfl) (fun _ ↦ rfl) (fun _ r hr ↦ ?_)
  · intro messageId client output houtput
    rw [List.mem_singleton.mp houtput]
    rfl
  · intro messageId client items output houtput
    rw [List.mem_singleton.mp houtput]
    rfl
  · rw [(hkeys r hr).1, (hkeys r hr).2]
  · rw [(hkeys r hr).1]
    rfl

end PaymentFormatFilter

namespace CurrencyMapper

variable [Mul A] [Div A] [Zero A] [OfScientific A] [DecidableEq A]

theorem resolveRate_ne_none {cfg : Config} {entries : List (String × String × A)}
    {transaction : TransactionForCurrencyConversion A}
    (h : WellFormed lib cfg entries transaction) :
    resolveRate lib cfg (fetchRates entries) transaction.amount transaction.currency
      transaction.timestamp ≠ none := by
  obtain ⟨date, hdate, hrate⟩ := h
  simp [resolveRate, hdate, hrate]

theorem forwards (cfg : Config) (entries : List (String × String × A)) :
    Forwards (worker lib hash cfg entries) (WellFormed lib cfg entries) (fun _ ↦ routes hash cfg)
      fun _ messageId ↦ [⟨.exchange cfg.outputExchange,
        some (toString (shardOf hash messageId cfg.outputNodeCount))⟩] := by
  refine Forwards.of_sendAll (fun payload ↦ payload.mapM fun transaction ↦
      (resolveRate lib cfg (fetchRates entries) transaction.amount transaction.currency
        transaction.timestamp).map TransactionAmount.mk)
    (fun _ ↦ [⟨.exchange cfg.outputExchange, some eofShard⟩]) .eof (finalEofId · · none)
    (fun _ _ _ ↦ rfl) (fun items hitems ↦ ?_) (fun _ _ _ ↦ rfl) ?_ (fun _ r hr messageId ↦ ?_)
    (fun _ _ ↦ rfl) (fun _ ↦ rfl) (fun _ r hr ↦ ?_)
  · obtain ⟨converted, hconverted⟩ := exists_mapM fun transaction htransaction ↦
      mt Option.map_eq_none_iff.mp (resolveRate_ne_none (hitems transaction htransaction))
    refine ⟨converted, hconverted, fun messageId client output houtput ↦ ?_⟩
    rw [List.mem_singleton.mp houtput]
    rfl
  · intro messageId client converted output houtput
    rw [List.mem_singleton.mp houtput]
    rfl
  · rw [List.mem_singleton.mp hr, Route.keysOf_cons,
      Route.copies_sharded_shardOf cfg.nodeCount_pos]
    rfl
  · rw [List.mem_singleton.mp hr, Route.keysOf_cons, eofShard,
      Route.copies_sharded_zero cfg.nodeCount_pos]
    rfl

end CurrencyMapper

namespace AmountFilter

variable [LT A] [DecidableLT A]

theorem forwards (cfg : Config A) :
    Forwards (worker cfg) (fun _ ↦ True) (routes cfg)
      fun client _ ↦ [⟨.exchange cfg.outputExchange, some client⟩] := by
  have hkeys : ∀ client, ∀ r ∈ routes cfg client,
      r.keysOf [⟨.exchange cfg.outputExchange, some client⟩] = [some client] ∧
        ∀ messageId, r.key messageId = some client := by
    intro client r hr
    rw [List.mem_singleton.mp hr, Route.keysOf_cons, Route.copies_single, if_pos rfl]
    exact ⟨rfl, fun _ ↦ rfl⟩
  refine Forwards.of_sendAll some (fun client ↦ [⟨.exchange cfg.outputExchange, some client⟩])
    (fun eof ↦ .queryEnd cfg.queryId eof.messageCount)
    (fun client eof ↦ finalEofId client eof (some (toString cfg.queryId)))
    (fun _ _ _ ↦ rfl) (fun items _ ↦ ⟨items, rfl, ?_⟩) (fun _ _ _ ↦ rfl) ?_
    (fun client r hr messageId ↦ ?_) (fun _ _ ↦ rfl) (fun _ ↦ rfl) (fun client r hr ↦ ?_)
  · intro messageId client output houtput
    rw [List.mem_singleton.mp houtput]
    rfl
  · intro messageId client items output houtput
    rw [List.mem_singleton.mp houtput]
    rfl
  · rw [(hkeys client r hr).1, (hkeys client r hr).2]
  · rw [(hkeys client r hr).1]
    rfl

end AmountFilter

/-! ## All of them -/

/-- The stateless stages, with their configurations. -/
inductive StatelessStage (A : Type)
  | transactionsFieldMapper (cfg : TransactionsFieldMapper.Config)
  | accountsFieldMapper (cfg : AccountsFieldMapper.Config)
  | dateFilter (cfg : DateFilter.Config)
  | paymentFormatFilter (cfg : PaymentFormatFilter.Config)
  /-- The entries are what the service of the rates answered with. -/
  | currencyMapper (cfg : CurrencyMapper.Config) (entries : List (String × String × A))
  | amountFilter (cfg : AmountFilter.Config A)

namespace StatelessStage

variable [Mul A] [Div A] [Zero A] [OfScientific A] [DecidableEq A] [LT A] [DecidableLT A]

def worker (lib : Library A) (hash : String → ℕ) : StatelessStage A → StatelessWorker A
  | transactionsFieldMapper cfg => TransactionsFieldMapper.worker lib hash cfg
  | accountsFieldMapper cfg => AccountsFieldMapper.worker hash A cfg
  | dateFilter cfg => DateFilter.worker lib hash cfg
  | paymentFormatFilter cfg => PaymentFormatFilter.worker lib cfg
  | currencyMapper cfg entries => CurrencyMapper.worker lib hash cfg entries
  | amountFilter cfg => AmountFilter.worker cfg

/-- The records that a stage can handle. The two filters by payment format and by amount take
any. -/
def WellFormed (lib : Library A) (hash : String → ℕ) :
    (stage : StatelessStage A) → (stage.worker lib hash).Item → Prop
  | transactionsFieldMapper _ => TransactionsFieldMapper.WellFormed lib
  | accountsFieldMapper _ => AccountsFieldMapper.WellFormed
  | dateFilter _ => fun tx : Transaction A ↦ tx.complete = true
  | paymentFormatFilter _ => fun _ ↦ True
  | currencyMapper cfg entries => CurrencyMapper.WellFormed lib cfg entries
  | amountFilter _ => fun _ ↦ True

omit [Mul A] [Div A] [Zero A] [OfScientific A] [DecidableEq A] [LT A] [DecidableLT A] in
def routes (hash : String → ℕ) : StatelessStage A → ClientId → List Route
  | transactionsFieldMapper cfg => fun _ ↦ TransactionsFieldMapper.routes hash cfg
  | accountsFieldMapper cfg => fun _ ↦ AccountsFieldMapper.routes cfg
  | dateFilter cfg => fun _ ↦ DateFilter.routes hash cfg
  | paymentFormatFilter cfg => fun _ ↦ PaymentFormatFilter.routes cfg
  | currencyMapper cfg _ => fun _ ↦ CurrencyMapper.routes hash cfg
  | amountFilter cfg => AmountFilter.routes cfg

/-- **Stateless stages preserve the announced count**, whatever the batches contain and however they
are split over the replicas. -/
theorem preserves_announced_count (lib : Library A) (hash : String → ℕ) (stage : StatelessStage A) :
    PreservesCount (stage.worker lib hash) (stage.WellFormed lib hash) (stage.routes hash) := by
  cases stage with
  | transactionsFieldMapper cfg => exact (TransactionsFieldMapper.forwards cfg).preservesCount
  | accountsFieldMapper cfg => exact (AccountsFieldMapper.forwards A cfg).preservesCount
  | dateFilter cfg => exact (DateFilter.forwards cfg).preservesCount
  | paymentFormatFilter cfg => exact (PaymentFormatFilter.forwards cfg).preservesCount
  | currencyMapper cfg entries => exact (CurrencyMapper.forwards cfg entries).preservesCount
  | amountFilter cfg => exact (AmountFilter.forwards cfg).preservesCount

/-- The bank catalog goes to both of two mappers, and so does the end of its stream. -/
example (lib : Library ℚ) (hash : String → ℕ) :
    let catalog : StatelessStage ℚ :=
      accountsFieldMapper ⟨"bank_catalog", ["0", "1"], 2, "node_", rfl, by decide⟩
    ((catalog.worker lib hash).handleMessages ""
        [⟨"c", "c:0", .data []⟩, ⟨"c", "c:eof", .eof ⟨1⟩⟩]).map
      (fun handled ↦ handled.2.map fun m ↦ (m.address.routingKey, m.messageId))
      = some [(some "node_0", "c:0"), (some "node_1", "c:0"), (some "node_0", "c:eof"),
        (some "node_1", "c:eof")] := rfl

end StatelessStage

end MoneyLaundering
