import MoneyLaundering.Worker.Flow
import MoneyLaundering.Worker.Sharding

/-!
# The workers of the transfer graph

Query 4 looks for pairs of accounts joined by many paths of length two. Five kinds of workers take
part (`workers/bidirectional_sharder`, `workers/account_frequency_filter`, `workers/path_mapper`,
`workers/path_frequency_filter`, `workers/duplicate_account_filter`); this module has the first
three. The sharder turns a transaction into two edges, one kept with each of its accounts. The
frequency filter and the path mapper collect the edges of an account in two sets and have all their
code in common but the flush.
-/

namespace MoneyLaundering

/-- The configuration variables that the stateful workers read. -/
structure Config (A : Type) where
  minRequiredAccounts : ℕ
  /-- The replicas of the next stage. -/
  outputNodeCount : ℕ
  outputNodePrefix : String
  numShards : ℕ
  batchSize : ℕ
  amountThreshold : A
  queryId : String

/-- The text an account is hashed by. -/
def accountKey (bank account : String) : String := bank ++ "." ++ account

/-- The routing key of a replica of the next stage. -/
def Config.routingKey {A : Type} (cfg : Config A) (shard : ℕ) : String :=
  cfg.outputNodePrefix ++ toString shard

theorem Config.routingKey_injective {A : Type} (cfg : Config A) :
    Function.Injective cfg.routingKey := by
  intro r r' h
  have htoList := congrArg String.toList h
  rw [routingKey, routingKey, String.toList_append, String.toList_append] at htoList
  exact natToString_injective (String.toList_inj.mp (List.append_cancel_left htoList))

variable {A : Type}

/-! ## The sharder -/

/-- The two edges of a transaction, or none if one of its ends is missing. -/
def transactionEdges (tx : Transaction A) : List AccountEdge :=
  match tx.fromBank, tx.fromAccount, tx.toBank, tx.toAccount with
  | some fromBank, some fromAccount, some toBank, some toAccount =>
    [⟨fromBank, fromAccount, toBank, toAccount, true⟩,
      ⟨toBank, toAccount, fromBank, fromAccount, false⟩]
  | _, _, _, _ => []

def createEdgesByShard (hash : String → ℕ) (cfg : Config A) (payload : List (Transaction A)) :
    Dict ℕ (List AccountEdge) :=
  Dict.groupBy (fun edge ↦ shardOf hash (accountKey edge.bank edge.account) cfg.outputNodeCount)
    (payload.flatMap transactionEdges)

/-- The message with the edges of one shard. -/
def edgeMessage (cfg : Config A) (mid : MessageId) (group : ℕ × List AccountEdge) :
    Message AccountEdge where
  msgType := .accountEdgeBatch
  routingKey := some (cfg.routingKey group.1)
  messageId := mid
  payload := group.2

/-- `BidirectionalSharder`: it has no business state, and logs how many messages it sent. -/
def bidirectionalSharder (hash : String → ℕ) (cfg : Config A) : StatefulWorker where
  Payload := List (Transaction A)
  Item := AccountEdge
  State := Unit
  Delta := ℤ
  empty := ()
  queryId := none
  handleDataMessage mid _ payload :=
    let msgs := (createEdgesByShard hash cfg payload).items.map (edgeMessage cfg mid)
    some ((), msgs, msgs.length)
  applyDelta _ _ := ()
  deltaSent sent := some sent
  StateAsDelta _ delta := delta = none
  FlushData _ _ _ msgs := msgs = []
  handle_eq h := by
    obtain ⟨-, rfl, rfl⟩ := Prod.ext_iff.mp (Option.some.inj h) |>.imp_right Prod.ext_iff.mp
    exact ⟨rfl, rfl⟩
  exists_stateAsDelta _ := ⟨none, rfl⟩
  restore _ := rfl
  exists_flushData _ _ _ := ⟨[], rfl⟩
  flush_same h h' := by
    subst h h'
    exact SameMessages.refl []

/-! ## Edges by account -/

/-- For each account the set of accounts it receives from and the set it sends to. An account is
entered with its first edge. -/
@[ext] structure AccountEdges where
  edges : Dict Account (Finset Account × Finset Account)
  nonempty : ∀ p ∈ edges.items, p.2 ≠ (∅, ∅)

namespace AccountEdges

def empty : AccountEdges := ⟨Dict.empty, fun _ h ↦ absurd h List.not_mem_nil⟩

/-- Add the other end of an edge to the sets of an account. -/
def addOther (other : Bool × Account) (accounts : Finset Account × Finset Account) :
    Finset Account × Finset Account :=
  if other.1 then (accounts.1, insert other.2 accounts.2)
  else (insert other.2 accounts.1, accounts.2)

theorem addOther_ne (other : Bool × Account) (accounts : Finset Account × Finset Account) :
    addOther other accounts ≠ (∅, ∅) := by
  unfold addOther
  split <;> simp

/-- `_add_edge`. -/
def addEdge (s : AccountEdges) (edge : AccountEdge) : AccountEdges where
  edges := s.edges.upsert (edge.bank, edge.account) (∅, ∅)
    (addOther (edge.isSender, edge.otherBank, edge.otherAccount))
  nonempty p hp := by
    rcases Dict.mem_items_set hp with rfl | hp
    · exact addOther_ne _ _
    · exact s.nonempty p hp

/-- `_apply_delta`. -/
def applyDelta (delta : List AccountEdge) (s : AccountEdges) : AccountEdges :=
  delta.foldl addEdge s

theorem edges_applyDelta (delta : List AccountEdge) (s : AccountEdges) :
    (applyDelta delta s).edges
      = delta.foldl (fun d edge ↦ d.upsert (edge.bank, edge.account) (∅, ∅)
          (addOther (edge.isSender, edge.otherBank, edge.otherAccount))) s.edges := by
  induction delta generalizing s with
  | nil => rfl
  | cons edge delta ih => exact ih (s.addEdge edge)

/-- An order in which the sets of a state are iterated over. -/
structure Order (s : AccountEdges) where
  ins : Account → List Account
  outs : Account → List Account
  enumerates_ins : ∀ p ∈ s.edges.items, Enumerates (ins p.1) p.2.1
  enumerates_outs : ∀ p ∈ s.edges.items, Enumerates (outs p.1) p.2.2

theorem exists_order (s : AccountEdges) : Nonempty (Order s) := by
  classical
  let sets : Account → Finset Account × Finset Account := fun k ↦ (s.edges.get k).getD (∅, ∅)
  have hsets : ∀ p ∈ s.edges.items, sets p.1 = p.2 := fun p hp ↦ by
    simp only [sets, Dict.get_eq_some.mpr (show (p.1, p.2) ∈ s.edges.items from hp),
      Option.getD_some]
  refine ⟨⟨fun k ↦ (sets k).1.toList, fun k ↦ (sets k).2.toList, fun p hp ↦ ?_, fun p hp ↦ ?_⟩⟩
  · rw [hsets p hp]
    exact Finset.coe_toList _
  · rw [hsets p hp]
    exact Finset.coe_toList _

variable {s : AccountEdges}

/-- The edge kept with an account, given its direction and its other end. -/
def edgeOf (account : Account) (other : Bool × Account) : AccountEdge :=
  ⟨account.1, account.2, other.2.1, other.2.2, other.1⟩

/-- `_state_as_delta`. -/
def Order.stateAsDelta (order : Order s) : List AccountEdge :=
  s.edges.items.flatMap fun p ↦
    (order.ins p.1).map (fun other ↦ edgeOf p.1 (false, other)) ++
      (order.outs p.1).map fun other ↦ edgeOf p.1 (true, other)

theorem foldl_addOther_ins {l : List Account} {ins outs t : Finset Account}
    (h : l.foldl (fun t a ↦ insert a t) t = ins) :
    (l.map fun other ↦ (false, other)).foldl (fun v x ↦ addOther x v) (t, outs) = (ins, outs) := by
  induction l generalizing t with
  | nil => rw [← h]; rfl
  | cons a l ih => exact ih h

theorem foldl_addOther_outs {l : List Account} {ins outs t : Finset Account}
    (h : l.foldl (fun t a ↦ insert a t) t = outs) :
    (l.map fun other ↦ (true, other)).foldl (fun v x ↦ addOther x v) (ins, t) = (ins, outs) := by
  induction l generalizing t with
  | nil => rw [← h]; rfl
  | cons a l ih => exact ih h

theorem applyDelta_stateAsDelta (order : Order s) : applyDelta order.stateAsDelta empty = s := by
  let dump : Account × Finset Account × Finset Account → List (Bool × Account) := fun p ↦
    (order.ins p.1).map (fun other ↦ (false, other)) ++
      (order.outs p.1).map fun other ↦ (true, other)
  have hdump : ∀ p ∈ s.edges.items, (dump p).foldl (fun v x ↦ addOther x v) (∅, ∅) = p.2 := by
    intro p hp
    rw [List.foldl_append, foldl_addOther_ins (order.enumerates_ins p hp).foldl_insert,
      foldl_addOther_outs (order.enumerates_outs p hp).foldl_insert]
  have hdelta : order.stateAsDelta
      = (s.edges.items.flatMap fun p ↦ (dump p).map fun x ↦ (p.1, x)).map
          fun q ↦ edgeOf q.1 q.2 := by
    rw [Order.stateAsDelta, List.map_flatMap]
    refine List.flatMap_congr fun p _ ↦ ?_
    simp [dump, Function.comp_def]
  have hrebuild := Dict.foldl_upsert_flatMap (∅, ∅) addOther dump s.edges hdump s.nonempty
  ext1
  rw [edges_applyDelta, hdelta, List.foldl_map]
  exact hrebuild

/-- The parts of the worker that the frequency filter and the path mapper share, with the flush of
either. -/
def worker {Item : Type} (flush : NodeId → ClientId → (s : AccountEdges) → Order s →
      List (Message Item))
    (hflush : ∀ node client s order order', SameMessages (flush node client s order)
      (flush node client s order')) : StatefulWorker where
  Payload := List AccountEdge
  Item := Item
  State := AccountEdges
  Delta := List AccountEdge
  empty := empty
  queryId := none
  handleDataMessage _ s payload := some (applyDelta payload s, [], payload)
  applyDelta := applyDelta
  deltaSent _ := none
  StateAsDelta s delta := ∃ order : Order s, delta = some order.stateAsDelta
  FlushData node client s msgs := ∃ order : Order s, msgs = flush node client s order
  handle_eq h := by
    obtain ⟨rfl, rfl, rfl⟩ := Prod.ext_iff.mp (Option.some.inj h) |>.imp_right Prod.ext_iff.mp
    exact ⟨rfl, rfl⟩
  exists_stateAsDelta s := (exists_order s).elim fun order ↦ ⟨_, order, rfl⟩
  restore := by
    rintro s delta ⟨order, rfl⟩
    exact applyDelta_stateAsDelta order
  exists_flushData node client s := (exists_order s).elim fun order ↦ ⟨_, order, rfl⟩
  flush_same := by
    rintro node client s msgs msgs' ⟨order, rfl⟩ ⟨order', rfl⟩
    exact hflush node client s order order'

end AccountEdges

/-! ## The account frequency filter -/

namespace AccountEdges.Order

variable {s : AccountEdges}

/-- `_create_edges`: the edges between an account and a set of accounts that is large enough, kept
with the other end. -/
def createEdges (minRequiredAccounts : ℕ) (order : Order s) : List AccountEdge :=
  s.edges.items.flatMap fun p ↦
    (if p.2.1.card < minRequiredAccounts then []
      else (order.ins p.1).map fun other ↦ ⟨other.1, other.2, p.1.1, p.1.2, true⟩) ++
    (if p.2.2.card < minRequiredAccounts then []
      else (order.outs p.1).map fun other ↦ ⟨other.1, other.2, p.1.1, p.1.2, false⟩)

theorem perm_createEdges (minRequiredAccounts : ℕ) (order order' : Order s) :
    (order.createEdges minRequiredAccounts).Perm (order'.createEdges minRequiredAccounts) := by
  refine List.Perm.flatMap_left _ fun p hp ↦ ?_
  refine List.Perm.append ?_ ?_ <;> split
  · rfl
  · exact ((order.enumerates_ins p hp).perm (order'.enumerates_ins p hp)).map _
  · rfl
  · exact ((order.enumerates_outs p hp).perm (order'.enumerates_outs p hp)).map _

/-- `_create_paths`: the paths through an account, from each account it receives from to each other
account it sends to. -/
def createPaths (order : Order s) : List Path :=
  s.edges.items.flatMap fun p ↦
    if p.2.1 = ∅ ∨ p.2.2 = ∅ then []
    else
      (order.ins p.1).flatMap fun source ↦ (order.outs p.1).flatMap fun target ↦
        if source = target then []
        else [⟨source.1, source.2, p.1.1, p.1.2, target.1, target.2⟩]

theorem perm_createPaths (order order' : Order s) :
    order.createPaths.Perm order'.createPaths := by
  refine List.Perm.flatMap_left _ fun p hp ↦ ?_
  split
  · rfl
  · exact (List.Perm.flatMap_right _
      ((order.enumerates_ins p hp).perm (order'.enumerates_ins p hp))).trans
      (List.Perm.flatMap_left _ fun _ _ ↦ List.Perm.flatMap_right _
        ((order.enumerates_outs p hp).perm (order'.enumerates_outs p hp)))

end AccountEdges.Order

/-- `AccountFrequencyFilter`. -/
def accountFrequencyFilter (hash : String → ℕ) (cfg : Config A) : StatefulWorker :=
  AccountEdges.worker
    (fun node client _ order ↦
      flushSharded hash .accountEdgeBatch client node
        (fun edge : AccountEdge ↦ accountKey edge.bank edge.account) cfg.outputNodeCount
        cfg.batchSize cfg.routingKey (order.createEdges cfg.minRequiredAccounts))
    (fun _ _ _ order order' ↦ sameMessages_flushSharded (order.perm_createEdges _ order'))

/-! ## The path mapper -/

/-- The text a path is hashed by: its two ends. -/
def pathKey (path : Path) : String :=
  accountKey path.fromBank path.fromAccount ++ "." ++ accountKey path.toBank path.toAccount

/-- `PathMapper`. -/
def pathMapper (hash : String → ℕ) (cfg : Config A) : StatefulWorker :=
  AccountEdges.worker
    (fun node client _ order ↦
      flushSharded hash .pathBatch client node pathKey cfg.outputNodeCount cfg.batchSize
        cfg.routingKey order.createPaths)
    (fun _ _ _ order order' ↦ sameMessages_flushSharded (order.perm_createPaths order'))

end MoneyLaundering
