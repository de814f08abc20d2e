import MoneyLaundering.Workers.Edges

/-!
# The workers of the path counts

The last two kinds of workers of query 4. The path frequency filter collects, for each pair of ends,
the accounts in the middle, and reports both ends when there are enough of them. The duplicate
account filter keeps each reported account once.
-/

namespace MoneyLaundering

variable {A : Type}

/-! ## The path frequency filter -/

/-- For each pair of ends (bank and account of either) the set of accounts in the middle. A pair is
entered with its first path. -/
@[ext] structure PathMids where
  paths : Dict (String × String × String × String) (Finset Account)
  nonempty : ∀ p ∈ paths.items, p.2 ≠ ∅

namespace PathMids

def empty : PathMids := ⟨Dict.empty, fun _ h ↦ absurd h List.not_mem_nil⟩

/-- `_add_path`. -/
def addPath (s : PathMids) (path : Path) : PathMids where
  paths := s.paths.upsert (path.fromBank, path.fromAccount, path.toBank, path.toAccount) ∅
    (insert (path.midBank, path.midAccount))
  nonempty p hp := by
    rcases Dict.mem_items_set hp with rfl | hp
    · exact Finset.insert_ne_empty _ _
    · exact s.nonempty p hp

/-- `_apply_delta`. -/
def applyDelta (delta : List Path) (s : PathMids) : PathMids := delta.foldl addPath s

theorem paths_applyDelta (delta : List Path) (s : PathMids) :
    (applyDelta delta s).paths
      = delta.foldl (fun d path ↦
          d.upsert (path.fromBank, path.fromAccount, path.toBank, path.toAccount) ∅
            (insert (path.midBank, path.midAccount))) s.paths := by
  induction delta generalizing s with
  | nil => rfl
  | cons path delta ih => exact ih (s.addPath path)

/-- `_state_as_delta`, when the sets are iterated over as `mids` says. -/
def stateAsDelta (s : PathMids) (mids : String × String × String × String → List Account) :
    List Path :=
  s.paths.items.flatMap fun p ↦ (mids p.1).map fun mid ↦
    ⟨p.1.1, p.1.2.1, mid.1, mid.2, p.1.2.2.1, p.1.2.2.2⟩

theorem applyDelta_stateAsDelta {s : PathMids}
    {mids : String × String × String × String → List Account}
    (hmids : ∀ p ∈ s.paths.items, Enumerates (mids p.1) p.2) :
    applyDelta (s.stateAsDelta mids) empty = s := by
  have hdelta : s.stateAsDelta mids
      = (s.paths.items.flatMap fun p ↦ (mids p.1).map fun mid ↦ (p.1, mid)).map
          fun q ↦ ⟨q.1.1, q.1.2.1, q.2.1, q.2.2, q.1.2.2.1, q.1.2.2.2⟩ := by
    rw [stateAsDelta, List.map_flatMap]
    refine List.flatMap_congr fun p _ ↦ ?_
    simp [Function.comp_def]
  have hrebuild := Dict.foldl_upsert_flatMap ∅ insert (fun p ↦ mids p.1) s.paths
    (fun p hp ↦ (hmids p hp).foldl_insert) s.nonempty
  ext1
  rw [paths_applyDelta, hdelta, List.foldl_map]
  exact hrebuild

/-- `_create_results`: both ends of every pair with enough accounts in the middle. -/
def createResults (minRequiredAccounts : ℕ) (s : PathMids) : List Q4Result :=
  s.paths.items.flatMap fun p ↦
    if p.2.card < minRequiredAccounts then []
    else [⟨p.1.1, p.1.2.1⟩, ⟨p.1.2.2.1, p.1.2.2.2⟩]

theorem exists_mids (s : PathMids) :
    ∃ mids : String × String × String × String → List Account,
      ∀ p ∈ s.paths.items, Enumerates (mids p.1) p.2 := by
  classical
  refine ⟨fun k ↦ ((s.paths.get k).getD ∅).toList, fun p hp ↦ ?_⟩
  simp only [Dict.get_eq_some.mpr (show (p.1, p.2) ∈ s.paths.items from hp), Option.getD_some]
  exact Finset.coe_toList _

end PathMids

/-- `PathFrequencyFilter`. -/
def pathFrequencyFilter (hash : String → ℕ) (cfg : Config A) : StatefulWorker where
  Payload := List Path
  Item := Q4Result
  State := PathMids
  Delta := List Path
  empty := PathMids.empty
  queryId := none
  handleDataMessage _ s payload := some (PathMids.applyDelta payload s, [], payload)
  applyDelta := PathMids.applyDelta
  deltaSent _ := none
  StateAsDelta s delta := ∃ mids : String × String × String × String → List Account,
    (∀ p ∈ s.paths.items, Enumerates (mids p.1) p.2) ∧ delta = some (s.stateAsDelta mids)
  FlushData node client s msgs := msgs =
    flushSharded hash .q4ResultBatch client node
      (fun result : Q4Result ↦ accountKey result.bank result.account) cfg.outputNodeCount
      cfg.batchSize cfg.routingKey (s.createResults cfg.minRequiredAccounts)
  handle_eq h := by
    obtain ⟨rfl, rfl, rfl⟩ := Prod.ext_iff.mp (Option.some.inj h) |>.imp_right Prod.ext_iff.mp
    exact ⟨rfl, rfl⟩
  exists_stateAsDelta s := s.exists_mids.elim fun mids h ↦ ⟨_, mids, h, rfl⟩
  restore := by
    rintro s delta ⟨mids, hmids, rfl⟩
    exact PathMids.applyDelta_stateAsDelta hmids
  exists_flushData _ _ _ := ⟨_, rfl⟩
  flush_same h h' := by
    subst h h'
    exact SameMessages.refl _

/-! ## The duplicate account filter -/

/-- The reported accounts, each under its own key. -/
@[ext] structure UniqueAccounts where
  accounts : Dict Account Q4Result
  key_eq : ∀ p ∈ accounts.items, p.2 = ⟨p.1.1, p.1.2⟩

namespace UniqueAccounts

def empty : UniqueAccounts := ⟨Dict.empty, fun _ h ↦ absurd h List.not_mem_nil⟩

def addAccount (s : UniqueAccounts) (account : Account) : UniqueAccounts where
  accounts := s.accounts.set account ⟨account.1, account.2⟩
  key_eq p hp := by
    rcases Dict.mem_items_set hp with rfl | hp
    · rfl
    · exact s.key_eq p hp

/-- `_apply_delta`. -/
def applyDelta (delta : List Account) (s : UniqueAccounts) : UniqueAccounts :=
  delta.foldl addAccount s

theorem accounts_applyDelta (delta : List Account) (s : UniqueAccounts) :
    (applyDelta delta s).accounts
      = delta.foldl (fun d account ↦ d.set account ⟨account.1, account.2⟩) s.accounts := by
  induction delta generalizing s with
  | nil => rfl
  | cons account delta ih => exact ih (s.addAccount account)

/-- `_state_as_delta`. -/
def stateAsDelta (s : UniqueAccounts) : List Account :=
  s.accounts.values.map fun result ↦ (result.bank, result.account)

theorem applyDelta_stateAsDelta (s : UniqueAccounts) : applyDelta s.stateAsDelta empty = s := by
  have hdelta : s.stateAsDelta = s.accounts.items.map Prod.fst := by
    rw [stateAsDelta, Dict.values, List.map_map]
    refine List.map_congr_left fun p hp ↦ ?_
    rw [Function.comp_apply, s.key_eq p hp]
  ext1
  rw [accounts_applyDelta, hdelta, List.foldl_map]
  refine Dict.foldl_items _ s.accounts fun acc p hp _ ↦ ?_
  rw [s.key_eq p hp]

end UniqueAccounts

/-- `DuplicateAccountFilter`. -/
def duplicateAccountFilter (hash : String → ℕ) (cfg : Config A) : StatefulWorker where
  Payload := List Q4Result
  Item := Q4Result
  State := UniqueAccounts
  Delta := List Account
  empty := UniqueAccounts.empty
  queryId := some cfg.queryId
  handleDataMessage _ s payload :=
    let delta := payload.map fun account ↦ (account.bank, account.account)
    some (UniqueAccounts.applyDelta delta s, [], delta)
  applyDelta := UniqueAccounts.applyDelta
  deltaSent _ := none
  StateAsDelta s delta := delta = some s.stateAsDelta
  FlushData node client s msgs := msgs =
    flushSharded hash .q4ResultBatch client node
      (fun result : Q4Result ↦ accountKey result.bank result.account) 1 cfg.batchSize
      (fun _ ↦ client) s.accounts.values
  handle_eq h := by
    obtain ⟨rfl, rfl, rfl⟩ := Prod.ext_iff.mp (Option.some.inj h) |>.imp_right Prod.ext_iff.mp
    exact ⟨rfl, rfl⟩
  exists_stateAsDelta s := ⟨_, rfl⟩
  restore := by
    rintro s delta rfl
    exact s.applyDelta_stateAsDelta
  exists_flushData _ _ _ := ⟨_, rfl⟩
  flush_same h h' := by
    subst h h'
    exact SameMessages.refl _

end MoneyLaundering
