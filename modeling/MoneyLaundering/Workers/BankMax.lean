import MoneyLaundering.Workers.Edges

/-!
# The workers of the bank maxima

Query 2 looks for the largest transaction of each bank. The aggregators take a maximum over the
transactions they see and the reducers one over the partial maxima of a shard of the banks
(`workers/bank_max_aggregator`, `workers/bank_max_reducer`). Ties go to the smaller account. The two
differ in how a batch is turned into a delta: an aggregator normalises the bank id through `int`,
which fails on a bank id that is no number.
-/

namespace MoneyLaundering

variable {A : Type} [LT A] [DecidableLT A] [DecidableEq A]

/-- `_beats`: a larger amount, or the same amount from a smaller account. -/
def beats (amount : A) (account : String) (curAmount : A) (curAccount : String) : Bool :=
  curAmount < amount || (amount = curAmount && account < curAccount)

/-- The best account and amount of each bank of a batch, in the order the banks appear. -/
abbrev BatchMax (A : Type) := Dict String (String × A)

def BatchMax.offer (delta : BatchMax A) (bank account : String) (amount : A) : BatchMax A :=
  match delta.get bank with
  | none => delta.set bank (account, amount)
  | some current =>
    if beats amount account current.2 current.1 then delta.set bank (account, amount) else delta

/-- The largest transaction of each bank. -/
@[ext] structure FlowMax (A : Type) where
  banks : Dict String (BankMaxPartial A)
  key_eq : ∀ p ∈ banks.items, p.2.fromBank = p.1

namespace FlowMax

def empty : FlowMax A := ⟨Dict.empty, fun _ h ↦ absurd h List.not_mem_nil⟩

def assign (s : FlowMax A) (bank account : String) (amount : A) : FlowMax A where
  banks := s.banks.set bank ⟨bank, account, amount⟩
  key_eq p hp := by
    rcases Dict.mem_items_set hp with rfl | hp
    · rfl
    · exact s.key_eq p hp

def offer (s : FlowMax A) (p : String × String × A) : FlowMax A :=
  match s.banks.get p.1 with
  | none => s.assign p.1 p.2.1 p.2.2
  | some current =>
    if beats p.2.2 p.2.1 current.amount current.fromAccount then s.assign p.1 p.2.1 p.2.2 else s

/-- `_apply_delta`. -/
def applyDelta (delta : BatchMax A) (s : FlowMax A) : FlowMax A := delta.items.foldl offer s

/-- `_state_as_delta`. -/
def stateAsDelta (s : FlowMax A) : BatchMax A where
  items := s.banks.items.map fun p ↦ (p.1, p.2.fromAccount, p.2.amount)
  nodup := by
    rw [List.map_map]
    exact s.banks.nodup

theorem applyDelta_stateAsDelta (s : FlowMax A) : applyDelta s.stateAsDelta empty = s := by
  let step : Dict String (BankMaxPartial A) → String × BankMaxPartial A →
      Dict String (BankMaxPartial A) := fun d p ↦
    match d.get p.1 with
    | none => d.set p.1 ⟨p.1, p.2.fromAccount, p.2.amount⟩
    | some current =>
      if beats p.2.amount p.2.fromAccount current.amount current.fromAccount then
        d.set p.1 ⟨p.1, p.2.fromAccount, p.2.amount⟩
      else d
  have hstep : ∀ (l : List (String × BankMaxPartial A)) (s : FlowMax A),
      ((l.map fun p ↦ (p.1, p.2.fromAccount, p.2.amount)).foldl offer s).banks
        = l.foldl step s.banks := by
    intro l
    induction l with
    | nil => exact fun _ ↦ rfl
    | cons p l ih =>
      intro s
      have hone : (s.offer (p.1, p.2.fromAccount, p.2.amount)).banks = step s.banks p := by
        simp only [offer, step]
        cases s.banks.get p.1 with
        | none => rfl
        | some current =>
          simp only
          split <;> rfl
      rw [List.map_cons, List.foldl_cons, List.foldl_cons, ih, hone]
  ext1
  rw [applyDelta, stateAsDelta, hstep]
  refine Dict.foldl_items step s.banks fun acc p hp hnone ↦ ?_
  have hvalue : (⟨p.1, p.2.fromAccount, p.2.amount⟩ : BankMaxPartial A) = p.2 := by
    rw [← s.key_eq p hp]
  simp only [step, hnone, hvalue]

end FlowMax

/-- The parts of the worker that the aggregators and the reducers share: `batchMax` turns a batch
into a delta, or raises, and the flush has `numShards` shards. -/
def bankMaxWorker (hash : String → ℕ) (Payload : Type) (batchMax : Payload → Option (BatchMax A))
    (numShards batchSize : ℕ) : StatefulWorker where
  Payload := Payload
  Item := BankMaxPartial A
  State := FlowMax A
  Delta := BatchMax A
  empty := FlowMax.empty
  queryId := none
  handleDataMessage _ s payload :=
    (batchMax payload).map fun delta ↦ (FlowMax.applyDelta delta s, [], delta)
  applyDelta := FlowMax.applyDelta
  deltaSent _ := none
  StateAsDelta s delta := delta = some s.stateAsDelta
  FlushData node client s msgs := msgs =
    flushSharded hash .bankMaxPartialBatch client node BankMaxPartial.fromBank numShards batchSize
      toString s.banks.values
  handle_eq h := by
    obtain ⟨delta, -, h⟩ := Option.map_eq_some_iff.mp h
    obtain ⟨rfl, rfl, rfl⟩ := Prod.ext_iff.mp h |>.imp_right Prod.ext_iff.mp
    exact ⟨rfl, rfl⟩
  exists_stateAsDelta _ := ⟨_, rfl⟩
  restore := by
    rintro s delta rfl
    exact s.applyDelta_stateAsDelta
  exists_flushData _ _ _ := ⟨_, rfl⟩
  flush_same h h' := by
    subst h h'
    exact SameMessages.refl _

/-! ## The aggregators -/

/-- The delta of one transaction; a transaction without an amount, a bank or an account is skipped,
and a bank id that is no number raises. -/
def aggregateTransaction (delta : BatchMax A) (tx : Transaction A) : Option (BatchMax A) :=
  match tx.amount, tx.fromBank, tx.fromAccount with
  | some amount, some fromBank, some fromAccount =>
    (PythonInt.pyInt fromBank).map fun z ↦ delta.offer (toString z) fromAccount amount
  | _, _, _ => some delta

/-- `BankMaxAggregator`. -/
def bankMaxAggregator (hash : String → ℕ) (cfg : Config A) : StatefulWorker :=
  bankMaxWorker hash (List (Transaction A))
    (fun batch ↦ batch.foldlM aggregateTransaction Dict.empty) cfg.numShards cfg.batchSize

/-! ## The reducers -/

/-- `BankMaxReducer`. -/
def bankMaxReducer (hash : String → ℕ) (cfg : Config A) : StatefulWorker :=
  bankMaxWorker hash (List (BankMaxPartial A))
    (fun batch ↦ some (batch.foldl
      (fun delta bankMax ↦ delta.offer bankMax.fromBank bankMax.fromAccount bankMax.amount)
      Dict.empty)) cfg.outputNodeCount cfg.batchSize

end MoneyLaundering
