import MoneyLaundering.Workers.Edges

/-!
# The workers of the counts and the averages

Query 5 counts small transactions, first by replica and then over all of them
(`workers/low_amount_aggregator`, `workers/low_amount_reducer`). Query 3 needs the average amount of
each payment format, from totals and counts kept by replica and then by shard
(`workers/payment_format_aggregator`, `workers/payment_format_reducer`).
-/

namespace MoneyLaundering

variable {A : Type}

/-! ## Counts -/

/-- The parts of the worker that both counting workers share: `countOf` is what a payload adds, and
`flush` the message sent for a count. -/
def countWorker (Payload Item : Type) (queryId : Option String) (countOf : Payload → ℤ)
    (flush : NodeId → ClientId → ℤ → Message Item) : StatefulWorker where
  Payload := Payload
  Item := Item
  State := ℤ
  Delta := ℤ
  empty := 0
  queryId := queryId
  handleDataMessage _ count payload := some (count + countOf payload, [], countOf payload)
  applyDelta delta count := count + delta
  deltaSent _ := none
  StateAsDelta count delta := delta = some count
  FlushData node client count msgs := msgs = [flush node client count]
  handle_eq h := by
    obtain ⟨rfl, rfl, rfl⟩ := Prod.ext_iff.mp (Option.some.inj h) |>.imp_right Prod.ext_iff.mp
    exact ⟨rfl, rfl⟩
  exists_stateAsDelta _ := ⟨_, rfl⟩
  restore := by
    rintro count delta rfl
    exact zero_add count
  exists_flushData _ _ _ := ⟨_, rfl⟩
  flush_same h h' := by
    subst h h'
    exact SameMessages.refl _

/-- `LowAmountAggregator`: count the transactions below the threshold. -/
def lowAmountAggregator [LT A] [DecidableLT A] (cfg : Config A) : StatefulWorker :=
  countWorker (List (TransactionAmount A)) Count none
    (fun payload ↦ payload.countP fun transaction ↦ transaction.amount < cfg.amountThreshold)
    (fun node client count ↦
      { msgType := .count
        routingKey := none
        messageId := flushId node client 0
        payload := [⟨count⟩] })

/-- `LowAmountReducer`: add up the counts. -/
def lowAmountReducer (cfg : Config A) : StatefulWorker :=
  countWorker Count Q5Result (some cfg.queryId) Count.count
    (fun node client count ↦
      { msgType := .q5ResultBatch
        routingKey := some client
        messageId := flushId node client 0
        payload := [⟨count⟩] })

/-! ## Averages -/

/-- A total amount and a count for each payment format. -/
abbrev FormatTotals (A : Type) := Dict String (A × ℕ)

namespace FormatTotals

variable [AddZeroClass A]

def add (totals : FormatTotals A) (paymentFormat : String) (amount : A) (count : ℕ) :
    FormatTotals A :=
  totals.upsert paymentFormat (0, 0) fun cur ↦ (cur.1 + amount, cur.2 + count)

/-- `_apply_delta`. -/
def applyDelta (delta totals : FormatTotals A) : FormatTotals A :=
  delta.items.foldl (fun totals p ↦ totals.add p.1 p.2.1 p.2.2) totals

theorem applyDelta_self (totals : FormatTotals A) : applyDelta totals Dict.empty = totals := by
  refine Dict.foldl_items _ totals fun acc p _ hnone ↦ ?_
  rw [add, Dict.upsert, hnone, Option.getD_none, zero_add, zero_add]

end FormatTotals

/-- The parts of the worker that both averaging workers share: `totalsOf` turns a batch into a
delta, and `flush` sends the totals. -/
def totalsWorker [AddZeroClass A] (Payload Item : Type) (totalsOf : Payload → FormatTotals A)
    (flush : NodeId → ClientId → FormatTotals A → List (Message Item)) : StatefulWorker where
  Payload := Payload
  Item := Item
  State := FormatTotals A
  Delta := FormatTotals A
  empty := Dict.empty
  queryId := none
  handleDataMessage _ totals payload :=
    some (FormatTotals.applyDelta (totalsOf payload) totals, [], totalsOf payload)
  applyDelta := FormatTotals.applyDelta
  deltaSent _ := none
  StateAsDelta totals delta := delta = some totals
  FlushData node client totals msgs := msgs = flush node client totals
  handle_eq h := by
    obtain ⟨rfl, rfl, rfl⟩ := Prod.ext_iff.mp (Option.some.inj h) |>.imp_right Prod.ext_iff.mp
    exact ⟨rfl, rfl⟩
  exists_stateAsDelta _ := ⟨_, rfl⟩
  restore := by
    rintro totals delta rfl
    exact totals.applyDelta_self
  exists_flushData _ _ _ := ⟨_, rfl⟩
  flush_same h h' := by
    subst h h'
    exact SameMessages.refl _

/-- The delta of one transaction; a transaction without a payment format or an amount is skipped. -/
def aggregateFormat [AddZeroClass A] (paymentFormatKey : String → String) (delta : FormatTotals A)
    (tx : Transaction A) : FormatTotals A :=
  match tx.paymentFormat, tx.amount with
  | some paymentFormat, some amount => delta.add (paymentFormatKey paymentFormat) amount 1
  | _, _ => delta

/-- `PaymentFormatAggregator`. How a payment format is normalised (`strip().lower()`) is left open:
nothing depends on it. -/
def paymentFormatAggregator [AddZeroClass A] (hash : String → ℕ)
    (paymentFormatKey : String → String) (cfg : Config A) : StatefulWorker :=
  totalsWorker (List (Transaction A)) (PaymentFormatPartial A)
    (fun batch ↦ batch.foldl (aggregateFormat paymentFormatKey) Dict.empty)
    (fun node client totals ↦
      flushSharded hash .paymentFormatPartialBatch client node PaymentFormatPartial.paymentFormat
        cfg.numShards cfg.batchSize toString
        (totals.items.map fun p ↦ ⟨p.1, p.2.1, p.2.2⟩))

/-- The averages of the payment formats that occur. -/
def averages [Div A] [NatCast A] (totals : FormatTotals A) : List (PaymentFormatAverage A) :=
  totals.items.filterMap fun p ↦ if p.2.2 = 0 then none else some ⟨p.1, p.2.1 / p.2.2⟩

/-- `PaymentFormatReducer`. -/
def paymentFormatReducer (A : Type) [AddZeroClass A] [Div A] [NatCast A] : StatefulWorker :=
  totalsWorker (List (PaymentFormatPartial A)) (PaymentFormatAverage A)
    (fun batch ↦ batch.foldl
      (fun delta part ↦ delta.add part.paymentFormat part.totalAmount part.count) Dict.empty)
    (fun node client totals ↦
      [{ msgType := .paymentFormatAverageBatch
         routingKey := none
         messageId := flushId node client 0
         payload := averages totals }])

end MoneyLaundering
