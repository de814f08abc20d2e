import MoneyLaundering.Workers.BankMax
import MoneyLaundering.Workers.Paths
import MoneyLaundering.Workers.Totals

/-!
# The kinds of stateful workers

The eleven subclasses of `StatefulWorker`. Amounts are any type with the operations the workers use
on them; that adding to zero changes nothing is the only law needed.
-/

namespace MoneyLaundering

/-- What the workers do with amounts. -/
class Amount (A : Type) extends AddZeroClass A, LT A, Div A, NatCast A where
  decidableLT : DecidableLT A
  decidableEq : DecidableEq A

instance Amount.instDecidableLT (A : Type) [Amount A] : DecidableLT A := Amount.decidableLT

instance Amount.instDecidableEq (A : Type) [Amount A] : DecidableEq A := Amount.decidableEq

instance instAmountNat : Amount ℕ where
  decidableLT := inferInstance
  decidableEq := inferInstance

inductive StatefulKind
  | accountFrequencyFilter
  | pathMapper
  | pathFrequencyFilter
  | duplicateAccountFilter
  | bidirectionalSharder
  | bankMaxAggregator
  | bankMaxReducer
  | lowAmountAggregator
  | lowAmountReducer
  | paymentFormatAggregator
  | paymentFormatReducer
  deriving DecidableEq, Repr

/-- The worker of a kind. -/
def StatefulKind.worker {A : Type} [Amount A] (hash : String → ℕ)
    (paymentFormatKey : String → String) (cfg : Config A) : StatefulKind → StatefulWorker
  | accountFrequencyFilter => MoneyLaundering.accountFrequencyFilter hash cfg
  | pathMapper => MoneyLaundering.pathMapper hash cfg
  | pathFrequencyFilter => MoneyLaundering.pathFrequencyFilter hash cfg
  | duplicateAccountFilter => MoneyLaundering.duplicateAccountFilter hash cfg
  | bidirectionalSharder => MoneyLaundering.bidirectionalSharder hash cfg
  | bankMaxAggregator => MoneyLaundering.bankMaxAggregator hash cfg
  | bankMaxReducer => MoneyLaundering.bankMaxReducer hash cfg
  | lowAmountAggregator => MoneyLaundering.lowAmountAggregator cfg
  | lowAmountReducer => MoneyLaundering.lowAmountReducer cfg
  | paymentFormatAggregator =>
    MoneyLaundering.paymentFormatAggregator hash paymentFormatKey cfg
  | paymentFormatReducer => MoneyLaundering.paymentFormatReducer A

end MoneyLaundering
