import MoneyLaundering.Ring.Accounting
import MoneyLaundering.Ring.Contributions
import MoneyLaundering.Ring.Deltas
import MoneyLaundering.Ring.Election
import MoneyLaundering.Ring.Leftovers
import MoneyLaundering.Worker.Cleanup
import MoneyLaundering.Worker.FailedPublish
import MoneyLaundering.Worker.Flushed
import MoneyLaundering.Worker.Recovery
import MoneyLaundering.Worker.Reflush
import MoneyLaundering.Workers.Routes
import MoneyLaundering.Queries.Anomalies
import MoneyLaundering.Queries.BankMaxima
import MoneyLaundering.Queries.BankNames
import MoneyLaundering.Queries.ScatterGather
import MoneyLaundering.Storage.StateStore
import MoneyLaundering.Storage.BatchSpill
import MoneyLaundering.Joins.Recovered
import MoneyLaundering.Watchdog.Leadership
import MoneyLaundering.Watchdog.Revival
import MoneyLaundering.Watchdog.PeerHandler
import MoneyLaundering.Gateway.Registry
import MoneyLaundering.Gateway.Relay
import MoneyLaundering.Client.Upload
import MoneyLaundering.Client.Results
import MoneyLaundering.Pipeline.Joined
import MoneyLaundering.Ring.Termination
