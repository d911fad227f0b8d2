import StonksPaper.Broker.Cash
import StonksPaper.Domain.Lifecycle
import StonksPaper.Domain.Eligibility
import StonksPaper.Broker.Progress
import StonksPaper.Broker.History
import StonksPaper.Broker.Total
import StonksPaper.Broker.LookAhead
import StonksPaper.Broker.Window
import StonksPaper.Base.Program
import StonksPaper.Artifacts.Retry
import StonksPaper.Broker.Affordable
import StonksPaper.Ledger.Cost
import StonksPaper.Ledger.Conservation
import StonksPaper.Ledger.Meaning
import StonksPaper.Ledger.Raising
import StonksPaper.Runs.Finish
import StonksPaper.Runs.Once
import StonksPaper.Runs.Positions
import StonksPaper.Runs.Audit
import StonksPaper.Runs.Stamp
import StonksPaper.Risk.Limits
import StonksPaper.Risk.Monotone
import StonksPaper.Runs.Halted
import StonksPaper.Runs.Siblings
import StonksPaper.Runs.Over
import StonksPaper.Delivery.Fencing
import StonksPaper.Analytics.Separation
import StonksPaper.Markets.Freshness
import StonksPaper.Evaluation.Calibration
import StonksPaper.Evaluation.Raising
import StonksPaper.Portfolio.Stronger
import StonksPaper.Delivery.Once
import StonksPaper.Jobs.Acknowledged
import StonksPaper.Jobs.Fencing
import StonksPaper.Jobs.Stream
import StonksPaper.Jobs.Statuses
import StonksPaper.Strategies.Eligible
import StonksPaper.Backtest.Prices
import StonksPaper.Backtest.Fairness
import StonksPaper.Backtest.Results
import StonksPaper.Backtest.Uniqueness
import StonksPaper.Limits.Exact
import StonksPaper.Evaluation.QuantSnapshot
import StonksPaper.Snapshots.Exact
import StonksPaper.Redaction.Passes
import StonksPaper.Monitoring.Trading
import StonksPaper.Research.Raising
import StonksPaper.Cycles.Progress
import StonksPaper.Cycles.Repeated
