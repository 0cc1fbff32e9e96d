import StepFi.Lib.Outcome
import StepFi.Lib.Transition
import StepFi.Lib.Timelock
import StepFi.Lib.Register
import StepFi.Lib.FlooredVault
import StepFi.Lib.Paged
import StepFi.Lib.Meter
import StepFi.Lib.Waterfall
import StepFi.Lib.EventLog
import StepFi.Lib.Simulation
import StepFi.Lib.Independent
import StepFi.Host
import StepFi.Encoding
import StepFi.Token
import StepFi.Upgrade
import StepFi.LiquidityPool.Contract
import StepFi.LiquidityPool.Spec
import StepFi.LiquidityPool.Accounts
import StepFi.LiquidityPool.Ledger
import StepFi.LiquidityPool.NoProfit
import StepFi.LiquidityPool.Price
import StepFi.LiquidityPool.Supply
import StepFi.LiquidityPool.Caps
import StepFi.LiquidityPool.Rounding
import StepFi.LiquidityPool.Interest
import StepFi.LiquidityPool.Events
import StepFi.LiquidityPool.Exit
import StepFi.Reputation.Contract
import StepFi.Reputation.Events
import StepFi.VendorRegistry.Contract
import StepFi.VendorRegistry.Lifecycle
import StepFi.Vouching.Exact
import StepFi.Vouching.Removal
import StepFi.Vouching.Activity
import StepFi.Vouching.Lifecycle
import StepFi.Vouching.Events
import StepFi.CreditLine.Types
import StepFi.CreditLine.Contract
import StepFi.CreditLine.Loans
import StepFi.CreditLine.Book
import StepFi.CreditLine.Spec
import StepFi.CreditLine.Runs
import StepFi.CreditLine.Conservation
import StepFi.CreditLine.Lifecycle
import StepFi.CreditLine.Reader
import StepFi.CreditLine.Index
import StepFi.CreditLine.Polling
import StepFi.CreditLine.Overdue
import StepFi.CreditLine.Accrual
import StepFi.CreditLine.Compounding
import StepFi.CreditLine.Waterfall
import StepFi.CreditLine.Repayments
import StepFi.CreditLine.Legacy
import StepFi.CreditLine.Terms
import StepFi.CreditLine.Events
import StepFi.Parameters.Contract
import StepFi.Parameters.Spec
import StepFi.Parameters.Validity
import StepFi.Parameters.Governance
import StepFi.Parameters.Committee
import StepFi.Parameters.Lifecycle
import StepFi.Parameters.Events
import StepFi.Parameters.Hidden
import StepFi.Protocol.System
import StepFi.Protocol.Invariant
import StepFi.Protocol.Funds
import StepFi.Protocol.Solvency
import StepFi.Protocol.Locked
import StepFi.Protocol.Stranded
import StepFi.Protocol.Escrow
import StepFi.Protocol.Limit
import StepFi.Protocol.Closing
import StepFi.Protocol.Pause
import StepFi.Protocol.Upgrades
import StepFi.Protocol.Delay
import StepFi.Protocol.Payments
import StepFi.Protocol.Outlays
import StepFi.Protocol.Flows
import StepFi.Protocol.Ordering
import StepFi.Protocol.Parts
import StepFi.Protocol.Results
import StepFi.Protocol.Standing
import StepFi.Protocol.Origination
import StepFi.Network.System
import StepFi.Network.Refinement
import StepFi.Network.Custody
import StepFi.Network.Lending
import StepFi.Network.Exit
import StepFi.Network.Authority
import StepFi.Network.Unread
