import SoroStream.Lib.Rollback
import SoroStream.Lib.Runs
import SoroStream.Lib.Escrow
import SoroStream.Lib.SlotArray
import SoroStream.Lib.OwnerIndex
import SoroStream.Lib.Checked
import SoroStream.Lib.Meter
import SoroStream.Lib.Window
import SoroStream.Types
import SoroStream.VestingMath
import SoroStream.System
import SoroStream.Keeping
import SoroStream.Money
import SoroStream.Records
import SoroStream.Settlement
import SoroStream.Withdrawal
import SoroStream.Closing
import SoroStream.Opening
import SoroStream.Actions
import SoroStream.Frame
import SoroStream.Governance
import SoroStream.AdminOnly
import SoroStream.PathIndependence
import SoroStream.Accounting
import SoroStream.Apart
import SoroStream.Solvency
import SoroStream.Exit
import SoroStream.CliffGate
import SoroStream.LockGate
import SoroStream.Lineage
import SoroStream.Identity
import SoroStream.Indexes
import SoroStream.Vault
import SoroStream.FeeTracking
import SoroStream.Backing
import SoroStream.Terminal
import SoroStream.PauseGate
import SoroStream.PauseWindow
import SoroStream.Whitelist
import SoroStream.SenderLimit
import SoroStream.FeeTimelock
import SoroStream.Notes
import SoroStream.Replay
import SoroStream.Delegation
import SoroStream.Lib.Lockstep
import SoroStream.InStep
import SoroStream.TimeShift
import SoroStream.Splitting
import SoroStream.TopUps
import SoroStream.Flows
import SoroStream.FeeSplit
import SoroStream.Completion
import SoroStream.Balance
import SoroStream.Renewal
import SoroStream.CatchUp
import SoroStream.Lib.Listing
import SoroStream.Enumeration
import SoroStream.Lib.Batch
import SoroStream.BatchCancel
import SoroStream.BatchWithdraw
import SoroStream.Lib.RingBuffer
import SoroStream.AuditLog
import SoroStream.Vesting
import SoroStream.TreasuryBooks
import SoroStream.Lib.Holding
import SoroStream.Entries
import SoroStream.Archiving
import SoroStream.Cleanup
import SoroStream.Preview
import SoroStream.Lib.Occupancy
import SoroStream.Vacancy
import SoroStream.Lib.Avoids
import SoroStream.ClaimArithmetic
import SoroStream.Admission
import SoroStream.BatchOrder
import SoroStream.Cooldown
import SoroStream.Reconstruction
import SoroStream.Statements
import SoroStream.ProxyMigrations
import SoroStream.SdkReference
import SoroStream.Heredity
import SoroStream.Inviolable
import SoroStream.Custody
import SoroStream.Prediction
import SoroStream.WindDown
