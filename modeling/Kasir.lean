import Kasir.Txn.Prog
import Kasir.Txn.System
import Kasir.Txn.Logic
import Kasir.Txn.Soundness
import Kasir.Txn.Raises
import Kasir.Txn.LockOrder
import Kasir.Txn.Alone
import Kasir.Txn.Later
import Kasir.Txn.Table
import Kasir.Txn.Serial
import Kasir.Txn.ReadOnly
import Kasir.Js.Text
import Kasir.Js.PrefixCode
import Kasir.Js.Sort
import Kasir.Js.Json
import Kasir.Js.Number
import Kasir.Js.Tally
import Kasir.Tax
import Kasir.Schema
import Kasir.Statements
import Kasir.Transactions.Dto
import Kasir.Transactions.Checkout
import Kasir.Transactions.Service
import Kasir.HeldOrders.Pricing
import Kasir.HeldOrders.Service
import Kasir.Transactions.FindOne
import Kasir.Shifts.Service
import Kasir.Receipts.Service
import Kasir.Stock.Service
import Kasir.Catalog.Dto
import Kasir.Catalog.Service
import Kasir.Api
import Kasir.Ownership
import Kasir.Lines
import Kasir.Requests
import Kasir.Rules
import Kasir.Transactions.Rows
import Kasir.Transactions.Proof
import Kasir.Transactions.Recorded
import Kasir.HeldOrders.Rows
import Kasir.HeldOrders.Proof
import Kasir.Shifts.Proof
import Kasir.Stock.Proof
import Kasir.Catalog.Proof
import Kasir.Catalog.Replace
import Kasir.Effects
import Kasir.Runs
import Kasir.Frames
import Kasir.StockOrder
import Kasir.StockOrderBodies
import Kasir.SaleHistory
import Kasir.SaleContents
import Kasir.Books
import Kasir.Replays
import Kasir.HeldHistory
import Kasir.Guarantees.ExactlyOnce
import Kasir.Guarantees.Conversions
import Kasir.Guarantees.ShiftFinality
import Kasir.Guarantees.ShiftOrders
import Kasir.Guarantees.HeldLifecycle
import Kasir.Guarantees.StockLedger
import Kasir.Guarantees.LastWriter
import Kasir.Guarantees.SameKey
import Kasir.Guarantees.HeldRetries
import Kasir.Guarantees.StockLocks
import Kasir.Auth.Schema
import Kasir.Auth.Service
import Kasir.Auth.Ownership
import Kasir.Auth.Proof
import Kasir.Auth.Runs
import Kasir.Auth.Rotation
import Kasir.Auth.ChainEnd
import Kasir.Auth.Pins
import Kasir.Auth.PinLock
import Kasir.Auth.PinReset
import Kasir.Auth.ActiveTokens
import Kasir.Auth.BruteForce
import Kasir.Guarantees.TaxRounding
import Kasir.Guarantees.ShiftFigures
import Kasir.Guarantees.ShiftSummary
import Kasir.Guarantees.ShiftClose
import Kasir.Readers
import Kasir.Guarantees.LineOrder
import Kasir.Guarantees.NumericSafety
import Kasir.Bootstrap.Service
import Kasir.Bootstrap.Once
import Kasir.Sql
import Kasir.Js.Calendar
import Kasir.Reports.Service
import Kasir.Reports.Dates
import Kasir.Reports.Proof
import Kasir.Reports.TopProducts
import Kasir.Guarantees.Reports
import Kasir.Txn.Undisturbed
import Kasir.Txn.Batches
import Kasir.Sync.Service
import Kasir.Sync.Results
import Kasir.Guarantees.Sync
import Kasir.Guarantees.HoldAndSell
import Kasir.Guarantees.Accounting
import Kasir.Txn.Seen
import Kasir.Txn.Projection
import Kasir.Tenants
import Kasir.Scopes
import Kasir.Guarantees.Confinement
import Kasir.Guarantees.History
import Kasir.Guarantees.Listings
import Kasir.Paging
import Kasir.Transactions.FindAll
import Kasir.TenantBodies
import Kasir.TenantCalls
import Kasir.Owners
import Kasir.Guarantees.Isolation
