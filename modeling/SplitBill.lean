import SplitBill.Interleave.Prog
import SplitBill.Interleave.Machine
import SplitBill.Interleave.Logic
import SplitBill.Errors
import SplitBill.Redis
import SplitBill.Schema
import SplitBill.Transaction
import SplitBill.World
import SplitBill.Access
import SplitBill.Prisma
import SplitBill.Activity.Repository
import SplitBill.Expenses.Repository
import SplitBill.Groups.Repository
import SplitBill.Js.Map
import SplitBill.Js.Number
import SplitBill.Expenses.Split
import SplitBill.Settlements.Balance
import SplitBill.Auth.Repository
import SplitBill.Settlements.Idempotency
import SplitBill.Settlements.Repository
import SplitBill.Summary.Repository
import SplitBill.Backend
import SplitBill.Groups.Cache
import SplitBill.Groups.Service
import SplitBill.Expenses.Service
import SplitBill.Activity.Service
import SplitBill.DistributedLock
import SplitBill.Settlements.CreateSettlement
import SplitBill.Settlements.Service
import SplitBill.Queues.JobQueue
import SplitBill.Queues.WorkerRunner
import SplitBill.Auth.Service
import SplitBill.Rules
import SplitBill.Expenses.WellFormed
import SplitBill.Expenses.Store
import SplitBill.Settlements.Once
import SplitBill.Settlements.Ledger
import SplitBill.Calls
import SplitBill.Settlements.ZeroSum
import SplitBill.Scope
import SplitBill.Isolation
import SplitBill.Audit
import SplitBill.Frontend.ApiClient
import SplitBill.Lease
import SplitBill.LockSafety
import SplitBill.Queues.Protocol
import SplitBill.Queues.Delivery
import SplitBill.Queues.LeaseSafety
import SplitBill.Queues.Finished
import SplitBill.Queues.Attempts
import SplitBill.Expenses.Serial
import SplitBill.Membership
import SplitBill.Groups.CacheEntry
import SplitBill.Groups.Freshness
import SplitBill.Frontend.SharedRefresh
import SplitBill.Frontend.AuthController
import SplitBill.Frontend.BalancesPage
import SplitBill.Queues.PollLoop
import SplitBill.Queues.Shutdown
import SplitBill.Queues.Backoff
import SplitBill.Counters
import SplitBill.Metrics.Labels
import SplitBill.RateLimit.FixedWindow
import SplitBill.RateLimit.Store
import SplitBill.RateLimit.Limiter
import SplitBill.Auth.Calls
import SplitBill.Auth.Writes
import SplitBill.Auth.PasswordReset
import SplitBill.Auth.Tokens
import SplitBill.Alone
import SplitBill.Auth.Verified
import SplitBill.Frontend.Money
import SplitBill.Pages
import SplitBill.Frontend.GroupLists
import SplitBill.Frontend.ActivityPage
import SplitBill.Frontend.SettleUp
import SplitBill.Expenses.UpdateAlone
import SplitBill.Expenses.Cosmetic
import SplitBill.ExactAmounts
import SplitBill.Summary.Convergence
import SplitBill.Groups.Transparency
import SplitBill.RateLimit.Decrement
import SplitBill.Queues.HeadOfLine
import SplitBill.WithLock
import SplitBill.Metrics.Series
import SplitBill.Cumulative
import SplitBill.Js.Double
import SplitBill.Metrics.Registry
import SplitBill.Metrics.Histogram
import SplitBill.Js.Json
import SplitBill.Email.Templates
import SplitBill.Groups.Codec
import SplitBill.Auth.Enumeration
import SplitBill.Takeover
import SplitBill.Settlements.SettlingUp
import SplitBill.Auth.Authority
import SplitBill.Js.Base64
import SplitBill.Email.Links
import SplitBill.Groups.Authority
import SplitBill.AppendOnly
import SplitBill.Frontend.GrowingLists
import SplitBill.Js.Zod
import SplitBill.Api.ErrorBoundary
import SplitBill.Js.Zod.Normal
import SplitBill.Js.Zod.Typed
import SplitBill.Api.Schemas
import SplitBill.Api.Bodies
import SplitBill.Js.Numeral
import SplitBill.Frontend.AddExpenseSheet
import SplitBill.Frontend.Responses
