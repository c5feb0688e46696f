import VpnPayment.Alerting.SweepAlerts
import VpnPayment.Api.Notify
import VpnPayment.Api.RateLimiter
import VpnPayment.Api.RedisRateLimiter
import VpnPayment.Api.RedisWindows
import VpnPayment.Api.Routes
import VpnPayment.Async.Discipline
import VpnPayment.Async.Machine
import VpnPayment.Async.Program
import VpnPayment.Async.Requests
import VpnPayment.Async.Sequential
import VpnPayment.Async.Snapshot
import VpnPayment.Collections.Base64
import VpnPayment.Collections.Bits
import VpnPayment.Collections.Coefficients
import VpnPayment.Collections.Crlf
import VpnPayment.Collections.Decimal
import VpnPayment.Collections.EncodedWord
import VpnPayment.Collections.Grid
import VpnPayment.Collections.Html
import VpnPayment.Collections.Json
import VpnPayment.Collections.Pages
import VpnPayment.Collections.PartialIndex
import VpnPayment.Collections.Rfc4180
import VpnPayment.Collections.SecondaryIndex
import VpnPayment.Collections.Svg
import VpnPayment.Collections.Table
import VpnPayment.Collections.Tally
import VpnPayment.Collections.Traversal
import VpnPayment.Core.Money
import VpnPayment.Core.OrderStateMachine
import VpnPayment.Domain.Types
import VpnPayment.Http.Dispatch
import VpnPayment.Http.Response
import VpnPayment.Http.Router
import VpnPayment.Http.Uri
import VpnPayment.Lifecycle.Draining
import VpnPayment.Merchants.Records
import VpnPayment.Merchants.Service
import VpnPayment.Merchants.Suspension
import VpnPayment.Notifications.EmailTemplates
import VpnPayment.Notifications.MailDelivery
import VpnPayment.Notifications.MailReplies
import VpnPayment.Notifications.SmtpConn
import VpnPayment.Notifications.SmtpReplies
import VpnPayment.Observability.SeriesApart
import VpnPayment.Pricing.ExchangeRates
import VpnPayment.Qr.Capacity
import VpnPayment.Qr.Codewords
import VpnPayment.Qr.Encoder
import VpnPayment.Qr.Format
import VpnPayment.Qr.GaloisField
import VpnPayment.Qr.Layout
import VpnPayment.Qr.Placement
import VpnPayment.Qr.ReedSolomon
import VpnPayment.Qr.Region
import VpnPayment.Qr.RoundTrip
import VpnPayment.Qr.Segments
import VpnPayment.Qr.Standard
import VpnPayment.Qr.Svg
import VpnPayment.Qr.Zigzag
import VpnPayment.Reporting.Csv
import VpnPayment.Secrets.CacheFreshness
import VpnPayment.Secrets.CachingSecretProvider
import VpnPayment.Services.AddressAllocator
import VpnPayment.Services.Calls
import VpnPayment.Services.Payment
import VpnPayment.Services.Refund
import VpnPayment.Services.Report
import VpnPayment.Services.Subscription
import VpnPayment.Services.System
import VpnPayment.Services.World
import VpnPayment.Settlement.Deliveries
import VpnPayment.Settlement.ExactlyOnce
import VpnPayment.Settlement.Guarded
import VpnPayment.Settlement.Healthy
import VpnPayment.Settlement.NumberedRefunds
import VpnPayment.Settlement.OneOrderPerKey
import VpnPayment.Settlement.OneRefundPerNumber
import VpnPayment.Settlement.OrderDiscipline
import VpnPayment.Settlement.OrderRules
import VpnPayment.Settlement.OrderWrites
import VpnPayment.Settlement.PayableOrders
import VpnPayment.Settlement.PaymentIntents
import VpnPayment.Settlement.PaymentPrograms
import VpnPayment.Settlement.ProofOfPayment
import VpnPayment.Settlement.RefundAccounts
import VpnPayment.Settlement.RefundLedger
import VpnPayment.Settlement.RefundNotices
import VpnPayment.Settlement.RefundPrograms
import VpnPayment.Settlement.RefundResults
import VpnPayment.Settlement.RejectedPayments
import VpnPayment.Settlement.Runs
import VpnPayment.Settlement.StatusMachine
import VpnPayment.Storage.Columns
import VpnPayment.Storage.InProcessLocker
import VpnPayment.Storage.Interchange
import VpnPayment.Storage.OrderPages
import VpnPayment.Storage.OrderQueries
import VpnPayment.Storage.RefundNumbers
import VpnPayment.Storage.Repositories
import VpnPayment.Storage.SqlRecords
import VpnPayment.Subscriptions.Entitlement
import VpnPayment.Subscriptions.ExpiryPass
import VpnPayment.Subscriptions.OneActive
import VpnPayment.Subscriptions.Refulfilment
import VpnPayment.Subscriptions.Writes
import VpnPayment.Sweep.Custody
import VpnPayment.Sweep.Filing
import VpnPayment.Sweep.Jobs
import VpnPayment.Sweep.Lifecycle
import VpnPayment.Sweep.Overlap
import VpnPayment.Sweep.Pipeline
import VpnPayment.Sweep.Recovery
import VpnPayment.Sweep.Resume
import VpnPayment.Sweep.Runs
import VpnPayment.Sweep.Service
import VpnPayment.Sweep.Steps
import VpnPayment.Sweep.Swept
import VpnPayment.Sweep.Treasury
import VpnPayment.Usdt.LookBack
import VpnPayment.Usdt.Transfers
import VpnPayment.Usdt.UniqueAmounts
import VpnPayment.Users.KeysInStep
import VpnPayment.Users.Logins
import VpnPayment.Webhooks.Dispatcher
import VpnPayment.Webhooks.Overlap
import VpnPayment.Webhooks.RetryBudget
import VpnPayment.Webhooks.Verify
