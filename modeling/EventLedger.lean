import EventLedger.LabelledRun
import EventLedger.CircuitBreaker
import EventLedger.BreakerCalls
import EventLedger.BreakerLiveness
import EventLedger.BreakerEpisodes
import EventLedger.BreakerTrips
import EventLedger.DecimalDigits
import EventLedger.DecimalFloat
import EventLedger.DecimalText
import EventLedger.KeyedTable
import EventLedger.DateTime
import EventLedger.Json
import EventLedger.Models
import EventLedger.Audit
import EventLedger.Stores
import EventLedger.Balance
import EventLedger.UrlPath
import EventLedger.AccountPath
import EventLedger.Program
import EventLedger.AccountService
import EventLedger.AccountClient
import EventLedger.Gateway
import EventLedger.LedgerSystem
import EventLedger.LedgerInvariant
import EventLedger.LedgerSafety
import EventLedger.LedgerSteps
import EventLedger.LedgerRuns
import EventLedger.ExactlyOnce
import EventLedger.Agreement
import EventLedger.Convergence
import EventLedger.Unrecorded
import EventLedger.Tracing
import EventLedger.CanonicalAmounts
import EventLedger.Currencies
import EventLedger.Chronology
import EventLedger.SharedConnection
import EventLedger.ProgramTraces
import EventLedger.ServiceRuns
import EventLedger.AccountApi
import EventLedger.BalanceSnapshots
import EventLedger.GatewayApi
import EventLedger.HandlerOperations
import EventLedger.CallOutcomes
import EventLedger.DownstreamErrors
import EventLedger.AuditTrail
import EventLedger.SubmissionAudit
import EventLedger.RetryLoop
import EventLedger.BreakerCounters
import EventLedger.TableService
import EventLedger.OneStory
import EventLedger.CanonicalRows
import EventLedger.BalanceText
import EventLedger.OrderedDict
import EventLedger.TextExposition
import EventLedger.Metrics
import EventLedger.HistogramCounts
import EventLedger.ExpositionText
import EventLedger.Middleware
import EventLedger.RequestMetrics
import EventLedger.LabelCardinality
import EventLedger.TraceparentGrammar
import EventLedger.JsonDecoder
import EventLedger.ContextVariable
import EventLedger.Correlation
import EventLedger.AuditQueries
import EventLedger.Metadata
import EventLedger.Linearization
import EventLedger.EventRegister
import EventLedger.TransactionRegister
import EventLedger.FailingAudits
import EventLedger.CallTraffic
import EventLedger.ResilientGateway
import EventLedger.OutageTraffic
import EventLedger.Reconciliation
import EventLedger.HandlerTrails
import EventLedger.TracedSystem
import EventLedger.DistributedTraces
import EventLedger.PrintedJson
import EventLedger.LogRecords
import EventLedger.LogStream
import EventLedger.AuditLines
import EventLedger.AuditMirror
import EventLedger.ReadPaths
import EventLedger.ReadingSystem
import EventLedger.FreshReads
import EventLedger.HostedServices
import EventLedger.ServiceViews
import EventLedger.TwoAuditTrails
import EventLedger.PinnedReads
import EventLedger.FaultIsolation
import EventLedger.RestartingSystem
import EventLedger.RestartSafety
import EventLedger.Rebuilding
