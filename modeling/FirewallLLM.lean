import FirewallLLM.Ledger
import FirewallLLM.Runs
import FirewallLLM.Wrapping
import FirewallLLM.Substitution
import FirewallLLM.MeteringStore
import FirewallLLM.QuotaLedger
import FirewallLLM.Metering
import FirewallLLM.MeteringDays
import FirewallLLM.MeteringOverflow
import FirewallLLM.TokenStore
import FirewallLLM.Dlp
import FirewallLLM.DlpRestore
import FirewallLLM.DlpRoundTrip
import FirewallLLM.Json
import FirewallLLM.StreamResponse
import FirewallLLM.DlpCoverage
import FirewallLLM.InspectorChain
import FirewallLLM.SharedSlot
import FirewallLLM.Ingress
import FirewallLLM.ApiError
import FirewallLLM.Program
import FirewallLLM.ChatCompletions
import FirewallLLM.ChatRuntime
import FirewallLLM.SettlePrograms
import FirewallLLM.SettleOnce
import FirewallLLM.PyValue
import FirewallLLM.PyGateway
import FirewallLLM.PyStream
import FirewallLLM.PyInflight
import FirewallLLM.AuditPrograms
import FirewallLLM.AuditOnce
import FirewallLLM.Gates
import FirewallLLM.ServedRequest
import FirewallLLM.ServedAnswer
import FirewallLLM.ChoiceRestore
import FirewallLLM.Accounting
import FirewallLLM.CappedPrograms
import FirewallLLM.ClientQuota
import FirewallLLM.CivilDays
import FirewallLLM.Router
import FirewallLLM.PyRouter
import FirewallLLM.RouterProviders
import FirewallLLM.RouterAgreement
import FirewallLLM.JsonText
import FirewallLLM.PyJson
import FirewallLLM.PyAudit
import FirewallLLM.Decimal
import FirewallLLM.RedisMap
import FirewallLLM.PyRouterStore
import FirewallLLM.RouterReplicas
import FirewallLLM.RouterStores
import FirewallLLM.StoreRefinement
import FirewallLLM.FailoverTasks
import FirewallLLM.PyInspectors
import FirewallLLM.Yaml
import FirewallLLM.Config
import FirewallLLM.ConfigModes
import FirewallLLM.PyConfig
import FirewallLLM.ConfigAgreement
import FirewallLLM.Correlation
import FirewallLLM.TunnelLoop
import FirewallLLM.TunnelReplies
import FirewallLLM.AuditSearch
import FirewallLLM.AnyCompletion
import FirewallLLM.StoreAgreement
import FirewallLLM.PyMetering
import FirewallLLM.Utf8
import FirewallLLM.MlClassifier
import FirewallLLM.Spans
import FirewallLLM.DlpLeaks
import FirewallLLM.SlidingWindow
import FirewallLLM.AttackWindow
import FirewallLLM.PyAttackWindow
import FirewallLLM.UsageReading
import FirewallLLM.TextPattern
import FirewallLLM.ToolCallScan
import FirewallLLM.EgressPools
import FirewallLLM.MeasurePrograms
import FirewallLLM.MeasureOnce
import FirewallLLM.TunnelWaits
import FirewallLLM.Registry
import FirewallLLM.PyFallback
import FirewallLLM.ProxyRotation
import FirewallLLM.ProxyCooldown
import FirewallLLM.LeastUsed
import FirewallLLM.SseReader
import FirewallLLM.SseGrammar
import FirewallLLM.SseDocuments
import FirewallLLM.StreamEnds
import FirewallLLM.TextRewrite
import FirewallLLM.TextLabels
import FirewallLLM.AuditRedaction
import FirewallLLM.TokenSubstitution
import FirewallLLM.DeadStore
import FirewallLLM.Gregorian
import FirewallLLM.Binary64
import FirewallLLM.Calendar
import FirewallLLM.DlpVault
import FirewallLLM.QuotaKeys
import FirewallLLM.HeaderMasking
import FirewallLLM.Padding
import FirewallLLM.CountedOnce
import FirewallLLM.AuditLedger
import FirewallLLM.PyAccounts
import FirewallLLM.TunnelProvider
import FirewallLLM.RedisExpiry
import FirewallLLM.Endpoints
import FirewallLLM.RouterMirror
import FirewallLLM.StreamedText
import FirewallLLM.SharedMetering
