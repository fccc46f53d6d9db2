import VaultplaneGateway.AdapterRoundTrip
import VaultplaneGateway.AdminApi
import VaultplaneGateway.AnthropicStreaming
import VaultplaneGateway.AnthropicTranslation
import VaultplaneGateway.AuditTrail
import VaultplaneGateway.BedrockSigning
import VaultplaneGateway.BoundedPatterns
import VaultplaneGateway.BudgetOvershoot
import VaultplaneGateway.BufferedDecoding
import VaultplaneGateway.CacheProvenance
import VaultplaneGateway.ChunkedParsing
import VaultplaneGateway.CivilCalendar
import VaultplaneGateway.ConcurrentReloads
import VaultplaneGateway.ConditionalReplicas
import VaultplaneGateway.ConfigDecoding
import VaultplaneGateway.ConfigDocuments
import VaultplaneGateway.ConfigModes
import VaultplaneGateway.ConfigOverlay
import VaultplaneGateway.ControlNodeClient
import VaultplaneGateway.CostMetrics
import VaultplaneGateway.DerivedDecoding
import VaultplaneGateway.EpochCounters
import VaultplaneGateway.ErrorEnvelopes
import VaultplaneGateway.ErrorRewriting
import VaultplaneGateway.EventFields
import VaultplaneGateway.EventStreams
import VaultplaneGateway.FailoverPolicy
import VaultplaneGateway.FailureAtomicity
import VaultplaneGateway.FallibleComputations
import VaultplaneGateway.FieldOverlays
import VaultplaneGateway.GateOrder
import VaultplaneGateway.InlinePlugins
import VaultplaneGateway.JsonReading
import VaultplaneGateway.KeyLifecycle
import VaultplaneGateway.KeyMinting
import VaultplaneGateway.KeyRecords
import VaultplaneGateway.KeyRevocation
import VaultplaneGateway.KeySwaps
import VaultplaneGateway.LinkHistory
import VaultplaneGateway.LinkStatus
import VaultplaneGateway.LiteralReplacement
import VaultplaneGateway.MetricLabels
import VaultplaneGateway.ModelListing
import VaultplaneGateway.ModelRegistry
import VaultplaneGateway.NodeConvergence
import VaultplaneGateway.OfflineKeys
import VaultplaneGateway.OnlineKeys
import VaultplaneGateway.OpenAiForwarding
import VaultplaneGateway.OrphanedState
import VaultplaneGateway.OverlayLaws
import VaultplaneGateway.PathEncoding
import VaultplaneGateway.PeriodTokens
import VaultplaneGateway.PiiRedaction
import VaultplaneGateway.PluginHost
import VaultplaneGateway.ProviderCalls
import VaultplaneGateway.ProviderConnectors
import VaultplaneGateway.ProviderFailover
import VaultplaneGateway.ProxyPipeline
import VaultplaneGateway.RateLimiting
import VaultplaneGateway.RateWindows
import VaultplaneGateway.Readiness
import VaultplaneGateway.RedactedPayloads
import VaultplaneGateway.ReloadGenerations
import VaultplaneGateway.ReloadRaces
import VaultplaneGateway.RequestAccounting
import VaultplaneGateway.RequestInterleaving
import VaultplaneGateway.RequestedModel
import VaultplaneGateway.ResponseCaching
import VaultplaneGateway.RuntimeBuilding
import VaultplaneGateway.SharedConversations
import VaultplaneGateway.SignatureV4
import VaultplaneGateway.SigningDates
import VaultplaneGateway.SpendHistory
import VaultplaneGateway.SpendReporting
import VaultplaneGateway.SpendTracking
import VaultplaneGateway.StreamUsage
import VaultplaneGateway.StreamedCharges
import VaultplaneGateway.TenantIsolation
import VaultplaneGateway.TlsReload
import VaultplaneGateway.TokenBucketLaw
import VaultplaneGateway.TokenCounts
import VaultplaneGateway.TransitionRuns
import VaultplaneGateway.TranslationAgreement
import VaultplaneGateway.UsageTee
import VaultplaneGateway.WireFormats
import VaultplaneGateway.YamlEntries
import VaultplaneGateway.YamlReading
