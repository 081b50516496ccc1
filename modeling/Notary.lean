import Notary.Adapter.Exactness
import Notary.Billing.DisputeConvergence
import Notary.Billing.RefundConvergence
import Notary.Billing.ReviewAgreement
import Notary.Billing.SubscriptionOrder
import Notary.Core.AnthropicStreams
import Notary.Core.ArchiveRoundTrip
import Notary.Core.CanonicalJson
import Notary.Core.ChatStreams
import Notary.Core.ChunkedCoding
import Notary.Core.CommitmentLayout
import Notary.Core.Disclosure
import Notary.Core.LiveBudget
import Notary.Core.NormalizerPanics
import Notary.Core.NotaryEndpoint
import Notary.Core.Pagination
import Notary.Core.PublicSafetyForce
import Notary.Core.RedactionContract
import Notary.Core.RequestTarget
import Notary.Core.VaultInit
import Notary.Core.ResponsesItems
import Notary.Core.ToolPayloads
import Notary.Daemon.AccountOrigins
import Notary.Daemon.CaptureSafety
import Notary.Daemon.ProviderRoutes
import Notary.Devices.Rotation
import Notary.Lib.Pieces
import Notary.Platform.Balance
import Notary.Platform.PlanAgreement
import Notary.Platform.PublicAllowance
import Notary.Platform.SettlementSplit
import Notary.Traces.Orphans
import Notary.Traces.QueuedPackage
import Notary.Traces.StorageQuota
import Notary.Updater.FailureReport
import Notary.Updater.InstallSafety
import Notary.Updater.RecoveryRetry
