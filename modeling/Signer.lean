import Signer.AsterdexParams
import Signer.CacheRecency
import Signer.CancelIntents
import Signer.CancelOnly
import Signer.Contract.MeasurementRuns
import Signer.DecimalWords
import Signer.EnvelopeTool
import Signer.Gateway.Backoff
import Signer.Gateway.BlockedUnwind
import Signer.Gateway.DailyCounter
import Signer.Gateway.Evidence
import Signer.Gateway.Hedge
import Signer.Gateway.RateWindows
import Signer.Gateway.UnwindRequests
import Signer.Gateway.UnwindRuns
import Signer.Gateway.X402Spend
import Signer.HeartbeatRuns
import Signer.HyperliquidActions
import Signer.OrderTexts
import Signer.PathRules
import Signer.PaymentWords
import Signer.PolicyHash
import Signer.Preflight
import Signer.RateIsolation
import Signer.ReceiptSequence
import Signer.SecretsStdin
import Signer.SigningDomains
import Signer.SystemContexts
import Signer.TenantIsolation
