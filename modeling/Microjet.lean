import Microjet.Proofs.BreakerRuns
import Microjet.Proofs.BreakerSpec
import Microjet.Proofs.CacheHistory
import Microjet.Proofs.CloseOrder
import Microjet.Proofs.ConfigCase
import Microjet.Proofs.CorrelationHops
import Microjet.Proofs.DynamoBatch
import Microjet.Proofs.DynamoUpdate
import Microjet.Proofs.EnvelopeBody
import Microjet.Proofs.ErrorLeak
import Microjet.Proofs.GroupRules
import Microjet.Proofs.HeaderLeak
import Microjet.Proofs.HealthShutdown
import Microjet.Proofs.HostBuilt
import Microjet.Proofs.HostClose
import Microjet.Proofs.HostInit
import Microjet.Proofs.HostSetup
import Microjet.Proofs.IdempotencyMemo
import Microjet.Proofs.JetStreamDelivery
import Microjet.Proofs.JetStreamIsolation
import Microjet.Proofs.KeyPattern
import Microjet.Proofs.KeyedLimit
import Microjet.Proofs.Lineage
import Microjet.Proofs.LoaderInvalidate
import Microjet.Proofs.LoaderOnce
import Microjet.Proofs.LogLines
import Microjet.Proofs.LogWrites
import Microjet.Proofs.MemoryAtomic
import Microjet.Proofs.MinorUnits
import Microjet.Proofs.ModuleInstall
import Microjet.Proofs.OffsetPages
import Microjet.Proofs.OutboxDelivery
import Microjet.Proofs.RateWindow
import Microjet.Proofs.RejectedFields
import Microjet.Proofs.RelayWake
import Microjet.Proofs.RetryLoop
import Microjet.Proofs.S3Download
import Microjet.Proofs.SecretLog
import Microjet.Proofs.SortableTime
import Microjet.Proofs.TenantParam
import Microjet.Proofs.TimeoutResponse
import Microjet.Proofs.TxCompose
import Microjet.Proofs.WriteErrors
