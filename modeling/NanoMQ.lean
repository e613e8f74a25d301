import NanoMQ.AclVerdict
import NanoMQ.PlaceholderIsolation
import NanoMQ.FailedPublish
import NanoMQ.BridgeAlias
import NanoMQ.BridgeOrder
import NanoMQ.RetainDelivery
import NanoMQ.UpstreamState
import NanoMQ.RetainBackends
import NanoMQ.RuleAbsent
import NanoMQ.HandleSafety
import NanoMQ.TableSchema
import NanoMQ.SqlInjection
import NanoMQ.PlaceholderCopy
import NanoMQ.WebhookDelivery
import NanoMQ.RuleAtomic
import NanoMQ.MessageExpiry
import NanoMQ.SharedFilter
import NanoMQ.RetainCollection
import NanoMQ.BridgeRemap
import NanoMQ.BridgeProperties
import NanoMQ.BridgeSubList
import NanoMQ.HookLifecycle
import NanoMQ.MysqlRow
import NanoMQ.ReceiveCycle
import NanoMQ.Base62Fits
import NanoMQ.NftpPositions
import NanoMQ.BenchLimit
import NanoMQ.UrlDecoding
import NanoMQ.ClientQuery
import NanoMQ.ConfPostSections
import NanoMQ.Base64Groups
import NanoMQ.Base64Bounds
import NanoMQ.WorkSlots
import NanoMQ.TableCreate
import NanoMQ.RowBuffers
import NanoMQ.RestPublish
import NanoMQ.ClockTicking
import NanoMQ.DdsPipeline
import NanoMQ.RestServerRuns
import NanoMQ.NftpQueue
