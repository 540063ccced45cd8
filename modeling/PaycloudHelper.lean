import PaycloudHelper.Library.Transcripts
import PaycloudHelper.Library.Words
import PaycloudHelper.Library.Runs
import PaycloudHelper.Resilience.Breaker
import PaycloudHelper.Resilience.BreakerHistory
import PaycloudHelper.Resilience.BreakerTiming
import PaycloudHelper.Resilience.BreakerCancellation
import PaycloudHelper.Library.Slots
import PaycloudHelper.Resilience.Singleflight
import PaycloudHelper.Audit.InlineBreaker
import PaycloudHelper.Resilience.SingleflightFlights
import PaycloudHelper.Library.ChangeLogs
import PaycloudHelper.Grpc.Discovery
import PaycloudHelper.Library.Results
import PaycloudHelper.Library.ParseInt
import PaycloudHelper.Grpc.Connect
import PaycloudHelper.Grpc.DiscoveryMirror
import PaycloudHelper.Library.Programs
import PaycloudHelper.Core.Json
import PaycloudHelper.Redis.Pool
import PaycloudHelper.Http.Response
import PaycloudHelper.Library.CheckThenAct
import PaycloudHelper.Auth.Idempotency
import PaycloudHelper.Auth.IdempotencyRace
import PaycloudHelper.Library.JsonText
import PaycloudHelper.Core.JsonMinify
import PaycloudHelper.Library.JsonValues
import PaycloudHelper.Json.Profiles
import PaycloudHelper.Library.Delimited
import PaycloudHelper.SnapBi.Signature
import PaycloudHelper.SnapBi.SignedRequests
import PaycloudHelper.Resilience.SingleflightPanics
import PaycloudHelper.Auth.Revocation
import PaycloudHelper.Auth.FailClosed
import PaycloudHelper.Audit.Publisher
import PaycloudHelper.Audit.PublisherAccounting
import PaycloudHelper.Audit.PublisherStop
import PaycloudHelper.Audit.Envelopes
import PaycloudHelper.Library.Whitespace
import PaycloudHelper.Amqp.RequestReply
import PaycloudHelper.Amqp.Client
import PaycloudHelper.Library.BTreeMap
import PaycloudHelper.Library.Serde
import PaycloudHelper.Audit.Entities
import PaycloudHelper.Health.HealthCheck
import PaycloudHelper.Json.WireTypes
import PaycloudHelper.Trace.Telemetry
import PaycloudHelper.Trace.ResourceAttributes
import PaycloudHelper.Grpc.DiscoveryConvergence
import PaycloudHelper.Grpc.LookupSchedule
import PaycloudHelper.Redis.Locks
import PaycloudHelper.Redis.Ttl
import PaycloudHelper.Redis.Server
import PaycloudHelper.Redis.LockExclusion
import PaycloudHelper.Auth.SessionExpiry
import PaycloudHelper.Auth.MerchantIds
import PaycloudHelper.Auth.ReplayWindow
import PaycloudHelper.Auth.Stacks
import PaycloudHelper.Auth.KeySpaces
import PaycloudHelper.S3Minio.Health
import PaycloudHelper.Library.Splitting
import PaycloudHelper.Amqp.Addresses
import PaycloudHelper.Amqp.Connect
import PaycloudHelper.Log.RateLimit
import PaycloudHelper.Log.SamplerSchedule
import PaycloudHelper.Library.Utf8Slices
import PaycloudHelper.Library.ExpiringMaps
import PaycloudHelper.Log.Context
import PaycloudHelper.Core.Environment
import PaycloudHelper.Log.Lines
import PaycloudHelper.Sentry.Issues
import PaycloudHelper.Config.Bootstrap
import PaycloudHelper.Db.PoolConfig
import PaycloudHelper.Grpc.Config
import PaycloudHelper.Grpc.Targets
import PaycloudHelper.Grpc.Backoff
import PaycloudHelper.Xtask.LintMirrors
import PaycloudHelper.Xtask.LintSources
import PaycloudHelper.Xtask.Ratchet
