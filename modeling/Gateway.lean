import Gateway.Lib.Arrangement
import Gateway.Lib.Collection
import Gateway.Lib.Fallible
import Gateway.Lib.Incremental
import Gateway.Lib.LeasedQueue
import Gateway.Lib.Leases
import Gateway.Lib.Machine
import Gateway.Lib.Segment
import Gateway.Lib.TokenBucket
import Gateway.Lib.Transaction
import Gateway.Lib.Simulation
import Gateway.Util.Number
import Gateway.Util.Text
import Gateway.Util.Time
import Gateway.Util.Json
import Gateway.Util.JsonText
import Gateway.Util.Sanitize
import Gateway.Util.JsonPrefix
import Gateway.Util.Utf16
import Gateway.Util.Decimal
import Gateway.Util.JsonRoundTrip
import Gateway.Util.NumberText
import Gateway.Http.Errors
import Gateway.Db.Types
import Gateway.Pricing.Ratios
import Gateway.Redis.Memory
import Gateway.Redis.Mongo
import Gateway.Redis.Scripts
import Gateway.Redis.Server
import Gateway.Redis.Admission
import Gateway.Redis.Lua
import Gateway.Redis.MongoLists
import Gateway.Redis.MongoRuns
import Gateway.Redis.Twins
import Gateway.Redis.Backends
import Gateway.RateLimit.Bucket
import Gateway.RateLimit.Concurrency
import Gateway.Quota.Ledger
import Gateway.Quota.Steps
import Gateway.Quota.System
import Gateway.Quota.Conservation
import Gateway.Quota.Flush
import Gateway.Quota.ExactlyOnce
import Gateway.Quota.Overselling
import Gateway.Routing.Health
import Gateway.Routing.Abilities
import Gateway.Routing.Candidates
import Gateway.Routing.Election
import Gateway.Routing.Keys
import Gateway.Routing.Select
import Gateway.Routing.Retry
import Gateway.Routing.Bounded
import Gateway.Routing.Tiers
import Gateway.Admin.Store
import Gateway.Admin.Catalog
import Gateway.Transform.Sse
import Gateway.Transform.Anthropic
import Gateway.Transform.Gemini
import Gateway.Transform.Openai
import Gateway.Transform.AnthropicRequest
import Gateway.Transform.SseParser
import Gateway.Transform.SseText
import Gateway.Transform.Translator
import Gateway.Transform.GeminiRequest
import Gateway.Transform.Responses
import Gateway.Transform.SseChunks
import Gateway.Transform.Assembly
import Gateway.Transform.Authority
import Gateway.Transform.SseRoundTrip
import Gateway.Transform.AnthropicAgreement
import Gateway.Transform.GeminiAgreement
import Gateway.Transform.Linkage
import Gateway.Transform.Content
import Gateway.Transform.Framing
import Gateway.Transform.Retention
import Gateway.Usage.Measure
import Gateway.Usage.Log
import Gateway.Usage.Billing
import Gateway.Usage.Buffer
import Gateway.Usage.Rollups
import Gateway.Relay.EventStream
import Gateway.Relay.Withheld
import Gateway.Relay.Settlement
import Gateway.Relay.Metering
import Gateway.Relay.Passthrough
import Gateway.Relay.Stream
import Gateway.Relay.Pipeline
import Gateway.Relay.Lifecycle
import Gateway.Relay.Abandoned
import Gateway.Relay.Agreement
import Gateway.Tasks.Submit
import Gateway.Auth.Cidr
import Gateway.Http.Headers
import Gateway.Routing.Entitlement
import Gateway.Usage.Formula
import Gateway.Pricing.Catalog
import Gateway.Pricing.Overrides
import Gateway.Quota.Migrate
import Gateway.Util.Crypto
import Gateway.Admin.Session
import Gateway.Setup.CronJobOrg
import Gateway.Setup.Provisioning
import Gateway.Usage.Summary
import Gateway.Transform.ClientResponses
import Gateway.Relay.Disclosure
import Gateway.Routing.Breaker
import Gateway.Admin.Channels
import Gateway.Redis.Keys
import Gateway.Routing.Reenabled
import Gateway.Routing.Reported
import Gateway.Transform.AnthropicFraming
import Gateway.Transform.Alternation
import Gateway.Lib.Splitting
import Gateway.Lib.Pattern
import Gateway.Lib.Succession
import Gateway.Util.Leaves
import Gateway.Util.Spelling
import Gateway.Http.Redact
import Gateway.Http.UpstreamError
import Gateway.Tasks.Task
import Gateway.Tasks.Policy
import Gateway.Tasks.Account
import Gateway.Tasks.Views
import Gateway.Tasks.Poll
import Gateway.Tasks.Polling
import Gateway.Lib.SlidingWindow
import Gateway.Lib.BytePrefix
import Gateway.RateLimit.SuccessWindow
import Gateway.RateLimit.FixedWindow
import Gateway.Auth.AddressText
import Gateway.Auth.AddressParser
import Gateway.Auth.AddressSpelling
import Gateway.Auth.Containment
import Gateway.Http.Forwarded
import Gateway.Routing.CacheKeys
import Gateway.Routing.Mapping
import Gateway.Routing.MappingEdits
import Gateway.Admin.Rebuilds
import Gateway.Upstream.Url
import Gateway.Upstream.Ssrf
import Gateway.Upstream.Routable
import Gateway.Upstream.HostLiteral
import Gateway.Upstream.PlainUrl
import Gateway.Util.JsonBounds
import Gateway.Lib.PrefixSums
import Gateway.Routing.Proportional
import Gateway.Transform.GeminiSchema
import Gateway.Admin.Audit
import Gateway.Transform.SseBounds
import Gateway.Lib.OrderedMap
import Gateway.Db.Documents
import Gateway.Db.Matching
import Gateway.Db.MemoryStore
import Gateway.Db.MemoryGuard
import Gateway.Db.MemorySound
import Gateway.Lib.Routine
import Gateway.Lib.ExclusiveQueue
import Gateway.Lib.SerialOrder
import Gateway.Db.MemoryDatabase
import Gateway.Db.MemoryTransactions
import Gateway.Upstream.Fetch
import Gateway.Upstream.FetchContainment
import Gateway.Auth.Credential
import Gateway.Auth.Authenticate
import Gateway.Auth.Rechecked
import Gateway.Admin.Accounts
import Gateway.Admin.Guard
import Gateway.Admin.Console
import Gateway.Admin.Router
import Gateway.Admin.Elevated
import Gateway.Lib.Base64
import Gateway.Util.Encoding
import Gateway.Util.Sealing
import Gateway.Admin.Cookies
import Gateway.Routing.Rotation
import Gateway.Admin.ChannelKeys
import Gateway.Lib.Dialogue
import Gateway.RateLimit.Ceiling
import Gateway.Admin.Password
import Gateway.Admin.SignIn
import Gateway.Admin.Vouched
import Gateway.Admin.SignInRuns
import Gateway.Admin.SignInAccounts
import Gateway.Admin.Attempts
