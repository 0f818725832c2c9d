import Haste.Foundation.Cover
import Haste.Foundation.CycleWalk
import Haste.Foundation.Feistel
import Haste.Foundation.Runs
import Haste.Foundation.Tiers
import Haste.Go.Strings
import Haste.Go.Time
import Haste.Id.Slug
import Haste.Id.Permutation
import Haste.Id.Encoding
import Haste.Id.Codes
import Haste.Compress.Codec
import Haste.Foundation.Transaction
import Haste.Store.Errors
import Haste.Store.Schema
import Haste.Store.Statements
import Haste.Store.Eviction
import Haste.Store.Create
import Haste.Store.Reads
import Haste.Store.Access
import Haste.Store.Sweep
import Haste.Store.Open
import Haste.Store.System
import Haste.Store.Accounting
import Haste.Store.Allocation
import Haste.Store.WriteOnce
import Haste.HttpApi.Create
import Haste.HttpApi.Expiry
import Haste.Store.Collision
import Haste.Store.FlushFailure
import Haste.Store.Staleness
import Haste.Store.Retention
import Haste.Store.Frame
import Haste.Store.Priority
import Haste.Store.Reading
import Haste.Foundation.Census
import Haste.Store.Admission
import Haste.Store.WriteQueue
import Haste.Foundation.TokenBucket
import Haste.HttpApi.RateLimit
import Haste.Go.Header
import Haste.HttpApi.Buffered
import Haste.HttpApi.Conditional
import Haste.Go.Json
import Haste.HttpApi.Read
import Haste.HttpApi.CacheControl
import Haste.HttpApi.Vary
import Haste.Foundation.Scanning
import Haste.Go.Utf8
import Haste.Go.Unquote
import Haste.Web.Strings
import Haste.Web.Limits
import Haste.HttpApi.ClientAddress
import Haste.HttpApi.Revalidation
import Haste.Go.Numbers
import Haste.HttpApi.AcceptEncoding
import Haste.Config.Parse
import Haste.Config.Validate
import Haste.Config.Label
import Haste.Go.Literals
import Haste.Go.Document
import Haste.HttpApi.Decoding
import Haste.Go.Consumption
import Haste.HttpApi.Envelope
import Haste.HttpApi.BodyLimit
import Haste.HttpApi.Agreement
import Haste.Go.Html
import Haste.Foundation.Occurrence
import Haste.HttpApi.Head
import Haste.HttpApi.Shell
import Haste.Go.Query
import Haste.HttpApi.QuerySettings
import Haste.Store.Migration
import Haste.HttpApi.Remaining
import Haste.Web.Lines
import Haste.Store.Durability
import Haste.Store.Numbering
import Haste.Store.Ledger
import Haste.Foundation.Cache
import Haste.HttpApi.Stats
import Haste.HttpApi.Throughput
import Haste.Go.Paths
import Haste.HttpApi.Routing
import Haste.HttpApi.Server
import Haste.HttpApi.Links
import Haste.Foundation.Validator
import Haste.HttpApi.Intake
import Haste.HttpApi.Recorded
import Haste.HttpApi.ClientCache
import Haste.HttpApi.Hardening
import Haste.Foundation.Requests
import Haste.Web.PastePage
import Haste.Web.Fetch
import Haste.Web.Visit
import Haste.HttpApi.Clients
import Haste.Config.Secret
import Haste.Cmd.Restarts
