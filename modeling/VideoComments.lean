import VideoComments.Cache.Client
import VideoComments.Cache.Entries
import VideoComments.Cache.Key
import VideoComments.Cache.Operation
import VideoComments.Comment
import VideoComments.Comment.Page
import VideoComments.Comment.Statement
import VideoComments.Comment.Table
import VideoComments.Config
import VideoComments.Config.EnvFile
import VideoComments.Database.Migration
import VideoComments.Database.Pool
import VideoComments.Duration
import VideoComments.Environment
import VideoComments.Failure
import VideoComments.Json.Literal
import VideoComments.Json.Value
import VideoComments.Link
import VideoComments.Main
import VideoComments.Metrics.Exposition
import VideoComments.Metrics.Histogram
import VideoComments.Metrics.Requests
import VideoComments.Net.Endpoint
import VideoComments.Net.Ip
import VideoComments.Net.SocketAddress
import VideoComments.Net.Url
import VideoComments.Numeric.Digits
import VideoComments.Numeric.Double
import VideoComments.Numeric.Layout
import VideoComments.Numeric.Scaled
import VideoComments.Program
import VideoComments.Proofs.Cache.Client
import VideoComments.Proofs.Cache.Entries
import VideoComments.Proofs.Cache.Key
import VideoComments.Proofs.Cache.Working
import VideoComments.Proofs.Comment.Page
import VideoComments.Proofs.Comment.Table
import VideoComments.Proofs.Interleaving
import VideoComments.Proofs.Json.Literal
import VideoComments.Proofs.Metrics.Requests
import VideoComments.Proofs.Program
import VideoComments.Proofs.Repository.Basic
import VideoComments.Proofs.Repository.Cached
import VideoComments.Proofs.Repository.Counting
import VideoComments.Proofs.Repository.Dialogue
import VideoComments.Proofs.Repository.Faithful
import VideoComments.Proofs.Repository.Freshness
import VideoComments.Proofs.Repository.Session
import VideoComments.Proofs.Repository.Staleness
import VideoComments.Proofs.Repository.Transcript
import VideoComments.Proofs.Repository.Transparency
import VideoComments.Proofs.Rpc.Adapter
import VideoComments.Proofs.Rpc.Message
import VideoComments.Proofs.Rpc.Status
import VideoComments.Proofs.Service.Accounting
import VideoComments.Proofs.Service.Board
import VideoComments.Proofs.Service.Calls
import VideoComments.Proofs.Service.Traffic
import VideoComments.Proofs.Stack
import VideoComments.Proofs.Substitution
import VideoComments.Proofs.Text.Decimal
import VideoComments.Proofs.Text.Hex
import VideoComments.Proofs.Uuid.Spelling
import VideoComments.Proofs.Wire.Field
import VideoComments.Proofs.Wire.Varint
import VideoComments.Proofs.World
import VideoComments.Redis.Command
import VideoComments.Redis.Location
import VideoComments.Repository.Basic
import VideoComments.Repository.Cached
import VideoComments.Repository.Operation
import VideoComments.Rpc.Adapter
import VideoComments.Rpc.Frame
import VideoComments.Rpc.Message
import VideoComments.Rpc.Request
import VideoComments.Rpc.Server
import VideoComments.Rpc.Status
import VideoComments.Service.Accounting
import VideoComments.Service.Calls
import VideoComments.Signal
import VideoComments.Stack
import VideoComments.Startup
import VideoComments.Text.Alphanumeric
import VideoComments.Text.Blank
import VideoComments.Text.Decimal
import VideoComments.Text.Hex
import VideoComments.Text.Lines
import VideoComments.Text.Percent
import VideoComments.Text.Utf8
import VideoComments.Uuid
import VideoComments.Uuid.Fault
import VideoComments.Uuid.Spelling
import VideoComments.Wire.Field
import VideoComments.Wire.Varint
import VideoComments.World
import VideoComments.Proofs.Repository.Warmth
import VideoComments.Proofs.Repository.Invalidation
import VideoComments.Proofs.Repository.Countable
import VideoComments.Proofs.Service.Identifiers
import VideoComments.Proofs.Service.Paging
import VideoComments.Proofs.Json.Grammar
import VideoComments.Proofs.Json.Value
import VideoComments.Proofs.Comment.Layout
import VideoComments.Proofs.Rpc.Compatibility
import VideoComments.Proofs.Repository.Lifetime
import VideoComments.Proofs.Net.Ip
import VideoComments.Proofs.Net.Canonical
import VideoComments.Proofs.Uuid.Fault
import VideoComments.Proofs.Metrics.Exposition
import VideoComments.Proofs.Service.Shelf
