import Acppsrv.Lib.Run
import Acppsrv.Lib.Locals
import Acppsrv.Lib.Monitor
import Acppsrv.Lib.Codec
import Acppsrv.Lib.Retry
import Acppsrv.Lib.RoundRobin
import Acppsrv.Lib.Decimal
import Acppsrv.Lib.Reader
import Acppsrv.Db.Message
import Acppsrv.Db.Sqlite
import Acppsrv.Db.RunQuery
import Acppsrv.Db.Isolation
import Acppsrv.Db.OpenStatements
import Acppsrv.Db.Outcome
import Acppsrv.Db.RetryRows
import Acppsrv.Db.RoundTrip
import Acppsrv.Db.Table
import Acppsrv.Db.Pool
import Acppsrv.Db.Sync
import Acppsrv.Benchmark.Create
import Acppsrv.Benchmark.CommandLine
import Acppsrv.Benchmark.RecordCount
import Acppsrv.Benchmark.Transactions
import Acppsrv.Benchmark.KnownKeys
import Acppsrv.Benchmark.KeyDraws
import Acppsrv.Benchmark.TimeRef
import Acppsrv.Benchmark.Reports
import Acppsrv.Http.Handler
import Acppsrv.Http.Negotiation
import Acppsrv.Http.Connection
import Acppsrv.Http.Received
import Acppsrv.Http.Transcript
import Acppsrv.Http.Framing
import Acppsrv.Http.Server
import Acppsrv.Http.Limits
import Acppsrv.Http.ConnLimit
import Acppsrv.Http.AcceptLoop
import Acppsrv.Http.StatCounters
import Acppsrv.Http.Call
import Acppsrv.Http.Serialize
import Acppsrv.Http.StatReset
import Acppsrv.Http.ContentType
import Acppsrv.Config.Configuration
import Acppsrv.Http.Pools
import Acppsrv.Lib.Calls
import Acppsrv.Lib.IoContext
import Acppsrv.Http.Queries
import Acppsrv.Http.Completion
import Acppsrv.App.Lifecycle
import Acppsrv.App.Shutdown
import Acppsrv.Benchmark.Requests
import Acppsrv.Benchmark.Deadline
import Acppsrv.Benchmark.RequestRows
import Acppsrv.Benchmark.CreateEnd
import Acppsrv.Lib.Handles
import Acppsrv.Db.Handles
import Acppsrv.Benchmark.Committed
import Acppsrv.Lib.Rounding
import Acppsrv.Config.Time
import Acppsrv.Lib.Strands
import Acppsrv.Benchmark.Threads
import Acppsrv.Http.Timeouts
