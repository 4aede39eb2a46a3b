import FqClient.Effects.Method
import FqClient.Commands
import FqClient.CommandEncoding
import FqClient.Scatter
import FqClient.Sharding
import FqClient.Reconnect
import FqClient.ShardedClient
import FqClient.ShardedScan
import FqClient.ShardedStore
import FqClient.Framing
import FqClient.Responses
import FqClient.Chunked
import FqClient.Network
import FqClient.Aio.Connection
import FqClient.Client
import FqClient.Sync.Connection
import FqClient.Packages
import FqClient.AtMostOnce
import FqClient.UnlimitedRetry
import FqClient.LostHandshake
import FqClient.ServerRestart
import FqClient.FramingRoundTrip
import FqClient.PolledStream
import FqClient.HelloFirst
import FqClient.TextRoundTrip
import FqClient.ResponseGrammar
import FqClient.Inspect
import FqClient.DocumentedDecoders
import FqClient.ErrorHierarchy
import FqClient.ResponseRoundTrip
import FqClient.OverlongAnswers
import FqClient.Effects.Tasks
import FqClient.Pool
import FqClient.Prefill
import FqClient.PoolSafety
import FqClient.Effects.Handler
import FqClient.Construction
import FqClient.FailedConstruction
import FqClient.FanOut
import FqClient.FanOutMerge
import FqClient.Effects.Runs
import FqClient.Executions
import FqClient.MalformedAnswers
import FqClient.Effects.Together
import FqClient.Mirroring
import FqClient.DeletedKeys
import FqClient.Reopening
import FqClient.SocketTimeouts
import FqClient.ReadDeadline
import FqClient.Retrying
import FqClient.Aio.Parts
import FqClient.Calls
import FqClient.AttemptBudget
import FqClient.CallDeadline
import FqClient.ChunkedRetries
import FqClient.RetryRefusals
import FqClient.StopRequests
import FqClient.ExpiredDeadlines
import FqClient.Hashing
import FqClient.ShardCursors
import FqClient.WalkPositions
import FqClient.ShardedDeletes
import FqClient.Effects.Timeouts
import FqClient.ShardedTimeouts
import FqClient.TypedReports
import FqClient.NewerReports
import FqClient.PoolClosing
import FqClient.ThreadedPool
import FqClient.HeldLines
import FqClient.PooledLines
import FqClient.ClientMethods
import FqClient.OwnResponses
import FqClient.Linearization
import FqClient.SequentialCalls
import FqClient.Effects.Several
import FqClient.ShardedCalls
import FqClient.StreamIsolation
import FqClient.FrameReads
import FqClient.ShardedStreams
import FqClient.Subscriptions
import FqClient.SocketCustody
import FqClient.SocketLedger
