import ChatServer.ByteArray.Runs
import ChatServer.ByteArray.Cursor
import ChatServer.Lib.WordBytes
import ChatServer.ByteArray.Typed
import ChatServer.ByteArray.RoundTrip
import ChatServer.Lib.BitString
import ChatServer.Lib.PrefixCode
import ChatServer.Http2.HuffmanTable
import ChatServer.Http2.Huffman
import ChatServer.Http2.HuffmanTrie
import ChatServer.Http2.HuffmanDecode
import ChatServer.Http2.HuffmanEncode
import ChatServer.Http2.DynamicTable
import ChatServer.Http2.HPack
import ChatServer.Http2.VarInt
import ChatServer.Http2.HPackSync
import ChatServer.ByteArray.Grammar
import ChatServer.Http2.HeaderBlock
import ChatServer.Stream
import ChatServer.Http2.Frame
import ChatServer.Http2.FrameLayout
import ChatServer.Http2.FrameRoundTrip
import ChatServer.Http2.FramePayload
import ChatServer.Http2.FrameRuns
import ChatServer.Http2.Http2Stream
import ChatServer.Fiber.Exclusive
import ChatServer.ByteArray.Buffers
import ChatServer.Http2.Http2SocketStream
import ChatServer.Http2.Settings
import ChatServer.Http2.Reset
import ChatServer.Http2.ConnectionRuns
import ChatServer.Http2.Dispatch
import ChatServer.Http2.SendData
import ChatServer.Http2.FlowControl
import ChatServer.Http2.ReceiveCredit
import ChatServer.Http2.StreamCredit
import ChatServer.Http2.SendCredit
import ChatServer.Http2.ConnectionInvariant
import ChatServer.Http2.FrameSize
import ChatServer.Http2.LateFrames
import ChatServer.Http2.Demultiplex
import ChatServer.Http2.RemoteRequests
import ChatServer.Http2.TableSize
import ChatServer.Grpc.GrpcStream
import ChatServer.Streams.Ctx
import ChatServer.Streams.SendQueue
import ChatServer.Http.WSFrame
import ChatServer.Http.WSSession
import ChatServer.Http.WSRounds
import ChatServer.Http.WSReceive
import ChatServer.Http.WSRoundTrip
import ChatServer.Fiber.IOManager
import ChatServer.Fiber.Shutdown
import ChatServer.Http2.TableMirror
import ChatServer.Http2.TableSettings
import ChatServer.Http2.Http2Connection
import ChatServer.Http2.Incarnations
import ChatServer.Lib.OrderedSet
import ChatServer.Fiber.Timer
import ChatServer.Fiber.TimerRegistry
import ChatServer.Streams.BlockingQueue
import ChatServer.Fiber.FdContext
import ChatServer.Fiber.EventTable
import ChatServer.Fiber.EventRegistry
import ChatServer.Fiber.ContextTable
import ChatServer.Fiber.FdManager
import ChatServer.Fiber.FdRegistry
import ChatServer.Fiber.Hook
import ChatServer.Fiber.Reuse
import ChatServer.Lib.ScanTable
import ChatServer.Http.HttpRequest
import ChatServer.Http.HttpParser
import ChatServer.Http.HttpSession
import ChatServer.Http.HeadCuts
import ChatServer.Http.KeepAlive
import ChatServer.Http.HttpConnection
import ChatServer.Http.HttpResponseParser
import ChatServer.Lib.TaskPool
import ChatServer.Streams.QueueShutdown
import ChatServer.Fiber.WorkerGroup
import ChatServer.Fiber.DynaThread
import ChatServer.ConfigVar
import ChatServer.Http.SessionData
import ChatServer.Http.HttpConnectionPool
import ChatServer.Streams.HolderStats
import ChatServer.Streams.LoadBalance
import ChatServer.Streams.Membership
import ChatServer.Streams.LoadBalanceRegistry
import ChatServer.ByteArray.EmptyReads
import ChatServer.ByteArray.Cuts
import ChatServer.ByteArray.Positional
import ChatServer.ByteArray.FileExport
import ChatServer.Http2.RejectedChanges
import ChatServer.Http2.Fragments
import ChatServer.Http2.EndStream
import ChatServer.Http2.ExactIntegers
import ChatServer.Grpc.GrpcConnection
import ChatServer.Lib.Recorded
import ChatServer.Lib.Shares
import ChatServer.Http.WSAccesses
import ChatServer.Http.WSSharedMessage
import ChatServer.Fiber.TimerExpiry
import ChatServer.Fiber.TimerDeadlines
import ChatServer.Fiber.HookSleep
import ChatServer.Fiber.HookFcntl
import ChatServer.Fiber.BatchSchedule
import ChatServer.Streams.StatsWindow
import ChatServer.Streams.WeightedSelection
import ChatServer.Http.FixedBody
import ChatServer.Http.BodyLimit
import ChatServer.Lib.LineEnd
import ChatServer.Http.Dump
import ChatServer.Http.PlainMessages
import ChatServer.Util.UrlCode
import ChatServer.Util.Base64
import ChatServer.Http.MethodNames
import ChatServer.Lib.TextSearch
import ChatServer.Http.ParamMap
import ChatServer.Http.Uri
import ChatServer.Http.QueryParams
import ChatServer.Util.Tracker
import ChatServer.Util.TrackerWindow
import ChatServer.Fiber.RefusedDispatch
import ChatServer.Http.ConnectionAge
import ChatServer.Http.RequestTimeout
import ChatServer.Streams.ServiceItem
import ChatServer.Util.JsonEscape
import ChatServer.Util.Split
import ChatServer.Net.Lookup
import ChatServer.Net.Subnet
import ChatServer.Net.IPv6Text
import ChatServer.Http2.TableLookups
import ChatServer.ByteArray.StringF16
import ChatServer.Log.LogFormatter
import ChatServer.Log.LogDefine
import ChatServer.Log.LogIniter
import ChatServer.Fiber.HookIo
import ChatServer.Streams.AsyncSocketStream
import ChatServer.Fiber.PoolOrder
import ChatServer.Http.HttpServer
import ChatServer.Http.WSServer
import ChatServer.Streams.ProviderWatch
import ChatServer.Streams.Compression
