import ClientServer.Common.Header
import ClientServer.Common.HeaderCodec
import ClientServer.Common.Message
import ClientServer.Common.HeaderBounds
import ClientServer.Common.HeaderStrict
import ClientServer.Common.MessageBounds
import ClientServer.Common.MessageSizes
import ClientServer.Common.ThreadPoolBase
import ClientServer.Common.PoolAdmission
import ClientServer.Common.PoolStop
import ClientServer.Common.PoolObjects
import ClientServer.Common.Transport
import ClientServer.Common.Framing
import ClientServer.Common.EndOfFile
import ClientServer.Common.Sending
import ClientServer.Common.Utility
import ClientServer.Common.SplitLoops
import ClientServer.Common.Lines
import ClientServer.Common.LinesAt
import ClientServer.Common.LinesExact
import ClientServer.Common.LinesStop
import ClientServer.Common.Lines2
import ClientServer.Common.LinesAgree
import ClientServer.Common.LinesStale
import ClientServer.Common.LinesCount
import ClientServer.Crypto.Encryptors
import ClientServer.Crypto.Compression
import ClientServer.Crypto.Decompression
import ClientServer.Crypto.Operations
import ClientServer.Crypto.Pipeline
import ClientServer.Crypto.EncryptRuns
import ClientServer.Crypto.SessionKeys
import ClientServer.Crypto.KeyObfuscation
import ClientServer.Crypto.Handshake
import ClientServer.Crypto.HandshakeKeys
import ClientServer.Business.SizeKey
import ClientServer.Business.SizeFormats
import ClientServer.Business.Transaction
import ClientServer.Business.AdCache
import ClientServer.Business.Ad
import ClientServer.Business.AdsFile
import ClientServer.Business.AdEntry
import ClientServer.Business.Keywords
import ClientServer.Business.WinningBid
import ClientServer.Server.Receiving
import ClientServer.Server.Acceptor
import ClientServer.Server.SessionBounds
import ClientServer.Server.Policy
import ClientServer.Server.InvalidRequests
import ClientServer.Server.Task
import ClientServer.Server.Batch
import ClientServer.Server.Schedule
import ClientServer.Server.BatchRows
import ClientServer.Server.TaskController
import ClientServer.Server.TaskProtocol
import ClientServer.Server.TaskProgress
import ClientServer.Server.Shutdown
import ClientServer.Server.ShutdownReturns
import ClientServer.Server.WorkerThreads
import ClientServer.Server.BatchEngine
import ClientServer.Server.EchoRows
import ClientServer.Server.ThreadPoolSessions
import ClientServer.Server.PoolSteps
import ClientServer.Server.PoolAccounts
import ClientServer.Server.SessionObjects
import ClientServer.Server.SessionLimits
import ClientServer.Server.SessionOrder
import ClientServer.Server.WaitingStatus
import ClientServer.Server.StrandedSessions
import ClientServer.Fifo.Rendezvous
import ClientServer.Fifo.HalfDuplex
import ClientServer.Client.TaskBuilder
import ClientServer.Client.TaskSteps
import ClientServer.Client.TaskPhases
import ClientServer.Client.TaskPasses
import ClientServer.Client.TaskDeadlock
import ClientServer.Client.SourceLines
import ClientServer.Client.BatchCutting
import ClientServer.Client.RequestNumbers
import ClientServer.Client.EchoEndToEnd
import ClientServer.Library.EventLoop
import ClientServer.Library.Dialogue
import ClientServer.Server.BuildReply
import ClientServer.Server.TcpSession
import ClientServer.Server.TcpSessionSteps
import ClientServer.Server.TcpSessionRuns
import ClientServer.Client.PrintReply
import ClientServer.Client.TcpClient
import ClientServer.Client.TcpConversation
import ClientServer.Client.FifoClient
import ClientServer.Client.FifoConversation
import ClientServer.Server.Channel
import ClientServer.Client.Delivery
import ClientServer.Client.TcpDelivery
import ClientServer.Client.EchoDelivery
import ClientServer.Client.EchoOverTcp
import ClientServer.Client.EchoOverFifo
import ClientServer.Server.HandshakeBytes
import ClientServer.Client.Connect
import ClientServer.Client.Connects
import ClientServer.Client.TcpClientHeartbeat
import ClientServer.Client.HeartbeatSteps
import ClientServer.Client.HeartbeatRuns
