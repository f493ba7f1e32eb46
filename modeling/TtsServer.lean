import TtsServer.Lib.Table
import TtsServer.Lib.Runs
import TtsServer.Lib.Selections
import TtsServer.Messages
import TtsServer.HexCodec
import TtsServer.FrameCodec
import TtsServer.SessionPool
import TtsServer.PendingStore
import TtsServer.DataBoard
import TtsServer.Evolution
import TtsServer.Heartbeat
import TtsServer.HandlerEffects
import TtsServer.History
import TtsServer.Routing
import TtsServer.Exclusivity
import TtsServer.LocalLoop
import TtsServer.UpstreamDelivery
import TtsServer.SilentFailure
import TtsServer.Accounting
import TtsServer.PoolExhaustion
import TtsServer.Reception
import TtsServer.TickBoundaries
import TtsServer.StreamHandler
import TtsServer.ByteAccounting
import TtsServer.SessionFrames
import TtsServer.ClosedSessions
import TtsServer.Expiry
import TtsServer.Lib.Interleavings
import TtsServer.Isolation
import TtsServer.RequestParser
import TtsServer.WriterRegistry
import TtsServer.ClientStream
import TtsServer.Lib.Recency
import TtsServer.PoolRefinement
import TtsServer.SingleLayer
import TtsServer.Admission
import TtsServer.ChunkAssembly
import TtsServer.DisconnectCleanup
import TtsServer.SteadyClock
import TtsServer.Replies
import TtsServer.Channels
import TtsServer.JwtVerifier
import TtsServer.AudioResampler
import TtsServer.Lib.Backlog
import TtsServer.LwsTransport
import TtsServer.RequestSettings
import TtsServer.CompactClaims
import TtsServer.LocalRequests
import TtsServer.CloseOrders
import TtsServer.CorruptAudio
import TtsServer.LatencyPercentile
import TtsServer.BusWorkers
import TtsServer.EventBus
import TtsServer.LostWakeups
import TtsServer.PriorityTimer
import TtsServer.Lib.LeadsTo
import TtsServer.StreamAnswers
import TtsServer.StreamLiveness
import TtsServer.OutboundFrames
import TtsServer.OutboundLiveness
import TtsServer.BlockingChannel
import TtsServer.Reactor
import TtsServer.ReactorPools
import TtsServer.BusEvents
import TtsServer.BusLiveness
import TtsServer.Lib.JsonReading
import TtsServer.FrameTexts
import TtsServer.Observability
import TtsServer.AuthorisedCalls
import TtsServer.Lib.Precision
import TtsServer.Lib.Interpolation
import TtsServer.DoubleResampler
import TtsServer.LocalSpeech
