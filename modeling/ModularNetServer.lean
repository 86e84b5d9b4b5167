import ModularNetServer.Library.Loop
import ModularNetServer.Library.CxxText
import ModularNetServer.Library.Table
import ModularNetServer.Json.Json
import ModularNetServer.Http.HttpRequest
import ModularNetServer.Http.ReadSide
import ModularNetServer.Http.LineParser
import ModularNetServer.Http.HttpConn
import ModularNetServer.Http.Proofs.AuthenticationProofs
import ModularNetServer.Http.Proofs.ChunkingProofs
import ModularNetServer.Http.Proofs.ConfinementProofs
import ModularNetServer.Http.Proofs.DeliveryProofs
import ModularNetServer.Http.Proofs.EscapeProofs
import ModularNetServer.Http.Proofs.IsolationProofs
import ModularNetServer.Http.Proofs.RoundTripProofs
import ModularNetServer.Timer.Proofs.TimerManagerProofs
import ModularNetServer.Library.Transition
import ModularNetServer.Net.BaseConn
import ModularNetServer.Net.NetServer
import ModularNetServer.Net.Proofs.BaseConnProofs
import ModularNetServer.Net.Proofs.NetServerProofs
import ModularNetServer.Net.Proofs.OwnershipProofs
import ModularNetServer.Net.Proofs.UsersProofs
import ModularNetServer.Cache.CacheAdapter
import ModularNetServer.Cache.Proofs.CacheAdapterProofs
import ModularNetServer.Cache.Proofs.CoherenceProofs
import ModularNetServer.Library.BigEndian
import ModularNetServer.Library.Framing
import ModularNetServer.Net.Proofs.IdleTimeoutProofs
import ModularNetServer.WebSocket.Proofs.BindingProofs
import ModularNetServer.WebSocket.Proofs.FrameProofs
import ModularNetServer.WebSocket.Proofs.StreamProofs
import ModularNetServer.Db.SqlConnPool
import ModularNetServer.Http.Pipeline
import ModularNetServer.Http.Proofs.PipelineProofs
import ModularNetServer.Library.Slots
import ModularNetServer.Library.Monitor
import ModularNetServer.Library.WaitGraph
import ModularNetServer.Net.ConnLocks
import ModularNetServer.Net.Proofs.ConnLocksProofs
import ModularNetServer.Server.Proofs.ServerShutdownProofs
import ModularNetServer.ThreadPool.CvThreadPool
import ModularNetServer.ThreadPool.Proofs.CvThreadPoolProofs
import ModularNetServer.Cache.FaultyCache
import ModularNetServer.Cache.Proofs.FaultProofs
import ModularNetServer.Http.Proofs.AnswerProofs
import ModularNetServer.Http.Proofs.CompletionProofs
import ModularNetServer.Http.Proofs.HandledOnceProofs
import ModularNetServer.Http.Proofs.IdentityProofs
import ModularNetServer.Http.Proofs.IncompleteInputProofs
import ModularNetServer.Http.Proofs.SessionCallsProofs
import ModularNetServer.Http.Proofs.TrigModeProofs
import ModularNetServer.Library.FixedWindow
import ModularNetServer.Session.Proofs.ExpiryProofs
import ModularNetServer.Util.Proofs.RateLimiterProofs
import ModularNetServer.Library.Codec
import ModularNetServer.WebSocket.TextFrames
import ModularNetServer.WebSocket.Proofs.TextFrameProofs
import ModularNetServer.WebSocket.FrameAccess
import ModularNetServer.WebSocket.Proofs.FrameAccessProofs
import ModularNetServer.WebSocket.WriteBuffer
import ModularNetServer.WebSocket.Proofs.WriteBufferProofs
import ModularNetServer.WebSocket.Proofs.HandshakeProofs
import ModularNetServer.WebSocket.Lifecycle
import ModularNetServer.WebSocket.Proofs.LifecycleProofs
import ModularNetServer.WebSocket.SessionClaim
import ModularNetServer.WebSocket.Proofs.SessionClaimProofs
import ModularNetServer.Library.LastWrite
import ModularNetServer.Http.RangeHeaders
import ModularNetServer.Http.HeaderFields
import ModularNetServer.Http.Proofs.RangeHeadersProofs
import ModularNetServer.Http.RangeResponse
import ModularNetServer.Http.Proofs.RangeResponseProofs
import ModularNetServer.Http.StaticFiles
import ModularNetServer.Http.Proofs.StaticFilesProofs
import ModularNetServer.Net.WriteEvent
import ModularNetServer.Net.Proofs.WriteEventProofs
import ModularNetServer.Net.Proofs.TurnProofs
import ModularNetServer.Net.Proofs.IdleBoundProofs
import ModularNetServer.Cache.Proofs.InclusionProofs
import ModularNetServer.Http.Cookies
import ModularNetServer.Http.Proofs.CookieProofs
import ModularNetServer.Http.FormBody
import ModularNetServer.Http.Proofs.FormBodyProofs
import ModularNetServer.Cache.RedisClient
import ModularNetServer.Cache.Proofs.RedisClientProofs
import ModularNetServer.Db.PoolUse
import ModularNetServer.Db.Proofs.PoolUseProofs
import ModularNetServer.Db.CvPoolUse
import ModularNetServer.Db.Proofs.CvPoolUseProofs
import ModularNetServer.Library.Scope
import ModularNetServer.Db.SqlTransaction
import ModularNetServer.Mvc.TextTxDao
import ModularNetServer.Mvc.Proofs.TextTxDaoProofs
import ModularNetServer.Db.FetchAll
import ModularNetServer.Db.Proofs.FetchAllProofs
import ModularNetServer.Http.RequestCharge
import ModularNetServer.Http.Proofs.RequestChargeProofs
import ModularNetServer.Library.LetterCase
import ModularNetServer.Http.HeaderCase
import ModularNetServer.Http.Proofs.HeaderCaseProofs
import ModularNetServer.Library.HttpReader
import ModularNetServer.Http.ResponseCalls
import ModularNetServer.Http.Proofs.ResponseFramingProofs
import ModularNetServer.Library.Utf8
import ModularNetServer.Library.JsonReader
import ModularNetServer.Json.Proofs.Utf8Proofs
import ModularNetServer.Json.Proofs.JsonRoundTripProofs
import ModularNetServer.Http.Wire
import ModularNetServer.Http.Proofs.WireProofs
import ModularNetServer.Util.Proofs.InterceptorProofs
import ModularNetServer.Timer.Proofs.TickEndsProofs
import ModularNetServer.Library.PairedTables
import ModularNetServer.Session.Proofs.CredentialProofs
import ModularNetServer.Mvc.UserTable
import ModularNetServer.Mvc.Proofs.UserTableProofs
import ModularNetServer.Library.SqlText
import ModularNetServer.Mvc.Proofs.InsertTextProofs
import ModularNetServer.Config.ConfigManager
import ModularNetServer.Config.Proofs.BadConfigProofs
import ModularNetServer.Config.Proofs.HotReloadProofs
import ModularNetServer.Log.Log
import ModularNetServer.Log.Proofs.LogProofs
import ModularNetServer.Log.Proofs.WakeUpProofs
import ModularNetServer.Http.BufferUse
import ModularNetServer.Http.Proofs.BufferUseProofs
import ModularNetServer.Library.Base64
import ModularNetServer.Token.Proofs.TokenTextProofs
import ModularNetServer.Http.ParseLoops
import ModularNetServer.Http.Proofs.ParseProgressProofs
import ModularNetServer.WebSocket.WsServer
import ModularNetServer.WebSocket.Proofs.WsServerProofs
import ModularNetServer.Server.Service
import ModularNetServer.Server.Proofs.ServiceProofs
import ModularNetServer.Server.Proofs.ThrottleProofs
