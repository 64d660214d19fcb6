import ServiceFrame.Foundation.Run
import ServiceFrame.Foundation.Bytes
import ServiceFrame.Foundation.SortedSet
import ServiceFrame.Foundation.StreamCipher
import ServiceFrame.Foundation.Ring
import ServiceFrame.Foundation.OrderedMap
import ServiceFrame.Foundation.Incremental
import ServiceFrame.Foundation.CString
import ServiceFrame.Common.BlockBuffer
import ServiceFrame.Common.BlockBufferRun
import ServiceFrame.Common.Packet
import ServiceFrame.Common.Marshal
import ServiceFrame.Common.Marshallable2
import ServiceFrame.Sox.SoxHelper
import ServiceFrame.Sox.SockBuffer
import ServiceFrame.Sox.Countdown
import ServiceFrame.Sox.CountdownRun
import ServiceFrame.Sox.Selector
import ServiceFrame.Sox.TimeoutLedger
import ServiceFrame.Sox.HttpParser
import ServiceFrame.Sox.HttpScan
import ServiceFrame.Sox.HttpCut
import ServiceFrame.Sox.HttpLength
import ServiceFrame.Core.InnerConn
import ServiceFrame.Core.BackLinkHandler
import ServiceFrame.Core.HashMethod
import ServiceFrame.Core.Sender
import ServiceFrame.Core.LazyDelConn
import ServiceFrame.Core.MultiConnManager
import ServiceFrame.Core.MultiConnManagerVec
import ServiceFrame.Core.Framing
import ServiceFrame.DaoProxy.XTimer
import ServiceFrame.DaoProxy.Wheel
import ServiceFrame.DaoProxy.Agenda
import ServiceFrame.DaoProxy.XTimerRun
import ServiceFrame.DaoProxy.KTMHashRing
import ServiceFrame.DaoProxy.ThroughputStat
import ServiceFrame.DaoProxy.ReqFSM
import ServiceFrame.DaoProxy.ReqAnswered
import ServiceFrame.DaoProxy.DaoManager
import ServiceFrame.DaoProxy.DaoSelect
import ServiceFrame.ServerLib.ConsistentHash
import ServiceFrame.ServerLib.DaemonClient
import ServiceFrame.ServerLib.DaemonRoutes
import ServiceFrame.ServerLib.CliAnswers
import ServiceFrame.ServerLib.ListenPorts
import ServiceFrame.ServerLib.MultiServer
import ServiceFrame.ServerLib.MultiValue
import ServiceFrame.ServerLib.NameChannel
import ServiceFrame.ServerLib.ServerSelector
import ServiceFrame.ServerLib.UrlHelper
import ServiceFrame.ServerLib.SelectorCache
import ServiceFrame.ServerLib.BucketBalance
import ServiceFrame.ServerLib.BucketChoice
import ServiceFrame.ServerLib.BucketDist
import ServiceFrame.ServerLib.BucketRounds
import ServiceFrame.ServerLib.CookieBuffers
import ServiceFrame.ServerLib.CookieHelper
import ServiceFrame.ServerLib.CookieRestore
import ServiceFrame.Reliable.Messages
import ServiceFrame.Reliable.SyncCodec
import ServiceFrame.Reliable.AppContext
import ServiceFrame.Reliable.ExactlyOnce
import ServiceFrame.Reliable.SendQueue
import ServiceFrame.Reliable.QueueInvariant
import ServiceFrame.Reliable.ResetGate
import ServiceFrame.Reliable.Routing
import ServiceFrame.ServerLib.ConnectionIds
import ServiceFrame.ServerLib.BRouteWriter
import ServiceFrame.ServerLib.BRouteAppContext
import ServiceFrame.ServerLib.WrapHead
import ServiceFrame.DaoProxy.XTimerClock
import ServiceFrame.DaoProxy.ConfCodec
import ServiceFrame.DaoProxy.PxGlobalConf
import ServiceFrame.DaoProxy.ConfRestore
import ServiceFrame.DaoProxy.DaoConnectionManager
import ServiceFrame.DaoProxy.HealthRun
import ServiceFrame.DaoProxy.InFlight
import ServiceFrame.Foundation.ScopedSettings
import ServiceFrame.DaoProxy.LocateRules
import ServiceFrame.Sox.Base64
import ServiceFrame.Sox.Property
import ServiceFrame.ImLbsd.LinkdManager
import ServiceFrame.ServerLib.Watcher
import ServiceFrame.ImLib.DoubleRoute
import ServiceFrame.ImLib.VerifyCode
import ServiceFrame.ServerLib.GrpHashServer
import ServiceFrame.ImLib.OnlineHashHelper
import ServiceFrame.Foundation.Threads
import ServiceFrame.Xlinux.KeyLock
import ServiceFrame.Xlinux.MessageQueue
import ServiceFrame.Xlinux.Stage
import ServiceFrame.Xlinux.ZKMutex
import ServiceFrame.ThriftConnPool.AsyncThriftConnFactory
import ServiceFrame.ThriftConnPool.FailOver
import ServiceFrame.Xlinux.IdGenerator
import ServiceFrame.Sox.SocketSelect
import ServiceFrame.ImLib.BuddyListDao
import ServiceFrame.AppLinkd.LinkOnline
import ServiceFrame.ImLib.ServersInfo
import ServiceFrame.ImLib.ImMLRouter
import ServiceFrame.ServerLib.ImDaemonClient
import ServiceFrame.Core.Channel
import ServiceFrame.Reliable.Drain
import ServiceFrame.Reliable.Writer
import ServiceFrame.Reliable.Fleet
import ServiceFrame.Core.MfcAppContext
import ServiceFrame.Core.Posts
import ServiceFrame.ServerLib.WatchDog
import ServiceFrame.Foundation.Tally
import ServiceFrame.DaoProxy.TrafficStat
import ServiceFrame.DaoProxy.TrafficBooks
import ServiceFrame.Common.Md5
import ServiceFrame.ImLib.TransHelper
