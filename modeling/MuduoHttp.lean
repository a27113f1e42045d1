import MuduoHttp.Support.Reader
import MuduoHttp.Support.Transition
import MuduoHttp.Support.Backlog
import MuduoHttp.Net.Buffer
import MuduoHttp.Http.ChunkInvariance
import MuduoHttp.Http.MalformedLength
import MuduoHttp.Http.GrammarSoundness
import MuduoHttp.Http.Framing
import MuduoHttp.Http.Pipelining
import MuduoHttp.Net.BufferQueues
import MuduoHttp.Net.GracefulShutdown
import MuduoHttp.Net.ActiveChannels
import MuduoHttp.Net.EventLoop
import MuduoHttp.Net.EventLoopThread
import MuduoHttp.Net.TimerSemantics
import MuduoHttp.Net.TimerArming
import MuduoHttp.Net.TimerCancellation
import MuduoHttp.Net.Teardown
import MuduoHttp.Http.CgiAnswers
import MuduoHttp.Http.ResponseOrder
import MuduoHttp.Net.PollInterest
import MuduoHttp.Net.TcpClient
import MuduoHttp.Http.IdleConnections
import MuduoHttp.Http.WebRoot
import MuduoHttp.Http.FcgiRequest
import MuduoHttp.Http.CgiParams
import MuduoHttp.Http.RenderedRequest
import MuduoHttp.Http.CgiParsing
import MuduoHttp.Http.ResponseStream
import MuduoHttp.Http.CgiDecoding
import MuduoHttp.Http.ParseTermination
import MuduoHttp.Http.ServerCgi
import MuduoHttp.Http.ConnectionList
import MuduoHttp.Net.NetworkIntegers
import MuduoHttp.Net.Socket
import MuduoHttp.Base.LoggingShutdown
import MuduoHttp.Base.LogFormatting
import MuduoHttp.Base.BoundedBlockingQueue
import MuduoHttp.Base.ThreadPoolProgress
import MuduoHttp.Base.ThreadPoolStop
import MuduoHttp.Base.CountDownLatch
import MuduoHttp.Http.StaticFiles
import MuduoHttp.Net.TcpServer
import MuduoHttp.Base.TimeZoneFile
import MuduoHttp.Base.LoggedProgram
import MuduoHttp.Base.Mutex
import MuduoHttp.Net.WriteComplete
