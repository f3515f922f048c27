import WebServer.Admin.LogConsole
import WebServer.Admin.Sessions
import WebServer.Admin.StaticFiles
import WebServer.Admin.Stored
import WebServer.Config.Atomic
import WebServer.Config.Restart
import WebServer.Config.RoundTrip
import WebServer.Config.Snapshots
import WebServer.Core.ListenerDiff
import WebServer.Core.ListenerHandlers
import WebServer.Http.HeaderRead
import WebServer.Http.Backend
import WebServer.Limiter.Lifetime
import WebServer.Limiter.Outcome
import WebServer.Logging.Rotation
import WebServer.Network.Admission
import WebServer.Network.Listener
import WebServer.Policy.Cidr
import WebServer.Policy.HardDeny
import WebServer.Policy.LimiterTable
import WebServer.Policy.RateBound
import WebServer.Policy.RetryAfter
import WebServer.Policy.UrlRewrite
import WebServer.Proxy.Download
import WebServer.Proxy.IdentityHeaders
import WebServer.Proxy.PoolIdentity
import WebServer.Proxy.Safety
import WebServer.Proxy.Tunnel
import WebServer.Routing.Hotlink
import WebServer.Routing.LongestMatch
