import CrabbyProxy.Library.Execution
import CrabbyProxy.Library.Inbound
import CrabbyProxy.Library.Outbound
import CrabbyProxy.Library.StreamProgram
import CrabbyProxy.Library.StreamGrammar
import CrabbyProxy.Library.Text
import CrabbyProxy.Library.BufReader
import CrabbyProxy.Library.Written
import CrabbyProxy.Library.Refusals
import CrabbyProxy.Library.Search
import CrabbyProxy.Library.Pieces
import CrabbyProxy.Library.Base64
import CrabbyProxy.Library.TextLines
import CrabbyProxy.Library.Lossy
import CrabbyProxy.Library.ClientHello
import CrabbyProxy.Library.Copier
import CrabbyProxy.Library.Projection
import CrabbyProxy.Library.Discretion
import CrabbyProxy.Address
import CrabbyProxy.Connection.ServiceType
import CrabbyProxy.Tunnel.PortAllocator
import CrabbyProxy.Tunnel.TakenPorts
import CrabbyProxy.Tunnel.AllocatorRuns
import CrabbyProxy.Tunnel.FreeList
import CrabbyProxy.Tunnel.FreshPorts
import CrabbyProxy.Tunnel.Manager
import CrabbyProxy.Tunnel.Consistency
import CrabbyProxy.Tunnel.Isolation
import CrabbyProxy.Tunnel.Leaks
import CrabbyProxy.Tunnel.Tasks
import CrabbyProxy.Tunnel.Handles
import CrabbyProxy.Tunnel.Revocation
import CrabbyProxy.Tunnel.Binding
import CrabbyProxy.Tunnel.LiveTunnels
import CrabbyProxy.Tunnel.Forwarding
import CrabbyProxy.Tunnel.Sockets
import CrabbyProxy.Tunnel.Visitors
import CrabbyProxy.Tunnel.Table
import CrabbyProxy.Proxy.Protocol
import CrabbyProxy.Proxy.Sni
import CrabbyProxy.Proxy.Replies
import CrabbyProxy.Proxy.Targets
import CrabbyProxy.Proxy.SocksGrammar
import CrabbyProxy.Proxy.Relay
import CrabbyProxy.AppState
import CrabbyProxy.Proxy.Authentication
import CrabbyProxy.Proxy.Listener
import CrabbyProxy.Proxy.Logins
import CrabbyProxy.Proxy.BasicAuth
import CrabbyProxy.Proxy.HeaderSearch
import CrabbyProxy.Proxy.HeadArrival
import CrabbyProxy.Proxy.AuthGate
import CrabbyProxy.Proxy.Sessions
import CrabbyProxy.Proxy.SocksSessions
import CrabbyProxy.Proxy.TargetSessions
import CrabbyProxy.Proxy.ConnectSessions
import CrabbyProxy.Proxy.ForwardSessions
import CrabbyProxy.Proxy.Requests
import CrabbyProxy.Proxy.TlsDetection
import CrabbyProxy.Proxy.CredentialSessions
import CrabbyProxy.Proxy.RelayRuns
import CrabbyProxy.Proxy.Detection
import CrabbyProxy.Proxy.Answers
import CrabbyProxy.Proxy.Transcript
import CrabbyProxy.Proxy.SocksLogins
import CrabbyProxy.Proxy.HandShake
import CrabbyProxy.Proxy.ConnectRoundTrip
import CrabbyProxy.Proxy.ResponseHead
import CrabbyProxy.Proxy.BufferPool
import CrabbyProxy.Proxy.HostPorts
import CrabbyProxy.Proxy.SniScan
import CrabbyProxy.Proxy.ServerNames
import CrabbyProxy.Proxy.RelayOutcomes
import CrabbyProxy.Proxy.Conduit
import CrabbyProxy.Proxy.Secrecy
import CrabbyProxy.Proxy.ChainedProxies
import CrabbyProxy.Proxy.SessionTask
import CrabbyProxy.Proxy.Server
import CrabbyProxy.Proxy.Fairness
import CrabbyProxy.Main
import CrabbyProxy.Connection.Manager
import CrabbyProxy.Connection.Lifecycle
import CrabbyProxy.Connection.Decisions
import CrabbyProxy.Connection.Independence
