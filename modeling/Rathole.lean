import Rathole.Lib.Codec
import Rathole.Lib.Bincode
import Rathole.Lib.Runs
import Rathole.Lib.OrdMap
import Rathole.Lib.HashMap
import Rathole.Lib.RwLock
import Rathole.Lib.Checked
import Rathole.Lib.Numerals
import Rathole.Lib.ProxyHeader
import Rathole.Lib.Channel
import Rathole.Lib.Cadence
import Rathole.Lib.Relay
import Rathole.Net
import Rathole.Net.Display
import Rathole.Config
import Rathole.AllowedPorts
import Rathole.ConfigWatcher
import Rathole.MultiMap
import Rathole.MultiMap.Pointers
import Rathole.MultiMap.TwoKeys
import Rathole.Transport.Reliability
import Rathole.Transport.UdpStream
import Rathole.Transport.Endpoint
import Rathole.Transport.Connection
import Rathole.Transport.Integrity
import Rathole.Transport.Recovery
import Rathole.Transport.Sack
import Rathole.Transport.Arrival
import Rathole.Transport.Window
import Rathole.Transport.Backpressure
import Rathole.Transport.NackMode
import Rathole.Transport.Wakeup
import Rathole.Transport.Eof
import Rathole.Transport.HalfClose
import Rathole.Transport.Closing
import Rathole.Transport.Replay
import Rathole.Transport.Attacker
import Rathole.Transport.Listener
import Rathole.Transport.Ownership
import Rathole.Transport.Wire
import Rathole.Transport.Arithmetic
import Rathole.Transport.Replies
import Rathole.Transport.Multiplex
import Rathole.Transport.Messages
import Rathole.Transport.DeadPeer
import Rathole.Transport.Keepalive
import Rathole.Transport.Connect
import Rathole.Protocol
import Rathole.Protocol.Framing
import Rathole.Server.HotReload
import Rathole.Server.Convergence
import Rathole.Server.Model
import Rathole.Server.Handshake
import Rathole.Server.Interleaving
import Rathole.Server.Script
import Rathole.Server.Authentication
import Rathole.Server.Lifetime
import Rathole.Server.SessionKeys
import Rathole.Server.Identities
import Rathole.Server.Contention
import Rathole.Server.FailedHandshake
import Rathole.Server.TcpPool
import Rathole.Server.Admission
import Rathole.Server.VisitorChannels
import Rathole.Client.HotReload
import Rathole.Client.UdpForward
import Rathole.Client.Forwarders
import Rathole.Client.Deadlock
import Rathole.Client.Answers
import Rathole.Client.ControlChannel
import Rathole.Client.ProxyProtocol
import Rathole.Server.UdpPool
import Rathole.Validation
import Rathole.Supervisor
import Rathole.Tunnel.Handshake
import Rathole.Tunnel.Verdict
import Rathole.Tunnel.Routing
import Rathole.Tunnel.TcpService
import Rathole.Tunnel.TcpForward
import Rathole.Tunnel.Heartbeat
