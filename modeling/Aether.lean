import Aether.Profile.Codec
import Aether.Profile.Tolerance
import Aether.Profile.Transport
import Aether.Bridge.TcpSession
import Aether.Bridge.ClientStream
import Aether.Bridge.TunQueue
import Aether.Decoding.Incremental
import Aether.Machine.Slots
import Aether.Masque.Capsule
import Aether.Masque.CapsuleStream
import Aether.Masque.CapsuleSync
import Aether.Netstack.Connections
import Aether.Netstack.GracefulClose
import Aether.Netstack.Leak
import Aether.Netstack.Upload
import Aether.Vpn.KillSwitch
import Aether.Bridge.Builder
import Aether.Bridge.DecisionCache
import Aether.Bridge.Segments
import Aether.Bridge.UidFilter
import Aether.Engine.CommandLine
import Aether.Engine.Forwarder
import Aether.Octets.Checksum
import Aether.Routing.Spelling
import Aether.Socks.Connect
import Aether.Socks.GatewayHealth
import Aether.Socks.Relay
import Aether.Socks.UdpAssociate
import Aether.Vpn.AppFilter
import Aether.Masque.AddressBridge
import Aether.Masque.H2Run
import Aether.Masque.H2Timers
import Aether.Masque.QuicRun
import Aether.Socks.Framing
import Aether.Socks.HttpShare
import Aether.Upstream.Detour
import Aether.Upstream.Percent
import Aether.Upstream.Pump
import Aether.Upstream.Setting
import Aether.WireGuard.Tunnel
import Aether.Account.Api
import Aether.Account.Policy
import Aether.Rust.Collections
import Aether.Rust.Parse
import Aether.Scan.Mode
import Aether.Share.Bridge
import Aether.Engine.Choices
import Aether.Engine.Cooldown
import Aether.Engine.Gool
import Aether.Socks.ReadHead
import Aether.Socks.AbsoluteForm
import Aether.Socks.HttpForward
import Aether.Routing.Lists
import Aether.Routing.Grammar
import Aether.Socks.FirstFlight
import Aether.Dns.Query
import Aether.Bridge.DnsMap
import Aether.Bridge.DnsAnswers
import Aether.Bridge.SniffWindow
import Aether.Share.HeaderBlock
import Aether.Masque.Datagram
import Aether.Masque.Fragment
import Aether.Upstream.Url
import Aether.Scan.Candidates
import Aether.Scan.Hunt
import Aether.Scan.Ranges
import Aether.Account.Rejection
import Aether.Account.ApiFront
import Aether.Account.ChunkedResponse
import Aether.Identity.EnrolForm
import Aether.Identity.SignIn
import Aether.Netstack.Ports
import Aether.Profile.Collectors
import Aether.Rust.Merged
import Aether.Socks.Resolvers
import Aether.Vpn.SmartAuto
import Aether.Machine.Intervals
import Aether.Quic.RangeBuf
import Aether.Quic.RangeSet
import Aether.Quic.RangeSetRun
import Aether.Quic.Reassembly
import Aether.Quic.RecvRun
import Aether.Quic.SendBuf
import Aether.Quic.Sending
import Aether.Quic.Stream
import Aether.Quic.PacketNumber
import Aether.Quic.AckFrame
import Aether.Quic.PacketSpace
import Aether.Quic.Exchange
import Aether.Ffi.Registry
import Aether.Machine.Dialogue
import Aether.Upstream.Handshake
import Aether.Socks.Handshake
