import ToyTcpip.Arp
import ToyTcpip.Bfd.Session
import ToyTcpip.Bfd.SessionV6
import ToyTcpip.Bfp
import ToyTcpip.Bgp.AddPath
import ToyTcpip.Bgp.As4Path
import ToyTcpip.Bgp.AsPath
import ToyTcpip.Bgp.AttributeWire
import ToyTcpip.Bgp.Capability
import ToyTcpip.Bgp.CapabilityCodec
import ToyTcpip.Bgp.Chunking
import ToyTcpip.Bgp.Currency
import ToyTcpip.Bgp.Decided
import ToyTcpip.Bgp.Decision
import ToyTcpip.Bgp.Evpn
import ToyTcpip.Bgp.Export
import ToyTcpip.Bgp.ExportParity
import ToyTcpip.Bgp.Fib
import ToyTcpip.Bgp.Forwarding
import ToyTcpip.Bgp.Hygiene
import ToyTcpip.Bgp.Import
import ToyTcpip.Bgp.Ipv6Rib
import ToyTcpip.Bgp.Message
import ToyTcpip.Bgp.Parse
import ToyTcpip.Bgp.Poll
import ToyTcpip.Bgp.Reachable
import ToyTcpip.Bgp.Reads
import ToyTcpip.Bgp.Rib
import ToyTcpip.Bgp.Roundtrip
import ToyTcpip.Bgp.RouteTargets
import ToyTcpip.Bgp.Router
import ToyTcpip.Bgp.Runs
import ToyTcpip.Bgp.Session
import ToyTcpip.Bgp.Speaking
import ToyTcpip.Bgp.Steps
import ToyTcpip.Bgp.Stored
import ToyTcpip.Bgp.Tables
import ToyTcpip.Bgp.Tidy
import ToyTcpip.Bytes
import ToyTcpip.Checksum
import ToyTcpip.Coap
import ToyTcpip.Congestion
import ToyTcpip.CqfSlots
import ToyTcpip.Dhcp.Server
import ToyTcpip.Dhcpv6.Exchange
import ToyTcpip.Dns.Message
import ToyTcpip.Dns.Name
import ToyTcpip.Dns.Records
import ToyTcpip.Dns.Roundtrip
import ToyTcpip.Ethernet
import ToyTcpip.Evpn.Isolation
import ToyTcpip.Evpn.Mobility
import ToyTcpip.Evpn.Vtep
import ToyTcpip.Firewall
import ToyTcpip.Fragment.Assembly
import ToyTcpip.Fragment.Filtered
import ToyTcpip.Fragment.Reassembly
import ToyTcpip.Fragment.Roundtrip
import ToyTcpip.Fragment.Split
import ToyTcpip.Frer
import ToyTcpip.FrerSrf
import ToyTcpip.Gtpu.Buffering
import ToyTcpip.Gtpu.Reordering
import ToyTcpip.Icmpv6.AdvertRoundtrip
import ToyTcpip.Icmpv6.FullAdvertisement
import ToyTcpip.Icmpv6.Message
import ToyTcpip.Icmpv6.Ndp
import ToyTcpip.Icmpv6.Nud
import ToyTcpip.Icmpv6.RouterAdvertisement
import ToyTcpip.Icmpv6.SearchList
import ToyTcpip.Ipsec
import ToyTcpip.Ipv4
import ToyTcpip.Ipv6Ext.Chain
import ToyTcpip.Ipv6Ext.Options
import ToyTcpip.Ipv6Ext.Roundtrip
import ToyTcpip.Ipv6Packet
import ToyTcpip.Lab.ErrorGuard
import ToyTcpip.Lab.VirtualLink
import ToyTcpip.Lib.Ascent
import ToyTcpip.Lib.BigEndian
import ToyTcpip.Lib.BitPrefix
import ToyTcpip.Lib.Btree
import ToyTcpip.Lib.Checked
import ToyTcpip.Lib.Chunks
import ToyTcpip.Lib.Coverage
import ToyTcpip.Lib.Entries
import ToyTcpip.Lib.Favour
import ToyTcpip.Lib.Hashed
import ToyTcpip.Lib.Keyed
import ToyTcpip.Lib.Knockout
import ToyTcpip.Lib.Lz77
import ToyTcpip.Lib.Machine
import ToyTcpip.Lib.Nested
import ToyTcpip.Lib.Piece
import ToyTcpip.Lib.Ranked
import ToyTcpip.Lib.Reconcile
import ToyTcpip.Lib.Serial
import ToyTcpip.Lib.Spans
import ToyTcpip.Lib.Tiled
import ToyTcpip.Lib.Utf8
import ToyTcpip.Lib.View
import ToyTcpip.Lib.Window
import ToyTcpip.MacPdu
import ToyTcpip.MacUplink
import ToyTcpip.Mqtt.Codec
import ToyTcpip.Mqtt.Packet
import ToyTcpip.Network.Coherence
import ToyTcpip.Network.FlowControl
import ToyTcpip.Network.Negotiation
import ToyTcpip.Network.ReceiveSide
import ToyTcpip.Network.Sack
import ToyTcpip.Network.SendSide
import ToyTcpip.Network.Streams
import ToyTcpip.Network.System
import ToyTcpip.Ospf
import ToyTcpip.Pdcp.Delivery
import ToyTcpip.Pdcp.Duplication
import ToyTcpip.Pdcp.Report
import ToyTcpip.Pdcp.Udc
import ToyTcpip.PolarRateMatching
import ToyTcpip.Rip.Follow
import ToyTcpip.Rip.Network
import ToyTcpip.Rlc.Entity
import ToyTcpip.Rlc.Link
import ToyTcpip.Rlc.Pdu
import ToyTcpip.Rohc
import ToyTcpip.Routing.Affinity
import ToyTcpip.Routing.Lookup
import ToyTcpip.Routing.Removal
import ToyTcpip.Routing.Table
import ToyTcpip.Routing.Table6
import ToyTcpip.Snmp.Ber
import ToyTcpip.Snmp.Codec
import ToyTcpip.Snmp.Faults
import ToyTcpip.Snmp.Message
import ToyTcpip.Snmp.Mib
import ToyTcpip.Snmp.Oid
import ToyTcpip.Socket.Demux
import ToyTcpip.Socket.Integrity
import ToyTcpip.Socket.Isolation
import ToyTcpip.Socket.Resets
import ToyTcpip.Socket.Runtime
import ToyTcpip.Socket.Tables
import ToyTcpip.Stack.DefaultRouter
import ToyTcpip.Stack.NetStack
import ToyTcpip.Stack.Receive
import ToyTcpip.Stack.RouterChoice
import ToyTcpip.Stack.Runs
import ToyTcpip.Stack.Selection
import ToyTcpip.Stack.Send
import ToyTcpip.Stack.StaticArp
import ToyTcpip.Stack.Stranded
import ToyTcpip.Stack.Timers
import ToyTcpip.Stp
import ToyTcpip.Stp.Network
import ToyTcpip.Tcp.Answers
import ToyTcpip.Tcp.Arrivals
import ToyTcpip.Tcp.Canonical
import ToyTcpip.Tcp.Connection
import ToyTcpip.Tcp.LocalSteps
import ToyTcpip.Tcp.Machine
import ToyTcpip.Tcp.OptionSpace
import ToyTcpip.Tcp.Reassembly
import ToyTcpip.Tcp.ReceiveQueue
import ToyTcpip.Tcp.ReceiveWindow
import ToyTcpip.Tcp.Rejected
import ToyTcpip.Tcp.Replies
import ToyTcpip.Tcp.Roundtrip
import ToyTcpip.Tcp.Runs
import ToyTcpip.Tcp.SackBlocks
import ToyTcpip.Tcp.Segment
import ToyTcpip.Tcp.SendAccounting
import ToyTcpip.Tcp.Views
import ToyTcpip.Tftp
import ToyTcpip.TiLfa.Protection
import ToyTcpip.Translate
import ToyTcpip.Udp
import ToyTcpip.WebSocket
