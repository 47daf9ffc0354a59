import Watt32.Lib.Serial
import Watt32.Lib.Mem
import Watt32.Lib.Run
import Watt32.Tcp.Socket
import Watt32.Tcp.Receive
import Watt32.Tcp.Arrival
import Watt32.Tcp.Send
import Watt32.Tcp.Close
import Watt32.Tcp.Fsm
import Watt32.Tcp.Calls
import Watt32.Tcp.Segments
import Watt32.Tcp.Half
import Watt32.Tcp.Bounds
import Watt32.Tcp.Stream
import Watt32.Tcp.FinAccount
import Watt32.Tcp.Moves
import Watt32.Tcp.Outstanding
import Watt32.Tcp.Transmit
import Watt32.Tcp.Handshake
import Watt32.Tcp.Relisten
import Watt32.Tcp.Tos
import Watt32.Tcp.Family
import Watt32.Lib.Slots
import Watt32.Timer
import Watt32.Arp.Cache
import Watt32.Arp.Regions
import Watt32.Arp.Fixed
import Watt32.Lib.Qsort
import Watt32.Arp.Gateways
import Watt32.Arp.Routes
import Watt32.Arp.Independence
import Watt32.Lib.Chunks
import Watt32.Tftp.Client
import Watt32.Tftp.Lossless
import Watt32.Tftp.Network
import Watt32.Tftp.Safety
import Watt32.Tftp.Delays
import Watt32.Hosts.Cache
import Watt32.Hosts.Lifetimes
import Watt32.Lib.OnesSum
import Watt32.Udp.Handler
import Watt32.Ip.Output
import Watt32.Tcp.Server
import Watt32.Bsd.Stack
import Watt32.Bsd.Listen
import Watt32.Bsd.Accept
import Watt32.Bsd.Queue
import Watt32.Bsd.Stream
import Watt32.Bsd.Select
import Watt32.Bsd.Ports
import Watt32.Bsd.Connect
import Watt32.Bsd.Reconnect
import Watt32.Bsd.Bind
import Watt32.Dhcp.Client
import Watt32.Dhcp.Options
import Watt32.Dhcp.Lease
import Watt32.Dhcp.Expiry
import Watt32.Dhcp.Selecting
import Watt32.Igmp.Groups
import Watt32.Sk.Table
import Watt32.Sk.Descriptors
import Watt32.Sk.Peek
import Watt32.Sk.RxMode
import Watt32.Ip6.Neighbours
import Watt32.Pppoe.Discovery
import Watt32.Ppp.Layering
import Watt32.Ppp.Replies
import Watt32.Lib.Reads
import Watt32.Tcp.FinConsumed
import Watt32.Tcp.Options
import Watt32.Tcp.RttCache
import Watt32.Tcp.SetBuf
import Watt32.Udp.Lengths
import Watt32.Icmp.Handler
import Watt32.Icmp.Safety
import Watt32.Tcp.Cancel
import Watt32.Tcp.Pace
import Watt32.Tcp.PathMtu
import Watt32.Tcp.Progress
import Watt32.Tcp.Write
import Watt32.Tcp.Enqueue
import Watt32.Tcp.Md5
import Watt32.Startup
import Watt32.Bsd.Raw
import Watt32.Udp.Boundaries
import Watt32.Udp.Output
import Watt32.Udp.Sums
import Watt32.Tcp.Keepalive
import Watt32.Tcp.Estimate
import Watt32.Ip6.Split
import Watt32.Bsd.Nonblock
import Watt32.Lib.Vectored
import Watt32.Bsd.Transmit
import Watt32.Bsd.Receive
import Watt32.Bsd.Gather
import Watt32.Bsd.Scatter
import Watt32.Arp.Flags
import Watt32.Arp.Insert
import Watt32.Arp.Turns
import Watt32.Arp.Failover
import Watt32.Arp.Maintenance
import Watt32.Arp.Redirect
import Watt32.Daemons
import Watt32.Dns.Names
import Watt32.Dns.Response
import Watt32.Dns.Pack
import Watt32.Lib.Linked
import Watt32.Ip.Reassembly
import Watt32.Ip.Marks
import Watt32.Ip.Buckets
import Watt32.Ip.Holes
import Watt32.Ip.Walk
import Watt32.Ip.Bounds
import Watt32.Bsd.Ephemeral
import Watt32.Timer.Clocks
import Watt32.Timer.Law
import Watt32.Dhcp.Times
import Watt32.Dns.Cname
import Watt32.Dns.ReplyReads
import Watt32.Dns.Inside
import Watt32.Dns.Faithful
import Watt32.Dhcp.Overload
import Watt32.NetAddr
import Watt32.Idna
import Watt32.Bsd.SelectLoop
import Watt32.Dhcp.Configure
import Watt32.Dhcp.Isolation
import Watt32.Tcp.Md5Options
import Watt32.Dns.ReverseQuery
import Watt32.Sk.Pktq
import Watt32.Bsd.RawArrival
import Watt32.Bsd.RawQueue
import Watt32.Lib.Pool
import Watt32.Pcrecv.Handler
import Watt32.Pcrecv.Datagrams
import Watt32.Pcrecv.Stream
import Watt32.Ip.Loopback
import Watt32.Dns.ReverseReply
import Watt32.Ip6.Icmp6
import Watt32.Ip.Coverage
import Watt32.Ip.Image
import Watt32.Lib.Numerals
import Watt32.Bootp
import Watt32.Config.ParseFile
import Watt32.Config.RoundTrip
import Watt32.Config.SetValue
import Watt32.Config.ExpandVar
import Watt32.Ppp.Input
import Watt32.Ppp.Footprint
import Watt32.Ppp.Bounds
import Watt32.Tcp.Plain
import Watt32.Tcp.Delivery
import Watt32.Tcp.Carried
import Watt32.Tcp.EndToEnd
import Watt32.Tcp.Acked
import Watt32.Tcp.Lossless
import Watt32.Arp.Lan
import Watt32.Arp.Exchange
