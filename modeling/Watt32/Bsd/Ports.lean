import Watt32.Bsd.Stream
import Watt32.Udp.Handler

/-!
# Local ports and the sockets that use them

`ports.c`, the UDP sockets of `pctcp.c`, and a `Socket` with the fields that `bind`, `connect` and
`close_s` look at.

* `findFreePort`, `grabLocalport`, `reuseLocalport`: the bit-array of the local ports.
* `UdpSock`, `BsdSocket`: a `_udp_Socket` and a `Socket`.
* `udpClose`, `udpListen`, `udpOpenImpl`: opening and closing of UDP sockets.
* `sockChkSockaddr`: the test of an address argument.
-/

namespace Watt32.Bsd

/-! ## Ports -/

/-- `lport_inuse`, once it is allocated: the bit of every local port. -/
abbrev Ports := Option (Word → Bool)

/-- What a call takes from outside: `MAX_PORT`, the port `find_free_port` starts at
(`Random (MIN_PORT, 1500)` or `MIN_PORT`), the host's addresses, whether the network interface is up,
whether the allocations succeed, and what becomes of ARP and neighbour lookups and of the sends. -/
structure CallEnv extends toStackEnv : Env where
  maxPort : Word := 65535
  loPort : Word := 1025
  host : Udp.Globals := {}
  in6addrMyIp : Ip6Address := 0
  ethIsInit : Bool := true
  callocLocal : Bool := true
  callocRemote : Bool := true
  mallocPool : Bool := true
  sigSetup : Bool := true
  arpStartLookup : Bool := true
  arpResolve : Bool := true
  neighSolic : Bool := true
  txOk : List Bool := []

/-- `FD_SET` and `FD_CLR`. -/
def setPort (bits : Word → Bool) (p : Word) (b : Bool) : Word → Bool := Function.update bits p b

/-- The loop of `find_free_port` from `p` on. With `MAX_PORT` 65535 it does not end if every port is
busy. -/
def searchPort (maxPort : Word) (busy : Word → Bool) : (n : ℕ) → (p : Word) → Option Word
  | 0, _ => none
  | n + 1, p => if p ≤ maxPort ∧ busy p then searchPort maxPort busy n (p + 1) else some p

/-- `find_free_port`. `allsocs` tells which ports the sockets in `_udp_allsocs` and `_tcp_allsocs`
have. -/
def findFreePort (e : CallEnv) (ports : Ports) (allsocs : Word → Bool) (port : Word)
    (linger : Bool) : Option (Ports × Word) :=
  match ports with
  | none => some (ports, port)
  | some bits =>
    if port ≠ 0 ∧ port ≠ 65535 then some (ports, port)
    else
      let busy (p : Word) : Bool := linger ∧ bits p ∨ allsocs p
      (searchPort e.maxPort busy 65536 (if port = 0 then e.loPort else 513)).map fun p =>
        (some (setPort bits p true), p)

/-- `grab_localport`: the original state of the bit, or nothing for -1. -/
def grabLocalport (e : CallEnv) (ports : Ports) (port : Word) : Ports × Option Bool :=
  if e.maxPort < port then (ports, none)
  else
    match ports with
    | none => (ports, none)
    | some bits => (some (setPort bits port true), some (bits port))

/-- `reuse_localport`. -/
def reuseLocalport (e : CallEnv) (ports : Ports) (port : Word) : Ports :=
  if e.maxPort < port then ports else ports.map fun bits => setPort bits port false

/-- The port is marked in use. -/
def Ports.inUse (ports : Ports) (p : Word) : Prop := ∃ bits, ports = some bits ∧ bits p = true

/-! ## Sockets -/

/-- `UDP_PROTO`. -/
def udpProto : ℕ := 17

/-- `_udp_Socket`: the fields these calls use, whether `rx_data` is set, whether `protoHandler` is
`sock_recvdaemon`, and whether the socket is in `_udp_allsocs`. -/
structure UdpSock where
  ipType : ℕ := 0
  myaddr : Dword := 0
  myport : Word := 0
  hisaddr : Dword := 0
  hisport : Word := 0
  rxData : Bool := false
  rxDatalen : Dword := 0
  recvdaemon : Bool := false
  threaded : Bool := false
  deriving DecidableEq

/-- `so_type`. -/
inductive SockType
  | stream | dgram | raw | packet
  deriving DecidableEq

/-- `Socket`: `isIp6` tells whether `so_family` is AF_INET6, `bcastPool` whether `bcast_pool` is
allocated. `tcpIsIp6` and the two addresses after it belong to the control block in `tcp`. -/
structure BsdSocket extends StreamSocket where
  soType : SockType
  isIp6 : Bool
  tcpIsIp6 : Bool
  my6addr : Ip6Address
  his6addr : Ip6Address
  udp : UdpSock
  bcastPool : Bool
  timeout : Dword
  soLinger : Bool
  lingerTime : Dword
  closeTime : Dword

/-- The control block of a socket. -/
def BsdSocket.tcb (sk : BsdSocket) : Tcb := ⟨sk.tcp, sk.tcpIsIp6, sk.my6addr, sk.his6addr, false⟩

/-- Change the flags of a socket. -/
def BsdSocket.updState (sk : BsdSocket) (f : SoState → SoState) : BsdSocket :=
  { sk with soState := f sk.soState }

/-- Change the connection of a socket. -/
def BsdSocket.updTcp (sk : BsdSocket) (f : Tcp.Conn → Tcp.Conn) : BsdSocket :=
  { sk with tcp := f sk.tcp }

/-- The socket has the port in `_udp_allsocs` or `_tcp_allsocs`. -/
def BsdSocket.inChain (sk : BsdSocket) (p : Word) : Bool :=
  sk.udp.threaded ∧ sk.udp.myport = p ∨ sk.tcp.threaded ∧ sk.tcp.s.myport = p

/-! ## UDP -/

/-- `udp_close`. -/
def udpClose (e : CallEnv) (ports : Ports) (s : UdpSock) : Ports × UdpSock :=
  if s.threaded then (reuseLocalport e ports s.myport, { s with threaded := false }) else (ports, s)

/-- `_udp_listen`. -/
def udpListenImpl (e : CallEnv) (s : UdpSock) (lport : Word) (ip : Dword) (port : Word) :
    UdpSock × Bool :=
  if e.ethIsInit = false then (s, false)
  else
    ({ s with
      ipType := udpProto
      myaddr := e.host.myIpAddr
      myport := lport
      hisaddr := ip
      hisport := port
      threaded := s.threaded || !s.rxData }, true)

/-- `udp_listen`. `others` are the ports of the other sockets. -/
def udpListen (e : CallEnv) (ports : Ports) (others : Word → Bool) (s : UdpSock) (lport : Word)
    (ip : Dword) (port : Word) : Option (Ports × UdpSock) :=
  (findFreePort e (udpClose e ports s).1 others lport false).map fun r =>
    let s := udpListenImpl e {} r.2 ip port
    if s.2 then (r.1, { s.1 with rxData := true }) else (reuseLocalport e r.1 r.2, s.1)

/-- `_udp_open`. -/
def udpOpenImpl (e : CallEnv) (ports : Ports) (s : UdpSock) (lport : Word) (ip : Dword)
    (port : Word) : Ports × UdpSock × Except Errno Unit :=
  if ip ≠ 0 ∧ Udp.ip4IsMultihomeAddr e.host ip then (ports, s, .error .einval)
  else
    let r := udpListenImpl e s lport ip port
    if r.2 = false then (ports, r.1, .error .enetdown)
    else if ip = 0 then (ports, { r.1 with hisaddr := Udp.ipBcastAddr }, .ok ())
    else if ip = Udp.ipBcastAddr ∨ ~~~ip &&& ~~~e.host.sinMask = 0 ∨ ip >>> 28 = 0xe then
      (ports, r.1, .ok ())
    else if e.arpResolve then (ports, r.1, .ok ())
    else
      let c := udpClose e ports r.1
      (c.1, c.2, .error .ehostunreach)

/-! ## Addresses -/

/-- The `sockaddr` argument of a call: absent or too short, of family AF_UNSPEC, of a family that is
neither this nor an internet one, or an address. -/
inductive SockAddrArg
  | short
  | unspec
  | other
  | addr (a : SockAddr)
  deriving DecidableEq

/-- The family is AF_INET6. -/
def IpAddr.isIp6 : IpAddr → Bool
  | .ip4 _ => false
  | .ip6 _ => true

/-- `IN_MULTICAST` and `IN6_IS_ADDR_MULTICAST`. -/
def IpAddr.isMulticast : IpAddr → Bool
  | .ip4 a => a >>> 28 = 0xe
  | .ip6 a => a >>> 120 = 0xff

/-- INADDR_ANY and `in6addr_any`. -/
def IpAddr.isAny : IpAddr → Bool
  | .ip4 a => a = 0
  | .ip6 a => a = 0

/-- `_sock_chk_sockaddr`. -/
def sockChkSockaddr (sk : BsdSocket) (sa : SockAddrArg) : BsdSocket × Except Errno SockAddr :=
  match sa with
  | .short => (sk, .error .einval)
  | .unspec =>
    if sk.soType = .dgram then
      ({ sk with
        soState := { sk.soState with isDisconnecting := false, cantSendMore := false }
        udp := { sk.udp with rxDatalen := 0 }
        remoteAddr := none }, .error .eafnosupport)
    else (sk, .error .eafnosupport)
  | .other => (sk, .error .eafnosupport)
  | .addr a =>
    if sk.soType = .packet ∨ a.addr.isIp6 ≠ sk.isIp6 then (sk, .error .eafnosupport) else (sk, .ok a)

end Watt32.Bsd
