import Watt32.Bsd.Nonblock
import Watt32.Bsd.Ports
import Watt32.Udp.Output

/-!
# Sending on datagram, raw and packet sockets

`transmit` of `transmit.c` on these sockets, with `udp_transmit`, `ip4_transmit`, `ip6_transmit` and
`sock_packet_transmit` of `socket.c`. IPv4 addresses are in host order.

* `DgramSocket`, `Host`: the socket and the configuration; `TxArgs`, `TxEnv`: a call and what it meets.
* `Sent`: what a call hands to the layer below.
* `udpTransmit`, `rawTransmit`, `packetTransmit`: the calls behind the common checks of `transmitTo`.
-/

namespace Watt32.Bsd

open Tcp (UserData inChecksum)
open Ip (bytes16 bytes32 stored16)

/-! ## The socket -/

/-- What `transmit` looks at of a `Socket` that is not a stream socket: `udp` is its `udp_sock`, `ipOptDst` and
`ipOpts` are its `ip_opt`. Such a socket is never connecting. -/
structure DgramSocket where
  isIp6 : Bool := false
  localAddr : Option SockAddr := none
  remoteAddr : Option SockAddr := none
  soState : SoState := {}
  soError : Option Errno := none
  msgNosig : Bool := false
  udp : Udp.UdpSocket
  soProto : Byte := Ip.udpProto
  sendLowat : ℕ := 0
  hdrincl : Bool := false
  ipOptDst : Dword := 0
  ipOpts : List Byte := []
  ipTos : Byte := 0
  ipTtl : Byte := 128

/-- The link layer: `_pkt_ip_ofs`, `sizeof(union link_Packet)` and the size of the buffers of a packet socket. -/
structure Link where
  pktIpOfs : ℕ := 14
  size : ℕ := 1514
  rxSize : ℕ := 1518
  room : pktIpOfs < size := by decide

/-- The configuration of the host: `_mtu`, its addresses, `_pktserial`, `_ip4_dont_frag` and `_default_ttl`. -/
structure Host where
  link : Link
  mtu : Udp.Mtu
  globals : Udp.Globals := {}
  in6addrMyIp : Ip6Address := 0
  pktserial : Bool := false
  dontFrag : Bool := false
  defaultTtl : Byte := 128

/-- The arguments of a call but for the data: `toAddr` is nothing for `send`; a null or short address is `some none`. -/
structure TxArgs where
  flags : MsgFlags := {}
  toAddr : Option (Option SockAddr) := none

/-- What a call meets: the outcome of `connect` in `setup_udp_raw`, the result of `tcp_tick` and what the callbacks
store in it, the outputs of `sock_write`, the next identifier, ARP or neighbour lookup, and `_eth_send`. -/
structure TxEnv where
  connect : Option Errno := none
  sigSetup : Bool := true
  alive : Bool := true
  callbacks : Callbacks := {}
  wire : Udp.Wire := {}
  ipId : Word := 0
  resolved : Bool := true
  ethOk : ℕ → Bool := fun _ => true

/-- The header of a raw packet. -/
structure RawHeader where
  tos : Byte
  len : Word
  id : Word
  ttl : Byte
  proto : Byte
  src : IpAddr
  dst : IpAddr
  opts : List Byte

/-- What is handed to the layer below: a datagram to `_ip4_output` or `_ip6_output`, a fragment, a packet with a
header of the stack or of the caller, a frame. -/
inductive Sent
  | datagram (udp : List Byte)
  | fragment (f : Ip.Fragment)
  | packet (hdr : RawHeader) (payload : List Byte)
  | hdrincl (bytes : List Byte)
  | frame (bytes : List Byte)

/-- How a call ends: the socket, the count or the error, and what was sent. -/
structure TxEnd where
  sk : DgramSocket
  ret : Except SendErrno ℕ
  sent : List Sent

/-! ## The common checks -/

/-- The bytes of an IPv6 address. -/
def ip6Bytes (a : Ip6Address) : List Byte := (List.range 16).map fun i => a.extractLsb' (8 * (15 - i)) 8

/-- `udp_sock` opened to the peer. -/
def openTo (udp : Udp.UdpSocket) (toAddr : SockAddr) : Udp.UdpSocket :=
  match toAddr.addr with
  | .ip4 a => { udp with hisport := toAddr.port, hisaddr := a }
  | .ip6 a => { udp with hisport := toAddr.port, his6addr := ip6Bytes a }

/-- The address that `connect` binds to. -/
def DgramSocket.autoBind (h : Host) (sk : DgramSocket) : SockAddr :=
  sk.localAddr.getD ⟨if sk.isIp6 then .ip6 h.in6addrMyIp else .ip4 h.globals.myIpAddr, sk.udp.myport⟩

/-- `connect` of `setup_udp_raw`, when it succeeds. -/
def DgramSocket.connectTo (h : Host) (t : SockType) (sk : DgramSocket) (toAddr : SockAddr) : DgramSocket :=
  if sk.remoteAddr = some toAddr then sk
  else
    let again := sk.remoteAddr.isSome
    { sk with
      remoteAddr := some toAddr
      localAddr := some (sk.autoBind h)
      soError := if again then none else sk.soError
      soState := { sk.soState with
        connRefused := sk.soState.connRefused && !again
        cantSendMore := sk.soState.cantSendMore && !again
        cantRcvMore := sk.soState.cantRcvMore && !again
        unconnected := sk.soState.unconnected && t ≠ .dgram
        isConnected := true }
      udp := if t = .dgram then openTo sk.udp toAddr else sk.udp }

/-- The checks of `transmit` on a socket that is connected. -/
def connectedError (sk : DgramSocket) : Option Errno :=
  if sk.localAddr = none ∨ sk.remoteAddr = none then some .enotconn
  else if sk.soError ≠ none then sk.soError
  else if sk.soState.connRefused then some .econnrefused
  else none

/-- `so_error` is reported once. -/
def DgramSocket.reported (sk : DgramSocket) : DgramSocket :=
  if sk.localAddr = none ∨ sk.remoteAddr = none then sk else { sk with soError := none }

/-- The setup of the remote address. -/
def setupUdpRaw (h : Host) (t : SockType) (a : TxArgs) (e : TxEnv) (sk : DgramSocket) :
    DgramSocket × Option Errno :=
  if t = .packet then (sk, none)
  else
    match a.toAddr.getD sk.remoteAddr with
    | none => (sk, some .einval)
    | some toAddr =>
      match e.connect with
      | some err => (sk, some err)
      | none => (sk.connectTo h t toAddr, none)

/-- `transmit` before it calls the transmitter of the socket type. -/
def transmitSetup (h : Host) (t : SockType) (a : TxArgs) (e : TxEnv) (data : List Byte) (sk : DgramSocket) :
    DgramSocket × Option Errno :=
  let sk := if a.flags.nosignal then { sk with msgNosig := true } else sk
  match if sk.soState.isConnected then connectedError sk else none with
  | some err => (sk.reported, some err)
  | none =>
    match setupUdpRaw h t a e sk with
    | (sk, some err) => (sk, some err)
    | (sk, none) =>
      if t ≠ .dgram ∧ data = [] then (sk, some .einval)
      else if e.sigSetup = false then (sk, some .eintr)
      else (sk, none)

/-! ## Raw sockets -/

/-- What `_ip4_send_fragments` needs of the socket. -/
def DgramSocket.fragSock (sk : DgramSocket) : Ip.Sock where
  udp := { myport := sk.udp.myport, hisport := sk.udp.hisport, myaddr := sk.udp.myaddr, hisaddr := sk.udp.hisaddr,
           udpChk := sk.udp.udpChk }

def fragOut (h : Host) (e : TxEnv) (dest : Dword) : Ip.Out where
  mtu := h.mtu.mtu
  dontFrag := h.dontFrag
  ipId := e.ipId
  dest := dest
  arpOk := e.resolved
  ethOk := e.ethOk

/-- `_IP4_SEND_FRAGMENTS` as the end of a call. -/
def sendFragments (h : Host) (e : TxEnv) (sk : DgramSocket) (proto : Byte) (dest : Dword) (data : List Byte) : TxEnd :=
  let r := Ip.ip4SendFragments (fragOut h e dest) sk.fragSock proto data
  ⟨sk, if r.2 < 0 then .error .unchanged else .ok r.2.toNat, r.1.map .fragment⟩

/-- Four bytes of the caller's header. -/
def fieldAt (buf : List Byte) (i : ℕ) : Dword :=
  buf.getD i 0 ++ buf.getD (i + 1) 0 ++ buf.getD (i + 2) 0 ++ buf.getD (i + 3) 0

/-- A header checksum where there is none. -/
def fillSum (buf : List Byte) : List Byte :=
  if (buf.drop 10).take 2 = [0, 0] then
    buf.take 10 ++ stored16 (~~~BitVec.ofNat 16 (inChecksum (buf.take (4 * (buf.headD 0 &&& 15).toNat)))) ++ buf.drop 12
  else buf

/-- The header of the caller is completed. -/
def fillHeader (h : Host) (buf : List Byte) : List Byte :=
  fillSum (if fieldAt buf 12 = 0 then
    fillSum (buf.take 10 ++ [0, 0] ++ bytes32 h.globals.myIpAddr ++ buf.drop 16) else buf)

/-- `ip4_transmit`; `tx` is nothing for the probe of `udp_transmit`. -/
def ip4Transmit (h : Host) (e : TxEnv) (sk : DgramSocket) (tx : Option (List Byte)) : TxEnd :=
  let data := tx.getD []
  let incl := tx.isSome && sk.hdrincl
  let remote : Dword := match sk.remoteAddr with
    | some ⟨.ip4 a, _⟩ => a
    | _ => 0
  let dest := if sk.ipOptDst ≠ 0 then sk.ipOptDst else if incl then fieldAt data 16 else remote
  let txLen := if incl then data.length else data.length + 20
  let txRoom := if incl then h.mtu.mtu else h.mtu.mtu + 20
  if tx.isSome ∧ sk.soState.nbio ∧ h.mtu.mtu < data.length + sk.sendLowat then
    ⟨sk, .error (.other .ewouldblock), []⟩
  else if dest = 0 ∨ e.resolved = false then ⟨sk, .error (.other .ehostunreach), []⟩
  else if sk.hdrincl then
    if (data.getD 6 0 &&& 0x40) ≠ 0 ∧ txRoom < txLen then ⟨sk, .error .emsgsize, []⟩
    else if e.ethOk 0 = false then ⟨sk, .error (.other .enetdown), []⟩
    else ⟨sk, .ok data.length, [.hdrincl (fillHeader h data)]⟩
  else if txRoom < txLen + sk.ipOpts.length then sendFragments h e sk sk.soProto dest data
  else if e.ethOk 0 = false then ⟨sk, .error (.other .enetdown), []⟩
  else
    ⟨sk, .ok data.length, [.packet
      { tos := sk.ipTos, len := BitVec.ofNat 16 (txLen + sk.ipOpts.length), id := e.ipId, ttl := sk.ipTtl
        proto := sk.soProto, src := .ip4 h.globals.myIpAddr, dst := .ip4 dest, opts := sk.ipOpts } data]⟩

/-- `ip6_transmit`. -/
def ip6Transmit (h : Host) (e : TxEnv) (sk : DgramSocket) (tx : Option (List Byte)) : TxEnd :=
  let data := tx.getD []
  let incl := tx.isSome && sk.hdrincl
  let remote : Ip6Address := match sk.remoteAddr with
    | some ⟨.ip6 a, _⟩ => a
    | _ => 0
  let dest : Ip6Address := if incl then
    fieldAt data 24 ++ fieldAt data 28 ++ fieldAt data 32 ++ fieldAt data 36 else remote
  if sk.soState.nbio ∧ h.mtu.mtu < data.length + sk.sendLowat then ⟨sk, .error (.other .ewouldblock), []⟩
  else if dest = 0 ∨ e.resolved = false then ⟨sk, .error (.other .ehostunreach), []⟩
  else if sk.hdrincl = false ∧ h.mtu.mtu + 40 < data.length + 40 + sk.ipOpts.length then ⟨sk, .error .emsgsize, []⟩
  else if e.ethOk 0 = false then ⟨sk, .error (.other .enetdown), []⟩
  else if sk.hdrincl then
    ⟨sk, .ok data.length, [.hdrincl (if (data.drop 8).take 16 = List.replicate 16 0 then
      data.take 8 ++ ip6Bytes h.in6addrMyIp ++ data.drop 24 else data)]⟩
  else
    ⟨sk, .ok data.length, [.packet
      { tos := 0, len := BitVec.ofNat 16 data.length, id := 0, ttl := h.defaultTtl, proto := sk.soProto
        src := .ip6 h.in6addrMyIp, dst := .ip6 dest, opts := [] } data]⟩

/-- `raw_transmit`. -/
def rawTransmit (h : Host) (e : TxEnv) (sk : DgramSocket) (tx : Option (List Byte)) : TxEnd :=
  if sk.isIp6 then ip6Transmit h e sk tx else ip4Transmit h e sk tx

/-! ## Datagram sockets -/

/-- `is_bcast` of `udp_transmit`. -/
def bcastDest : IpAddr → Bool
  | .ip4 a => a = 0xffffffff ∨ a = 0
  | .ip6 a => (IpAddr.ip6 a).isMulticast ∧ a >>> 112 &&& 0xf = 0xe

/-- What the callbacks store. -/
def DgramSocket.notify (b : Callbacks) (sk : DgramSocket) : DgramSocket :=
  { sk with
    soError := b.soError <|> sk.soError
    soState := { sk.soState with
      connRefused := sk.soState.connRefused || b.connRefused
      cantSendMore := sk.soState.cantSendMore || b.closed
      cantRcvMore := sk.soState.cantRcvMore || b.closed } }

/-- `udp_sock` when `sock_write` is called. -/
def DgramSocket.peer (sk : DgramSocket) : Udp.UdpSocket :=
  match sk.remoteAddr with
  | some ⟨.ip4 a, port⟩ => { sk.udp with isIp6 := sk.isIp6, hisaddr := a, hisport := port }
  | some ⟨.ip6 _, port⟩ => { sk.udp with isIp6 := sk.isIp6, hisport := port }
  | none => { sk.udp with isIp6 := sk.isIp6 }

/-- A socket for broadcasts gets them back. -/
def DgramSocket.patched (sk : DgramSocket) : DgramSocket :=
  if sk.soState.priv then { sk with udp := { sk.peer with hisaddr := 0xffffffff, hisport := 0 } }
  else { sk with udp := sk.peer }

/-- `sock_write` of `udp_transmit`, and what it makes of its result. -/
def udpSend (h : Host) (e : TxEnv) (sk : DgramSocket) (data : List Byte) : TxEnd :=
  let r := Udp.sockWrite h.mtu e.wire { h.globals with in6addrMyIp := ip6Bytes h.in6addrMyIp } sk.peer data
  let sent := r.1.map Sent.datagram
  let sk := sk.patched
  if r.2 ≤ 0 then
    match sk.soError with
    | some err => ⟨{ sk with soError := none }, .error (.other err), sent⟩
    | none => ⟨sk, .error (.other .enetdown), sent⟩
  else ⟨sk, .ok r.2.toNat, sent⟩

/-- `udp_transmit`. -/
def udpTransmit (h : Host) (e : TxEnv) (sk : DgramSocket) (data : List Byte) : TxEnd :=
  let sk := sk.notify e.callbacks
  let bcast := (sk.remoteAddr.map fun toAddr => bcastDest toAddr.addr).getD false
  let dest : Dword := match sk.remoteAddr with
    | some ⟨.ip4 a, _⟩ => a
    | _ => 0
  if e.alive = false then
    ⟨{ sk with soState := { sk.soState with cantSendMore := true } }, .error (.other .epipe), []⟩
  else if sk.soState.nbio ∧ h.mtu.chunk < data.length then ⟨sk, .error (.other .ewouldblock), []⟩
  else if data = [] then rawTransmit h e sk none
  else if bcast ∧ h.mtu.chunk < data.length then ⟨sk, .error .emsgsize, []⟩
  else if bcast ∧ h.pktserial then ⟨sk, .error (.other .eaddrnotavail), []⟩
  else if 65535 - 8 < data.length then ⟨sk, .error .emsgsize, []⟩
  else if sk.isIp6 = false ∧ h.mtu.chunk < data.length then sendFragments h e sk Ip.udpProto dest data
  else udpSend h e sk data

/-! ## Packet sockets -/

/-- `sock_packet_transmit`. -/
def packetTransmit (h : Host) (e : TxEnv) (sk : DgramSocket) (data : List Byte) : TxEnd :=
  if data.length ≤ h.link.pktIpOfs then ⟨sk, .error (.other .einval), []⟩
  else if e.ethOk 0 = false then ⟨sk, .error .unchanged, []⟩
  else ⟨sk, .ok (min data.length h.link.size), [.frame (data.take h.link.size)]⟩

/-! ## The call -/

/-- `transmit` on a socket that is not a stream socket. -/
def transmitTo (h : Host) (t : SockType) (a : TxArgs) (e : TxEnv) (data : List Byte) (sk : DgramSocket) : TxEnd :=
  match transmitSetup h t a e data sk with
  | (sk, some err) => ⟨sk, .error (.other err), []⟩
  | (sk, none) =>
    let r := match t with
      | .dgram => udpTransmit h e sk data
      | .packet => packetTransmit h e sk data
      | _ => rawTransmit h e sk (some data)
    match r.ret with
    | .error _ => r
    | .ok _ =>
      if a.flags.eor ∧ t ≠ .packet then
        { r with sk := { r.sk with soState := { r.sk.soState with cantSendMore := true } } }
      else r

end Watt32.Bsd
