import Watt32.Bsd.Ports

/-!
# Connecting

`connect` on a stream or datagram socket, with what can happen to the socket between two calls and
while a blocking call waits.

* `NetOp`, `netStep`: packets, timers and ICMP errors; `sockDaemon`: `sock_daemon`.
* `sockTcpOpen`, `sockTcp6Open`, `sockUdpOpen`: the open routines.
* `ipDelay0`: `_ip_delay0`, the wait of a blocking `connect`.
* `connect`: the call.
-/

namespace Watt32.Bsd

open Tcp (Conn Packet TcpState TcpSocket handlerSegment fsmSegment)

/-! ## The network -/

/-- An ICMP error, with the maximum segment size `sock_reduce_mss` gives. -/
inductive IcmpError
  | timxceed
  | unreach (code : ℕ)
  | needfrag (maxSeg : Dword)
  | sourcequench
  | paramprob

/-- What the network brings: a packet, a pass of the retransmitter, an ICMP error for the socket. -/
inductive NetOp
  | packet (ip : Packet)
  | retransmit
  | icmp (err : IcmpError)

/-- An event of the network, and `time (NULL)`. -/
structure NetEvent where
  e : Env := {}
  time : Dword := 1
  op : NetOp

/-- `BSO_RST_CALLBACK`. -/
def rstCallback (time : Dword) (sk : BsdSocket) : BsdSocket :=
  let sk := { sk with soError := some .econnreset }
  if sk.tcp.s.rx.rxDatalen = 0 then
    { sk with
      soState := { sk.soState with connRefused := true, cantSendMore := true, cantRcvMore := true }
      closeTime := time
      lingerTime := 3 }
  else sk

/-- `tcp_sockreset` on the control block of a socket. -/
def sockReset (time : Dword) (sk : BsdSocket) : BsdSocket :=
  let isServer := sk.tcp.s.locflags.isServer
  let sk := sk.updTcp Tcp.tcpSockreset
  if isServer then sk else rstCallback time sk

/-- `_tcp_handler` once the control block is found. -/
def sockInput (ev : NetEvent) (ip : Packet) (sk : BsdSocket) : BsdSocket :=
  let sk := sk.updTcp fun c => c.upd (Tcp.restartIdle ev.e.toEnv)
  if Tcp.rstInWindow sk.tcp.s (handlerSegment ip) then sockReset ev.time sk
  else
    sk.updTcp fun c => Tcp.afterFsm ev.e.toEnv
      (Tcp.tcpFsm ev.e.toEnv (Tcp.beforeFsm ev.e.toEnv c (handlerSegment ip)) (fsmSegment ip))

/-- Change the control block of a socket. -/
def BsdSocket.setTcb (sk : BsdSocket) (t : Tcb) : BsdSocket :=
  { sk with tcp := t.conn, tcpIsIp6 := t.isIp6, my6addr := t.my6addr, his6addr := t.his6addr }

/-- The packet starts a session on the control block. -/
def takesPassively (sk : BsdSocket) (ip : Packet) : Bool :=
  demuxActive sk.tcb ip = false ∧ (handlerSegment ip).hdr.flags.syn ∧ demuxPassive sk.tcb ip

/-- `tcp_findseq` finds the control block. -/
def seqMatches (sk : BsdSocket) (ip : Packet) : Bool :=
  let hdr := (handlerSegment ip).hdr
  sk.tcp.s.hisport ≠ 0 ∧ (handlerSegment ip).destination = sk.tcp.s.myaddr ∧
    hdr.dstPort = sk.tcp.s.myport ∧ hdr.acknum = sk.tcp.s.tx.sendNext + 1

/-- `_tcp_handler` on a packet that no other control block takes. -/
def sockPacket (ev : NetEvent) (ip : Packet) (sk : BsdSocket) : BsdSocket :=
  if sk.tcp.threaded = false then sk
  else if demuxActive sk.tcb ip then sockInput ev ip sk
  else if takesPassively sk ip then sockInput ev ip (sk.setTcb (remember ip sk.tcb))
  else if (handlerSegment ip).hdr.flags.rst ∧ (handlerSegment ip).hdr.flags.ack ∧ seqMatches sk ip then
    sockReset ev.time sk
  else sk

/-- `tcp_Retransmitter` on the control block of a socket; `tcp_no_arp` wakes the socket up. -/
def sockRetransmit (ev : NetEvent) (sk : BsdSocket) : BsdSocket :=
  let noArp : Bool := sk.tcp.threaded ∧ sk.tcp.s.state = .resolve ∧ ¬ ev.e.arpResolved ∧
    ¬ ev.e.arpPending
  let sk := if noArp then
      { sk with
        soState := { sk.soState with isDisconnecting := true }
        soError := some .ehostunreach }
    else sk
  sk.updTcp (Tcp.tcpRetransmitter ev.e.toEnv)

/-- `tcp_stress_test`, for a socket that is not sturdy. -/
def tcpStressTest (s : TcpSocket) : TcpSocket × Bool :=
  let stress := s.stress + 1
  if 0 < s.stress then
    ({ s with
      stress := stress
      rx := { s.rx with rxDatalen := 0 }
      tx := { s.tx with txDatalen := 0 }
      unhappy := false }, false)
  else ({ s with stress := stress }, true)

/-- `quench_it` of `_tcp_cancel`. -/
def quenchIt (s : TcpSocket) : TcpSocket :=
  { s with rtt := { s.rtt with
      cwindow := 1, wwindow := 1, vjSa := s.rtt.vjSa <<< 2, vjSd := s.rtt.vjSd <<< 2
      rto := s.rtt.rto <<< 2 } }

/-- `_tcp_cancel` on the control block. -/
def tcpCancel (e : Tcp.Env) (c : Conn) (err : IcmpError) : Conn :=
  let stressed (c : Conn) : Conn :=
    let r := tcpStressTest c.s
    if r.2 then c.upd fun _ => quenchIt r.1 else Tcp.tcpAbort e (c.upd fun _ => r.1)
  match err with
  | .timxceed => stressed c
  | .unreach _ => stressed c
  | .needfrag maxSeg => c.upd fun s => { s with maxSeg := maxSeg }
  | .sourcequench => c.upd quenchIt
  | .paramprob => Tcp.tcpAbort e c

/-- The error of `icmp_callback`. -/
def IcmpError.errno : IcmpError → Errno
  | .unreach code => if code = 0 ∨ code = 6 ∨ code = 9 then .enetunreach else .ehostunreach
  | .needfrag _ => .ehostunreach
  | _ => .econnrefused

/-- ICMP_UNREACH or ICMP_PARAMPROB. -/
def IcmpError.signalled : IcmpError → Bool
  | .unreach _ | .needfrag _ | .paramprob => true
  | _ => false

/-- `icmp_callback`: what `stream_cancel` and `dgram_cancel` do. -/
def icmpCallback (sk : BsdSocket) (err : IcmpError) : BsdSocket :=
  { sk with
    soState := { sk.soState with connRefused := true }
    soError := some err.errno }

/-- `_udp_cancel` when it finds the socket. -/
def sockUdpCancel (sk : BsdSocket) (err : IcmpError) : BsdSocket :=
  let closes : Bool := match err with
    | .unreach _ | .paramprob => sk.udp.hisport ≠ 0
    | _ => false
  if sk.udp.threaded = false then sk
  else if closes then { sk with udp := { sk.udp with ipType := 0, threaded := false } }
  else if err.signalled ∧ sk.udp.ipType = udpProto then icmpCallback sk err
  else sk

/-- `_tcp_cancel` and `icmp_callback`. -/
def sockTcpCancel (e : Tcp.Env) (sk : BsdSocket) (err : IcmpError) : BsdSocket :=
  if sk.tcp.threaded = false then sk
  else
    let sk := sk.updTcp (tcpCancel e · err)
    if err.signalled ∧ sk.tcp.s.ipType = Tcp.tcpProto then icmpCallback sk err else sk

/-- One event of the network. -/
def netStep (sk : BsdSocket) (ev : NetEvent) : BsdSocket :=
  match sk.soType, ev.op with
  | .stream, .packet ip => sockPacket ev ip sk
  | .stream, .retransmit => sockRetransmit ev sk
  | .stream, .icmp err => sockTcpCancel ev.e.toEnv sk err
  | .dgram, .icmp err => sockUdpCancel sk err
  | _, _ => sk

/-! ## The daemon -/

/-- `sock_fastread (sk, NULL, -1)` on a control block. -/
def flushRx (e : Tcp.Env) (c : Conn) : Conn :=
  if c.s.ipType = Tcp.tcpProto ∨ 0 < c.s.rx.rxDatalen.toInt then (Tcp.tcpRead e c (-1)).1 else c

/-- `tcp_sock_daemon`; nothing when it deletes the socket. -/
def tcpSockDaemon (e : Tcp.Env) (time : Dword) (sk : BsdSocket) : Option BsdSocket :=
  let state := sk.tcp.s.state
  if state.code < TcpState.timewt.code then some sk
  else
    let closing : Bool := sk.soState.isDisconnecting ∨ sk.soState.cantSendMore
    let sk := sk.updState fun s => { s with isConnected := false, isConnecting := false }
    let sk := if sk.closeTime ≠ 0 ∧ sk.soState.cantRcvMore then sk.updTcp (flushRx e) else sk
    if closing ∧ sk.tcp.s.ipType = 0 then
      if sk.closeTime ≠ 0 ∧ sk.lingerTime.toInt ≤ (time - sk.closeTime).toInt ∧ state = .closed then
        none
      else some sk
    else some sk

/-- `udp_sock_daemon`; nothing when it deletes the socket. -/
def udpSockDaemon (sk : BsdSocket) : Option BsdSocket :=
  if (sk.soState.isDisconnecting ∨ sk.soState.cantSendMore) ∧
      (sk.udp.rxDatalen = 0 ∨ sk.udp.ipType = 0) then none
  else some sk

/-- `sock_daemon` on one socket. -/
def sockDaemon (e : Tcp.Env) (time : Dword) (sk : BsdSocket) : Option BsdSocket :=
  if sk.localAddr = none then some sk
  else
    match sk.soType with
    | .stream => tcpSockDaemon e time sk
    | .dgram => udpSockDaemon sk
    | _ => some sk

/-! ## Opening -/

/-- The control block after `memset`, in `tcp_StateCLOSED`. -/
def clearedConn (e : CallEnv) : Conn :=
  { Tcp.freshConn
      { Tcp.freshSocket e.toEnv none (fun _ => 0) (fun _ => 0) with
        ipType := 0
        nagle := false
        locflags := {}
        rx := ⟨fun _ => 0, 0, 0, 0, 0, 0, []⟩
        rtt := { cwindow := 0, vjSa := 0 }
        maxSeg := 0
        tx := ⟨fun _ => 0, .null, 0, 0, fun _ => 0, 0, 0⟩ } e.txOk with
    threaded := false }

/-- Put a control block of the given version into a socket. -/
def BsdSocket.newTcb (sk : BsdSocket) (c : Conn) (isIp6 : Bool) (my6addr his6addr : Ip6Address) :
    BsdSocket :=
  { sk with tcp := c, tcpIsIp6 := isIp6, my6addr := my6addr, his6addr := his6addr }

/-- Why `tcp_open` fails, if it does. -/
def tcpOpenError (e : CallEnv) (ip : Dword) : Option Errno :=
  if e.ethIsInit = false then some .enetdown
  else if ip = 0 ∨ Udp.ip4IsMultihomeAddr e.host ip ∨ ip >>> 28 = 0xe then some .einval
  else if e.arpStartLookup = false then some .ehostunreach
  else none

/-- `_TCP_open` once `tcp_open` has its local port. -/
def openedTcb (e : CallEnv) (lport : Word) (ip : Dword) (rport : Word) : Conn :=
  Tcp.freshConn (sockSetRcvBuf e.toStackEnv
    (Tcp.tcpOpen e.toEnv e.host.myIpAddr lport ip rport none (fun _ => 0) (fun _ => 0))) e.txOk

/-- Why `_TCP6_open` fails, if it does. -/
def tcp6OpenError (e : CallEnv) (dst : Ip6Address) : Option Errno :=
  if e.ethIsInit = false then some .enetdown
  else if dst = 0 ∨ (IpAddr.ip6 dst).isMulticast then some .einval
  else if e.neighSolic = false then some .ehostunreach
  else none

/-- `_TCP6_open` once it has its local port: it sends the SYN at once, and sets no transmit buffer. -/
def openedTcb6 (e : CallEnv) (lport rport : Word) : Conn :=
  let s := sockSetRcvBuf e.toStackEnv
    (Tcp.tcpOpen e.toEnv e.host.myIpAddr lport 0 rport none (fun _ => 0) (fun _ => 0))
  let s := { s with
    state := .synsent
    timeout := Tcp.setTimeout e.toEnv (1000 * e.cfg.sockDelay)
    tx := { s.tx with txLoc := .null, maxTxData := 0 } }
  let c := (Tcp.tcpSend e.toEnv (Tcp.freshConn s e.txOk)).1
  c.updRtt fun r => { r with rttTime := Tcp.setTimeout e.toEnv (e.rttCached.getD e.cfg.openTo) }

/-- The ports of the sockets but this one's control block, which the open routines unthread. -/
def portsOf (others : Word → Bool) (udp : UdpSock) (p : Word) : Bool :=
  others p ∨ udp.threaded ∧ udp.myport = p

/-- `_TCP_open` or `_TCP6_open`: nothing when `find_free_port` does not return. -/
def sockTcpOpen (e : CallEnv) (others : Word → Bool) (ports : Ports) (sk : BsdSocket) (a : SockAddr)
    (lport : Word) : Option (Ports × BsdSocket × Except Errno Unit) :=
  let opened (c : Word → Conn) (isIp6 : Bool) (dst : Ip6Address) :=
    (findFreePort e ports (portsOf others sk.udp) lport true).map fun r =>
      (r.1, sk.newTcb (c r.2) isIp6 (if isIp6 then e.in6addrMyIp else 0) dst, Except.ok ())
  let failed (err : Errno) :=
    some (ports, sk.newTcb (clearedConn e) false 0 0, Except.error err)
  match a.addr with
  | .ip4 ip =>
    match tcpOpenError e ip with
    | some err => failed err
    | none => opened (fun p => openedTcb e p ip a.port) false 0
  | .ip6 dst =>
    match tcp6OpenError e dst with
    | some err => failed err
    | none => opened (fun p => openedTcb6 e p a.port) true dst

/-- `_UDP_open`, `_UDP6_open` and `udp_connect`. -/
def sockUdpOpen (e : CallEnv) (ports : Ports) (sk : BsdSocket) (a : SockAddr) (lport : Word) :
    Ports × BsdSocket × Except Errno Unit :=
  match a.addr with
  | .ip4 ip =>
    match udpOpenImpl e ports sk.udp lport ip a.port with
    | (ports, udp, .error err) => (ports, { sk with udp := udp }, .error err)
    | (ports, udp, .ok ()) =>
      (ports, { sk with
        udp := { udp with rxData := true }
        soState := { sk.soState with unconnected := false, isConnected := true } }, .ok ())
  | .ip6 _ => (ports, { sk with udp := { sk.udp with rxData := true } }, .error .ehostunreach)

/-! ## Waiting -/

/-- One turn of the loop of `_ip_delay0`: its clock, what its `tcp_tick` handles, and whether a signal
is pending. -/
structure Turn where
  e : Tcp.Env := {}
  events : List NetEvent := []
  signal : Bool := false

/-- `tcp_tick` on the socket. -/
def Turn.tick (t : Turn) (sk : BsdSocket) : BsdSocket :=
  t.events.foldl netStep (sk.updTcp Tcp.tickDead)

/-- `tcp_established`, on a TCP control block. -/
def established (c : Conn) : Bool :=
  c.s.ipType = Tcp.tcpProto ∧ TcpState.estab.code ≤ c.s.state.code

/-- `_ip_delay0`: the socket and whether the status is 0, or nothing while it waits. -/
def ipDelay0 (usertimer : Dword) : List Turn → BsdSocket → Option (BsdSocket × Bool)
  | [], sk => if established sk.tcp then some (sk, true) else none
  | t :: ts, sk =>
    if established sk.tcp then some (sk, true)
    else
      let sk := t.tick sk
      if sk.tcp.s.ipType = 0 then some (sk, false)
      else if Tcp.chkTimeout t.e usertimer then some (sk.updTcp (Tcp.sockClose t.e), false)
      else if t.signal then some (sk, false)
      else ipDelay0 usertimer ts sk

/-! ## The call -/

/-- What goes on during a call: what `tcp_tick` handles when a connection is pending and whether it runs
the daemon, the turns of the wait, and the clocks at the end. -/
structure During where
  tick : List NetEvent := []
  daemon : Bool := false
  turns : List Turn := []
  last : Tcp.Env := {}
  time : Dword := 1

/-- How a call ends: it returns 0, or -1 with `errno`; or it has not returned; or it has gone on with a
socket that `sock_daemon` has deleted meanwhile. -/
inductive Outcome
  | ok
  | error (err : Errno)
  | waits
  | fault
  deriving DecidableEq

/-- What a call leaves: the ports, the socket unless the daemon has deleted it, how it ended, and (a
ghost) whether it has called an open routine. -/
structure Called where
  ports : Ports
  sk : Option BsdSocket
  outcome : Outcome
  tried : Bool := false

/-- `tcp_connect` marks the attempt. -/
def connecting (sk : BsdSocket) : BsdSocket :=
  { sk with
    tcp := sk.tcp.upd fun s => { s with locflags := { s.locflags with rcvtimeo := true } }
    soState := { sk.soState with isConnecting := true }
    soError := none }

/-- `tcp_connect` after the wait. -/
def connectResult (d : During) (timeout : Dword) (sk : BsdSocket) (status : Bool) :
    BsdSocket × Outcome :=
  match sk.soError with
  | some err => ({ sk with soError := none }, .error err)
  | none =>
    if status then
      (sk.updState fun s =>
        { s with unconnected := false, isConnecting := false, isConnected := true }, .ok)
    else
      (sk.updState fun s => { s with isConnecting := false },
        .error (if Tcp.chkTimeout d.last timeout then .etimedout else .econnreset))

/-- `tcp_connect` after a successful open. -/
def tcpConnect (e : CallEnv) (d : During) (sk : BsdSocket) : BsdSocket × Outcome :=
  let sk := connecting sk
  if sk.soState.nbio then
    ({ sk with nbTimer := Tcp.setTimeout e.toEnv (1000 * e.cfg.sockDelay) }, .error .einprogress)
  else
    let timeout := Tcp.setTimeout e.toEnv (1000 * sk.timeout)
    match ipDelay0 (if sk.timeout = 0 then 0 else timeout) d.turns sk with
    | none => (sk, .waits)
    | some (sk, status) => connectResult d timeout sk status

/-- `_sock_crit_stop` at the end of `connect`. -/
def critStop (d : During) (r : BsdSocket × Outcome) : Option BsdSocket :=
  if r.2 = .waits then some r.1 else sockDaemon d.last d.time r.1

/-- The switch of `connect` over the socket types. -/
def connectType (e : CallEnv) (others : Word → Bool) (d : During) (ports : Ports) (sk : BsdSocket)
    (a : SockAddr) (lport : Word) : Ports × BsdSocket × Outcome :=
  match sk.soType with
  | .stream =>
    match sockTcpOpen e others ports sk a lport with
    | none => (ports, sk, .waits)
    | some (ports, sk, .error err) => (ports, sk, .error err)
    | some (ports, sk, .ok ()) => (ports, tcpConnect e d sk)
  | .dgram =>
    match sockUdpOpen e ports sk a lport with
    | (ports, sk, .error err) => (ports, sk, .error err)
    | (ports, sk, .ok ()) => (ports, sk, .ok)
  | _ => (ports, sk.updState fun s => { s with isConnected := true }, .ok)

/-- The address of the host in the family of the socket. -/
def CallEnv.myAddr (e : CallEnv) (isIp6 : Bool) : IpAddr :=
  if isIp6 then .ip6 e.in6addrMyIp else .ip4 e.host.myIpAddr

/-- The local address of a connecting socket: its own, or one with a free port; nothing when
`find_free_port` does not return. -/
def autoBind (e : CallEnv) (others : Word → Bool) (ports : Ports) (sk : BsdSocket) :
    Option (Ports × SockAddr) :=
  match sk.localAddr with
  | some la => some (ports, la)
  | none =>
    (findFreePort e ports (fun p => others p ∨ sk.inChain p) 0 true).map fun r =>
      (r.1, ⟨e.myAddr sk.isIp6, r.2⟩)

/-- `connect` from the auto-binding on. -/
def connectBind (e : CallEnv) (others : Word → Bool) (d : During) (ports : Ports) (sk : BsdSocket)
    (a : SockAddr) : Called :=
  if sk.localAddr = none ∧ e.callocLocal = false then
    ⟨ports, some { sk with remoteAddr := none }, .error .enomem, false⟩
  else
    match autoBind e others ports sk with
    | none => ⟨ports, some sk, .waits, false⟩
    | some (ports, la) =>
      let sk := { sk with remoteAddr := some a, localAddr := some la }
      if e.sigSetup = false then ⟨ports, critStop d (sk, .error .eintr), .error .eintr, false⟩
      else
        let r := connectType e others d ports sk a la.port
        ⟨r.1, critStop d r.2, r.2.2, true⟩

/-- `tcp_tick (NULL)` in `connect`; nothing when the daemon deletes the socket. -/
def During.tcpTick (d : During) (sk : BsdSocket) : Option BsdSocket :=
  let sk := d.tick.foldl netStep sk
  if d.daemon then sockDaemon d.last d.time sk else some sk

/-- `connect` on a stream socket that has a remote address already. -/
def connectAgain (d : During) (ports : Ports) (sk : BsdSocket) : Called :=
  if sk.soState.isConnecting then
    match d.tcpTick sk with
    | none => ⟨ports, none, .fault, false⟩
    | some sk =>
      let r := sockPendingConnect d.last sk.toStreamSocket
      let sk := { sk with toStreamSocket := r.1 }
      if r.2 then ⟨ports, some sk, .error .ealready, false⟩
      else
        match sk.soError with
        | some err => ⟨ports, some { sk with soError := none }, .error err, false⟩
        | none => ⟨ports, some sk, .error .eisconn, false⟩
  else ⟨ports, some sk, .error .eisconn, false⟩

/-- `connect` clears any effect of previous ICMP errors on a datagram socket. -/
def clearErrors (sk : BsdSocket) : BsdSocket :=
  { sk with
    soState := { sk.soState with connRefused := false, cantSendMore := false, cantRcvMore := false }
    soError := none }

/-- `connect`. `others` are the ports of the other sockets. -/
def connect (e : CallEnv) (others : Word → Bool) (d : During) (ports : Ports) (sk : BsdSocket)
    (servaddr : SockAddrArg) : Called :=
  match sockChkSockaddr sk servaddr with
  | (sk, .error err) => ⟨ports, some sk, .error err, false⟩
  | (sk, .ok a) =>
    if sk.soType = .stream ∧ sk.soState.isConnected then ⟨ports, some sk, .error .eisconn, false⟩
    else if sk.soType = .stream ∧ sk.soAcceptconn then ⟨ports, some sk, .error .eopnotsupp, false⟩
    else if sk.soType = .stream ∧ a.addr.isMulticast then ⟨ports, some sk, .error .einval, false⟩
    else
      match sk.remoteAddr with
      | some ra =>
        if sk.soType = .stream then connectAgain d ports sk
        else if a = ra then ⟨ports, some sk, .ok, false⟩
        else connectBind e others d ports (clearErrors sk) a
      | none =>
        if e.callocRemote = false then ⟨ports, some sk, .error .enomem, false⟩
        else connectBind e others d ports sk a

end Watt32.Bsd
