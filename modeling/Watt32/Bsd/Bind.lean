import Watt32.Bsd.Reconnect

/-!
# Binding

`bind`, `listen` and `close_s` on the sockets of `sk_list`, which share the bit-array of the local
ports.

* `bind`, `listen`, `closeS`: the calls.
* `Net`, `NetCall`, `callStep`: all sockets, and what happens to them.
* `BindLaw`: `bind` takes no port from another socket, and a failed call changes nothing.
* `BindOk`: the calls of which this is true.
* **`bind_lawful_iff`**: a run obeys the law exactly if all its calls of `bind` are such.
-/

namespace Watt32.Bsd

open Machine

/-! ## Addresses -/

/-- `ntohl`. -/
def ntohl (a : Dword) : Dword :=
  a <<< 24 ||| (a &&& 0xff00) <<< 8 ||| (a >>> 8 &&& 0xff00) ||| a >>> 24

/-- `_ip4_is_local_addr`. -/
def ip4IsLocalAddr (g : Udp.Globals) (ip : Dword) : Bool :=
  g.sinMask ≠ 0xffffffff ∧ (ip >>> 24 = 127 ∨ Udp.ip4IsMultihomeAddr g ip)

/-- `_ip6_is_local_addr`. -/
def ip6IsLocalAddr (e : CallEnv) (ip : Ip6Address) : Bool := ip = e.in6addrMyIp ∨ ip = 1

/-- `our_addr` of `bind`. -/
def ourAddr (e : CallEnv) : IpAddr → Bool
  | .ip4 a => ip4IsLocalAddr e.host a
  | .ip6 a => ip6IsLocalAddr e a

/-- `is_bcast` of `bind`, which takes an IPv4 address in network order. -/
def isBcast (e : CallEnv) : IpAddr → Bool
  | .ip4 a => ~~~ntohl a &&& ~~~e.host.sinMask = 0
  | .ip6 a => (IpAddr.ip6 a).isMulticast ∧ a >>> 112 &&& 0xf = 0xe

/-! ## `bind` -/

/-- Why `bind` refuses an address before it touches the socket, if it does. -/
def bindError (e : CallEnv) (sk : BsdSocket) (a : SockAddr) : Option Errno :=
  if sk.soType = .stream ∧ a.addr.isMulticast then some .einval
  else if sk.soType = .stream ∧ ¬ a.addr.isAny ∧ ¬ ourAddr e a.addr ∧ ¬ isBcast e a.addr then
    some .eaddrnotavail
  else
    match sk.localAddr with
    | some la =>
      if a.port ≠ 0 ∧ a.port = la.port ∨ ¬ a.addr.isAny ∧ a.addr = la.addr then some .eaddrinuse
      else none
    | none => if e.callocLocal then none else some .enomem

/-- The socket with `local_addr` allocated. -/
def allocLocal (sk : BsdSocket) : BsdSocket :=
  { sk with localAddr := some (sk.localAddr.getD ⟨if sk.isIp6 then .ip6 0 else .ip4 0, 0⟩) }

/-- The socket with the local address. -/
def setLocal (sk : BsdSocket) (la : SockAddr) : BsdSocket := { sk with localAddr := some la }

/-- The local port: a free one, or the requested one whether it is vacant or not; no port when it is
out of range or there is no bit-array. Nothing when `find_free_port` does not return. -/
def bindPort (e : CallEnv) (allsocs : Word → Bool) (ports : Ports) (port : Word) :
    Option (Ports × Option Word) :=
  if port = 0 then (findFreePort e ports allsocs 0 true).map fun r => (r.1, some r.2)
  else
    let r := grabLocalport e ports port
    some (r.1, r.2.map fun _ => port)

/-- `_UDP_listen`. With no interface `sock_recv_init` writes through the cleared `rx_data`. -/
def sockUdpListen (e : CallEnv) (others : Word → Bool) (ports : Ports) (sk : BsdSocket)
    (host : Dword) (port : Word) : Ports × BsdSocket × Outcome :=
  if sk.soState.priv then
    if e.mallocPool = false then (ports, sk, .error .enomem)
    else
      match udpListen e ports others sk.udp port (if host = 0 then Udp.ipBcastAddr else host) 0 with
      | none => (ports, sk, .waits)
      | some (ports, udp) =>
        if e.ethIsInit = false then (ports, { sk with udp := udp, bcastPool := true }, .fault)
        else (ports, { sk with udp := { udp with recvdaemon := true }, bcastPool := true }, .ok)
  else
    match udpListen e ports others sk.udp port host 0 with
    | none => (ports, sk, .waits)
    | some (ports, udp) => (ports, { sk with udp := udp }, .ok)

/-- `bind` to any address makes a datagram socket privileged for broadcasts. -/
def markPriv (sk : BsdSocket) (a : IpAddr) : BsdSocket :=
  sk.updState fun s => { s with priv := s.priv || a.isAny }

/-- The end of `bind`: a datagram socket listens at once. `_UDP6_listen` does nothing. -/
def bindListen (e : CallEnv) (others : Word → Bool) (ports : Ports) (sk : BsdSocket) (a : IpAddr)
    (port : Word) : Ports × BsdSocket × Outcome :=
  if sk.soType = .dgram then
    match a with
    | .ip4 host => sockUdpListen e others ports (markPriv sk a) host port
    | .ip6 _ => (ports, markPriv sk a, .ok)
  else (ports, sk, .ok)

/-- `bind` from the port on. -/
def bindAddr (e : CallEnv) (others : Word → Bool) (ports : Ports) (sk : BsdSocket) (a : SockAddr) :
    Ports × BsdSocket × Outcome :=
  match bindPort e (fun p => others p ∨ sk.inChain p) ports a.port with
  | none => (ports, sk, .waits)
  | some (ports, none) => (ports, sk, .error .eaddrnotavail)
  | some (ports, some port) =>
    bindListen e others ports (setLocal sk ⟨a.addr, port⟩) a.addr port

/-- `bind`. `others` are the ports of the other sockets. -/
def bind (e : CallEnv) (others : Word → Bool) (ports : Ports) (sk : BsdSocket)
    (myaddr : SockAddrArg) : Ports × BsdSocket × Outcome :=
  match sockChkSockaddr sk myaddr with
  | (sk, .error err) => (ports, sk, .error err)
  | (sk, .ok a) =>
    match bindError e sk a with
    | some err => (ports, sk, .error err)
    | none => bindAddr e others ports (allocLocal sk) a

/-! ## `listen` -/

/-- `_TCP_listen` or `_TCP6_listen`, which does nothing: nothing when `find_free_port` does not
return. -/
def sockTcpListen (e : CallEnv) (others : Word → Bool) (ports : Ports) (sk : BsdSocket)
    (locPort : Word) : Option (Ports × BsdSocket) :=
  if sk.isIp6 then some (ports, sk)
  else if e.ethIsInit = false then some (ports, sk.newTcb (clearedConn e) false 0 0)
  else
    (findFreePort e ports (portsOf others sk.udp) locPort false).map fun r =>
      (r.1, sk.newTcb (Tcp.freshConn (Tcp.tcpListen e.toEnv r.2 0 0 none 0 (fun _ => 0) fun _ => 0)
        e.txOk) false 0 0)

/-- `listen`. -/
def listen (e : CallEnv) (others : Word → Bool) (ports : Ports) (sk : BsdSocket) (backlog : ℤ) :
    Ports × BsdSocket × Outcome :=
  match sk.localAddr with
  | none => (ports, sk, .error .einval)
  | some la =>
    if sk.soType ≠ .stream then (ports, sk, .error .eopnotsupp)
    else
      match sockTcpListen e others ports sk la.port with
      | none => (ports, sk, .waits)
      | some (ports, sk) =>
        (ports, { sk with
          timeout := 0
          soState := { sk.soState with isListening := true }
          soAcceptconn := true
          backlog := max (min backlog (somaxconn - 1)) 1 }, .ok)

/-! ## `close_s` -/

/-- The ports that `_sock_del_fd` leaves. -/
def BsdSocket.sockDelFd (e : CallEnv) (ports : Ports) (sk : BsdSocket) : Ports :=
  match sk.soType with
  | .stream => reuseLocalport e ports sk.tcp.s.myport
  | .dgram =>
    let ports := reuseLocalport e ports sk.udp.myport
    if sk.udp.ipType = udpProto then (udpClose e ports sk.udp).1 else ports
  | _ => ports

/-- `close_dgram`: the ports, and the socket unless it is deleted. -/
def BsdSocket.closeDgram (e : CallEnv) (ports : Ports) (sk : BsdSocket) : Ports × Option BsdSocket :=
  let udp := { sk.udp with rxDatalen := 0 }
  let r := if udp.ipType = udpProto then udpClose e ports udp else (ports, udp)
  let sk := { sk with
    udp := r.2
    soState := { sk.soState with isDisconnecting := true, cantSendMore := true } }
  if sk.localAddr = none then (sk.sockDelFd e r.1, none) else (r.1, some sk)

/-- `close_stream` and whether it returns 0, not -1 with EBADF. The socket may also go in the
`tcp_tick` of `sock_close`. The ticks of a blocking close come after it. -/
def BsdSocket.closeStream (e : CallEnv) (d : During) (ports : Ports) (sk : BsdSocket) :
    Ports × Option BsdSocket × Bool :=
  if sk.soState.isDisconnecting ∧ sk.closeTime ≠ 0 then (ports, some sk, false)
  else if sk.soLinger ∧ sk.lingerTime = 0 ∨ sk.localAddr = none ∨ sk.soAcceptconn then
    (sk.sockDelFd e ports, none, true)
  else
    let flushed := Tcp.sockFlush e.toEnv (sk.tcp.upd fun s => { s with rx.rxDatalen := 0 })
    let sk := { sk with tcp := Tcp.sockClose e.toEnv flushed }
    match if flushed.s.ipType = Tcp.tcpProto then d.tcpTick sk else some sk with
    | none => (sk.sockDelFd e ports, none, true)
    | some sk =>
      (ports, some { sk with
        soState := { sk.soState with
          isDisconnecting := true, cantSendMore := true, cantRcvMore := true }
        closeTime := d.time }, true)

/-- `close_s`. -/
def closeS (e : CallEnv) (d : During) (ports : Ports) (sk : BsdSocket) :
    Ports × Option BsdSocket × Bool :=
  let sk := { sk with soError := none }
  match sk.soType with
  | .stream => sk.closeStream e d ports
  | .dgram =>
    let r := sk.closeDgram e ports
    (r.1, r.2, true)
  | _ => (sk.sockDelFd e ports, none, true)

/-! ## All sockets -/

/-- The ports, the handles in `sk_list`, the socket of a handle, the ports of the sockets outside
`sk_list` that are in `_udp_allsocs` or `_tcp_allsocs`, and whether a call has not returned. -/
structure Net where
  ports : Ports
  skList : List ℕ
  socks : ℕ → BsdSocket
  native : Word → Bool
  stuck : Bool

/-- What happens: `socket` (or `accept`) makes a socket; the calls on one; an event of the network or
the daemon for one; the bit of a port changes, and what is in the chains. -/
inductive NetCall
  | socket (fd : ℕ) (sk : BsdSocket)
  | bind (fd : ℕ) (e : CallEnv) (myaddr : SockAddrArg)
  | connect (fd : ℕ) (e : CallEnv) (d : During) (servaddr : SockAddrArg)
  | listen (fd : ℕ) (e : CallEnv) (backlog : ℤ)
  | close (fd : ℕ) (e : CallEnv) (d : During)
  | net (fd : ℕ) (ev : NetEvent)
  | daemon (fd : ℕ) (e : CallEnv) (time : Dword)
  | port (p : Word) (inUse : Bool)
  | native (chains : Word → Bool)

/-- The ports in the chains but for those of the socket. -/
def Net.others (n : Net) (fd : ℕ) (p : Word) : Bool :=
  n.native p || n.skList.any fun fd' => fd' ≠ fd && (n.socks fd').inChain p

/-- What a call on the socket leaves. -/
def Net.put (n : Net) (fd : ℕ) (ports : Ports) (sk : Option BsdSocket) (stuck : Bool) : Net :=
  match sk with
  | some sk => { n with ports := ports, socks := Function.update n.socks fd sk, stuck := stuck }
  | none => { n with ports := ports, skList := n.skList.filter (· ≠ fd), stuck := stuck }

/-- What a call with an outcome leaves. -/
def Net.putCall (n : Net) (fd : ℕ) (r : Ports × BsdSocket × Outcome) : Net :=
  n.put fd r.1 (some r.2.1) (r.2.2 = .waits ∨ r.2.2 = .fault)

/-- The call on a socket of the net. -/
def Net.bind (n : Net) (fd : ℕ) (e : CallEnv) (myaddr : SockAddrArg) : Ports × BsdSocket × Outcome :=
  Bsd.bind e (n.others fd) n.ports (n.socks fd) myaddr

/-- One step. The calls on a handle that is not in `sk_list` fail with EBADF or ENOTSOCK. -/
def callStep (n : Net) : NetCall → Net
  | .socket fd sk =>
    if n.stuck ∨ fd ∈ n.skList then n
    else { n with skList := fd :: n.skList, socks := Function.update n.socks fd sk }
  | .bind fd e myaddr =>
    if n.stuck ∨ fd ∉ n.skList then n else n.putCall fd (n.bind fd e myaddr)
  | .connect fd e d servaddr =>
    if n.stuck ∨ fd ∉ n.skList then n
    else
      let r := connect e (n.others fd) d n.ports (n.socks fd) servaddr
      n.put fd r.ports r.sk (r.outcome = .waits ∨ r.outcome = .fault)
  | .listen fd e backlog =>
    if n.stuck ∨ fd ∉ n.skList then n
    else n.putCall fd (listen e (n.others fd) n.ports (n.socks fd) backlog)
  | .close fd e d =>
    if n.stuck ∨ fd ∉ n.skList then n
    else
      let r := closeS e d n.ports (n.socks fd)
      n.put fd r.1 r.2.1 false
  | .net fd ev => if fd ∉ n.skList then n else n.put fd n.ports (netStep (n.socks fd) ev) n.stuck
  | .daemon fd e time =>
    if fd ∉ n.skList then n
    else
      match sockDaemon e.toEnv time (n.socks fd) with
      | some sk => n.put fd n.ports (some sk) n.stuck
      | none => n.put fd ((n.socks fd).sockDelFd e n.ports) none n.stuck
  | .port p inUse => { n with ports := n.ports.map fun bits => setPort bits p inUse }
  | .native chains => { n with native := chains }

/-! ## The law -/

/-- The port is the socket's: its local address has it, or it is in a chain with it. -/
def BsdSocket.HasPort (sk : BsdSocket) (p : Word) : Prop :=
  (∃ la, sk.localAddr = some la ∧ la.port = p) ∨ sk.inChain p = true

/-- The port is marked in use, and another live socket has it. -/
def Net.Taken (n : Net) (fd : ℕ) (p : Word) : Prop :=
  n.ports.inUse p ∧ ∃ fd' ∈ n.skList, fd' ≠ fd ∧ (n.socks fd').HasPort p

/-- `listen` on the socket fails with EINVAL. -/
def ListenFails (sk : BsdSocket) : Prop :=
  ∀ e others ports backlog, (listen e others ports sk backlog).2.2 = .error .einval

/-- What the claim has of one call: it does not succeed with a port that another socket has, and when
it fails the socket is as it was, so that `listen` on an unbound one still fails. -/
structure BindLaw (n : Net) (fd : ℕ) (e : CallEnv) (myaddr : SockAddrArg) : Prop where
  exclusive : (n.bind fd e myaddr).2.2 = .ok →
    ∀ a, myaddr = .addr a → a.port ≠ 0 → ¬ n.Taken fd a.port
  atomic : ∀ err, (n.bind fd e myaddr).2.2 = .error err → (n.bind fd e myaddr).2.1 = n.socks fd
  unbound : ∀ err, (n.bind fd e myaddr).2.2 = .error err → (n.socks fd).localAddr = none →
    ListenFails (n.bind fd e myaddr).2.1

/-- The law at one step. -/
def BindLawful (n : Net) (call : NetCall) : Prop :=
  ∀ fd e myaddr, call = .bind fd e myaddr → n.stuck = false → fd ∈ n.skList → BindLaw n fd e myaddr

/-! ## The condition -/

/-- AF_UNSPEC has nothing to dissolve. -/
structure Dissolved (sk : BsdSocket) : Prop where
  isDisconnecting : sk.soState.isDisconnecting = false
  cantSendMore : sk.soState.cantSendMore = false
  rxDatalen : sk.udp.rxDatalen = 0
  remoteAddr : sk.remoteAddr = none

/-- The socket gets a pool for broadcasts. -/
def Pooled (sk : BsdSocket) (a : IpAddr) : Prop :=
  sk.soType = .dgram ∧ a.isIp6 = false ∧ (sk.soState.priv = true ∨ a.isAny = true)

/-- The last part of `bind` comes to no end: the UDP socket finds no port, or it has no buffer for
the pool. -/
def ListenHangs (e : CallEnv) (others : Word → Bool) (ports : Ports) (sk : BsdSocket) (a : SockAddr) :
    Prop :=
  sk.soType = .dgram ∧ a.addr.isIp6 = false ∧
    (udpListen e ports others sk.udp a.port 0 0 = none ∨ Pooled sk a.addr ∧ e.ethIsInit = false)

/-- A requested port is given to the socket with no harm done. -/
def PortOk (n : Net) (fd : ℕ) (e : CallEnv) (a : SockAddr) : Prop :=
  match grabLocalport e n.ports a.port with
  | (_, none) => (n.socks fd).localAddr ≠ none
  | (ports, some _) =>
    (Pooled (n.socks fd) a.addr → e.mallocPool = true) ∧
      (n.Taken fd a.port → ListenHangs e (n.others fd) ports (n.socks fd) a)

/-- A free port is given to the socket with no harm done. -/
def AnyPortOk (n : Net) (fd : ℕ) (e : CallEnv) (a : SockAddr) : Prop :=
  ∀ r, findFreePort e n.ports (fun p => n.others fd p ∨ (n.socks fd).inChain p) 0 true = some r →
    Pooled (n.socks fd) a.addr → e.mallocPool = true ∨
      (n.socks fd).soState.priv = true ∧ (n.socks fd).localAddr = some ⟨a.addr, r.2⟩

/-- The calls that obey the law. -/
def BindOk (n : Net) (fd : ℕ) (e : CallEnv) : SockAddrArg → Prop
  | .short | .other => True
  | .unspec => (n.socks fd).soType = .dgram → Dissolved (n.socks fd)
  | .addr a =>
    (n.socks fd).soType ≠ .packet → a.addr.isIp6 = (n.socks fd).isIp6 →
      bindError e (n.socks fd) a = none →
        if a.port = 0 then AnyPortOk n fd e a else PortOk n fd e a

/-- The condition at one step. -/
def BindsOk (n : Net) (call : NetCall) : Prop :=
  ∀ fd e myaddr, call = .bind fd e myaddr → n.stuck = false → fd ∈ n.skList → BindOk n fd e myaddr

/-! ## How `bind` ends -/

variable {n : Net} {fd : ℕ} {e : CallEnv} {myaddr : SockAddrArg} {a : SockAddr} {others : Word → Bool}
  {ports : Ports} {sk : BsdSocket} {err : Errno}

theorem listenFails (h : sk.localAddr = none) : ListenFails sk := by
  intro e others ports backlog
  rw [listen, h]

theorem udpListen_eq_none (ip ip' : Dword) (port : Word) (s : UdpSock) :
    udpListen e ports others s port ip 0 = none ↔ udpListen e ports others s port ip' 0 = none := by
  simp only [udpListen, Option.map_eq_none_iff]

/-- For want of memory for the pool `_UDP_listen` fails. -/
theorem sockUdpListen_noPool (hpriv : sk.soState.priv = true) (hm : e.mallocPool = false) (host : Dword)
    (port : Word) : sockUdpListen e others ports sk host port = (ports, sk, .error .enomem) := by
  rw [sockUdpListen, if_pos hpriv, if_pos hm]

/-- Otherwise it does not fail. -/
theorem sockUdpListen_outcome (sk : BsdSocket) (others : Word → Bool) (ports : Ports) (hm : sk.soState.priv = true → e.mallocPool = true) (host : Dword)
    (port : Word) :
    (∀ err, (sockUdpListen e others ports sk host port).2.2 ≠ .error err) ∧
      ((sockUdpListen e others ports sk host port).2.2 = .ok ↔
        ¬ (udpListen e ports others sk.udp port 0 0 = none ∨
          sk.soState.priv = true ∧ e.ethIsInit = false)) := by
  have hnone (ip : Dword) : udpListen e ports others sk.udp port ip 0 = none ↔
      udpListen e ports others sk.udp port 0 0 = none := udpListen_eq_none ip 0 port sk.udp
  by_cases hpriv : sk.soState.priv = true
  · rw [sockUdpListen, if_pos hpriv, if_neg (by simp [hm hpriv])]
    rw [← hnone (if host = 0 then Udp.ipBcastAddr else host)]
    cases udpListen e ports others sk.udp port (if host = 0 then Udp.ipBcastAddr else host) 0 with
    | none => simp
    | some r => cases heth : e.ethIsInit <;> simp [hpriv]
  · rw [sockUdpListen, if_neg hpriv, ← hnone host]
    cases udpListen e ports others sk.udp port host 0 with
    | none => simp
    | some r => simp [hpriv]

@[simp] theorem markPriv_udp (a : IpAddr) : (markPriv sk a).udp = sk.udp := rfl

@[simp] theorem markPriv_localAddr (a : IpAddr) : (markPriv sk a).localAddr = sk.localAddr := rfl

theorem markPriv_priv (hdgram : sk.soType = .dgram) (host : Dword) :
    (markPriv sk (.ip4 host)).soState.priv = true ↔ Pooled sk (.ip4 host) := by
  simp [markPriv, BsdSocket.updState, Pooled, hdgram, IpAddr.isIp6]

theorem bindListen_ip4 (hdgram : sk.soType = .dgram) (host : Dword) (port : Word) :
    bindListen e others ports sk (.ip4 host) port =
      sockUdpListen e others ports (markPriv sk (.ip4 host)) host port := by
  rw [bindListen, if_pos hdgram]

/-- For want of memory `bind` fails when all else is done. -/
theorem bindListen_noPool (sk : BsdSocket) (hp : Pooled sk a.addr) (hm : e.mallocPool = false) (port : Word) :
    bindListen e others ports sk a.addr port = (ports, markPriv sk a.addr, .error .enomem) := by
  obtain ⟨addr, p⟩ := a
  cases addr with
  | ip6 ip => cases hp.2.1
  | ip4 host =>
    rw [bindListen_ip4 hp.1]
    exact sockUdpListen_noPool ((markPriv_priv hp.1 host).mpr hp) hm host port

/-- Otherwise it does not fail any more. -/
theorem bindListen_outcome (sk : BsdSocket) (others : Word → Bool) (ports : Ports)
    (hm : Pooled sk a.addr → e.mallocPool = true) (port : Word) :
    (∀ err, (bindListen e others ports sk a.addr port).2.2 ≠ .error err) ∧
      ((bindListen e others ports sk a.addr port).2.2 = .ok ↔
        ¬ ListenHangs e others ports sk ⟨a.addr, port⟩) := by
  obtain ⟨addr, p⟩ := a
  by_cases hdgram : sk.soType = .dgram
  · cases addr with
    | ip6 ip => simp [bindListen, ListenHangs, hdgram, IpAddr.isIp6]
    | ip4 host =>
      rw [bindListen_ip4 hdgram]
      have h := sockUdpListen_outcome (markPriv sk (.ip4 host)) others ports
        (fun h => hm ((markPriv_priv hdgram host).mp h)) host port
      rw [markPriv_priv hdgram, markPriv_udp] at h
      simpa only [ListenHangs, hdgram, IpAddr.isIp6, true_and] using h
  · simp [bindListen, ListenHangs, hdgram]

/-! ## The law of one call -/

/-- A refused call changes nothing. -/
theorem bindLaw_refused (h : n.bind fd e myaddr = (ports, n.socks fd, .error err)) :
    BindLaw n fd e myaddr where
  exclusive hok := by rw [h] at hok; cases hok
  atomic _ _ := by rw [h]
  unbound _ _ hnone := by rw [h]; exact listenFails hnone

/-- A failed call is lawful exactly if the socket is as it was. -/
theorem bindLaw_failed (h : n.bind fd e myaddr = (ports, sk, .error err)) :
    BindLaw n fd e myaddr ↔ sk = n.socks fd := by
  constructor
  · intro hlaw
    have hat := hlaw.atomic err (by rw [h])
    rwa [h] at hat
  · rintro rfl
    exact bindLaw_refused h

/-- A call that does not fail is lawful exactly if it does not succeed with a port that another socket
has. -/
theorem bindLaw_noError (h : ∀ err, (n.bind fd e (.addr a)).2.2 ≠ .error err) :
    BindLaw n fd e (.addr a) ↔
      ((n.bind fd e (.addr a)).2.2 = .ok → a.port ≠ 0 → ¬ n.Taken fd a.port) := by
  constructor
  · exact fun hlaw hok hp => hlaw.exclusive hok a rfl hp
  · intro hex
    refine ⟨fun hok a' ha' => ?_, fun err herr => absurd herr (h err), fun err herr => absurd herr (h err)⟩
    cases ha'
    exact hex hok

/-- The sockaddr and the address pass the tests. -/
theorem bind_accepted (hp : (n.socks fd).soType ≠ .packet) (h6 : a.addr.isIp6 = (n.socks fd).isIp6)
    (herr : bindError e (n.socks fd) a = none) :
    n.bind fd e (.addr a) = bindAddr e (n.others fd) n.ports (allocLocal (n.socks fd)) a := by
  rw [Net.bind, bind, sockChkSockaddr, if_neg (by simp [hp, h6])]
  simp only [herr]

theorem bindError_ne_self (herr : bindError e sk a = none) (hp : a.port ≠ 0) :
    sk.localAddr ≠ some a := by
  intro hla
  simp only [bindError, hla] at herr
  split_ifs at herr with _ _ h
  exact hp (by simpa using h : a.port = 0 ∧ _).1

theorem allocLocal_eq_self : allocLocal sk = sk ↔ sk.localAddr ≠ none := by
  constructor
  · intro h hnone
    have hla := congrArg (fun sk => sk.localAddr) h
    simp [allocLocal, hnone] at hla
  · intro h
    obtain ⟨la, hla⟩ := Option.ne_none_iff_exists'.mp h
    have : some (sk.localAddr.getD ⟨if sk.isIp6 then .ip6 0 else .ip4 0, 0⟩) = sk.localAddr := by
      rw [hla, Option.getD_some]
    simp only [allocLocal, this]

/-! ### The port -/

theorem bindAddr_grabbed {b : Bool} (hp : a.port ≠ 0) {ports' : Ports}
    (hg : grabLocalport e ports a.port = (ports', some b)) :
    bindAddr e others ports sk a = bindListen e others ports' (setLocal sk a) a.addr a.port := by
  simp only [bindAddr, bindPort, if_neg hp, hg, Option.map_some]

theorem bindAddr_notGrabbed (hp : a.port ≠ 0) {ports' : Ports}
    (hg : grabLocalport e ports a.port = (ports', none)) :
    bindAddr e others ports sk a = (ports', sk, .error .eaddrnotavail) := by
  simp only [bindAddr, bindPort, if_neg hp, hg, Option.map_none]

theorem bindAddr_free (sk : BsdSocket) (hp : a.port = 0) {r : Ports × Word}
    (hf : findFreePort e ports (fun p => others p ∨ sk.inChain p) 0 true = some r) :
    bindAddr e others ports sk a =
      bindListen e others r.1 (setLocal sk ⟨a.addr, r.2⟩) a.addr r.2 := by
  simp only [bindAddr, bindPort, if_pos hp, hf, Option.map_some]

theorem bindAddr_waits (sk : BsdSocket) (hp : a.port = 0)
    (hf : findFreePort e ports (fun p => others p ∨ sk.inChain p) 0 true = none) :
    bindAddr e others ports sk a = (ports, sk, .waits) := by
  simp only [bindAddr, bindPort, if_pos hp, hf, Option.map_none]

/-- What a call without memory for the pool leaves is the socket as it was. -/
theorem markPriv_setLocal_eq_self (hpool : Pooled sk a.addr) (la : SockAddr) :
    markPriv (setLocal sk la) a.addr = sk ↔ sk.soState.priv = true ∧ sk.localAddr = some la := by
  constructor
  · intro h
    have hpriv : (sk.soState.priv || a.addr.isAny) = sk.soState.priv :=
      congrArg (fun sk : BsdSocket => sk.soState.priv) h
    refine ⟨?_, (congrArg (fun sk : BsdSocket => sk.localAddr) h).symm⟩
    rw [← hpriv, Bool.or_eq_true]
    exact hpool.2.2
  · rintro ⟨hpriv, hla⟩
    have hstate : ({ sk.soState with priv := sk.soState.priv || a.addr.isAny } : SoState) =
        sk.soState := by
      rw [hpriv, Bool.true_or, ← hpriv]
    simp only [markPriv, setLocal, BsdSocket.updState, hstate, ← hla]

section Accepted

variable (hacc : n.bind fd e (.addr a) = bindAddr e (n.others fd) n.ports (allocLocal (n.socks fd)) a)

include hacc

/-- With a requested port. -/
theorem bindLaw_port (herr : bindError e (n.socks fd) a = none) (hp : a.port ≠ 0) :
    BindLaw n fd e (.addr a) ↔ PortOk n fd e a := by
  rw [PortOk]
  rcases hg : grabLocalport e n.ports a.port with ⟨ports, _ | b⟩
  · rw [bindAddr_notGrabbed hp hg] at hacc
    rw [bindLaw_failed hacc, allocLocal_eq_self]
  · replace hacc : n.bind fd e (.addr a) =
        bindListen e (n.others fd) ports (setLocal (n.socks fd) a) a.addr a.port :=
      hacc.trans (bindAddr_grabbed hp hg)
    by_cases hm : Pooled (n.socks fd) a.addr → e.mallocPool = true
    · have hout := bindListen_outcome (setLocal (n.socks fd) a) (n.others fd) ports hm a.port
      rw [← hacc] at hout
      rw [bindLaw_noError hout.1]
      refine ⟨fun h => ⟨hm, fun ht => ?_⟩, fun h hok _ ht => hout.2.mp hok (h.2 ht)⟩
      by_contra hh
      exact h (hout.2.mpr hh) hp ht
    · obtain ⟨hpool, hmf⟩ := Classical.not_imp.mp hm
      rw [bindListen_noPool (setLocal (n.socks fd) a) hpool (by simpa using hmf)] at hacc
      rw [bindLaw_failed hacc]
      refine iff_of_false (fun h => bindError_ne_self herr hp ?_) fun h => hm h.1
      exact (congrArg (fun sk : BsdSocket => sk.localAddr) h).symm

/-- With no requested port. -/
theorem bindLaw_anyPort (hp : a.port = 0) : BindLaw n fd e (.addr a) ↔ AnyPortOk n fd e a := by
  rw [AnyPortOk]
  rcases hf : findFreePort e n.ports (fun p => n.others fd p ∨ (n.socks fd).inChain p) 0 true with _ | r
  · replace hacc := hacc.trans (bindAddr_waits (allocLocal (n.socks fd)) hp hf)
    rw [bindLaw_noError (by simp [hacc])]
    exact iff_of_true (fun _ h => absurd hp h) (by simp)
  · replace hacc : n.bind fd e (.addr a) =
        bindListen e (n.others fd) r.1 (setLocal (n.socks fd) ⟨a.addr, r.2⟩) a.addr r.2 :=
      hacc.trans (bindAddr_free (allocLocal (n.socks fd)) hp hf)
    by_cases hm : Pooled (n.socks fd) a.addr → e.mallocPool = true
    · have hout := bindListen_outcome (setLocal (n.socks fd) ⟨a.addr, r.2⟩) (n.others fd) r.1 hm r.2
      rw [← hacc] at hout
      rw [bindLaw_noError hout.1]
      exact iff_of_true (fun _ h => absurd hp h) fun _ _ hpool => .inl (hm hpool)
    · obtain ⟨hpool, hmf⟩ := Classical.not_imp.mp hm
      rw [bindListen_noPool (setLocal (n.socks fd) ⟨a.addr, r.2⟩) hpool (by simpa using hmf)] at hacc
      rw [bindLaw_failed hacc]
      refine (markPriv_setLocal_eq_self hpool _).trans ⟨fun h r' hr' _ => ?_, fun h => ?_⟩
      · cases hr'
        exact .inr h
      · exact (h r rfl hpool).resolve_left hmf

end Accepted

theorem dissolve_eq_self (hdgram : sk.soType = .dgram) :
    (sockChkSockaddr sk .unspec).1 = sk ↔ Dissolved sk := by
  rw [sockChkSockaddr, if_pos hdgram]
  constructor
  · intro h
    exact
      { isDisconnecting := (congrArg (fun sk : BsdSocket => sk.soState.isDisconnecting) h).symm
        cantSendMore := (congrArg (fun sk : BsdSocket => sk.soState.cantSendMore) h).symm
        rxDatalen := (congrArg (fun sk : BsdSocket => sk.udp.rxDatalen) h).symm
        remoteAddr := (congrArg (fun sk : BsdSocket => sk.remoteAddr) h).symm }
  · rintro ⟨h₁, h₂, h₃, h₄⟩
    have hstate : ({ sk.soState with isDisconnecting := false, cantSendMore := false } : SoState) =
        sk.soState := by
      generalize sk.soState = s at h₁ h₂ ⊢
      cases s
      cases h₁
      cases h₂
      rfl
    have hudp : ({ sk.udp with rxDatalen := 0 } : UdpSock) = sk.udp := by rw [← h₃]
    simp only [hstate, hudp, ← h₄]

/-- The law of one call holds exactly if the call is one of those of the condition. -/
theorem bindLaw_iff (n : Net) (fd : ℕ) (e : CallEnv) (myaddr : SockAddrArg) :
    BindLaw n fd e myaddr ↔ BindOk n fd e myaddr := by
  cases myaddr with
  | short => exact iff_of_true (bindLaw_refused rfl) trivial
  | other => exact iff_of_true (bindLaw_refused rfl) trivial
  | unspec =>
    by_cases hdgram : (n.socks fd).soType = .dgram
    · have h : n.bind fd e .unspec =
          (n.ports, (sockChkSockaddr (n.socks fd) .unspec).1, .error .eafnosupport) := by
        rw [Net.bind, bind, sockChkSockaddr, if_pos hdgram]
      rw [bindLaw_failed h, dissolve_eq_self hdgram]
      exact ⟨fun h _ => h, fun h => h hdgram⟩
    · have h : n.bind fd e .unspec = (n.ports, n.socks fd, .error .eafnosupport) := by
        rw [Net.bind, bind, sockChkSockaddr, if_neg hdgram]
      exact iff_of_true (bindLaw_refused h) fun h => absurd h hdgram
  | addr a =>
    by_cases hchk : (n.socks fd).soType = .packet ∨ a.addr.isIp6 ≠ (n.socks fd).isIp6
    · have h : n.bind fd e (.addr a) = (n.ports, n.socks fd, .error .eafnosupport) := by
        rw [Net.bind, bind, sockChkSockaddr, if_pos hchk]
      refine iff_of_true (bindLaw_refused h) fun hp h6 => ?_
      exact (hchk.elim hp fun h => h h6).elim
    · obtain ⟨hp, h6⟩ := not_or.mp hchk
      rw [not_ne_iff] at h6
      rcases herr : bindError e (n.socks fd) a with _ | err
      · have hacc := bind_accepted hp h6 herr
        have hiff : BindLaw n fd e (.addr a) ↔
            if a.port = 0 then AnyPortOk n fd e a else PortOk n fd e a := by
          split_ifs with hport
          · exact bindLaw_anyPort hacc hport
          · exact bindLaw_port hacc herr hport
        exact hiff.trans ⟨fun h _ _ _ => h, fun h => h hp h6 herr⟩
      · have h : n.bind fd e (.addr a) = (n.ports, n.socks fd, .error err) := by
          rw [Net.bind, bind, sockChkSockaddr, if_neg hchk]
          simp only [herr]
        refine iff_of_true (bindLaw_refused h) fun _ _ hnone => ?_
        rw [herr] at hnone
        cases hnone

/-! ## Runs -/

/-- **`bind` is exclusive and atomic** along a run, from any sockets, exactly if all its calls of
`bind` meet the condition. -/
theorem bind_lawful_iff (n : Net) (calls : List NetCall) :
    Always callStep BindLawful n calls ↔ Always callStep BindsOk n calls := by
  have hstep (n : Net) (call : NetCall) : BindLawful n call ↔ BindsOk n call := by
    simp only [BindLawful, BindsOk, bindLaw_iff]
  exact always_iff_of_invariant (I := fun _ => True) (fun _ _ _ _ => trivial) (fun n call _ => hstep n call)
    calls trivial

/-- Two fresh sockets, 3 and 4. -/
def twoSockets (sk : BsdSocket) : Net where
  ports := some fun _ => false
  skList := [3, 4]
  socks := fun _ => sk
  native := fun _ => false
  stuck := false

/-- Two datagram sockets are both bound to port 69; and with `MAX_PORT` 5000, `bind` of a stream socket
to port 6000 fails, but `listen` on it does not. -/
theorem bind_unlawful :
    ¬ Always callStep BindLawful (twoSockets freshDgram)
        [.bind 3 {} (.addr ⟨.ip4 0, 69⟩), .bind 4 {} (.addr ⟨.ip4 0, 69⟩)] ∧
      ¬ Always callStep BindLawful (twoSockets freshStream)
        [.bind 3 { maxPort := 5000 } (.addr ⟨.ip4 0, 6000⟩)] := by
  constructor
  · rintro ⟨-, h, -⟩
    refine (h 4 {} (.addr ⟨.ip4 0, 69⟩) rfl rfl (by decide)).exclusive (by decide) ⟨.ip4 0, 69⟩ rfl
      (by decide) ⟨⟨_, rfl, by decide⟩, 3, by decide, by decide, .inl ⟨⟨.ip4 0, 69⟩, ?_, rfl⟩⟩
    decide
  · rintro ⟨h, -⟩
    have hfails := (h 3 { maxPort := 5000 } (.addr ⟨.ip4 0, 6000⟩) rfl rfl (by decide)).unbound
      .eaddrnotavail (by decide) (by decide)
    exact absurd (hfails {} (fun _ => false) (some fun _ => false) 5) (by decide)

end Watt32.Bsd
