import Watt32.Lib.Run
import Watt32.Tcp.Server
import Watt32.Bsd.Connect

/-!
# What `connect` reports

`connect` takes a remote address for the mark that the connection is made, and keeps it when the
attempt fails.

* `Client`, `clientStep`: a socket through calls of `connect` and what happens in between.
* `ConnectLaw`: `connect` reports what is the case, and tries again after a failure.
* `ConnectOk`: the calls on which it does.
* **`connect_truthful`**: the law holds along every run of such calls.
-/

namespace Watt32.Bsd

open Machine
open Tcp (Conn Packet TcpState TcpSocket Identity handlerSegment fsmSegment)

/-! ## Runs -/

/-- A call of `connect` with all it takes from outside. -/
structure ConnectCall where
  e : CallEnv := {}
  others : Word → Bool := fun _ => false
  ports : Ports := some fun _ => false
  during : During := {}
  servaddr : SockAddrArg

/-- The call on a socket. -/
def ConnectCall.run (call : ConnectCall) (sk : BsdSocket) : Called :=
  connect call.e call.others call.during call.ports sk call.servaddr

/-- A socket, gone once the daemon has deleted it; whether the last attempt to connect has failed
(a ghost); and whether a call has not returned. -/
structure Client where
  sk : Option BsdSocket
  failed : Bool := false
  waits : Bool := false

/-- The outcome says that an attempt has failed. -/
def reportsFailure : Outcome → Bool
  | .error err =>
    err = .eintr ∨ err = .econnreset ∨ err = .econnrefused ∨ err = .ehostunreach ∨
      err = .enetunreach ∨ err = .etimedout
  | _ => false

/-- Whether the last attempt has failed, after a call. -/
def failedAfter (failed : Bool) (r : Called) : Bool :=
  if r.tried then r.outcome ≠ .ok ∧ r.outcome ≠ .error .einprogress
  else failed || reportsFailure r.outcome

/-- What the client and the network do: `connect`, an event of the network, the daemon,
`still_connecting` from `select_s` or `poll`, and FIONBIO. -/
inductive ClientOp
  | connect (call : ConnectCall)
  | net (ev : NetEvent)
  | daemon (e : Tcp.Env) (time : Dword)
  | select (e : Tcp.Env)
  | nbio (on : Bool) (sockDelay : Dword)

/-- `still_connecting` on a stream socket. -/
def BsdSocket.select (e : Tcp.Env) (sk : BsdSocket) : BsdSocket :=
  if sk.soType = .stream then
    { sk with toStreamSocket := (stillConnecting e sk.toStreamSocket).1 }
  else sk

/-- FIONBIO of `ioctlsocket`. -/
def BsdSocket.fionbio (sk : BsdSocket) (on : Bool) (sockDelay : Dword) : BsdSocket :=
  let sk := sk.updState fun s => { s with nbio := on }
  if on then
    { sk with timeout := 0, tcp := sk.tcp.upd fun s => { s with timeout := 0 } }
  else if sk.soType = .stream then { sk with timeout := sockDelay }
  else sk

/-- One step. -/
def clientStep (c : Client) (op : ClientOp) : Client :=
  if c.waits then c
  else
    match c.sk with
    | none => c
    | some sk =>
      match op with
      | .connect call =>
        let r := call.run sk
        ⟨r.sk, failedAfter c.failed r, r.outcome = .waits⟩
      | .net ev => { c with sk := some (netStep sk ev) }
      | .daemon e time => { c with sk := sockDaemon e time sk }
      | .select e => { c with sk := some (sk.select e) }
      | .nbio on sockDelay => { c with sk := some (sk.fionbio on sockDelay) }

/-! ## The law -/

/-- The peer of a control block. -/
def Tcb.peer (t : Tcb) : SockAddr :=
  ⟨if t.isIp6 then .ip6 t.his6addr else .ip4 t.conn.s.hisaddr, t.conn.s.hisport⟩

/-- The control block has an open connection. -/
def TcpLive (c : Conn) : Prop :=
  TcpState.estab.code ≤ c.s.state.code ∧ c.s.state.code < TcpState.timewt.code

/-- The UDP socket is open to the address; 0.0.0.0 stands for the broadcast address. -/
def UdpOpenTo (s : UdpSock) (a : SockAddr) : Prop :=
  s.ipType = udpProto ∧ s.threaded = true ∧ s.hisport = a.port ∧
    a.addr.isIp6 = false ∧ (a.addr = .ip4 s.hisaddr ∨ a.addr = .ip4 0 ∧ s.hisaddr = Udp.ipBcastAddr)

/-- The socket is open to the address. -/
def OpenTo (sk : BsdSocket) (a : SockAddr) : Prop :=
  match sk.soType with
  | .stream => sk.tcp.s.ipType = Tcp.tcpProto ∧ TcpLive sk.tcp ∧ sk.tcb.peer = a
  | .dgram => UdpOpenTo sk.udp a
  | _ => True

/-- The socket is connected. -/
def Connected (sk : BsdSocket) : Prop :=
  sk.soState.isConnected = true ∧ (sk.soType = .stream → TcpLive sk.tcp)

/-- `connect` refuses to try because of its arguments, for want of memory or because of a signal. -/
def refuses : Outcome → Bool
  | .error err =>
    err = .einval ∨ err = .eafnosupport ∨ err = .eopnotsupp ∨ err = .enomem ∨ err = .eintr
  | _ => false

/-- What a call must not do: return 0 on a socket that is not open to the address, fail with EISCONN
on one that is not connected, or, after an attempt that has failed, neither try again nor refuse to,
unless the socket is connected after all. -/
structure ConnectLaw (c : Client) (call : ConnectCall) : Prop where
  deleted : c.sk = none → c.failed = false
  noFault : ∀ sk, c.sk = some sk → (call.run sk).outcome ≠ .fault
  truthful : ∀ sk, c.sk = some sk → (call.run sk).outcome = .ok →
    ∃ a sk', call.servaddr = .addr a ∧ (call.run sk).sk = some sk' ∧ OpenTo sk' a
  isconn : ∀ sk, c.sk = some sk → (call.run sk).outcome = .error .eisconn →
    ∃ sk', (call.run sk).sk = some sk' ∧ Connected sk'
  retries : ∀ sk, c.sk = some sk → c.failed = true →
    (call.run sk).tried = true ∨ refuses (call.run sk).outcome = true ∨
      (call.run sk).outcome = .waits ∨ ∃ sk', (call.run sk).sk = some sk' ∧ Connected sk'

/-- The law at one step. -/
def Lawful (c : Client) (op : ClientOp) : Prop :=
  ∀ call, op = .connect call → c.waits = false → ConnectLaw c call

/-! ## The condition -/

/-- A packet that the control block takes passively comes from its peer. -/
def FromPeer (sk : BsdSocket) (ev : NetEvent) : Prop :=
  ∀ ip, ev.op = .packet ip → takesPassively sk ip = true →
    (remember ip sk.tcb).peer = sk.tcb.peer

/-- A wait in which no other host answers and the peer does not close the connection before the wait
is over. -/
def Calm : List Turn → BsdSocket → Prop
  | [], _ => True
  | t :: ts, sk =>
    established sk.tcp = false → Always netStep FromPeer (sk.updTcp Tcp.tickDead) t.events ∧
      (established (t.tick sk).tcp = true → (t.tick sk).tcp.s.state.code < TcpState.timewt.code) ∧
      Calm ts (t.tick sk)

/-- The wait of this attempt is calm. -/
def CalmAttempt (call : ConnectCall) (sk : BsdSocket) (a : SockAddr) : Prop :=
  ∀ ports la ports' sk', autoBind call.e call.others call.ports sk = some (ports, la) →
    sockTcpOpen call.e call.others ports { sk with remoteAddr := some a, localAddr := some la } a
      la.port = some (ports', sk', .ok ()) →
    Calm call.during.turns (connecting sk')

/-- A call on a stream socket, with an address of its family. -/
structure StreamOk (failed : Bool) (sk : BsdSocket) (call : ConnectCall) (a : SockAddr) : Prop where
  live : sk.soState.isConnected = true → TcpLive sk.tcp
  pending : ∀ ra, sk.remoteAddr = some ra → sk.soState.isConnected = false →
    sk.soAcceptconn = false → a.addr.isMulticast = false →
    sk.soState.isConnecting = true ∧ ∃ sk', call.during.tcpTick sk = some sk' ∧
      (failed = true → sk'.tcp.s.state = .estab)
  calm : sk.remoteAddr = none → sk.soState.isConnected = false → sk.soAcceptconn = false →
    a.addr.isMulticast = false → CalmAttempt call sk a

/-- `_udp_open` reaches the address. -/
def udpReachable (e : CallEnv) (ip : Dword) : Bool :=
  ¬ (ip ≠ 0 ∧ Udp.ip4IsMultihomeAddr e.host ip) ∧ e.ethIsInit ∧
    (ip = 0 ∨ ip = Udp.ipBcastAddr ∨ ~~~ip &&& ~~~e.host.sinMask = 0 ∨ ip >>> 28 = 0xe ∨ e.arpResolve)

/-- A call on a datagram socket: for the address it has, the last attempt has not failed and no ICMP
error has closed the socket; for another one, the attempt fails or the socket is still in the list, or
not yet. -/
def DgramOk (failed : Bool) (sk : BsdSocket) (call : ConnectCall) (a : SockAddr) : Prop :=
  if sk.remoteAddr = some a then failed = false ∧ sk.udp.threaded = true
  else ∀ ip, a.addr = .ip4 ip → udpReachable call.e ip = true →
    sk.udp.rxData = true → sk.udp.threaded = true

/-- A call on which `connect` keeps the law. -/
def ConnectOk (c : Client) (call : ConnectCall) : Prop :=
  (c.sk = none → c.failed = false) ∧
  ∀ sk a, c.sk = some sk → call.servaddr = .addr a → a.addr.isIp6 = sk.isIp6 →
    (sk.soType = .stream → StreamOk c.failed sk call a) ∧
    (sk.soType = .dgram → DgramOk c.failed sk call a)

/-- The condition at one step. -/
def StepOk (c : Client) (op : ClientOp) : Prop :=
  ∀ call, op = .connect call → c.waits = false → ConnectOk c call

/-- A socket as `socket` and perhaps `bind` leave it. -/
structure Unconnected (sk : BsdSocket) : Prop where
  soType : sk.soType = .stream ∨ sk.soType = .dgram
  remoteAddr : sk.remoteAddr = none
  soError : sk.soError = none
  isConnected : sk.soState.isConnected = false
  isDisconnecting : sk.soState.isDisconnecting = false
  cantSendMore : sk.soState.cantSendMore = false

variable {sk sk' : BsdSocket} {ev : NetEvent} {a : SockAddr} {call : ConnectCall} {c : Client}

/-! ## What stays -/

/-- What the network and the daemon leave of a socket. -/
structure Follows (sk sk' : BsdSocket) : Prop where
  soType : sk'.soType = sk.soType
  remoteAddr : sk'.remoteAddr = sk.remoteAddr
  soError : sk.soError ≠ some .eisconn → sk'.soError ≠ some .eisconn
  flags : sk.soType = .dgram → sk'.soState.isDisconnecting = sk.soState.isDisconnecting ∧
    sk'.soState.cantSendMore = sk.soState.cantSendMore
  udp : sk'.udp.threaded = true → sk'.udp = sk.udp

theorem Follows.refl (sk : BsdSocket) : Follows sk sk := ⟨rfl, rfl, id, fun _ => ⟨rfl, rfl⟩, fun _ => rfl⟩

theorem Follows.trans {sk₁ sk₂ sk₃ : BsdSocket} (h : Follows sk₁ sk₂) (h' : Follows sk₂ sk₃) :
    Follows sk₁ sk₃ where
  soType := h'.soType.trans h.soType
  remoteAddr := h'.remoteAddr.trans h.remoteAddr
  soError := h'.soError ∘ h.soError
  flags hd := by
    have h₂ := h'.flags (h.soType.trans hd)
    exact ⟨h₂.1.trans (h.flags hd).1, h₂.2.trans (h.flags hd).2⟩
  udp ht := by
    have h₂ := h'.udp ht
    exact h₂.trans (h.udp (h₂ ▸ ht))

theorem follows_updTcp (f : Conn → Conn) : Follows sk (sk.updTcp f) :=
  ⟨rfl, rfl, id, fun _ => ⟨rfl, rfl⟩, fun _ => rfl⟩

theorem rstCallback_follows (time : Dword) (hs : sk.soType = .stream) :
    Follows sk (rstCallback time sk) := by
  unfold rstCallback
  dsimp only
  split_ifs <;> exact ⟨rfl, rfl, fun _ => by simp, fun hd => by simp [hs] at hd, fun _ => rfl⟩

theorem sockReset_follows (time : Dword) (hs : sk.soType = .stream) :
    Follows sk (sockReset time sk) := by
  unfold sockReset
  dsimp only
  split_ifs
  · exact follows_updTcp _
  · exact (follows_updTcp _).trans (rstCallback_follows time hs)

theorem sockInput_follows (ip : Packet) (hs : sk.soType = .stream) :
    Follows sk (sockInput ev ip sk) := by
  unfold sockInput
  dsimp only
  split_ifs
  · exact (follows_updTcp _).trans (sockReset_follows ev.time hs)
  · exact (follows_updTcp _).trans (follows_updTcp _)

theorem IcmpError.errno_ne (err : IcmpError) : some err.errno ≠ some Errno.eisconn := by
  unfold IcmpError.errno
  split
  · split_ifs <;> decide
  · decide
  · decide

theorem setTcb_follows (t : Tcb) : Follows sk (sk.setTcb t) :=
  ⟨rfl, rfl, id, fun _ => ⟨rfl, rfl⟩, fun _ => rfl⟩

theorem sockPacket_follows (ip : Packet) (hs : sk.soType = .stream) :
    Follows sk (sockPacket ev ip sk) := by
  unfold sockPacket
  split_ifs
  · exact Follows.refl sk
  · exact sockInput_follows ip hs
  · have hset : (sk.setTcb (remember ip sk.tcb)).soType = .stream := hs
    exact (setTcb_follows _).trans (sockInput_follows ip hset)
  · exact sockReset_follows ev.time hs
  · exact Follows.refl sk

theorem sockRetransmit_follows (hs : sk.soType = .stream) : Follows sk (sockRetransmit ev sk) := by
  unfold sockRetransmit
  dsimp only
  split_ifs
  · refine Follows.trans ?_ (follows_updTcp _)
    exact ⟨rfl, rfl, fun _ => by simp, fun hd => by simp [hs] at hd, fun _ => rfl⟩
  · exact follows_updTcp _

theorem sockTcpCancel_follows (e : Tcp.Env) (err : IcmpError) (hs : sk.soType = .stream) :
    Follows sk (sockTcpCancel e sk err) := by
  unfold sockTcpCancel icmpCallback
  dsimp only
  split_ifs
  · exact Follows.refl sk
  · refine Follows.trans (follows_updTcp (tcpCancel e · err)) ?_
    exact ⟨rfl, rfl, fun _ => err.errno_ne, fun hd => by simp [BsdSocket.updTcp, hs] at hd, fun _ => rfl⟩
  · exact follows_updTcp _

theorem sockUdpCancel_follows (err : IcmpError) : Follows sk (sockUdpCancel sk err) := by
  unfold sockUdpCancel icmpCallback
  dsimp only
  split_ifs
  · exact Follows.refl sk
  · exact ⟨rfl, rfl, id, fun _ => ⟨rfl, rfl⟩, fun ht => by simp at ht⟩
  · exact ⟨rfl, rfl, fun _ => err.errno_ne, fun _ => ⟨rfl, rfl⟩, fun _ => rfl⟩
  · exact Follows.refl sk

/-- **An event of the network** changes the control block, the error and the flags, or takes the UDP
socket out of the list. -/
theorem netStep_follows (sk : BsdSocket) (ev : NetEvent) : Follows sk (netStep sk ev) := by
  unfold netStep
  split
  · exact sockPacket_follows _ (by assumption)
  · exact sockRetransmit_follows (by assumption)
  · exact sockTcpCancel_follows _ _ (by assumption)
  · exact sockUdpCancel_follows _
  · exact Follows.refl sk

theorem netSteps_follow (evs : List NetEvent) : ∀ sk, Follows sk (evs.foldl netStep sk) := by
  induction evs with
  | nil => exact Follows.refl
  | cons ev evs ih => exact fun sk => (netStep_follows sk ev).trans (ih _)

/-- The daemon leaves an open connection alone. -/
theorem sockDaemon_live (e : Tcp.Env) (time : Dword) (hs : sk.soType = .stream)
    (h : sk.tcp.s.state.code < TcpState.timewt.code) : sockDaemon e time sk = some sk := by
  unfold sockDaemon tcpSockDaemon
  split_ifs
  · rfl
  · simp only [hs, if_pos h]

theorem sockDaemon_follows (e : Tcp.Env) (time : Dword) (h : sockDaemon e time sk = some sk') :
    Follows sk sk' := by
  unfold sockDaemon at h
  split_ifs at h with haddr
  · cases h
    exact Follows.refl sk
  rcases hs : sk.soType with _ | _ | _ | _ <;> rw [hs] at h <;> dsimp only at h
  · unfold tcpSockDaemon at h
    dsimp only at h
    split_ifs at h <;> cases h <;>
      exact ⟨rfl, rfl, id, fun hd => by simp [hs] at hd, fun _ => rfl⟩
  · unfold udpSockDaemon at h
    split_ifs at h
    cases h
    exact Follows.refl sk
  · cases h
    exact Follows.refl sk
  · cases h
    exact Follows.refl sk

/-! ## The peer of an attempt -/

/-- The control block keeps its peer, and is no server's. -/
structure SamePeer (sk sk' : BsdSocket) : Prop where
  peer : sk'.tcb.peer = sk.tcb.peer
  isServer : sk'.tcp.s.locflags.isServer = sk.tcp.s.locflags.isServer

theorem SamePeer.refl (sk : BsdSocket) : SamePeer sk sk := ⟨rfl, rfl⟩

theorem SamePeer.trans {sk₁ sk₂ sk₃ : BsdSocket} (h : SamePeer sk₁ sk₂) (h' : SamePeer sk₂ sk₃) :
    SamePeer sk₁ sk₃ :=
  ⟨h'.peer.trans h.peer, h'.isServer.trans h.isServer⟩

/-- What keeps the identity keeps the peer. -/
theorem samePeer_of_identity (h : sk'.tcp.s.identity = sk.tcp.s.identity)
    (h6 : sk'.tcpIsIp6 = sk.tcpIsIp6) (hhis : sk'.his6addr = sk.his6addr) : SamePeer sk sk' := by
  refine ⟨?_, congrArg Identity.isServer h⟩
  have haddr : sk'.tcp.s.hisaddr = sk.tcp.s.hisaddr := congrArg Identity.hisaddr h
  have hport : sk'.tcp.s.hisport = sk.tcp.s.hisport := congrArg Identity.hisport h
  unfold Tcb.peer BsdSocket.tcb
  dsimp only
  rw [haddr, hport, h6, hhis]

theorem samePeer_updTcp {f : Conn → Conn} (h : (f sk.tcp).s.identity = sk.tcp.s.identity) :
    SamePeer sk (sk.updTcp f) := samePeer_of_identity h rfl rfl

theorem tcpSockreset_identity {c : Conn} (h : c.s.locflags.isServer = false) :
    (Tcp.tcpSockreset c).s.identity = c.s.identity := by
  simp only [Tcp.tcpSockreset, Conn.upd_s, h, Bool.false_eq_true, if_false, Tcp.tcpUnthread_identity]
  rfl

theorem beforeFsm_identity (e : Tcp.Env) (c : Conn) (seg : Tcp.InSegment) :
    (Tcp.beforeFsm e c seg).s.identity = c.s.identity := rfl

theorem rstCallback_samePeer (time : Dword) : SamePeer sk (rstCallback time sk) := by
  unfold rstCallback
  dsimp only
  split_ifs <;> exact ⟨rfl, rfl⟩

theorem sockReset_samePeer (time : Dword) (h : sk.tcp.s.locflags.isServer = false) :
    SamePeer sk (sockReset time sk) := by
  unfold sockReset
  simp only [h, Bool.false_eq_true, if_false]
  exact (samePeer_updTcp (tcpSockreset_identity h)).trans (rstCallback_samePeer time)

theorem sockInput_samePeer (ip : Packet) (h : sk.tcp.s.locflags.isServer = false) :
    SamePeer sk (sockInput ev ip sk) := by
  unfold sockInput
  dsimp only
  have hidle : SamePeer sk (sk.updTcp fun c => c.upd (Tcp.restartIdle ev.e.toEnv)) :=
    samePeer_updTcp (Tcp.restartIdle_identity ev.e.toEnv sk.tcp.s)
  split_ifs
  · exact hidle.trans (sockReset_samePeer ev.time (hidle.isServer.trans h))
  · refine hidle.trans (samePeer_updTcp ?_)
    rw [Tcp.afterFsm_identity, Tcp.tcpFsm_identity, beforeFsm_identity]

theorem sockRetransmit_samePeer : SamePeer sk (sockRetransmit ev sk) := by
  have hretrans : ∀ sk, SamePeer sk (sk.updTcp (Tcp.tcpRetransmitter ev.e.toEnv)) := fun sk =>
    samePeer_updTcp (Tcp.tcpRetransmitter_identity ev.e.toEnv sk.tcp)
  unfold sockRetransmit
  dsimp only
  split_ifs
  · refine SamePeer.trans ?_ (hretrans _)
    exact ⟨rfl, rfl⟩
  · exact hretrans sk

theorem tcpCancel_identity (e : Tcp.Env) (c : Conn) (err : IcmpError) :
    (tcpCancel e c err).s.identity = c.s.identity := by
  have hstress : (tcpStressTest c.s).1.identity = c.s.identity := by
    unfold tcpStressTest
    dsimp only
    split_ifs <;> rfl
  have hstressed : (if (tcpStressTest c.s).2 then c.upd fun _ => quenchIt (tcpStressTest c.s).1
      else Tcp.tcpAbort e (c.upd fun _ => (tcpStressTest c.s).1)).s.identity = c.s.identity := by
    split_ifs
    · exact hstress
    · rw [Tcp.tcpAbort_identity]
      exact hstress
  cases err with
  | timxceed => exact hstressed
  | unreach code => exact hstressed
  | needfrag maxSeg => rfl
  | sourcequench => rfl
  | paramprob => exact Tcp.tcpAbort_identity e c

theorem sockTcpCancel_samePeer (e : Tcp.Env) (err : IcmpError) :
    SamePeer sk (sockTcpCancel e sk err) := by
  have hcancel : SamePeer sk (sk.updTcp (tcpCancel e · err)) :=
    samePeer_updTcp (tcpCancel_identity e sk.tcp err)
  unfold sockTcpCancel
  dsimp only
  split_ifs
  · exact SamePeer.refl sk
  · exact hcancel.trans ⟨rfl, rfl⟩
  · exact hcancel

theorem remember_isServer (ip : Packet) (t : Tcb) :
    (remember ip t).conn.s.locflags.isServer = t.conn.s.locflags.isServer := by
  unfold remember
  dsimp only
  split_ifs <;> rfl

/-- **An event from the peer leaves the peer alone.** -/
theorem netStep_samePeer (h : sk.tcp.s.locflags.isServer = false) (hfrom : FromPeer sk ev) :
    SamePeer sk (netStep sk ev) := by
  unfold netStep
  split
  · next ip _ hop =>
    unfold sockPacket
    split_ifs with _ _ hpassive
    · exact SamePeer.refl sk
    · exact sockInput_samePeer ip h
    · have hset : SamePeer sk (sk.setTcb (remember ip sk.tcb)) :=
        ⟨hfrom ip hop hpassive, remember_isServer ip sk.tcb⟩
      exact hset.trans (sockInput_samePeer ip (hset.isServer.trans h))
    · exact sockReset_samePeer ev.time h
    · exact SamePeer.refl sk
  · exact sockRetransmit_samePeer
  · exact sockTcpCancel_samePeer _ _
  · unfold sockUdpCancel icmpCallback
    dsimp only
    split_ifs <;> exact ⟨rfl, rfl⟩
  · exact SamePeer.refl sk

theorem netSteps_samePeer : ∀ (evs : List NetEvent) (sk : BsdSocket),
    sk.tcp.s.locflags.isServer = false → Always netStep FromPeer sk evs →
      SamePeer sk (evs.foldl netStep sk)
  | [], sk, _, _ => SamePeer.refl sk
  | ev :: evs, sk, h, ⟨hfrom, hall⟩ => by
    have hev := netStep_samePeer h hfrom
    exact hev.trans (netSteps_samePeer evs _ (hev.isServer.trans h) hall)

/-! ## The wait -/

theorem tickDead_identity (c : Conn) : (Tcp.tickDead c).s.identity = c.s.identity := by
  unfold Tcp.tickDead
  split_ifs
  · exact (show _ = (Tcp.tcpUnthread true c).s.identity from rfl).trans (Tcp.tcpUnthread_identity c true)
  · rfl

/-- An open connection that the wait may leave. -/
def OpenEnd (c : Conn) : Prop :=
  established c = true → c.s.state.code < TcpState.timewt.code

theorem tick_follows (t : Turn) (sk : BsdSocket) : Follows sk (t.tick sk) :=
  (follows_updTcp _).trans (netSteps_follow _ _)

theorem ipDelay0_follows {usertimer : Dword} {b : Bool} : ∀ {ts : List Turn} {sk sk' : BsdSocket},
    ipDelay0 usertimer ts sk = some (sk', b) → Follows sk sk'
  | [], sk, sk', h => by
    unfold ipDelay0 at h
    split_ifs at h
    cases h
    exact Follows.refl sk
  | t :: ts, sk, sk', h => by
    unfold ipDelay0 at h
    dsimp only at h
    split_ifs at h
    · cases h
      exact Follows.refl sk
    · cases h
      exact tick_follows t sk
    · cases h
      exact (tick_follows t sk).trans (follows_updTcp _)
    · cases h
      exact tick_follows t sk
    · exact (tick_follows t sk).trans (ipDelay0_follows h)

/-- **A calm wait that ends well** leaves an open connection to the peer it began with. -/
theorem ipDelay0_established {usertimer : Dword} : ∀ {ts : List Turn} {sk sk' : BsdSocket},
    ipDelay0 usertimer ts sk = some (sk', true) → sk.tcp.s.locflags.isServer = false →
    Calm ts sk → OpenEnd sk.tcp →
    SamePeer sk sk' ∧ sk'.tcp.s.ipType = Tcp.tcpProto ∧ TcpLive sk'.tcp
  | ts, sk, sk', h, hserver, hcalm, hend => by
    by_cases hest : established sk.tcp = true
    · have hsk : sk' = sk := by
        cases ts <;> simp only [ipDelay0, if_pos hest, Option.some.injEq, Prod.mk.injEq] at h <;>
          exact h.1.symm
      have hest' := hest
      unfold established at hest'
      rw [decide_eq_true_iff] at hest'
      rw [hsk]
      exact ⟨SamePeer.refl sk, hest'.1, hest'.2, hend hest⟩
    · cases ts with
      | nil => simp [ipDelay0, hest] at h
      | cons t ts =>
        rw [Bool.not_eq_true] at hest
        obtain ⟨hfrom, hlive, hrest⟩ := hcalm hest
        unfold ipDelay0 at h
        dsimp only at h
        rw [hest, if_neg Bool.false_ne_true] at h
        split_ifs at h
        · simp at h
        · simp at h
        · simp at h
        · have hdead : SamePeer sk (sk.updTcp Tcp.tickDead) := samePeer_updTcp (tickDead_identity _)
          have hpeer : SamePeer sk (t.tick sk) :=
            hdead.trans (netSteps_samePeer _ _ (hdead.isServer.trans hserver) hfrom)
          obtain ⟨h₁, h₂⟩ := ipDelay0_established h (hpeer.isServer.trans hserver) hrest hlive
          exact ⟨hpeer.trans h₁, h₂⟩

/-! ## Opening -/

theorem sockSetRcvBuf_frame (e : Env) (s : TcpSocket) :
    (sockSetRcvBuf e s).identity = s.identity ∧ (sockSetRcvBuf e s).state = s.state := by
  unfold sockSetRcvBuf
  dsimp only
  split <;> exact ⟨rfl, rfl⟩

theorem openedTcb_frame (e : CallEnv) (lport : Word) (ip : Dword) (rport : Word) :
    (openedTcb e lport ip rport).s.identity = ⟨false, ip, rport⟩ ∧
      (openedTcb e lport ip rport).s.state = .resolve :=
  ⟨(sockSetRcvBuf_frame _ _).1, (sockSetRcvBuf_frame _ _).2⟩

theorem openedTcb6_frame (e : CallEnv) (lport rport : Word) :
    (openedTcb6 e lport rport).s.identity = ⟨false, 0, rport⟩ ∧
      (openedTcb6 e lport rport).s.state = .synsent := by
  unfold openedTcb6
  dsimp only [Conn.updRtt, Conn.upd]
  constructor
  · exact (show _ = (Tcp.tcpSend _ _).1.s.identity from rfl).trans
      ((Tcp.tcpSend_identity _ _).trans (sockSetRcvBuf_frame _ _).1)
  · exact Tcp.tcpSend_state _ _

theorem openEnd_of_state {c : Conn} (h : c.s.state.code < TcpState.estab.code) : OpenEnd c := by
  intro hest
  unfold established at hest
  rw [decide_eq_true_iff] at hest
  omega

/-- **A successful open** gives a control block for the address that is not established yet. -/
theorem sockTcpOpen_ok {e : CallEnv} {others : Word → Bool} {ports ports' : Ports} {lport : Word}
    (h : sockTcpOpen e others ports sk a lport = some (ports', sk', .ok ())) :
    sk'.tcb.peer = a ∧ sk'.tcp.s.locflags.isServer = false ∧ OpenEnd sk'.tcp ∧ Follows sk sk' := by
  obtain ⟨addr, port⟩ := a
  unfold sockTcpOpen at h
  rcases addr with ip | dst <;> dsimp only at h <;> split at h
  · cases h
  · rw [Option.map_eq_some_iff] at h
    obtain ⟨⟨ports₁, p⟩, -, heq⟩ := h
    cases heq
    obtain ⟨hid, hstate⟩ := openedTcb_frame e p ip port
    refine ⟨?_, congrArg Identity.isServer hid, openEnd_of_state ?_, rfl, rfl, id, fun _ => ⟨rfl, rfl⟩,
      fun _ => rfl⟩
    · exact congrArg₂ SockAddr.mk (congrArg IpAddr.ip4 (congrArg Identity.hisaddr hid))
        (congrArg Identity.hisport hid)
    · exact hstate.symm ▸ (by decide)
  · cases h
  · rw [Option.map_eq_some_iff] at h
    obtain ⟨⟨ports₁, p⟩, -, heq⟩ := h
    cases heq
    obtain ⟨hid, hstate⟩ := openedTcb6_frame e p port
    refine ⟨?_, congrArg Identity.isServer hid, openEnd_of_state ?_, rfl, rfl, id, fun _ => ⟨rfl, rfl⟩,
      fun _ => rfl⟩
    · exact congrArg (SockAddr.mk (.ip6 dst)) (congrArg Identity.hisport hid)
    · exact hstate.symm ▸ (by decide)

theorem sockTcpOpen_follows {e : CallEnv} {others : Word → Bool} {ports : Ports} {lport : Word}
    {r : Ports × BsdSocket × Except Errno Unit}
    (h : sockTcpOpen e others ports sk a lport = some r) :
    Follows sk r.2.1 ∧ r.2.2 ≠ .error .eisconn := by
  have hnew : ∀ c b my his, Follows sk (sk.newTcb c b my his) := fun _ _ _ _ =>
    ⟨rfl, rfl, id, fun _ => ⟨rfl, rfl⟩, fun _ => rfl⟩
  obtain ⟨addr, port⟩ := a
  unfold sockTcpOpen at h
  rcases addr with ip | dst <;> dsimp only at h <;> split at h
  · next err herr =>
    cases h
    refine ⟨hnew _ _ _ _, ?_⟩
    unfold tcpOpenError at herr
    split_ifs at herr <;> cases herr <;> simp
  · rw [Option.map_eq_some_iff] at h
    obtain ⟨-, -, rfl⟩ := h
    exact ⟨hnew _ _ _ _, by simp⟩
  · next err herr =>
    cases h
    refine ⟨hnew _ _ _ _, ?_⟩
    unfold tcp6OpenError at herr
    split_ifs at herr <;> cases herr <;> simp
  · rw [Option.map_eq_some_iff] at h
    obtain ⟨-, -, rfl⟩ := h
    exact ⟨hnew _ _ _ _, by simp⟩

theorem connectResult_spec (d : During) (timeout : Dword) (sk : BsdSocket) (status : Bool)
    (herr : sk.soError ≠ some .eisconn) :
    Follows sk (connectResult d timeout sk status).1 ∧
      (connectResult d timeout sk status).2 ≠ .error .eisconn ∧
      (connectResult d timeout sk status).2 ≠ .fault ∧
      ((connectResult d timeout sk status).2 = .ok → status = true ∧
        (connectResult d timeout sk status).1.tcb = sk.tcb) := by
  unfold connectResult
  rcases hsoerr : sk.soError with _ | err <;> dsimp only
  · have hstate : ∀ f : SoState → SoState, (∀ s, (f s).isDisconnecting = s.isDisconnecting ∧
        (f s).cantSendMore = s.cantSendMore) → Follows sk (sk.updState f) := fun f hf =>
      ⟨rfl, rfl, id, fun _ => hf _, fun _ => rfl⟩
    cases status with
    | false =>
      simp only [Bool.false_eq_true, if_false]
      refine ⟨hstate _ fun _ => ⟨rfl, rfl⟩, ?_⟩
      split_ifs <;> simp
    | true =>
      simp only [if_true]
      exact ⟨hstate _ fun _ => ⟨rfl, rfl⟩, by simp, by simp, fun _ => ⟨trivial, rfl⟩⟩
  · rw [hsoerr] at herr
    refine ⟨⟨rfl, rfl, fun _ => by simp, fun _ => ⟨rfl, rfl⟩, fun _ => rfl⟩, fun h => ?_, by simp,
      by simp⟩
    rw [Outcome.error.injEq] at h
    exact herr (congrArg some h)

/-- **`tcp_connect`**: what it leaves, and that it reports a success only for an open connection. -/
theorem tcpConnect_spec (e : CallEnv) (d : During) (sk : BsdSocket) :
    Follows sk (tcpConnect e d sk).1 ∧ (tcpConnect e d sk).2 ≠ .error .eisconn ∧
      (tcpConnect e d sk).2 ≠ .fault ∧
      ((tcpConnect e d sk).2 = .ok → sk.tcp.s.locflags.isServer = false →
        Calm d.turns (connecting sk) → OpenEnd sk.tcp →
        (tcpConnect e d sk).1.tcb.peer = sk.tcb.peer ∧
          (tcpConnect e d sk).1.tcp.s.ipType = Tcp.tcpProto ∧ TcpLive (tcpConnect e d sk).1.tcp) := by
  have hstart : Follows sk (connecting sk) :=
    ⟨rfl, rfl, fun _ => by simp [connecting], fun _ => ⟨rfl, rfl⟩, fun _ => rfl⟩
  unfold tcpConnect
  dsimp only
  by_cases hnbio : (connecting sk).soState.nbio = true
  · rw [if_pos hnbio]
    exact ⟨hstart.trans ⟨rfl, rfl, id, fun _ => ⟨rfl, rfl⟩, fun _ => rfl⟩, by simp⟩
  rw [if_neg hnbio]
  generalize hw : ipDelay0 (if (connecting sk).timeout = 0 then 0
    else Tcp.setTimeout e.toEnv (1000 * (connecting sk).timeout)) d.turns (connecting sk) = w
  rcases w with _ | ⟨sk', status⟩ <;> dsimp only
  · exact ⟨hstart, by simp⟩
  have hend := ipDelay0_follows hw
  obtain ⟨hfollows, hisconn, hfault, hok⟩ := connectResult_spec d
    (Tcp.setTimeout e.toEnv (1000 * (connecting sk).timeout)) sk' status
    (hend.soError (by simp [connecting]))
  refine ⟨(hstart.trans hend).trans hfollows, hisconn, hfault, fun h hserver hcalm hopen => ?_⟩
  obtain ⟨rfl, htcb⟩ := hok h
  obtain ⟨hpeer, hip, hlive⟩ := ipDelay0_established hw hserver hcalm hopen
  have hconn : (connectResult d (Tcp.setTimeout e.toEnv (1000 * (connecting sk).timeout)) sk'
      true).1.tcp = sk'.tcp := congrArg Tcb.conn htcb
  rw [htcb, hconn]
  exact ⟨hpeer.peer, hip, hlive⟩

/-! ## The calls -/

/-- What the machine keeps of a socket: its type, no EISCONN in `so_error`, and of a datagram socket
that it is not shut and open to its remote address, unless the last attempt has failed or it is no
longer in the list. -/
structure SockInv (failed : Bool) (sk : BsdSocket) : Prop where
  soType : sk.soType = .stream ∨ sk.soType = .dgram
  soError : sk.soError ≠ some .eisconn
  flags : sk.soType = .dgram →
    sk.soState.isDisconnecting = false ∧ sk.soState.cantSendMore = false
  isOpen : sk.soType = .dgram → failed = false → ∀ ra, sk.remoteAddr = some ra →
    sk.udp.threaded = true → UdpOpenTo sk.udp ra

theorem SockInv.follows {failed : Bool} (h : SockInv failed sk) (hf : Follows sk sk') :
    SockInv failed sk' where
  soType := by rw [hf.soType]; exact h.soType
  soError := hf.soError h.soError
  flags hd := by
    have hd' : sk.soType = .dgram := hf.soType ▸ hd
    exact ⟨(hf.flags hd').1.trans (h.flags hd').1, (hf.flags hd').2.trans (h.flags hd').2⟩
  isOpen hd hfail ra hra ht := by
    have hudp := hf.udp ht
    rw [hudp] at ht ⊢
    exact h.isOpen (hf.soType ▸ hd) hfail ra (hf.remoteAddr ▸ hra) ht

/-- A stream socket has nothing but its type and its error to keep. -/
theorem sockInv_stream {failed : Bool} (hs : sk.soType = .stream) (herr : sk.soError ≠ some .eisconn) :
    SockInv failed sk :=
  ⟨.inl hs, herr, fun hd => by simp [hs] at hd, fun hd => by simp [hs] at hd⟩

/-- A call keeps the law and the invariant. -/
structure Sound (failed : Bool) (servaddr : SockAddrArg) (r : Called) : Prop where
  noFault : r.outcome ≠ .fault
  truthful : r.outcome = .ok → ∃ a sk', servaddr = .addr a ∧ r.sk = some sk' ∧ OpenTo sk' a
  isconn : r.outcome = .error .eisconn → ∃ sk', r.sk = some sk' ∧ Connected sk'
  retries : failed = true → r.tried = true ∨ refuses r.outcome = true ∨ r.outcome = .waits ∨
    ∃ sk', r.sk = some sk' ∧ Connected sk'
  inv : ∀ sk', r.sk = some sk' → r.outcome ≠ .waits → SockInv (failedAfter failed r) sk'

theorem tcpTick_follows {d : During} (h : d.tcpTick sk = some sk') : Follows sk sk' := by
  unfold During.tcpTick at h
  split_ifs at h
  · exact (netSteps_follow d.tick sk).trans (sockDaemon_follows _ _ h)
  · cases h
    exact netSteps_follow d.tick sk

/-- What `_sock_pending_connect` finds. -/
theorem sockPendingConnect_spec (e : Tcp.Env) (sk : StreamSocket) (herr : sk.soError ≠ some .eisconn) :
    (sockPendingConnect e sk).1.soError ≠ some .eisconn ∧
    (sk.tcp.s.state = .estab → (sockPendingConnect e sk).2 = false ∧
      (sockPendingConnect e sk).1.soState.isConnected = true ∧ (sockPendingConnect e sk).1.tcp = sk.tcp) ∧
    (sk.tcp.s.state ≠ .estab → (sockPendingConnect e sk).2 = true ∨
      (sockPendingConnect e sk).1.soError ≠ none) := by
  unfold sockPendingConnect
  split_ifs with hest hnone htime hclosed
  · exact ⟨herr, fun _ => ⟨rfl, rfl, rfl⟩, fun h => absurd hest h⟩
  · exact ⟨herr, fun h => absurd h hest, fun _ => .inr hnone⟩
  · exact ⟨by simp, fun h => absurd h hest, fun _ => .inr (by simp)⟩
  · exact ⟨by simp, fun h => absurd h hest, fun _ => .inr (by simp)⟩
  · exact ⟨herr, fun h => absurd h hest, fun _ => .inl rfl⟩

theorem tcpLive_of_estab {c : Conn} (h : c.s.state = .estab) : TcpLive c := by
  unfold TcpLive
  rw [h]
  decide

/-- **A further call on a pending connection** is sound, if it is still there and one that is pending
after a failure comes off. -/
theorem connectAgain_sound {failed : Bool} (d : During) (ports : Ports) (servaddr : SockAddrArg)
    (hs : sk.soType = .stream) (herr : sk.soError ≠ some .eisconn)
    (hpending : sk.soState.isConnecting = true)
    (htick : ∃ sk', d.tcpTick sk = some sk' ∧ (failed = true → sk'.tcp.s.state = .estab)) :
    Sound failed servaddr (connectAgain d ports sk) := by
  obtain ⟨sk₁, htick, hfailed⟩ := htick
  have hfollows := tcpTick_follows htick
  have hs₁ : sk₁.soType = .stream := hfollows.soType.trans hs
  obtain ⟨hne, hest, hnot⟩ :=
    sockPendingConnect_spec d.last sk₁.toStreamSocket (hfollows.soError herr)
  unfold connectAgain
  rw [if_pos hpending, htick]
  dsimp only
  generalize hr : sockPendingConnect d.last sk₁.toStreamSocket = r at hne hest hnot
  obtain ⟨st, still⟩ := r
  have hconn : sk₁.tcp.s.state = .estab → ∀ sk₂ : BsdSocket, sk₂.soState = st.soState →
      sk₂.tcp = st.tcp → Connected sk₂ := by
    intro h sk₂ hstate htcp
    obtain ⟨-, hc, ht⟩ := hest h
    refine ⟨hstate ▸ hc, fun _ => ?_⟩
    rw [htcp, ht]
    exact tcpLive_of_estab h
  rcases still with _ | _ <;> dsimp only
  · rw [if_neg Bool.false_ne_true]
    rcases hsoerr : st.soError with _ | err <;> dsimp only
    · have hstate : sk₁.tcp.s.state = .estab := by
        by_contra h
        rcases hnot h with h | h
        · cases h
        · exact h hsoerr
      have hc := hconn hstate { sk₁ with toStreamSocket := st } rfl rfl
      refine ⟨by simp, by simp, fun _ => ⟨_, rfl, hc⟩, fun _ => .inr (.inr (.inr ⟨_, rfl, hc⟩)), ?_⟩
      intro sk' h _
      cases h
      exact sockInv_stream hs₁ hne
    · rw [hsoerr] at hne
      refine ⟨by simp, by simp, fun h => ?_, fun h => ?_, ?_⟩
      · rw [Outcome.error.injEq] at h
        exact absurd (congrArg some h) hne
      · exact .inr (.inr (.inr ⟨_, rfl, hconn (hfailed h) _ rfl rfl⟩))
      · intro sk' h _
        cases h
        exact sockInv_stream hs₁ (by simp)
  · rw [if_pos rfl]
    refine ⟨by simp, by simp, by simp, fun h => ?_, ?_⟩
    · exact absurd (hest (hfailed h)).1 (by simp)
    · intro sk' h _
      cases h
      exact sockInv_stream hs₁ hne

/-- The switch on a stream socket: a success means an open connection to the address. -/
theorem connectType_stream {e : CallEnv} {others : Word → Bool} {d : During} {ports : Ports}
    {lport : Word} (hs : sk.soType = .stream)
    (hcalm : ∀ ports' sk', sockTcpOpen e others ports sk a lport = some (ports', sk', .ok ()) →
      Calm d.turns (connecting sk')) :
    let r := (connectType e others d ports sk a lport).2
    Follows sk r.1 ∧ r.2 ≠ .error .eisconn ∧ r.2 ≠ .fault ∧ (r.2 = .ok →
      r.1.tcb.peer = a ∧ r.1.tcp.s.ipType = Tcp.tcpProto ∧ TcpLive r.1.tcp) := by
  unfold connectType
  simp only [hs]
  rcases hopen : sockTcpOpen e others ports sk a lport with _ | ⟨ports', sk', err | _⟩ <;> dsimp only
  · exact ⟨Follows.refl sk, by simp⟩
  · obtain ⟨hfollows, hne⟩ := sockTcpOpen_follows hopen
    refine ⟨hfollows, fun h => ?_, by simp⟩
    rw [Outcome.error.injEq] at h
    exact hne (congrArg Except.error h)
  · obtain ⟨hpeer, hserver, hend, hfollows⟩ := sockTcpOpen_ok hopen
    obtain ⟨hf, hisconn, hfault, hok⟩ := tcpConnect_spec e d sk'
    refine ⟨hfollows.trans hf, hisconn, hfault, fun h => ?_⟩
    obtain ⟨hp, hip, hlive⟩ := hok h hserver (hcalm ports' sk' hopen) hend
    exact ⟨hp.trans hpeer, hip, hlive⟩

theorem udpOpenImpl_ok {e : CallEnv} {ports ports' : Ports} {s s' : UdpSock} {lport port : Word}
    {ip : Dword} (h : udpOpenImpl e ports s lport ip port = (ports', s', .ok ()))
    (hthr : udpReachable e ip = true → s.rxData = true → s.threaded = true) :
    s'.ipType = udpProto ∧ s'.threaded = true ∧ s'.hisport = port ∧
      (ip = s'.hisaddr ∨ ip = 0 ∧ s'.hisaddr = Udp.ipBcastAddr) := by
  unfold udpOpenImpl at h
  dsimp only at h
  by_cases hmulti : ip ≠ 0 ∧ Udp.ip4IsMultihomeAddr e.host ip = true
  · rw [if_pos hmulti] at h
    cases h
  rw [if_neg hmulti] at h
  rcases heth : e.ethIsInit with _ | _
  · simp [udpListenImpl, heth] at h
  have hthreaded : udpReachable e ip = true → (s.threaded || !s.rxData) = true := by
    intro hr
    rcases hrx : s.rxData with _ | _
    · simp
    · simp [hthr hr hrx]
  have hlisten : udpListenImpl e s lport ip port =
      ({ s with
        ipType := udpProto, myaddr := e.host.myIpAddr, myport := lport, hisaddr := ip, hisport := port
        threaded := s.threaded || !s.rxData }, true) := by
    simp [udpListenImpl, heth]
  rw [hlisten] at h
  simp only [Bool.true_eq_false, if_false] at h
  have hreach : ∀ hr : ip = 0 ∨ ip = Udp.ipBcastAddr ∨ ~~~ip &&& ~~~e.host.sinMask = 0 ∨
      ip >>> 28 = 0xe ∨ e.arpResolve = true, udpReachable e ip = true := by
    intro hr
    unfold udpReachable
    rw [decide_eq_true_iff]
    exact ⟨hmulti, heth, hr⟩
  split_ifs at h with hzero hdirect harp
  · cases h
    exact ⟨rfl, hthreaded (hreach (.inl hzero)), rfl, .inr ⟨hzero, rfl⟩⟩
  · cases h
    refine ⟨rfl, hthreaded (hreach (.inr ?_)), rfl, .inl rfl⟩
    rcases hdirect with h | h | h
    · exact .inl h
    · exact .inr (.inl h)
    · exact .inr (.inr (.inl h))
  · cases h
    exact ⟨rfl, hthreaded (hreach (.inr (.inr (.inr (.inr harp))))), rfl, .inl rfl⟩
  · cases h

/-- The switch on a datagram socket: a success means that it is open to the address. -/
theorem connectType_dgram {e : CallEnv} {others : Word → Bool} {d : During} {ports : Ports}
    {lport : Word} (hd : sk.soType = .dgram)
    (hthr : ∀ ip, a.addr = .ip4 ip → udpReachable e ip = true → sk.udp.rxData = true →
      sk.udp.threaded = true) :
    let r := (connectType e others d ports sk a lport).2
    r.1.soType = .dgram ∧ r.1.soError = sk.soError ∧ r.1.remoteAddr = sk.remoteAddr ∧
      r.1.soState.isDisconnecting = sk.soState.isDisconnecting ∧
      r.1.soState.cantSendMore = sk.soState.cantSendMore ∧
      r.2 ≠ .error .eisconn ∧ r.2 ≠ .error .einprogress ∧ r.2 ≠ .fault ∧ r.2 ≠ .waits ∧
      (r.2 = .ok → UdpOpenTo r.1.udp a) := by
  obtain ⟨addr, port⟩ := a
  unfold connectType
  simp only [hd]
  unfold sockUdpOpen
  rcases addr with ip | dst <;> dsimp only
  · rcases hopen : udpOpenImpl e ports sk.udp lport ip port with ⟨ports', udp, err | _⟩ <;> dsimp only
    · refine ⟨hd, rfl, rfl, rfl, rfl, ?_⟩
      unfold udpOpenImpl at hopen
      dsimp only at hopen
      split_ifs at hopen <;> cases hopen <;> simp
    · obtain ⟨hip, ht, hport, haddr⟩ := udpOpenImpl_ok hopen (hthr ip rfl)
      refine ⟨hd, rfl, rfl, rfl, rfl, by simp, by simp, by simp, by simp, fun _ => ?_⟩
      refine ⟨hip, ht, hport, rfl, ?_⟩
      rcases haddr with h | ⟨h, hb⟩
      · exact .inl (congrArg IpAddr.ip4 h)
      · exact .inr ⟨congrArg IpAddr.ip4 h, hb⟩
  · exact ⟨hd, rfl, rfl, rfl, rfl, by simp⟩

theorem critStop_follows {d : During} {r : BsdSocket × Outcome} (h : critStop d r = some sk') :
    Follows r.1 sk' := by
  unfold critStop at h
  split_ifs at h
  · cases h
    exact Follows.refl _
  · exact sockDaemon_follows _ _ h

/-- The daemon leaves a stream socket alone whose connection is open. -/
theorem critStop_live (d : During) {r : BsdSocket × Outcome} (hs : r.1.soType = .stream)
    (h : r.1.tcp.s.state.code < TcpState.timewt.code) : critStop d r = some r.1 := by
  unfold critStop
  split_ifs
  · rfl
  · exact sockDaemon_live _ _ hs h

/-- The daemon leaves a datagram socket alone that is not shut. -/
theorem critStop_dgram (d : During) {r : BsdSocket × Outcome} (hd : r.1.soType = .dgram)
    (hdisc : r.1.soState.isDisconnecting = false) (hsend : r.1.soState.cantSendMore = false) :
    critStop d r = some r.1 := by
  unfold critStop sockDaemon
  split_ifs
  · rfl
  · rfl
  · simp [hd, udpSockDaemon, hdisc, hsend]

/-- A refusal is sound. -/
theorem sound_refuse {failed : Bool} {servaddr : SockAddrArg} {err : Errno} (ports : Ports)
    (href : refuses (.error err) = true) (hne : err ≠ .eintr) (hinv : SockInv failed sk) :
    Sound failed servaddr ⟨ports, some sk, .error err, false⟩ := by
  have hkeep : failedAfter failed ⟨ports, some sk, .error err, false⟩ = failed := by
    unfold failedAfter
    revert href hne
    cases err <;> simp [refuses, reportsFailure]
  refine ⟨by simp, by simp, fun h => ?_, fun _ => .inr (.inl href), fun sk' h _ => ?_⟩
  · rw [Outcome.error.injEq] at h
    rw [h] at href
    exact absurd href (by decide)
  · rw [hkeep]
    cases h
    exact hinv

/-- **An attempt on a stream socket is sound** if its wait is calm. -/
theorem connectBind_stream {failed : Bool} (hs : sk.soType = .stream)
    (herr : sk.soError ≠ some .eisconn) (hcalm : CalmAttempt call sk a) :
    Sound failed (.addr a) (connectBind call.e call.others call.during call.ports sk a) := by
  unfold connectBind
  by_cases hmem : sk.localAddr = none ∧ call.e.callocLocal = false
  · rw [if_pos hmem]
    exact sound_refuse call.ports rfl (by decide) (sockInv_stream hs herr)
  rw [if_neg hmem]
  rcases hbind : autoBind call.e call.others call.ports sk with _ | ⟨ports, la⟩ <;> dsimp only
  · exact ⟨by simp, by simp, by simp, by simp, by simp⟩
  by_cases hsig : call.e.sigSetup = false
  · rw [if_pos hsig]
    refine ⟨by simp, by simp, by simp, fun _ => .inr (.inl rfl), fun sk' h _ => ?_⟩
    dsimp only at h
    have hf := critStop_follows h
    exact sockInv_stream (hf.soType.trans hs) (hf.soError herr)
  · rw [if_neg hsig]
    have hstream : ({ sk with remoteAddr := some a, localAddr := some la } : BsdSocket).soType =
        .stream := hs
    obtain ⟨hfollows, hisconn, hfault, hok⟩ := connectType_stream hstream fun ports' sk' h =>
      hcalm ports la ports' sk' hbind h
    generalize connectType call.e call.others call.during ports
      { sk with remoteAddr := some a, localAddr := some la } a la.port = r at *
    have hstype := hfollows.soType.trans hstream
    refine ⟨hfault, fun h => ?_, fun h => absurd h hisconn, fun _ => .inl rfl, fun sk' h _ => ?_⟩
    · obtain ⟨hpeer, hip, hlive⟩ := hok h
      refine ⟨a, r.2.1, rfl, critStop_live _ hstype hlive.2, ?_⟩
      unfold OpenTo
      rw [hstype]
      exact ⟨hip, hlive, hpeer⟩
    · have hf := critStop_follows h
      exact sockInv_stream (hf.soType.trans hstype) (hf.soError (hfollows.soError herr))

/-- **An attempt on a datagram socket is sound** if it fails, or the socket is still in the list, or
not yet. -/
theorem connectBind_dgram {failed : Bool} (hinv : SockInv failed sk) (hd : sk.soType = .dgram)
    (hthr : ∀ ip, a.addr = .ip4 ip → udpReachable call.e ip = true → sk.udp.rxData = true →
      sk.udp.threaded = true) :
    Sound failed (.addr a) (connectBind call.e call.others call.during call.ports sk a) := by
  have hflags := hinv.flags hd
  unfold connectBind
  by_cases hmem : sk.localAddr = none ∧ call.e.callocLocal = false
  · rw [if_pos hmem]
    refine sound_refuse call.ports rfl (by decide) ⟨hinv.soType, hinv.soError, hinv.flags, ?_⟩
    exact fun _ _ ra hra => by simp at hra
  rw [if_neg hmem]
  rcases hbind : autoBind call.e call.others call.ports sk with _ | ⟨ports, la⟩ <;> dsimp only
  · exact ⟨by simp, by simp, by simp, by simp, by simp⟩
  by_cases hsig : call.e.sigSetup = false
  · rw [if_pos hsig]
    refine ⟨by simp, by simp, by simp, fun _ => .inr (.inl rfl), fun sk' h _ => ?_⟩
    dsimp only at h
    have hf := critStop_follows h
    have hset : SockInv true { sk with remoteAddr := some a, localAddr := some la } :=
      ⟨hinv.soType, hinv.soError, hinv.flags, fun _ hfail => by cases hfail⟩
    simpa [failedAfter, reportsFailure] using hset.follows hf
  · rw [if_neg hsig]
    have hdgram : ({ sk with remoteAddr := some a, localAddr := some la } : BsdSocket).soType =
        .dgram := hd
    obtain ⟨hd', herr', hra', hdisc', hsend', hisconn, hprog, hfault, hwaits, hok⟩ :=
      connectType_dgram hdgram hthr
    have hstop := critStop_dgram call.during hd' (hdisc'.trans hflags.1) (hsend'.trans hflags.2)
    rw [hstop]
    refine ⟨hfault, fun h => ?_, fun h => absurd h hisconn, fun _ => .inl rfl, fun sk' h _ => ?_⟩
    · refine ⟨a, _, rfl, rfl, ?_⟩
      unfold OpenTo
      rw [hd']
      exact hok h
    · cases h
      refine ⟨.inr hd', herr'.symm ▸ hinv.soError, fun _ => ?_, fun _ hfail ra hra _ => ?_⟩
      · exact ⟨hdisc'.trans hflags.1, hsend'.trans hflags.2⟩
      · rw [hra'] at hra
        cases hra
        refine hok ?_
        by_contra hne
        simp [failedAfter, hne, hprog] at hfail

/-- **A call that meets the condition is sound.** -/
theorem connect_sound {failed : Bool} (hinv : SockInv failed sk)
    (hok : ∀ a, call.servaddr = .addr a → a.addr.isIp6 = sk.isIp6 →
      (sk.soType = .stream → StreamOk failed sk call a) ∧
      (sk.soType = .dgram → DgramOk failed sk call a)) :
    Sound failed call.servaddr (call.run sk) := by
  unfold ConnectCall.run connect sockChkSockaddr
  rcases hservaddr : call.servaddr with _ | _ | _ | a <;> dsimp only
  · exact sound_refuse call.ports rfl (by decide) hinv
  · by_cases hd : sk.soType = .dgram
    · rw [if_pos hd]
      refine sound_refuse call.ports rfl (by decide) ⟨hinv.soType, hinv.soError, fun _ => ⟨rfl, rfl⟩, ?_⟩
      exact fun _ _ ra hra => by simp at hra
    · rw [if_neg hd]
      exact sound_refuse call.ports rfl (by decide) hinv
  · exact sound_refuse call.ports rfl (by decide) hinv
  by_cases hfam : sk.soType = .packet ∨ a.addr.isIp6 ≠ sk.isIp6
  · rw [if_pos hfam]
    exact sound_refuse call.ports rfl (by decide) hinv
  rw [if_neg hfam]
  rw [not_or, not_not] at hfam
  dsimp only
  obtain ⟨hstream, hdgram⟩ := hok a hservaddr hfam.2
  rcases hinv.soType with hs | hd
  · obtain ⟨hlive, hpending, hcalm⟩ := hstream hs
    simp only [hs, true_and, if_true]
    by_cases hconn : sk.soState.isConnected = true
    · rw [if_pos hconn]
      have hc : Connected sk := ⟨hconn, fun _ => hlive hconn⟩
      refine ⟨by simp, by simp, fun _ => ⟨sk, rfl, hc⟩, fun _ => .inr (.inr (.inr ⟨sk, rfl, hc⟩)), ?_⟩
      intro sk' h _
      cases h
      exact sockInv_stream hs hinv.soError
    rw [if_neg hconn]
    by_cases hacc : sk.soAcceptconn = true
    · rw [if_pos hacc]
      exact sound_refuse call.ports rfl (by decide) hinv
    rw [if_neg hacc]
    by_cases hmcast : a.addr.isMulticast = true
    · rw [if_pos hmcast]
      exact sound_refuse call.ports rfl (by decide) hinv
    rw [if_neg hmcast]
    rw [Bool.not_eq_true] at hconn hacc hmcast
    rcases hra : sk.remoteAddr with _ | ra <;> dsimp only
    · split_ifs
      · exact sound_refuse call.ports rfl (by decide) hinv
      · exact connectBind_stream hs hinv.soError (hcalm hra hconn hacc hmcast)
    · obtain ⟨hpend, htick⟩ := hpending ra hra hconn hacc hmcast
      exact connectAgain_sound call.during call.ports _ hs hinv.soError hpend htick
  · have hdg := hdgram hd
    unfold DgramOk at hdg
    have hnot : ∀ p : Prop, ¬ (sk.soType = .stream ∧ p) := fun p h => by simp [hd] at h
    rw [if_neg (hnot _), if_neg (hnot _), if_neg (hnot _)]
    rcases hra : sk.remoteAddr with _ | ra <;> dsimp only
    · rw [hra, if_neg (by simp)] at hdg
      split_ifs
      · exact sound_refuse call.ports rfl (by decide) hinv
      · exact connectBind_dgram hinv hd hdg
    · by_cases hsame : a = ra
      · rw [hra, if_pos (congrArg some hsame.symm)] at hdg
        rw [if_neg (by simp [hd]), if_pos hsame]
        have hopen := hinv.isOpen hd hdg.1 ra hra hdg.2
        refine ⟨by simp, fun _ => ⟨a, sk, rfl, rfl, ?_⟩, by simp, fun h => ?_, fun sk' h _ => ?_⟩
        · unfold OpenTo
          rw [hd, hsame]
          exact hopen
        · simp [hdg.1] at h
        · cases h
          simpa [failedAfter, reportsFailure] using hinv
      · rw [hra, if_neg fun h => hsame (Option.some.inj h).symm] at hdg
        rw [if_neg (by simp [hd]), if_neg hsame]
        have hclear : SockInv failed (clearErrors sk) :=
          ⟨.inr hd, by simp [clearErrors], fun _ => ⟨(hinv.flags hd).1, rfl⟩, hinv.isOpen⟩
        exact connectBind_dgram hclear hd hdg

/-! ## Runs -/

/-- The invariant of the machine. -/
def ClientInv (c : Client) : Prop :=
  c.waits = false → ∀ sk, c.sk = some sk → SockInv c.failed sk

theorem select_follows (e : Tcp.Env) : Follows sk (sk.select e) := by
  have hpending : sk.soError ≠ some .eisconn →
      (stillConnecting e sk.toStreamSocket).1.soError ≠ some .eisconn := by
    intro h
    unfold stillConnecting
    split_ifs
    · exact (sockPendingConnect_spec e sk.toStreamSocket h).1
    · exact h
  have hremote : (stillConnecting e sk.toStreamSocket).1.remoteAddr = sk.remoteAddr := by
    unfold stillConnecting sockPendingConnect
    split_ifs <;> rfl
  unfold BsdSocket.select
  split_ifs with hs
  · exact ⟨rfl, hremote, hpending, fun hd => by simp [hs] at hd, fun _ => rfl⟩
  · exact Follows.refl sk

theorem fionbio_follows (on : Bool) (sockDelay : Dword) : Follows sk (sk.fionbio on sockDelay) := by
  unfold BsdSocket.fionbio
  dsimp only
  split_ifs <;> exact ⟨rfl, rfl, id, fun _ => ⟨rfl, rfl⟩, fun _ => rfl⟩

/-- A step that meets the condition keeps the invariant and the law. -/
theorem clientStep_lawful (op : ClientOp) (hinv : ClientInv c) (hok : StepOk c op) :
    ClientInv (clientStep c op) ∧ Lawful c op := by
  have hlaw : ∀ call, op = .connect call → c.waits = false → ∀ sk, c.sk = some sk →
      Sound c.failed call.servaddr (call.run sk) := by
    intro call hop hw sk hsk
    refine connect_sound (hinv hw sk hsk) fun a ha hfam => ?_
    exact (hok call hop hw).2 sk a hsk ha hfam
  refine ⟨?_, fun call hop hw => ?_⟩
  · unfold clientStep
    rcases hw : c.waits with _ | _
    · rw [if_neg Bool.false_ne_true]
      rcases hsk : c.sk with _ | sk <;> dsimp only
      · exact hinv
      rcases op with call | ev | ⟨e, time⟩ | e | ⟨on, sockDelay⟩ <;> dsimp only
      · intro hwaits sk' h
        exact (hlaw call rfl hw sk hsk).inv sk' h (of_decide_eq_false hwaits)
      · intro _ sk' h
        cases h
        exact (hinv hw sk hsk).follows (netStep_follows sk ev)
      · exact fun _ sk' h => (hinv hw sk hsk).follows (sockDaemon_follows e time h)
      · intro _ sk' h
        cases h
        exact (hinv hw sk hsk).follows (select_follows e)
      · intro _ sk' h
        cases h
        exact (hinv hw sk hsk).follows (fionbio_follows on sockDelay)
    · rw [if_pos rfl]
      exact hinv
  · refine ⟨(hok call hop hw).1, fun sk hsk => ?_, fun sk hsk => ?_, fun sk hsk => ?_, fun sk hsk => ?_⟩
    · exact (hlaw call hop hw sk hsk).noFault
    · exact (hlaw call hop hw sk hsk).truthful
    · exact (hlaw call hop hw sk hsk).isconn
    · exact (hlaw call hop hw sk hsk).retries

theorem Unconnected.inv (h : Unconnected sk) : SockInv false sk where
  soType := h.soType
  soError := by simp [h.soError]
  flags _ := ⟨h.isDisconnecting, h.cantSendMore⟩
  isOpen _ _ ra hra := by simp [h.remoteAddr] at hra

/-- **`connect` tells the truth** in every run, from an unconnected socket, of calls that meet the
condition. -/
theorem connect_truthful (ops : List ClientOp) (h : Unconnected sk)
    (hok : Always clientStep StepOk ⟨some sk, false, false⟩ ops) :
    Always clientStep Lawful ⟨some sk, false, false⟩ ops := by
  refine always_of_invariant (fun c op => clientStep_lawful op) ops (fun _ sk' hsk => ?_) hok
  cases hsk
  exact h.inv

/-- A fresh stream socket. -/
def freshStream : BsdSocket where
  tcp := clearedConn {}
  localAddr := none
  remoteAddr := none
  soState := { unconnected := true }
  soAcceptconn := false
  soError := none
  nbTimer := 0
  recvLowat := 0
  backlog := 0
  listenQueue := fun _ => none
  soType := .stream
  isIp6 := false
  tcpIsIp6 := false
  my6addr := 0
  his6addr := 0
  udp := {}
  bcastPool := false
  timeout := 30
  soLinger := false
  lingerTime := 0
  closeTime := 0

/-- `connect` to 0.0.0.2, port 80. -/
def callTo2 (arpStartLookup : Bool) : ConnectCall :=
  { e := { arpStartLookup := arpStartLookup }, servaddr := .addr ⟨.ip4 2, 80⟩ }

/-- After an attempt whose ARP lookup could not be started, a second call does not try: it fails with
EISCONN on a socket that is not connected. -/
theorem connect_lies : Unconnected freshStream ∧
    ¬ Always clientStep Lawful ⟨some freshStream, false, false⟩
      [.connect (callTo2 false), .connect (callTo2 true)] := by
  refine ⟨⟨.inl rfl, rfl, rfl, rfl, rfl, rfl⟩, fun h => ?_⟩
  have hlaw := h.2.1 (callTo2 true) rfl rfl
  obtain ⟨sk', hsk', hconn⟩ := hlaw.isconn _ rfl rfl
  cases hsk'
  exact absurd hconn.1 (by decide)

/-- A fresh datagram socket. -/
def freshDgram : BsdSocket := { freshStream with soType := .dgram }

/-- A datagram socket that is connected, and connected again to the same address. -/
theorem connect_truthful_twice : Always clientStep Lawful ⟨some freshDgram, false, false⟩
    [.connect (callTo2 true), .connect (callTo2 true)] := by
  refine connect_truthful _ ⟨.inr rfl, rfl, rfl, rfl, rfl, rfl⟩ ⟨?_, ?_, trivial⟩
  · intro call hop _
    cases hop
    refine ⟨fun _ => rfl, fun sk a hsk ha _ => ?_⟩
    cases hsk
    cases ha
    refine ⟨fun hs => (by cases hs), fun _ => ?_⟩
    unfold DgramOk
    rw [if_neg (by decide)]
    exact fun _ _ _ hrx => by cases hrx
  · intro call hop _
    cases hop
    refine ⟨fun _ => rfl, fun sk a hsk ha _ => ?_⟩
    cases hsk
    cases ha
    refine ⟨fun hs => (by cases hs), fun _ => ?_⟩
    unfold DgramOk
    rw [if_pos (by decide)]
    decide

end Watt32.Bsd
