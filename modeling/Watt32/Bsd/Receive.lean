import Watt32.Bsd.Transmit
import Watt32.Bsd.Select
import Watt32.Bsd.Raw
import Watt32.Udp.Boundaries

/-!
# Receiving

`receive` of `receive.c` on the four types of sockets. The address of the sender is not filled in here.

* `RxFlags`, `RxArgs`, `receiveError`: the arguments and the checks of `receive`.
* `streamRead`, `tcpReceiveLoop`, `streamReceive`: on a stream socket.
* `DgramBox`, `dgramRead`, `udpReceiveLoop`, `dgramReceive`: on a datagram socket.
* `rawReceiveFrom`, `packetReceive`: on raw and packet sockets.
-/

namespace Watt32.Bsd

open Tcp (Conn WriteTurn tcpProto)

/-! ## The call -/

/-- The `MSG_XXX` flags that `receive` looks at. -/
structure RxFlags where
  peek : Bool := false
  waitall : Bool := false
  oob : Bool := false

/-- The arguments of a call but for the buffer; `fromShort` tells whether `fromlen` is too small. -/
structure RxArgs where
  flags : RxFlags := {}
  hasFrom : Bool := false
  fromShort : Bool := false

/-- The checks of `receive` on a socket that does not connect. -/
def receiveError (a : RxArgs) (sigSetup : Bool) (st : SoState) (soError : Option Errno) : Option Errno :=
  if soError ≠ none then soError
  else if st.connRefused then some .econnrefused
  else if st.cantRcvMore then some .epipe
  else if a.flags.peek ∧ a.flags.waitall then some .einval
  else if sigSetup = false then some .eintr
  else none

/-- How a loop of `receive` ends that finds nothing: is the time over, is there a signal. -/
structure Patience where
  timedOut : Bool := false
  sigPending : Bool := false

/-- What the end of a turn returns, if it is the last. -/
def Patience.error (p : Patience) (st : SoState) (soError : Option Errno) : Option Errno :=
  if soError ≠ none then soError
  else if st.nbio then some .ewouldblock
  else if p.timedOut then some .etimedout
  else if p.sigPending then some .eintr
  else none

/-! ## Stream sockets -/

/-- `sock_read` on a stream socket, or nothing while it goes on. Every turn takes one element of the list. -/
def streamRead (net : Tcp.Net) : List WriteTurn → Conn → (maxlen : ℕ) → List Byte → Option (Conn × List Byte)
  | [], _, _, _ => none
  | t :: ts, c, maxlen, buf =>
    let r := if c.s.ipType = tcpProto then Tcp.tcpRead t.e c (BitVec.ofNat 32 maxlen) else (c, [], 0)
    if r.2.2 < 1 then
      let c := t.run net r.1
      if c.s.ipType = 0 ∨ r.2.2 < 0 ∨ maxlen = 0 then some (c, buf)
      else streamRead net ts c maxlen buf
    else if maxlen - r.2.1.length = 0 then some (r.1, buf ++ r.2.1)
    else streamRead net ts r.1 (maxlen - r.2.1.length) (buf ++ r.2.1)

/-- A turn of the loop of `tcp_receive`. -/
structure RecvTurn where
  tick : SockTick
  patience : Patience := {}

/-- A call of `receive` on a stream socket meets: the ticks while the socket connects, the turns of the loop and
those of `sock_read`. -/
structure StreamRx where
  waits : List SockTick := []
  sigSetup : Bool := true
  turns : List RecvTurn
  reads : List WriteTurn := []

/-- `sock_preread`, `sock_read` and `sock_fastread` on a stream socket: the connection, the bytes and the result. -/
def streamTake (net : Tcp.Net) (a : RxArgs) (x : StreamRx) (e : Tcp.Env) (len : ℕ) (c : Conn) :
    Option (Conn × List Byte × ℤ) :=
  if a.flags.peek then
    let bytes := if c.s.ipType = tcpProto then Mem.slice c.s.rx.rxData 0 (min c.s.rx.rxDatalen.toNat len) else []
    some (c, bytes, bytes.length)
  else if a.flags.waitall then (streamRead net x.reads c len []).map fun r => (r.1, r.2, (r.2.length : ℤ))
  else if c.s.ipType = tcpProto ∨ c.s.rx.rxDatalen ≠ 0 then some (Tcp.tcpRead e c (BitVec.ofNat 32 len))
  else some (c, [], -1)

/-- `read_it` of `tcp_receive` and the end of the call. -/
def streamTaken (net : Tcp.Net) (a : RxArgs) (x : StreamRx) (e : Tcp.Env) (len : ℕ) (gotFin : Bool) (sk : SendSocket) :
    Option (SendSocket × Except SendErrno (List Byte)) :=
  (streamTake net a x e len sk.tcp).map fun r =>
    let sk := { sk with tcp := r.1 }
    if 0 < r.2.2 then ({ sk with keepalive := 0 }, .ok r.2.1)
    else if r.2.2 < 0 ∧ gotFin = false then (sk, .error (.other .eio))
    else (sk, .ok [])

/-- The loop of `tcp_receive`, or nothing while it goes on. -/
def tcpReceiveLoop (net : Tcp.Net) (a : RxArgs) (x : StreamRx) (len : ℕ) :
    List RecvTurn → SendSocket → Option (SendSocket × Except SendErrno (List Byte))
  | [], _ => none
  | t :: ts, sk =>
    let sk := t.tick.run net sk
    let ok := sk.tcp.s.ipType ≠ 0
    let sk := sk.updConn fun c => Tcp.stepNet net c ⟨t.tick.turn.e, .conn .retransmit⟩
    if sk.soState.isDisconnecting then streamTaken net a x t.tick.turn.e len true sk
    else if sk.soAcceptconn = false ∧ sk.tcp.s.locflags.gotFin ∧ sk.tcp.s.rx.rxDatalen = 0 then
      streamTaken net a x t.tick.turn.e len true
        { sk with soState := { sk.soState with isDisconnecting := true, isConnected := false } }
    else if sk.soAcceptconn = false ∧ ¬ ok then
      some ({ sk with soState := { sk.soState with
        cantRcvMore := true, isDisconnecting := true, isConnected := false } }, .error (.other .epipe))
    else if sk.recvLowat < sockRbused sk.tcp then streamTaken net a x t.tick.turn.e len false sk
    else
      match t.patience.error sk.soState sk.soError with
      | some err => some ({ sk with soError := none }, .error (.other err))
      | none => tcpReceiveLoop net a x len ts sk

/-- `receive` on a stream socket, or nothing while it goes on. -/
def streamReceive (net : Tcp.Net) (a : RxArgs) (x : StreamRx) (len : ℕ) (sk : SendSocket) :
    Option (SendSocket × Except SendErrno (List Byte)) :=
  if a.hasFrom ∧ a.fromShort then some (sk, .error (.other .eaddrnotavail))
  else
    match if sk.soState.isConnecting then connectLoop net x.waits sk else some (sk, true) with
    | none => none
    | some (sk, false) => some (sk, .error .eagain)
    | some (sk, true) =>
      match receiveError a x.sigSetup sk.soState sk.soError with
      | some err => some ({ sk with soError := none }, .error (.other err))
      | none =>
        if a.hasFrom = false ∧ sk.localAddr = none then some (sk, .error (.other .enotconn))
        else if a.flags.oob then some (sk, .error (.other .ewouldblock))
        else tcpReceiveLoop net a x len x.turns sk

/-! ## Datagram sockets -/

/-- The receive side of a datagram socket: `inbox` is its `udp_sock`, `queue` holds the used `recv_bufs` in the
order of `buf_seqnum` with the address of the sender. -/
structure DgramBox where
  soState : SoState := {}
  soError : Option Errno := none
  recvLowat : ℕ := 0
  gotIcmp : Bool := false
  inbox : Udp.Inbox
  queue : List (Dword × List Byte) := []
  recvBufnum : ℕ := 0
  bufSize : ℕ := 1500

/-- `_udp_handler` and `sock_recvdaemon`. -/
def DgramBox.arrive (b : DgramBox) (a : Udp.Arrival) : DgramBox :=
  let queue := match (Udp.udpHandler a.g a.broadcast a.ip [b.inbox.s]).handed with
    | some data =>
      if b.inbox.s.protoHandler ∧ b.queue.length < b.recvBufnum then
        b.queue ++ [(Udp.source a.ip, data.take b.bufSize)]
      else b.queue
    | none => b.queue
  { b with inbox := Udp.arrive b.inbox a, queue := queue }

/-- A turn of the loop of `udp_receive`: its `tcp_tick`, an ICMP error for the socket, and what the callbacks
store. -/
structure DgramTurn where
  tick : Udp.Tick := {}
  gotIcmp : Bool := false
  callbacks : Callbacks := {}
  patience : Patience := {}

/-- The `tcp_tick` of a turn. -/
def DgramTurn.run (t : DgramTurn) (b : DgramBox) : DgramBox :=
  let b := t.tick.arrivals.foldl DgramBox.arrive b
  { b with
    gotIcmp := b.gotIcmp || t.gotIcmp
    soError := t.callbacks.soError <|> b.soError
    soState := { b.soState with
      connRefused := b.soState.connRefused || t.callbacks.connRefused
      cantSendMore := b.soState.cantSendMore || t.callbacks.closed
      cantRcvMore := b.soState.cantRcvMore || t.callbacks.closed } }

/-- A call of `receive` on a datagram socket meets: the turns of the loop and those of `sock_read`. -/
structure DgramRx where
  sigSetup : Bool := true
  turns : List DgramTurn
  reads : List Udp.Tick := []

/-- `sock_read` on a datagram socket, or nothing while it goes on. Every turn takes one element of the list. -/
def dgramRead : List Udp.Tick → Udp.Inbox → (maxlen : ℕ) → List Byte → Option (Udp.Inbox × List Byte)
  | [], _, _, _ => none
  | t :: ts, b, maxlen, buf =>
    let r := Udp.udpRead b maxlen
    if r.2.bytes = [] then
      if t.ok = false ∨ maxlen = 0 then some (t.run r.1, buf) else dgramRead ts (t.run r.1) maxlen buf
    else if maxlen - r.2.bytes.length = 0 then some (r.1, buf ++ r.2.bytes)
    else dgramRead ts r.1 (maxlen - r.2.bytes.length) (buf ++ r.2.bytes)

/-- `sock_preread`, `sock_read` and `sock_fastread` on a datagram socket. -/
def dgramTake (a : RxArgs) (x : DgramRx) (len : ℕ) (b : Udp.Inbox) : Option (Udp.Inbox × List Byte) :=
  if a.flags.peek then some (b, (Udp.sockPreread b len).bytes)
  else if a.flags.waitall then dgramRead x.reads b len []
  else
    let r := Udp.udpRead b len
    some (r.1, r.2.bytes)

/-- `sock_recv_from`, as far as it ends the call: a datagram, or a probe without data. -/
def recvFrom (a : RxArgs) (len : ℕ) (b : DgramBox) : DgramBox × Option (List Byte) :=
  match b.queue with
  | [] => (b, none)
  | (peer, data) :: queue =>
    (if a.flags.peek then b else { b with queue := queue },
      if peer ≠ 0 ∧ (data = [] ∨ data.take len ≠ []) then some (data.take len) else none)

/-- The loop of `udp_receive`, or nothing while it goes on. -/
def udpReceiveLoop (a : RxArgs) (x : DgramRx) (len : ℕ) :
    List DgramTurn → DgramBox → Option (DgramBox × Except SendErrno (List Byte))
  | [], _ => none
  | t :: ts, b =>
    let b := t.run b
    if b.soError = some .econnrefused ∨ b.gotIcmp then
      some ({ b with soState := { b.soState with cantRcvMore := true, cantSendMore := true } },
        .error (.other .econnrefused))
    else if t.tick.ok = false then
      some ({ b with soState := { b.soState with cantRcvMore := true, cantSendMore := true } },
        .error (.other .epipe))
    else if b.soState.priv = false ∧ b.recvLowat < b.inbox.s.rxData.length then
      (dgramTake a x len b.inbox).map fun r => ({ b with inbox := r.1 }, .ok r.2)
    else
      match if b.soState.priv then recvFrom a len b else (b, none) with
      | (b, some bytes) => some (b, .ok bytes)
      | (b, none) =>
        match t.patience.error b.soState b.soError with
        | some err => some ({ b with soError := none }, .error (.other err))
        | none => udpReceiveLoop a x len ts b

/-- `receive` on a datagram socket. -/
def dgramReceive (a : RxArgs) (x : DgramRx) (len : ℕ) (b : DgramBox) :
    Option (DgramBox × Except SendErrno (List Byte)) :=
  if a.hasFrom ∧ a.fromShort then some (b, .error (.other .eaddrnotavail))
  else
    match receiveError a x.sigSetup b.soState b.soError with
    | some err => some ({ b with soError := none }, .error (.other err))
    | none => udpReceiveLoop a x len x.turns b

/-! ## Raw sockets -/

/-- A raw socket with its buffers. -/
structure RawBox where
  soState : SoState := {}
  soError : Option Errno := none
  family : RawSock.Family
  recvLowat : ℕ := 0
  bufs : List RawSock.RawSlot := []

/-- An error of `raw_receive`. -/
def rawErrno : RawSock.Errno → Errno
  | .einval => .einval
  | .ewouldblock => .ewouldblock
  | .etimedout => .etimedout
  | .eintr => .eintr

/-- A call of `receive` on a raw socket meets: what happens between two looks at the buffers. -/
structure RawRx where
  sigSetup : Bool := true
  rounds : List RawSock.Round := []

/-- `receive` on a raw socket, or nothing while it goes on: the bytes are those in the caller's buffer. -/
def rawReceiveFrom (a : RxArgs) (x : RawRx) (len : ℕ) (b : RawBox) :
    Option (RawBox × Except SendErrno (List Byte)) :=
  if a.hasFrom ∧ a.fromShort then some (b, .error (.other .eaddrnotavail))
  else
    match receiveError a x.sigSetup b.soState b.soError with
    | some err => some ({ b with soError := none }, .error (.other err))
    | none =>
      (RawSock.rawReceive ⟨b.family, b.recvLowat, b.soState.nbio⟩ (fun _ => 0) len x.rounds b.bufs).map fun r =>
        ({ b with bufs := r.bufs },
          match r.errno with
          | some err => .error (.other (rawErrno err))
          | none => .ok (Mem.slice r.buf 0 r.ret.toNat))

/-! ## Packet sockets -/

/-- A packet socket: the frames in its queue fit its buffers. -/
structure PacketBox (l : Link) where
  soState : SoState := {}
  soError : Option Errno := none
  queue : List { f : List Byte // f.length ≤ l.rxSize } := []
  room : ℕ := 20

/-- A call of `receive` on a packet socket meets: the frames that its `tcp_tick` brings. -/
structure PacketRx (l : Link) where
  sigSetup : Bool := true
  frames : List { f : List Byte // f.length ≤ l.rxSize } := []

/-- `sock_packet_receive` behind `tcp_tick`. -/
def packetTake {l : Link} (len : ℕ) (b : PacketBox l) : PacketBox l × List Byte :=
  match b.queue with
  | [] => (b, [])
  | f :: queue => ({ b with queue := queue }, f.1.take len)

/-- `receive` on a packet socket. -/
def packetReceive {l : Link} (a : RxArgs) (x : PacketRx l) (len : ℕ) (b : PacketBox l) :
    PacketBox l × Except SendErrno (List Byte) :=
  if a.hasFrom ∧ a.fromShort then (b, .error (.other .eaddrnotavail))
  else
    match receiveError a x.sigSetup b.soState b.soError with
    | some err => ({ b with soError := none }, .error (.other err))
    | none =>
      let b := { b with queue := (b.queue ++ x.frames).take (max b.queue.length b.room) }
      let r := packetTake len b
      (r.1, .ok r.2)

end Watt32.Bsd
