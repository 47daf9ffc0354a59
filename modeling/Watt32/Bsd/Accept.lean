import Watt32.Bsd.Stack

/-!
# Taking connections from the listen-queue

`accept` and the closing of stream sockets, and the machine of all that happens to the control
blocks and the sockets.

* `acceptTurn`: one turn of the loop of `accept`, at one slot of the queue.
* `closeStream`, `sockDelFd`: `close_stream` on a listening socket, and the end of a socket.
* `Op`, `Event`, `step`: the steps of the machine. A pass of `tcp_Retransmitter` is a number of
  steps, one for each control block.
-/

namespace Watt32.Bsd

open Tcp (Conn Packet TcpState handlerSegment)

/-! ## Timeouts -/

/-- `tcp_Retransmitter` gives the connection up because of `datatimer`. -/
def dataTimesOut (e : Tcp.Env) (c : Conn) : Bool :=
  ¬ (c.s.locflags.winupdate ∧ c.s.rx.maxRxData - c.s.rx.rxDatalen ≠ 0) ∧
    (c.s.tx.txDatalen ≠ 0 ∨ c.s.unhappy ∨ c.s.rtt.karnCount = 1) ∧
    ¬ Tcp.chkTimeout e c.s.rtt.rttTime ∧ Tcp.chkTimeout e c.s.datatimer

/-- `tcp_Retransmitter` gives the connection up: it calls `tcp_abort`. -/
def timesOut (e : Tcp.Env) (c : Conn) : Bool :=
  if c.threaded = false ∨ c.s.state = .closed then false
  else if c.s.state = .resolve then ¬ e.arpResolved ∧ ¬ e.arpPending
  else dataTimesOut e c ∨
    let s := (Tcp.retransSend e c).s
    ¬ Tcp.chkTimeout e s.inactiveTo ∧ Tcp.chkTimeout e s.timeout ∧
      s.state ≠ .timewt ∧ s.state ≠ .estab ∧ s.state ≠ .estcl

/-- `tcp_Retransmitter` at one control block. -/
def tcpRetransmitter (e : Tcp.Env) (t : Tcb) : Tcb :=
  { t with conn := Tcp.tcpRetransmitter e t.conn, gone := t.gone || timesOut e t.conn }

/-! ## Sockets come and go -/

/-- `_sock_del_fd` on a stream socket. -/
def sockDelFd (e : Tcp.Env) (st : Stack) (fd : ℕ) : Stack :=
  { st.updConn (st.socks fd).tcpSock (Tcp.tcpAbort e) with
    skList := st.skList.filter (· ≠ fd) }

/-- `listen_free`. -/
def listenFree (st : Stack) (fd : ℕ) (idx : ℤ) (tcb : ℕ) : Stack :=
  (st.updConn tcb (Tcp.tcpUnthread true)).updSock fd (·.setSlot idx none)

/-- A new connected socket with this handle and control block. -/
def addSock (st : Stack) (fd tcb : ℕ) : Stack :=
  { st with
    skList := fd :: st.skList
    socks := Function.update st.socks fd ⟨tcb, false, 0, fun _ => none⟩ }

/-- `dup_bind` when `socket` gives a handle. -/
def dupBind (st : Stack) (fd : ℕ) (idx : ℤ) (tcb newFd : ℕ) : Stack :=
  addSock ((st.updConn tcb fun c => c.upd fun s =>
    { s with locflags := { s.locflags with isServer := false } }).updSock fd (·.setSlot idx none))
    newFd tcb

/-- `accept` from the end of its loop on. `newFd` is the handle `socket` gives, if any, and `addrOk`
tells whether `alloc_addr` succeeds. -/
def takeConn (e : Tcp.Env) (st : Stack) (fd : ℕ) (idx : ℤ) (tcb : ℕ) (newFd : Option ℕ)
    (addrOk : Bool) : Stack :=
  match newFd with
  | none => st
  | some n =>
    if n ∈ st.skList then st
    else if addrOk then (dupBind st fd idx tcb n).updConn tcb Tcp.sockNoflush
    else sockDelFd e (dupBind st fd idx tcb n) n

/-- One turn of the loop of `accept`, at slot `idx`. -/
def acceptTurn (e : Tcp.Env) (st : Stack) (fd : ℕ) (idx : ℤ) (newFd : Option ℕ) (addrOk : Bool) :
    Stack :=
  match (st.socks fd).listenQueue idx with
  | none => st
  | some tcb =>
    let s := (st.tcbs tcb).conn.s
    if TcpState.estcl.code ≤ s.state.code ∧ s.ipType = 0 then listenFree st fd idx tcb
    else if TcpState.estab.code ≤ s.state.code ∧ s.state.code < TcpState.closed.code then
      takeConn e st fd idx tcb newFd addrOk
    else st

/-- `close_stream` at one slot of the listen-queue. -/
def closeSlot (e : Tcp.Env) (fd : ℕ) (st : Stack) (idx : ℤ) : Stack :=
  match (st.socks fd).listenQueue idx with
  | none => st
  | some tcb =>
    (st.updConn tcb fun c => Tcp.tcpAbort e (c.upd fun s =>
      { s with rx := { s.rx with rxDatalen := 0 } })).updSock fd (·.setSlot idx none)

/-- `close_stream` on a listening socket. -/
def closeStream (e : Tcp.Env) (st : Stack) (fd : ℕ) : Stack :=
  let n := (min (st.socks fd).backlog somaxconn).toNat
  sockDelFd e (((List.range n).map Int.ofNat).foldl (closeSlot e fd) st) fd

/-! ## Steps -/

/-- What can happen: a packet, the turn of a control block in `tcp_Retransmitter`, a turn of `accept`,
the closing of a listening socket, what the application does with a connected one, and its end. -/
inductive Op
  | packet (ip : Packet)
  | retransmit (tcb : ℕ)
  | accept (fd : ℕ) (idx : ℤ) (newFd : Option ℕ) (addrOk : Bool)
  | close (fd : ℕ)
  | user (fd : ℕ) (op : Tcp.Op)
  | delFd (fd : ℕ)

/-- An operation and what it takes from outside. -/
structure Event where
  e : Env
  op : Op

/-- The handle is that of a listening socket. -/
def listening (st : Stack) (fd : ℕ) : Bool := fd ∈ st.skList ∧ (st.socks fd).soAcceptconn

/-- The handle is that of another stream socket. -/
def connected (st : Stack) (fd : ℕ) : Bool := fd ∈ st.skList ∧ (st.socks fd).soAcceptconn = false

/-- One step of the machine. -/
def step (st : Stack) (ev : Event) : Stack :=
  match ev.op with
  | .packet ip => tcpHandler ev.e st ip
  | .retransmit i => st.upd i (tcpRetransmitter ev.e.toEnv)
  | .accept fd idx newFd addrOk =>
    if listening st fd ∧ 0 ≤ idx ∧ idx < (st.socks fd).backlog then
      acceptTurn ev.e.toEnv st fd idx newFd addrOk
    else st
  | .close fd => if listening st fd then closeStream ev.e.toEnv st fd else st
  | .user fd op =>
    if connected st fd then
      st.updConn (st.socks fd).tcpSock fun c => Tcp.stepConn c ⟨ev.e.toEnv, op⟩
    else st
  | .delFd fd => if connected st fd then sockDelFd ev.e.toEnv st fd else st

end Watt32.Bsd
