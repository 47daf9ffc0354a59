import Watt32.Lib.Slots
import Watt32.Tcp.Family

/-!
# BSD sockets over TCP

The control blocks of `_tcp_allsocs` and the sockets of `sk_list` together, with `_bsd_socket_hook`
set.

* `Tcb`, `Socket`, `Stack`: a control block, a `Socket` and all of them.
* `demux`, `findseq`: the control block a packet is for.
* `sockAppend`: `_sock_append`, the callback of `tcp_listen_state` on a SYN.
* `tcpInput`, `tcpHandler`: `_tcp_handler` with the listen-queues.
-/

namespace Watt32.Bsd

open Tcp (Conn Packet InSegment TcpSocket TcpState ver handlerSegment fsmSegment)

/-- `SOMAXCONN`. -/
def somaxconn : ℤ := 32

/-- `ip6_address`. -/
abbrev Ip6Address := BitVec 128

/-- The 16 bytes at `i` of a packet. -/
def readIp6 (ip : Packet) (i : ℕ) : Ip6Address :=
  Tcp.readDword ip i ++ Tcp.readDword ip (i + 4) ++ Tcp.readDword ip (i + 8) ++ Tcp.readDword ip (i + 12)

/-- `_tcp_Socket` with the fields of `USE_IPV6`. The last field is a ghost: the connection was reset,
or given up after a timeout. -/
structure Tcb where
  conn : Conn
  isIp6 : Bool
  my6addr : Ip6Address
  his6addr : Ip6Address
  gone : Bool

/-- `Socket`, the fields that `_sock_append` reads: the number of its control block for `tcp_sock`,
and those of the control blocks in `listen_queue`. -/
structure Socket where
  tcpSock : ℕ
  soAcceptconn : Bool
  backlog : ℤ
  listenQueue : ℤ → Option ℕ

/-- The control blocks by number, those inserted into `_tcp_allsocs` so far from its head on (the
ones that are still in it are `threaded`), the first free number, the handles in `sk_list`, and the
socket of a handle. -/
structure Stack where
  tcbs : ℕ → Tcb
  allsocs : List ℕ
  brk : ℕ
  skList : List ℕ
  socks : ℕ → Socket

/-- What `_sock_append` takes from outside: whether its `calloc` succeeds, the receive buffer
`malloc` gives and `tcp_recv_win`. -/
structure Env extends Tcp.Env where
  calloc : Bool := true
  rcvBuf : Option (ℕ → Byte) := some fun _ => 0
  recvWin : ℕ := 16384

/-- Change one control block only. -/
def Stack.upd (st : Stack) (i : ℕ) (f : Tcb → Tcb) : Stack :=
  { st with tcbs := Function.update st.tcbs i (f (st.tcbs i)) }

/-- Change the connection of one control block only. -/
def Stack.updConn (st : Stack) (i : ℕ) (f : Conn → Conn) : Stack :=
  st.upd i fun t => { t with conn := f t.conn }

/-- Change one socket only. -/
def Stack.updSock (st : Stack) (fd : ℕ) (f : Socket → Socket) : Stack :=
  { st with socks := Function.update st.socks fd (f (st.socks fd)) }

/-- Put a control block into a slot of the listen-queue, or clear it. -/
def Socket.setSlot (sock : Socket) (idx : ℤ) (tcb : Option ℕ) : Socket :=
  { sock with listenQueue := Function.update sock.listenQueue idx tcb }

section Upd

variable (st : Stack) (i : ℕ) (f : Tcb → Tcb) (g : Conn → Conn)

@[simp] theorem Stack.upd_tcbs_self : (st.upd i f).tcbs i = f (st.tcbs i) :=
  Function.update_self _ _ _

theorem Stack.upd_tcbs_of_ne {j : ℕ} (h : j ≠ i) : (st.upd i f).tcbs j = st.tcbs j :=
  Function.update_of_ne h _ _

@[simp] theorem Stack.upd_allsocs : (st.upd i f).allsocs = st.allsocs := rfl
@[simp] theorem Stack.upd_brk : (st.upd i f).brk = st.brk := rfl
@[simp] theorem Stack.upd_skList : (st.upd i f).skList = st.skList := rfl
@[simp] theorem Stack.upd_socks : (st.upd i f).socks = st.socks := rfl

@[simp] theorem Stack.updConn_tcbs_self :
    (st.updConn i g).tcbs i = { st.tcbs i with conn := g (st.tcbs i).conn } :=
  st.upd_tcbs_self i _

theorem Stack.updConn_tcbs_of_ne {j : ℕ} (h : j ≠ i) : (st.updConn i g).tcbs j = st.tcbs j :=
  st.upd_tcbs_of_ne i _ h

@[simp] theorem Stack.updConn_allsocs : (st.updConn i g).allsocs = st.allsocs := rfl
@[simp] theorem Stack.updConn_brk : (st.updConn i g).brk = st.brk := rfl
@[simp] theorem Stack.updConn_skList : (st.updConn i g).skList = st.skList := rfl
@[simp] theorem Stack.updConn_socks : (st.updConn i g).socks = st.socks := rfl

end Upd

/-! ## Demultiplexing -/

/-- The packet belongs to the session of this control block. -/
def demuxActive (t : Tcb) (ip : Packet) : Bool :=
  let s := t.conn.s
  let hdr := (handlerSegment ip).hdr
  if t.isIp6 ∧ ver ip ≠ 4 then
    s.hisport ≠ 0 ∧ readIp6 ip 24 = t.my6addr ∧ readIp6 ip 8 = t.his6addr ∧
      hdr.dstPort = s.myport ∧ hdr.srcPort = s.hisport
  else if ver ip = 4 then
    s.hisport ≠ 0 ∧ (handlerSegment ip).destination = s.myaddr ∧
      (handlerSegment ip).source = s.hisaddr ∧ hdr.dstPort = s.myport ∧ hdr.srcPort = s.hisport
  else false

/-- The packet starts a session on this listening control block. -/
def demuxPassive (t : Tcb) (ip : Packet) : Bool :=
  t.conn.s.hisport = 0 ∧ t.conn.s.myport = (handlerSegment ip).hdr.dstPort

/-- `_tcp_handler` remembers the peer of the new session. -/
def remember (ip : Packet) (t : Tcb) : Tcb :=
  let seg := handlerSegment ip
  if t.isIp6 then
    if ver ip ≠ 4 then
      { t with
        conn := t.conn.upd fun s => { s with hisaddr := seg.source, hisport := seg.hdr.srcPort }
        my6addr := readIp6 ip 24 }
    else t
  else if ver ip = 4 then
    { t with conn := t.conn.upd fun s => { s with
        hisaddr := seg.source, hisport := seg.hdr.srcPort, myaddr := seg.destination } }
  else t

/-- The first control block of `_tcp_allsocs` with `p`. -/
def Stack.findTcb (st : Stack) (p : Tcb → Bool) : Option ℕ :=
  st.allsocs.find? fun i => (st.tcbs i).conn.threaded && p (st.tcbs i)

theorem findTcb_eq_some {st : Stack} {i : ℕ} {p : Tcb → Bool} (h : st.findTcb p = some i) :
    i ∈ st.allsocs ∧ (st.tcbs i).conn.threaded = true ∧ p (st.tcbs i) = true := by
  have hp := List.find?_some h
  rw [Bool.and_eq_true] at hp
  exact ⟨List.mem_of_find?_eq_some h, hp⟩

/-- The control block `_tcp_handler` finds for a packet, and the stack it leaves. -/
def demux (st : Stack) (ip : Packet) : Option (Stack × ℕ) :=
  match st.findTcb (demuxActive · ip) with
  | some i => some (st, i)
  | none =>
    if (handlerSegment ip).hdr.flags.syn then
      (st.findTcb (demuxPassive · ip)).map fun i => (st.upd i (remember ip), i)
    else none

/-- `tcp_findseq`: the control block that a reset from someone else is for. -/
def findseq (st : Stack) (ip : Packet) : Option ℕ :=
  st.findTcb fun t => t.conn.s.hisport ≠ 0 ∧ (handlerSegment ip).destination = t.conn.s.myaddr ∧
    (handlerSegment ip).hdr.dstPort = t.conn.s.myport ∧
    (handlerSegment ip).hdr.acknum = t.conn.s.tx.sendNext + 1

/-! ## The listen-queue -/

/-- `BSO_FIND_SOCK`: the socket with this control block. -/
def findSock (st : Stack) (i : ℕ) : Option ℕ :=
  if (st.tcbs i).conn.s.ipType = Tcp.tcpProto then
    st.skList.find? fun fd => (st.socks fd).tcpSock = i
  else none

/-- The first vacant slot of the listen-queue. -/
def vacant (sock : Socket) : Option ℤ :=
  Slots.find (fun i => (sock.listenQueue i).isNone) sock.backlog.toNat 0

/-- `_sock_set_rcv_buf`. -/
def sockSetRcvBuf (e : Env) (s : TcpSocket) : TcpSocket :=
  let len := min (min (e.recvWin + 8) 65535) 65534 - 8
  match e.rcvBuf with
  | some buf => { s with rx := { s.rx with rxData := buf, maxRxData := BitVec.ofNat 32 (len - 1) } }
  | none => { s with rx := { s.rx with maxRxData := Tcp.tcpMaxBufSize } }

/-- The clone `_sock_append` makes, at the head of `_tcp_allsocs`. -/
def cloneTcb (e : Env) (t : Tcb) : Tcb :=
  { t with
    conn := { t.conn with
      s := sockSetRcvBuf e { t.conn.s with
        tx := { t.conn.s.tx with
          txLoc := .txBuf, txDatalen := 0, maxTxData := Tcp.tcpMaxBufSize } }
      threaded := true
      calls := []
      resets := []
      iss := t.conn.s.tx.sendNext
      accepted := []
      acked := 0 }
    gone := false }

/-- `_sock_append` undoes what `_tcp_handler` and `tcp_listen_state` did to the listening block. -/
def undoSyn (e : Env) (t : Tcb) : Tcb :=
  { t with
    conn := { t.conn with
      s := { t.conn.s with
        hisport := 0, hisaddr := 0, myaddr := 0, unhappy := false
        tx := { t.conn.s.tx with sendNext := e.isn } }
      iss := e.isn }
    my6addr := 0 }

/-- The clone of `orig` goes to slot `idx` of socket `fd`. -/
def enqueue (e : Env) (st : Stack) (orig fd : ℕ) (idx : ℤ) : Stack :=
  { st with
    tcbs := Function.update (Function.update st.tcbs orig (undoSyn e (st.tcbs orig))) st.brk
      (cloneTcb e (st.tcbs orig))
    allsocs := st.brk :: st.allsocs
    brk := st.brk + 1
    socks := Function.update st.socks fd ((st.socks fd).setSlot idx (some st.brk)) }

/-- `_sock_append`: the stack and the control block it passes on, or nothing when it returns 0. -/
def sockAppend (e : Env) (st : Stack) (orig : ℕ) : Option (Stack × ℕ) :=
  match findSock st orig with
  | none => some (st, orig)
  | some fd =>
    if (st.socks fd).soAcceptconn = false then none
    else
      match vacant (st.socks fd) with
      | none => none
      | some idx =>
        if somaxconn ≤ idx then none
        else if e.calloc = false then none
        else some (enqueue e st orig fd idx, st.brk)

/-! ## Packets -/

/-- `_tcp_fsm` with the hook: the stack, the control block it leaves in `*sp` and its result. -/
def tcpFsm (e : Env) (st : Stack) (i : ℕ) (seg : InSegment) : Stack × ℕ × Bool :=
  let advance (st : Stack) (j : ℕ) : Stack × ℕ × Bool :=
    let r := Tcp.tcpFsm e.toEnv (st.tcbs j).conn seg
    (st.updConn j fun _ => r.1, j, r.2)
  if (st.tcbs i).conn.s.state = .listen ∧ seg.hdr.flags.syn then
    match sockAppend e st i with
    | none => (st, i, false)
    | some (st, j) => advance st j
  else advance st i

/-- `tcp_sockreset`. -/
def tcpSockreset (st : Stack) (i : ℕ) : Stack :=
  st.upd i fun t => { t with conn := Tcp.tcpSockreset t.conn, gone := true }

/-- `_tcp_handler` from the control block to the test for a reset. -/
def restartIdle (e : Env) (st : Stack) (i : ℕ) : Stack :=
  st.updConn i fun c => c.upd (Tcp.restartIdle e.toEnv)

/-- `_tcp_handler` from the test for a reset to the state machine. -/
def beforeFsm (e : Env) (st : Stack) (i : ℕ) (ip : Packet) : Stack :=
  st.updConn i fun c => Tcp.beforeFsm e.toEnv c (handlerSegment ip)

/-- `_tcp_handler` once it has the control block. -/
def tcpInput (e : Env) (st : Stack) (i : ℕ) (ip : Packet) : Stack :=
  let st := restartIdle e st i
  if Tcp.rstInWindow (st.tcbs i).conn.s (handlerSegment ip) then tcpSockreset st i
  else
    let r := tcpFsm e (beforeFsm e st i ip) i (fsmSegment ip)
    r.1.updConn r.2.1 fun c => Tcp.afterFsm e.toEnv (c, r.2.2)

/-- `_tcp_handler` on a packet that passes its tests. -/
def tcpHandler (e : Env) (st : Stack) (ip : Packet) : Stack :=
  match demux st ip with
  | some (st, i) => tcpInput e st i ip
  | none =>
    if (handlerSegment ip).hdr.flags.rst ∧ (handlerSegment ip).hdr.flags.ack then
      match findseq st ip with
      | some i => tcpSockreset st i
      | none => st
    else st

end Watt32.Bsd
