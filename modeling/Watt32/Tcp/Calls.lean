import Watt32.Tcp.Fsm

/-!
# Calls and events

The rest of `pctcp.c` around one control block, and the machine of its runs.

* `tcpOpen`, `tcpListen`, `tcpRead`, `tcpWrite`, `sockFlush`, `sockClose`, …: the application.
* `tcpRttWin`, `tcpHandler`, `fsmEntry`: a segment that reaches the control block.
* `tcpRetransmitter`: the periodic work.
* `Op`, `Event`, `stepConn`: all of these as the steps of one machine.
-/

namespace Watt32.Tcp

/-! ## Opening -/

/-- The control block `memset` and the common part of `tcp_open` and `tcp_listen` leave. -/
def freshSocket (e : Env) (handler : Option ProtoHandler) (rxBuf txBuf : ℕ → Byte) : TcpSocket :=
  { ipType := tcpProto, tos := 0, stress := 0, nagle := e.cfg.nagle, localMode := false
    protoHandler := handler, hisaddr := 0, hisport := 0, myaddr := 0, myport := 0
    locflags := { linger := true }
    rx := { rxData := rxBuf, rxDatalen := 0, maxRxData := tcpMaxBufSize, recvNext := 0
            missedSeq0 := 0, missedSeq1 := 0, copies := [] }
    state := .closed, timeout := 0, unhappy := false, flags := {}, window := 0, advWin := 0
    rtt := { vjSa := initVjsa }, tsRecent := 0, tsEcho := 0, maxSeg := e.cfg.mss, secret := none
    inactiveTo := 0, datatimer := 0, rxWscale := 0, sendUna := 0
    tx := { txData := txBuf, txLoc := .txBuf, txDatalen := 0, maxTxData := tcpMaxBufSize
            txQueue := fun _ => 0, txQueuelen := 0, sendNext := e.isn } }

/-- A connection around a fresh control block. -/
def freshConn (s : TcpSocket) (txOk : List Bool) : Conn :=
  { s := s, threaded := true, txOk := txOk, calls := [], resets := [], iss := s.tx.sendNext
    accepted := [], acked := 0 }

/-- `tcp_open` when it succeeds. -/
def tcpOpen (e : Env) (myaddr : Dword) (lport : Word) (ip : Dword) (rport : Word)
    (handler : Option ProtoHandler) (rxBuf txBuf : ℕ → Byte) : TcpSocket :=
  { freshSocket e handler rxBuf txBuf with
    state := .resolve
    rtt := { vjSa := initVjsa, rto := e.cfg.openTo }
    myaddr := myaddr
    myport := lport
    hisaddr := ip
    hisport := rport
    flags := { syn := true }
    unhappy := true }

/-- `tcp_listen` when it succeeds. -/
def tcpListen (e : Env) (lport : Word) (ip : Dword) (port : Word) (handler : Option ProtoHandler)
    (timeout : Word) (rxBuf txBuf : ℕ → Byte) : TcpSocket :=
  { freshSocket e handler rxBuf txBuf with
    state := .listen
    locflags := { linger := true, isServer := true }
    myport := lport
    hisport := port
    hisaddr := ip
    timeout := if timeout ≠ 0 then setTimeout e (1000 * timeout.setWidth 32) else 0 }

/-! ## Segments -/

/-- `vj_sa`, `vj_sd` and `rto` after a round trip that took `dT`. -/
def updateRto (cfg : Config) (r : Rtt) (dT : Dword) : Rtt :=
  let r := if 0 ≤ dT.toInt then
      let dT := dT - r.vjSa >>> 3
      let vjSa := r.vjSa + dT
      let dT := if dT.toInt < 0 then -dT else dT
      let vjSd := r.vjSd + (dT - r.vjSd >>> 2)
      { r with
        vjSa := if cfg.maxVjsa < vjSa then cfg.maxVjsa else vjSa
        vjSd := if cfg.maxVjsd < vjSd then cfg.maxVjsd else vjSd }
    else r
  { r with rto := cfg.rtoBase + (r.vjSa >>> 2 + r.vjSd) >>> 1 }

/-- `tcp_rtt_win` on the timing. -/
def rttWin (e : Env) (r : Rtt) : Rtt :=
  let r : Rtt := if r.karnCount = 2 then r
    else if r.vjLast ≠ 0 then updateRto e.cfg r (setTimeout e 0 - r.vjLast) else r
  let r : Rtt := { r with karnCount := 0 }
  let r : Rtt := if r.wwindow ≠ 255 then
      let r : Rtt := { r with wwindow := r.wwindow + 1 }
      if r.cwindow ≤ r.wwindow then
        { r with cwindow := if r.cwindow ≠ 255 then r.cwindow + 1 else r.cwindow, wwindow := 0 }
      else r
    else r
  let timeout := setTimeout e (r.rto + e.cfg.rtoAdd)
  if r.rttTime = 0 ∨ r.rttTime < timeout then { r with rttTime := timeout } else r

/-- `tcp_rtt_win`. -/
def tcpRttWin (e : Env) (c : Conn) : Conn :=
  (c.updRtt (rttWin e)).upd fun s => { s with datatimer := 0 }

theorem updateRto_cwindow (cfg : Config) (r : Rtt) (dT : Dword) :
    (updateRto cfg r dT).cwindow = r.cwindow := by
  unfold updateRto
  dsimp only
  split_ifs <;> rfl

/-- The congestion window stays positive. -/
theorem rttWin_cwindow {e : Env} {r : Rtt} (h : r.cwindow ≠ 0) : (rttWin e r).cwindow ≠ 0 := by
  have hsucc : r.cwindow ≠ 255 → r.cwindow + 1 ≠ 0 := fun hne h0 =>
    hne (eq_neg_of_add_eq_zero_left h0)
  have hcases : (rttWin e r).cwindow = r.cwindow ∨
      r.cwindow ≠ 255 ∧ (rttWin e r).cwindow = r.cwindow + 1 := by
    simp only [rttWin, apply_ite Rtt.cwindow, apply_ite Rtt.wwindow, updateRto_cwindow, ite_self]
    split_ifs <;> simp_all
  rcases hcases with hc | ⟨hne, hc⟩
  · rwa [hc]
  · rw [hc]
    exact hsucc hne

/-- The segment is for this active control block. -/
def demuxActive (s : TcpSocket) (seg : InSegment) : Bool :=
  s.hisport ≠ 0 ∧ seg.destination = s.myaddr ∧ seg.source = s.hisaddr ∧
    seg.hdr.dstPort = s.myport ∧ seg.hdr.srcPort = s.hisport

/-- The segment starts a session on this listening control block. -/
def demuxPassive (s : TcpSocket) (seg : InSegment) : Bool :=
  seg.hdr.flags.syn ∧ s.hisport = 0 ∧ s.myport = seg.hdr.dstPort

/-- A RST whose number lies in the receive window. -/
def rstInWindow (s : TcpSocket) (seg : InSegment) : Bool :=
  seg.hdr.flags.rst ∧ seqGeq seg.hdr.seqnum s.rx.recvNext ∧
    seqLeq seg.hdr.seqnum (s.rx.recvNext + s.advWin + 1)

/-- `_tcp_handler` restarts the idle timer. -/
def restartIdle (e : Env) (s : TcpSocket) : TcpSocket :=
  if e.cfg.sockInactive ≠ 0 ∧ s.locflags.rcvtimeo = false then
    { s with inactiveTo := setTimeout e (1000 * e.cfg.sockInactive) }
  else s

/-- The control block a segment is for, as `_tcp_handler` finds it. -/
def demux (e : Env) (c : Conn) (seg : InSegment) : Option Conn :=
  if c.threaded = false then none
  else if demuxActive c.s seg then some (c.upd (restartIdle e))
  else if demuxPassive c.s seg then
    some (c.upd fun s => restartIdle e { s with
      hisaddr := seg.source, hisport := seg.hdr.srcPort, myaddr := seg.destination })
  else none

/-- `_tcp_handler` from the test for a reset to the state machine. -/
def beforeFsm (e : Env) (c : Conn) (seg : InSegment) : Conn :=
  tcpRttWin e (c.upd fun s => { s with
    locflags := { s.locflags with gotPush := seg.hdr.flags.push } })

/-- The end of `_tcp_handler`: retransmit soon when the state machine asks for it. -/
def afterFsm (e : Env) (r : Conn × Bool) : Conn :=
  if r.2 ∧ r.1.s.unhappy then (tcpSendsoon e r.1).1 else r.1

/-- `_tcp_handler` for one control block. -/
def tcpHandler (e : Env) (c : Conn) (seg : InSegment) : Conn :=
  match demux e c seg with
  | none => c
  | some c' =>
    if rstInWindow c'.s seg then tcpSockreset c'
    else afterFsm e (tcpFsm e (beforeFsm e c' seg) seg)

/-- The control block as `_tcp_fsm` gets it, when the segment comes that far. -/
def fsmEntry (e : Env) (c : Conn) (seg : InSegment) : Option Conn :=
  match demux e c seg with
  | none => none
  | some c' => if rstInWindow c'.s seg then none else some (beforeFsm e c' seg)

/-! ## Reading and writing -/

/-- `tcp_upd_win`. -/
def tcpUpdWin (e : Env) (c : Conn) : Conn :=
  if c.s.rx.maxRxData - c.s.rx.rxDatalen < c.s.maxSeg / 2 then (tcpSend e c).1 else c

/-- How many bytes lie behind the ones read: the rest and the out-of-order block. -/
def toMove (b : RxBuf) : Dword :=
  if b.missedSeq0 ≠ b.missedSeq1 then b.rxDatalen + (b.missedSeq1 - b.recvNext) else b.rxDatalen

/-- `tcp_read` on the receive buffer, for `len` bytes. -/
def readRx (b : RxBuf) (len : Dword) : RxBuf :=
  let b := { b with rxDatalen := b.rxDatalen - len }
  if 0 < (toMove b).toInt then
    { b with rxData := Mem.blit b.rxData 0 b.rxData len.toNat (toMove b).toNat }
  else b

/-- `len` of `tcp_read`. -/
def readLen (s : TcpSocket) (maxlen : Dword) : Dword :=
  minLong (if maxlen.toInt < 0 then 0x7fffffff else maxlen) s.rx.rxDatalen

/-- `tcp_read` with a buffer: the connection, the bytes and the result. -/
def tcpRead (e : Env) (c : Conn) (maxlen : Dword) : Conn × List Byte × ℤ :=
  let len := readLen c.s maxlen
  if 0 < len.toInt then
    let bytes := Mem.slice c.s.rx.rxData 0 len.toNat
    let c := c.upd fun s => { s with rx := readRx s.rx len }
    (if 0 < (toMove c.s.rx).toInt then (tcpSendsoon e c).1 else tcpUpdWin e c, bytes, len.toInt)
  else
    (if c.s.state = .closwt then tcpClose e c else c, [],
      if len = 0 ∧ c.s.locflags.gotFin then -1 else len.toInt)

/-- How many bytes `tcp_write` takes: all, or what there is room for. -/
def writeRoom (s : TcpSocket) : Dword := s.tx.maxTxData - s.tx.txDatalen - 1

/-- `tcp_write` up to the copy: the bytes taken and whether PUSH waits for the rest. -/
def appendTx (e : Env) (s : TcpSocket) (data : List Byte) : TcpSocket :=
  { s with
    tx := { s.tx with
      txData := Mem.put s.tx.txData s.tx.txDatalen.toNat data
      txDatalen := s.tx.txDatalen + BitVec.ofNat 32 data.length }
    unhappy := true
    datatimer := if e.cfg.sockDataTimeout ≠ 0 then setTimeout e (1000 * e.cfg.sockDataTimeout)
      else 0 }

/-- `tcp_write` after the copy, with Nagle: whether to transmit now. -/
def writeNow (cfg : Config) (s : TcpSocket) (len : Dword) : Bool :=
  s.nagle = false ∨ s.tx.txDatalen = len ∨
    (if s.maxSeg < cfg.mss then s.maxSeg else cfg.mss) ≤ s.tx.txDatalen - BitVec.ofInt 32 s.sendUna

/-- `tcp_write` of at least one byte that there is room for. `push` is what the PUSH bit gets
back when only a part was taken. -/
def writeTake (e : Env) (c : Conn) (data : List Byte) (room : Dword) (push : Bool) : Conn × ℤ :=
  let len : Dword := BitVec.ofNat 32 data.length
  let c := { c with s := appendTx e c.s data, accepted := c.accepted ++ data }
  if c.s.localMode ∧ len < room then (c, len.toInt)
  else
    let r := if writeNow e.cfg c.s len then tcpSend e c else tcpSendsoon e c
    (r.1.upd fun s => { s with flags := { s.flags with push := s.flags.push || push } },
      if r.2 < 0 then -1 else len.toInt)

/-- `tcp_write`: the connection and the result. -/
def tcpWrite (e : Env) (c : Conn) (data : List Byte) : Conn × ℤ :=
  if c.s.state ≠ .estab then (c, 0)
  else
    let room := writeRoom c.s
    if room.toNat < data.length then
      if room = 0 then (c, 0)
      else
        writeTake e (c.upd fun s => { s with flags := { s.flags with push := false } })
          (data.take room.toNat) room c.s.flags.push
    else if data = [] then (c, 0)
    else writeTake e c data room false

/-- `sock_noflush`. -/
def sockNoflush (c : Conn) : Conn :=
  if c.s.ipType = tcpProto then c.upd fun s => { s with localMode := true } else c

/-- `sock_flushnext`. -/
def sockFlushnext (c : Conn) : Conn :=
  if c.s.ipType = tcpProto then
    c.upd fun s => { s with flags := { s.flags with push := true }, localMode := false }
  else c

/-- `sock_flush`. -/
def sockFlush (e : Env) (c : Conn) : Conn :=
  if c.s.ipType = tcpProto then
    let c := c.upd fun s => { s with localMode := false }
    if BitVec.ofInt 32 c.s.sendUna < c.s.tx.txDatalen then
      let c := c.upd fun s => { s with flags := { s.flags with push := true } }
      if c.s.sendUna = 0 then (tcpSend e c).1 else c
    else c
  else c

/-- The part of `tcp_tick` about the socket itself. -/
def tickDead (c : Conn) : Conn :=
  if c.s.ipType = tcpProto ∧ c.s.state = .closed ∧ c.s.rx.rxDatalen = 0 then
    (tcpUnthread true c).upd fun s => { s with ipType := 0 }
  else c

/-- `sock_close`, without the other work of its `tcp_tick`. -/
def sockClose (e : Env) (c : Conn) : Conn :=
  if c.s.ipType = tcpProto then tickDead (tcpClose e c) else c

/-! ## Retransmission -/

/-- `tcp_Retransmitter` in RESOLVE. -/
def retransResolve (e : Env) (c : Conn) : Conn :=
  if e.arpResolved then
    let c := (tcpSend e (c.upd fun s => { s with
      state := .synsent
      timeout := setTimeout e (1000 * e.cfg.sockDelay) })).1
    c.updRtt fun r => { r with rttTime := setTimeout e (e.rttCached.getD e.cfg.openTo) }
  else if e.arpPending = false then tcpAbort e c
  else c

/-- What a retransmission timeout does before it sends. -/
def retransPrepare (s : TcpSocket) : TcpSocket :=
  let s : TcpSocket := { s with rtt := { s.rtt with rttTime := 0 } }
  let s : TcpSocket := if s.window = 0 ∧ s.rtt.karnCount = 2 then { s with window := 1 } else s
  let s : TcpSocket := if s.rtt.karnCount = 0 then
      let cwindow : Byte := (((s.rtt.cwindow.setWidth 32 + 1 : Dword) * 3) >>> 2).setWidth 8
      { s with
        rtt := { s.rtt with
          cwindow := if cwindow = 0 then 1 else cwindow, wwindow := 0, karnCount := 2 }
        sendUna := 0 }
    else s
  if s.tx.txDatalen ≠ 0 then
    { s with
      flags := { s.flags with push := true, ack := true }
      rtt := { s.rtt with cwindow := if 1 < s.rtt.cwindow then s.rtt.cwindow - 1
        else s.rtt.cwindow } }
  else s

/-- The retransmission part of `tcp_Retransmitter`. -/
def retransSend (e : Env) (c : Conn) : Conn :=
  if c.s.locflags.winupdate ∧ c.s.rx.maxRxData - c.s.rx.rxDatalen ≠ 0 then
    (tcpSend e (c.upd fun s => { s with
      locflags := { s.locflags with winupdate := false }
      flags := { s.flags with ack := true } })).1
  else if c.s.tx.txDatalen ≠ 0 ∨ c.s.unhappy ∨ c.s.rtt.karnCount = 1 then
    if chkTimeout e c.s.rtt.rttTime then (tcpSend e (c.upd retransPrepare)).1
    else if chkTimeout e c.s.datatimer then
      (tcpAbort e c).upd fun s => { s with datatimer := 0 }
    else c
  else c

/-- The timeouts at the end of `tcp_Retransmitter`; the `tcp_tick` inside `sock_close` returns at
once when it is reentered. -/
def retransTimeouts (e : Env) (c : Conn) : Conn :=
  if chkTimeout e c.s.inactiveTo then tcpClose e (c.upd fun s => { s with inactiveTo := 0 })
  else if chkTimeout e c.s.timeout then
    if c.s.state = .timewt then c.upd fun s => { s with state := .closed }
    else if c.s.state ≠ .estab ∧ c.s.state ≠ .estcl then tcpAbort e c
    else c
  else c

/-- `tcp_Retransmitter` for one threaded control block. -/
def tcpRetransmitter (e : Env) (c : Conn) : Conn :=
  if c.threaded = false then c
  else if c.s.state = .resolve then retransResolve e c
  else if c.s.state = .closed then
    if c.s.rx.rxDatalen = 0 then tcpUnthread true c else c
  else retransTimeouts e (retransSend e c)

/-! ## Runs -/

/-- What can happen to a control block. -/
inductive Op
  | segment (seg : InSegment)
  | read (maxlen : Dword)
  | write (data : List Byte)
  | flush
  | flushnext
  | noflush
  | close
  | abort
  | retransmit

/-- An operation and what it takes from outside. -/
structure Event where
  e : Env
  op : Op

/-- One step of the machine. -/
def stepConn (c : Conn) (ev : Event) : Conn :=
  match ev.op with
  | .segment seg => tcpHandler ev.e c seg
  | .read maxlen => (tcpRead ev.e c maxlen).1
  | .write data => (tcpWrite ev.e c data).1
  | .flush => sockFlush ev.e c
  | .flushnext => sockFlushnext c
  | .noflush => sockNoflush c
  | .close => sockClose ev.e c
  | .abort => tcpAbort ev.e c
  | .retransmit => tcpRetransmitter ev.e c

/-! ## A connection -/

/-- An established connection between ports 1024 and 80, our initial sequence number 0 and the
peer's 999. -/
def establishedConn (txOk : List Bool) : Conn :=
  let s := freshSocket {} none (fun _ => 0) (fun _ => 0)
  { freshConn { s with
      state := .estab, flags := { ack := true }
      hisaddr := 2, hisport := 80, myaddr := 1, myport := 1024
      rx := { s.rx with recvNext := 1000 }
      tx := { s.tx with sendNext := 1 }
      window := 4096 } txOk with iss := 0 }

/-- A segment of the peer with `n` bytes 7. -/
def peerSegment (flags : TcpFlags) (seqnum acknum : Dword) (n : Word) : InSegment :=
  { source := 2, destination := 1, tos := 0
    hdr := { srcPort := 80, dstPort := 1024, seqnum := seqnum, acknum := acknum, offset := 5
             flags := flags, window := 4096 }
    flagsHi := 0, tcpLen := 20 + n, mem := fun _ => 7 }

end Watt32.Tcp
