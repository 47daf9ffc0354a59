import Watt32.Tcp.Close

/-!
# The input state machine

The state functions of `tcp_fsm.c` and `_tcp_fsm`. Each takes the segment and its flags and gives
the connection and whether a retransmission is wanted.
-/

namespace Watt32.Tcp

/-- The connection after `tcp_process_data`, its result and the flags it leaves. -/
def processData (e : Env) (c : Conn) (seg : InSegment) (flags : TcpFlags) : Conn × ℤ × TcpFlags :=
  ({ c with s := (tcpProcessData e c.s seg flags).1 }, (tcpProcessData e c.s seg flags).2)

/-- `tcp_listen_state`. -/
def tcpListenState (e : Env) (c : Conn) (seg : InSegment) (flags : TcpFlags) : Conn × Bool :=
  if flags.syn then
    let c := (tcpSend e (c.upd fun s => { s with
      tos := if s.tos < seg.tos then seg.tos else s.tos
      rx := { s.rx with recvNext := seg.hdr.seqnum + 1 }
      flags := flagSynAck
      state := .synrec
      unhappy := true })).1
    (c.upd fun s => { s with timeout := setTimeout e tcpTimeout }, false)
  else (tcpSendReset e c seg, false)

/-- `tcp_synsent_state` on a SYN+ACK for our SYN. -/
def synsentEstablish (e : Env) (c : Conn) (seg : InSegment) (flags : TcpFlags) : Conn :=
  let c := c.upd fun s => { s with
    state := .estab
    tx := { s.tx with sendNext := s.tx.sendNext + 1 }
    rx := { s.rx with recvNext := seg.hdr.seqnum + 1 } }
  let c := (processData e c seg flags).1
  (tcpSend e (c.upd fun s => { s with unhappy := 0 < s.tx.txDatalen })).1

/-- `tcp_synsent_state` on a SYN+ACK for something else: reset it and start over. -/
def synsentRestart (e : Env) (c : Conn) : Conn :=
  let c := (tcpSend e (c.upd fun s => { s with flags := { rst := true }, unhappy := true })).1
  (tcpSendsoon e { c with
    s := { c.s with tx := { c.s.tx with sendNext := e.isn }, flags := { syn := true } }
    iss := e.isn }).1

/-- `tcp_synsent_state`. -/
def tcpSynsentState (e : Env) (c : Conn) (seg : InSegment) (flags : TcpFlags) : Conn × Bool :=
  if flags.syn then
    let c := c.upd fun s => { s with
      tos := if s.tos < seg.tos then seg.tos else s.tos
      flags := s.flags.keepPushAck
      timeout := setTimeout e tcpTimeout }
    if flags.ack then
      if seg.hdr.acknum = c.s.tx.sendNext + 1 then (synsentEstablish e c seg flags, true)
      else (synsentRestart e c, true)
    else
      (c.upd fun s => { s with
        rx := { s.rx with recvNext := s.rx.recvNext + 1 }
        state := .synrec }, true)
  else (tcpSendReset e c seg, false)

/-- `tcp_synrec_state`. -/
def tcpSynrecState (e : Env) (c : Conn) (seg : InSegment) (flags : TcpFlags) : Conn × Bool :=
  if flags.syn then
    let c := (tcpSend e (c.upd fun s => { s with flags := flagSynAck, unhappy := true })).1
    (c.upd fun s => { s with timeout := setTimeout e tcpTimeout }, false)
  else if flags.ack ∧ seg.hdr.acknum = c.s.tx.sendNext + 1 then
    let c := c.upd fun s => tcpSetWindow e s seg.hdr
    (c.upd fun s => { s with
      tx := { s.tx with sendNext := s.tx.sendNext + 1 }
      flags := { ack := true }
      state := .estab
      timeout := 0
      unhappy := false }, false)
  else (c, true)

/-! ## ESTAB -/

/-- The ACK part of `tcp_estab_state`: a number outside the window sets `send_una` to 0. -/
def estabAck (c : Conn) (acknum : Dword) : Conn :=
  let r := tcpProcessAck (c.upd fun s => { s with timeout := 0 }) acknum
  r.1.upd fun s => { s with
    sendUna := if r.2 = false ∨ s.sendUna < 0 then 0 else s.sendUna
    flags := s.flags.keepPushAck }

/-- The test for an acceptable FIN in `tcp_estab_state`. -/
def estabFinHere (s : TcpSocket) (seqnum : Dword) (flags : TcpFlags) : Bool :=
  s.state ≠ .closwt ∧ flags.fin ∧ seqGeq s.rx.recvNext seqnum ∧
    seqLt s.rx.recvNext (seqnum + s.advWin)

/-- The FIN part of `tcp_estab_state`, with `did_tx`. -/
def estabFin (e : Env) (c : Conn) (seqnum : Dword) (flags : TcpFlags) : Conn × Bool :=
  if estabFinHere c.s seqnum flags then
    if c.s.rx.missedSeq0 = c.s.rx.missedSeq1 then
      let c := (tcpSend e (c.upd fun s => { s with
        rx := { s.rx with recvNext := s.rx.recvNext + 1 } })).1
      (c.upd fun s => { s with
        locflags := { s.locflags with gotFin := true }
        flags := { s.flags with fin := true }
        unhappy := true
        timeout := setTimeout e tcpLastackTime
        state := .lastack }, true)
    else ((tcpSend e (c.upd fun s => { s with unhappy := true })).1, true)
  else (c, false)

/-- The label `send_now` of `tcp_estab_state`. -/
def estabSendNow (e : Env) (c : Conn) : Conn :=
  let c := (tcpSend e (c.updRtt fun r => { r with karnCount := 0 })).1
  if c.s.advWin = 0 then
    c.upd fun s => { s with locflags := { s.locflags with winupdate := true }, unhappy := true }
  else c

/-- The part of `tcp_estab_state` that answers: `len` is the data length and may be negative,
`ldiff` is `acknum - send_next` as the segment arrived. -/
def estabReply (e : Env) (c : Conn) (seg : InSegment) (flags : TcpFlags) (ldiff : Dword)
    (didTx : Bool) : Conn :=
  let len : ℤ := seg.tcpLen.toNat - seg.hdr.dataOfs
  if 0 < ldiff.toInt ∧ BitVec.ofInt 32 c.s.sendUna < c.s.tx.txDatalen then estabSendNow e c
  else if 0 < len then
    if c.s.advWin < c.s.maxSeg then estabSendNow e c else (tcpSendsoon e c).1
  else if didTx = false ∧ len = 0 ∧ seg.hdr.seqnum = c.s.rx.recvNext - 1 ∧ flags.ack ∧
      c.s.state = .estab then
    (tcpSend e (c.upd fun s => { s with locflags := { s.locflags with keepalive := true } })).1
  else c

/-- `tcp_estab_state`. -/
def tcpEstabState (e : Env) (c : Conn) (seg : InSegment) (flags : TcpFlags) : Conn × Bool :=
  if flags.syn ∧ flags.ack then ((tcpSend e c).1, false)
  else if flags.ack = false then (c, false)
  else
    let r := processData e (estabAck c seg.hdr.acknum) seg flags
    if r.2.1 < 0 then ((tcpSend e r.1).1, true)
    else
      let p := estabFin e r.1 seg.hdr.seqnum r.2.2
      (estabReply e p.1 seg r.2.2 (seg.hdr.acknum - c.s.tx.sendNext) p.2, false)

/-- `tcp_estcl_state`. -/
def tcpEstclState (e : Env) (c : Conn) (seg : InSegment) (flags : TcpFlags) : Conn × Bool :=
  (tcpClose e (tcpEstabState e c seg flags).1, false)

/-- `tcp_closewt_state`. -/
def tcpClosewtState (e : Env) (c : Conn) (seg : InSegment) (flags : TcpFlags) : Conn × Bool :=
  tcpEstabState e c seg flags

/-! ## The closing states -/

/-- The ACK part of `tcp_finwt1_state`. -/
def finwt1Ack (c : Conn) (acknum : Dword) : Conn :=
  let r := tcpProcessAck c acknum
  if r.2 ∧ (acknum - c.s.tx.sendNext = 0 ∨ r.1.s.sendUna < 0) then
    r.1.upd fun s => { s with sendUna := 0 }
  else r.1

/-- `tcp_finwt1_state` on the peer's FIN in order. -/
def finwt1Fin (e : Env) (c : Conn) (acknum : Dword) : Conn :=
  let c := c.upd fun s =>
    let s := { s with rx := { s.rx with recvNext := s.rx.recvNext + 1 } }
    let s := if seqGeq acknum (s.tx.sendNext + 1) then
        { s with
          tx := { s.tx with sendNext := s.tx.sendNext + 1 }
          timeout := setTimeout e tcpTimewtTo
          state := .timewt }
      else { s with timeout := setTimeout e tcpTimeout, state := .closing }
    { s with flags := { ack := true }, unhappy := false }
  (tcpSend e c).1

/-- `tcp_finwt1_state` on an ACK of our FIN. -/
def finwt1Acked (e : Env) (c : Conn) : Conn × Bool :=
  if c.s.locflags.linger = false then (tcpUnthread true c, false)
  else
    (c.upd fun s => { s with
      tx := { s.tx with sendNext := s.tx.sendNext + 1 }
      state := .finwt2
      unhappy := false
      timeout := setTimeout e tcpTimeout }, true)

/-- `tcp_finwt1_state` on an ACK of our FIN from beyond the peer's own FIN. -/
def finwt1Reset (e : Env) (c : Conn) : Conn :=
  tcpUnthread true (tcpSend e (c.upd fun s => { s with
    tx := { s.tx with sendNext := s.tx.sendNext + 1, txDatalen := 0 }
    rx := { s.rx with recvNext := s.rx.recvNext + 1 }
    flags := { rst := true }
    unhappy := false
    rtt := { s.rtt with karnCount := 0 } })).1

/-- `tcp_finwt1_state`. -/
def tcpFinwt1State (e : Env) (c : Conn) (seg : InSegment) (flags : TcpFlags) : Conn × Bool :=
  let r := processData e (finwt1Ack c seg.hdr.acknum) seg flags
  let c := r.1
  let flags := r.2.2
  if c.s.rx.missedSeq0 = c.s.rx.missedSeq1 ∧ flags.fin ∧ flags.ack then
    if seg.hdr.seqnum = c.s.rx.recvNext then (finwt1Fin e c seg.hdr.acknum, true) else (c, true)
  else if flags.ack then
    if seg.hdr.acknum = c.s.tx.sendNext + 1 ∧ seg.hdr.seqnum = c.s.rx.recvNext ∧
        c.s.tx.txDatalen = 0 then
      finwt1Acked e c
    else if seg.hdr.acknum = c.s.tx.sendNext + 1 ∧ seg.hdr.seqnum = c.s.rx.recvNext + 1 then
      (finwt1Reset e c, false)
    else (c, true)
  else (c, true)

/-- `tcp_finwt2_state`. -/
def tcpFinwt2State (e : Env) (c : Conn) (seg : InSegment) (flags : TcpFlags) : Conn × Bool :=
  let r := processData e c seg flags
  let c := r.1
  let flags := r.2.2
  if c.s.rx.missedSeq0 ≠ c.s.rx.missedSeq1 then (c, true)
  else
    let c := if flags.fin then c.upd fun s => { s with
      locflags := { s.locflags with gotFin := true } } else c
    if flags.ack ∧ seg.hdr.acknum = c.s.tx.sendNext ∧ seg.hdr.seqnum = c.s.rx.recvNext then
      ((tcpSend e (c.upd fun s => { s with
        rx := { s.rx with recvNext := s.rx.recvNext + 1 }
        flags := { ack := true }
        unhappy := false
        state := .timewt
        timeout := setTimeout e tcpTimewtTo })).1, false)
    else (c, true)

/-- `tcp_closing_state`. -/
def tcpClosingState (e : Env) (c : Conn) (seg : InSegment) (flags : TcpFlags) : Conn × Bool :=
  if flags.ack ∧ flags.fin = false ∧ seqGt seg.hdr.acknum c.s.tx.sendNext ∧
      seg.hdr.seqnum = c.s.rx.recvNext then
    (c.upd fun s => { s with
      tx := { s.tx with sendNext := s.tx.sendNext + 1 }
      state := .timewt
      unhappy := false
      timeout := setTimeout e tcpTimewtTo }, true)
  else (c, true)

/-- `tcp_lastack_state`. -/
def tcpLastackState (e : Env) (c : Conn) (seg : InSegment) (flags : TcpFlags) : Conn × Bool :=
  if flags.fin then
    let c := (tcpSend e (c.upd fun s => { s with
      locflags := { s.locflags with gotFin := true }
      flags := flagFinAck })).1
    (c.upd fun s => { s with unhappy := true }, false)
  else if seqGt seg.hdr.acknum c.s.tx.sendNext ∧ seg.hdr.seqnum = c.s.rx.recvNext then
    (c.upd fun s => { s with state := .closed, unhappy := false }, false)
  else (c, true)

/-- `tcp_timewt_state`. -/
def tcpTimewtState (e : Env) (c : Conn) (_seg : InSegment) (flags : TcpFlags) : Conn × Bool :=
  if flags.ack then
    ((tcpSend e (c.upd fun s => { s with
      flags := { ack := true }
      unhappy := false
      state := .closed })).1, true)
  else (c, true)

/-- `_tcp_fsm`: the state table. -/
def tcpFsm (e : Env) (c : Conn) (seg : InSegment) : Conn × Bool :=
  match c.s.state with
  | .listen => tcpListenState e c seg seg.hdr.flags
  | .resolve => (c, true)
  | .synsent => tcpSynsentState e c seg seg.hdr.flags
  | .synrec => tcpSynrecState e c seg seg.hdr.flags
  | .estab => tcpEstabState e c seg seg.hdr.flags
  | .estcl => tcpEstclState e c seg seg.hdr.flags
  | .finwt1 => tcpFinwt1State e c seg seg.hdr.flags
  | .finwt2 => tcpFinwt2State e c seg seg.hdr.flags
  | .closwt => tcpClosewtState e c seg seg.hdr.flags
  | .closing => tcpClosingState e c seg seg.hdr.flags
  | .lastack => tcpLastackState e c seg seg.hdr.flags
  | .timewt => tcpTimewtState e c seg seg.hdr.flags
  | .closed => (c, false)

end Watt32.Tcp
