import Watt32.Tcp.Send

/-!
# Closing and resetting

`_tcp_unthread`, `_tcp_close`, `_tcp_abort`, `tcp_sockreset` and `_tcp_send_reset` of `pctcp.c`.
-/

namespace Watt32.Tcp

/-- `_tcp_unthread (s, free_tx)` on the control block. -/
def unthread (freeTx : Bool) (s : TcpSocket) : TcpSocket :=
  let s := { s with
    ipType := if s.rx.rxDatalen = 0 ∨ TcpState.estcl.code < s.state.code then 0 else s.ipType
    state := .closed }
  if freeTx ∧ s.tx.txLoc = .heap then
    { s with tx := { s.tx with txLoc := .null, txDatalen := 0 } }
  else s

/-- `_tcp_unthread`. -/
def tcpUnthread (freeTx : Bool) (c : Conn) : Conn :=
  { c with s := unthread freeTx c.s, threaded := false }

/-- `_tcp_close` with no data left to send, in ESTAB, ESTCL or SYNREC. -/
def closeNow (e : Env) (c : Conn) : Conn :=
  (tcpSend e (c.upd fun s => { s with
    flags := flagFinAck
    state := .finwt1
    timeout := setTimeout e tcpTimeout
    rtt := { s.rtt with rttTime := 0 } })).1

/-- `_tcp_close` with data left to send, in ESTAB, ESTCL or SYNREC. -/
def closeLater (e : Env) (c : Conn) : Conn :=
  let c := c.upd fun s => { s with flags := { s.flags with push := true, ack := true } }
  if c.s.state.code < TcpState.estcl.code then
    (tcpSendsoon e (c.upd fun s => { s with state := .estcl })).1
  else c

/-- `_tcp_close` in CLOSWT. -/
def closeClosWt (e : Env) (c : Conn) : Conn :=
  (tcpSend e (c.upd fun s => { s with
    timeout := setTimeout e tcpLastackTime
    state := .lastack
    flags := { s.flags with fin := true } })).1

/-- `_tcp_close`. -/
def tcpClose (e : Env) (c : Conn) : Conn :=
  if c.s.ipType ≠ tcpProto then c else
  match c.s.state with
  | .estab | .estcl | .synrec =>
    (if c.s.tx.txDatalen ≠ 0 then closeLater e c else closeNow e c).upd
      fun s => { s with unhappy := true }
  | .closwt => (closeClosWt e c).upd fun s => { s with unhappy := true }
  | .resolve | .synsent => tcpUnthread false (c.upd fun s => { s with state := .closed })
  | _ => c

/-! `_tcp_close` leaves the receive buffer alone. -/

@[simp] theorem unthread_rx (freeTx : Bool) (s : TcpSocket) : (unthread freeTx s).rx = s.rx := by
  unfold unthread
  dsimp only
  split_ifs <;> rfl

@[simp] theorem unthread_protoHandler (freeTx : Bool) (s : TcpSocket) :
    (unthread freeTx s).protoHandler = s.protoHandler := by
  unfold unthread
  dsimp only
  split_ifs <;> rfl

theorem closeLater_frame (e : Env) (c : Conn) : (closeLater e c).s.rx = c.s.rx ∧
    (closeLater e c).s.protoHandler = c.s.protoHandler := by
  unfold closeLater
  dsimp only
  split_ifs <;> simp

theorem tcpClose_frame (e : Env) (c : Conn) : (tcpClose e c).s.rx = c.s.rx ∧
    (tcpClose e c).s.protoHandler = c.s.protoHandler := by
  have hlater := closeLater_frame e c
  have hnow : (closeNow e c).s.rx = c.s.rx ∧
      (closeNow e c).s.protoHandler = c.s.protoHandler := by simp [closeNow]
  have hwt : (closeClosWt e c).s.rx = c.s.rx ∧
      (closeClosWt e c).s.protoHandler = c.s.protoHandler := by simp [closeClosWt]
  unfold tcpClose
  split_ifs with hip htx
  · exact ⟨rfl, rfl⟩
  · cases c.s.state <;> simp [tcpUnthread, hwt, hlater]
  · cases c.s.state <;> simp [tcpUnthread, hwt, hnow]

@[simp] theorem tcpClose_rx (e : Env) (c : Conn) : (tcpClose e c).s.rx = c.s.rx :=
  (tcpClose_frame e c).1

/-- The state `_tcp_close` leaves. -/
def closeState (s : TcpSocket) : TcpState :=
  if s.ipType ≠ tcpProto then s.state else
  match s.state with
  | .estab | .synrec => if s.tx.txDatalen ≠ 0 then .estcl else .finwt1
  | .estcl => if s.tx.txDatalen ≠ 0 then .estcl else .finwt1
  | .closwt => .lastack
  | .resolve | .synsent => .closed
  | st => st

@[simp] theorem tcpClose_state (e : Env) (c : Conn) : (tcpClose e c).s.state = closeState c.s := by
  unfold tcpClose closeState closeLater
  rcases hs : c.s.state with _ | _ | _ | _ | _ | _ | _ | _ | _ | _ | _ | _ | _ <;>
    split_ifs <;> simp_all [closeNow, closeClosWt, tcpUnthread, unthread, TcpState.code]

/-- The reset of `_tcp_abort`, in SYNSENT to LASTACK. -/
def abortReset (e : Env) (c : Conn) : Conn :=
  (tcpSend e (c.upd fun s => { s with
    flags := { rst := true, ack := true }
    unhappy := true
    rtt := if s.state.code ≤ TcpState.synrec.code then { s.rtt with rttTime := 0 } else s.rtt
    tx := { s.tx with txDatalen := 0 } })).1

/-- `_tcp_abort`. -/
def tcpAbort (e : Env) (c : Conn) : Conn :=
  let c := if TcpState.synsent.code ≤ c.s.state.code ∧ c.s.state.code ≤ TcpState.lastack.code then
    abortReset e c else c
  tcpUnthread true (c.upd fun s => { s with
    unhappy := false
    ipType := 0
    tx := { s.tx with txDatalen := 0 } })

/-- `tcp_sockreset`. A server's control block listens again, with `send_next` as it is, and starts a
new record. -/
def tcpSockreset (c : Conn) : Conn :=
  let c := c.upd fun s => { s with
    rx := { s.rx with
      rxDatalen := if s.state ≠ .closed ∧ s.state ≠ .lastack then 0 else s.rx.rxDatalen
      missedSeq0 := 0
      missedSeq1 := 0 }
    tx := { s.tx with txDatalen := 0 } }
  if c.s.locflags.isServer then
    { c with
      s := { c.s with
        rtt := { c.s.rtt with cwindow := 1, rttTime := 0, karnCount := 0 }
        unhappy := false
        hisport := 0
        hisaddr := 0
        locflags := { c.s.locflags with winupdate := false, keepalive := false, gotFin := false }
        datatimer := 0
        inactiveTo := 0
        timeout := 0
        state := .listen }
      calls := []
      iss := c.s.tx.sendNext
      accepted := []
      acked := 0 }
  else tcpUnthread true (c.upd fun s => { s with state := .closed, ipType := 0 })

/-- `_tcp_send_reset`: the answer to a segment without a connection. -/
def tcpSendReset (e : Env) (c : Conn) (seg : InSegment) : Conn :=
  let f := seg.hdr.flags
  if ¬ e.rstAllowed ∨ (f = {} ∧ seg.flagsHi = 0) ∨ f.rst then c else
  let hdr : TcpHeader :=
    { srcPort := seg.hdr.dstPort
      dstPort := seg.hdr.srcPort
      seqnum := if f.ack then seg.hdr.acknum else 0
      acknum := if f.ack then 0
        else if f.syn then seg.hdr.seqnum + 1
        else seg.hdr.seqnum + seg.tcpLen.setWidth 32 - BitVec.ofNat 32 seg.hdr.dataOfs
      offset := if c.s.secret.isSome then 10 else 5
      flags := { rst := true, ack := f.syn && !f.ack }
      window := 0 }
  { c with resets := c.resets ++ [hdr] }

end Watt32.Tcp
