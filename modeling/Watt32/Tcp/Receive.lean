import Watt32.Tcp.Socket

/-!
# Segment processing

The part of `tcp_fsm.c` below the state functions.

* `copyInOrder`, `dataInOrder`, `prependOutOfOrder`, `appendOutOfOrder`, `dataOutOfOrder`: the
  receive buffer and its one out-of-order block.
* `tcpProcessOptions`, `tcpSetWindow`, `tcpProcessData`: a segment's options, window and data.
* `tcpProcessAck`: its acknowledgment number.
-/

namespace Watt32.Tcp

/-! ## The receive buffer -/

/-- `copy_in_order`; `data` is an index into the segment. -/
def copyInOrder (b : RxBuf) (seg : InSegment) (data : ℕ) (len : Dword) : RxBuf :=
  { b with
    rxData := Mem.blit b.rxData b.rxDatalen.toNat seg.mem data len.toNat
    copies := b.copies ++ [⟨b.rxDatalen.toNat, data, len.toNat⟩]
    recvNext := b.recvNext + len
    rxDatalen := b.rxDatalen + len }

/-- `missed_seq[0] != missed_seq[1]`. -/
def RxBuf.blocked (b : RxBuf) : Bool := b.missedSeq0 ≠ b.missedSeq1

/-- The case `(3)`/`(4)` of `data_in_order`: `data` reaches the out-of-order block. -/
def catchUp (b : RxBuf) (seg : InSegment) (data : ℕ) (len : Dword) : RxBuf :=
  let msEnd := b.missedSeq1 - b.recvNext
  let b₁ := copyInOrder b seg data (b.missedSeq0 - b.recvNext)
  let b₂ := { b₁ with
    rxDatalen := b₁.rxDatalen + (b.missedSeq1 - b.missedSeq0)
    recvNext := b.missedSeq1
    missedSeq0 := 0
    missedSeq1 := 0 }
  if msEnd < len then copyInOrder b₂ seg (data + msEnd.toNat) (len - msEnd) else b₂

/-- `data_in_order`. -/
def dataInOrder (h : Option ProtoHandler) (b : RxBuf) (seg : InSegment) (data : ℕ)
    (len diff : Dword) : RxBuf :=
  let data := data + diff.toNat
  let len := len - diff
  match h with
  | some f => { b with recvNext := b.recvNext + f (Mem.slice seg.mem data len.toNat) }
  | none =>
    if b.missedSeq0 = b.missedSeq1 ∨ b.recvNext + len < b.missedSeq0 then
      copyInOrder b seg data len
    else catchUp b seg data len

/-- `prepend_out_of_order`. -/
def prependOutOfOrder (b : RxBuf) (seg : InSegment) (data : ℕ) (len : Dword) : RxBuf :=
  let start := b.missedSeq0 - b.recvNext + b.rxDatalen - len
  { b with
    rxData := Mem.blit b.rxData start.toNat seg.mem data len.toNat
    copies := b.copies ++ [⟨start.toNat, data, len.toNat⟩]
    missedSeq0 := b.missedSeq0 - len }

/-- `append_out_of_order`. -/
def appendOutOfOrder (b : RxBuf) (seg : InSegment) (data : ℕ) (len : Dword) : RxBuf :=
  let start := b.missedSeq1 - b.recvNext + b.rxDatalen
  { b with
    rxData := Mem.blit b.rxData start.toNat seg.mem data len.toNat
    copies := b.copies ++ [⟨start.toNat, data, len.toNat⟩]
    missedSeq1 := b.missedSeq1 + len }

/-- `data_out_of_order`. -/
def dataOutOfOrder (b : RxBuf) (seg : InSegment) (data : ℕ) (len diff : Dword) : RxBuf :=
  if b.missedSeq0 = b.missedSeq1 then
    appendOutOfOrder { b with missedSeq0 := seg.hdr.seqnum, missedSeq1 := seg.hdr.seqnum }
      seg data len
  else if seg.hdr.seqnum = b.missedSeq1 then appendOutOfOrder b seg data len
  else
    -- both tests use the block as it was on entry
    let left := b.missedSeq0 - b.recvNext
    let right := b.missedSeq1 - b.recvNext
    let b₁ := if diff < left ∧ left ≤ diff + len then
      prependOutOfOrder b seg data (left - diff) else b
    if diff ≤ right ∧ right < diff + len then
      appendOutOfOrder b₁ seg (data + right.toNat - diff.toNat) (diff + len - right) else b₁

/-! ## Options and window -/

/-- `intel16 (*(WORD*)p)`. -/
def readWord (m : ℕ → Byte) (p : ℕ) : Word := m p ++ m (p + 1)

/-- `intel (*(DWORD*)p)`. -/
def readDword (m : ℕ → Byte) (p : ℕ) : Dword := m p ++ m (p + 1) ++ m (p + 2) ++ m (p + 3)

/-- The loop of `tcp_process_options`, `num` options at most. -/
def processOptions (seg : InSegment) (tcpData : ℕ) (flags : TcpFlags) :
    (num : ℕ) → (opt : ℕ) → TcpSocket → TcpSocket
  | 0, _, s => s
  | num + 1, opt, s =>
    if tcpData ≤ opt then s else
    match (seg.mem opt).toNat with
    | 0 => s
    | 1 => processOptions seg tcpData flags num (opt + 1) s
    | 2 =>
      let maxSeg : Dword := (readWord seg.mem (opt + 2)).setWidth 32
      let s := if flags.syn ∧ (s.maxSeg = 0 ∨ maxSeg < s.maxSeg) then { s with maxSeg := maxSeg }
        else s
      processOptions seg tcpData flags num (opt + 4) s
    | 8 =>
      let s := if flags.syn ∨ (flags.ack ∧ seg.hdr.seqnum - s.rx.recvNext ≠ 0) then
        { s with
          tsRecent := readDword seg.mem (opt + 2)
          tsEcho := readDword seg.mem (opt + 6)
          locflags := { s.locflags with useTstamp := true } } else s
      processOptions seg tcpData flags num (opt + 10) s
    | 3 =>
      let s := if flags.syn then
        { s with
          rxWscale := if 14 < (seg.mem (opt + 2)).toNat then 14 else seg.mem (opt + 2)
          locflags := { s.locflags with rcvdScale := true } } else s
      processOptions seg tcpData flags num (opt + 3) s
    | 4 =>
      let s := if flags.syn then { s with locflags := { s.locflags with sackPermit := true } } else s
      processOptions seg tcpData flags num (opt + 2) s
    | 14 => processOptions seg tcpData flags num (opt + 3) s
    | _ => processOptions seg tcpData flags num (opt + (seg.mem (opt + 1)).toNat) s

/-- `tcp_process_options`. -/
def tcpProcessOptions (s : TcpSocket) (seg : InSegment) (tcpData : ℕ) (flags : TcpFlags) :
    TcpSocket :=
  processOptions seg tcpData flags 10 20 { s with locflags := { s.locflags with useTstamp := false } }

/-- `tcp_set_window`. -/
def tcpSetWindow (e : Env) (s : TcpSocket) (hdr : TcpHeader) : TcpSocket :=
  let window : Dword := hdr.window.setWidth 32
  let window := if maxWindow < window then maxWindow else window
  let s := { s with window := window }
  if s.tx.txLoc = .txBuf ∧ s.tx.maxTxData < s.window then
    match e.heap with
    | none => s
    | some buf =>
      let data := if s.tx.txDatalen ≠ 0 then Mem.blit buf 0 s.tx.txData 0 s.tx.txDatalen.toNat
        else buf
      { s with tx := { s.tx with
        txData := data, txLoc := .heap, maxTxData := (s.window.setWidth 16).setWidth 32 - 1 } }
  else s

/-! ## Data -/

/-- `tcp->offset << 2`. -/
def TcpHeader.dataOfs (h : TcpHeader) : ℕ := 4 * h.offset.toNat

/-- The length of the segment's data, 0 when the header alone is longer than the segment. -/
def InSegment.dataLen (seg : InSegment) : ℕ := seg.tcpLen.toNat - seg.hdr.dataOfs

/-- `if (s->stress > 0) s->stress--`. -/
def spendStress (s : TcpSocket) : TcpSocket :=
  { s with stress := if 0 < s.stress then s.stress - 1 else s.stress }

/-- The part of `tcp_process_data` before the data: window and options. -/
def processHeader (e : Env) (s : TcpSocket) (seg : InSegment) (flags : TcpFlags) : TcpSocket :=
  let s := tcpSetWindow e (spendStress s) seg.hdr
  if seg.hdr.dataOfs ≠ 20 then tcpProcessOptions s seg seg.hdr.dataOfs flags else s

/-- The packet ends above the receive buffer, or below `recv_next`. -/
def outsideWindow (b : RxBuf) (len ldiff : Dword) : Bool :=
  b.maxRxData - b.rxDatalen < len - ldiff ∨ len.toInt < ldiff.toInt

/-- `tcp_process_data`: the control block, the result and the flags it leaves. -/
def tcpProcessData (e : Env) (s : TcpSocket) (seg : InSegment) (flags : TcpFlags) :
    TcpSocket × ℤ × TcpFlags :=
  let ldiff := s.rx.recvNext - seg.hdr.seqnum
  let s := processHeader e s seg flags
  let s : TcpSocket := { s with rx := { s.rx with copies := [] } }
  let len : Dword := BitVec.ofNat 32 seg.dataLen
  if flags.syn ∨ flags.rst then (s, 0, flags)
  else if len = 0 then (s, 0, flags)
  else if outsideWindow s.rx len ldiff then (s, 0, flags)
  else if 0 ≤ ldiff.toInt then
    ({ s with
      rx := dataInOrder s.protoHandler s.rx seg seg.hdr.dataOfs len ldiff
      unhappy := 0 < s.tx.txDatalen }, 0, flags)
  else
    ({ s with
      rx := dataOutOfOrder s.rx seg seg.hdr.dataOfs len (-ldiff)
      unhappy := true }, -1, { flags with fin := false })

/-! ## Acknowledgments -/

/-- `min` on two `long`s. -/
def minLong (a b : Dword) : Dword := if a.toInt < b.toInt then a else b

/-- The test of `tcp_process_ACK`: the number lies in the current window. -/
def ackInWindow (s : TcpSocket) (acknum : Dword) : Bool :=
  0 ≤ (acknum - s.tx.sendNext).toInt ∧ acknum - s.tx.sendNext ≤ s.tx.txDatalen

/-- `tcp_process_ACK` for a number in the current window. -/
def discardAcked (s : TcpSocket) (acknum : Dword) : TcpSocket :=
  let ldiff := acknum - s.tx.sendNext
  let tx := if s.tx.txQueuelen ≠ 0 then
      { s.tx with
        txQueue := fun i => s.tx.txQueue (i + ldiff.toNat)
        txQueuelen := s.tx.txQueuelen - ldiff }
    else if ldiff < s.tx.txDatalen ∧ 0 < ldiff.toInt then
      { s.tx with
        txData := Mem.blit s.tx.txData 0 s.tx.txData ldiff.toNat (s.tx.txDatalen - ldiff).toNat }
    else s.tx
  let diff := minLong ldiff s.tx.txDatalen
  let s : TcpSocket := { s with
    tx := { tx with txDatalen := s.tx.txDatalen - diff, sendNext := s.tx.sendNext + ldiff }
    sendUna := s.sendUna - diff.toInt }
  if s.sendUna = 0 ∧ s.tx.txDatalen = 0 then { s with rtt := { s.rtt with rttTime := 0 } } else s

/-- `tcp_process_ACK`: the control block and the result; `*unacked` is `acknum - send_next`. -/
def tcpProcessAck (c : Conn) (acknum : Dword) : Conn × Bool :=
  if ackInWindow c.s acknum then
    ({ c with
      s := discardAcked c.s acknum
      acked := c.acked + (acknum - c.s.tx.sendNext).toNat }, true)
  else (c, false)

section Ack

variable (s : TcpSocket) (acknum : Dword)

/-- The control block without what an acknowledgment changes. -/
def TcpSocket.ackCore (s : TcpSocket) : TcpSocket :=
  { s with tx := { s.tx with txData := fun _ => 0, txQueue := fun _ => 0, txQueuelen := 0
                             txDatalen := 0, sendNext := 0 }
           sendUna := 0, rtt := {} }

theorem discardAcked_core : (discardAcked s acknum).ackCore = s.ackCore := by
  unfold discardAcked
  dsimp only
  split_ifs <;> rfl

@[simp] theorem discardAcked_sendNext : (discardAcked s acknum).tx.sendNext = acknum := by
  unfold discardAcked
  dsimp only
  split_ifs <;> exact add_sub_cancel _ _

end Ack

/-- **An acknowledgment** touches the transmit side only. -/
theorem tcpProcessAck_core (c : Conn) (acknum : Dword) :
    (tcpProcessAck c acknum).1.s.ackCore = c.s.ackCore := by
  unfold tcpProcessAck
  split_ifs
  · exact discardAcked_core _ _
  · rfl

end Watt32.Tcp
