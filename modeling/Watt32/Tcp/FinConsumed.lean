import Watt32.Tcp.Outstanding

/-!
# A FIN behind accepted data

FINWT1 and FINWT2 compare a segment's number with `recv_next` after `tcp_process_data` has moved
`recv_next` over its data.

* `Accepted`: `tcp_process_data` takes all data of the segment, in order.
* `Consumed`: `recv_next` ends behind the FIN and the state is CLOSING or TIMEWT.
* **`fin_consumed_iff`**: the FIN of an accepted segment is consumed exactly if no data come before
  it and the segment acknowledges what the state asks for.
-/

namespace Watt32.Tcp

open Machine

variable {e : Env} {c : Conn} {seg : InSegment}

/-- `tcp_process_data` takes all data of the segment, in order, and no block is left. -/
def Accepted (e : Env) (c : Conn) (seg : InSegment) : Prop :=
  let b := (tcpProcessData e c.s seg seg.hdr.flags).1.rx
  (arrival c.s.rx seg seg.hdr.flags = .inOrder ∨ seg.dataLen = 0) ∧
    b.recvNext = seg.hdr.seqnum + seg.len ∧ b.missedSeq0 = b.missedSeq1

/-- The FIN is counted and the connection left for CLOSING or TIMEWT. -/
def Consumed (c' : Conn) (seg : InSegment) : Prop :=
  c'.s.rx.recvNext = seg.hdr.seqnum + seg.len + 1 ∧ c'.s.state ∈ [.closing, .timewt]

/-- The FIN stands alone, in a segment with the ACK the state asks for. -/
def FinAlone (s : TcpSocket) (seg : InSegment) : Prop :=
  seg.dataLen = 0 ∧ seg.hdr.flags.ack ∧ (s.state = .finwt2 → seg.hdr.acknum = s.tx.sendNext)

instance (e : Env) (c : Conn) (seg : InSegment) : Decidable (Accepted e c seg) := by
  unfold Accepted; infer_instance

instance (c' : Conn) (seg : InSegment) : Decidable (Consumed c' seg) := by
  unfold Consumed; infer_instance

/-! ## Accepted data -/

/-- Nothing but the receive buffer decides what is accepted. -/
theorem accepted_congr {c' : Conn} (hrx : c'.s.rx = c.s.rx) (hh : c'.s.protoHandler = c.s.protoHandler) :
    Accepted e c' seg ↔ Accepted e c seg := by
  unfold Accepted
  rw [tcpProcessData_rx, tcpProcessData_rx, hrx, hh]

/-- Accepted data leave the flags as they are. -/
theorem Accepted.flags (h : Accepted e c seg) :
    (processData e c seg seg.hdr.flags).2.2 = seg.hdr.flags := by
  have hne : arrival c.s.rx seg seg.hdr.flags ≠ .outOfOrder := by
    rcases h.1 with ha | h0
    · rw [ha]; nofun
    · exact fun ha => h0.not_gt (arrival_outOfOrder_iff.mp ha).1.2.2
  show (tcpProcessData e c.s seg seg.hdr.flags).2.2 = _
  rw [tcpProcessData_result, if_neg hne]

/-- The test of both states: the segment starts where its data end. -/
theorem Accepted.seqnum_iff (h : Accepted e c seg) :
    seg.hdr.seqnum = (processData e c seg seg.hdr.flags).1.s.rx.recvNext ↔ seg.dataLen = 0 := by
  show seg.hdr.seqnum = (tcpProcessData e c.s seg seg.hdr.flags).1.rx.recvNext ↔ _
  rw [h.2.1, left_eq_add, InSegment.len_eq_zero]

theorem Accepted.unblocked (h : Accepted e c seg) :
    (processData e c seg seg.hdr.flags).1.s.rx.missedSeq0 =
      (processData e c seg seg.hdr.flags).1.s.rx.missedSeq1 := h.2.2

theorem Accepted.recvNext (h : Accepted e c seg) :
    (processData e c seg seg.hdr.flags).1.s.rx.recvNext = seg.hdr.seqnum + seg.len := h.2.1

/-! ## The two states -/

/-- A connection in neither state has not consumed anything. -/
theorem not_consumed {c' : Conn} (h : c'.s.state = .finwt1 ∨ c'.s.state = .finwt2) : ¬ Consumed c' seg := by
  rintro ⟨-, hs⟩
  rcases h with h | h <;> rw [h] at hs <;> revert hs <;> decide

/-- **FINWT1** takes a FIN that stands alone. -/
theorem tcpFinwt1State_consumed_iff (hs : c.s.state = .finwt1) (hfin : seg.hdr.flags.fin)
    (h : Accepted e c seg) :
    Consumed (tcpFinwt1State e c seg seg.hdr.flags).1 seg ↔ seg.dataLen = 0 ∧ seg.hdr.flags.ack := by
  have h' : Accepted e (finwt1Ack c seg.hdr.acknum) seg := (accepted_congr (by simp) (by simp)).mpr h
  have hst : (processData e (finwt1Ack c seg.hdr.acknum) seg seg.hdr.flags).1.s.state = .finwt1 := by
    simpa [processData] using hs
  have hseq := h'.seqnum_iff
  have hend := h'.recvNext
  have hm := h'.unblocked
  have hfl := h'.flags
  unfold tcpFinwt1State
  generalize processData e (finwt1Ack c seg.hdr.acknum) seg seg.hdr.flags = r at *
  have hself : ¬ Consumed r.1 seg := not_consumed (.inl hst)
  dsimp only
  rw [hfl]
  cases hack : seg.hdr.flags.ack with
  | false =>
    rw [if_neg (by simp), if_neg (by simp)]
    exact iff_of_false hself (by simp)
  | true =>
    rw [if_pos ⟨hm, hfin, rfl⟩]
    by_cases h0 : seg.dataLen = 0
    · rw [if_pos (hseq.mpr h0)]
      refine iff_of_true ⟨?_, ?_⟩ ⟨h0, rfl⟩
      · rw [finwt1Fin_rx, ← hend]
      · rw [finwt1Fin_state]
        split_ifs <;> decide
    · rw [if_neg (hseq.not.mpr h0)]
      exact iff_of_false hself fun h => h0 h.1

/-- **FINWT2** takes a FIN that stands alone, with the ACK number at `send_next`. -/
theorem tcpFinwt2State_consumed_iff (hs : c.s.state = .finwt2) (h : Accepted e c seg) :
    Consumed (tcpFinwt2State e c seg seg.hdr.flags).1 seg ↔
      seg.dataLen = 0 ∧ seg.hdr.flags.ack ∧ seg.hdr.acknum = c.s.tx.sendNext := by
  have hst : (processData e c seg seg.hdr.flags).1.s.state = .finwt2 := by simpa [processData] using hs
  have hnext : (processData e c seg seg.hdr.flags).1.s.tx.sendNext = c.s.tx.sendNext := by
    simp [processData]
  have hseq := h.seqnum_iff
  have hend := h.recvNext
  have hm := h.unblocked
  have hfl := h.flags
  unfold tcpFinwt2State
  generalize processData e c seg seg.hdr.flags = r at *
  dsimp only
  rw [hfl, if_neg (not_not.mpr hm)]
  generalize hr : (if seg.hdr.flags.fin = true then _ else r.1 : Conn) = r'
  have hr' : r'.s.rx = r.1.s.rx ∧ r'.s.tx = r.1.s.tx ∧ r'.s.state = .finwt2 := by
    subst hr
    refine ⟨?_, ?_, ?_⟩ <;> split_ifs <;> first | rfl | exact hst
  rw [hr'.1, hr'.2.1, hnext]
  by_cases hok : seg.hdr.flags.ack ∧ seg.hdr.acknum = c.s.tx.sendNext ∧ seg.hdr.seqnum = r.1.s.rx.recvNext
  · rw [if_pos hok]
    refine iff_of_true ⟨?_, ?_⟩ ⟨hseq.mp hok.2.2, hok.1, hok.2.1⟩
    · rw [tcpSend_rx, Conn.upd_s, hr'.1, ← hend]
    · simp
  · rw [if_neg hok]
    exact iff_of_false (not_consumed (.inr hr'.2.2)) fun h => hok ⟨h.2.1, h.2.2, hseq.mpr h.1⟩

/-- **A FIN behind accepted data** is consumed exactly if it stands alone: FINWT1 and FINWT2 do not
find a FIN that comes with data, since `recv_next` has left the segment's number behind. -/
theorem fin_consumed_iff (e : Env) (c : Conn) (seg : InSegment)
    (hs : c.s.state = .finwt1 ∨ c.s.state = .finwt2) (hfin : seg.hdr.flags.fin) (h : Accepted e c seg) :
    Consumed (tcpFsm e c seg).1 seg ↔ FinAlone c.s seg := by
  unfold tcpFsm FinAlone
  rcases hs with hs | hs
  · rw [hs]
    dsimp only
    rw [tcpFinwt1State_consumed_iff hs hfin h]
    simp
  · rw [hs]
    dsimp only
    rw [tcpFinwt2State_consumed_iff hs h]
    simp

/-! ## A byte and a FIN -/

/-- We have closed, and the peer has acknowledged our FIN. -/
def closedConn : Conn :=
  run stepConn (establishedConn []) [⟨{}, .close⟩, ⟨{}, .segment (peerSegment { ack := true } 1000 2 0)⟩]

/-- A FIN of its own at `recv_next`. -/
theorem fin_consumed_alone : Consumed (tcpFsm {} closedConn (peerSegment flagFinAck 1000 2 0)).1
      (peerSegment flagFinAck 1000 2 0) ↔ FinAlone closedConn.s (peerSegment flagFinAck 1000 2 0) :=
  fin_consumed_iff {} closedConn (peerSegment flagFinAck 1000 2 0) (by decide +kernel) (by decide +kernel)
    (by decide +kernel)

/-- In FINWT2, one byte and the FIN behind it: the byte is accepted, the FIN is not seen. -/
theorem fin_behind_byte : ¬ ∀ (e : Env) (c : Conn) (seg : InSegment),
    c.s.state = .finwt1 ∨ c.s.state = .finwt2 → seg.hdr.flags.fin → Accepted e c seg →
      Consumed (tcpFsm e c seg).1 seg := by
  intro h
  have := h {} closedConn (peerSegment flagFinAck 1000 2 1) (by decide +kernel) (by decide +kernel)
    (by decide +kernel)
  revert this
  decide +kernel

end Watt32.Tcp
