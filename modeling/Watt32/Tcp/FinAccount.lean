import Watt32.Tcp.Calls
import Watt32.Tcp.Stream

/-!
# Sequence accounting of received FINs

ESTAB, FINWT1 and FINWT2 move `recv_next` over a FIN by three different tests, each made after
`tcp_process_data`.

* `FinLaw`: `recv_next` advances by the bytes appended, and by one more only for a FIN whose
  sequence number has been reached.
* `FinOk`: the segments for which the tests decide rightly, in terms of the state before.
* **`fin_accounting_iff`**: a run obeys the law throughout exactly if its segments are `FinOk`.
-/

namespace Watt32.Tcp

open Machine

/-- The segment moves `recv_next` by the bytes appended and closes nothing, or it carries a FIN,
all its data have been accepted, no block is left, and `recv_next` moves by one more. -/
def FinLaw (c c' : Conn) (seg : InSegment) : Prop :=
  let appended := c'.s.rx.rxDatalen - c.s.rx.rxDatalen
  (c'.s.rx.recvNext = c.s.rx.recvNext + appended ∧
    c'.s.state ∉ [.lastack, .closing, .timewt]) ∨
  (c'.s.rx.recvNext = c.s.rx.recvNext + appended + 1 ∧ seg.hdr.flags.fin ∧
    seg.hdr.seqnum + seg.len = c.s.rx.recvNext + appended ∧
    c'.s.rx.missedSeq0 = c'.s.rx.missedSeq1)

instance FinLaw.decidable (c c' : Conn) (seg : InSegment) : Decidable (FinLaw c c' seg) :=
  inferInstanceAs (Decidable ((_ ∧ _) ∨ (_ ∧ _)))

/-- In-order data that reach the block and end before its end. -/
def EndsInBlock (b : RxBuf) (seg : InSegment) : Prop :=
  arrival b seg seg.hdr.flags = .inOrder ∧ b.missedSeq0 ≠ b.missedSeq1 ∧
    ¬ b.recvNext + (seg.len - b.ldiff seg) < b.missedSeq0 ∧
    seg.len - b.ldiff seg < b.missedSeq1 - b.recvNext

/-- The segment carries nothing that is accepted and no block is buffered. -/
def NothingTaken (b : RxBuf) (seg : InSegment) : Prop :=
  arrival b seg seg.hdr.flags = .ignored ∧ b.missedSeq0 = b.missedSeq1

/-- The window of the test in `tcp_estab_state`. -/
def inAdvWin (s : TcpSocket) (seqnum x : Dword) : Prop :=
  seqGeq x seqnum ∧ seqLt x (seqnum + s.advWin)

/-- What ESTAB and ESTCL need: a FIN that passes the window test is one that has been reached. -/
def EstabFinOk (s : TcpSocket) (seg : InSegment) : Prop :=
  seg.hdr.flags.ack → ¬ seg.hdr.flags.syn → seg.hdr.flags.fin →
    (NothingTaken s.rx seg → inAdvWin s seg.hdr.seqnum s.rx.recvNext →
      seg.hdr.seqnum + seg.len = s.rx.recvNext) ∧
    (EndsInBlock s.rx seg → ¬ inAdvWin s seg.hdr.seqnum s.rx.missedSeq1)

/-- What FINWT1 needs: a FIN with no data before it, and no ACK of our FIN one beyond. -/
def Finwt1FinOk (s : TcpSocket) (seg : InSegment) : Prop :=
  seg.hdr.flags.ack →
    (NothingTaken s.rx seg → seg.hdr.flags.fin → seg.hdr.seqnum = s.rx.recvNext →
      seg.dataLen = 0) ∧
    (EndsInBlock s.rx seg → seg.hdr.flags.fin → seg.hdr.seqnum ≠ s.rx.missedSeq1) ∧
    (seg.hdr.acknum = s.tx.sendNext + 1 → s.tx.txDatalen = 0 →
      (arrival s.rx seg seg.hdr.flags ≠ .inOrder → seg.hdr.seqnum = s.rx.recvNext + 1 →
        NothingTaken s.rx seg ∧ seg.hdr.flags.fin) ∧
      (EndsInBlock s.rx seg → seg.hdr.seqnum = s.rx.missedSeq1 + 1 → seg.hdr.flags.fin))

/-- What FINWT2 needs: the expected ACK at `recv_next` carries a FIN and no data. -/
def Finwt2FinOk (s : TcpSocket) (seg : InSegment) : Prop :=
  seg.hdr.flags.ack → seg.hdr.acknum = s.tx.sendNext →
    (NothingTaken s.rx seg → seg.hdr.seqnum = s.rx.recvNext →
      seg.hdr.flags.fin ∧ seg.dataLen = 0) ∧
    (EndsInBlock s.rx seg → seg.hdr.seqnum ≠ s.rx.missedSeq1)

/-- What the segment needs in the state it finds. -/
def FinOk (s : TcpSocket) (seg : InSegment) : Prop :=
  match s.state with
  | .estab | .estcl => EstabFinOk s seg
  | .finwt1 => Finwt1FinOk s seg
  | .finwt2 => Finwt2FinOk s seg
  | _ => True

/-! ## Where the data leave `recv_next` -/

/-- Where the stream starts in sequence numbers, kept by everything but a FIN. -/
def RxBuf.base (b : RxBuf) : Dword := b.recvNext - b.rxDatalen

section Data

variable {b : RxBuf} {seg : InSegment}

theorem inOrder_end : b.recvNext + (seg.len - b.ldiff seg) = seg.hdr.seqnum + seg.len := by
  unfold RxBuf.ldiff; ring

/-- In-order data end at their own end, or at the end of the block they join. -/
theorem dataInOrder_recvNext (ha : arrival b seg seg.hdr.flags = .inOrder) :
    let b' := dataInOrder none { b with copies := [] } seg seg.hdr.dataOfs seg.len (b.ldiff seg)
    (¬ EndsInBlock b seg ∧ b'.recvNext = seg.hdr.seqnum + seg.len) ∨
    (EndsInBlock b seg ∧ b'.recvNext = b.missedSeq1 ∧ b'.missedSeq0 = b'.missedSeq1) := by
  intro b'
  have hend := @inOrder_end b seg
  by_cases hc : b.missedSeq0 = b.missedSeq1 ∨ b.recvNext + (seg.len - b.ldiff seg) < b.missedSeq0
  · left
    refine ⟨fun h => ?_, ?_⟩
    · exact hc.elim h.2.1 h.2.2.1
    · have : b' = copyInOrder { b with copies := [] } seg _ _ := if_pos hc
      rw [this, ← hend]
      rfl
  · have hb' : b' = catchUp { b with copies := [] } seg _ _ := if_neg hc
    rw [not_or] at hc
    by_cases hlt : b.missedSeq1 - b.recvNext < seg.len - b.ldiff seg
    · left
      refine ⟨fun h => absurd h.2.2.2 (BitVec.not_lt.mpr (BitVec.le_of_lt hlt)), ?_⟩
      rw [hb', catchUp, if_pos hlt, ← hend]
      simp only [copyInOrder]
      ring
    · have hr : b'.recvNext = b.missedSeq1 := by rw [hb', catchUp, if_neg hlt]
      have hm : b'.missedSeq0 = b'.missedSeq1 := by rw [hb', catchUp, if_neg hlt]
      rcases eq_or_ne (seg.len - b.ldiff seg) (b.missedSeq1 - b.recvNext) with heq | hne
      · left
        refine ⟨fun h => absurd h.2.2.2 (heq ▸ BitVec.lt_irrefl _), ?_⟩
        rw [hr, ← hend, heq]
        ring
      · exact .inr ⟨⟨ha, hc.1, hc.2, BitVec.lt_of_le_ne (BitVec.not_lt.mp hlt) hne⟩, hr, hm⟩

/-- The end of the data differs from the end of the block they end in. -/
theorem EndsInBlock.ne (h : EndsInBlock b seg) : seg.hdr.seqnum + seg.len ≠ b.missedSeq1 := by
  intro heq
  have hlt := h.2.2.2
  rw [← heq, ← inOrder_end (b := b), add_sub_cancel_left] at hlt
  exact BitVec.lt_irrefl _ hlt

end Data

/-- The four things that can happen to a segment's data. -/
inductive DataOutcome (b b' : RxBuf) (seg : InSegment) : Prop
  | ignored (ha : arrival b seg seg.hdr.flags = .ignored) (hr : b'.recvNext = b.recvNext)
      (hm : b'.missedSeq0 = b'.missedSeq1 ↔ b.missedSeq0 = b.missedSeq1)
  | outOfOrder (ha : arrival b seg seg.hdr.flags = .outOfOrder) (hr : b'.recvNext = b.recvNext)
  | inOrder (ha : arrival b seg seg.hdr.flags = .inOrder) (hb : ¬ EndsInBlock b seg)
      (hr : b'.recvNext = seg.hdr.seqnum + seg.len)
  | inBlock (hb : EndsInBlock b seg) (hr : b'.recvNext = b.missedSeq1)
      (hm : b'.missedSeq0 = b'.missedSeq1)

theorem processRx_outcome (b : RxBuf) (seg : InSegment) :
    DataOutcome b (processRx none b seg seg.hdr.flags) seg := by
  have hcopies : arrival { b with copies := [] } seg seg.hdr.flags =
    arrival b seg seg.hdr.flags := rfl
  unfold processRx
  dsimp only
  rw [hcopies]
  rcases ha : arrival b seg seg.hdr.flags with _ | _ | _
  · exact .ignored ha rfl Iff.rfl
  · rcases dataInOrder_recvNext ha with ⟨hb, hr⟩ | ⟨hb, hr, hm⟩
    · exact .inOrder ha hb hr
    · exact .inBlock hb hr hm
  · exact .outOfOrder ha dataOutOfOrder_frame.1

/-! ## The law from the buffer -/

section Law

variable {c c' : Conn} {seg : InSegment} {b : RxBuf}

theorem finLaw_of_kept (hb : c'.s.rx.base = c.s.rx.base)
    (hs : c'.s.state ∉ [.lastack, .closing, .timewt]) : FinLaw c c' seg := by
  refine .inl ⟨?_, hs⟩
  have : c'.s.rx.recvNext = c'.s.rx.base + c'.s.rx.rxDatalen := by unfold RxBuf.base; ring
  rw [this, hb, RxBuf.base]
  ring

theorem finLaw_taken_iff (hb : b.base = c.s.rx.base)
    (hc : c'.s.rx = { b with recvNext := b.recvNext + 1 }) : FinLaw c c' seg ↔
      seg.hdr.flags.fin ∧ seg.hdr.seqnum + seg.len = b.recvNext ∧ b.missedSeq0 = b.missedSeq1 := by
  have hr : c.s.rx.recvNext + (b.rxDatalen - c.s.rx.rxDatalen) = b.recvNext := by
    have : b.recvNext = b.base + b.rxDatalen := by unfold RxBuf.base; ring
    rw [this, hb, RxBuf.base]
    ring
  unfold FinLaw
  rw [hc]
  dsimp only
  rw [hr]
  simp

theorem finLaw_congr {c'' : Conn} (hrx : c''.s.rx = c'.s.rx)
    (hs : c''.s.state ∈ [TcpState.lastack, .closing, .timewt] ↔
      c'.s.state ∈ [TcpState.lastack, .closing, .timewt]) : FinLaw c c'' seg ↔ FinLaw c c' seg := by
  unfold FinLaw
  rw [hrx, hs]

end Law

/-- The receive buffer and the result of `tcp_process_data` without a handler. -/
theorem processData_outcome {e : Env} {c : Conn} {seg : InSegment} (hh : c.s.protoHandler = none) :
    let r := processData e c seg seg.hdr.flags
    (r.1.s.rx.base = c.s.rx.base ∧ DataOutcome c.s.rx r.1.s.rx seg) ∧
    r.2 = if arrival c.s.rx seg seg.hdr.flags = .outOfOrder
      then (-1, { seg.hdr.flags with fin := false }) else (0, seg.hdr.flags) := by
  intro r
  have hrx : r.1.s.rx = processRx none c.s.rx seg seg.hdr.flags := hh ▸ tcpProcessData_rx e c.s seg _
  rw [hrx]
  exact ⟨⟨processRx_offset, processRx_outcome _ _⟩, tcpProcessData_result e c.s seg _⟩

/-! ## ESTAB -/

section Estab

variable (e : Env) (c : Conn) (seg : InSegment) (flags : TcpFlags) (acknum : Dword)

@[simp] theorem estabAck_rx : (estabAck c acknum).s.rx = c.s.rx :=
  (congrArg TcpSocket.rx (tcpProcessAck_core (c.upd fun s => { s with timeout := 0 }) acknum) :)

@[simp] theorem estabAck_state : (estabAck c acknum).s.state = c.s.state :=
  (congrArg TcpSocket.state (tcpProcessAck_core (c.upd fun s => { s with timeout := 0 }) acknum) :)

@[simp] theorem estabAck_advWin : (estabAck c acknum).s.advWin = c.s.advWin :=
  (congrArg TcpSocket.advWin (tcpProcessAck_core (c.upd fun s => { s with timeout := 0 }) acknum) :)

@[simp] theorem estabAck_protoHandler : (estabAck c acknum).s.protoHandler = c.s.protoHandler :=
  (congrArg TcpSocket.protoHandler
    (tcpProcessAck_core (c.upd fun s => { s with timeout := 0 }) acknum) :)

@[simp] theorem estabSendNow_rx : (estabSendNow e c).s.rx = c.s.rx := by
  unfold estabSendNow
  dsimp only
  split_ifs <;> simp [Conn.updRtt]

@[simp] theorem estabSendNow_state : (estabSendNow e c).s.state = c.s.state := by
  unfold estabSendNow
  dsimp only
  split_ifs <;> simp [Conn.updRtt]

variable (ldiff : Dword) (didTx : Bool)

@[simp] theorem estabReply_rx : (estabReply e c seg flags ldiff didTx).s.rx = c.s.rx := by
  unfold estabReply
  dsimp only
  split_ifs <;> simp

@[simp] theorem estabReply_state : (estabReply e c seg flags ldiff didTx).s.state = c.s.state := by
  unfold estabReply
  dsimp only
  split_ifs <;> simp

variable {e c seg flags} {seqnum : Dword}

theorem estabFin_taken (h : estabFinHere c.s seqnum flags)
    (hm : c.s.rx.missedSeq0 = c.s.rx.missedSeq1) : (estabFin e c seqnum flags).1.s.rx =
      { c.s.rx with recvNext := c.s.rx.recvNext + 1 } := by
  rw [estabFin, if_pos h, if_pos hm]
  simp

theorem estabFin_kept (h : ¬ (estabFinHere c.s seqnum flags ∧
    c.s.rx.missedSeq0 = c.s.rx.missedSeq1)) : (estabFin e c seqnum flags).1.s.rx = c.s.rx ∧
      (estabFin e c seqnum flags).1.s.state = c.s.state := by
  unfold estabFin
  split_ifs with h₁ h₂
  · exact absurd ⟨h₁, h₂⟩ h
  · simp
  · exact ⟨rfl, rfl⟩

theorem estabFinHere_iff {s : TcpSocket} : estabFinHere s seqnum flags ↔
    s.state ≠ .closwt ∧ flags.fin ∧ inAdvWin s seqnum s.rx.recvNext := by
  simp [estabFinHere, inAdvWin]

/-- The FIN part of ESTAB after data that are not out of order. -/
theorem estabFin_finLaw_iff {r : Conn} (hbase : r.s.rx.base = c.s.rx.base)
    (hout : DataOutcome c.s.rx r.s.rx seg)
    (ha : arrival c.s.rx seg seg.hdr.flags ≠ .outOfOrder) (hadv : r.s.advWin = c.s.advWin)
    (hst : r.s.state = c.s.state) (hs : c.s.state ∉ [TcpState.lastack, .closing, .timewt])
    (hack : seg.hdr.flags.ack) (hsyn : ¬ seg.hdr.flags.syn) :
    FinLaw c (estabFin e r seg.hdr.seqnum seg.hdr.flags).1 seg ↔
      (c.s.state = .closwt ∨ EstabFinOk c.s seg) := by
  have hwin : ∀ x, inAdvWin r.s seg.hdr.seqnum x ↔ inAdvWin c.s seg.hdr.seqnum x := by
    unfold inAdvWin
    simp [hadv]
  have hblock : EndsInBlock c.s.rx seg → arrival c.s.rx seg seg.hdr.flags = .inOrder := And.left
  by_cases htake : estabFinHere r.s seg.hdr.seqnum seg.hdr.flags ∧
      r.s.rx.missedSeq0 = r.s.rx.missedSeq1
  · rw [finLaw_taken_iff hbase (estabFin_taken htake.1 htake.2)]
    obtain ⟨hhere, hm⟩ := htake
    obtain ⟨hcw, hfin, hin⟩ := estabFinHere_iff.mp hhere
    rw [hst] at hcw
    rw [hwin] at hin
    unfold EstabFinOk NothingTaken
    cases hout with
    | ignored ha' hr hm' =>
      rw [hr] at hin
      have hnb : ¬ EndsInBlock c.s.rx seg := fun h => by cases (hblock h).symm.trans ha'
      simp only [hfin, hm, hr, hcw, hack, hsyn, ha', hm'.mp hm, hin, hnb]
      simp
    | outOfOrder ha' => exact absurd ha' ha
    | inOrder ha' hb hr => simp [hfin, hm, hr, ha', hb]
    | inBlock hb hr _ =>
      rw [hr] at hin
      simp [hfin, hr, hcw, hack, hsyn, hin, hb, hb.ne]
  · obtain ⟨hkrx, hkst⟩ := estabFin_kept (e := e) htake
    refine iff_of_true (finLaw_of_kept (by rw [hkrx, hbase]) (by rwa [hkst, hst])) ?_
    refine or_iff_not_imp_left.mpr fun hcw _ _ hfin => ?_
    have hnt : inAdvWin c.s seg.hdr.seqnum r.s.rx.recvNext →
        r.s.rx.missedSeq0 ≠ r.s.rx.missedSeq1 := fun hin hm =>
      htake ⟨estabFinHere_iff.mpr ⟨hst ▸ hcw, hfin, (hwin _).mpr hin⟩, hm⟩
    refine ⟨fun hn hin => ?_, fun hb hin => ?_⟩
    · cases hout with
      | ignored _ hr hm' => exact absurd (hm'.mpr hn.2) (hnt (hr ▸ hin))
      | outOfOrder ha' => exact absurd ha' ha
      | inOrder ha' => cases ha'.symm.trans hn.1
      | inBlock hb => cases (hblock hb).symm.trans hn.1
    · cases hout with
      | ignored ha' => cases (hblock hb).symm.trans ha'
      | outOfOrder ha' => exact absurd ha' ha
      | inOrder _ hnb => exact hnb hb
      | inBlock _ hr hm => exact hnt (hr ▸ hin) hm

/-- **ESTAB, ESTCL and CLOSWT** obey the law exactly on `EstabFinOk` segments. -/
theorem tcpEstabState_finLaw_iff (hh : c.s.protoHandler = none)
    (hs : c.s.state ∉ [TcpState.lastack, .closing, .timewt]) :
    FinLaw c (tcpEstabState e c seg seg.hdr.flags).1 seg ↔
      (c.s.state = .closwt ∨ EstabFinOk c.s seg) := by
  unfold tcpEstabState
  split_ifs with hsyn hack
  · refine iff_of_true (finLaw_of_kept (by simp) (by simpa using hs)) (.inr fun _ hn => ?_)
    exact absurd hsyn.1 hn
  · exact iff_of_true (finLaw_of_kept rfl hs) (.inr fun h => by rw [h] at hack; cases hack)
  obtain ⟨⟨hbase, hout⟩, hres⟩ := @processData_outcome e
    (estabAck c seg.hdr.acknum) seg (by simpa using hh)
  rw [estabAck_rx] at hbase hout hres
  have hst : (processData e (estabAck c seg.hdr.acknum) seg seg.hdr.flags).1.s.state = c.s.state := by
    simp [processData]
  dsimp only
  rw [hres]
  by_cases ha : arrival c.s.rx seg seg.hdr.flags = .outOfOrder
  · rw [if_pos ha, if_pos (by norm_num)]
    refine iff_of_true (finLaw_of_kept (by simpa using hbase) (by simpa [hst] using hs)) ?_
    refine .inr fun _ _ _ => ⟨fun h => ?_, fun h => ?_⟩
    · cases h.1.symm.trans ha
    · cases h.1.symm.trans ha
  · rw [if_neg ha, if_neg (by norm_num)]
    dsimp only
    rw [finLaw_congr (estabReply_rx _ _ _ _ _ _) (by rw [estabReply_state])]
    exact estabFin_finLaw_iff hbase hout ha (by simp [processData]) hst hs (by simpa using hack)
      (by simpa [hack] using hsyn)

theorem tcpEstabState_state : (tcpEstabState e c seg flags).1.s.state = c.s.state ∨
    (tcpEstabState e c seg flags).1.s.state = .lastack := by
  unfold tcpEstabState estabFin
  split_ifs
  · exact .inl (by simp)
  · exact .inl rfl
  dsimp only
  split_ifs <;> simp [processData]

/-- Closing does not enter LASTACK, CLOSING or TIMEWT but from CLOSWT. -/
theorem tcpClose_closing (h : c.s.state ≠ .closwt) :
    (tcpClose e c).s.state ∈ [TcpState.lastack, .closing, .timewt] ↔
      c.s.state ∈ [TcpState.lastack, .closing, .timewt] := by
  rw [tcpClose_state, closeState]
  rcases hs : c.s.state <;> split_ifs <;> simp_all

end Estab

/-! ## FINWT1 and FINWT2 -/

section Finwt

variable {e : Env} {c : Conn} {seg : InSegment}

/-- A segment never starts behind the end of its data. -/
theorem seqnum_ne : seg.hdr.seqnum ≠ seg.hdr.seqnum + seg.len + 1 := by
  intro h
  have hlt := seg.dataLen_lt
  have h0 : seg.len + 1 = 0 := by
    have := congrArg (· - seg.hdr.seqnum) h
    simp only [sub_self] at this
    rw [this]; ring
  have := congrArg BitVec.toNat h0
  rw [BitVec.toNat_add_of_lt (by rw [seg.toNat_len]; simp; omega), seg.toNat_len] at this
  simp at this

theorem seqnum_ne' (h : 0 < seg.dataLen) : seg.hdr.seqnum ≠ seg.hdr.seqnum + seg.len := by
  intro heq
  have h0 : seg.len = 0 := left_eq_add.mp heq
  exact h.ne' (InSegment.len_eq_zero.mp h0)

variable (c) (acknum : Dword)

theorem finwt1Ack_core : (finwt1Ack c acknum).s.ackCore = c.s.ackCore := by
  rw [← tcpProcessAck_core c acknum, finwt1Ack]
  split_ifs <;> rfl

@[simp] theorem finwt1Ack_rx : (finwt1Ack c acknum).s.rx = c.s.rx :=
  (congrArg TcpSocket.rx (finwt1Ack_core c acknum) :)

@[simp] theorem finwt1Ack_state : (finwt1Ack c acknum).s.state = c.s.state :=
  (congrArg TcpSocket.state (finwt1Ack_core c acknum) :)

@[simp] theorem finwt1Ack_protoHandler : (finwt1Ack c acknum).s.protoHandler = c.s.protoHandler :=
  (congrArg TcpSocket.protoHandler (finwt1Ack_core c acknum) :)

theorem finwt1Ack_tx : (finwt1Ack c acknum).s.tx = (tcpProcessAck c acknum).1.s.tx := by
  rw [finwt1Ack]
  split_ifs <;> rfl

/-- After `tcp_process_ACK` the number is one beyond `send_next` only if it was, with no data left
to acknowledge. -/
theorem finwt1Ack_beyond : acknum = (finwt1Ack c acknum).s.tx.sendNext + 1 ↔
    acknum = c.s.tx.sendNext + 1 ∧ c.s.tx.txDatalen = 0 := by
  rw [finwt1Ack_tx, tcpProcessAck]
  by_cases hw : ackInWindow c.s acknum
  · rw [if_pos hw]
    refine iff_of_false (fun h => ?_) (fun ⟨h, h0⟩ => ?_)
    · rw [discardAcked_sendNext] at h
      simp at h
    · simp [ackInWindow, h, h0] at hw
  · rw [if_neg hw]
    refine ⟨fun h => ⟨h, ?_⟩, And.left⟩
    by_contra h0
    refine hw ?_
    have hsub : acknum - c.s.tx.sendNext = 1 := by rw [h]; exact add_sub_cancel_left _ _
    simp only [ackInWindow, hsub, decide_eq_true_eq, BitVec.le_def]
    have hpos : c.s.tx.txDatalen.toNat ≠ 0 := fun h => h0 (BitVec.eq_of_toNat_eq h)
    exact ⟨by decide, Nat.one_le_iff_ne_zero.mpr hpos⟩

variable (e)

theorem finwt1Fin_rx : (finwt1Fin e c acknum).s.rx =
    { c.s.rx with recvNext := c.s.rx.recvNext + 1 } := by
  rw [finwt1Fin]
  dsimp only
  rw [tcpSend_rx]
  dsimp only [Conn.upd]
  split_ifs <;> rfl

theorem finwt1Reset_rx : (finwt1Reset e c).s.rx =
    { c.s.rx with recvNext := c.s.rx.recvNext + 1 } := by
  rw [finwt1Reset, tcpUnthread]
  dsimp only
  rw [unthread_rx, tcpSend_rx]
  rfl

theorem finwt1Acked_frame : (finwt1Acked e c).1.s.rx = c.s.rx ∧
    ((finwt1Acked e c).1.s.state = .closed ∨ (finwt1Acked e c).1.s.state = .finwt2) := by
  rw [finwt1Acked]
  split_ifs
  · exact ⟨unthread_rx _ _, .inl (by rw [tcpUnthread, unthread]; dsimp only; split_ifs <;> rfl)⟩
  · exact ⟨rfl, .inr rfl⟩

variable {e c acknum}

/-- FINWT1 after the data: a FIN is taken at `recv_next`, an ACK of our FIN one beyond. -/
theorem finwt1_finLaw_iff {r : Conn} {ack fin : Bool} {x : Dword} {h : Prop} [Decidable h]
    (hbase : r.s.rx.base = c.s.rx.base) (hst : r.s.state = .finwt1) :
    FinLaw c (if r.s.rx.missedSeq0 = r.s.rx.missedSeq1 ∧ fin ∧ ack then
        if seg.hdr.seqnum = r.s.rx.recvNext then (finwt1Fin e r acknum, true) else (r, true)
      else if ack then
        if acknum = x ∧ seg.hdr.seqnum = r.s.rx.recvNext ∧ h then finwt1Acked e r
        else if acknum = x ∧ seg.hdr.seqnum = r.s.rx.recvNext + 1 then (finwt1Reset e r, false)
        else (r, true)
      else (r, true)).1 seg ↔
    (ack → (r.s.rx.missedSeq0 = r.s.rx.missedSeq1 → fin → seg.hdr.seqnum = r.s.rx.recvNext →
        seg.hdr.flags.fin ∧ seg.dataLen = 0) ∧
      (acknum = x → seg.hdr.seqnum = r.s.rx.recvNext + 1 →
        r.s.rx.missedSeq0 = r.s.rx.missedSeq1 ∧ fin)) := by
  have hkept : ∀ c' : Conn, c'.s.rx = r.s.rx →
      c'.s.state ∉ [TcpState.lastack, .closing, .timewt] → FinLaw c c' seg :=
    fun c' hrx hst' => finLaw_of_kept (by rw [hrx, hbase]) hst'
  have hself : FinLaw c r seg := hkept _ rfl (by rw [hst]; decide)
  cases ack with
  | false => simpa using hself
  | true =>
    by_cases hA : r.s.rx.missedSeq0 = r.s.rx.missedSeq1 ∧ fin
    · rw [if_pos ⟨hA.1, hA.2, rfl⟩]
      by_cases hq : seg.hdr.seqnum = r.s.rx.recvNext
      · rw [if_pos hq, finLaw_taken_iff hbase (finwt1Fin_rx _ _ _), ← hq]
        have hlen : seg.hdr.seqnum + seg.len = seg.hdr.seqnum ↔ seg.dataLen = 0 := by
          rw [add_eq_left, InSegment.len_eq_zero]
        simp [hA, hlen]
      · rw [if_neg hq]
        exact iff_of_true hself fun _ => ⟨fun _ _ h => absurd h hq, fun _ _ => hA⟩
    · rw [if_neg (by tauto), if_pos rfl]
      have hsucc : r.s.rx.recvNext ≠ r.s.rx.recvNext + 1 := by simp
      split_ifs with h₁ h₂
      · obtain ⟨hrx, hst'⟩ := @finwt1Acked_frame e r
        refine iff_of_true (hkept _ hrx (by rcases hst' with h | h <;> simp [h])) ?_
        exact fun _ => ⟨fun hm hf => absurd ⟨hm, hf⟩ hA, fun _ hq => absurd (h₁.2.1 ▸ hq) hsucc⟩
      · rw [finLaw_taken_iff hbase (finwt1Reset_rx _ _)]
        refine iff_of_false (fun h => ?_) (fun h => hA ((h rfl).2 h₂.1 h₂.2))
        exact seqnum_ne (by rw [h.2.1]; exact h₂.2)
      · exact iff_of_true hself fun _ =>
          ⟨fun hm hf => absurd ⟨hm, hf⟩ hA, fun ha hq => absurd ⟨ha, hq⟩ h₂⟩

/-- **FINWT1** obeys the law exactly on `Finwt1FinOk` segments. -/
theorem tcpFinwt1State_finLaw_iff (hh : c.s.protoHandler = none) (hs : c.s.state = .finwt1) :
    FinLaw c (tcpFinwt1State e c seg seg.hdr.flags).1 seg ↔ Finwt1FinOk c.s seg := by
  obtain ⟨⟨hbase, hout⟩, hres⟩ := @processData_outcome e
    (finwt1Ack c seg.hdr.acknum) seg (by simpa using hh)
  have hbeyond := finwt1Ack_beyond c seg.hdr.acknum
  rw [finwt1Ack_rx] at hbase hout hres
  have hst : (processData e (finwt1Ack c seg.hdr.acknum) seg seg.hdr.flags).1.s.state =
      .finwt1 := by simpa [processData] using hs
  have hnext : (processData e (finwt1Ack c seg.hdr.acknum) seg seg.hdr.flags).1.s.tx.sendNext =
      (finwt1Ack c seg.hdr.acknum).s.tx.sendNext := by simp [processData]
  have hack : (processData e (finwt1Ack c seg.hdr.acknum) seg seg.hdr.flags).2.2.ack =
      seg.hdr.flags.ack := by rw [hres]; split_ifs <;> rfl
  have hfin : (processData e (finwt1Ack c seg.hdr.acknum) seg seg.hdr.flags).2.2.fin =
      (seg.hdr.flags.fin && arrival c.s.rx seg seg.hdr.flags ≠ .outOfOrder) := by
    rw [hres]; split_ifs with h <;> simp [h]
  unfold tcpFinwt1State
  generalize processData e (finwt1Ack c seg.hdr.acknum) seg seg.hdr.flags = r at *
  dsimp only
  rw [hnext, hack, hfin, finwt1_finLaw_iff hbase hst, hbeyond, and_imp]
  refine forall_congr' fun _ => ?_
  unfold NothingTaken
  have hblock : EndsInBlock c.s.rx seg → arrival c.s.rx seg seg.hdr.flags = .inOrder := And.left
  cases hout with
  | ignored ha hr hm =>
    have hnb : ¬ EndsInBlock c.s.rx seg := fun h => by cases (hblock h).symm.trans ha
    simp only [ha, hr, hm, hnb, ne_eq, reduceCtorEq, not_false_eq_true, decide_true, Bool.and_true,
      true_and, forall_const, false_imp_iff, and_true]
    exact and_congr_left' ⟨fun h a f q => (h a f q).2, fun h a f q => ⟨f, h a f q⟩⟩
  | outOfOrder ha hr =>
    have hnb : ¬ EndsInBlock c.s.rx seg := fun h => by cases (hblock h).symm.trans ha
    simp [ha, hr, hnb]
  | inOrder ha hb hr =>
    have hpos := (arrival_inOrder_iff.mp ha).1.2.2
    have h₁ : seg.hdr.seqnum ≠ seg.hdr.seqnum + seg.len := seqnum_ne' hpos
    have h₂ : seg.hdr.seqnum ≠ seg.hdr.seqnum + seg.len + 1 := seqnum_ne
    rw [hr]
    simpa [ha, hb, h₁] using fun _ _ h => absurd h h₂
  | inBlock hb hr hm =>
    have hpos := (arrival_inOrder_iff.mp (hblock hb)).1.2.2
    simp [hblock hb, hr, hm, hb, hpos.ne']

/-- FINWT2 after the data: the expected ACK at `recv_next` is taken for the FIN. -/
theorem finwt2_finLaw_iff {r : Conn} {fin ack : Bool} (hbase : r.s.rx.base = c.s.rx.base)
    (hst : r.s.state = .finwt2) :
    FinLaw c (if r.s.rx.missedSeq0 ≠ r.s.rx.missedSeq1 then (r, true)
      else
        let r := if fin then r.upd fun s => { s with
          locflags := { s.locflags with gotFin := true } } else r
        if ack ∧ acknum = r.s.tx.sendNext ∧ seg.hdr.seqnum = r.s.rx.recvNext then
          ((tcpSend e (r.upd fun s => { s with
            rx := { s.rx with recvNext := s.rx.recvNext + 1 }
            flags := { ack := true }
            unhappy := false
            state := .timewt
            timeout := setTimeout e tcpTimewtTo })).1, false)
        else (r, true)).1 seg ↔
    (ack → acknum = r.s.tx.sendNext → r.s.rx.missedSeq0 = r.s.rx.missedSeq1 →
      seg.hdr.seqnum = r.s.rx.recvNext → seg.hdr.flags.fin ∧ seg.dataLen = 0) := by
  have hkept : ∀ c' : Conn, c'.s.rx = r.s.rx → c'.s.state = .finwt2 → FinLaw c c' seg :=
    fun c' hrx hst' => finLaw_of_kept (by rw [hrx, hbase]) (by rw [hst']; decide)
  by_cases hm : r.s.rx.missedSeq0 = r.s.rx.missedSeq1
  · rw [if_neg (not_not.mpr hm)]
    extract_lets r'
    have hr' : r'.s.rx = r.s.rx ∧ r'.s.tx = r.s.tx ∧ r'.s.state = .finwt2 := by
      refine ⟨?_, ?_, ?_⟩ <;> (unfold r'; split_ifs <;> first | rfl | exact hst)
    rw [hr'.1, hr'.2.1]
    split_ifs with h
    · rw [finLaw_taken_iff hbase (by rw [tcpSend_rx, Conn.upd_s, hr'.1]), ← h.2.2, add_eq_left,
        InSegment.len_eq_zero]
      simp [h, hm]
    · refine iff_of_true (hkept _ hr'.1 hr'.2.2) fun h₁ h₂ _ h₃ => ?_
      exact absurd ⟨h₁, h₂, h₃⟩ h
  · rw [if_pos hm]
    exact iff_of_true (hkept _ rfl hst) fun _ _ h => absurd h hm

/-- **FINWT2** obeys the law exactly on `Finwt2FinOk` segments. -/
theorem tcpFinwt2State_finLaw_iff (hh : c.s.protoHandler = none) (hs : c.s.state = .finwt2) :
    FinLaw c (tcpFinwt2State e c seg seg.hdr.flags).1 seg ↔ Finwt2FinOk c.s seg := by
  obtain ⟨⟨hbase, hout⟩, hres⟩ := @processData_outcome e c seg hh
  have hst : (processData e c seg seg.hdr.flags).1.s.state = .finwt2 := by
    simpa [processData] using hs
  have hnext : (processData e c seg seg.hdr.flags).1.s.tx.sendNext = c.s.tx.sendNext := by
    simp [processData]
  have hack : (processData e c seg seg.hdr.flags).2.2.ack = seg.hdr.flags.ack := by
    rw [hres]; split_ifs <;> rfl
  unfold tcpFinwt2State
  generalize processData e c seg seg.hdr.flags = r at *
  dsimp only
  rw [hack, finwt2_finLaw_iff hbase hst, hnext, Finwt2FinOk]
  unfold NothingTaken
  have hblock : EndsInBlock c.s.rx seg → arrival c.s.rx seg seg.hdr.flags = .inOrder := And.left
  refine forall₂_congr fun _ _ => ?_
  cases hout with
  | ignored ha hr hm =>
    have hnb : ¬ EndsInBlock c.s.rx seg := fun h => by cases (hblock h).symm.trans ha
    simp only [ha, hr, hm, hnb, true_and, false_imp_iff, and_true]
  | outOfOrder ha hr =>
    have hnb : ¬ EndsInBlock c.s.rx seg := fun h => by cases (hblock h).symm.trans ha
    have hne : seg.hdr.seqnum ≠ c.s.rx.recvNext := by
      intro heq
      have := (arrival_outOfOrder_iff.mp ha).2.1
      rw [RxBuf.ldiff, heq, sub_self] at this
      simp at this
    simp [ha, hr, hnb, hne]
  | inOrder ha hb hr =>
    have hpos := (arrival_inOrder_iff.mp ha).1.2.2
    have hne : seg.hdr.seqnum ≠ seg.hdr.seqnum + seg.len := seqnum_ne' hpos
    simp [ha, hr, hb, hne]
  | inBlock hb hr hm =>
    have hpos := (arrival_inOrder_iff.mp (hblock hb)).1.2.2
    simp [hblock hb, hr, hm, hb, hpos.ne']

end Finwt

/-! ## Runs -/

/-- The states in which segments may bring data or a FIN. -/
def TcpState.receiving (st : TcpState) : Prop :=
  st ∈ [TcpState.estab, .estcl, .closwt, .finwt1, .finwt2]

instance : DecidablePred TcpState.receiving := fun _ => inferInstanceAs (Decidable (_ ∈ _))

/-- `_tcp_fsm` obeys the law in a receiving state exactly on `FinOk` segments. -/
theorem tcpFsm_finLaw_iff {e : Env} {c : Conn} {seg : InSegment} (hh : c.s.protoHandler = none)
    (hs : c.s.state.receiving) : FinLaw c (tcpFsm e c seg).1 seg ↔ FinOk c.s seg := by
  unfold tcpFsm FinOk
  rcases hst : c.s.state <;> simp only [TcpState.receiving, hst] at hs <;> try simp at hs
  case estab =>
    rw [tcpEstabState_finLaw_iff hh (by simp [hst])]
    simp [hst]
  case estcl =>
    have hne : (tcpEstabState e c seg seg.hdr.flags).1.s.state ≠ .closwt := by
      rcases @tcpEstabState_state e c seg seg.hdr.flags with h | h <;> simp [h, hst]
    rw [tcpEstclState, finLaw_congr (tcpClose_rx _ _) (tcpClose_closing hne),
      tcpEstabState_finLaw_iff hh (by simp [hst])]
    simp [hst]
  case finwt1 => exact tcpFinwt1State_finLaw_iff hh hst
  case finwt2 => exact tcpFinwt2State_finLaw_iff hh hst
  case closwt =>
    rw [tcpClosewtState, tcpEstabState_finLaw_iff hh (by simp [hst])]
    simp [hst]

/-- A segment that reaches a receiving state without a handler obeys the law. -/
def FinStepLaw (c : Conn) (ev : Event) : Prop :=
  ∀ seg c', ev.op = .segment seg → fsmEntry ev.e c seg = some c' → c'.s.protoHandler = none →
    c'.s.state.receiving → FinLaw c' (tcpFsm ev.e c' seg).1 seg

/-- A segment that reaches a receiving state without a handler is `FinOk`. -/
def FinStepOk (c : Conn) (ev : Event) : Prop :=
  ∀ seg c', ev.op = .segment seg → fsmEntry ev.e c seg = some c' → c'.s.protoHandler = none →
    c'.s.state.receiving → FinOk c'.s seg

/-- **Sequence accounting of received FINs**: a run obeys the law at every segment exactly if every
segment is `FinOk` in the state it finds. -/
theorem fin_accounting_iff (c : Conn) (evs : List Event) :
    Always stepConn FinStepLaw c evs ↔ Always stepConn FinStepOk c evs := by
  refine always_iff_of_invariant (I := fun _ => True) (fun _ _ _ _ => trivial) ?_ evs trivial
  intro c ev _
  unfold FinStepLaw FinStepOk
  exact forall₂_congr fun seg c' => forall₄_congr fun _ _ hh hs => tcpFsm_finLaw_iff hh hs

/-- Our close acknowledged, then the same pure ACK again: `recv_next` moves and TIMEWT is entered
without a FIN. -/
theorem fin_accounting_fails : ¬ Always stepConn FinStepLaw (establishedConn [])
    [⟨{}, .close⟩, ⟨{}, .segment (peerSegment { ack := true } 1000 2 0)⟩,
      ⟨{}, .segment (peerSegment { ack := true } 1000 2 0)⟩] := by
  rintro ⟨-, -, h, -⟩
  have := h _ _ rfl rfl (by decide +kernel) (by decide +kernel)
  revert this
  decide +kernel

end Watt32.Tcp
