import Watt32.Tcp.Carried
import Watt32.Tcp.Enqueue
import Watt32.Tcp.Keepalive

/-!
# What is acknowledged

* `stepConn_acked`: the number of bytes acknowledged moves with a segment that has the ACK flag or in FINWT1,
  and to the number in that segment.
* `SendCall.Plain.acknum`: the number a segment acknowledges.
* `Half.Whole`: until the connection is shut the bytes taken over are the acknowledged and the pending ones.
-/

namespace Watt32.Tcp

variable {A : Dword → Prop} {e : Env} {c c' : Conn} {seg : InSegment} {flags : TcpFlags}

/-! ## The count -/

@[simp] theorem tcpUnthread_acked (freeTx : Bool) : (tcpUnthread freeTx c).acked = c.acked := rfl

@[simp] theorem tcpClose_acked : (tcpClose e c).acked = c.acked := by
  have hlater : (closeLater e c).acked = c.acked := by
    unfold closeLater
    dsimp only
    split_ifs <;> simp
  have hnow : (closeNow e c).acked = c.acked := by simp [closeNow]
  have hwt : (closeClosWt e c).acked = c.acked := by simp [closeClosWt]
  unfold tcpClose
  split_ifs <;> rcases c.s.state <;> simp [hlater, hnow, hwt]

@[simp] theorem tcpAbort_acked : (tcpAbort e c).acked = c.acked := by
  unfold tcpAbort abortReset
  dsimp only
  split_ifs <;> simp

@[simp] theorem processData_acked : (processData e c seg flags).1.acked = c.acked := rfl

@[simp] theorem estabFin_acked (seqnum : Dword) : (estabFin e c seqnum flags).1.acked = c.acked := by
  unfold estabFin
  split_ifs <;> simp

@[simp] theorem estabReply_acked (ldiff : Dword) (didTx : Bool) :
    (estabReply e c seg flags ldiff didTx).acked = c.acked := by
  unfold estabReply estabSendNow Conn.updRtt
  dsimp only
  split_ifs <;> simp

/-- The count after an acknowledgment. -/
def ackedBy (c : Conn) (acknum : Dword) : ℕ :=
  if ackInWindow c.s acknum then c.acked + (acknum - c.s.tx.sendNext).toNat else c.acked

theorem tcpProcessAck_acked (acknum : Dword) : (tcpProcessAck c acknum).1.acked = ackedBy c acknum := by
  unfold tcpProcessAck ackedBy
  split_ifs <;> rfl

theorem tcpEstabState_acked : (tcpEstabState e c seg flags).1.acked = c.acked ∨
    flags.ack ∧ (tcpEstabState e c seg flags).1.acked = ackedBy c seg.hdr.acknum := by
  have hack : (estabAck c seg.hdr.acknum).acked = ackedBy c seg.hdr.acknum :=
    tcpProcessAck_acked (c := c.upd fun s => { s with timeout := 0 }) _
  unfold tcpEstabState
  split_ifs with _ hflag
  · exact .inl (by simp)
  · exact .inl rfl
  · refine .inr ⟨by simpa using hflag, ?_⟩
    dsimp only
    split_ifs <;> simp [hack]

theorem tcpFinwt1State_acked : (tcpFinwt1State e c seg flags).1.acked = ackedBy c seg.hdr.acknum := by
  have hack : (finwt1Ack c seg.hdr.acknum).acked = ackedBy c seg.hdr.acknum := by
    rw [← tcpProcessAck_acked, finwt1Ack]
    split_ifs <;> rfl
  unfold tcpFinwt1State finwt1Fin finwt1Acked finwt1Reset
  dsimp only
  split_ifs <;> simp [hack]

/-- The count after a segment: as before, or as the number in it says. -/
inductive Counted (c : Conn) (seg : InSegment) (n : ℕ) : Prop
  | kept (h : n = c.acked)
  | acked (hack : seg.hdr.flags.ack ∨ c.s.state = .finwt1) (h : n = ackedBy c seg.hdr.acknum)

theorem tcpFsm_acked (hs : ¬ c.s.state.early) : Counted c seg (tcpFsm e c seg).1.acked := by
  unfold tcpFsm
  rcases hst : c.s.state <;> dsimp only
  case listen | resolve | synsent | synrec => exact absurd (by simp [TcpState.early, hst]) hs
  case estab | closwt =>
    exact tcpEstabState_acked.elim .kept fun h => .acked (.inl h.1) h.2
  case estcl =>
    unfold tcpEstclState
    rw [tcpClose_acked]
    exact tcpEstabState_acked.elim .kept fun h => .acked (.inl h.1) h.2
  case finwt1 => exact .acked (.inr hst) tcpFinwt1State_acked
  case finwt2 => exact .kept (by unfold tcpFinwt2State; dsimp only; split_ifs <;> simp)
  case closing => exact .kept (by unfold tcpClosingState; split_ifs <;> rfl)
  case lastack => exact .kept (by unfold tcpLastackState; split_ifs <;> simp)
  case timewt => exact .kept (by unfold tcpTimewtState; split_ifs <;> simp)
  case closed => exact .kept rfl

theorem demux_acked (h : demux e c seg = some c') :
    c'.acked = c.acked ∧ c'.s.state = c.s.state ∧ c'.s.tx = c.s.tx := by
  unfold demux restartIdle at h
  split_ifs at h <;> cases h <;> dsimp only [Conn.upd] <;> split_ifs <;> exact ⟨rfl, rfl, rfl⟩

theorem tcpHandler_acked (hs : ¬ c.s.state.early) (hreset : ¬ ResetsServer e c seg) :
    Counted c seg (tcpHandler e c seg).acked := by
  unfold tcpHandler
  rcases hd : demux e c seg with _ | c'
  · exact .kept rfl
  obtain ⟨hacked, hstate, htx⟩ := demux_acked hd
  have hby : ∀ acknum, ackedBy c' acknum = ackedBy c acknum := by
    unfold ackedBy ackInWindow
    simp [htx, hacked]
  dsimp only
  split_ifs with hr
  · have hserver : c'.s.locflags.isServer = false := by
      by_contra hserver
      rw [Bool.not_eq_false, demux_isServer hd] at hserver
      exact hreset ⟨c', hd, hr, hserver⟩
    refine .kept (Eq.trans ?_ hacked)
    unfold tcpSockreset
    dsimp only
    rw [if_neg (by simp [hserver])]
    rfl
  have hfsm : Counted (beforeFsm e c' seg) seg (afterFsm e (tcpFsm e (beforeFsm e c' seg) seg)).acked := by
    have hlate : ¬ (beforeFsm e c' seg).s.state.early := by
      show ¬ c'.s.state.early
      rwa [hstate]
    unfold afterFsm
    split_ifs
    · rw [tcpSendsoon_acked]
      exact tcpFsm_acked hlate
    · exact tcpFsm_acked hlate
  cases hfsm with
  | kept h => exact .kept (h.trans hacked)
  | acked hack h => exact .acked (hack.imp_right fun h => hstate ▸ h) (h.trans (hby _))

/-! ## The other steps -/

theorem tcpRead_acked (maxlen : Dword) : (tcpRead e c maxlen).1.acked = c.acked := by
  unfold tcpRead tcpUpdWin
  dsimp only
  split_ifs <;> simp

theorem sockFlush_acked : (sockFlush e c).acked = c.acked := by
  unfold sockFlush
  dsimp only
  split_ifs <;> simp

theorem tcpRetransmitter_acked (hs : ¬ c.s.state.early) : (tcpRetransmitter e c).acked = c.acked := by
  have htimeouts : ∀ c : Conn, (retransTimeouts e c).acked = c.acked := by
    intro c
    unfold retransTimeouts
    split_ifs <;> simp
  have hsend : (retransSend e c).acked = c.acked := by
    unfold retransSend
    split_ifs <;> simp
  unfold tcpRetransmitter
  split_ifs with _ hres
  · rfl
  · exact absurd (by simp [TcpState.early, hres]) hs
  · rfl
  · rfl
  · exact (htimeouts _).trans hsend

/-- **Every step** after the handshake that resets no server: the count stays, or a segment moves it. -/
theorem stepConn_acked (ev : Event) (hs : ¬ c.s.state.early)
    (hreset : ∀ seg, ev.op = .segment seg → ¬ ResetsServer ev.e c seg) :
    (stepConn c ev).acked = c.acked ∨
      ∃ seg, ev.op = .segment seg ∧ Counted c seg (stepConn c ev).acked := by
  unfold stepConn
  cases hop : ev.op <;> dsimp only
  case segment seg => exact .inr ⟨seg, rfl, tcpHandler_acked hs (hreset seg hop)⟩
  case read maxlen => exact .inl (tcpRead_acked maxlen)
  case write data => exact .inl tcpWrite_tx.2
  case flush => exact .inl sockFlush_acked
  case flushnext | noflush =>
    first | unfold sockFlushnext | unfold sockNoflush
    split_ifs <;> exact .inl rfl
  case close =>
    unfold sockClose tickDead
    split_ifs <;> simp
  case abort => exact .inl tcpAbort_acked
  case retransmit => exact .inl (tcpRetransmitter_acked hs)

/-! ## The number in a segment -/

/-- **Segments acknowledge** `recv_next` as the call found it. -/
theorem SendCall.Plain.acknum {k : SendCall} {o : OutSegment} (h : k.Plain A e) (ho : o ∈ k.segs) :
    A o.hdr.acknum := by
  obtain ⟨buf, ok, hsegs⟩ := h.emitted
  obtain ⟨m, -, hm, -, -⟩ := @sendLoop_turns e true (sendStart k.entry buf) k.entry.rtt.cwindow.toNat ok
  obtain ⟨seg, hturn, hall⟩ := @turns_segs e true (sendStart k.entry buf)
  rw [hsegs, hm, hall] at ho
  obtain ⟨j, -, rfl⟩ := List.mem_map.mp ho
  have hcore := (@atTurn_turns e k.entry buf j).core
  have hrecv : (turns e true (sendStart k.entry buf) j).s.rx.recvNext = k.entry.rx.recvNext :=
    (congrArg (fun s => s.rx.recvNext) hcore :)
  rw [(hturn j).acknum, hrecv]
  exact h.trim.recvNext

/-! ## The bytes taken over -/

/-- Until the connection is shut the bytes that are not acknowledged are pending. -/
def Half.Whole (h : Half) : Prop :=
  h.state ≠ .closed → h.pending = h.accepted.drop h.acked ∧ h.acked ≤ h.accepted.length

theorem Half.Whole.next {B : Allow} {h h' : Half} (hw : h.Whole) (hc : h.Carrying) (hn : h.Next B h') :
    h'.Whole := by
  have hfits := hc.stream.fits
  cases hn with
  | rewind | grow | receive | plain | finAgain => exact hw
  | ack k p q u hs hk _ hp =>
    intro hst
    obtain ⟨hpend, hle⟩ := hw hst
    rw [hpend, List.length_drop] at hk
    refine ⟨?_, show h.acked + k ≤ h.accepted.length by omega⟩
    show p = h.accepted.drop (h.acked + k)
    rw [hp hfits hc.stream.queued, hpend, List.drop_drop]
  | write data p hs hp =>
    intro hst
    obtain ⟨hpend, hle⟩ := hw hst
    refine ⟨?_, ?_⟩
    · show p = (h.accepted ++ data).drop h.acked
      rw [(hp hfits).1, List.drop_append_of_le_length hle, ← hpend]
    · show h.acked ≤ (h.accepted ++ data).length
      rw [List.length_append]
      omega
  | closeNow hs | closeLater hs | lastack hs =>
    exact fun _ => hw (by rcases hs with hs | hs | hs <;> simp [hs])
  | bothClosing hs | peerDone hs => exact fun _ => hw (by simp [hs])
  | finAcked st b hs => exact fun _ => hw (by rcases hs with ⟨hs, -⟩ | ⟨hs | hs, -⟩ <;> simp [hs])
  | resolved hs | reseed _ hs => exact absurd (by simp [TcpState.early, hs]) hc.late
  | enterSynrec r hs => exact absurd (by rcases hs with hs | hs <;> simp [TcpState.early, hs]) hc.late
  | establish r hs => exact absurd (by rcases hs with hs | ⟨hs, -⟩ <;> simp [TcpState.early, hs]) hc.late
  | shut => exact fun hst => absurd rfl hst

/-- **Every step** keeps the bytes together. -/
theorem Half.Whole.moves (hw : c.half.Whole) (hc : c.half.Carrying) (hm : Moves noRestart c c') :
    c'.half.Whole := by
  refine (moves_invariant (I := fun c' => c'.half.Whole ∧ Backs c c') (fun c₁ c₂ hi hm => ?_) hm
    ⟨hw, hc, rfl, List.prefix_rfl, fun _ => .inl⟩).1
  refine ⟨?_, hi.2.move hm⟩
  cases hm with
  | quiet h => exact h ▸ hi.1
  | next h => exact hi.1.next hi.2.carrying h
  | call e u _ _ h => exact h ▸ hi.1
  | abort n b u _ h => exact h ▸ fun hst => absurd rfl hst
  | restart hr => exact hr.elim

end Watt32.Tcp
