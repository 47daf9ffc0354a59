import Watt32.Tcp.Moves

/-!
# Our FIN is outstanding

When a received segment ends LASTACK, CLOSING or FINWT1, does its ACK number cover our data and
our FIN?

* `sent_of_outstanding`: in FINWT1 and CLOSING no data are pending, in every run.
* `tcpFsm_closeLaw_iff`: one segment.
* **`no_premature_close_iff`**: a run obeys the law throughout exactly if LASTACK meets no ACK that
  ends inside the pending data.
-/

namespace Watt32.Tcp

open Machine

variable {A : Allow} {e : Env} {c : Conn} {seg : InSegment}

/-! ## Nothing is pending -/

/-- In FINWT1 and CLOSING all data are acknowledged. -/
def Half.Sent (h : Half) : Prop := h.state = .finwt1 ∨ h.state = .closing → h.pending = []

theorem Half.Sent.next {h h' : Half} (hs : h.Sent) (hn : h.Next A h') : h'.Sent := by
  cases hn with
  | ack k p q u _ _ _ _ _ hnil => exact fun h' => hnil (hs h')
  | write data p hst => intro h'; rcases h' with h' | h' <;> rw [hst] at h' <;> cases h'
  | closeNow _ hp => exact fun _ => hp
  | bothClosing hst => exact fun _ => hs (.inl hst)
  | finAcked st b hst =>
    rintro (h' | h') <;> rcases hst with ⟨-, rfl⟩ | ⟨-, rfl⟩ <;> cases h'
  | rewind | grow | receive | plain | reseed | finAgain => exact hs
  | resolved | enterSynrec | establish | lastack | closeLater | peerDone | shut =>
    rintro (h' | h') <;> cases h'

theorem Half.Sent.move {c' : Conn} (hs : c.half.Sent) (hm : Move A c c') : c'.half.Sent := by
  cases hm with
  | quiet h => rwa [h]
  | next h => exact hs.next h
  | call e u _ _ h => rw [h]; exact hs
  | abort n b u _ h => rw [h]; rintro (h' | h') <;> cases h'
  | restart _ h => rw [h]; rintro (h' | h') <;> cases h'

/-- The invariant of every run. -/
theorem sent_of_outstanding (ev : Event) (hs : c.half.Sent) : (stepConn c ev).half.Sent :=
  moves_invariant (I := fun c => c.half.Sent) (fun _ _ h hm => h.move hm)
    (stepConn_moves (A := ⟨True, fun _ => True, fun _ => True⟩) ev (fun _ _ => trivial)
      (fun _ _ _ _ _ _ => trivial) (fun _ _ _ => trivial)) hs

/-! ## One segment -/

/-- From the first state to the second our FIN stops being outstanding. -/
def TcpState.endsFin (a b : TcpState) : Prop :=
  a = .lastack ∧ b = .closed ∨ a = .closing ∧ b = .timewt ∨
    a = .finwt1 ∧ (b = .finwt2 ∨ b = .timewt ∨ b = .closed)

instance (a b : TcpState) : Decidable (a.endsFin b) := by unfold TcpState.endsFin; infer_instance

/-- The ACK number covers the pending data and our FIN. -/
def CoversFin (s : TcpSocket) (seg : InSegment) : Prop :=
  s.tx.txDatalen.toNat + 1 ≤ (seg.hdr.acknum - s.tx.sendNext).toNat

instance (s : TcpSocket) (seg : InSegment) : Decidable (CoversFin s seg) := by
  unfold CoversFin; infer_instance

/-- The test of `tcp_lastack_state` for the end of the connection. -/
def lastackEnds (s : TcpSocket) (seg : InSegment) : Prop :=
  seg.hdr.flags.fin = false ∧ seqGt seg.hdr.acknum s.tx.sendNext ∧
    seg.hdr.seqnum = s.rx.recvNext

theorem tcpLastackState_ends (hs : c.s.state = .lastack) :
    (tcpLastackState e c seg seg.hdr.flags).1.s.state = .closed ↔ lastackEnds c.s seg := by
  unfold tcpLastackState lastackEnds
  split_ifs with hfin hgt
  · simp [hs, hfin]
  · simp [hfin, hgt]
  · simp [hs, hfin, hgt]

theorem tcpClosingState_ends (hs : c.s.state = .closing)
    (h : (tcpClosingState e c seg seg.hdr.flags).1.s.state = .timewt) :
    seqGt seg.hdr.acknum c.s.tx.sendNext := by
  unfold tcpClosingState at h
  split_ifs at h with hgt
  · exact hgt.2.2.1
  · rw [hs] at h; cases h

theorem tcpProcessAck_sendNext {acknum : Dword} (h : c.s.tx.txDatalen = 0) :
    (tcpProcessAck c acknum).1.s.tx.sendNext = c.s.tx.sendNext := by
  unfold tcpProcessAck
  split_ifs with hw
  · simp only [ackInWindow, decide_eq_true_eq, h] at hw
    have h0 : acknum - c.s.tx.sendNext = 0 := BitVec.le_zero_iff.mp hw.2
    rw [discardAcked_sendNext, ← sub_eq_zero, h0]
  · rfl

theorem processData_sendNext (flags : TcpFlags) :
    (processData e c seg flags).1.s.tx.sendNext = c.s.tx.sendNext := by
  have hhead : (processHeader e c.s seg flags).tx.sendNext = c.s.tx.sendNext :=
    (congrArg (fun s => s.tx.sendNext) (processHeader_core e c.s seg flags) :)
  rw [← hhead]
  unfold processData tcpProcessData
  dsimp only
  split_ifs <;> rfl

theorem finwt1Fin_state (acknum : Dword) : (finwt1Fin e c acknum).s.state =
    if seqGeq acknum (c.s.tx.sendNext + 1) then .timewt else .closing := by
  unfold finwt1Fin
  dsimp only
  rw [tcpSend_state]
  dsimp only [Conn.upd]
  split_ifs <;> rfl

theorem ne_of_seqGeq_add_one {a b : Dword} (h : seqGeq a (b + 1)) : a ≠ b := by
  rintro rfl
  rw [seqGeq_iff] at h
  have : a - (a + 1) = -1 := by ring
  rw [this] at h
  exact absurd h (by decide)

/-- With no data pending FINWT1 is left for FINWT2, TIMEWT or CLOSED only by an ACK of our FIN. -/
theorem tcpFinwt1State_ends (hs : c.s.state = .finwt1) (hp : c.s.tx.txDatalen = 0)
    (h : TcpState.endsFin .finwt1 (tcpFinwt1State e c seg seg.hdr.flags).1.s.state) :
    seg.hdr.acknum ≠ c.s.tx.sendNext := by
  have hdata : ∀ flags, (processData e (finwt1Ack c seg.hdr.acknum) seg flags).1.s.tx.sendNext =
      c.s.tx.sendNext := fun flags => by
    rw [processData_sendNext, finwt1Ack_tx, tcpProcessAck_sendNext hp]
  have hstay : ∀ flags, ¬ TcpState.endsFin .finwt1
      (processData e (finwt1Ack c seg.hdr.acknum) seg flags).1.s.state := fun flags => by
    have : (processData e (finwt1Ack c seg.hdr.acknum) seg flags).1.s.state = .finwt1 := by
      simpa [processData] using hs
    rw [this]
    decide
  have hbeyond : seg.hdr.acknum = c.s.tx.sendNext + 1 → seg.hdr.acknum ≠ c.s.tx.sendNext := by
    intro h h'
    rw [h'] at h
    simp at h
  unfold tcpFinwt1State at h
  dsimp only at h
  rw [hdata] at h
  split_ifs at h with h₁ h₂ h₃ h₄ h₅
  · rw [finwt1Fin_state, hdata] at h
    by_cases hge : seqGeq seg.hdr.acknum (c.s.tx.sendNext + 1)
    · exact ne_of_seqGeq_add_one hge
    · rw [if_neg hge] at h
      exact absurd h (by decide)
  · exact absurd h (hstay _)
  · exact hbeyond h₄.1
  · exact hbeyond h₅.1
  · exact absurd h (hstay _)
  · exact absurd h (hstay _)

theorem coversFin_of_ne (hp : c.s.tx.txDatalen = 0) (h : seg.hdr.acknum ≠ c.s.tx.sendNext) :
    CoversFin c.s seg := by
  have h0 : (seg.hdr.acknum - c.s.tx.sendNext).toNat ≠ 0 := fun h' =>
    h (sub_eq_zero.mp (BitVec.eq_of_toNat_eq h'))
  unfold CoversFin
  rw [hp]
  exact Nat.one_le_iff_ne_zero.mpr h0

/-- A segment ends LASTACK, CLOSING or FINWT1 only if it covers our FIN. -/
def CloseLaw (e : Env) (c : Conn) (seg : InSegment) : Prop :=
  c.s.state.endsFin (tcpFsm e c seg).1.s.state → CoversFin c.s seg

/-- No segment ends LASTACK inside the pending data. -/
def CloseOk (c : Conn) (seg : InSegment) : Prop :=
  c.s.state = .lastack → lastackEnds c.s seg →
    c.s.tx.txDatalen.toNat < (seg.hdr.acknum - c.s.tx.sendNext).toNat

theorem tcpFsm_closeLaw_iff (hsent : c.half.Sent) : CloseLaw e c seg ↔ CloseOk c seg := by
  have hnil : c.s.state = .finwt1 ∨ c.s.state = .closing → c.s.tx.txDatalen = 0 := fun h =>
    pending_eq_nil.mp (hsent h)
  constructor
  · intro h hst hends
    refine h (.inl ⟨hst, ?_⟩)
    unfold tcpFsm
    rw [hst]
    exact (tcpLastackState_ends hst).mpr hends
  · intro h hends
    unfold tcpFsm at hends
    have hcases := hends
    rcases hcases with ⟨hst, hcl⟩ | ⟨hst, htw⟩ | ⟨hst, -⟩
    · rw [hst] at hcl
      exact h hst ((tcpLastackState_ends hst).mp hcl)
    · rw [hst] at htw
      refine coversFin_of_ne (hnil (.inr hst)) fun heq => ?_
      have hgt := tcpClosingState_ends hst htw
      rw [heq, seqGt_iff, sub_self] at hgt
      exact absurd hgt.1 (by decide)
    · rw [hst] at hends
      exact coversFin_of_ne (hnil (.inl hst)) (tcpFinwt1State_ends hst (hnil (.inl hst)) hends)

/-! ## Runs -/

/-- Every segment that reaches the state machine obeys the law. -/
def CloseStepLaw (c : Conn) (ev : Event) : Prop :=
  ∀ seg c₁, ev.op = .segment seg → fsmEntry ev.e c seg = some c₁ → CloseLaw ev.e c₁ seg

/-- No segment ends LASTACK inside the pending data. -/
def CloseStepOk (c : Conn) (ev : Event) : Prop :=
  ∀ seg c₁, ev.op = .segment seg → fsmEntry ev.e c seg = some c₁ → CloseOk c₁ seg

theorem fsmEntry_half {c₁ : Conn} (h : fsmEntry e c seg = some c₁) : c₁.half = c.half := by
  unfold fsmEntry at h
  rcases hd : demux e c seg with _ | c' <;> rw [hd] at h
  · cases h
  dsimp only at h
  split_ifs at h
  cases h
  rw [← (demux_half hd).1]
  rfl

/-- **No premature close of our half**: in a run that starts with nothing pending in FINWT1 and
CLOSING, every segment obeys the law exactly if none ends LASTACK inside the pending data. -/
theorem no_premature_close_iff (c : Conn) (evs : List Event) (hsent : c.half.Sent) :
    Always stepConn CloseStepLaw c evs ↔ Always stepConn CloseStepOk c evs := by
  refine always_iff_of_invariant (I := fun c => c.half.Sent)
    (fun _ ev h _ => sent_of_outstanding ev h) ?_ evs hsent
  intro c ev h
  unfold CloseStepLaw CloseStepOk
  refine forall₂_congr fun seg c₁ => forall₂_congr fun _ hc₁ => tcpFsm_closeLaw_iff ?_
  rwa [fsmEntry_half hc₁]

/-- 4 bytes written, the peer's FIN, and an ACK of the first two: the connection is closed and the
other two are lost. -/
theorem no_premature_close_fails : ¬ Always stepConn CloseStepLaw (establishedConn [])
    [⟨{}, .write [1, 2, 3, 4]⟩,
      ⟨{}, .segment (peerSegment { ack := true, fin := true } 1000 1 0)⟩,
      ⟨{}, .segment (peerSegment { ack := true } 1001 3 0)⟩] := by
  rintro ⟨-, -, h, -⟩
  have := h _ _ rfl rfl
  revert this
  unfold CloseLaw
  decide +kernel

theorem no_premature_close_established : Always stepConn CloseStepLaw (establishedConn [])
      [⟨{}, .close⟩] ↔ Always stepConn CloseStepOk (establishedConn []) [⟨{}, .close⟩] :=
  no_premature_close_iff _ _ (by rintro (h | h) <;> cases h)

end Watt32.Tcp
