import Watt32.Tcp.Outstanding

/-!
# Segments without options

After the handshake no segment has SYN. Without a secret and with time stamps off none has options.

* `Trim`: what decides that, and the number a segment acknowledges.
* `Plain A e b c`: `c` has no SYN, no secret and no `protoHandler` and its `recv_next` is in `A`; so had the
  control block at any call that `b` does not have, and these calls were made in `e`.
* **`Plain.step`**: every step after the handshake keeps that.
-/

namespace Watt32.Tcp

variable {A : Dword → Prop} {e : Env} {b c c' : Conn} {seg : InSegment} {flags : TcpFlags}

/-- What decides whether segments have options and whether data go to the buffer, and the number that
segments acknowledge. -/
structure Trim where
  syn : Bool
  secret : Option (List Byte)
  handler : Option ProtoHandler
  recvNext : Dword

/-- The trim of a control block. -/
def TcpSocket.trim (s : TcpSocket) : Trim := ⟨s.flags.syn, s.secret, s.protoHandler, s.rx.recvNext⟩

/-- No SYN, no secret, no `protoHandler`, and the number in `A`. -/
structure Trim.Plain (A : Dword → Prop) (t : Trim) : Prop where
  syn : t.syn = false
  secret : t.secret = none
  handler : t.handler = none
  recvNext : A t.recvNext

/-- Whatever the number. -/
def anyNumber : Dword → Prop := fun _ => True

/-- A call of `_tcp_send` in `e` without SYN and secret. -/
structure SendCall.Plain (A : Dword → Prop) (e : Env) (k : SendCall) : Prop where
  emitted : k.Emitted e
  trim : k.entry.trim.Plain A

/-- `c` is plain, and so is any call that `b` does not have. -/
structure Plain (A : Dword → Prop) (e : Env) (b c : Conn) : Prop where
  trim : c.s.trim.Plain A
  calls : ∀ k ∈ c.calls, k ∈ b.calls ∨ k.Plain A e

theorem Plain.refl (h : b.s.trim.Plain A) : Plain A e b b := ⟨h, fun _ => .inl⟩

/-- A change of the trim. -/
theorem Plain.change (h : Plain A e b c) (f : TcpSocket → TcpSocket) (hf : (f c.s).trim.Plain A) :
    Plain A e b (c.upd f) := ⟨hf, h.calls⟩

/-- A change beside the trim. -/
theorem Plain.beside (h : Plain A e b c) (f : TcpSocket → TcpSocket) (hf : (f c.s).trim = c.s.trim) :
    Plain A e b (c.upd f) := h.change f (hf ▸ h.trim)

/-- A change of the flags that clears SYN. -/
theorem Plain.clear (h : Plain A e b c) (f : TcpSocket → TcpSocket)
    (hf : (f c.s).trim = { c.s.trim with syn := false }) : Plain A e b (c.upd f) := by
  refine h.change f ?_
  rw [hf]
  exact ⟨rfl, h.trim.secret, h.trim.handler, h.trim.recvNext⟩

theorem Plain.ite {p : Prop} [Decidable p] (h : Plain A e b c) (h' : Plain A e b c') :
    Plain A e b (if p then c else c') := by
  split_ifs
  · exact h
  · exact h'

/-! ## Sending, closing, resetting -/

theorem Plain.afterTurns (h : Plain A e b c) : Plain A e b (afterTurns e c) := by
  have hcore := @sendTurns_core e c
  refine ⟨(congrArg TcpSocket.trim hcore :) ▸ h.trim, fun k hk => ?_⟩
  unfold Tcp.afterTurns at hk
  rcases List.mem_append.mp hk with hk | hk
  · exact h.calls k hk
  · rw [List.mem_singleton.mp hk]
    exact .inr ⟨⟨_, _, rfl⟩, h.trim⟩

theorem Plain.sent (h : Plain A e b c) : Plain A e b (tcpSend e c).1 ∧ Plain A e b (tcpSendsoon e c).1 :=
  sending_rule (fun _ hc => hc.afterTurns) (fun _ _ hc => hc.afterTurns.beside _ rfl)
    (fun _ _ _ hc => hc.beside _ rfl) h

theorem Plain.send (h : Plain A e b c) : Plain A e b (tcpSend e c).1 := h.sent.1

theorem Plain.sendsoon (h : Plain A e b c) : Plain A e b (tcpSendsoon e c).1 := h.sent.2

theorem Plain.unthread (h : Plain A e b c) (freeTx : Bool) : Plain A e b (tcpUnthread freeTx c) := by
  have hf : (Tcp.unthread freeTx c.s).trim = c.s.trim := by
    unfold Tcp.unthread
    dsimp only
    split_ifs <;> rfl
  exact ⟨hf ▸ h.trim, h.calls⟩

theorem Plain.close (h : Plain A e b c) : Plain A e b (tcpClose e c) := by
  have hnow : Plain A e b (closeNow e c) := (h.clear _ rfl).send
  have hlater : Plain A e b (closeLater e c) := by
    have hpush : Plain A e b (c.upd fun s => { s with flags := { s.flags with push := true, ack := true } }) :=
      h.beside _ rfl
    unfold closeLater
    dsimp only
    split_ifs
    · exact Plain.sendsoon (hpush.beside _ rfl)
    · exact hpush
  have hwt : Plain A e b (closeClosWt e c) := (h.beside _ rfl).send
  have hshut : Plain A e b (tcpUnthread false (c.upd fun s => { s with state := .closed })) :=
    (h.beside _ rfl).unthread false
  unfold tcpClose
  split_ifs
  · exact h
  all_goals
    cases c.s.state <;> dsimp only
    case estab | estcl | synrec =>
      first | exact hlater.beside _ rfl | exact hnow.beside _ rfl
    case closwt => exact hwt.beside _ rfl
    case resolve | synsent => exact hshut
    all_goals exact h

theorem Plain.abort (h : Plain A e b c) : Plain A e b (tcpAbort e c) := by
  have hreset : Plain A e b (abortReset e c) := (h.clear _ rfl).send
  exact ((hreset.ite h).beside _ rfl).unthread true

theorem Plain.sockreset (h : Plain A e b c) : Plain A e b (tcpSockreset c) := by
  unfold tcpSockreset
  dsimp only
  split
  · exact ⟨h.trim, by simp⟩
  · refine Plain.unthread ?_ true
    exact ⟨h.trim, h.calls⟩

/-! ## Segments -/

theorem Plain.data (h : Plain A e b c) (hA : A (processData e c seg flags).1.s.rx.recvNext) :
    Plain A e b (processData e c seg flags).1 := by
  have hcore := tcpProcessData_core e c.s seg flags
  refine ⟨⟨?_, ?_, ?_, hA⟩, h.calls⟩
  · exact (congrArg (fun s : TcpSocket => s.flags.syn) hcore :).trans h.trim.syn
  · exact (congrArg TcpSocket.secret hcore :).trans h.trim.secret
  · exact (congrArg TcpSocket.protoHandler hcore :).trans h.trim.handler

theorem Plain.ack (h : Plain A e b c) (acknum : Dword) : Plain A e b (tcpProcessAck c acknum).1 := by
  have hcore := tcpProcessAck_core c acknum
  refine ⟨(congrArg TcpSocket.trim hcore :) ▸ h.trim, ?_⟩
  unfold tcpProcessAck
  split_ifs <;> exact h.calls

theorem Plain.estabFin (h : Plain A e b c) (seqnum : Dword)
    (hA : (estabFin e c seqnum flags).1.s.state = .lastack → A (c.s.rx.recvNext + 1)) :
    Plain A e b (estabFin e c seqnum flags).1 := by
  unfold Tcp.estabFin at *
  split_ifs at *
  · dsimp only
    refine Plain.beside (Plain.send (h.change _ ?_)) _ rfl
    exact ⟨h.trim.syn, h.trim.secret, h.trim.handler, hA rfl⟩
  · exact Plain.send (h.beside _ rfl)
  · exact h

theorem Plain.sendNow (h : Plain A e b c) : Plain A e b (estabSendNow e c) := by
  have hsent : Plain A e b (tcpSend e (c.updRtt fun r => { r with karnCount := 0 })).1 :=
    Plain.send (h.beside _ rfl)
  exact Plain.ite (hsent.beside _ rfl) hsent

theorem Plain.reply (h : Plain A e b c) (ldiff : Dword) (didTx : Bool) :
    Plain A e b (estabReply e c seg flags ldiff didTx) := by
  unfold estabReply
  dsimp only
  split_ifs
  · exact h.sendNow
  · exact h.sendNow
  · exact h.sendsoon
  · exact Plain.send (h.beside _ rfl)
  · exact h

/-- `A` has the number a step ends with, and every number if it ends the data. -/
structure Ends (A : Dword → Prop) (s' : TcpSocket) : Prop where
  recvNext : A s'.rx.recvNext
  shut : ¬ s'.state.receiving → ∀ x, A x

theorem Plain.estabState (h : Plain A e b c) (hA : Ends A (tcpEstabState e c seg flags).1.s) :
    Plain A e b (tcpEstabState e c seg flags).1 := by
  have hack : Plain A e b (estabAck c seg.hdr.acknum) := by
    unfold estabAck
    dsimp only
    exact ((h.beside _ rfl).ack _).clear _ rfl
  unfold tcpEstabState at hA ⊢
  split_ifs at hA ⊢
  · exact h.send
  · exact h
  have hdata := @Plain.data A e b _ seg flags hack
  dsimp only at hA ⊢
  generalize processData e (estabAck c seg.hdr.acknum) seg flags = r at *
  split_ifs at hA ⊢
  · exact (hdata (by simpa using hA.recvNext)).send
  have hfin : (Tcp.estabFin e r.1 seg.hdr.seqnum r.2.2).1.s.state = TcpState.lastack → ∀ x, A x := by
    refine fun hlast => hA.shut ?_
    rw [estabReply_state, hlast]
    decide
  by_cases htake : estabFinHere r.1.s seg.hdr.seqnum r.2.2 ∧ r.1.s.rx.missedSeq0 = r.1.s.rx.missedSeq1
  · have hall := hfin (by rw [Tcp.estabFin, if_pos htake.1, if_pos htake.2]; rfl)
    exact ((hdata (hall _)).estabFin _ fun _ => hall _).reply _ _
  · have hkept := (estabFin_kept (e := e) htake).1
    have hr : A r.1.s.rx.recvNext := by
      have := hA.recvNext
      rwa [estabReply_rx, hkept] at this
    exact ((hdata hr).estabFin _ fun hlast => hfin hlast _).reply _ _

theorem Plain.finwt1Fin (h : Plain A e b c) (acknum : Dword) (hA : A (c.s.rx.recvNext + 1)) :
    Plain A e b (finwt1Fin e c acknum) := by
  refine Plain.send (h.change _ ⟨rfl, ?_, ?_, ?_⟩)
  · have := h.trim.secret
    dsimp only [TcpSocket.trim]
    split_ifs <;> exact this
  · have := h.trim.handler
    dsimp only [TcpSocket.trim]
    split_ifs <;> exact this
  · dsimp only [TcpSocket.trim]
    split_ifs <;> exact hA

theorem Plain.finwt1Acked (h : Plain A e b c) : Plain A e b (finwt1Acked e c).1 := by
  unfold Tcp.finwt1Acked
  split_ifs
  · exact h.unthread true
  · dsimp only
    exact h.beside _ rfl

theorem unthread_closed (freeTx : Bool) : (tcpUnthread freeTx c).s.state = .closed := by
  unfold tcpUnthread unthread
  dsimp only
  split_ifs <;> rfl

theorem Plain.finwt1State (h : Plain A e b c) (hA : Ends A (tcpFinwt1State e c seg flags).1.s) :
    Plain A e b (tcpFinwt1State e c seg flags).1 := by
  have hack : Plain A e b (finwt1Ack c seg.hdr.acknum) :=
    Plain.ite ((h.ack _).beside _ rfl) (h.ack _)
  have hdata := @Plain.data A e b _ seg flags hack
  unfold tcpFinwt1State at hA ⊢
  dsimp only at hA ⊢
  generalize processData e (finwt1Ack c seg.hdr.acknum) seg flags = r at *
  split_ifs at hA ⊢
  · have hall : ∀ x, A x := by
      refine hA.shut ?_
      rw [finwt1Fin_state]
      split_ifs <;> decide
    exact (hdata (hall _)).finwt1Fin _ (hall _)
  · exact hdata hA.recvNext
  · have hrx := (finwt1Acked_frame e r.1).1
    exact (hdata (hrx ▸ hA.recvNext)).finwt1Acked
  · have hall : ∀ x, A x := by
      refine hA.shut ?_
      rw [finwt1Reset, unthread_closed]
      decide
    have hplain := hdata (hall _)
    refine Plain.unthread (Plain.send (hplain.change _ ?_)) true
    exact ⟨rfl, hplain.trim.secret, hplain.trim.handler, hall _⟩
  · exact hdata hA.recvNext
  · exact hdata hA.recvNext

theorem Plain.finwt2State (h : Plain A e b c) (hA : Ends A (tcpFinwt2State e c seg flags).1.s) :
    Plain A e b (tcpFinwt2State e c seg flags).1 := by
  have hdata := @Plain.data A e b _ seg flags h
  unfold tcpFinwt2State at hA ⊢
  dsimp only at hA ⊢
  generalize processData e c seg flags = r at *
  have hgot : Plain A e b r.1 → Plain A e b (if r.2.2.fin then r.1.upd fun s => { s with
      locflags := { s.locflags with gotFin := true } } else r.1) := fun h => (h.beside _ rfl).ite h
  have hrx : (if r.2.2.fin then r.1.upd fun s => { s with
      locflags := { s.locflags with gotFin := true } } else r.1).s.rx = r.1.s.rx := by
    split_ifs <;> rfl
  generalize (if r.2.2.fin then r.1.upd fun s => { s with
      locflags := { s.locflags with gotFin := true } } else r.1) = c₂ at *
  split_ifs at hA ⊢
  · exact hdata hA.recvNext
  · have hall : ∀ x, A x := hA.shut (by simp [TcpState.receiving])
    have hplain := hgot (hdata (hall _))
    refine Plain.send (hplain.change _ ?_)
    exact ⟨rfl, hplain.trim.secret, hplain.trim.handler, hall _⟩
  · exact hgot (hdata (hrx ▸ hA.recvNext))

theorem Plain.lastackState (h : Plain A e b c) : Plain A e b (tcpLastackState e c seg flags).1 := by
  unfold tcpLastackState
  split_ifs
  · dsimp only
    exact Plain.beside (Plain.send (h.clear _ rfl)) _ rfl
  · dsimp only
    exact h.beside _ rfl
  · exact h

/-- **The state machine** after the handshake. -/
theorem Plain.fsm (h : Plain A e b c) (hs : ¬ c.s.state.early) (hA : Ends A (tcpFsm e c seg).1.s) :
    Plain A e b (tcpFsm e c seg).1 := by
  unfold tcpFsm at hA ⊢
  rcases hst : c.s.state <;> rw [hst] at hA <;> dsimp only at hA ⊢
  case listen | resolve | synsent | synrec => exact absurd (by simp [TcpState.early, hst]) hs
  case estab | closwt => exact h.estabState hA
  case estcl =>
    unfold tcpEstclState at hA ⊢
    refine Plain.close (h.estabState ⟨by simpa using hA.recvNext, fun hshut => hA.shut ?_⟩)
    rw [tcpClose_state, closeState]
    rcases @tcpEstabState_state e c seg seg.hdr.flags with hk | hk
    · exact absurd (by simp [hk, hst, TcpState.receiving]) hshut
    · rw [hk]
      split_ifs <;> decide
  case finwt1 => exact h.finwt1State hA
  case finwt2 => exact h.finwt2State hA
  case closing =>
    unfold tcpClosingState
    split_ifs
    · dsimp only
      exact h.beside _ rfl
    · exact h
  case lastack => exact h.lastackState
  case timewt =>
    unfold tcpTimewtState
    split_ifs
    · exact Plain.send (h.clear _ rfl)
    · exact h
  case closed => exact h

/-! ## The machine -/

theorem demux_trim (h : demux e c seg = some c') : c'.s.trim = c.s.trim ∧
    c'.s.state = c.s.state ∧ c'.s.rx = c.s.rx ∧ c'.calls = c.calls := by
  unfold demux restartIdle at h
  split_ifs at h <;> cases h <;> dsimp only [Conn.upd] <;> split_ifs <;> exact ⟨rfl, rfl, rfl, rfl⟩

theorem Plain.handler (h : Plain A e b c) (hs : ¬ c.s.state.early) (hA : Ends A (tcpHandler e c seg).s) :
    Plain A e b (tcpHandler e c seg) := by
  unfold tcpHandler at hA ⊢
  rcases hd : demux e c seg with _ | c'
  · exact h
  obtain ⟨htrim, hstate, -, hcalls⟩ := demux_trim hd
  have h' : Plain A e b c' := ⟨htrim ▸ h.trim, hcalls ▸ h.calls⟩
  have hbefore : Plain A e b (beforeFsm e c' seg) := by
    unfold beforeFsm tcpRttWin Conn.updRtt
    exact ((h'.beside _ rfl).beside _ rfl).beside _ rfl
  rw [hd] at hA
  dsimp only at hA ⊢
  split_ifs at hA ⊢
  · exact h'.sockreset
  have hends : Ends A (tcpFsm e (beforeFsm e c' seg) seg).1.s := by
    unfold afterFsm at hA
    split_ifs at hA
    · exact ⟨by simpa using hA.recvNext, fun hs => hA.shut (by simpa using hs)⟩
    · exact hA
  have hfsm : Plain A e b (tcpFsm e (beforeFsm e c' seg) seg).1 := by
    refine hbefore.fsm ?_ hends
    show ¬ c'.s.state.early
    rwa [hstate]
  exact hfsm.sendsoon.ite hfsm

theorem Plain.read (h : Plain A e b c) (maxlen : Dword) : Plain A e b (tcpRead e c maxlen).1 := by
  have hread : ∀ len, Plain A e b (c.upd fun s => { s with rx := readRx s.rx len }) := fun len =>
    h.beside _ (by simp [TcpSocket.trim, readRx_recvNext])
  unfold tcpRead
  dsimp only
  rw [apply_ite Prod.fst]
  refine Plain.ite (Plain.ite (hread _).sendsoon ?_) (h.close.ite h)
  exact (hread _).send.ite (hread _)

theorem Plain.writeTake (h : Plain A e b c) (data : List Byte) (room : Dword) (push : Bool) :
    Plain A e b (writeTake e c data room push).1 := by
  have htake : Plain A e b { c with s := appendTx e c.s data, accepted := c.accepted ++ data } :=
    ⟨h.trim, h.calls⟩
  have hpush : ∀ {c'}, Plain A e b c' → Plain A e b
      (c'.upd fun s => { s with flags := { s.flags with push := s.flags.push || push } }) :=
    fun h => h.beside _ rfl
  unfold Tcp.writeTake
  dsimp only
  rw [apply_ite Prod.fst]
  refine htake.ite (hpush ?_)
  rw [apply_ite Prod.fst]
  exact htake.send.ite htake.sendsoon

theorem Plain.write (h : Plain A e b c) (data : List Byte) : Plain A e b (tcpWrite e c data).1 := by
  unfold tcpWrite
  dsimp only
  split_ifs
  · exact h
  · exact h
  · exact Plain.writeTake (h.beside _ rfl) _ _ _
  · exact h
  · exact h.writeTake _ _ _

theorem Plain.flush (h : Plain A e b c) : Plain A e b (sockFlush e c) := by
  have hlocal : Plain A e b (c.upd fun s => { s with localMode := false }) := h.beside _ rfl
  have hpush := hlocal.beside (fun s => { s with flags := { s.flags with push := true } }) rfl
  unfold sockFlush
  dsimp only
  exact Plain.ite (Plain.ite (Plain.ite hpush.send hpush) hlocal) h

theorem Plain.dead (h : Plain A e b c) : Plain A e b (tickDead c) := by
  unfold tickDead
  exact Plain.ite ((h.unthread true).beside _ rfl) h

/-- A change on a condition that leaves a field as it is. -/
theorem field_ite {α : Type*} (f : TcpSocket → α) {p : Prop} [Decidable p] {s s' : TcpSocket} (h : f s' = f s) :
    f (if p then s' else s) = f s := by
  split_ifs
  · exact h
  · rfl

theorem retransPrepare_trim (s : TcpSocket) : (retransPrepare s).trim = s.trim := by
  refine (field_ite TcpSocket.trim ?_).trans ((field_ite TcpSocket.trim ?_).trans (field_ite TcpSocket.trim ?_))
  all_goals rfl

theorem Plain.retransSend (h : Plain A e b c) : Plain A e b (retransSend e c) := by
  have hprepare := h.beside retransPrepare (retransPrepare_trim c.s)
  unfold Tcp.retransSend
  split_ifs
  · exact Plain.send (h.beside _ rfl)
  · exact hprepare.send
  · exact h.abort.beside _ rfl
  · exact h
  · exact h

theorem Plain.timeouts (h : Plain A e b c) : Plain A e b (retransTimeouts e c) := by
  unfold retransTimeouts
  split_ifs
  · exact Plain.close (h.beside _ rfl)
  · exact h.beside _ rfl
  · exact h.abort
  · exact h
  · exact h

theorem Plain.retransmitter (h : Plain A e b c) (hs : ¬ c.s.state.early) :
    Plain A e b (tcpRetransmitter e c) := by
  unfold tcpRetransmitter
  split_ifs with _ hres
  · exact h
  · exact absurd (by simp [TcpState.early, hres]) hs
  · exact h.unthread true
  · exact h
  · exact h.retransSend.timeouts

/-- **Every step after the handshake** leaves the connection plain. -/
theorem Plain.step (ev : Event) (h : Plain A ev.e b c) (hs : ¬ c.s.state.early)
    (hA : Ends A (stepConn c ev).s) : Plain A ev.e b (stepConn c ev) := by
  unfold stepConn at hA ⊢
  cases hop : ev.op <;> rw [hop] at hA <;> dsimp only at hA ⊢
  case segment seg => exact h.handler hs hA
  case read maxlen => exact h.read maxlen
  case write data => exact h.write data
  case flush => exact h.flush
  case flushnext => exact Plain.ite (h.beside _ rfl) h
  case noflush => exact Plain.ite (h.beside _ rfl) h
  case close => exact h.close.dead.ite h
  case abort => exact h.abort
  case retransmit => exact h.retransmitter hs

end Watt32.Tcp
