import Watt32.Tcp.Moves

/-!
# Servers

`LF_IS_SERVER` is set by `tcp_listen` and cleared by `accept` alone, and only a reset brings a
control block with it back to LISTEN.

* `TcpSocket.identity`: the flag and the peer; **`tcpFsm_identity`**, **`tcpRetransmitter_identity`**:
  they stay.
* **`tcpFsm_leaves`**, **`tcpRetransmitter_leaves`**: LISTEN is not entered again.
-/

namespace Watt32.Tcp

variable {e : Env} {c : Conn} {seg : InSegment}

/-! ## What a connection keeps -/

/-- What only opening, closing the listening socket and `accept` write: the flag and the peer. -/
structure Identity where
  isServer : Bool
  hisaddr : Dword
  hisport : Word

/-- The identity of a control block. -/
def TcpSocket.identity (s : TcpSocket) : Identity := ⟨s.locflags.isServer, s.hisaddr, s.hisport⟩

section Identity

variable (e c) (seg : InSegment) (flags : TcpFlags) (acknum seqnum : Dword)

@[simp] theorem tcpSend_identity : (tcpSend e c).1.s.identity = c.s.identity :=
  (congrArg TcpSocket.identity tcpSend_sent.1.core :)

theorem tcpSend_upd_identity {f g : TcpSocket → TcpSocket}
    (hf : ∀ s, (f s).identity = s.identity) (hg : ∀ s, (g s).identity = s.identity) :
    ((tcpSend e (c.upd f)).1.upd g).s.identity = c.s.identity :=
  (hg _).trans ((tcpSend_identity e _).trans (hf _))

@[simp] theorem tcpSendsoon_identity : (tcpSendsoon e c).1.s.identity = c.s.identity :=
  (congrArg TcpSocket.identity tcpSend_sent.2.core :)

@[simp] theorem unthread_identity (freeTx : Bool) (s : TcpSocket) :
    (unthread freeTx s).identity = s.identity := by
  unfold unthread
  dsimp only
  split_ifs <;> rfl

@[simp] theorem tcpUnthread_identity (freeTx : Bool) :
    (tcpUnthread freeTx c).s.identity = c.s.identity := unthread_identity _ _

@[simp] theorem tcpSendReset_identity : (tcpSendReset e c seg).s.identity = c.s.identity := by
  simp only [tcpSendReset]
  split_ifs <;> rfl

@[simp] theorem tcpClose_identity : (tcpClose e c).s.identity = c.s.identity := by
  have hnow : (closeNow e c).s.identity = c.s.identity := (tcpSend_identity e _).trans rfl
  have hlater : (closeLater e c).s.identity = c.s.identity := by
    simp only [closeLater]
    split_ifs
    · exact (tcpSendsoon_identity e _).trans rfl
    · rfl
  have hwt : (closeClosWt e c).s.identity = c.s.identity := (tcpSend_identity e _).trans rfl
  unfold tcpClose
  split_ifs
  · rfl
  · cases c.s.state <;> first | rfl | exact hlater | exact hwt
  · cases c.s.state <;> first | rfl | exact hnow | exact hwt

@[simp] theorem tcpAbort_identity : (tcpAbort e c).s.identity = c.s.identity := by
  have hreset : (abortReset e c).s.identity = c.s.identity := (tcpSend_identity e _).trans rfl
  simp only [tcpAbort]
  split_ifs
  · exact (tcpUnthread_identity _ true).trans hreset
  · exact tcpUnthread_identity _ true

@[simp] theorem tcpSetWindow_identity (s : TcpSocket) (hdr : TcpHeader) :
    (tcpSetWindow e s hdr).identity = s.identity := by
  unfold tcpSetWindow
  dsimp only
  split_ifs <;> (try cases e.heap) <;> rfl

@[simp] theorem processData_identity :
    (processData e c seg flags).1.s.identity = c.s.identity := by
  have h : (processHeader e c.s seg flags).identity = c.s.identity :=
    (congrArg TcpSocket.identity (processHeader_core e c.s seg flags) :)
  rw [← h]
  unfold processData tcpProcessData
  dsimp only
  split_ifs <;> rfl

@[simp] theorem estabAck_identity : (estabAck c acknum).s.identity = c.s.identity :=
  (congrArg TcpSocket.identity
    (tcpProcessAck_core (c.upd fun s => { s with timeout := 0 }) acknum) :)

@[simp] theorem finwt1Ack_identity : (finwt1Ack c acknum).s.identity = c.s.identity :=
  (congrArg TcpSocket.identity (finwt1Ack_core c acknum) :)

@[simp] theorem estabFin_identity : (estabFin e c seqnum flags).1.s.identity = c.s.identity := by
  simp only [estabFin]
  split_ifs
  · exact (tcpSend_identity e _).trans rfl
  · exact (tcpSend_identity e _).trans rfl
  · rfl

@[simp] theorem estabReply_identity (ldiff : Dword) (didTx : Bool) :
    (estabReply e c seg flags ldiff didTx).s.identity = c.s.identity := by
  have hnow : (estabSendNow e c).s.identity = c.s.identity := by
    simp only [estabSendNow]
    split_ifs <;> exact (tcpSend_identity e _).trans rfl
  simp only [estabReply]
  split_ifs
  · exact hnow
  · exact hnow
  · exact tcpSendsoon_identity e c
  · exact (tcpSend_identity e _).trans rfl
  · rfl

@[simp] theorem tcpEstabState_identity :
    (tcpEstabState e c seg flags).1.s.identity = c.s.identity := by
  simp only [tcpEstabState]
  split_ifs <;> simp

@[simp] theorem tcpListenState_identity :
    (tcpListenState e c seg flags).1.s.identity = c.s.identity := by
  simp only [tcpListenState]
  split_ifs
  · exact tcpSend_upd_identity e c (fun _ => rfl) fun _ => by simp only [TcpSocket.identity]
  · exact tcpSendReset_identity e c seg

@[simp] theorem tcpSynsentState_identity :
    (tcpSynsentState e c seg flags).1.s.identity = c.s.identity := by
  have hestab : ∀ c, (synsentEstablish e c seg flags).s.identity = c.s.identity := fun c =>
    (tcpSend_identity e _).trans ((processData_identity e _ seg flags).trans rfl)
  have hrestart : ∀ c, (synsentRestart e c).s.identity = c.s.identity := fun c =>
    (tcpSendsoon_identity e _).trans (tcpSend_identity e _)
  simp only [tcpSynsentState]
  split_ifs
  · exact (hestab _).trans rfl
  · exact (hrestart _).trans rfl
  · rfl
  · exact tcpSendReset_identity e c seg

@[simp] theorem tcpSynrecState_identity :
    (tcpSynrecState e c seg flags).1.s.identity = c.s.identity := by
  simp only [tcpSynrecState]
  split_ifs
  · exact tcpSend_upd_identity e c (fun _ => rfl) fun _ => by simp only [TcpSocket.identity]
  · exact tcpSetWindow_identity e c.s seg.hdr
  · rfl

@[simp] theorem finwt1Fin_identity : (finwt1Fin e c acknum).s.identity = c.s.identity := by
  simp only [finwt1Fin, tcpSend_identity, Conn.upd_s]
  split_ifs <;> rfl

@[simp] theorem tcpFinwt1State_identity :
    (tcpFinwt1State e c seg flags).1.s.identity = c.s.identity := by
  have hacked : ∀ c, (finwt1Acked e c).1.s.identity = c.s.identity := by
    intro c
    simp only [finwt1Acked]
    split_ifs
    · exact tcpUnthread_identity c true
    · rfl
  have hreset : ∀ c, (finwt1Reset e c).s.identity = c.s.identity := fun c =>
    (tcpUnthread_identity _ true).trans (tcpSend_identity e _)
  simp only [tcpFinwt1State]
  split_ifs <;> simp [hacked, hreset]

@[simp] theorem tcpFinwt2State_identity :
    (tcpFinwt2State e c seg flags).1.s.identity = c.s.identity := by
  have hdata := processData_identity e c seg flags
  simp only [tcpFinwt2State]
  split_ifs <;> first | exact hdata | exact (tcpSend_identity e _).trans hdata

@[simp] theorem tcpClosingState_identity :
    (tcpClosingState e c seg flags).1.s.identity = c.s.identity := by
  simp only [tcpClosingState]
  split_ifs <;> rfl

@[simp] theorem tcpLastackState_identity :
    (tcpLastackState e c seg flags).1.s.identity = c.s.identity := by
  simp only [tcpLastackState]
  split_ifs
  · exact (tcpSend_identity e _).trans rfl
  · rfl
  · rfl

@[simp] theorem tcpTimewtState_identity :
    (tcpTimewtState e c seg flags).1.s.identity = c.s.identity := by
  simp only [tcpTimewtState]
  split_ifs
  · exact (tcpSend_identity e _).trans rfl
  · rfl

end Identity

/-- **The state machine leaves the identity alone.** -/
@[simp] theorem tcpFsm_identity (e : Env) (c : Conn) (seg : InSegment) :
    (tcpFsm e c seg).1.s.identity = c.s.identity := by
  unfold tcpFsm
  cases c.s.state <;> simp [tcpEstclState, tcpClosewtState]

@[simp] theorem afterFsm_identity (e : Env) (r : Conn × Bool) :
    (afterFsm e r).s.identity = r.1.s.identity := by
  unfold afterFsm
  split_ifs
  · exact tcpSendsoon_identity e r.1
  · rfl

@[simp] theorem restartIdle_identity (e : Env) (s : TcpSocket) :
    (restartIdle e s).identity = s.identity := by
  unfold restartIdle
  split_ifs <;> rfl

@[simp] theorem retransSend_identity (e : Env) (c : Conn) :
    (retransSend e c).s.identity = c.s.identity := by
  have hprepare : (retransPrepare c.s).identity = c.s.identity := by
    simp only [retransPrepare]
    split_ifs <;> rfl
  unfold retransSend
  split_ifs
  · exact (tcpSend_identity e _).trans rfl
  · exact (tcpSend_identity e _).trans hprepare
  · exact tcpAbort_identity e c
  · rfl
  · rfl

@[simp] theorem retransTimeouts_identity (e : Env) (c : Conn) :
    (retransTimeouts e c).s.identity = c.s.identity := by
  unfold retransTimeouts
  split_ifs
  · exact (tcpClose_identity e _).trans rfl
  · rfl
  · exact tcpAbort_identity e c
  · rfl
  · rfl

/-- **The periodic work leaves the identity alone.** -/
@[simp] theorem tcpRetransmitter_identity (e : Env) (c : Conn) :
    (tcpRetransmitter e c).s.identity = c.s.identity := by
  have hresolve : (retransResolve e c).s.identity = c.s.identity := by
    simp only [retransResolve]
    split_ifs
    · exact (tcpSend_identity e _).trans rfl
    · exact tcpAbort_identity e c
    · rfl
  unfold tcpRetransmitter
  split_ifs
  · rfl
  · exact hresolve
  · exact tcpUnthread_identity c true
  · rfl
  · rw [retransTimeouts_identity, retransSend_identity]

/-- **The state machine leaves the flag alone.** -/
theorem tcpFsm_isServer (e : Env) (c : Conn) (seg : InSegment) :
    (tcpFsm e c seg).1.s.locflags.isServer = c.s.locflags.isServer :=
  congrArg Identity.isServer (tcpFsm_identity e c seg)

/-- **The periodic work leaves the flag alone.** -/
theorem tcpRetransmitter_isServer (e : Env) (c : Conn) :
    (tcpRetransmitter e c).s.locflags.isServer = c.s.locflags.isServer :=
  congrArg Identity.isServer (tcpRetransmitter_identity e c)

/-! ## The way back to LISTEN -/

/-- What the environment of one segment or timeout may do: anything but reset a server. -/
def noRestart : Allow := ⟨True, fun _ => True, fun _ => False⟩

theorem Half.Next.leaves {A : Allow} {h h' : Half} (hn : h.Next A h') (hs : h.state ≠ .listen) :
    h'.state ≠ .listen := by
  cases hn
  case finAcked st b hs =>
    rcases hs with ⟨_, rfl⟩ | ⟨_, rfl⟩ <;> exact TcpState.noConfusion
  all_goals first | exact hs | exact TcpState.noConfusion

/-- Without a restart no move leads to LISTEN. -/
theorem Moves.leaves {c' : Conn} (h : Moves noRestart c c') (hs : c.s.state ≠ .listen) :
    c'.s.state ≠ .listen := by
  refine moves_invariant (I := fun c => c.half.state ≠ .listen) (fun c c' hc hm => ?_) h hs
  cases hm with
  | quiet h => rwa [h]
  | next h => exact h.leaves hc
  | call e u hu hul h => rw [h]; exact hc
  | abort n b u hu h => rw [h]; exact TcpState.noConfusion
  | restart hA => exact hA.elim

/-- **The state machine does not enter LISTEN.** -/
theorem tcpFsm_leaves (hs : c.s.state ≠ .listen) : (tcpFsm e c seg).1.s.state ≠ .listen :=
  Moves.leaves (tcpFsm_moves fun _ _ => trivial) hs

/-- **The periodic work does not enter LISTEN.** -/
theorem tcpRetransmitter_leaves (hs : c.s.state ≠ .listen) :
    (tcpRetransmitter e c).s.state ≠ .listen :=
  Moves.leaves (tcpRetransmitter_moves fun _ _ => trivial) hs

end Watt32.Tcp
