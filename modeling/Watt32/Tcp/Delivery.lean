import Watt32.Tcp.Outstanding
import Watt32.Tcp.Plain
import Watt32.Tcp.Server

/-!
# The receive side of all steps

What the steps of the machine do to the receive buffer after the handshake.

* `Intake`: a segment leaves the buffer, goes through `tcp_process_data`, ends the data, or resets.
* `RxBuf.Readable`: what can be read is a part of the stream, whether more is received or not.
* `stepEnd`: a step with the bytes that `tcp_read` hands out.
* **`Delivered.step`**: the bytes read and the buffer stay a prefix of the stream.
-/

namespace Watt32.Tcp

open Machine Mem

/-! ## Segments -/

/-- What a segment does to state and receive buffer after the handshake. -/
inductive Intake (seg : InSegment) (s s' : TcpSocket) : Prop
  | kept (hrx : s'.rx = s.rx)
  | taken (hs : s.state.receiving) (hrx : s'.rx = processRx none s.rx seg seg.hdr.flags)
  | ended (hs : s.state.receiving)
      (hrx : s'.rx = { processRx none s.rx seg seg.hdr.flags with
        recvNext := (processRx none s.rx seg seg.hdr.flags).recvNext + 1 })
      (hs' : ¬ s'.state.receiving)
  | reset (n : Dword) (hn : n = 0 ∨ n = s.rx.rxDatalen)
      (hrx : s'.rx = { s.rx with rxDatalen := n, missedSeq0 := 0, missedSeq1 := 0 })
      (hs' : ¬ s'.state.receiving)

section Segments

variable {e : Env} {c c' : Conn} {seg : InSegment} {flags : TcpFlags}

/-- Only the state and the receive buffer count. -/
theorem Intake.congr {s s' t t' : TcpSocket} (h : Intake seg t t') (hrx : t.rx = s.rx)
    (hst : t.state = s.state) (hrx' : s'.rx = t'.rx) (hst' : s'.state = t'.state) :
    Intake seg s s' := by
  cases h with
  | kept h => exact .kept ((hrx'.trans h).trans hrx)
  | taken h h' => exact .taken (hst ▸ h) (hrx'.trans (hrx ▸ h'))
  | ended h h' hn => exact .ended (hst ▸ h) (hrx'.trans (hrx ▸ h')) (hst' ▸ hn)
  | reset n hn h hn' => exact .reset n (hrx ▸ hn) (hrx'.trans (hrx ▸ h)) (hst' ▸ hn')

theorem processData_rx (hh : c.s.protoHandler = none) :
    (processData e c seg flags).1.s.rx = processRx none c.s.rx seg flags :=
  hh ▸ tcpProcessData_rx e c.s seg flags

theorem tcpEstabState_intake (hh : c.s.protoHandler = none) (hs : c.s.state.receiving) :
    Intake seg c.s (tcpEstabState e c seg seg.hdr.flags).1.s := by
  have hdata : (processData e (estabAck c seg.hdr.acknum) seg seg.hdr.flags).1.s.rx =
      processRx none c.s.rx seg seg.hdr.flags := by
    rw [processData_rx (by simpa using hh), estabAck_rx]
  unfold tcpEstabState
  split_ifs with hsyn hack
  · exact .kept (by simp)
  · exact .kept rfl
  dsimp only
  generalize processData e (estabAck c seg.hdr.acknum) seg seg.hdr.flags = r at *
  split_ifs
  · exact .taken hs (by simpa using hdata)
  · by_cases hfin : estabFinHere r.1.s seg.hdr.seqnum r.2.2 ∧ r.1.s.rx.missedSeq0 = r.1.s.rx.missedSeq1
    · refine .ended hs ?_ ?_
      · rw [estabReply_rx, estabFin_taken hfin.1 hfin.2, hdata]
      · rw [estabReply_state, estabFin, if_pos hfin.1, if_pos hfin.2]
        show ¬ TcpState.lastack.receiving
        decide
    · exact .taken hs (by rw [estabReply_rx, (estabFin_kept hfin).1, hdata])

theorem tcpEstclState_intake (hh : c.s.protoHandler = none) (hs : c.s.state = .estcl) :
    Intake seg c.s (tcpEstclState e c seg seg.hdr.flags).1.s := by
  have hrecv : c.s.state.receiving := by simp [TcpState.receiving, hs]
  have hstate := @tcpEstabState_state e c seg seg.hdr.flags
  have hestab : Intake seg c.s (tcpEstabState e c seg seg.hdr.flags).1.s := tcpEstabState_intake hh hrecv
  unfold tcpEstclState
  dsimp only
  generalize (tcpEstabState e c seg seg.hdr.flags).1 = c' at *
  cases hestab with
  | kept h => exact .kept ((tcpClose_rx e c').trans h)
  | taken h h' => exact .taken h ((tcpClose_rx e c').trans h')
  | ended h h' hn =>
    -- LASTACK, which closing leaves alone
    have hlast : c'.s.state = .lastack := hstate.resolve_left fun h => hn (h ▸ hrecv)
    refine .ended h ((tcpClose_rx e c').trans h') ?_
    rw [tcpClose_state, closeState, hlast]
    split_ifs <;> decide
  | reset n hn h hs' =>
    have hlast : c'.s.state = .lastack := hstate.resolve_left fun h => hs' (h ▸ hrecv)
    refine .reset n hn ((tcpClose_rx e c').trans h) ?_
    rw [tcpClose_state, closeState, hlast]
    split_ifs <;> decide

theorem tcpFinwt1State_intake (hh : c.s.protoHandler = none) (hs : c.s.state = .finwt1) :
    Intake seg c.s (tcpFinwt1State e c seg seg.hdr.flags).1.s := by
  have hrecv : c.s.state.receiving := by simp [TcpState.receiving, hs]
  have hcore := finwt1Ack_core c seg.hdr.acknum
  have hdata : (processData e (finwt1Ack c seg.hdr.acknum) seg seg.hdr.flags).1.s.rx =
      processRx none c.s.rx seg seg.hdr.flags := by
    rw [processData_rx ((congrArg TcpSocket.protoHandler hcore :).trans hh),
      show (finwt1Ack c seg.hdr.acknum).s.rx = c.s.rx from (congrArg TcpSocket.rx hcore :)]
  unfold tcpFinwt1State
  dsimp only
  generalize processData e (finwt1Ack c seg.hdr.acknum) seg seg.hdr.flags = r at *
  split_ifs
  · refine .ended hrecv (by rw [finwt1Fin_rx, hdata]) ?_
    rw [finwt1Fin_state]
    split_ifs <;> decide
  · exact .taken hrecv hdata
  · exact .taken hrecv ((finwt1Acked_frame e r.1).1.trans hdata)
  · refine .ended hrecv (by rw [finwt1Reset_rx, hdata]) ?_
    have hclosed : (finwt1Reset e r.1).s.state = .closed := by
      unfold finwt1Reset tcpUnthread unthread
      dsimp only
      split_ifs <;> rfl
    rw [hclosed]
    decide
  · exact .taken hrecv hdata
  · exact .taken hrecv hdata

theorem tcpFinwt2State_intake (hh : c.s.protoHandler = none) (hs : c.s.state = .finwt2) :
    Intake seg c.s (tcpFinwt2State e c seg seg.hdr.flags).1.s := by
  have hrecv : c.s.state.receiving := by simp [TcpState.receiving, hs]
  have hdata := @processData_rx e c seg seg.hdr.flags hh
  unfold tcpFinwt2State
  dsimp only
  generalize processData e c seg seg.hdr.flags = r at *
  have hfin : (if r.2.2.fin then r.1.upd fun s => { s with
      locflags := { s.locflags with gotFin := true } } else r.1).s.rx = r.1.s.rx := by
    split_ifs <;> rfl
  split_ifs
  · exact .taken hrecv hdata
  all_goals first
    | exact .taken hrecv hdata
    | exact .ended hrecv (by simp [hdata]) (by simp [TcpState.receiving])

/-- **The state machine** after the handshake, without a `protoHandler`. -/
theorem tcpFsm_intake (hh : c.s.protoHandler = none) (hs : ¬ c.s.state.early) :
    Intake seg c.s (tcpFsm e c seg).1.s := by
  unfold tcpFsm
  rcases hst : c.s.state <;> dsimp only
  case listen | resolve | synsent | synrec => exact absurd (by simp [TcpState.early, hst]) hs
  case estab | closwt => exact tcpEstabState_intake hh (by simp [TcpState.receiving, hst])
  case estcl => exact tcpEstclState_intake hh hst
  case finwt1 => exact tcpFinwt1State_intake hh hst
  case finwt2 => exact tcpFinwt2State_intake hh hst
  case closing => exact .kept (by unfold tcpClosingState; split_ifs <;> rfl)
  case lastack => exact .kept (by unfold tcpLastackState; split_ifs <;> simp)
  case timewt => exact .kept (by unfold tcpTimewtState; split_ifs <;> simp)
  case closed => exact .kept rfl

theorem tcpSockreset_intake (hserver : c.s.locflags.isServer = false) :
    Intake seg c.s (tcpSockreset c).s := by
  unfold tcpSockreset
  dsimp only
  rw [if_neg (by simp [hserver])]
  refine .reset (if c.s.state ≠ .closed ∧ c.s.state ≠ .lastack then 0 else c.s.rx.rxDatalen) ?_ ?_ ?_
  · split_ifs
    · exact .inl rfl
    · exact .inr rfl
  · exact unthread_rx true _
  · rw [show (tcpUnthread true _).s.state = .closed by
      unfold tcpUnthread unthread; dsimp only; split_ifs <;> rfl]
    decide

/-- **A segment** after the handshake that does not reset a server. -/
theorem tcpHandler_intake (hh : c.s.protoHandler = none) (hs : ¬ c.s.state.early)
    (hreset : ¬ ResetsServer e c seg) : Intake seg c.s (tcpHandler e c seg).s := by
  unfold tcpHandler
  rcases hd : demux e c seg with _ | c'
  · exact .kept rfl
  obtain ⟨htrim, hstate, hrx, -⟩ := demux_trim hd
  dsimp only
  split_ifs with hr
  · have hserver : c'.s.locflags.isServer = false := by
      by_contra hserver
      rw [Bool.not_eq_false, demux_isServer hd] at hserver
      exact hreset ⟨c', hd, hr, hserver⟩
    exact (tcpSockreset_intake hserver).congr hrx hstate rfl rfl
  have hfsm : Intake seg (beforeFsm e c' seg).s (tcpFsm e (beforeFsm e c' seg) seg).1.s := by
    refine tcpFsm_intake ((congrArg Trim.handler htrim :).trans hh) ?_
    show ¬ c'.s.state.early
    rwa [hstate]
  unfold afterFsm
  split_ifs
  · exact hfsm.congr hrx hstate (tcpSendsoon_rx e _) (tcpSendsoon_state e _)
  · exact hfsm.congr hrx hstate rfl rfl

end Segments

/-! ## The other steps -/

section Calls

variable {e : Env} {c c' : Conn}

@[simp] theorem tcpAbort_rx : (tcpAbort e c).s.rx = c.s.rx := by
  unfold tcpAbort abortReset tcpUnthread
  dsimp only
  rw [unthread_rx]
  split_ifs <;> simp

theorem tickDead_rx : (tickDead c).s.rx = c.s.rx := by
  unfold tickDead tcpUnthread
  split_ifs
  · exact unthread_rx true c.s
  · rfl

theorem writeTake_rx (data : List Byte) (room : Dword) (push : Bool) :
    (writeTake e c data room push).1.s.rx = c.s.rx := by
  unfold writeTake
  dsimp only
  split_ifs <;> simp [appendTx]

theorem tcpWrite_rx (data : List Byte) : (tcpWrite e c data).1.s.rx = c.s.rx := by
  unfold tcpWrite
  dsimp only
  split_ifs <;> simp [writeTake_rx]

theorem sockFlush_rx : (sockFlush e c).s.rx = c.s.rx := by
  unfold sockFlush
  dsimp only
  split_ifs <;> simp

theorem retransSend_rx : (retransSend e c).s.rx = c.s.rx := by
  have hprepare : (retransPrepare c.s).rx = c.s.rx := by
    refine (field_ite TcpSocket.rx ?_).trans ((field_ite TcpSocket.rx ?_).trans (field_ite TcpSocket.rx ?_))
    all_goals rfl
  unfold retransSend
  split_ifs <;> simp [hprepare]

theorem tcpRetransmitter_rx (hs : ¬ c.s.state.early) : (tcpRetransmitter e c).s.rx = c.s.rx := by
  have htimeouts : ∀ c : Conn, (retransTimeouts e c).s.rx = c.s.rx := by
    intro c
    unfold retransTimeouts
    split_ifs <;> simp
  unfold tcpRetransmitter
  split_ifs with _ hres
  · rfl
  · exact absurd (by simp [TcpState.early, hres]) hs
  · exact unthread_rx true c.s
  · rfl
  · exact (htimeouts _).trans retransSend_rx

/-- **Only segments and reads** touch the receive buffer after the handshake. -/
theorem stepConn_rx (ev : Event) (hs : ¬ c.s.state.early) (hseg : ∀ seg, ev.op ≠ .segment seg)
    (hread : ∀ maxlen, ev.op ≠ .read maxlen) : (stepConn c ev).s.rx = c.s.rx := by
  unfold stepConn
  cases hop : ev.op <;> dsimp only
  case segment seg => exact absurd hop (hseg seg)
  case read maxlen => exact absurd hop (hread maxlen)
  case write data => exact tcpWrite_rx data
  case flush => exact sockFlush_rx
  case flushnext | noflush =>
    first | unfold sockFlushnext | unfold sockNoflush
    split_ifs <;> rfl
  case close =>
    unfold sockClose
    split_ifs
    · exact tickDead_rx.trans (tcpClose_rx _ _)
    · rfl
  case abort => exact tcpAbort_rx
  case retransmit => exact tcpRetransmitter_rx hs

/-- The handshake is over, and the data end once. -/
theorem Half.Next.late {A : Allow} {h h' : Half} (hn : h.Next A h') (hs : ¬ h.state.early) :
    ¬ h'.state.early ∧ (h'.state.receiving → h.state.receiving) := by
  have hpast : ∀ {st : TcpState}, st.early → h.state = st → False := fun he hst => hs (hst ▸ he)
  cases hn with
  | rewind | grow | receive | plain | ack | write | finAgain => exact ⟨hs, id⟩
  | resolved hst | reseed _ hst => exact (hpast (by simp [TcpState.early]) hst).elim
  | enterSynrec r hst => rcases hst with hst | hst <;> exact (hpast (by simp [TcpState.early]) hst).elim
  | establish r hst =>
    rcases hst with hst | ⟨hst, -⟩ <;> exact (hpast (by simp [TcpState.early]) hst).elim
  | finAcked st b hst =>
    rcases hst with ⟨hst, rfl⟩ | ⟨-, rfl⟩ <;> simp_all [TcpState.early, TcpState.receiving]
  | closeNow hst =>
    rcases hst with hst | hst | ⟨hst, -⟩
    · simp [TcpState.early, TcpState.receiving, hst]
    · simp [TcpState.early, TcpState.receiving, hst]
    · exact (hpast (by simp [TcpState.early]) hst).elim
  | closeLater hst =>
    rcases hst with hst | hst | hst
    · simp [TcpState.early, TcpState.receiving, hst]
    · simp [TcpState.early, TcpState.receiving, hst]
    · exact (hpast (by simp [TcpState.early]) hst).elim
  | lastack | bothClosing | peerDone | shut => simp [TcpState.early, TcpState.receiving]

theorem Moves.late (h : Moves noRestart c c') (hs : ¬ c.s.state.early) :
    ¬ c'.s.state.early ∧ (c'.s.state.receiving → c.s.state.receiving) := by
  refine moves_invariant (I := fun c' => ¬ c'.half.state.early ∧
    (c'.half.state.receiving → c.s.state.receiving)) (fun c₁ c₂ hi hm => ?_) h ⟨hs, id⟩
  cases hm with
  | quiet h => rwa [h]
  | call e u _ _ h => rwa [h]
  | abort n b u _ h => rw [h]; exact ⟨by simp [TcpState.early], by simp [TcpState.receiving]⟩
  | restart hr => exact hr.elim
  | next h => exact ⟨(h.late hi.1).1, fun hr => hi.2 ((h.late hi.1).2 hr)⟩

/-- A step that resets no server is a number of moves without a restart. -/
theorem stepConn_moves_noRestart (ev : Event)
    (hreset : ∀ seg, ev.op = .segment seg → ¬ ResetsServer ev.e c seg) :
    Moves noRestart c (stepConn c ev) :=
  stepConn_moves ev (fun _ _ => trivial) (fun _ _ _ _ _ _ => trivial)
    fun seg hop hr => absurd hr (hreset seg hop)

end Calls

/-! ## What can be read -/

/-- The in-order data are the bytes of `S` from offset `q` on, and a block lies inside the buffer,
wherever it starts. -/
structure RxBuf.Readable (S : List Byte) (q : ℕ) (b : RxBuf) : Prop where
  max : b.maxRxData.toNat < 2 ^ 31
  len : b.rxDatalen.toNat ≤ b.maxRxData.toNat
  block : b.missedSeq0 ≠ b.missedSeq1 → b.right ≤ b.room
  data : Holds b.rxData 0 S q b.rxDatalen.toNat

section Readable

variable {S S' : List Byte} {q : ℕ} {b : RxBuf} {len : Dword}

theorem RxBuf.Streams.readable (hs : b.Streams S q) (hb : b.Bounded) : b.Readable S q :=
  ⟨hb.max, hb.len, fun hne => (hb.block hne).2, hs.data⟩

/-- `recv_next` moves over a FIN. -/
theorem RxBuf.Streams.readable_fin (hs : b.Streams S q) (hb : b.Bounded) :
    { b with recvNext := b.recvNext + 1 : RxBuf }.Readable S q := by
  refine ⟨hb.max, hb.len, fun hne => ?_, hs.data⟩
  have hblock := hb.block hne
  have hlr := left_ne_right hne
  unfold RxBuf.left RxBuf.right RxBuf.room at *
  dsimp only
  bv_omega

/-- A reset empties the buffer or leaves its data, and drops the block. -/
theorem RxBuf.Readable.reset (h : b.Readable S q) {n : Dword} (hn : n = 0 ∨ n = b.rxDatalen) :
    { b with rxDatalen := n, missedSeq0 := 0, missedSeq1 := 0 : RxBuf }.Readable S q := by
  rcases hn with rfl | rfl
  · exact ⟨h.max, Nat.zero_le _, fun hne => absurd rfl hne, by simp⟩
  · exact ⟨h.max, h.len, fun hne => absurd rfl hne, h.data⟩

theorem RxBuf.Readable.room_eq (h : b.Readable S q) : b.room = b.maxRxData.toNat - b.rxDatalen.toNat :=
  BitVec.toNat_sub_of_le (BitVec.le_def.mpr h.len)

/-- The bytes a read leaves move to the front. -/
theorem RxBuf.Readable.readRx_front (h : b.Readable S q) (hlen : len.toNat ≤ b.rxDatalen.toNat) {i : ℕ}
    (hi : i < b.rxDatalen.toNat - len.toNat) : (readRx b len).rxData i = b.rxData (len.toNat + i) := by
  have hmax := h.max
  have hle := h.len
  have hsub : (b.rxDatalen - len).toNat = b.rxDatalen.toNat - len.toNat :=
    BitVec.toNat_sub_of_le (BitVec.le_def.mpr hlen)
  have hroom := h.room_eq
  have hmove : (toMove { b with rxDatalen := b.rxDatalen - len }).toNat =
      b.rxDatalen.toNat - len.toNat + if b.missedSeq0 ≠ b.missedSeq1 then b.right else 0 := by
    unfold toMove
    dsimp only
    split_ifs with hne
    · have hr := h.block hne
      unfold RxBuf.right at *
      rw [BitVec.toNat_add_of_lt (by omega), hsub]
    · exact hsub
  have hlt : (toMove { b with rxDatalen := b.rxDatalen - len }).toNat < 2 ^ 31 := by
    rw [hmove]
    split_ifs with hne
    · have := h.block hne
      omega
    · omega
  unfold readRx
  dsimp only
  rw [if_pos (by rw [BitVec.toInt_eq_toNat_of_lt (by omega)]; omega)]
  exact (blit_of_mem (Nat.zero_le i) (by omega)).trans (by rw [Nat.sub_zero])

/-- **A read** of what is there. -/
theorem RxBuf.Readable.read (h : b.Readable S q) (hlen : len.toNat ≤ b.rxDatalen.toNat) :
    (readRx b len).Readable S (q + len.toNat) := by
  obtain ⟨hd, hrn, hm₀, hm₁⟩ := @readRx_frame b len
  have hmaxRx : (readRx b len).maxRxData = b.maxRxData := by
    unfold readRx
    dsimp only
    split_ifs <;> rfl
  have hsub : (b.rxDatalen - len).toNat = b.rxDatalen.toNat - len.toNat :=
    BitVec.toNat_sub_of_le (BitVec.le_def.mpr hlen)
  have hmax := h.max
  have hle := h.len
  refine ⟨hmaxRx ▸ h.max, by rw [hd, hmaxRx, hsub]; omega, fun hne => ?_, ?_⟩
  · rw [hm₀, hm₁] at hne
    have hroom : (readRx b len).room = b.maxRxData.toNat - (b.rxDatalen - len).toNat := by
      unfold RxBuf.room
      rw [hd, hmaxRx]
      exact BitVec.toNat_sub_of_le (BitVec.le_def.mpr (by omega))
    calc (readRx b len).right = b.right := by unfold RxBuf.right; rw [hm₁, hrn]
      _ ≤ b.room := h.block hne
      _ ≤ (readRx b len).room := by rw [h.room_eq, hroom, hsub]; omega
  · rw [hd, hsub]
    refine (h.data.sub (by omega)).moved fun i hi => ?_
    rw [Nat.zero_add, Nat.zero_add]
    exact h.readRx_front hlen hi

end Readable

/-! ## Steps of one end -/

/-- The bytes `tcp_read` hands out in an event. -/
def readBy (c : Conn) (ev : Event) : List Byte :=
  match ev.op with
  | .read maxlen => (tcpRead ev.e c maxlen).2.1
  | _ => []

/-- One event, its bytes kept. -/
def stepEnd (r : Reading) (ev : Event) : Reading := ⟨stepConn r.c ev, r.handed ++ readBy r.c ev⟩

/-- The bytes read and the buffer are a part of `S` from its start, and as long as the connection
receives, `recv_next` and the block agree with `S`, whose first byte has number `q₀`. -/
structure Delivered (S : List Byte) (q₀ : Dword) (r : Reading) : Prop where
  handed : r.handed <+: S
  readable : r.c.s.rx.Readable S r.handed.length
  streams : r.c.s.state.receiving → StreamInv S q₀ r

section Steps

variable {S S' : List Byte} {q₀ : Dword} {r r' : Reading} {seg : InSegment}

theorem holds_extend {m : ℕ → Byte} {d x n : ℕ} (h : Holds m d S x n) (hS : S <+: S') :
    Holds m d S' x n := by
  intro i hi
  obtain ⟨rest, rfl⟩ := hS
  have hlt := (List.getElem?_eq_some_iff.mp (h i hi)).1
  rw [List.getElem?_append_left hlt]
  exact h i hi

/-- The stream grows. -/
theorem Delivered.extend (h : Delivered S q₀ r) (hS : S <+: S') : Delivered S' q₀ r where
  handed := h.handed.trans hS
  readable := ⟨h.readable.max, h.readable.len, h.readable.block, holds_extend h.readable.data hS⟩
  streams hs := by
    have hi := h.streams hs
    exact ⟨hi.bounded, hi.handler, hi.handed.trans hS,
      ⟨holds_extend hi.streams.data hS, fun hne => holds_extend (hi.streams.block hne) hS⟩, hi.offset⟩

/-- What was read and what can be read. -/
theorem Delivered.prefix_of (h : Delivered S q₀ r) :
    r.handed ++ slice r.c.s.rx.rxData 0 r.c.s.rx.rxDatalen.toNat <+: S :=
  handed_prefix h.handed h.readable.data

/-- Only the receive buffer, the handler and the bytes read count. -/
theorem StreamInv.congr (h : StreamInv S q₀ r) (hrx : r'.c.s.rx = r.c.s.rx)
    (hh : r'.c.s.protoHandler = none) (hread : r'.handed = r.handed) : StreamInv S q₀ r' := by
  refine ⟨hrx ▸ h.bounded, hh, hread ▸ h.handed, ?_, ?_⟩
  · rw [hrx, hread]
    exact h.streams
  · rw [hrx, hread]
    exact h.offset

theorem StreamInv.delivered (h : StreamInv S q₀ r) : Delivered S q₀ r :=
  ⟨h.handed, h.streams.readable h.bounded, fun _ => h⟩

/-- Where `recv_next` and the block lie, short of the wrap. -/
theorem StreamInv.numbers (h : StreamInv S q₀ r) (hwrap : q₀.toNat + S.length < 2 ^ 32) :
    r.next ≤ S.length ∧ r.c.s.rx.recvNext.toNat = q₀.toNat + r.next ∧
      (r.c.s.rx.missedSeq0 ≠ r.c.s.rx.missedSeq1 →
        r.c.s.rx.missedSeq0.toNat = r.c.s.rx.recvNext.toNat + r.c.s.rx.left) := by
  have hnext : r.next ≤ S.length := by
    have := h.integrity.handed.length_le
    rwa [List.length_append, length_slice] at this
  have hrecv : r.c.s.rx.recvNext.toNat = q₀.toNat + r.next := by
    rw [h.integrity.recvNext, BitVec.toNat_add, BitVec.toNat_ofNat, Nat.mod_eq_of_lt (a := r.next) (by omega),
      Nat.mod_eq_of_lt (by omega)]
  refine ⟨hnext, hrecv, fun hne => ?_⟩
  have hlr := (h.bounded.block hne).1
  have hlt := left_ne_right hne
  have hend : r.handed.length + r.c.s.rx.rxDatalen.toNat + r.c.s.rx.left +
      (r.c.s.rx.right - r.c.s.rx.left) ≤ S.length := (h.streams.block hne).le_length (by omega)
  have hsum : r.c.s.rx.missedSeq0 = r.c.s.rx.recvNext + (r.c.s.rx.missedSeq0 - r.c.s.rx.recvNext) := by
    ring
  rw [hsum, BitVec.toNat_add_of_lt]
  · rfl
  · unfold Reading.next at hrecv
    unfold RxBuf.left at hend hlr hlt
    omega

/-- Short of the wrap in-order data compare the right way. -/
theorem StreamInv.segOk (h : StreamInv S q₀ r) (hwrap : q₀.toNat + S.length < 2 ^ 32) {flags : TcpFlags}
    (hc : seg.Loaded flags → Carries S r seg) (ha : arrival r.c.s.rx seg flags = .inOrder) :
    InOrderOk r.c.s.protoHandler r.c.s.rx seg := by
  obtain ⟨hload, -, hl, hroom⟩ := arrival_inOrder_iff.mp ha
  obtain ⟨hnext, hrecv, hblock⟩ := h.numbers hwrap
  have hholds := carries_inOrder (hc hload) hroom
  rw [h.handler]
  intro hne
  have hlen := toNat_inOrder_len hl
  have hend : r.next + (seg.dataLen - (r.c.s.rx.ldiff seg).toNat) ≤ S.length := by
    rcases Nat.eq_zero_or_pos (seg.dataLen - (r.c.s.rx.ldiff seg).toNat) with h0 | h0
    · omega
    · exact hholds.le_length h0
  unfold Serial.SameSide
  rw [hlen, hblock hne]
  omega

theorem stepEnd_read {ev : Event} {maxlen : Dword} (hop : ev.op = .read maxlen) :
    stepEnd r ev = stepReading r (.read ev.e maxlen) := by
  unfold stepEnd stepReading readBy stepConn handedBy stepRx
  rw [hop]

theorem stepEnd_handed {ev : Event} (hread : ∀ maxlen, ev.op ≠ .read maxlen) :
    (stepEnd r ev).handed = r.handed := by
  unfold stepEnd readBy
  cases hop : ev.op
  case read maxlen => exact absurd hop (hread maxlen)
  all_goals simp

/-- A read, whether more is received or not. -/
theorem Delivered.read {e : Env} {maxlen : Dword} (h : Delivered S q₀ r)
    (hrecv : (stepReading r (.read e maxlen)).c.s.state.receiving → r.c.s.state.receiving) :
    Delivered S q₀ (stepReading r (.read e maxlen)) := by
  have hlen : (readLen r.c.s maxlen).toNat ≤ r.c.s.rx.rxDatalen.toNat :=
    readLen_toNat (by have := h.readable.max; have := h.readable.len; omega)
  have hrx : (stepReading r (.read e maxlen)).c.s.rx = _ := tcpRead_rx e r.c maxlen
  have hhand : (stepReading r (.read e maxlen)).handed = r.handed ++ _ :=
    congrArg (r.handed ++ ·) (tcpRead_bytes e r.c maxlen)
  refine ⟨?_, ?_, fun hs => (h.streams (hrecv hs)).read⟩
  · rw [hhand]
    split_ifs
    · exact handed_prefix h.handed (h.readable.data.mono hlen)
    · rw [List.append_nil]
      exact h.handed
  · rw [hhand, hrx]
    split_ifs
    · rw [List.length_append, length_slice]
      exact h.readable.read hlen
    · rw [List.append_nil]
      exact h.readable

/-- A segment whose data are bytes of `S`. -/
theorem Delivered.segment {e : Env} {c' : Conn} (h : Delivered S q₀ r)
    (hwrap : q₀.toNat + S.length < 2 ^ 32) (hin : Intake seg r.c.s c'.s)
    (hrecv : c'.s.state.receiving → r.c.s.state.receiving) (hh : c'.s.protoHandler = none)
    (hc : r.c.s.state.receiving → seg.Loaded seg.hdr.flags → Carries S r seg) :
    Delivered S q₀ ⟨c', r.handed⟩ := by
  have hstep : r.c.s.state.receiving →
      StreamInv S q₀ (stepReading r (.segment e seg seg.hdr.flags)) := fun hs =>
    (h.streams hs).segment (hc hs) fun ha => (h.streams hs).segOk hwrap (hc hs) ha
  have hrx : r.c.s.state.receiving → (stepReading r (.segment e seg seg.hdr.flags)).c.s.rx =
      processRx none r.c.s.rx seg seg.hdr.flags := fun hs =>
    processData_rx (h.streams hs).handler
  have hhand : (stepReading r (.segment e seg seg.hdr.flags)).handed = r.handed := List.append_nil _
  cases hin with
  | kept hk =>
    refine ⟨h.handed, ?_, fun hs => (h.streams (hrecv hs)).congr hk hh rfl⟩
    show c'.s.rx.Readable S r.handed.length
    rw [hk]
    exact h.readable
  | taken hs hk =>
    have htaken : StreamInv S q₀ ⟨c', r.handed⟩ := (hstep hs).congr (hk.trans (hrx hs).symm) hh hhand.symm
    exact htaken.delivered
  | ended hs hk hs' =>
    refine ⟨h.handed, ?_, fun hs => absurd hs hs'⟩
    have hfin := (hstep hs).streams.readable_fin (hstep hs).bounded
    rw [hrx hs, hhand] at hfin
    show c'.s.rx.Readable S r.handed.length
    rw [hk]
    exact hfin
  | reset n hn hk hs' =>
    refine ⟨h.handed, ?_, fun hs => absurd hs hs'⟩
    show c'.s.rx.Readable S r.handed.length
    rw [hk]
    exact h.readable.reset hn

/-- **One step**: if the data of a segment that arrives are bytes of `S`, what was read and what can
be read stay a part of `S` from its start. -/
theorem Delivered.step {ev : Event} (h : Delivered S q₀ r) (hlate : ¬ r.c.s.state.early)
    (htrim : r.c.s.trim.Plain anyNumber) (hwrap : q₀.toNat + S.length < 2 ^ 32)
    (hc : ∀ seg, ev.op = .segment seg → r.c.s.state.receiving → seg.Loaded seg.hdr.flags → Carries S r seg)
    (hreset : ∀ seg, ev.op = .segment seg → ¬ ResetsServer ev.e r.c seg) :
    Delivered S q₀ (stepEnd r ev) := by
  have hplain := (Plain.refl (e := ev.e) htrim).step ev hlate ⟨trivial, fun _ _ => trivial⟩
  have hh : (stepConn r.c ev).s.protoHandler = none := hplain.trim.handler
  have hrecv := ((stepConn_moves_noRestart ev hreset).late hlate).2
  by_cases hread : ∃ maxlen, ev.op = .read maxlen
  · obtain ⟨maxlen, hop⟩ := hread
    have hend := stepEnd_read (r := r) hop
    rw [hend]
    refine h.read fun hs => hrecv ?_
    rw [← hend] at hs
    exact hs
  rw [not_exists] at hread
  have hhand := stepEnd_handed (r := r) hread
  by_cases hseg : ∃ seg, ev.op = .segment seg
  · obtain ⟨seg, hop⟩ := hseg
    have hin : Intake seg r.c.s (stepConn r.c ev).s := by
      unfold stepConn
      rw [hop]
      exact tcpHandler_intake htrim.handler hlate (hreset seg hop)
    have := h.segment (e := ev.e) hwrap hin hrecv hh (hc seg hop)
    rwa [← hhand] at this
  · rw [not_exists] at hseg
    have hrx := stepConn_rx ev hlate hseg hread
    refine ⟨hhand ▸ h.handed, ?_, fun hs => (h.streams (hrecv hs)).congr hrx hh hhand⟩
    rw [hhand]
    show (stepConn r.c ev).s.rx.Readable S r.handed.length
    rw [hrx]
    exact h.readable

end Steps

end Watt32.Tcp
