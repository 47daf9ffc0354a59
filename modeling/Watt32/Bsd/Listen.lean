import Watt32.Bsd.Stack

/-!
# Refused SYNs

`_tcp_handler` notes the peer of a SYN in the listening control block before `tcp_listen_state` asks
`_sock_append` for a place in the listen-queue. When there is none, the note stays.

* `SynRefused`: a SYN that `_sock_append` refuses.
* `Untouched`: what the demultiplexer looks at is as before.
* **`listener_untouched_iff`**: when the listening control block is untouched.
-/

namespace Watt32.Bsd

open Tcp (Conn Packet ver handlerSegment fsmSegment)

/-- The stack as `_tcp_fsm` gets it, with the control block, when the packet comes that far. -/
def fsmEntry (e : Env) (st : Stack) (ip : Packet) : Option (Stack × ℕ) :=
  match demux st ip with
  | none => none
  | some (st, i) =>
    if Tcp.rstInWindow ((restartIdle e st i).tcbs i).conn.s (handlerSegment ip) then none
    else some (beforeFsm e (restartIdle e st i) i ip, i)

/-- The packet is a SYN for the control block `i`, which listens, and `_sock_append` refuses it. -/
def SynRefused (e : Env) (st : Stack) (i : ℕ) (ip : Packet) : Prop :=
  ∃ st', fsmEntry e st ip = some (st', i) ∧ (st'.tcbs i).conn.s.state = .listen ∧
    (fsmSegment ip).hdr.flags.syn = true ∧ sockAppend e st' i = none

/-- The fields of a control block that the demultiplexer looks at. -/
structure Untouched (t t' : Tcb) : Prop where
  state : t'.conn.s.state = t.conn.s.state
  hisport : t'.conn.s.hisport = t.conn.s.hisport
  hisaddr : t'.conn.s.hisaddr = t.conn.s.hisaddr
  myaddr : t'.conn.s.myaddr = t.conn.s.myaddr
  myport : t'.conn.s.myport = t.conn.s.myport
  my6addr : t'.my6addr = t.my6addr
  his6addr : t'.his6addr = t.his6addr

/-- `_tcp_handler` has nothing to note about the peer: the session is in the control block, or the
packet is of the other version of IP, or all it would write is there. -/
def NothingToNote (t : Tcb) (ip : Packet) : Prop :=
  t.conn.s.hisport ≠ 0 ∨ (t.isIp6 = true ↔ ver ip = 4) ∨
    (handlerSegment ip).hdr.srcPort = 0 ∧ (handlerSegment ip).source = t.conn.s.hisaddr ∧
      (t.isIp6 = true → readIp6 ip 24 = t.my6addr) ∧
      (t.isIp6 = false → (handlerSegment ip).destination = t.conn.s.myaddr)

variable {e : Env} {st st' : Stack} {i : ℕ} {ip : Packet}

theorem Untouched.refl (t : Tcb) : Untouched t t := ⟨rfl, rfl, rfl, rfl, rfl, rfl, rfl⟩

theorem Untouched.trans {t t' t'' : Tcb} (h : Untouched t t') (h' : Untouched t' t'') :
    Untouched t t'' where
  state := h'.state.trans h.state
  hisport := h'.hisport.trans h.hisport
  hisaddr := h'.hisaddr.trans h.hisaddr
  myaddr := h'.myaddr.trans h.myaddr
  myport := h'.myport.trans h.myport
  my6addr := h'.my6addr.trans h.my6addr
  his6addr := h'.his6addr.trans h.his6addr

theorem Untouched.symm {t t' : Tcb} (h : Untouched t t') : Untouched t' t where
  state := h.state.symm
  hisport := h.hisport.symm
  hisaddr := h.hisaddr.symm
  myaddr := h.myaddr.symm
  myport := h.myport.symm
  my6addr := h.my6addr.symm
  his6addr := h.his6addr.symm

/-- Such control blocks are the same to a packet. -/
theorem Untouched.demux {t t' : Tcb} (h : Untouched t t') (hip6 : t'.isIp6 = t.isIp6) :
    demuxActive t' ip = demuxActive t ip ∧ demuxPassive t' ip = demuxPassive t ip := by
  unfold demuxActive demuxPassive
  dsimp only
  rw [hip6, h.hisport, h.hisaddr, h.myaddr, h.myport, h.my6addr, h.his6addr]
  exact ⟨rfl, rfl⟩

/-! ## What the demultiplexer does -/

theorem hisport_of_demuxActive {t : Tcb} (h : demuxActive t ip = true) : t.conn.s.hisport ≠ 0 := by
  unfold demuxActive at h
  dsimp only at h
  split_ifs at h with h6 h4
  · exact (of_decide_eq_true h).1
  · exact (of_decide_eq_true h).1

/-- A control block is found by its session, and nothing changes, or it has none. -/
theorem demux_cases (h : demux st ip = some (st', i)) :
    (st' = st ∧ (st.tcbs i).conn.s.hisport ≠ 0) ∨
    (st' = st.upd i (remember ip) ∧ (st.tcbs i).conn.s.hisport = 0) := by
  unfold demux at h
  split at h
  · next j hj =>
    obtain ⟨rfl, rfl⟩ := Prod.mk.inj (Option.some.inj h)
    exact .inl ⟨rfl, hisport_of_demuxActive (findTcb_eq_some hj).2.2⟩
  · split_ifs at h with hsyn
    obtain ⟨j, hj, hmk⟩ := Option.map_eq_some_iff.mp h
    obtain ⟨rfl, rfl⟩ := Prod.mk.inj hmk
    exact .inr ⟨rfl, (of_decide_eq_true (findTcb_eq_some hj).2.2).1⟩

/-- The note changes nothing exactly if all of it is there. -/
theorem remember_untouched {t : Tcb} (h : t.conn.s.hisport = 0) :
    Untouched t (remember ip t) ↔ NothingToNote t ip := by
  have hport : ¬ t.conn.s.hisport ≠ 0 := not_not_intro h
  unfold NothingToNote
  rw [or_iff_right hport]
  unfold remember
  by_cases h6 : t.isIp6 = true
  · by_cases h4 : ver ip = 4
    · simp only [h6, h4, ne_eq, not_true, if_true, if_false, true_or, iff_true]
      exact Untouched.refl t
    · simp only [h6, h4, ne_eq, not_false_iff, if_true, iff_false, not_true, false_or, true_implies,
        Bool.true_eq_false, false_implies, and_true]
      constructor
      · intro hu
        exact ⟨hu.hisport.trans h, hu.hisaddr, hu.my6addr⟩
      · rintro ⟨hsrc, haddr, hmy⟩
        exact ⟨rfl, hsrc.trans h.symm, haddr, rfl, rfl, hmy, rfl⟩
  · rw [Bool.not_eq_true] at h6
    by_cases h4 : ver ip = 4
    · simp only [h6, h4, Bool.false_eq_true, if_true, if_false, false_iff, not_true, false_or,
        false_implies, true_and, true_implies]
      constructor
      · intro hu
        exact ⟨hu.hisport.trans h, hu.hisaddr, hu.myaddr⟩
      · rintro ⟨hsrc, haddr, hmy⟩
        exact ⟨rfl, hsrc.trans h.symm, haddr, hmy, rfl, rfl, rfl⟩
    · simp only [h6, h4, Bool.false_eq_true, if_false, true_or, iff_true]
      exact Untouched.refl t

/-- What `_tcp_handler` does before the state machine is about timers and flags. -/
theorem beforeFsm_untouched :
    Untouched (st.tcbs i) ((beforeFsm e (restartIdle e st i) i ip).tcbs i) := by
  have hidle : ∀ s, (Tcp.restartIdle e.toEnv s).state = s.state ∧
      (Tcp.restartIdle e.toEnv s).hisport = s.hisport ∧
      (Tcp.restartIdle e.toEnv s).hisaddr = s.hisaddr ∧
      (Tcp.restartIdle e.toEnv s).myaddr = s.myaddr ∧
      (Tcp.restartIdle e.toEnv s).myport = s.myport := by
    intro s
    unfold Tcp.restartIdle
    split_ifs <;> exact ⟨rfl, rfl, rfl, rfl, rfl⟩
  have hfsm : ∀ t : Tcb, Untouched t
      { t with conn := Tcp.beforeFsm e.toEnv t.conn (handlerSegment ip) } :=
    fun t => ⟨rfl, rfl, rfl, rfl, rfl, rfl, rfl⟩
  obtain ⟨hstate, hport, haddr, hmy, hmyport⟩ := hidle (st.tcbs i).conn.s
  unfold beforeFsm restartIdle
  rw [Stack.updConn_tcbs_self, Stack.updConn_tcbs_self]
  have hrestart : Untouched (st.tcbs i) { st.tcbs i with
      conn := (st.tcbs i).conn.upd (Tcp.restartIdle e.toEnv) } :=
    ⟨hstate, hport, haddr, hmy, hmyport, rfl, rfl⟩
  exact hrestart.trans (hfsm _)

@[simp] theorem afterFsm_false (c : Conn) : Tcp.afterFsm e.toEnv (c, false) = c :=
  if_neg fun h => Bool.false_ne_true h.1

/-- After a refused SYN the listening control block is as `_tcp_fsm` got it. -/
theorem tcpHandler_of_refused (h : SynRefused e st i ip) :
    ∃ st', demux st ip = some (st', i) ∧
      (tcpHandler e st ip).tcbs i = (beforeFsm e (restartIdle e st' i) i ip).tcbs i := by
  obtain ⟨st₁, hentry, hlisten, hsyn, hrefused⟩ := h
  unfold fsmEntry at hentry
  split at hentry
  · cases hentry
  · next st' j hdemux =>
    split_ifs at hentry with hrst
    obtain ⟨rfl, rfl⟩ := Prod.mk.inj (Option.some.inj hentry)
    refine ⟨st', hdemux, ?_⟩
    have hfsm : tcpFsm e (beforeFsm e (restartIdle e st' j) j ip) j (fsmSegment ip) =
        (beforeFsm e (restartIdle e st' j) j ip, j, false) := by
      unfold tcpFsm
      rw [if_pos ⟨hlisten, hsyn⟩, hrefused]
    have hinput : tcpInput e st' j ip = (beforeFsm e (restartIdle e st' j) j ip).updConn j
        fun c => Tcp.afterFsm e.toEnv (c, false) := by
      unfold tcpInput
      dsimp only
      rw [if_neg hrst, hfsm]
    unfold tcpHandler
    rw [hdemux]
    dsimp only
    rw [hinput, Stack.updConn_tcbs_self, afterFsm_false]

/-! ## A socket whose queue is full -/

/-- A socket that listens on port 80 with a backlog of 1, and its listen-queue. -/
def fullStack (listenQueue : ℤ → Option ℕ) : Stack :=
  let s := Tcp.tcpListen {} 80 0 0 none 0 (fun _ => 0) (fun _ => 0)
  { tcbs := fun _ => ⟨Tcp.freshConn s [], false, 0, 0, false⟩
    allsocs := [0]
    brk := 2
    skList := [3]
    socks := fun _ => ⟨0, true, 1, listenQueue⟩ }

/-- A segment without data to port 80 of 0.0.0.1, from port 1024 + `port` of 0.0.0.`host`. -/
def tcpPacket (host port seq ack flags : Byte) : Packet :=
  Tcp.packetOf [0x45, 0, 0, 40, 0, 0, 0, 0, 64, 6, 0, 0, 0, 0, 0, host, 0, 0, 0, 1,
    4, port, 0, 80, 0, 0, 0, seq, 0, 0, 0, ack, 0x50, flags, 0x10, 0, 0, 0, 0, 0]

/-- Its SYN. -/
def synPacket (host port : Byte) : Packet := tcpPacket host port 9 0 2

/-- **A refused SYN leaves the listening control block untouched** exactly if there was nothing to
note about its peer. -/
theorem listener_untouched_iff (e : Env) (st : Stack) (i : ℕ) (ip : Packet)
    (h : SynRefused e st i ip) :
    Untouched (st.tcbs i) ((tcpHandler e st ip).tcbs i) ↔ NothingToNote (st.tcbs i) ip := by
  obtain ⟨st', hdemux, hafter⟩ := tcpHandler_of_refused h
  have hbefore := @beforeFsm_untouched e st' i ip
  rw [hafter]
  rcases demux_cases hdemux with ⟨rfl, hport⟩ | ⟨rfl, hport⟩
  · exact iff_of_true hbefore (.inl hport)
  · have hnote := @remember_untouched ip (st.tcbs i) hport
    rw [Stack.upd_tcbs_self] at hbefore
    exact ⟨fun hu => hnote.mp (hu.trans hbefore.symm), fun hn => (hnote.mpr hn).trans hbefore⟩

/-- The same SYN once more: the note is there already. -/
theorem listener_untouched_again :
    let st := tcpHandler {} (fullStack fun _ => some 1) (synPacket 2 1)
    SynRefused {} st 0 (synPacket 2 1) ∧
      Untouched (st.tcbs 0) ((tcpHandler {} st (synPacket 2 1)).tcbs 0) := by
  have h : SynRefused {} (tcpHandler {} (fullStack fun _ => some 1) (synPacket 2 1)) 0
      (synPacket 2 1) := ⟨_, rfl, by decide, by decide, by decide⟩
  exact ⟨h, (listener_untouched_iff {} _ 0 (synPacket 2 1) h).mpr (.inl (by decide))⟩

/-- The queue is full when 0.0.0.2 sends its SYN. From then on there is no control block for a SYN
from anywhere else. -/
theorem listener_touched : SynRefused {} (fullStack fun _ => some 1) 0 (synPacket 2 1) ∧
    ¬ Untouched ((fullStack fun _ => some 1).tcbs 0)
      ((tcpHandler {} (fullStack fun _ => some 1) (synPacket 2 1)).tcbs 0) ∧
    (demux (tcpHandler {} (fullStack fun _ => some 1) (synPacket 2 1)) (synPacket 3 1)).isNone := by
  refine ⟨⟨_, rfl, by decide, by decide, by decide⟩, fun h => ?_, by decide⟩
  exact absurd h.hisport (by decide)

end Watt32.Bsd
