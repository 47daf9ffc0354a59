import Watt32.Tcp.Handshake
import Watt32.Tcp.Transmit

/-!
# A reset server listens again

`tcp_sockreset` puts the control block of a server back in LISTEN, whatever it was doing.

* `Opener`: the three-way handshake of the next peer.
* `GoodHandshake`: it goes as on a fresh listener, and nothing of the old connection shows.
* **`reset_listens_iff`**: every handshake is good exactly if the reset found a clean block.
-/

namespace Watt32.Tcp

open Machine

variable {e : Env} {c : Conn} {l : SendLoop}

/-! ## The SYN+ACK -/

/-- A SYN+ACK with this number, for this number of the peer, without data. -/
structure IsSynAck (seqnum acknum : Dword) (seg : OutSegment) : Prop where
  flags : seg.hdr.flags = flagSynAck
  seqnum : seg.hdr.seqnum = seqnum
  acknum : seg.hdr.acknum = acknum
  payload : seg.payload = []

/-- The first turn of a call with SYN and ACK set. -/
theorem sendSegment_synAck (h : { l.s.flags with push := false } = flagSynAck) :
    (sendSegment e l true).sendTotData = l.sendTotData ∧
    ∃ seg, (sendSegment e l true).segs = l.segs ++ [seg] ∧
      IsSynAck (l.s.tx.sendNext + BitVec.ofInt 32 l.startData) l.s.rx.recvNext seg := by
  have hlen : ∀ n, sendDataLen l true n = 0 := fun n => by
    unfold sendDataLen
    have hsyn : l.s.flags.syn = true := (congrArg TcpFlags.syn h :)
    rw [if_pos (by rw [hsyn]; rfl)]
  obtain ⟨seg, hseg⟩ := @sendSegment_seg e l true
  have hdata : turnData e l true = 0 := hlen _
  have hsegs : (sendSegment e l true).segs = l.segs ++ [⟨{ sendHeader l.s l.startData with
      offset := BitVec.ofNat 4 ((20 + (sendOptions e l true).len) / 4) }, seg.body⟩] := by
    have := hseg.segs
    unfold sendSegment at this ⊢
    dsimp only at this ⊢
    simp only [hlen, lt_irrefl, decide_false, Bool.false_and, Bool.false_eq_true, if_false]
      at this ⊢
    have hb := (List.cons.inj (List.append_cancel_left this)).1
    rw [← hb]
  have heq := (List.cons.inj (List.append_cancel_left (hseg.segs.symm.trans hsegs))).1
  refine ⟨?_, seg, hseg.segs, ⟨?_, hseg.seqnum, ?_, ?_⟩⟩
  · rw [sendSegment_sendTotData, hdata]
    simp
  · rw [heq]
    exact h
  · rw [heq]
    rfl
  · rw [hseg.payload, hdata]
    rfl

/-- A call with SYN and ACK set and nothing to send takes at most one turn. -/
theorem sendLoop_synAck {n : ℕ} {ok : List Bool} (h : { l.s.flags with push := false } = flagSynAck)
    (htot : l.sendTotData ≤ 0) (hsegs : l.segs = []) :
    ∀ seg ∈ (sendLoop e n ok true l).1.segs,
      IsSynAck (l.s.tx.sendNext + BitVec.ofInt 32 l.startData) l.s.rx.recvNext seg := by
  obtain ⟨hleft, seg, hnew, hseg⟩ := @sendSegment_synAck e l h
  cases n with
  | zero => simp [sendLoop, hsegs]
  | succ n =>
    unfold sendLoop
    dsimp only
    rw [hleft, if_pos htot]
    split_ifs <;> dsimp only <;> rw [hnew, hsegs] <;> simpa using hseg

theorem sendSize_of_empty {s : TcpSocket} (h : s.tx.txDatalen = 0) : sendSize s = 0 := by
  unfold sendSize
  rw [h]
  split_ifs with hw
  · rfl
  · rw [show s.window = 0 by simpa using hw]
    rfl

theorem sendTurns_synAck (h : { c.s.flags with push := false } = flagSynAck) (hlen : c.s.tx.txDatalen = 0)
    (huna : 0 ≤ c.s.sendUna) : ∀ seg ∈ (sendTurns e c).1.segs,
      IsSynAck (c.s.tx.sendNext + BitVec.ofInt 32 (sendFrom c.s)) c.s.rx.recvNext seg := by
  have htot : (sendStart c.s (e.pkt c.calls.length)).sendTotData ≤ 0 := by
    unfold sendStart
    dsimp only
    rw [sendSize_of_empty hlen]
    split_ifs <;> omega
  intro seg hseg
  exact sendLoop_synAck h htot rfl seg hseg

/-- A call with a congestion window sends, from the first byte of the call on. -/
theorem sendTurns_first_seg (h : c.s.rtt.cwindow ≠ 0) : ∃ seg ∈ (sendTurns e c).1.segs,
    seg.hdr.seqnum = c.s.tx.sendNext + BitVec.ofInt 32 (sendFrom c.s) := by
  obtain ⟨m, -, hm, -, hstop⟩ := @sendLoop_turns e true (sendStart c.s (e.pkt c.calls.length))
    c.s.rtt.cwindow.toNat c.txOk
  obtain ⟨seg, hturn, hsegs⟩ := @turns_segs e true (sendStart c.s (e.pkt c.calls.length))
  have hpos : 0 < m := by
    rcases hstop with hm0 | ⟨hm0, -⟩
    · rw [hm0]
      exact Nat.pos_of_ne_zero fun h0 => h (BitVec.eq_of_toNat_eq h0)
    · exact hm0
  refine ⟨seg 0, ?_, (hturn 0).seqnum⟩
  rw [sendTurns, hm, hsegs]
  exact List.mem_append_right _ (List.mem_map_of_mem (List.mem_range.mpr hpos))

/-- The calls of a connection with nothing to send but the SYN+ACK. -/
structure SynAckCalls (s : TcpSocket) (c : Conn) : Prop where
  core : c.s.core = s.core
  una : c.s.sendUna = 0
  calls : ∀ k ∈ c.calls, ∀ seg ∈ k.segs, IsSynAck s.tx.sendNext s.rx.recvNext seg

theorem tcpSend_synAck (h : { c.s.flags with push := false } = flagSynAck) (hlen : c.s.tx.txDatalen = 0)
    (huna : c.s.sendUna = 0) (hcalls : c.calls = []) : SynAckCalls c.s (tcpSend e c).1 := by
  have hfrom : ∀ c' : Conn, SynAckCalls c.s c' → sendFrom c'.s = 0 := by
    intro c' hc'
    unfold sendFrom sendStart
    dsimp only
    split_ifs
    · rfl
    · exact hc'.una
  have hturns : ∀ c', SynAckCalls c.s c' → ∀ seg ∈ (sendTurns e c').1.segs,
      IsSynAck c.s.tx.sendNext c.s.rx.recvNext seg := by
    intro c' hc' seg hseg
    have hflags : { c'.s.flags with push := false } = { c.s.flags with push := false } :=
      (congrArg TcpSocket.flags hc'.core :)
    have htx : c'.s.tx = c.s.tx := (congrArg TcpSocket.tx hc'.core :)
    have hrx : c'.s.rx = c.s.rx := (congrArg TcpSocket.rx hc'.core :)
    have := sendTurns_synAck (hflags.trans h) (by rw [htx, hlen]) hc'.una.ge seg hseg
    rwa [htx, hrx, hfrom c' hc', show BitVec.ofInt 32 0 = 0 from rfl, add_zero] at this
  have hcall : ∀ c', SynAckCalls c.s c' →
      ∀ k ∈ c'.calls ++ [(⟨c'.s, (sendTurns e c').1.segs⟩ : SendCall)], ∀ seg ∈ k.segs,
      IsSynAck c.s.tx.sendNext c.s.rx.recvNext seg := by
    intro c' hc' k hk
    rcases List.mem_append.mp hk with hk | hk
    · exact hc'.calls k hk
    · rw [List.mem_singleton.mp hk]
      exact hturns c' hc'
  refine (sending_rule (P := SynAckCalls c.s) (fun c' hc' => ?_) (fun c' _ hc' => ?_)
    (fun c' f _ hc' => ⟨hc'.core, hc'.una, hc'.calls⟩) ⟨rfl, huna, by simp [hcalls]⟩).1
  · exact ⟨sendTurns_core.trans hc'.core, (sendTurns_sendUna e c').trans hc'.una, hcall c' hc'⟩
  · refine ⟨sendTurns_core.trans hc'.core, ?_, hcall c' hc'⟩
    obtain ⟨hlow, hhigh⟩ := sendTurns_startData e c'
    have htx : c'.s.tx = c.s.tx := (congrArg TcpSocket.tx hc'.core :)
    rw [hfrom c' hc', sendSize_of_empty (by rw [htx, hlen])] at hhigh
    rw [hfrom c' hc'] at hlow
    exact le_antisymm hhigh hlow

theorem tcpSend_first_call : ∃ rest,
    (tcpSend e c).1.calls = c.calls ++ ⟨c.s, (sendTurns e c).1.segs⟩ :: rest := by
  rw [tcpSend_eq]
  unfold tcpSendWith
  split_ifs with hf
  · obtain ⟨rest, hrest, -⟩ := (@tcpSend_sent e (afterTurns e c)).2.calls
    refine ⟨rest, hrest.trans ?_⟩
    simp [afterTurns]
  · exact ⟨[], rfl⟩

/-! ## The handshake -/

/-- The three-way handshake of a peer with the listening control block `s`. -/
structure Opener (s : TcpSocket) where
  e : Env
  e' : Env
  syn : InSegment
  ack : InSegment
  synFlags : syn.hdr.flags = { syn := true }
  port : syn.hdr.dstPort = s.myport
  peer : syn.hdr.srcPort ≠ 0
  ackFlags : ack.hdr.flags = { ack := true }
  source : ack.source = syn.source
  destination : ack.destination = syn.destination
  srcPort : ack.hdr.srcPort = syn.hdr.srcPort
  dstPort : ack.hdr.dstPort = syn.hdr.dstPort
  seqnum : ack.hdr.seqnum = syn.hdr.seqnum + 1
  acknum : ack.hdr.acknum = s.tx.sendNext + 1

/-- The connection after the SYN. -/
def Opener.answer (c : Conn) (o : Opener c.s) : Conn := tcpHandler o.e c o.syn

/-- The connection after the ACK. -/
def Opener.after (c : Conn) (o : Opener c.s) : Conn := tcpHandler o.e' (o.answer c) o.ack

/-- The handshake goes as on a fresh listener, and nothing of an old connection shows. -/
structure GoodHandshake (c : Conn) (o : Opener c.s) : Prop where
  sent : ∃ k ∈ (o.answer c).calls, k.segs ≠ []
  synAck : ∀ k ∈ (o.answer c).calls, ∀ seg ∈ k.segs,
    IsSynAck c.s.tx.sendNext (o.syn.hdr.seqnum + 1) seg
  estab : (o.after c).s.state = .estab
  received : (o.after c).s.rx.rxDatalen = 0
  outOfOrder : (o.after c).s.rx.missedSeq0 = (o.after c).s.rx.missedSeq1
  pending : (o.after c).s.tx.txDatalen = 0 ∧ (o.after c).s.tx.txQueuelen = 0

/-- `tcp_listen_state` up to the call of `_tcp_send`. -/
def synEntry (e : Env) (c : Conn) (seg : InSegment) : Conn :=
  (beforeFsm e (c.upd fun s => restartIdle e { s with
    hisaddr := seg.source, hisport := seg.hdr.srcPort, myaddr := seg.destination }) seg).upd
    fun s => { s with
      tos := if s.tos < seg.tos then seg.tos else s.tos
      rx := { s.rx with recvNext := seg.hdr.seqnum + 1 }
      flags := flagSynAck
      state := .synrec
      unhappy := true }

theorem restartIdle_eq (s : TcpSocket) :
    restartIdle e s = { s with inactiveTo := (restartIdle e s).inactiveTo } := by
  unfold restartIdle
  split_ifs <;> rfl

theorem beforeFsm_frame {seg : InSegment} :
    (beforeFsm e (c.upd (restartIdle e)) seg).s.state = c.s.state ∧
      (beforeFsm e (c.upd (restartIdle e)) seg).s.tx = c.s.tx ∧
      (beforeFsm e (c.upd (restartIdle e)) seg).s.rx = c.s.rx := by
  dsimp only [Conn.upd, beforeFsm, tcpRttWin, Conn.updRtt]
  rw [restartIdle_eq]
  exact ⟨rfl, rfl, rfl⟩

theorem rttWin_karnCount (r : Rtt) : (rttWin e r).karnCount = 0 := by
  simp only [rttWin, apply_ite Rtt.karnCount, ite_self]

theorem synEntry_s (e : Env) (c : Conn) (seg : InSegment) : ∃ inactiveTo, (synEntry e c seg).s =
    { c.s with
      hisaddr := seg.source
      hisport := seg.hdr.srcPort
      myaddr := seg.destination
      inactiveTo := inactiveTo
      locflags := { c.s.locflags with gotPush := seg.hdr.flags.push }
      rtt := rttWin e c.s.rtt
      datatimer := 0
      tos := if c.s.tos < seg.tos then seg.tos else c.s.tos
      rx := { c.s.rx with recvNext := seg.hdr.seqnum + 1 }
      flags := flagSynAck
      state := .synrec
      unhappy := true } := by
  refine ⟨(restartIdle e { c.s with
    hisaddr := seg.source, hisport := seg.hdr.srcPort, myaddr := seg.destination }).inactiveTo, ?_⟩
  unfold synEntry
  dsimp only [Conn.upd, beforeFsm, tcpRttWin, Conn.updRtt]
  rw [restartIdle_eq]

theorem listen_answer (hs : c.s.state = .listen) (hp : c.s.hisport = 0) (ht : c.threaded = true)
    (o : Opener c.s) : o.answer c =
      (tcpSend o.e (synEntry o.e c o.syn)).1.upd
        fun s => { s with timeout := setTimeout o.e tcpTimeout } := by
  have hactive : demuxActive c.s o.syn = false := by simp [demuxActive, hp]
  have hpassive : demuxPassive c.s o.syn = true := by simp [demuxPassive, hp, o.synFlags, o.port]
  have hdemux : demux o.e c o.syn = some (c.upd fun s => restartIdle o.e { s with
      hisaddr := o.syn.source, hisport := o.syn.hdr.srcPort, myaddr := o.syn.destination }) := by
    simp [demux, ht, hactive, hpassive]
  have hrst : ∀ s, rstInWindow s o.syn = false := fun s => by simp [rstInWindow, o.synFlags]
  have hst : (beforeFsm o.e (c.upd fun s => restartIdle o.e { s with
      hisaddr := o.syn.source, hisport := o.syn.hdr.srcPort, myaddr := o.syn.destination })
      o.syn).s.state = .listen := by
    rw [← hs]
    dsimp only [Conn.upd, beforeFsm, tcpRttWin, Conn.updRtt]
    rw [restartIdle_eq]
  have hsyn : o.syn.hdr.flags.syn = true := by rw [o.synFlags]
  unfold Opener.answer tcpHandler
  rw [hdemux]
  dsimp only
  rw [hrst, if_neg (by simp)]
  unfold tcpFsm
  rw [hst]
  dsimp only
  unfold tcpListenState afterFsm
  rw [if_pos hsyn]
  rfl

/-- The ACK of the SYN+ACK. -/
theorem synrec_after {o : Opener c.s} (hs : (o.answer c).s.state = .synrec)
    (ht : (o.answer c).threaded = true) (hport : (o.answer c).s.myport = c.s.myport)
    (hpeer : (o.answer c).s.hisport = o.syn.hdr.srcPort ∧
      (o.answer c).s.hisaddr = o.syn.source ∧ (o.answer c).s.myaddr = o.syn.destination)
    (hnext : (o.answer c).s.tx.sendNext = c.s.tx.sendNext) :
    (o.after c).s.state = .estab ∧ (o.after c).s.rx = (o.answer c).s.rx ∧
      (o.after c).s.tx.txDatalen = (o.answer c).s.tx.txDatalen ∧
      (o.after c).s.tx.txQueuelen = (o.answer c).s.tx.txQueuelen := by
  set c₁ := o.answer c with hc₁
  have hactive : demuxActive c₁.s o.ack = true := by
    simp [demuxActive, hpeer, hport, o.source, o.destination, o.srcPort, o.dstPort, o.port]
    exact o.peer
  have hdemux : demux o.e' c₁ o.ack = some (c₁.upd (restartIdle o.e')) := by
    simp [demux, ht, hactive]
  have hrst : ∀ s, rstInWindow s o.ack = false := fun s => by simp [rstInWindow, o.ackFlags]
  set c₂ := beforeFsm o.e' (c₁.upd (restartIdle o.e')) o.ack with hc₂
  have hst : c₂.s.state = .synrec := by
    rw [← hs]
    exact beforeFsm_frame.1
  have htx : c₂.s.tx = c₁.s.tx := beforeFsm_frame.2.1
  have hrx : c₂.s.rx = c₁.s.rx := beforeFsm_frame.2.2
  have hafter : o.after c = (tcpSynrecState o.e' c₂ o.ack o.ack.hdr.flags).1 := by
    unfold Opener.after tcpHandler
    rw [← hc₁, hdemux]
    dsimp only
    rw [hrst, if_neg (by simp), ← hc₂]
    unfold tcpFsm
    rw [hst]
    dsimp only
    unfold tcpSynrecState afterFsm
    rw [o.ackFlags]
    simp [o.acknum, htx, hnext]
  have hcore := tcpSetWindow_core o.e' c₂.s o.ack
  have hwrx : (tcpSetWindow o.e' c₂.s o.ack.hdr).rx = c₂.s.rx := (congrArg TcpSocket.rx hcore :)
  have hwtx : (tcpSetWindow o.e' c₂.s o.ack.hdr).tx.txDatalen = c₂.s.tx.txDatalen ∧
      (tcpSetWindow o.e' c₂.s o.ack.hdr).tx.txQueuelen = c₂.s.tx.txQueuelen := by
    rcases @tcpSetWindow_tx o.e' c₂.s o.ack.hdr with h | ⟨m, data, -, -, -, h⟩ <;> rw [h]
    · exact ⟨rfl, rfl⟩
    · exact ⟨rfl, rfl⟩
  rw [hafter]
  unfold tcpSynrecState
  rw [o.ackFlags, if_neg (by simp), if_pos ⟨rfl, by rw [o.acknum, htx, hnext]⟩]
  dsimp only [Conn.upd]
  exact ⟨rfl, hwrx.trans hrx, hwtx.1.trans (by rw [htx]), hwtx.2.trans (by rw [htx])⟩

/-! ## The reset -/

/-- What the reset leaves as it is does not show in the next connection: transmission had not got
beyond the first byte, no queue of the caller is in use, and a block reset in LASTACK or CLOSED
has been read empty. -/
structure ResetClean (s : TcpSocket) : Prop where
  sendUna : s.sendUna = 0
  queue : s.tx.txQueuelen = 0
  received : s.state = .closed ∨ s.state = .lastack → s.rx.rxDatalen = 0

/-- A listening block with a congestion window and an empty buffer. -/
structure Listening (c : Conn) : Prop where
  state : c.s.state = .listen
  hisport : c.s.hisport = 0
  threaded : c.threaded = true
  cwindow : c.s.rtt.cwindow ≠ 0
  calls : c.calls = []
  empty : c.s.tx.txDatalen = 0
  missed : c.s.rx.missedSeq0 = c.s.rx.missedSeq1

theorem tcpSockreset_listening (hserver : c.s.locflags.isServer = true)
    (ht : c.threaded = true) : Listening (tcpSockreset c) := by
  unfold tcpSockreset
  dsimp only
  rw [if_pos (by exact hserver)]
  exact ⟨rfl, rfl, ht, by simp, rfl, rfl, rfl⟩

/-- The connection after the SYN. -/
structure Answered (c : Conn) (o : Opener c.s) : Prop where
  state : (o.answer c).s.state = .synrec
  threaded : (o.answer c).threaded = true
  myport : (o.answer c).s.myport = c.s.myport
  peer : (o.answer c).s.hisport = o.syn.hdr.srcPort ∧
      (o.answer c).s.hisaddr = o.syn.source ∧ (o.answer c).s.myaddr = o.syn.destination
  tx : (o.answer c).s.tx = c.s.tx
  rx : (o.answer c).s.rx = { c.s.rx with recvNext := o.syn.hdr.seqnum + 1 }

theorem Listening.answered (hl : Listening c) (o : Opener c.s) : Answered c o := by
  have hans := listen_answer hl.state hl.hisport hl.threaded o
  obtain ⟨t, hentry⟩ := synEntry_s o.e c o.syn
  have hsent := (@tcpSend_sent o.e (synEntry o.e c o.syn)).1
  have hcore := hsent.core
  rw [hentry] at hcore
  constructor <;> rw [hans] <;> dsimp only [Conn.upd]
  · exact (tcpSend_state _ _).trans (by rw [hentry])
  · exact hsent.threaded.trans hl.threaded
  · exact (congrArg TcpSocket.myport hcore :)
  · exact ⟨(congrArg TcpSocket.hisport hcore :), (congrArg TcpSocket.hisaddr hcore :),
      (congrArg TcpSocket.myaddr hcore :)⟩
  · exact (congrArg TcpSocket.tx hcore :)
  · exact (congrArg TcpSocket.rx hcore :)

/-- The calls that answer the SYN. -/
theorem Listening.calls_answer (hl : Listening c) (o : Opener c.s) : ∃ rest,
    (o.answer c).calls = ⟨(synEntry o.e c o.syn).s, (sendTurns o.e (synEntry o.e c o.syn)).1.segs⟩ ::
      rest := by
  obtain ⟨rest, hrest⟩ := @tcpSend_first_call o.e (synEntry o.e c o.syn)
  have hnil : (synEntry o.e c o.syn).calls = [] := hl.calls
  rw [listen_answer hl.state hl.hisport hl.threaded o]
  dsimp only [Conn.upd]
  exact ⟨rest, by rw [hrest, hnil, List.nil_append]⟩

/-- The first segment of the answer is `send_una` bytes behind `send_next`. -/
theorem Listening.first_seg (hl : Listening c) (o : Opener c.s) :
    ∃ k ∈ (o.answer c).calls, ∃ seg ∈ k.segs,
      seg.hdr.seqnum = c.s.tx.sendNext + BitVec.ofInt 32 c.s.sendUna := by
  obtain ⟨t, hentry⟩ := synEntry_s o.e c o.syn
  obtain ⟨rest, hrest⟩ := hl.calls_answer o
  have hcw : (synEntry o.e c o.syn).s.rtt.cwindow ≠ 0 := by
    rw [hentry]
    exact rttWin_cwindow hl.cwindow
  have htx : (synEntry o.e c o.syn).s.tx = c.s.tx := by rw [hentry]
  have hfrom : sendFrom (synEntry o.e c o.syn).s = c.s.sendUna := by
    have hkarn : (synEntry o.e c o.syn).s.rtt.karnCount ≠ 2 := by
      rw [hentry]
      dsimp only
      rw [rttWin_karnCount]
      decide
    have huna : (synEntry o.e c o.syn).s.sendUna = c.s.sendUna := by rw [hentry]
    exact (if_neg hkarn).trans huna
  obtain ⟨seg, hseg, hnum⟩ := sendTurns_first_seg (e := o.e) hcw
  refine ⟨⟨(synEntry o.e c o.syn).s, (sendTurns o.e (synEntry o.e c o.syn)).1.segs⟩, ?_, seg, hseg,
    ?_⟩
  · rw [hrest]
    exact List.mem_cons_self
  · rwa [htx, hfrom] at hnum

/-- The answer to the SYN of a block with `send_una` 0. -/
theorem Listening.synAck (hl : Listening c) (huna : c.s.sendUna = 0) (o : Opener c.s) :
    ∀ k ∈ (o.answer c).calls, ∀ seg ∈ k.segs,
      IsSynAck c.s.tx.sendNext (o.syn.hdr.seqnum + 1) seg := by
  obtain ⟨t, hentry⟩ := synEntry_s o.e c o.syn
  have hcalls := (@tcpSend_synAck o.e (synEntry o.e c o.syn) (by rw [hentry]; rfl)
    (by rw [hentry]; exact hl.empty) (by rw [hentry]; exact huna) hl.calls).calls
  have htx : (synEntry o.e c o.syn).s.tx = c.s.tx := by rw [hentry]
  have hrx : (synEntry o.e c o.syn).s.rx.recvNext = o.syn.hdr.seqnum + 1 := by rw [hentry]
  rw [htx, hrx] at hcalls
  rw [listen_answer hl.state hl.hisport hl.threaded o]
  dsimp only [Conn.upd]
  exact hcalls

/-- **Every handshake of a listening block is good** exactly if nothing old is left in it. -/
theorem goodHandshake_iff (hl : Listening c) (hlong : -2 ^ 31 ≤ c.s.sendUna ∧ c.s.sendUna < 2 ^ 31) :
    (∀ o, GoodHandshake c o) ↔
      c.s.sendUna = 0 ∧ c.s.tx.txQueuelen = 0 ∧ c.s.rx.rxDatalen = 0 := by
  have hafter : ∀ o : Opener c.s, (o.after c).s.state = .estab ∧
      (o.after c).s.rx = { c.s.rx with recvNext := o.syn.hdr.seqnum + 1 } ∧
      (o.after c).s.tx.txDatalen = 0 ∧ (o.after c).s.tx.txQueuelen = c.s.tx.txQueuelen := by
    intro o
    have ha := hl.answered o
    obtain ⟨h₁, h₂, h₃, h₄⟩ := synrec_after ha.state ha.threaded ha.myport ha.peer (by rw [ha.tx])
    exact ⟨h₁, h₂.trans ha.rx, by rw [h₃, ha.tx, hl.empty], by rw [h₄, ha.tx]⟩
  constructor
  · intro h
    have o : Opener c.s :=
      { e := {}, e' := {}
        syn := { peerSegment { syn := true } 0 0 0 with
          hdr := { (peerSegment { syn := true } 0 0 0).hdr with dstPort := c.s.myport } }
        ack := { peerSegment { ack := true } 1 (c.s.tx.sendNext + 1) 0 with
          hdr := { (peerSegment { ack := true } 1 (c.s.tx.sendNext + 1) 0).hdr with
            dstPort := c.s.myport } }
        synFlags := rfl, port := rfl, peer := (by decide : (80 : Word) ≠ 0), ackFlags := rfl, source := rfl
        destination := rfl, srcPort := rfl, dstPort := rfl, seqnum := rfl, acknum := rfl }
    have hg := h o
    refine ⟨?_, (hafter o).2.2.2 ▸ hg.pending.2, ?_⟩
    · obtain ⟨k, hk, seg, hseg, hnum⟩ := hl.first_seg o
      have hzero : BitVec.ofInt 32 c.s.sendUna = 0 := by
        rw [(hg.synAck k hk seg hseg).seqnum] at hnum
        exact left_eq_add.mp hnum
      have hmod := congrArg BitVec.toInt hzero
      rw [BitVec.toInt_ofInt] at hmod
      have hb : c.s.sendUna.bmod (2 ^ 32) = c.s.sendUna :=
        Int.bmod_eq_of_le (by omega) (by omega)
      exact hb.symm.trans hmod
    · have := hg.received
      rwa [(hafter o).2.1] at this
  · rintro ⟨huna, hq, hrx⟩ o
    obtain ⟨h₁, h₂, h₃, h₄⟩ := hafter o
    obtain ⟨k, hk, seg, hseg, -⟩ := hl.first_seg o
    exact ⟨⟨k, hk, List.ne_nil_of_mem hseg⟩, hl.synAck huna o, h₁, by rw [h₂]; exact hrx,
      by rw [h₂]; exact hl.missed, h₃, by rw [h₄, hq]⟩

/-- **A reset server listens as good as new** exactly if the reset found a clean block: then, and
only then, every handshake with every next peer goes as on a fresh listener. -/
theorem reset_listens_iff (c : Conn) (hserver : c.s.locflags.isServer = true)
    (ht : c.threaded = true) (hlong : -2 ^ 31 ≤ c.s.sendUna ∧ c.s.sendUna < 2 ^ 31) :
    (∀ o, GoodHandshake (tcpSockreset c) o) ↔ ResetClean c.s := by
  have hs : (tcpSockreset c).s.sendUna = c.s.sendUna ∧
      (tcpSockreset c).s.tx.txQueuelen = c.s.tx.txQueuelen ∧
      (tcpSockreset c).s.rx.rxDatalen =
        if c.s.state ≠ .closed ∧ c.s.state ≠ .lastack then 0 else c.s.rx.rxDatalen := by
    unfold tcpSockreset
    dsimp only
    rw [if_pos (by exact hserver)]
    exact ⟨rfl, rfl, rfl⟩
  rw [goodHandshake_iff (tcpSockreset_listening hserver ht) (by rwa [hs.1]), hs.1, hs.2.1, hs.2.2]
  constructor
  · rintro ⟨h₁, h₂, h₃⟩
    refine ⟨h₁, h₂, fun hst => ?_⟩
    rwa [if_neg (by tauto)] at h₃
  · rintro ⟨h₁, h₂, h₃⟩
    refine ⟨h₁, h₂, ?_⟩
    split_ifs with hst
    · rfl
    · exact h₃ (by tauto)

/-- The server of `transmit_stream_fails` when the reset comes. -/
def resetConn : Conn := run stepConn listeningConn (handshake 0 ++ [⟨{}, .write [1, 2, 3, 4]⟩])

/-- The SYN+ACK of the next connection is numbered 4 too high. -/
theorem reset_listens_fails : ¬ ∀ o, GoodHandshake (tcpSockreset resetConn) o := by
  have hl : Listening (tcpSockreset resetConn) :=
    tcpSockreset_listening (by decide +kernel) (by decide +kernel)
  rw [goodHandshake_iff hl (by decide +kernel)]
  rintro ⟨huna, -⟩
  revert huna
  decide +kernel

theorem reset_listens_listening :
    (∀ o, GoodHandshake (tcpSockreset listeningConn) o) ↔ ResetClean listeningConn.s :=
  reset_listens_iff listeningConn rfl rfl (by decide)

end Watt32.Tcp
