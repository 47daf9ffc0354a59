import Watt32.Tcp.Progress
import Watt32.Tcp.Relisten

/-!
# Keep-alive probes

`_tcp_keepalive` of `pctcp.c`, which edits the control block, calls `_tcp_send` and restores what it edited.

* `probe`, `restore`, `tcpKeepalive`: the call.
* `Invisible`: an idle connection emits the probe, and the connection looks as before.
* `sendLoop_quiet`: when a sending loop with one byte to send goes through without sending it.
* **`keepalive_iff`**: when a probe is invisible.
-/

namespace Watt32.Tcp

/-! ## The source -/

/-- The control block that `_tcp_keepalive` hands to `_tcp_send`. -/
def TcpSocket.probe (s : TcpSocket) : TcpSocket :=
  { s with
    rx := { s.rx with recvNext := s.tx.sendNext }
    tx := { s.tx with
      sendNext := s.tx.sendNext + BitVec.ofInt 32 s.sendUna - 1
      txDatalen := 1
      txData := Mem.put s.tx.txData 0 [0x30] }
    flags := s.flags.keepPushAck
    rtt := { s.rtt with karnCount := 2 } }

/-- What `_tcp_keepalive` puts back behind the call, `s` being the control block before it. -/
def TcpSocket.restore (s s' : TcpSocket) : TcpSocket :=
  { s' with
    rx := { s'.rx with recvNext := s.rx.recvNext }
    tx := { s'.tx with txDatalen := 0, sendNext := s.tx.sendNext }
    rtt := { s'.rtt with karnCount := s.rtt.karnCount }
    locflags := { s'.locflags with keepalive := false } }

/-- `_tcp_keepalive`: the connection and the result. -/
def tcpKeepalive (e : Env) (c : Conn) : Conn × ℤ :=
  if c.s.ipType ≠ tcpProto ∨ c.s.state.code < TcpState.synsent.code ∨ 0 < c.s.tx.txDatalen then (c, 0)
  else
    let r := tcpSend e (c.upd TcpSocket.probe)
    (r.1.upd c.s.restore, r.2)

/-! ## What is asked of it -/

/-- A segment with these numbers was emitted: the first one of a call of `_tcp_send` that went out. -/
structure Emits (c : Conn) (r : Conn × ℤ) (seqnum acknum : Dword) : Prop where
  sent : 0 ≤ r.2
  first : ∃ k rest seg segs, r.1.calls = c.calls ++ k :: rest ∧ k.segs = seg :: segs ∧
    seg.hdr.seqnum = seqnum ∧ seg.hdr.acknum = acknum

/-- The probe of an idle connection goes out, one before the first unacknowledged byte; and the connection looks
as before. -/
structure Invisible (e : Env) (c : Conn) : Prop where
  emits : c.s.tx.txDatalen = 0 → Emits c (tcpKeepalive e c) (c.s.tx.sendNext - 1) c.s.rx.recvNext
  sendNext : (tcpKeepalive e c).1.s.tx.sendNext = c.s.tx.sendNext
  recvNext : (tcpKeepalive e c).1.s.rx.recvNext = c.s.rx.recvNext
  sendUna : (tcpKeepalive e c).1.s.sendUna = c.s.sendUna
  txDatalen : (tcpKeepalive e c).1.s.tx.txDatalen = c.s.tx.txDatalen
  txData : (tcpKeepalive e c).1.s.tx.txData = c.s.tx.txData
  karnCount : (tcpKeepalive e c).1.s.rtt.karnCount = c.s.rtt.karnCount
  vjSa : (tcpKeepalive e c).1.s.rtt.vjSa = c.s.rtt.vjSa
  vjSd : (tcpKeepalive e c).1.s.rtt.vjSd = c.s.rtt.vjSd
  rto : (tcpKeepalive e c).1.s.rtt.rto = c.s.rtt.rto

/-- The room for data in turn `j` of a call without SYN: a time stamp is echoed in the first only. -/
def dataRoom (e : Env) (s : TcpSocket) (j : ℕ) : ℤ :=
  int (s.maxSeg - BitVec.ofNat 32 ((if j = 0 then stampLen e s else 0) + baseLen s))

/-- The turns of the sending loop of a probe that does not send its byte. -/
def probeTurns (s : TcpSocket) : ℕ := if s.window = 0 then 1 else s.rtt.cwindow.toNat

/-- The back-off leaves `rto` as it is. -/
def BackoffFixed (cfg : Config) (rto : Dword) : Prop := rto = 1 ∨ rto = 0 ∧ 2 * cfg.rtoAdd = 0

/-- An idle connection whose probe does not show: nothing is sent and unacknowledged, both ends are at the same
number, `'0'` is in the buffer already, the back-off is fixed, and all turns go out without the byte. -/
structure Unseen (e : Env) (c : Conn) : Prop where
  sendUna : c.s.sendUna = 0
  same : c.s.tx.sendNext = c.s.rx.recvNext
  zero : c.s.tx.txData 0 = 0x30
  cwindow : c.s.rtt.cwindow ≠ 0
  rto : BackoffFixed e.cfg c.s.rtt.rto
  turns : ∀ j < probeTurns c.s, c.txOk.getD j true = true ∧ (c.s.window = 0 ∨ dataRoom e c.s.probe j ≤ 0)

/-! ## The sending loop -/

section Loop

variable {e : Env} {l : SendLoop} {first : Bool} {n : ℕ} {ok : List Bool} {seg : OutSegment}

theorem TurnSeg.acknum (h : TurnSeg e l first seg) : seg.hdr.acknum = l.s.rx.recvNext := by
  have hseg := List.append_cancel_left (h.segs.symm.trans rfl)
  rw [(List.cons.inj hseg).1]
  dsimp only
  split_ifs <;> rfl

theorem turnLen_noSyn (hsyn : l.s.flags.syn = false) :
    turnLen e l.s first = (if 0 = 0 then stampLen e l.s else 0) + baseLen l.s := by
  rw [turnLen, hsyn, Bool.and_false]
  rfl

/-- A turn without SYN, with `m` bytes left to send. -/
theorem turnData_noSyn (hsyn : l.s.flags.syn = false) :
    turnData e l first = min l.sendTotData (max 0 (dataRoom e l.s 0)) := by
  rw [turnData, sendDataLen, hsyn, Bool.and_false, turnLen_noSyn hsyn]
  rfl

/-- After a turn without SYN the room is that of the later turns. -/
theorem dataRoom_sendSegment (hsyn : l.s.flags.syn = false) (j : ℕ) :
    dataRoom e (sendSegment e l first).s j = dataRoom e l.s (j + 1) := by
  have hcore : (sendSegment e l first).s.core = l.s.core := sendSegment_core
  have hmax : (sendSegment e l first).s.maxSeg = l.s.maxSeg := (congrArg TcpSocket.maxSeg hcore :)
  have hbase : baseLen (sendSegment e l first).s = baseLen l.s := (congrArg baseLen hcore :)
  have hstamp : stampLen e (sendSegment e l first).s = 0 := by
    rw [sendSegment_stampLen, hsyn, Bool.and_false]
    rfl
  unfold dataRoom
  rw [hmax, hbase, hstamp, ite_self, if_neg (Nat.succ_ne_zero j)]

/-- **A loop with one byte to send** goes through without sending it exactly if each of its turns has no room and
goes out. -/
theorem sendLoop_quiet (hsyn : l.s.flags.syn = false) (htot : l.sendTotData = 1) :
    ((sendLoop e n ok first l).2.2 = false ∧ (sendLoop e n ok first l).1.startData = l.startData) ↔
      ∀ j < n, ok.getD j true = true ∧ dataRoom e l.s j ≤ 0 := by
  induction n generalizing ok first l with
  | zero => simp [sendLoop]
  | succ n ih =>
    have hhead : ok.headD true = ok.getD 0 true := by cases ok <;> rfl
    have htail : ∀ j, ok.tail.getD j true = ok.getD (j + 1) true := by cases ok <;> simp
    have hdata := @turnData_noSyn e l first hsyn
    have hstart := @sendSegment_startData e l first
    have hleft := @sendSegment_sendTotData e l first
    rw [hdata, htot] at hstart hleft
    unfold sendLoop
    dsimp only
    by_cases hroom : dataRoom e l.s 0 ≤ 0
    · have hsyn' : (sendSegment e l first).s.flags.syn = false := by
        rw [← hsyn]
        exact (congrArg (fun s => s.flags.syn) (@sendSegment_core e l first) :)
      have htot' : (sendSegment e l first).sendTotData = 1 := by omega
      have hstart' : (sendSegment e l first).startData = l.startData := by omega
      rw [Nat.forall_lt_succ_left, ← hhead, htot', if_neg (by decide : ¬ (1 : ℤ) ≤ 0)]
      by_cases hok : ok.headD true = false
      · rw [if_pos hok, hok]
        simp
      · have hok' : ok.headD true = true := by simpa using hok
        rw [if_neg hok, ← hstart', ih hsyn' htot', and_iff_right ⟨hok', hroom⟩]
        simp only [htail, dataRoom_sendSegment hsyn]
    · refine iff_of_false ?_ fun h => hroom (h 0 (Nat.succ_pos n)).2
      rw [if_pos (show (sendSegment e l first).sendTotData ≤ 0 by omega)]
      split_ifs
      · simp
      · dsimp only
        omega

/-- A loop with nothing to send takes one turn. -/
theorem sendLoop_empty (hsyn : l.s.flags.syn = false) (htot : l.sendTotData = 0) :
    sendLoop e (n + 1) ok first l =
      (sendSegment e l first, ok.tail, decide (ok.headD true = false)) ∧
    (sendSegment e l first).startData = l.startData := by
  have hdata := @turnData_noSyn e l first hsyn
  have hstart := @sendSegment_startData e l first
  have hleft := @sendSegment_sendTotData e l first
  rw [hdata, htot] at hstart hleft
  refine ⟨?_, by omega⟩
  unfold sendLoop
  dsimp only
  rw [if_pos (show (sendSegment e l first).sendTotData ≤ 0 by omega)]
  cases ok.headD true
  · rw [if_pos rfl]
    rfl
  · rw [if_neg (by decide)]
    rfl

end Loop

/-! ## What a sending loop does to the timing -/

/-- The timing without what the sending loop writes. -/
def Rtt.timing (r : Rtt) : Rtt := { r with recent := false, tsSent := 0 }

section Timing

variable {e : Env} {l : SendLoop} {first : Bool}

theorem sendSegment_timing : (sendSegment e l first).s.rtt.timing = l.s.rtt.timing := by
  have h : (sendOptions e l first).s.rtt.timing = l.s.rtt.timing := by
    unfold sendOptions tcpOptions optionsUnsigned
    split_ifs <;> cases l.s.secret <;> rfl
  rw [← h]
  unfold sendSegment
  dsimp only
  split_ifs <;> rfl

theorem sendLoop_timing (n : ℕ) (ok : List Bool) (first : Bool) (l : SendLoop) :
    (sendLoop e n ok first l).1.s.rtt.timing = l.s.rtt.timing := by
  induction n generalizing ok first l with
  | zero => rfl
  | succ n ih =>
    unfold sendLoop
    dsimp only
    split_ifs
    · exact sendSegment_timing
    · exact sendSegment_timing
    · rw [ih]
      exact sendSegment_timing

theorem sendTurns_timing (e : Env) (c : Conn) : (sendTurns e c).1.s.rtt.timing = c.s.rtt.timing :=
  sendLoop_timing ..

end Timing

/-! ## The probe -/

section Probe

variable {e : Env} {c : Conn}

theorem sendSize_probe (s : TcpSocket) : sendSize s.probe = if s.window = 0 then 0 else 1 := by
  have hone : (1 : Dword).toNat = 1 := rfl
  have hsize : sendSize s.probe = int (if (1 : Dword) < s.window then 1 else s.window) := rfl
  rw [hsize]
  split_ifs with h₁ h₂ h₂
  · rw [h₂] at h₁
    exact absurd h₁ (by decide)
  · rfl
  · rw [h₂]
    rfl
  · have hnz : s.window.toNat ≠ 0 := fun h => h₂ (BitVec.eq_of_toNat_eq h)
    have hle : ¬ 1 < s.window.toNat := fun h => h₁ (BitVec.lt_def.mpr (hone.symm ▸ h))
    have hw : s.window = 1 := BitVec.eq_of_toNat_eq (by omega)
    rw [hw]
    rfl

/-- The turns of a probe. -/
theorem probe_quiet (hcw : c.s.rtt.cwindow ≠ 0) :
    ((sendTurns e (c.upd TcpSocket.probe)).2.2 = false ∧ (sendTurns e (c.upd TcpSocket.probe)).1.startData = 0) ↔
      ∀ j < probeTurns c.s, c.txOk.getD j true = true ∧ (c.s.window = 0 ∨ dataRoom e c.s.probe j ≤ 0) := by
  have hsize := sendSize_probe c.s
  have hcw' : c.s.rtt.cwindow.toNat ≠ 0 := fun h => hcw (BitVec.eq_of_toNat_eq h)
  obtain ⟨n, hn⟩ := Nat.exists_eq_succ_of_ne_zero hcw'
  obtain ⟨l, hl⟩ : ∃ l, sendStart c.s.probe (e.pkt c.calls.length) = l := ⟨_, rfl⟩
  have hturns : sendTurns e (c.upd TcpSocket.probe) = sendLoop e c.s.rtt.cwindow.toNat c.txOk true l := by
    rw [← hl]
    rfl
  have hsyn : l.s.flags.syn = false := by
    rw [← hl]
    rfl
  have hstart : l.startData = 0 := by
    rw [← hl]
    rfl
  have htot : l.sendTotData = if c.s.window = 0 then 0 else 1 := by
    rw [← hl, ← hsize]
    rfl
  rw [hturns, probeTurns]
  by_cases hw : c.s.window = 0
  · rw [if_pos hw] at htot
    obtain ⟨hloop, hsame⟩ := @sendLoop_empty e _ true n c.txOk hsyn htot
    have hhead : c.txOk.headD true = c.txOk.getD 0 true := by cases c.txOk <;> rfl
    rw [if_pos hw, hn, hloop, hsame, hstart, hhead]
    simp [hw]
  · rw [if_neg hw] at htot
    have hroom : ∀ j, dataRoom e l.s j = dataRoom e c.s.probe j := by
      intro j
      rw [← hl]
      rfl
    have hquiet := @sendLoop_quiet e _ true c.s.rtt.cwindow.toNat c.txOk hsyn htot
    rw [hstart] at hquiet
    rw [if_neg hw, hquiet]
    simp only [hroom, hw, false_or]

/-- The first segment of a call. -/
theorem sendTurns_head (h : c.s.rtt.cwindow ≠ 0) : ∃ seg segs, (sendTurns e c).1.segs = seg :: segs ∧
    seg.hdr.seqnum = c.s.tx.sendNext + BitVec.ofInt 32 (sendFrom c.s) ∧ seg.hdr.acknum = c.s.rx.recvNext := by
  obtain ⟨m, -, hm, -, hstop⟩ := @sendLoop_turns e true (sendStart c.s (e.pkt c.calls.length))
    c.s.rtt.cwindow.toNat c.txOk
  obtain ⟨seg, hturn, hsegs⟩ := @turns_segs e true (sendStart c.s (e.pkt c.calls.length))
  have hpos : 0 < m := by
    rcases hstop with hm0 | ⟨hm0, -⟩
    · rw [hm0]
      exact Nat.pos_of_ne_zero fun h0 => h (BitVec.eq_of_toNat_eq h0)
    · exact hm0
  obtain ⟨k, rfl⟩ := Nat.exists_eq_succ_of_ne_zero hpos.ne_bot
  refine ⟨seg 0, (List.range k).map fun j => seg (j + 1), ?_, (hturn 0).seqnum, (hturn 0).acknum⟩
  rw [sendTurns, hm, hsegs, List.range_succ_eq_map, List.map_cons, List.map_map]
  rfl

/-- What is left of `rto` when the probe went out. -/
def probeRto (cfg : Config) (rto : Dword) : Dword := if rto ≠ 0 then rto * 3 / 2 else 2 * cfg.rtoAdd

theorem probeRto_eq {cfg : Config} {rto : Dword} : probeRto cfg rto = rto ↔ BackoffFixed cfg rto := by
  unfold probeRto BackoffFixed
  by_cases h : rto = 0
  · subst h
    simp
  · rw [if_pos h]
    simp only [h, false_and, or_false]
    constructor
    · intro heq
      have hnat := congrArg BitVec.toNat heq
      have hne : rto.toNat ≠ 0 := fun h0 => h (BitVec.eq_of_toNat_eq h0)
      rw [BitVec.toNat_udiv, BitVec.toNat_mul] at hnat
      have h3 : (3 : Dword).toNat = 3 := rfl
      have h2 : (2 : Dword).toNat = 2 := rfl
      rw [h3, h2] at hnat
      have hone : (1 : Dword).toNat = 1 := rfl
      apply BitVec.eq_of_toNat_eq
      have hlt := rto.isLt
      have hquot : rto.toNat * 3 / 2 ^ 32 = 0 ∨ 1 ≤ rto.toNat * 3 / 2 ^ 32 := by omega
      rw [hone]
      rcases hquot with hq | hq
      · omega
      · omega
    · rintro rfl
      decide

theorem tcpKeepalive_eq (hproto : c.s.ipType = tcpProto) (hest : c.s.state = .estab) (hidle : c.s.tx.txDatalen = 0) :
    tcpKeepalive e c = ((tcpSend e (c.upd TcpSocket.probe)).1.upd c.s.restore, (tcpSend e (c.upd TcpSocket.probe)).2) := by
  unfold tcpKeepalive
  rw [if_neg]
  rw [hproto, hest, hidle]
  decide

/-- When the probe goes out. -/
theorem tcpSend_sent_iff : 0 ≤ (tcpSend e c).2 ↔ (sendTurns e c).2.2 = false := by
  rw [tcpSend_eq]
  unfold tcpSendWith
  have hlen := sendLoop_sendTotLen (e := e) c.s.rtt.cwindow.toNat c.txOk true (sendStart c.s (e.pkt c.calls.length))
  split_ifs with hf
  · exact iff_of_false (fun h => absurd h (by decide : ¬ (0 : ℤ) ≤ -1)) (by rw [hf]; decide)
  · exact iff_of_true hlen (by simpa using hf)

/-- A call that goes out ends so. -/
theorem tcpSend_done (h : (sendTurns e c).2.2 = false) : (tcpSend e c).1 = sendDone e c := by
  rw [tcpSend_eq, tcpSendWith, h, if_neg Bool.noConfusion]

theorem sendTimers_probe (s : TcpSocket) (n : ℤ) (hk : s.rtt.karnCount = 2) :
    (sendTimers e s n).vjSa = s.rtt.vjSa ∧ (sendTimers e s n).vjSd = s.rtt.vjSd ∧
      (sendTimers e s n).rto = probeRto e.cfg s.rtt.rto := by
  have hk' : ({ s.rtt with vjLast := 0 } : Rtt).karnCount = 2 := hk
  unfold sendTimers probeRto
  dsimp only at hk' ⊢
  rw [if_pos hk']
  split_ifs <;> exact ⟨rfl, rfl, rfl⟩

/-- A probe that went out: the estimates. -/
theorem probe_rtt (h : (sendTurns e (c.upd TcpSocket.probe)).2.2 = false) :
    let r := (tcpSend e (c.upd TcpSocket.probe)).1.s.rtt
    r.vjSa = c.s.rtt.vjSa ∧ r.vjSd = c.s.rtt.vjSd ∧ r.rto = probeRto e.cfg c.s.rtt.rto := by
  have htiming := sendTurns_timing e (c.upd TcpSocket.probe)
  have hkarn : (sendTurns e (c.upd TcpSocket.probe)).1.s.rtt.karnCount = 2 :=
    (congrArg Rtt.karnCount htiming :)
  have hsa : (sendTurns e (c.upd TcpSocket.probe)).1.s.rtt.vjSa = c.s.rtt.vjSa := (congrArg Rtt.vjSa htiming :)
  have hsd : (sendTurns e (c.upd TcpSocket.probe)).1.s.rtt.vjSd = c.s.rtt.vjSd := (congrArg Rtt.vjSd htiming :)
  have hrto : (sendTurns e (c.upd TcpSocket.probe)).1.s.rtt.rto = c.s.rtt.rto := (congrArg Rtt.rto htiming :)
  obtain ⟨h₁, h₂, h₃⟩ := sendTimers_probe (e := e) (sendTurns e (c.upd TcpSocket.probe)).1.s
    (sendTurns e (c.upd TcpSocket.probe)).1.sendTotLen hkarn
  rw [tcpSend_done h]
  exact ⟨h₁.trans hsa, h₂.trans hsd, h₃.trans (congrArg (probeRto e.cfg) hrto)⟩

/-- The probe goes out with the numbers it should have. -/
theorem probe_emits (hproto : c.s.ipType = tcpProto) (hest : c.s.state = .estab) (hidle : c.s.tx.txDatalen = 0) :
    Emits c (tcpKeepalive e c) (c.s.tx.sendNext - 1) c.s.rx.recvNext ↔
      (sendTurns e (c.upd TcpSocket.probe)).2.2 = false ∧ c.s.rtt.cwindow ≠ 0 ∧
        BitVec.ofInt 32 c.s.sendUna = 0 ∧ c.s.tx.sendNext = c.s.rx.recvNext := by
  obtain ⟨rest, hcalls⟩ := @tcpSend_first_call e (c.upd TcpSocket.probe)
  have hfrom : sendFrom c.s.probe = 0 := rfl
  have hcalls' : (tcpKeepalive e c).1.calls =
      c.calls ++ ⟨c.s.probe, (sendTurns e (c.upd TcpSocket.probe)).1.segs⟩ :: rest := by
    rw [tcpKeepalive_eq hproto hest hidle]
    exact hcalls
  have hseq : c.s.probe.tx.sendNext + BitVec.ofInt 32 (sendFrom c.s.probe) = c.s.tx.sendNext - 1 ↔
      BitVec.ofInt 32 c.s.sendUna = 0 := by
    change c.s.tx.sendNext + BitVec.ofInt 32 c.s.sendUna - 1 + 0 = c.s.tx.sendNext - 1 ↔ _
    constructor
    · intro h
      bv_omega
    · intro h
      rw [h]
      bv_omega
  constructor
  · rintro ⟨hsent, k, rest', seg, segs, hk, hsegs, hnum, hack⟩
    rw [tcpKeepalive_eq hproto hest hidle] at hsent
    have hout := tcpSend_sent_iff.mp hsent
    have hkey : k = ⟨c.s.probe, (sendTurns e (c.upd TcpSocket.probe)).1.segs⟩ :=
      (List.cons.inj (List.append_cancel_left (hk.symm.trans hcalls'))).1
    rw [hkey] at hsegs
    have hcw : c.s.rtt.cwindow ≠ 0 := by
      intro h0
      have hnone : (sendTurns e (c.upd TcpSocket.probe)).1.segs = [] := by
        have hz : (c.upd TcpSocket.probe).s.rtt.cwindow.toNat = 0 := congrArg BitVec.toNat h0
        rw [sendTurns, hz]
        rfl
      rw [hnone] at hsegs
      cases hsegs
    obtain ⟨seg', segs', hhead, hnum', hack'⟩ := sendTurns_head (e := e) (c := c.upd TcpSocket.probe) hcw
    obtain ⟨rfl, -⟩ := List.cons.inj (hhead.symm.trans hsegs)
    exact ⟨hout, hcw, hseq.mp (hnum'.symm.trans hnum), hack'.symm.trans hack⟩
  · rintro ⟨hout, hcw, huna, hsame⟩
    obtain ⟨seg, segs, hhead, hnum, hack⟩ := sendTurns_head (e := e) (c := c.upd TcpSocket.probe) hcw
    refine ⟨?_, _, rest, seg, segs, hcalls', hhead, hnum.trans (hseq.mpr huna), hack.trans hsame⟩
    rw [tcpKeepalive_eq hproto hest hidle]
    exact tcpSend_sent_iff.mpr hout

end Probe

/-- **Keep-alive** of an established connection is invisible exactly if data are pending, so that it does nothing,
or the probe does not show. -/
theorem keepalive_iff (e : Env) (c : Conn) (hproto : c.s.ipType = tcpProto) (hest : c.s.state = .estab) :
    Invisible e c ↔ c.s.tx.txDatalen ≠ 0 ∨ Unseen e c := by
  by_cases hidle : c.s.tx.txDatalen = 0
  · have heq := tcpKeepalive_eq (e := e) hproto hest hidle
    have hrx : (tcpSend e (c.upd TcpSocket.probe)).1.s.rx = c.s.probe.rx := tcpSend_rx e _
    have htx : (tcpSend e (c.upd TcpSocket.probe)).1.s.tx = c.s.probe.tx := tcpSend_tx e _
    have hdone : (sendTurns e (c.upd TcpSocket.probe)).2.2 = false →
        (tcpKeepalive e c).1.s.sendUna = (sendTurns e (c.upd TcpSocket.probe)).1.startData := by
      intro hout
      rw [heq, tcpSend_done hout]
      rfl
    have hrto : (sendTurns e (c.upd TcpSocket.probe)).2.2 = false →
        (tcpKeepalive e c).1.s.rtt.rto = probeRto e.cfg c.s.rtt.rto := by
      intro hout
      rw [heq]
      exact (probe_rtt hout).2.2
    have hdata : (tcpKeepalive e c).1.s.tx.txData = Mem.put c.s.tx.txData 0 [0x30] := by
      rw [heq]
      exact congrArg TxBuf.txData htx
    have hput : Mem.put c.s.tx.txData 0 [0x30] = c.s.tx.txData ↔ c.s.tx.txData 0 = 0x30 := by
      constructor
      · intro h
        rw [← h]
        rfl
      · intro h
        funext i
        cases i with
        | zero => exact h.symm
        | succ i => exact Mem.put_of_ge (by simp)
    have hquiet := probe_quiet (e := e) (c := c)
    rw [or_iff_right (not_not.mpr hidle)]
    constructor
    · intro h
      obtain ⟨hout, hcw, huna, hsame⟩ := (probe_emits hproto hest hidle).mp (h.emits hidle)
      have hstart : (sendTurns e (c.upd TcpSocket.probe)).1.startData = c.s.sendUna :=
        (hdone hout).symm.trans h.sendUna
      have hzero : c.s.sendUna = 0 := by
        obtain ⟨hlow, hhigh⟩ := sendTurns_startData e (c.upd TcpSocket.probe)
        have hsize : sendSize c.s.probe ≤ 1 := by
          rw [sendSize_probe]
          split_ifs <;> decide
        change 0 ≤ _ at hlow
        change _ ≤ max 0 (sendSize c.s.probe) at hhigh
        rw [hstart] at hlow hhigh
        have hle : c.s.sendUna = 0 ∨ c.s.sendUna = 1 := by omega
        refine hle.resolve_right fun hone => ?_
        rw [hone] at huna
        exact absurd huna (by decide)
      exact {
        sendUna := hzero
        same := hsame
        zero := hput.mp (hdata.symm.trans h.txData)
        cwindow := hcw
        rto := probeRto_eq.mp ((hrto hout).symm.trans h.rto)
        turns := (hquiet hcw).mp ⟨hout, hstart.trans hzero⟩ }
    · intro h
      obtain ⟨hout, hstart⟩ := (hquiet h.cwindow).mpr h.turns
      obtain ⟨hsa, hsd, -⟩ := probe_rtt hout
      have huna : BitVec.ofInt 32 c.s.sendUna = 0 := by
        rw [h.sendUna]
        rfl
      refine {
        emits := fun _ => (probe_emits hproto hest hidle).mpr ⟨hout, h.cwindow, huna, h.same⟩
        sendNext := by rw [heq]; rfl
        recvNext := by rw [heq]; rfl
        sendUna := (hdone hout).trans (hstart.trans h.sendUna.symm)
        txDatalen := by rw [heq, hidle]; rfl
        txData := hdata.trans (hput.mpr h.zero)
        karnCount := by rw [heq]; rfl
        vjSa := by rw [heq]; exact hsa
        vjSd := by rw [heq]; exact hsd
        rto := (hrto hout).trans (probeRto_eq.mpr h.rto) }
  · have hsame : tcpKeepalive e c = (c, 0) := by
      have hpos : 0 < c.s.tx.txDatalen := by
        have hne : c.s.tx.txDatalen.toNat ≠ 0 := fun h => hidle (BitVec.eq_of_toNat_eq h)
        exact BitVec.lt_def.mpr (Nat.pos_of_ne_zero hne)
      unfold tcpKeepalive
      rw [if_pos (.inr (.inr hpos))]
    refine iff_of_true ?_ (.inl hidle)
    refine ⟨fun h => absurd h hidle, ?_, ?_, ?_, ?_, ?_, ?_, ?_, ?_, ?_⟩ <;> rw [hsame]

/-- A connection that is closed by the peer's window, at the same number on both ends, with `rto` at one. -/
def quietConn : Conn := (establishedConn []).upd fun s => { s with
  sendUna := 0
  window := 0
  rtt := { s.rtt with rto := 1, cwindow := 1 }
  tx := { s.tx with txDatalen := 0, sendNext := s.rx.recvNext, txData := fun _ => 0x30 } }

/-- Its probe does not show. -/
theorem keepalive_quiet : Invisible {} quietConn :=
  (keepalive_iff {} quietConn rfl rfl).mpr (.inr
    { sendUna := rfl, same := rfl, zero := rfl, cwindow := by decide, rto := .inl rfl
      turns := fun _ _ => ⟨rfl, .inl rfl⟩ })

/-- A connection that was just established: the probe acknowledges our own number. -/
theorem keepalive_visible : ¬ Invisible {} (establishedConn []) := by
  intro h
  obtain ⟨-, -, -, hsame⟩ := (probe_emits rfl rfl rfl).mp (h.emits rfl)
  exact absurd hsame (by decide)

end Watt32.Tcp
