import Watt32.Tcp.Half
import Watt32.Tcp.FinAccount

/-!
# The code moves as the half does

Every function of `tcp_fsm.c` and `pctcp.c` is a number of moves.

* `tcpProcessAck_moves`, `processData_moves`, `tcpClose_moves`, `tcpAbort_moves`, …: the parts.
* `Enters`: the numbers with which a segment enters SYNREC or ESTAB.
* **`stepConn_moves`**: so is every step of the machine.
-/

namespace Watt32.Tcp

variable {A : Allow} {e : Env} {c : Conn}

/-! ## Sending, closing, resetting -/

theorem Moves.send {c' : Conn} (h : Moves A c c') : Moves A c (tcpSend e c').1 :=
  (tcpSend_moves e h).1

theorem Moves.sendsoon {c' : Conn} (h : Moves A c c') : Moves A c (tcpSendsoon e c').1 :=
  (tcpSend_moves e h).2

/-- A change that the half does not see. -/
theorem Moves.aside {c' : Conn} (h : Moves A c c') (f : TcpSocket → TcpSocket)
    (hf : (c'.upd f).half = c'.half) : Moves A c (c'.upd f) := h.tail (.quiet hf rfl)

theorem Moves.timer {c' : Conn} (h : Moves A c c') (t : Dword) :
    Moves A c (c'.upd fun s => { s with timeout := t }) := h.aside _ rfl

theorem Moves.unhappy {c' : Conn} (h : Moves A c c') (b : Bool) :
    Moves A c (c'.upd fun s => { s with unhappy := b }) := h.aside _ rfl

theorem Moves.ite {p : Prop} [Decidable p] {a b : Conn} (ha : Moves A c a) (hb : Moves A c b) :
    Moves A c (if p then a else b) := by
  split_ifs
  · exact ha
  · exact hb

theorem pending_eq_nil : c.half.pending = [] ↔ c.s.tx.txDatalen = 0 := by
  rw [← List.length_eq_zero_iff, Conn.half, Mem.length_slice, ← BitVec.toNat_inj]
  rfl

theorem unthread_half (freeTx : Bool) : (tcpUnthread freeTx c).half = { c.half with
    state := .closed
    pending := if freeTx ∧ c.s.tx.txLoc = .heap then [] else c.half.pending } := by
  unfold tcpUnthread unthread
  dsimp only
  split_ifs <;> rfl

theorem unthread_moves (freeTx : Bool) : Moves A c (tcpUnthread freeTx c) := by
  refine .next (.shut _ ?_) (unthread_half freeTx) rfl
  split_ifs
  · exact .inr rfl
  · exact .inl rfl

theorem closeNow_moves (hs : c.s.state = .estab ∨ c.s.state = .estcl ∨
    c.s.state = .synrec ∧ A.closeSynrec) (hp : c.s.tx.txDatalen = 0) :
    Moves A c (closeNow e c) := by
  refine Moves.send ?_
  exact .next (.closeNow hs (pending_eq_nil.mpr hp)) rfl rfl

theorem closeLater_moves (hs : c.s.state = .estab ∨ c.s.state = .estcl ∨ c.s.state = .synrec)
    (hp : c.s.tx.txDatalen ≠ 0) : Moves A c (closeLater e c) := by
  unfold closeLater
  dsimp only
  split_ifs
  · refine Moves.sendsoon ?_
    exact .next (.closeLater hs (pending_eq_nil.not.mpr hp)) rfl rfl
  · exact .quiet rfl rfl

theorem closeClosWt_moves (hs : c.s.state = .closwt) : Moves A c (closeClosWt e c) := by
  refine Moves.send ?_
  exact .next (.lastack (.inr (.inr hs))) rfl rfl

theorem tcpClose_moves (hA : c.s.state = .synrec → A.closeSynrec) : Moves A c (tcpClose e c) := by
  have hlater : c.s.state = .estab ∨ c.s.state = .estcl ∨ c.s.state = .synrec →
      Moves A c ((if c.s.tx.txDatalen ≠ 0 then closeLater e c else closeNow e c).upd
        fun s => { s with unhappy := true }) := by
    intro hs
    split_ifs with hp
    · exact (closeLater_moves hs hp).aside _ rfl
    · have hs' : c.s.state = .estab ∨ c.s.state = .estcl ∨ c.s.state = .synrec ∧ A.closeSynrec :=
        hs.imp_right (Or.imp_right fun h => ⟨h, hA h⟩)
      exact (closeNow_moves hs' (not_not.mp hp)).aside _ rfl
  have hshut : Moves A c (c.upd fun s => { s with state := .closed }) :=
    .next (.shut c.half.pending (.inl rfl)) rfl rfl
  unfold tcpClose
  by_cases hip : c.s.ipType ≠ tcpProto
  · rw [if_pos hip]
    exact .refl
  rw [if_neg hip]
  rcases hs : c.s.state <;> dsimp only
  case estab | estcl | synrec => exact hlater (by simp [hs])
  case closwt => exact (closeClosWt_moves hs).aside _ rfl
  case resolve | synsent => exact hshut.trans (unthread_moves false)
  all_goals exact .refl

theorem Half.Next.una_nonneg {h h' : Half} (hn : h.Next A h') (hu : 0 ≤ h.una) : 0 ≤ h'.una := by
  cases hn
  case rewind => exact le_rfl
  case ack _ _ _ _ _ _ _ _ _ _ hu' _ => exact hu'
  all_goals exact hu

/-- Moves never make `send_una` negative. -/
theorem una_nonneg {c' : Conn} (h : Moves A c c') (hc : 0 ≤ c.half.una) : 0 ≤ c'.half.una := by
  refine moves_invariant (I := fun c => 0 ≤ c.half.una) (fun c c' hc hm => ?_) h hc
  cases hm with
  | quiet h => rwa [h]
  | next h => exact h.una_nonneg hc
  | call e u hu hul h => rw [h]; exact hu hc
  | abort n b u hu h => rw [h]; exact hu hc
  | restart _ h => rw [h]; exact hc

/-- Nor do the calls on the way find it negative. -/
theorem calls_una_nonneg {c' : Conn} (h : Moves A c c') (hA : ∀ u, ¬ A.restart u)
    (hu : 0 ≤ c.half.una) : ∃ new, c'.calls = c.calls ++ new ∧ ∀ k ∈ new, 0 ≤ k.entry.sendUna := by
  refine (moves_invariant (I := fun c' => 0 ≤ c'.half.una ∧ ∃ new, c'.calls = c.calls ++ new ∧
    ∀ k ∈ new, 0 ≤ k.entry.sendUna) (fun c₁ c₂ hi hm => ?_) h ⟨hu, [], by simp, by simp⟩).2
  refine ⟨una_nonneg (Relation.ReflTransGen.single hm) hi.1, ?_⟩
  obtain ⟨hu₁, new, hnew, hall⟩ := hi
  cases hm with
  | quiet _ hc | next _ hc => exact ⟨new, hc.trans hnew, hall⟩
  | call e' u _ _ _ hc =>
    refine ⟨new ++ [⟨c₁.s, (sendTurns e' c₁).1.segs⟩], by rw [hc, hnew, List.append_assoc], ?_⟩
    intro k hk
    rcases List.mem_append.mp hk with hk | hk
    · exact hall k hk
    · rw [List.mem_singleton.mp hk]
      exact hu₁
  | abort n b u _ _ hc =>
    obtain ⟨e', more, hmore, hall'⟩ := hc
    refine ⟨new ++ more, by rw [hmore, hnew, List.append_assoc], fun k hk => ?_⟩
    rcases List.mem_append.mp hk with hk | hk
    · exact hall k hk
    · exact (hall' k hk).1 hu₁
  | restart hr => exact absurd hr (hA _)

theorem tcpSend_half : (tcpSend e c).1.half = { c.half with una := (tcpSend e c).1.half.una } :=
  half_of_core tcpSend_sent.1.core (tcpSend_iss e c) (tcpSend_accepted e c) (tcpSend_acked e c)

/-- Sending with nothing pending and no FIN, then closing. -/
theorem abort_of_send (c' : Conn) (n : Dword)
    (h : c'.half = { c.half with sendNext := n, fin := false, pending := [] })
    (hcalls : c'.calls = c.calls) (freeTx : Bool) (f : TcpSocket → TcpSocket)
    (hf : ∀ c : Conn, c.half.pending = [] → (c.upd f).half = c.half) :
    Moves A c (tcpUnthread freeTx ((tcpSend e c').1.upd f)) := by
  have hsent := @tcpSend_sent e c'
  have hhalf := @tcpSend_half e c'
  rw [h] at hhalf
  have hnil : (tcpSend e c').1.half.pending = [] := by rw [hhalf]
  have hfin : c'.s.flags.fin = false := congrArg Half.fin h
  have hlen : c'.s.tx.txDatalen = 0 := pending_eq_nil.mp (congrArg Half.pending h)
  refine Relation.ReflTransGen.single (.abort n false (tcpSend e c').1.half.una ?_ ?_ ?_)
  · intro hu
    exact una_nonneg (A := ⟨False, fun _ => False, fun _ => False⟩) (Moves.send .refl) (by rw [h]; exact hu)
  · rw [unthread_half, hf _ hnil, hnil, hhalf, ite_self]
  · obtain ⟨new, hnew, hall⟩ := hsent.1.calls
    refine ⟨e, new, hnew.trans (by rw [hcalls]), fun k hk => ⟨fun hu => ?_, ?_, ?_, (hall k hk).2⟩⟩
    · obtain ⟨new', hnew', hall'⟩ := calls_una_nonneg (A := ⟨False, fun _ => False, fun _ => False⟩)
        (Moves.send (e := e) (c := c') .refl) (fun _ => id) (by rw [h]; exact hu)
      rw [List.append_cancel_left (hnew.symm.trans hnew')] at hk
      exact hall' k hk
    · exact (congrArg (fun s => s.flags.fin) (hall k hk).1).trans hfin
    · exact (congrArg (fun s => s.tx.txDatalen) (hall k hk).1).trans hlen

theorem unthread_of_send {c' : Conn} (n : Dword)
    (h : c'.half = { c.half with sendNext := n, fin := false, pending := [] })
    (hcalls : c'.calls = c.calls) (freeTx : Bool) :
    Moves A c (tcpUnthread freeTx (tcpSend e c').1) :=
  abort_of_send c' n h hcalls freeTx id fun _ _ => rfl

theorem tcpAbort_moves : Moves A c (tcpAbort e c) := by
  have hdrop : ∀ c : Conn, c.half.pending = [] → (c.upd fun s => { s with
      unhappy := false, ipType := 0, tx := { s.tx with txDatalen := 0 } }).half = c.half := by
    intro c hc
    have := pending_eq_nil.mp hc
    unfold Conn.half
    simp [this]
  unfold tcpAbort
  dsimp only
  split_ifs with hs
  · unfold abortReset
    apply abort_of_send (n := c.half.sendNext)
    · rfl
    · rfl
    · exact hdrop
  · refine Relation.ReflTransGen.single (.abort c.half.sendNext c.half.fin c.half.una id ?_
      ⟨e, [], (List.append_nil _).symm, by simp⟩)
    rw [unthread_half]
    unfold Conn.half
    simp

theorem tcpSockreset_moves (hA : c.s.locflags.isServer → A.restart c.s.sendUna) :
    Moves A c (tcpSockreset c) := by
  unfold tcpSockreset
  dsimp only
  split
  case isTrue hs => exact Relation.ReflTransGen.single (.restart (hA hs) rfl rfl)
  · refine Relation.ReflTransGen.single (.abort c.half.sendNext c.half.fin c.half.una id ?_
      ⟨{}, [], (List.append_nil _).symm, by simp⟩)
    rw [unthread_half, ite_eq_right_iff.mpr]
    · rfl
    · exact fun _ => rfl

/-! ## Segments -/

/-- The half is a part of what a header leaves alone, of the pending bytes and of their room. -/
theorem half_headCore {c' : Conn} (h : c'.s.headCore = c.s.headCore) (hiss : c'.iss = c.iss)
    (haccepted : c'.accepted = c.accepted) (hacked : c'.acked = c.acked) :
    c'.half = { c.half with
      pending := Mem.slice c'.s.tx.txData 0 c.s.tx.txDatalen.toNat
      maxTx := c'.s.tx.maxTxData.toNat } := by
  have hc : ∀ c : Conn, c.half = { Conn.half { c with s := c.s.headCore } with
      pending := Mem.slice c.s.tx.txData 0 c.s.headCore.tx.txDatalen.toNat
      maxTx := c.s.tx.maxTxData.toNat } := fun _ => rfl
  rw [hc c', hc c, h]
  unfold Conn.half
  dsimp only
  rw [hiss, haccepted, hacked]
  rfl

/-- The size `tcp_set_window` gives the transmit buffer. -/
theorem newMaxTx {w : Word} {m : Dword} (h : m < w.setWidth 32) :
    m.toNat ≤ (((w.setWidth 32 : Dword).setWidth 16).setWidth 32 - 1 : Dword).toNat ∧
      (((w.setWidth 32 : Dword).setWidth 16).setWidth 32 - 1 : Dword).toNat < 2 ^ 16 := by
  have hw := w.isLt
  have hn : (((w.setWidth 32 : Dword).setWidth 16).setWidth 32 : Dword).toNat = w.toNat := by
    simp only [BitVec.toNat_setWidth]; omega
  have hlt : m.toNat < w.toNat := by
    have := BitVec.lt_def.mp h
    rw [BitVec.toNat_setWidth] at this
    omega
  rw [BitVec.toNat_sub_of_le (by rw [BitVec.le_def, hn]; simp; omega), hn]
  simp
  omega

/-- `tcp_set_window` leaves the transmit buffer or copies it to a larger one. -/
theorem tcpSetWindow_tx (s : TcpSocket) (hdr : TcpHeader) :
    (tcpSetWindow e s hdr).tx = s.tx ∨ ∃ m data, m.toNat < 2 ^ 16 ∧ s.tx.maxTxData.toNat ≤ m.toNat ∧
      Mem.slice data 0 s.tx.txDatalen.toNat = Mem.slice s.tx.txData 0 s.tx.txDatalen.toNat ∧
      (tcpSetWindow e s hdr).tx = { s.tx with txData := data, txLoc := .heap, maxTxData := m } := by
  have hw : ¬ maxWindow < hdr.window.setWidth 32 := by
    have := hdr.window.isLt
    rw [BitVec.lt_def, BitVec.toNat_setWidth, maxWindow]
    simp
    omega
  unfold tcpSetWindow
  dsimp only
  rw [if_neg hw]
  by_cases hgrow : s.tx.txLoc = .txBuf ∧ s.tx.maxTxData < hdr.window.setWidth 32
  · rw [if_pos hgrow]
    rcases e.heap with _ | buf
    · exact .inl rfl
    · refine .inr ⟨_, _, (newMaxTx hgrow.2).2, (newMaxTx hgrow.2).1, ?_, rfl⟩
      split_ifs with hlen
      · exact Mem.slice_blit_self
      · rw [not_not.mp hlen]; rfl
  · rw [if_neg hgrow]
    exact .inl rfl

/-- The header of a segment may move the transmit buffer to a larger place. -/
theorem header_moves {c' : Conn} (hdr : TcpHeader) (h : c'.s.headCore = c.s.headCore)
    (htx : c'.s.tx = (tcpSetWindow e c.s hdr).tx) (hiss : c'.iss = c.iss)
    (haccepted : c'.accepted = c.accepted) (hacked : c'.acked = c.acked)
    (hcalls : c'.calls = c.calls) : Moves A c c' := by
  have hhalf := half_headCore h hiss haccepted hacked
  rcases @tcpSetWindow_tx e c.s hdr with hs | ⟨m, data, hm, hle, hdata, hs⟩
  · rw [htx, hs] at hhalf
    exact .quiet hhalf hcalls
  · rw [htx, hs] at hhalf
    refine .next (.grow m.toNat hle hm) (hhalf.trans ?_) hcalls
    dsimp only
    rw [hdata]
    rfl

theorem tcpSetWindow_moves (seg : InSegment) :
    Moves A c (c.upd fun s => tcpSetWindow e s seg.hdr) :=
  header_moves seg.hdr (tcpSetWindow_core e c.s seg) rfl rfl rfl rfl rfl

theorem processHeader_tx (s : TcpSocket) (seg : InSegment) (flags : TcpFlags) :
    (processHeader e s seg flags).tx = (tcpSetWindow e s seg.hdr).tx := by
  have hs : (tcpSetWindow e (spendStress s) seg.hdr).tx = (tcpSetWindow e s seg.hdr).tx := by
    unfold tcpSetWindow spendStress
    dsimp only
    split_ifs <;> (try cases e.heap) <;> rfl
  unfold processHeader
  dsimp only
  split_ifs
  · exact (congrArg TcpSocket.tx (tcpProcessOptions_core _ seg flags _) :).trans hs
  · exact hs

/-- A segment's data are received, its header may move the transmit buffer. -/
theorem processData_moves (seg : InSegment) (flags : TcpFlags) (hs : ¬ c.s.state.early) :
    Moves A c (processData e c seg flags).1 := by
  have hhead : Moves A c (c.upd fun s => processHeader e s seg flags) :=
    header_moves seg.hdr (processHeader_core e c.s seg flags) (processHeader_tx c.s seg flags)
      rfl rfl rfl rfl
  have hstate : (processHeader e c.s seg flags).state = c.s.state :=
    (congrArg TcpSocket.state (processHeader_core e c.s seg flags) :)
  refine hhead.trans (.next (.receive (processData e c seg flags).1.s.rx.recvNext ?_) ?_ rfl)
  · rwa [← hstate] at hs
  · unfold processData tcpProcessData
    dsimp only
    split_ifs <;> rfl

/-! ## Acknowledgments -/

theorem discardAcked_txDatalen (s : TcpSocket) (acknum : Dword) :
    (discardAcked s acknum).tx.txDatalen =
      s.tx.txDatalen - minLong (acknum - s.tx.sendNext) s.tx.txDatalen := by
  unfold discardAcked
  dsimp only
  split_ifs <;> rfl

theorem discardAcked_sendUna (s : TcpSocket) (acknum : Dword) :
    (discardAcked s acknum).sendUna =
      s.sendUna - (minLong (acknum - s.tx.sendNext) s.tx.txDatalen).toInt := by
  unfold discardAcked
  dsimp only
  split_ifs <;> rfl

theorem discardAcked_txData {s : TcpSocket} (h : s.tx.txQueuelen = 0) (acknum : Dword) :
    (discardAcked s acknum).tx.txQueuelen = 0 ∧ (discardAcked s acknum).tx.txData =
      if acknum - s.tx.sendNext < s.tx.txDatalen ∧ 0 < (acknum - s.tx.sendNext).toInt then
        Mem.blit s.tx.txData 0 s.tx.txData (acknum - s.tx.sendNext).toNat
          (s.tx.txDatalen - (acknum - s.tx.sendNext)).toNat
      else s.tx.txData := by
  unfold discardAcked
  dsimp only
  rw [if_neg (not_not.mpr h)]
  split_ifs <;> exact ⟨h, rfl⟩

/-- With everything in range the smaller one of the two is the acknowledged length. -/
theorem minLong_eq {a b : Dword} (h : a ≤ b) (hb : b.toNat < 2 ^ 31) : minLong a b = a := by
  have hle := BitVec.le_def.mp h
  unfold minLong
  rw [BitVec.toInt_eq_toNat_of_lt (by omega), BitVec.toInt_eq_toNat_of_lt (by omega)]
  split_ifs with hlt
  · rfl
  · exact BitVec.eq_of_toNat_eq (by omega)

/-- An acknowledgment in the window takes bytes off the front. -/
theorem discardAcked_pending {acknum : Dword} {s : TcpSocket} (h : ackInWindow s acknum)
    (hlt : s.tx.txDatalen.toNat < 2 ^ 31) :
    (discardAcked s acknum).tx.txDatalen.toNat =
        s.tx.txDatalen.toNat - (acknum - s.tx.sendNext).toNat ∧
      (discardAcked s acknum).sendUna = s.sendUna - (acknum - s.tx.sendNext).toNat ∧
      (s.tx.txQueuelen = 0 →
        Mem.slice (discardAcked s acknum).tx.txData 0 (discardAcked s acknum).tx.txDatalen.toNat =
        (Mem.slice s.tx.txData 0 s.tx.txDatalen.toNat).drop (acknum - s.tx.sendNext).toNat) := by
  simp only [ackInWindow, decide_eq_true_eq] at h
  have hle := BitVec.le_def.mp h.2
  have hlen : (discardAcked s acknum).tx.txDatalen.toNat =
      s.tx.txDatalen.toNat - (acknum - s.tx.sendNext).toNat := by
    rw [discardAcked_txDatalen, minLong_eq h.2 hlt, BitVec.toNat_sub_of_le h.2]
  refine ⟨hlen, ?_, fun hq => ?_⟩
  · rw [discardAcked_sendUna, minLong_eq h.2 hlt, BitVec.toInt_eq_toNat_of_lt (by omega)]
  · rw [hlen, (discardAcked_txData hq acknum).2, Mem.drop_slice, Nat.zero_add]
    split_ifs with hm
    · rw [BitVec.toNat_sub_of_le h.2, Mem.slice_blit_self]
    · rw [BitVec.lt_def, BitVec.toInt_eq_toNat_of_lt (by omega)] at hm
      rcases Nat.eq_zero_or_pos (acknum - s.tx.sendNext).toNat with h0 | h0
      · rw [h0]
      · rw [show s.tx.txDatalen.toNat - (acknum - s.tx.sendNext).toNat = 0 by omega]
        rfl

/-- The half after an acknowledgment in the window. -/
theorem processAck_half {acknum : Dword} (h : ackInWindow c.s acknum) :
    (tcpProcessAck c acknum).1.half = { c.half with
      sendNext := c.half.sendNext + BitVec.ofNat 32 (acknum - c.s.tx.sendNext).toNat
      pending := Mem.slice (discardAcked c.s acknum).tx.txData 0
        (discardAcked c.s acknum).tx.txDatalen.toNat
      acked := c.half.acked + (acknum - c.s.tx.sendNext).toNat
      queued := (discardAcked c.s acknum).tx.txQueuelen
      una := (discardAcked c.s acknum).sendUna } := by
  have hc : ∀ c : Conn, c.half = { Conn.half { c with s := c.s.ackCore } with
      sendNext := c.s.tx.sendNext, pending := Mem.slice c.s.tx.txData 0 c.s.tx.txDatalen.toNat
      queued := c.s.tx.txQueuelen, una := c.s.sendUna } := fun _ => rfl
  have hcore := discardAcked_core c.s acknum
  have hnext : c.half.sendNext + BitVec.ofNat 32 (acknum - c.s.tx.sendNext).toNat = acknum := by
    rw [BitVec.ofNat_toNat, BitVec.setWidth_eq]
    exact add_sub_cancel _ _
  rw [tcpProcessAck, if_pos h, hnext, hc, hc c]
  dsimp only
  rw [hcore, discardAcked_sendNext]
  rfl

/-- **An acknowledgment in the window**, with `send_una` set to `u` behind it. -/
theorem ack_moves {acknum : Dword} {c' : Conn} (h : ackInWindow c.s acknum)
    (hs : c.s.state = .estab ∨ c.s.state = .estcl ∨ c.s.state = .closwt ∨ c.s.state = .finwt1)
    (hu : 0 ≤ c'.half.una)
    (hul : c'.half.una = 0 ∨ c'.half.una = (discardAcked c.s acknum).sendUna)
    (hhalf : c'.half = { (tcpProcessAck c acknum).1.half with una := c'.half.una })
    (hcalls : c'.calls = c.calls) : Moves A c c' := by
  have hk : (acknum - c.s.tx.sendNext).toNat ≤ c.half.pending.length := by
    simp only [ackInWindow, decide_eq_true_eq] at h
    rw [Conn.half, Mem.length_slice]
    exact BitVec.le_def.mp h.2
  have hlen : c.half.pending.length = c.s.tx.txDatalen.toNat := Mem.length_slice
  have hfit : c.half.Fits → c.s.tx.txDatalen.toNat < 2 ^ 31 := fun hf => by
    have := hf.1
    have := hf.2
    omega
  rw [processAck_half h] at hhalf
  refine .next (.ack _ _ _ _ hs hk ?_ ?_ ?_ ?_ hu ?_) hhalf hcalls
  · exact fun hq => (discardAcked_txData hq acknum).1
  · exact fun hf hq => (discardAcked_pending h (hfit hf)).2.2 hq
  · intro hf
    rw [Mem.length_slice, hlen]
    exact (discardAcked_pending h (hfit hf)).1
  · intro hnil
    have h0 := pending_eq_nil.mp hnil
    rw [(discardAcked_pending h (by simp [h0])).1, h0]
    simp
  · intro hf hle
    obtain ⟨h₁, h₂, -⟩ := discardAcked_pending h (hfit hf)
    have huna : c.half.una = c.s.sendUna := rfl
    rw [Mem.length_slice, h₁]
    omega

theorem estabAck_moves (acknum : Dword)
    (hs : c.s.state = .estab ∨ c.s.state = .estcl ∨ c.s.state = .closwt) :
    Moves A c (estabAck c acknum) := by
  set c₀ := c.upd fun s => { s with timeout := 0 } with hc₀
  have hplain : ∀ u, estabAck c acknum =
      ((tcpProcessAck c₀ acknum).1.upd fun s => { s with sendUna := u }).upd
        (fun s => { s with flags := s.flags.keepPushAck }) →
      Moves A c ((tcpProcessAck c₀ acknum).1.upd fun s => { s with sendUna := u }) →
      Moves A c (estabAck c acknum) := fun u heq h => heq ▸ h.trans (.next .plain rfl rfl)
  by_cases hw : ackInWindow c₀.s acknum
  · have hr : tcpProcessAck c₀ acknum = ({ c₀ with
        s := discardAcked c₀.s acknum
        acked := c₀.acked + (acknum - c₀.s.tx.sendNext).toNat }, true) := if_pos hw
    refine hplain (if (discardAcked c₀.s acknum).sendUna < 0 then 0
      else (discardAcked c₀.s acknum).sendUna) ?_ ?_
    · unfold estabAck
      rw [← hc₀, hr]
      simp [Conn.upd]
    · refine Moves.trans (@Moves.quiet A c c₀ rfl rfl) (ack_moves hw ?_ ?_ ?_ rfl ?_)
      · exact hs.imp_right (Or.imp_right Or.inl)
      · show 0 ≤ if (discardAcked c₀.s acknum).sendUna < 0 then 0
          else (discardAcked c₀.s acknum).sendUna
        split_ifs <;> omega
      · show (if (discardAcked c₀.s acknum).sendUna < 0 then 0
          else (discardAcked c₀.s acknum).sendUna) = 0 ∨ _ = (discardAcked c₀.s acknum).sendUna
        split_ifs
        · exact .inl rfl
        · exact .inr rfl
      · rw [hr]
        rfl
  · have hr : tcpProcessAck c₀ acknum = (c₀, false) := if_neg hw
    refine hplain 0 ?_ ?_
    · unfold estabAck
      rw [← hc₀, hr]
      simp [Conn.upd]
    · rw [hr]
      exact .next .rewind rfl rfl

theorem finwt1Ack_moves (acknum : Dword) (hs : c.s.state = .finwt1) :
    Moves A c (finwt1Ack c acknum) := by
  unfold finwt1Ack
  dsimp only
  by_cases hw : ackInWindow c.s acknum
  · have hr : tcpProcessAck c acknum = ({ c with
        s := discardAcked c.s acknum
        acked := c.acked + (acknum - c.s.tx.sendNext).toNat }, true) := if_pos hw
    have hs' : c.s.state = .estab ∨ c.s.state = .estcl ∨ c.s.state = .closwt ∨
        c.s.state = .finwt1 := by simp [hs]
    split_ifs with hu
    · refine ack_moves hw hs' le_rfl (.inl rfl) ?_ ?_ <;> rw [hr] <;> rfl
    · rw [hr] at hu ⊢
      refine ack_moves hw hs' ?_ (.inr rfl) ?_ rfl
      · simp only [not_or, not_lt, true_and] at hu
        exact hu.2
      · rw [hr]
  · have hr : tcpProcessAck c acknum = (c, false) := if_neg hw
    rw [hr]
    simp only [Bool.false_eq_true, false_and, if_false]
    exact .refl

/-! ## The state functions -/

/-- The number of the peer with which a segment enters SYNREC or ESTAB. -/
def Enters (c : Conn) (seg : InSegment) (r : Dword) : Prop :=
  (c.s.state = .listen ∧ seg.hdr.flags.syn ∧ r = seg.hdr.seqnum + 1) ∨
  (c.s.state = .synsent ∧ seg.hdr.flags.syn ∧ seg.hdr.flags.ack ∧
    seg.hdr.acknum = c.s.tx.sendNext + 1 ∧ r = seg.hdr.seqnum + 1) ∨
  (c.s.state = .synsent ∧ seg.hdr.flags.syn ∧ ¬ seg.hdr.flags.ack ∧ r = c.s.rx.recvNext + 1) ∨
  (c.s.state = .synrec ∧ ¬ seg.hdr.flags.syn ∧ seg.hdr.flags.ack ∧
    seg.hdr.acknum = c.s.tx.sendNext + 1 ∧ r = c.s.rx.recvNext)

section States

variable {seg : InSegment}

theorem tcpSendReset_moves : Moves A c (tcpSendReset e c seg) := by
  unfold tcpSendReset
  dsimp only
  split
  · exact .refl
  · exact .quiet rfl rfl

theorem tcpListenState_moves (hs : c.s.state = .listen) (hA : ∀ r, Enters c seg r → A.enter r) :
    Moves A c (tcpListenState e c seg seg.hdr.flags).1 := by
  unfold tcpListenState
  split_ifs with hsyn
  · refine Moves.timer (Moves.send ?_) _
    exact .next (.enterSynrec _ (.inl hs) (hA _ (.inl ⟨hs, hsyn, rfl⟩))) rfl rfl
  · exact tcpSendReset_moves

theorem synsentEstablish_moves (hs : c.s.state = .synsent) (hA : A.enter (seg.hdr.seqnum + 1))
    (hfin : c.s.flags.fin = false) (flags : TcpFlags) :
    Moves A c (synsentEstablish e c seg flags) := by
  refine Moves.send (Moves.aside (Moves.trans ?_ (processData_moves seg flags ?_)) _ ?_)
  · refine .next (.establish (seg.hdr.seqnum + 1) (.inl hs) hA) ?_ rfl
    unfold Conn.half
    simp [hfin]
  · simp [TcpState.early]
  · rfl

theorem synsentRestart_moves (hs : c.s.state = .synsent) : Moves A c (synsentRestart e c) := by
  unfold synsentRestart
  refine Moves.sendsoon ?_
  have hsend : Moves A c (tcpSend e (c.upd fun s => { s with
      flags := { rst := true }, unhappy := true })).1 :=
    Moves.send (.next .plain rfl rfl)
  refine hsend.trans (.next (.reseed e.isn ?_) rfl rfl)
  exact (tcpSend_state e _).trans hs

theorem tcpSynsentState_moves (hs : c.s.state = .synsent) (hA : ∀ r, Enters c seg r → A.enter r) :
    Moves A c (tcpSynsentState e c seg seg.hdr.flags).1 := by
  unfold tcpSynsentState
  by_cases hsyn : seg.hdr.flags.syn
  · rw [if_pos hsyn]
    extract_lets c₀
    have hc₀ : Moves A c c₀ := .next .plain rfl rfl
    have hs₀ : c₀.s.state = .synsent := hs
    by_cases hack : seg.hdr.flags.ack
    · rw [if_pos hack]
      split_ifs with hnum
      · exact hc₀.trans (synsentEstablish_moves hs₀
          (hA _ (.inr (.inl ⟨hs, hsyn, hack, hnum, rfl⟩))) rfl _)
      · exact hc₀.trans (synsentRestart_moves hs₀)
    · rw [if_neg hack]
      refine hc₀.trans (.next (.enterSynrec (c.s.rx.recvNext + 1) (.inr hs₀) ?_) rfl rfl)
      exact hA _ (.inr (.inr (.inl ⟨hs, hsyn, hack, rfl⟩)))
  · rw [if_neg hsyn]
    exact tcpSendReset_moves

theorem tcpSynrecState_moves (hs : c.s.state = .synrec) (hA : ∀ r, Enters c seg r → A.enter r) :
    Moves A c (tcpSynrecState e c seg seg.hdr.flags).1 := by
  unfold tcpSynrecState
  split_ifs with hsyn hack
  · refine Moves.timer (Moves.send ?_) _
    exact .next .plain rfl rfl
  · extract_lets c₀
    have hc₀ : Moves A c c₀ := tcpSetWindow_moves seg
    have hcore := tcpSetWindow_core e c.s seg
    have hs₀ : c₀.s.state = .synrec := (congrArg TcpSocket.state hcore :).trans hs
    have hr₀ : c₀.s.rx.recvNext = c.s.rx.recvNext :=
      (congrArg (fun s => s.rx.recvNext) hcore :)
    refine hc₀.trans (.next (.establish c₀.s.rx.recvNext (.inr ⟨hs₀, rfl⟩) ?_) rfl rfl)
    exact hr₀ ▸ hA _ (.inr (.inr (.inr ⟨hs, hsyn, hack.1, hack.2, rfl⟩)))
  · exact .refl

/-! ### ESTAB -/

theorem estabFin_moves (hs : c.s.state = .estab ∨ c.s.state = .estcl ∨ c.s.state = .closwt)
    (seqnum : Dword) (flags : TcpFlags) : Moves A c (estabFin e c seqnum flags).1 := by
  have hearly : ¬ c.s.state.early := by
    rcases hs with h | h | h <;> simp [TcpState.early, h]
  unfold estabFin
  split_ifs with hfin hm
  · have hrecv : Moves A c (tcpSend e (c.upd fun s => { s with
        rx := { s.rx with recvNext := s.rx.recvNext + 1 } })).1 :=
      Moves.send (.next (.receive _ hearly) rfl rfl)
    refine hrecv.trans (.next (.lastack ?_) rfl rfl)
    rwa [Conn.half, tcpSend_state]
  · refine Moves.send ?_
    exact .quiet rfl rfl
  · exact .refl

theorem estabSendNow_moves : Moves A c (estabSendNow e c) := by
  unfold estabSendNow
  dsimp only
  have hsend : Moves A c (tcpSend e (c.updRtt fun r => { r with karnCount := 0 })).1 :=
    Moves.send (.quiet rfl rfl)
  split_ifs
  · exact hsend.aside _ rfl
  · exact hsend

theorem estabReply_moves (flags : TcpFlags) (ldiff : Dword) (didTx : Bool) :
    Moves A c (estabReply e c seg flags ldiff didTx) := by
  unfold estabReply
  dsimp only
  split_ifs
  · exact estabSendNow_moves
  · exact estabSendNow_moves
  · exact Moves.sendsoon .refl
  · exact Moves.send (.quiet rfl rfl)
  · exact .refl

theorem tcpEstabState_moves (hs : c.s.state = .estab ∨ c.s.state = .estcl ∨ c.s.state = .closwt)
    (flags : TcpFlags) : Moves A c (tcpEstabState e c seg flags).1 := by
  have hearly : ¬ c.s.state.early := by
    rcases hs with h | h | h <;> simp [TcpState.early, h]
  have hdata : Moves A c (processData e (estabAck c seg.hdr.acknum) seg flags).1 :=
    (estabAck_moves _ hs).trans (processData_moves seg flags (by rwa [estabAck_state]))
  unfold tcpEstabState
  split_ifs with hsyn hack
  · exact Moves.send .refl
  · exact .refl
  dsimp only
  split_ifs
  · exact hdata.send
  · refine (hdata.trans (estabFin_moves ?_ _ _)).trans (estabReply_moves _ _ _)
    simpa [processData] using hs

theorem tcpEstclState_moves (hs : c.s.state = .estcl) (flags : TcpFlags) :
    Moves A c (tcpEstclState e c seg flags).1 := by
  refine Moves.trans (tcpEstabState_moves (.inr (.inl hs)) flags) (tcpClose_moves fun h => ?_)
  rcases @tcpEstabState_state e c seg flags with h' | h' <;> rw [h'] at h
  · rw [hs] at h; cases h
  · cases h

/-! ### The closing states -/

theorem finwt1Fin_moves (hs : c.s.state = .finwt1) (acknum : Dword) :
    Moves A c (finwt1Fin e c acknum) := by
  have hrecv : Moves A c (c.upd fun s => { s with
      rx := { s.rx with recvNext := s.rx.recvNext + 1 } }) :=
    .next (.receive _ (by simp [Conn.half, TcpState.early, hs])) rfl rfl
  unfold finwt1Fin
  refine Moves.send (hrecv.trans ?_)
  by_cases hge : seqGeq acknum (c.s.tx.sendNext + 1)
  · refine .next (.finAcked .timewt false (.inr ⟨.inl hs, rfl⟩)) ?_ rfl
    unfold Conn.half
    dsimp only [Conn.upd]
    rw [if_pos hge]
  · refine .next (.bothClosing hs) ?_ rfl
    unfold Conn.half
    dsimp only [Conn.upd]
    rw [if_neg hge]

theorem finwt1Acked_moves (hs : c.s.state = .finwt1) : Moves A c (finwt1Acked e c).1 := by
  unfold finwt1Acked
  split_ifs
  · exact unthread_moves true
  · exact .next (.finAcked .finwt2 c.s.flags.fin (.inl ⟨hs, rfl⟩)) rfl rfl

theorem finwt1Reset_moves (hs : c.s.state = .finwt1) : Moves A c (finwt1Reset e c) := by
  have hrecv : Moves A c (c.upd fun s => { s with
      rx := { s.rx with recvNext := s.rx.recvNext + 1 } }) :=
    .next (.receive _ (by simp [Conn.half, TcpState.early, hs])) rfl rfl
  refine hrecv.trans (unthread_of_send (c.half.sendNext + 1) ?_ ?_ true)
  · rfl
  · rfl

theorem tcpFinwt1State_moves (hs : c.s.state = .finwt1) (flags : TcpFlags) :
    Moves A c (tcpFinwt1State e c seg flags).1 := by
  have hdata : Moves A c (processData e (finwt1Ack c seg.hdr.acknum) seg flags).1 :=
    (finwt1Ack_moves _ hs).trans
      (processData_moves seg flags (by simp [TcpState.early, hs]))
  have hs' : (processData e (finwt1Ack c seg.hdr.acknum) seg flags).1.s.state = .finwt1 := by
    simpa [processData] using hs
  unfold tcpFinwt1State
  dsimp only
  split_ifs
  · exact hdata.trans (finwt1Fin_moves hs' _)
  · exact hdata
  · exact hdata.trans (finwt1Acked_moves hs')
  · exact hdata.trans (finwt1Reset_moves hs')
  · exact hdata
  · exact hdata

theorem tcpFinwt2State_moves (hs : c.s.state = .finwt2) (flags : TcpFlags) :
    Moves A c (tcpFinwt2State e c seg flags).1 := by
  have hearly : ¬ c.s.state.early := by simp [TcpState.early, hs]
  have hdata : Moves A c (processData e c seg flags).1 := processData_moves seg flags hearly
  have hs' : (processData e c seg flags).1.s.state = .finwt2 := by simpa [processData] using hs
  have hgot : ∀ {c'}, Moves A c c' → Moves A c (if (processData e c seg flags).2.2.fin then
      c'.upd fun s => { s with locflags := { s.locflags with gotFin := true } } else c') := by
    intro c' h
    split_ifs
    · exact h.aside _ rfl
    · exact h
  have hgs : (if (processData e c seg flags).2.2.fin then (processData e c seg flags).1.upd
      fun s => { s with locflags := { s.locflags with gotFin := true } }
      else (processData e c seg flags).1).s.state = .finwt2 := by
    split_ifs
    · exact hs'
    · exact hs'
  have hwt : ∀ {c'}, c'.s.state = .finwt2 → Moves A c c' → Moves A c (tcpSend e (c'.upd fun s =>
      { s with
        rx := { s.rx with recvNext := s.rx.recvNext + 1 }
        flags := { ack := true }
        unhappy := false
        state := .timewt
        timeout := setTimeout e tcpTimewtTo })).1 := by
    intro c' hc' h
    have hrecv : Moves A c (c'.upd fun s => { s with
        rx := { s.rx with recvNext := s.rx.recvNext + 1 } }) :=
      h.trans (.next (.receive _ (by simp [Conn.half, TcpState.early, hc'])) rfl rfl)
    exact Moves.send (hrecv.trans (.next (.peerDone hc') rfl rfl))
  unfold tcpFinwt2State
  dsimp only
  rw [apply_ite Prod.fst, apply_ite Prod.fst]
  refine Moves.ite hdata (Moves.ite ?_ (hgot hdata))
  exact hwt hgs (hgot hdata)

theorem tcpClosingState_moves (hs : c.s.state = .closing) (flags : TcpFlags) :
    Moves A c (tcpClosingState e c seg flags).1 := by
  unfold tcpClosingState
  split_ifs
  · exact .next (.finAcked .timewt c.s.flags.fin (.inr ⟨.inr hs, rfl⟩)) rfl rfl
  · exact .refl

theorem tcpLastackState_moves (hs : c.s.state = .lastack) (flags : TcpFlags) :
    Moves A c (tcpLastackState e c seg flags).1 := by
  unfold tcpLastackState
  split_ifs
  · refine Moves.unhappy (Moves.send ?_) _
    exact .next (.finAgain hs) rfl rfl
  · exact .next (.shut c.half.pending (.inl rfl)) rfl rfl
  · exact .refl

theorem tcpTimewtState_moves (flags : TcpFlags) :
    Moves A c (tcpTimewtState e c seg flags).1 := by
  unfold tcpTimewtState
  split_ifs
  · refine Moves.send ?_
    have hshut : Moves A c (c.upd fun s => { s with state := .closed }) :=
      .next (.shut c.half.pending (.inl rfl)) rfl rfl
    exact hshut.trans (.next .plain rfl rfl)
  · exact .refl

/-- **The state machine** moves. -/
theorem tcpFsm_moves (hA : ∀ r, Enters c seg r → A.enter r) : Moves A c (tcpFsm e c seg).1 := by
  unfold tcpFsm
  rcases hs : c.s.state <;> dsimp only
  case listen => exact tcpListenState_moves hs hA
  case synsent => exact tcpSynsentState_moves hs hA
  case synrec => exact tcpSynrecState_moves hs hA
  case estab => exact tcpEstabState_moves (.inl hs) _
  case estcl => exact tcpEstclState_moves hs _
  case finwt1 => exact tcpFinwt1State_moves hs _
  case finwt2 => exact tcpFinwt2State_moves hs _
  case closwt => exact tcpEstabState_moves (.inr (.inr hs)) _
  case closing => exact tcpClosingState_moves hs _
  case lastack => exact tcpLastackState_moves hs _
  case timewt => exact tcpTimewtState_moves _
  all_goals exact .refl

end States

/-! ## The machine -/

theorem restartIdle_half (s : TcpSocket) :
    Conn.half { c with s := restartIdle e s } = Conn.half { c with s := s } := by
  unfold restartIdle
  split_ifs <;> rfl

theorem demux_half {seg : InSegment} {c' : Conn} (h : demux e c seg = some c') :
    c'.half = c.half ∧ c'.calls = c.calls := by
  unfold demux at h
  split_ifs at h <;> cases h
  · exact ⟨restartIdle_half c.s, rfl⟩
  · exact ⟨restartIdle_half _, rfl⟩

theorem beforeFsm_moves (seg : InSegment) : Moves A c (beforeFsm e c seg) := .quiet rfl rfl

theorem fsmEntry_moves {seg : InSegment} {c₁ : Conn} (h : fsmEntry e c seg = some c₁) :
    Moves A c c₁ := by
  unfold fsmEntry at h
  rcases hd : demux e c seg with _ | c' <;> rw [hd] at h
  · cases h
  dsimp only at h
  split_ifs at h
  cases h
  exact (Moves.quiet (demux_half hd).1 (demux_half hd).2).trans (beforeFsm_moves seg)

/-- The segment resets the control block of a server. -/
def ResetsServer (e : Env) (c : Conn) (seg : InSegment) : Prop :=
  ∃ c', demux e c seg = some c' ∧ rstInWindow c'.s seg ∧ c.s.locflags.isServer

theorem demux_isServer {seg : InSegment} {c' : Conn} (h : demux e c seg = some c') :
    c'.s.locflags.isServer = c.s.locflags.isServer := by
  unfold demux restartIdle at h
  split_ifs at h <;> cases h
  · dsimp only [Conn.upd]
    split_ifs <;> rfl
  · dsimp only [Conn.upd]
    split_ifs <;> rfl

theorem tcpHandler_moves (seg : InSegment)
    (hA : ∀ c₁ r, fsmEntry e c seg = some c₁ → Enters c₁ seg r → A.enter r)
    (hreset : ResetsServer e c seg → A.restart c.s.sendUna) :
    Moves A c (tcpHandler e c seg) := by
  unfold tcpHandler
  unfold fsmEntry at hA
  rcases hd : demux e c seg with _ | c' <;> rw [hd] at hA
  · exact .refl
  have hquiet : Moves A c c' := .quiet (demux_half hd).1 (demux_half hd).2
  dsimp only at hA ⊢
  split_ifs with hr
  · refine hquiet.trans (tcpSockreset_moves fun hs => ?_)
    have huna : c'.s.sendUna = c.s.sendUna := congrArg Half.una (demux_half hd).1
    rw [huna]
    exact hreset ⟨c', hd, hr, demux_isServer hd ▸ hs⟩
  rw [if_neg hr] at hA
  have hfsm : Moves A c (tcpFsm e (beforeFsm e c' seg) seg).1 :=
    (hquiet.trans (beforeFsm_moves seg)).trans (tcpFsm_moves fun r => hA _ r rfl)
  exact Moves.ite hfsm.sendsoon hfsm

theorem readRx_recvNext (b : RxBuf) (len : Dword) : (readRx b len).recvNext = b.recvNext := by
  unfold readRx
  dsimp only
  split_ifs <;> rfl

theorem tcpRead_moves (maxlen : Dword) : Moves A c (tcpRead e c maxlen).1 := by
  have hread : ∀ len, Moves A c (c.upd fun s => { s with rx := readRx s.rx len }) := by
    intro len
    refine .quiet ?_ rfl
    unfold Conn.half
    dsimp only [Conn.upd]
    rw [readRx_recvNext]
  unfold tcpRead
  dsimp only
  generalize readLen c.s maxlen = len
  replace hread := hread len
  rw [apply_ite Prod.fst]
  refine Moves.ite (Moves.ite hread.sendsoon ?_) ?_
  · unfold tcpUpdWin
    exact Moves.ite hread.send hread
  · by_cases hs : c.s.state = .closwt
    · rw [if_pos hs]
      exact tcpClose_moves fun h => by rw [hs] at h; cases h
    · rw [if_neg hs]
      exact .refl

/-- The room of `tcp_write` when the data fit. -/
theorem writeRoom_toNat {s : TcpSocket} (h : s.tx.txDatalen.toNat < s.tx.maxTxData.toNat) :
    (writeRoom s).toNat = s.tx.maxTxData.toNat - s.tx.txDatalen.toNat - 1 := by
  have hsub : (s.tx.maxTxData - s.tx.txDatalen).toNat = s.tx.maxTxData.toNat - s.tx.txDatalen.toNat :=
    BitVec.toNat_sub_of_le (BitVec.le_def.mpr h.le)
  have hone : (1 : Dword) ≤ s.tx.maxTxData - s.tx.txDatalen := by
    rw [BitVec.le_def, hsub]
    exact Nat.sub_pos_of_lt h
  unfold writeRoom
  rw [BitVec.toNat_sub_of_le hone, hsub]
  rfl

/-- What `tcp_write` appends is pending behind the rest. -/
theorem appendTx_pending {data : List Byte} (hroom : data.length ≤ (writeRoom c.s).toNat)
    (hlt : c.half.pending.length < c.half.maxTx) :
    let s' := appendTx e c.s data
    Mem.slice s'.tx.txData 0 s'.tx.txDatalen.toNat = c.half.pending ++ data ∧
      s'.tx.txDatalen.toNat < c.half.maxTx := by
  have h32 : c.s.tx.maxTxData.toNat < 2 ^ 32 := c.s.tx.maxTxData.isLt
  have hlen : c.half.pending.length = c.s.tx.txDatalen.toNat := Mem.length_slice
  have hmax : c.half.maxTx = c.s.tx.maxTxData.toNat := rfl
  have hle : data.length + c.s.tx.txDatalen.toNat < c.s.tx.maxTxData.toNat := by
    have hsub := writeRoom_toNat (s := c.s) (by omega)
    omega
  have hnew : (c.s.tx.txDatalen + BitVec.ofNat 32 data.length).toNat =
      c.s.tx.txDatalen.toNat + data.length := by
    rw [BitVec.toNat_add, BitVec.toNat_ofNat, Nat.mod_eq_of_lt (a := data.length) (by omega),
      Nat.mod_eq_of_lt (by omega)]
  dsimp only [appendTx]
  rw [hnew]
  refine ⟨?_, by omega⟩
  rw [Mem.slice_add, Nat.zero_add, Mem.slice_put, Mem.slice_put_disjoint (.inl (by omega))]
  rfl

theorem writeTake_moves {data : List Byte} {room : Dword} (push : Bool)
    (hs : c.s.state = .estab) (hroom : data.length ≤ (writeRoom c.s).toNat) :
    Moves A c (writeTake e c data room push).1 := by
  have htake : Moves A c { c with s := appendTx e c.s data, accepted := c.accepted ++ data } := by
    refine .next (.write data _ hs fun hf => ?_) rfl rfl
    have := appendTx_pending (e := e) hroom hf.1
    refine ⟨this.1, ?_⟩
    rw [Mem.length_slice]
    exact this.2
  have hpush : ∀ {c'}, Moves A c c' →
      Moves A c (c'.upd fun s => { s with flags := { s.flags with push := s.flags.push || push } }) :=
    fun h => h.aside _ rfl
  unfold writeTake
  dsimp only
  rw [apply_ite Prod.fst]
  refine Moves.ite htake (hpush ?_)
  rw [apply_ite Prod.fst]
  exact Moves.ite htake.send htake.sendsoon

theorem tcpWrite_moves (data : List Byte) : Moves A c (tcpWrite e c data).1 := by
  unfold tcpWrite
  by_cases hs : c.s.state ≠ .estab
  · rw [if_pos hs]
    exact .refl
  rw [if_neg hs]
  have hestab : c.s.state = .estab := not_not.mp hs
  dsimp only
  split_ifs with hlt hroom hnil
  · exact .refl
  · have hpush : Moves A c (c.upd fun s => { s with flags := { s.flags with push := false } }) :=
      .quiet rfl rfl
    refine hpush.trans (writeTake_moves _ hestab ?_)
    rw [List.length_take]
    exact min_le_left _ _
  · exact .refl
  · exact writeTake_moves _ hestab (not_lt.mp hlt)

theorem sockFlush_moves : Moves A c (sockFlush e c) := by
  have hlocal : Moves A c (c.upd fun s => { s with localMode := false }) := .quiet rfl rfl
  have hpush : Moves A c ((c.upd fun s => { s with localMode := false }).upd fun s =>
      { s with flags := { s.flags with push := true } }) := hlocal.aside _ rfl
  unfold sockFlush
  dsimp only
  exact Moves.ite (Moves.ite (Moves.ite hpush.send hpush) hlocal) .refl

theorem sockFlushnext_moves : Moves A c (sockFlushnext c) := by
  unfold sockFlushnext
  exact Moves.ite (.quiet rfl rfl) .refl

theorem sockNoflush_moves : Moves A c (sockNoflush c) := by
  unfold sockNoflush
  exact Moves.ite (.quiet rfl rfl) .refl

theorem tickDead_moves : Moves A c (tickDead c) := by
  unfold tickDead
  exact Moves.ite ((unthread_moves true).aside _ rfl) .refl

theorem sockClose_moves (hA : c.s.state = .synrec → A.closeSynrec) :
    Moves A c (sockClose e c) := by
  unfold sockClose
  exact Moves.ite ((tcpClose_moves hA).trans tickDead_moves) .refl

theorem retransResolve_moves (hs : c.s.state = .resolve) : Moves A c (retransResolve e c) := by
  unfold retransResolve
  split_ifs
  · refine Moves.aside (Moves.send ?_) _ rfl
    exact .next (.resolved hs) rfl rfl
  · exact tcpAbort_moves
  · exact .refl

theorem retransPrepare_moves : Moves A c (c.upd retransPrepare) := by
  by_cases hk : c.s.rtt.karnCount = 0
  · refine .next .rewind ?_ rfl
    unfold retransPrepare Conn.half
    dsimp only [Conn.upd]
    split_ifs <;> simp_all
  · refine .quiet ?_ rfl
    unfold retransPrepare Conn.half
    dsimp only [Conn.upd]
    split_ifs <;> simp_all

theorem retransSend_moves : Moves A c (retransSend e c) := by
  have hupdate : Moves A c (c.upd fun s => { s with
      locflags := { s.locflags with winupdate := false }
      flags := { s.flags with ack := true } }) := .quiet rfl rfl
  unfold retransSend
  refine Moves.ite hupdate.send (Moves.ite (Moves.ite ?_ (Moves.ite ?_ .refl)) .refl)
  · exact Moves.send retransPrepare_moves
  · exact tcpAbort_moves.aside _ rfl

theorem tcpAbort_state : (tcpAbort e c).s.state = .closed := by
  unfold tcpAbort tcpUnthread unthread
  dsimp only
  split_ifs <;> rfl

theorem retransPrepare_frame (s : TcpSocket) :
    (retransPrepare s).state = s.state ∧ (retransPrepare s).inactiveTo = s.inactiveTo := by
  unfold retransPrepare
  dsimp only
  split_ifs <;> exact ⟨rfl, rfl⟩

/-- The retransmission part leaves the state and the idle timer alone, or aborts. -/
theorem retransSend_frame : ((retransSend e c).s.state = c.s.state ∧
    (retransSend e c).s.inactiveTo = c.s.inactiveTo) ∨ (retransSend e c).s.state = .closed := by
  have hsend : ∀ c' : Conn, (tcpSend e c').1.s.state = c'.s.state ∧
      (tcpSend e c').1.s.inactiveTo = c'.s.inactiveTo := fun c' =>
    ⟨tcpSend_state e c', (congrArg TcpSocket.inactiveTo (tcpSend_sent (c := c')).1.core :)⟩
  unfold retransSend
  split_ifs
  · exact .inl (hsend _)
  · have := retransPrepare_frame c.s
    exact .inl ⟨(hsend _).1.trans this.1, (hsend _).2.trans this.2⟩
  · exact .inr tcpAbort_state
  · exact .inl ⟨rfl, rfl⟩
  · exact .inl ⟨rfl, rfl⟩

theorem retransTimeouts_moves
    (hA : c.s.state = .synrec → chkTimeout e c.s.inactiveTo → A.closeSynrec) :
    Moves A c (retransTimeouts e c) := by
  unfold retransTimeouts
  split_ifs with hidle
  · have hquiet : Moves A c (c.upd fun s => { s with inactiveTo := 0 }) := .quiet rfl rfl
    exact hquiet.trans (tcpClose_moves fun h => hA h hidle)
  · exact .next (.shut c.half.pending (.inl rfl)) rfl rfl
  · exact tcpAbort_moves
  · exact .refl
  · exact .refl

theorem tcpRetransmitter_moves
    (hA : c.s.state = .synrec → chkTimeout e c.s.inactiveTo → A.closeSynrec) :
    Moves A c (tcpRetransmitter e c) := by
  unfold tcpRetransmitter
  split_ifs with ht hres hcl hrx
  · exact .refl
  · exact retransResolve_moves hres
  · exact unthread_moves true
  · exact .refl
  · refine retransSend_moves.trans (retransTimeouts_moves fun h hidle => ?_)
    rcases @retransSend_frame e c with hf | hf
    · exact hA (hf.1 ▸ h) (hf.2 ▸ hidle)
    · rw [hf] at h; cases h

/-- **Every step of the machine is a number of moves.** -/
theorem stepConn_moves (ev : Event)
    (hclose : c.s.state = .synrec → (ev.op = .close ∨
      ev.op = .retransmit ∧ chkTimeout ev.e c.s.inactiveTo) → A.closeSynrec)
    (henter : ∀ seg c₁ r, ev.op = .segment seg → fsmEntry ev.e c seg = some c₁ →
      Enters c₁ seg r → A.enter r)
    (hreset : ∀ seg, ev.op = .segment seg → ResetsServer ev.e c seg → A.restart c.s.sendUna) :
    Moves A c (stepConn c ev) := by
  unfold stepConn
  rcases hop : ev.op with seg | maxlen | data | _ | _ | _ | _ | _ | _ <;> dsimp only
  · exact tcpHandler_moves seg (fun c₁ r => henter seg c₁ r hop) (hreset seg hop)
  · exact tcpRead_moves maxlen
  · exact tcpWrite_moves data
  · exact sockFlush_moves
  · exact sockFlushnext_moves
  · exact sockNoflush_moves
  · exact sockClose_moves fun hs => hclose hs (.inl hop)
  · exact tcpAbort_moves
  · exact tcpRetransmitter_moves fun hs hidle => hclose hs (.inr ⟨hop, hidle⟩)

end Watt32.Tcp
