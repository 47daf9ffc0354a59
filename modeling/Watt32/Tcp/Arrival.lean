import Watt32.Tcp.Receive

/-!
# What a segment does to the receive buffer

* `Arrival`, `arrival`: `tcp_process_data` ignores a segment's data, appends them, or keeps them as
  the out-of-order block.
* `arrival_inOrder_iff`, `arrival_outOfOrder_iff`: these cases in plain numbers.
* `processRx`, **`tcpProcessData_rx`**: the effect of `tcp_process_data` on the receive buffer.
-/

namespace Watt32.Tcp

/-- What `tcp_process_data` does with a segment's data. -/
inductive Arrival
  | ignored | inOrder | outOfOrder
  deriving DecidableEq

/-- How far the segment starts before `recv_next`. -/
def RxBuf.ldiff (b : RxBuf) (seg : InSegment) : Dword := b.recvNext - seg.hdr.seqnum

/-- The length of the segment's data as an `int`. -/
def InSegment.len (seg : InSegment) : Dword := BitVec.ofNat 32 seg.dataLen

/-- The branch `tcp_process_data` takes. -/
def arrival (b : RxBuf) (seg : InSegment) (flags : TcpFlags) : Arrival :=
  if flags.syn ∨ flags.rst then .ignored
  else if seg.len = 0 then .ignored
  else if outsideWindow b seg.len (b.ldiff seg) then .ignored
  else if 0 ≤ (b.ldiff seg).toInt then .inOrder
  else .outOfOrder

/-- The receive buffer after `tcp_process_data`. -/
def processRx (h : Option ProtoHandler) (b : RxBuf) (seg : InSegment) (flags : TcpFlags) : RxBuf :=
  let b := { b with copies := [] }
  match arrival b seg flags with
  | .ignored => b
  | .inOrder => dataInOrder h b seg seg.hdr.dataOfs seg.len (b.ldiff seg)
  | .outOfOrder => dataOutOfOrder b seg seg.hdr.dataOfs seg.len (-b.ldiff seg)

/-! ## The header part -/

/-- The control block without what options change. -/
def TcpSocket.optCore (s : TcpSocket) : TcpSocket :=
  { s with
    locflags := { s.locflags with useTstamp := false, rcvdScale := false, sackPermit := false }
    tsRecent := 0
    tsEcho := 0
    maxSeg := 0
    rxWscale := 0 }

/-- The control block without what the header of a segment changes. -/
def TcpSocket.headCore (s : TcpSocket) : TcpSocket :=
  { s.optCore with
    stress := 0
    window := 0
    tx := { s.tx with txData := fun _ => 0, txLoc := .null, maxTxData := 0 } }

section Header

variable (e : Env) (s : TcpSocket) (seg : InSegment) (flags : TcpFlags)

theorem processOptions_core (d num opt : ℕ) :
    (processOptions seg d flags num opt s).optCore = s.optCore := by
  induction num generalizing opt s with
  | zero => rfl
  | succ num ih =>
    unfold processOptions
    dsimp only
    split_ifs
    · rfl
    all_goals split <;> first | rfl | exact ih _ _

theorem tcpProcessOptions_core (d : ℕ) : (tcpProcessOptions s seg d flags).optCore = s.optCore :=
  processOptions_core _ seg flags d 10 20

theorem tcpSetWindow_core : (tcpSetWindow e s seg.hdr).headCore = s.headCore := by
  unfold tcpSetWindow
  dsimp only
  split_ifs <;> (try cases e.heap) <;> rfl

theorem headCore_of_optCore {s s' : TcpSocket} (h : s.optCore = s'.optCore) :
    s.headCore = s'.headCore :=
  (congrArg (fun t : TcpSocket => { t with
    stress := 0
    window := 0
    tx := { t.tx with txData := fun _ => 0, txLoc := .null, maxTxData := 0 } }) h :)

/-- **The header of a segment** changes the peer's window, the transmit buffer's place and what
options say, nothing else. -/
theorem processHeader_core : (processHeader e s seg flags).headCore = s.headCore := by
  have h : (tcpSetWindow e (spendStress s) seg.hdr).headCore = s.headCore :=
    tcpSetWindow_core e (spendStress s) seg
  unfold processHeader
  dsimp only
  split_ifs
  · exact (headCore_of_optCore (tcpProcessOptions_core _ seg flags _)).trans h
  · exact h

@[simp] theorem processHeader_rx : (processHeader e s seg flags).rx = s.rx :=
  (congrArg TcpSocket.rx (processHeader_core e s seg flags) :)

@[simp] theorem processHeader_protoHandler :
    (processHeader e s seg flags).protoHandler = s.protoHandler :=
  (congrArg TcpSocket.protoHandler (processHeader_core e s seg flags) :)

/-- **The receive buffer after `tcp_process_data`.** -/
theorem tcpProcessData_rx :
    (tcpProcessData e s seg flags).1.rx = processRx s.protoHandler s.rx seg flags := by
  unfold tcpProcessData processRx arrival outsideWindow RxBuf.ldiff InSegment.len
  dsimp only
  rw [processHeader_rx, processHeader_protoHandler]
  split_ifs <;> rfl

/-- `tcp_process_data` returns -1 exactly for data kept out of order. -/
theorem tcpProcessData_result : (tcpProcessData e s seg flags).2 =
    if arrival s.rx seg flags = .outOfOrder then (-1, { flags with fin := false })
    else (0, flags) := by
  unfold tcpProcessData arrival outsideWindow RxBuf.ldiff InSegment.len
  dsimp only
  rw [processHeader_rx]
  split_ifs <;> first | rfl | contradiction

theorem tcpProcessData_core :
    { (tcpProcessData e s seg flags).1 with rx := s.rx, unhappy := s.unhappy : TcpSocket }.headCore =
      s.headCore := by
  have key := congrArg (fun t : TcpSocket => { t with rx := s.rx, unhappy := s.unhappy })
    (processHeader_core e s seg flags)
  unfold tcpProcessData
  dsimp only
  split_ifs <;> exact key

@[simp] theorem tcpProcessData_state : (tcpProcessData e s seg flags).1.state = s.state :=
  (congrArg TcpSocket.state (tcpProcessData_core e s seg flags) :)

@[simp] theorem tcpProcessData_protoHandler :
    (tcpProcessData e s seg flags).1.protoHandler = s.protoHandler :=
  (congrArg TcpSocket.protoHandler (tcpProcessData_core e s seg flags) :)

@[simp] theorem tcpProcessData_advWin : (tcpProcessData e s seg flags).1.advWin = s.advWin :=
  (congrArg TcpSocket.advWin (tcpProcessData_core e s seg flags) :)

@[simp] theorem tcpProcessData_sendUna : (tcpProcessData e s seg flags).1.sendUna = s.sendUna :=
  (congrArg TcpSocket.sendUna (tcpProcessData_core e s seg flags) :)

@[simp] theorem tcpProcessData_sendNext :
    (tcpProcessData e s seg flags).1.tx.sendNext = s.tx.sendNext :=
  (congrArg (fun t : TcpSocket => t.tx.sendNext) (tcpProcessData_core e s seg flags) :)

@[simp] theorem tcpProcessData_txDatalen :
    (tcpProcessData e s seg flags).1.tx.txDatalen = s.tx.txDatalen :=
  (congrArg (fun t : TcpSocket => t.tx.txDatalen) (tcpProcessData_core e s seg flags) :)

end Header

/-! ## The cases in numbers -/

section Cases

variable {b : RxBuf} {seg : InSegment} {flags : TcpFlags}

theorem InSegment.dataLen_lt (seg : InSegment) : seg.dataLen < 2 ^ 16 :=
  lt_of_le_of_lt (Nat.sub_le _ _) seg.tcpLen.isLt

@[simp] theorem InSegment.toNat_len (seg : InSegment) : seg.len.toNat = seg.dataLen := by
  have := seg.dataLen_lt
  rw [InSegment.len, BitVec.toNat_ofNat, Nat.mod_eq_of_lt (by omega)]

theorem InSegment.len_eq_zero : seg.len = 0 ↔ seg.dataLen = 0 := by
  rw [← BitVec.toNat_inj, InSegment.toNat_len]; rfl

/-- The segment carries data that `tcp_process_data` looks at. -/
def InSegment.Loaded (seg : InSegment) (flags : TcpFlags) : Prop :=
  flags.syn = false ∧ flags.rst = false ∧ 0 < seg.dataLen

theorem not_loaded : ¬ seg.Loaded flags ↔ (flags.syn ∨ flags.rst) ∨ seg.len = 0 := by
  rw [InSegment.Loaded, InSegment.len_eq_zero]
  cases flags.syn <;> cases flags.rst <;> simp

theorem outsideWindow_of_nonneg (h : (b.ldiff seg).toNat < 2 ^ 31) :
    outsideWindow b seg.len (b.ldiff seg) = false ↔
      (b.ldiff seg).toNat ≤ seg.dataLen ∧
      seg.dataLen - (b.ldiff seg).toNat ≤ (b.maxRxData - b.rxDatalen).toNat := by
  have hlen := seg.dataLen_lt
  have hl := seg.toNat_len
  rw [outsideWindow, decide_eq_false_iff_not, BitVec.toInt_eq_toNat_cond,
    BitVec.toInt_eq_toNat_cond, if_pos (by omega), if_pos (by omega), not_or, BitVec.lt_def]
  constructor <;> rintro ⟨h₁, h₂⟩
  · have hle : (b.ldiff seg) ≤ seg.len := by rw [BitVec.le_def]; omega
    rw [BitVec.toNat_sub_of_le hle] at h₁
    omega
  · have hle : (b.ldiff seg) ≤ seg.len := by rw [BitVec.le_def]; omega
    rw [BitVec.toNat_sub_of_le hle]
    omega

theorem toNat_neg_ldiff (h : 2 ^ 31 ≤ (b.ldiff seg).toNat) :
    (-b.ldiff seg).toNat = 2 ^ 32 - (b.ldiff seg).toNat := by
  have := (b.ldiff seg).isLt
  rw [BitVec.toNat_neg, Nat.mod_eq_of_lt (by omega)]

theorem outsideWindow_of_neg (h : 2 ^ 31 ≤ (b.ldiff seg).toNat) :
    outsideWindow b seg.len (b.ldiff seg) = false ↔
      (-b.ldiff seg).toNat + seg.dataLen ≤ (b.maxRxData - b.rxDatalen).toNat := by
  have hlen := seg.dataLen_lt
  have hl := seg.toNat_len
  have hlt := (b.ldiff seg).isLt
  have hsub : (seg.len - b.ldiff seg).toNat = 2 ^ 32 - ((b.ldiff seg).toNat - seg.dataLen) := by
    rw [BitVec.toNat_sub_of_lt (by rw [BitVec.lt_def]; omega), hl]
  rw [outsideWindow, decide_eq_false_iff_not, BitVec.toInt_eq_toNat_cond,
    BitVec.toInt_eq_toNat_cond, if_pos (by omega), if_neg (by omega), not_or, BitVec.lt_def,
    toNat_neg_ldiff h, hsub]
  omega

/-- Data that start at or before `recv_next`, end at or after it and fit. -/
theorem arrival_inOrder_iff : arrival b seg flags = .inOrder ↔
    seg.Loaded flags ∧ (b.ldiff seg).toNat < 2 ^ 31 ∧ (b.ldiff seg).toNat ≤ seg.dataLen ∧
      seg.dataLen - (b.ldiff seg).toNat ≤ (b.maxRxData - b.rxDatalen).toNat := by
  by_cases hload : seg.Loaded flags
  · have hn := not_loaded.not.mp (not_not.mpr hload)
    rw [not_or] at hn
    by_cases hl : (b.ldiff seg).toNat < 2 ^ 31
    · have hpos : 0 ≤ (b.ldiff seg).toInt := BitVec.toInt_pos_iff.mpr (by omega)
      rw [arrival, if_neg hn.1, if_neg hn.2, ← outsideWindow_of_nonneg hl]
      cases outsideWindow b seg.len (b.ldiff seg)
      · simpa [hpos, hload] using hl
      · simp
    · have hneg : ¬ 0 ≤ (b.ldiff seg).toInt := by rw [BitVec.toInt_pos_iff]; omega
      rw [arrival, if_neg hn.1, if_neg hn.2, if_neg hneg]
      simp only [hl, false_and, and_false, iff_false]
      split_ifs <;> simp
  · rcases not_loaded.mp hload with h | h
    · simp [arrival, h, hload]
    · simp only [arrival, h, hload, false_and, iff_false, if_true]
      split_ifs <;> simp

/-- Data that start behind `recv_next` and fit. -/
theorem arrival_outOfOrder_iff : arrival b seg flags = .outOfOrder ↔
    seg.Loaded flags ∧ 2 ^ 31 ≤ (b.ldiff seg).toNat ∧
      (-b.ldiff seg).toNat + seg.dataLen ≤ (b.maxRxData - b.rxDatalen).toNat := by
  by_cases hload : seg.Loaded flags
  · have hn := not_loaded.not.mp (not_not.mpr hload)
    rw [not_or] at hn
    by_cases hl : (b.ldiff seg).toNat < 2 ^ 31
    · have hpos : 0 ≤ (b.ldiff seg).toInt := BitVec.toInt_pos_iff.mpr (by omega)
      rw [arrival, if_neg hn.1, if_neg hn.2, if_pos hpos]
      simp only [not_le.mpr hl, false_and, and_false, iff_false]
      split_ifs <;> simp
    · have hneg : ¬ 0 ≤ (b.ldiff seg).toInt := by rw [BitVec.toInt_pos_iff]; omega
      rw [arrival, if_neg hn.1, if_neg hn.2, ← outsideWindow_of_neg (not_lt.mp hl)]
      cases outsideWindow b seg.len (b.ldiff seg)
      · simpa [hneg, hload] using not_lt.mp hl
      · simp
  · rcases not_loaded.mp hload with h | h
    · simp [arrival, h, hload]
    · simp only [arrival, h, hload, false_and, iff_false, if_true]
      split_ifs <;> simp

end Cases

end Watt32.Tcp
