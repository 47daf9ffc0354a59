import Watt32.Tcp.Bounds

/-!
# A new receive buffer

`sock_setbuf` of `pcbuf.c` puts `rx_data` and `max_rx_data` anew and leaves what is buffered as it
was. Of the memory it is given it keeps four bytes on either side for markers.

* `sockSetbuf`, `setbufMax`: the call.
* `Supplies`: data and markers lie in the memory supplied.
* `SetbufOk`: what is buffered fits the new limit, and the memory is not of 8 bytes, for which the
  limit is -1.
* **`setbuf_bounds_iff`**: a run of calls, segments and reads keeps the receive buffer bounded and
  inside its memory exactly if its calls are `SetbufOk` and its segments `SegOk`.
-/

namespace Watt32.Tcp

open Machine

/-! ## The call -/

/-- `SAFETY_TCP`, as it lies in memory. -/
def safetyTcp : List Byte := [0xa3, 0x25, 0x8f, 0x53]

/-- `sizeof (s->tcp.rx_buf)`. -/
def sizeofRxBuf : Dword := tcpMaxBufSize + 1

/-- `min (rx_len, USHRT_MAX-1) - 8`. -/
def setbufLen (rxLen : Dword) : Dword := (if rxLen < 65534 then rxLen else 65534) - 8

/-- The memory of the caller is used. -/
def setbufTakes (rxBuf : Bool) (rxLen : Dword) : Bool := 8 ≤ rxLen && rxBuf

/-- The `max_rx_data` that `sock_setbuf` sets and returns. -/
def setbufMax (rxBuf : Bool) (rxLen : Dword) : Dword :=
  if setbufTakes rxBuf rxLen then setbufLen rxLen - 1 else sizeofRxBuf - 1

/-- `sock_setbuf`. `mem` is what the memory holds from where `rx_data` is to point; the marker in
front of it does not show. -/
def sockSetbuf (c : Conn) (rxBuf : Bool) (rxLen : Dword) (mem : ℕ → Byte) : Conn × Dword :=
  (c.upd fun s => { s with rx := { s.rx with
    rxData := if setbufTakes rxBuf rxLen then Mem.put mem (setbufLen rxLen).toNat safetyTcp else mem
    maxRxData := setbufMax rxBuf rxLen } }, setbufMax rxBuf rxLen)

/-! ## Runs -/

/-- A segment, a read, or a call of `sock_setbuf`. -/
inductive BufOp
  | rx (op : RxOp)
  | setbuf (rxBuf : Bool) (rxLen : Dword) (mem : ℕ → Byte)

/-- A control block, and the length of the memory its caller supplied if `rx_data` points there. -/
structure Buffered where
  c : Conn
  supplied : Option ℕ

/-- One step. -/
def stepBuf (b : Buffered) : BufOp → Buffered
  | .rx op => { b with c := stepRx b.c op }
  | .setbuf rxBuf rxLen mem =>
    { c := (sockSetbuf b.c rxBuf rxLen mem).1
      supplied := if setbufTakes rxBuf rxLen then some rxLen.toNat else none }

/-- A marker, `max` bytes of data and one more, and a marker lie in the memory; without markers in
`rx_buf[]`. -/
def Supplies : (supplied : Option ℕ) → (max : ℕ) → Prop
  | some n, max => 4 + (max + 1) + 4 ≤ n
  | none, max => max + 1 ≤ sizeofRxBuf.toNat

instance : ∀ (supplied : Option ℕ) (max : ℕ), Decidable (Supplies supplied max)
  | some n, max => inferInstanceAs (Decidable (4 + (max + 1) + 4 ≤ n))
  | none, max => inferInstanceAs (Decidable (max + 1 ≤ sizeofRxBuf.toNat))

/-- The receive buffer is bounded and lies in its memory. -/
structure Buffered.Safe (b : Buffered) : Prop where
  bounded : b.c.s.rx.Bounded
  holds : Supplies b.supplied b.c.s.rx.maxRxData.toNat

/-- What a step has to ensure: a safe buffer, and of a segment also its copies. -/
def BufStepLaw (b : Buffered) (op : BufOp) : Prop :=
  (stepBuf b op).Safe ∧ ∀ rx, op = .rx rx → RxStepLaw b.c rx

/-- What is buffered fits the limit. -/
def RxBuf.Fits (b : RxBuf) (max : Dword) : Prop :=
  b.rxDatalen.toNat ≤ max.toNat ∧ (b.missedSeq0 ≠ b.missedSeq1 → b.rxDatalen.toNat + b.right ≤ max.toNat)

instance (b : RxBuf) (max : Dword) : Decidable (b.Fits max) := inferInstanceAs (Decidable (_ ∧ (_ → _)))

/-- A call of `sock_setbuf` with room for what is buffered, and not with 8 bytes. -/
def SetbufOk (b : RxBuf) (rxBuf : Bool) (rxLen : Dword) : Prop :=
  ¬ (rxBuf = true ∧ rxLen = 8) ∧ b.Fits (setbufMax rxBuf rxLen)

instance (b : RxBuf) (rxBuf : Bool) (rxLen : Dword) : Decidable (SetbufOk b rxBuf rxLen) :=
  inferInstanceAs (Decidable (_ ∧ _))

/-- What a step needs. -/
def BufOpOk (b : Buffered) : BufOp → Prop
  | .rx op => SegOk b.c op
  | .setbuf rxBuf rxLen _ => SetbufOk b.c.s.rx rxBuf rxLen

instance : ∀ (b : Buffered) (op : BufOp), Decidable (BufOpOk b op)
  | b, .rx op => inferInstanceAs (Decidable (SegOk b.c op))
  | b, .setbuf rxBuf rxLen _ => inferInstanceAs (Decidable (SetbufOk b.c.s.rx rxBuf rxLen))

/-! ## The limit -/

section Limit

variable {rxBuf : Bool} {rxLen : Dword}

/-- From 9 bytes on, the limit leaves 9 of them. -/
theorem toNat_setbufMax (h : setbufTakes rxBuf rxLen = true) (h8 : rxLen ≠ 8) :
    (setbufMax rxBuf rxLen).toNat = min rxLen.toNat 65534 - 9 ∧ 9 ≤ rxLen.toNat := by
  have hle : (8 : Dword) ≤ rxLen := by
    simp only [setbufTakes, Bool.and_eq_true, decide_eq_true_eq] at h
    exact h.1
  have h9 : 9 ≤ rxLen.toNat := by
    have : rxLen.toNat ≠ 8 := fun h => h8 (BitVec.eq_of_toNat_eq h)
    have := BitVec.le_def.mp hle
    change 8 ≤ rxLen.toNat at this
    omega
  refine ⟨?_, h9⟩
  rw [setbufMax, if_pos h, setbufLen]
  split_ifs with hlt
  · have := BitVec.lt_def.mp hlt
    change rxLen.toNat < 65534 at this
    rw [min_eq_left this.le]
    bv_omega
  · have : 65534 ≤ rxLen.toNat := BitVec.le_def.mp (BitVec.not_lt.mp hlt)
    rw [min_eq_right this]
    rfl

/-- The memory holds the limit, except for 8 bytes. -/
theorem holds_setbufMax (h8 : ¬ (rxBuf = true ∧ rxLen = 8)) :
    Supplies (if setbufTakes rxBuf rxLen then some rxLen.toNat else none) (setbufMax rxBuf rxLen).toNat ∧
      (setbufMax rxBuf rxLen).toNat < 2 ^ 31 := by
  by_cases h : setbufTakes rxBuf rxLen = true
  · have hbuf : rxBuf = true := by
      simp only [setbufTakes, Bool.and_eq_true] at h
      exact h.2
    obtain ⟨hmax, h9⟩ := toNat_setbufMax h fun he => h8 ⟨hbuf, he⟩
    rw [if_pos h, hmax]
    refine ⟨?_, by omega⟩
    show 4 + (_ + 1) + 4 ≤ rxLen.toNat
    omega
  · rw [if_neg h, setbufMax, if_neg h]
    exact ⟨by decide, by decide⟩

/-- For 8 bytes the limit is -1. -/
theorem setbufMax_eight : setbufMax true 8 = -1 := by decide

end Limit

/-! ## One step -/

section Steps

variable {b : Buffered} {op : BufOp}

theorem dataInOrder_maxRxData (h : Option ProtoHandler) (b : RxBuf) (seg : InSegment) (data : ℕ) (len diff : Dword) :
    (dataInOrder h b seg data len diff).maxRxData = b.maxRxData := by
  cases h with
  | some f => rfl
  | none =>
    unfold dataInOrder catchUp
    dsimp only
    split_ifs <;> rfl

theorem dataOutOfOrder_maxRxData (b : RxBuf) (seg : InSegment) (data : ℕ) (len diff : Dword) :
    (dataOutOfOrder b seg data len diff).maxRxData = b.maxRxData := by
  unfold dataOutOfOrder
  dsimp only
  split_ifs <;> rfl

/-- Segments and reads leave the limit alone. -/
theorem stepRx_maxRxData (c : Conn) (op : RxOp) : (stepRx c op).s.rx.maxRxData = c.s.rx.maxRxData := by
  cases op with
  | segment e seg flags =>
    show (tcpProcessData e c.s seg flags).1.rx.maxRxData = _
    rw [tcpProcessData_rx]
    unfold processRx
    dsimp only
    split
    · rfl
    · exact dataInOrder_maxRxData ..
    · exact dataOutOfOrder_maxRxData ..
  | read e maxlen =>
    show (tcpRead e c maxlen).1.s.rx.maxRxData = _
    rw [tcpRead_rx]
    unfold readRx
    dsimp only
    split_ifs <;> rfl

/-- **A call of `sock_setbuf`**: the buffer is safe afterwards exactly if the call is `SetbufOk`. -/
theorem setbuf_safe_iff (hb : b.c.s.rx.Bounded) (rxBuf : Bool) (rxLen : Dword) (mem : ℕ → Byte) :
    (stepBuf b (.setbuf rxBuf rxLen mem)).Safe ↔ SetbufOk b.c.s.rx rxBuf rxLen := by
  by_cases h8 : rxBuf = true ∧ rxLen = 8
  · refine iff_of_false (fun h => ?_) fun h => h.1 h8
    obtain ⟨rfl, rfl⟩ := h8
    have hmax : (setbufMax true 8).toNat < 2 ^ 31 := h.bounded.max
    rw [setbufMax_eight] at hmax
    exact absurd hmax (by decide)
  · obtain ⟨hholds, hmax⟩ := holds_setbufMax h8
    have hroom (h : b.c.s.rx.rxDatalen.toNat ≤ (setbufMax rxBuf rxLen).toNat) :
        (setbufMax rxBuf rxLen - b.c.s.rx.rxDatalen).toNat =
          (setbufMax rxBuf rxLen).toNat - b.c.s.rx.rxDatalen.toNat :=
      BitVec.toNat_sub_of_le (BitVec.le_def.mpr h)
    refine ⟨fun h => ⟨h8, h.bounded.len, fun hne => ?_⟩, fun h => ⟨⟨hmax, h.2.1, fun hne => ?_⟩, hholds⟩⟩
    · have hright := (h.bounded.block hne).2
      change b.c.s.rx.right ≤ (setbufMax rxBuf rxLen - b.c.s.rx.rxDatalen).toNat at hright
      have hlen : b.c.s.rx.rxDatalen.toNat ≤ (setbufMax rxBuf rxLen).toNat := h.bounded.len
      rw [hroom hlen] at hright
      omega
    · refine ⟨(hb.block hne).1, ?_⟩
      show b.c.s.rx.right ≤ (setbufMax rxBuf rxLen - b.c.s.rx.rxDatalen).toNat
      rw [hroom h.2.1]
      have := h.2.2 hne
      omega

/-- One step from a safe buffer. -/
theorem bufStepLaw_iff (h : b.Safe) : BufStepLaw b op ↔ BufOpOk b op := by
  cases op with
  | rx op =>
    refine ⟨fun hl => (rxStepLaw_iff h.bounded).mp (hl.2 op rfl), fun hok => ?_⟩
    refine ⟨⟨stepRx_bounded h.bounded hok, ?_⟩, fun rx heq => ?_⟩
    · show Supplies b.supplied (stepRx b.c op).s.rx.maxRxData.toNat
      rw [stepRx_maxRxData]
      exact h.holds
    · obtain rfl := BufOp.rx.inj heq
      exact (rxStepLaw_iff h.bounded).mpr hok
  | setbuf rxBuf rxLen mem =>
    rw [BufStepLaw, setbuf_safe_iff h.bounded]
    exact and_iff_left fun rx heq => BufOp.noConfusion heq

end Steps

/-- **Buffer resize safety**: from a safe buffer, a run of `sock_setbuf` calls, segments and reads
keeps it safe, with all copies inside, exactly if every step is `BufOpOk`. -/
theorem setbuf_bounds_iff (b : Buffered) (ops : List BufOp) (hb : b.Safe) :
    Always stepBuf BufStepLaw b ops ↔ Always stepBuf BufOpOk b ops :=
  always_iff_of_invariant (fun _ _ h hok => ((bufStepLaw_iff h).mpr hok).1) (fun _ _ => bufStepLaw_iff) ops hb

/-! ## A small buffer -/

section Small

/-- The established connection with its own `rx_buf[]`. -/
def ownBuffer : Buffered := ⟨establishedConn [], none⟩

theorem safe_ownBuffer : ownBuffer.Safe := ⟨by decide, by decide⟩

/-- Ten bytes arrive, then a buffer with room for seven is set. -/
theorem setbuf_below_data : ¬ ∀ (b : Buffered) (ops : List BufOp), b.Safe → Always stepBuf BufStepLaw b ops := by
  intro h
  have hrun := h ownBuffer [.rx (.segment {} (peerSegment { ack := true } 1000 1 10) { ack := true }),
    .setbuf true 16 fun _ => 0] safe_ownBuffer
  exact absurd hrun.2.1.1.bounded (by decide +kernel)

/-- A buffer of 64 bytes before the data. -/
theorem setbuf_bounds_early :
    Always stepBuf BufStepLaw ownBuffer [.setbuf true 64 fun _ => 0,
      .rx (.segment {} (peerSegment { ack := true } 1000 1 10) { ack := true })] ↔
    Always stepBuf BufOpOk ownBuffer [.setbuf true 64 fun _ => 0,
      .rx (.segment {} (peerSegment { ack := true } 1000 1 10) { ack := true })] :=
  setbuf_bounds_iff ownBuffer _ ⟨by decide, by decide⟩

end Small

end Watt32.Tcp
