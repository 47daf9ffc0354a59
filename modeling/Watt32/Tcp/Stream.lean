import Watt32.Tcp.Bounds

/-!
# Receive-stream integrity

* `RxBuf.Streams S q b`: the receive buffer holds the stream `S` from offset `q` on, the
  out-of-order block included.
* `processRx_streams`, `readRx_streams`: segments and reads keep that.
* `Reading`, `stepReading`: a control block and the bytes `tcp_read` has handed out so far.
* **`stream_integrity`**: after every run whose segments carry the bytes of `S` and are `SegOk`, the
  bytes read and the buffer are a prefix of `S`.
-/

namespace Watt32.Tcp

open Machine Mem

/-- The in-order data and the block of `b` are the bytes of `S` from offset `q` on. -/
structure RxBuf.Streams (S : List Byte) (q : ℕ) (b : RxBuf) : Prop where
  data : Holds b.rxData 0 S q b.rxDatalen.toNat
  block : b.missedSeq0 ≠ b.missedSeq1 → Holds b.rxData (b.rxDatalen.toNat + b.left) S
    (q + b.rxDatalen.toNat + b.left) (b.right - b.left)

section Steps

variable {S : List Byte} {q : ℕ} {b : RxBuf} {seg : InSegment} {data : ℕ} {len diff : Dword}

/-- In-order bytes go behind the data and before the block. -/
theorem copyInOrder_streams (hb : b.Bounded) (hs : b.Streams S q) (hlen : len.toNat ≤ b.room)
    (hleft : b.missedSeq0 ≠ b.missedSeq1 → len.toNat ≤ b.left)
    (h : Holds seg.mem data S (q + b.rxDatalen.toNat) len.toNat) :
    (copyInOrder b seg data len).Streams S q := by
  have hroom := hb.room_eq
  have hmax := hb.max
  have hle := hb.len
  have hn : (copyInOrder b seg data len).rxDatalen.toNat = b.rxDatalen.toNat + len.toNat :=
    BitVec.toNat_add_of_lt (by omega)
  refine ⟨?_, fun hne => ?_⟩
  · rw [hn]
    refine (hs.data.blit_disjoint (.inl (by omega))).append ?_
    rw [Nat.zero_add]
    exact h.blit_self
  · obtain ⟨h₁, h₂⟩ := hb.block hne
    have h₃ := hleft hne
    have hl : (copyInOrder b seg data len).left = b.left - len.toNat := by
      unfold RxBuf.left copyInOrder at *
      dsimp only
      bv_omega
    have hr : (copyInOrder b seg data len).right = b.right - len.toNat := by
      unfold RxBuf.left RxBuf.right copyInOrder at *
      dsimp only
      bv_omega
    rw [hn, hl, hr, show b.rxDatalen.toNat + len.toNat + (b.left - len.toNat) =
      b.rxDatalen.toNat + b.left by omega, show q + (b.rxDatalen.toNat + len.toNat) +
      (b.left - len.toNat) = q + b.rxDatalen.toNat + b.left by omega,
      show b.right - len.toNat - (b.left - len.toNat) = b.right - b.left by omega]
    exact (hs.block hne).blit_disjoint (.inr (by omega))

/-- In-order bytes join the block. -/
theorem catchUp_streams (hb : b.Bounded) (hne : b.missedSeq0 ≠ b.missedSeq1) (hs : b.Streams S q)
    (hlen : len.toNat ≤ b.room) (hleft : b.left ≤ len.toNat)
    (h : Holds seg.mem data S (q + b.rxDatalen.toNat) len.toNat) :
    (catchUp b seg data len).Streams S q := by
  obtain ⟨h₀, h₁, -⟩ := @catchUp_frame b seg data len
  obtain ⟨hlr, hr⟩ := hb.block hne
  refine ⟨?_, fun hne' => absurd (h₀.trans h₁.symm) hne'⟩
  have hjoin : Holds (blit b.rxData b.rxDatalen.toNat seg.mem data b.left) 0 S q
      (b.rxDatalen.toNat + b.right) := by
    rw [show b.rxDatalen.toNat + b.right =
      b.rxDatalen.toNat + b.left + (b.right - b.left) by omega]
    refine ((hs.data.blit_disjoint (.inl (by omega))).append ?_).append ?_
    · rw [Nat.zero_add]
      exact (h.mono hleft).blit_self
    · rw [Nat.zero_add, ← Nat.add_assoc]
      exact (hs.block hne).blit_disjoint (.inr (by omega))
  rw [catchUp_rxDatalen hb hne hlen, catchUp_rxData hb hne]
  split_ifs with hgt
  · rw [max_eq_right hgt.le, show b.rxDatalen.toNat + len.toNat =
      b.rxDatalen.toNat + b.right + (len.toNat - b.right) by omega]
    refine (hjoin.blit_disjoint (.inl (by omega))).append ?_
    rw [Nat.zero_add, ← Nat.add_assoc]
    exact (h.sub (by omega)).blit_self
  · rw [max_eq_left (not_lt.mp hgt)]
    exact hjoin

/-- **In-order data** of the stream go where they belong when the ends compare the right way. -/
theorem dataInOrder_streams (hb : b.Bounded) (hs : b.Streams S q)
    (hl : (b.ldiff seg).toNat ≤ seg.dataLen)
    (hroom : seg.dataLen - (b.ldiff seg).toNat ≤ b.room) (hok : InOrderOk none b seg)
    (h : Holds seg.mem (seg.hdr.dataOfs + (b.ldiff seg).toNat) S (q + b.rxDatalen.toNat)
      (seg.dataLen - (b.ldiff seg).toNat)) :
    (dataInOrder none b seg seg.hdr.dataOfs seg.len (b.ldiff seg)).Streams S q := by
  rw [← toNat_inOrder_len hl] at h hroom
  unfold dataInOrder
  dsimp only
  unfold InOrderOk at hok
  dsimp only at hok
  generalize seg.len - b.ldiff seg = len at *
  split_ifs with hc
  · refine copyInOrder_streams hb hs hroom (fun hne => ?_) h
    have hlt := hc.resolve_left hne
    exact ((Serial.add_lt_iff_of_side (hok hne)).mp (BitVec.lt_def.mp hlt)).le
  · rw [not_or] at hc
    have hnlt := (Serial.add_lt_iff_of_side (hok hc.1)).not.mp (BitVec.lt_def.not.mp hc.2)
    exact catchUp_streams hb hc.1 hs hroom (not_lt.mp hnlt) h

/-- Bytes in front of the block. -/
theorem prependOutOfOrder_streams (hb : b.Bounded) (hne : b.missedSeq0 ≠ b.missedSeq1)
    (hs : b.Streams S q) (hlen : len.toNat ≤ b.left)
    (h : Holds seg.mem data S (q + b.rxDatalen.toNat + (b.left - len.toNat)) len.toNat) :
    (prependOutOfOrder b seg data len).Streams S q := by
  obtain ⟨h₁, h₂⟩ := hb.block hne
  have hroom := hb.room_eq
  have hstart : (b.missedSeq0 - b.recvNext + b.rxDatalen - len).toNat =
      b.rxDatalen.toNat + (b.left - len.toNat) := by
    have := hb.max
    have := hb.len
    unfold RxBuf.left RxBuf.right RxBuf.room at *
    bv_omega
  refine ⟨?_, fun _ => ?_⟩
  · show Holds (blit b.rxData _ seg.mem data len.toNat) 0 S q b.rxDatalen.toNat
    rw [hstart]
    exact hs.data.blit_disjoint (.inl (by omega))
  · rw [prependOutOfOrder_left hlen]
    show Holds (blit b.rxData _ seg.mem data len.toNat) (b.rxDatalen.toNat + _) S
      (q + b.rxDatalen.toNat + _) (b.right - _)
    rw [hstart, show b.right - (b.left - len.toNat) = len.toNat + (b.right - b.left) by omega]
    refine h.blit_self.append ?_
    rw [show b.rxDatalen.toNat + (b.left - len.toNat) + len.toNat = b.rxDatalen.toNat + b.left by
      omega, show q + b.rxDatalen.toNat + (b.left - len.toNat) + len.toNat =
      q + b.rxDatalen.toNat + b.left by omega]
    exact (hs.block hne).blit_disjoint (.inr (by omega))

/-- Bytes behind the block. -/
theorem appendOutOfOrder_streams (hm : b.maxRxData.toNat < 2 ^ 31)
    (hl : b.rxDatalen.toNat ≤ b.maxRxData.toNat) (hlr : b.left ≤ b.right)
    (hroom : b.right + len.toNat ≤ b.room) (hdata : Holds b.rxData 0 S q b.rxDatalen.toNat)
    (hblock : Holds b.rxData (b.rxDatalen.toNat + b.left) S (q + b.rxDatalen.toNat + b.left)
      (b.right - b.left))
    (h : Holds seg.mem data S (q + b.rxDatalen.toNat + b.right) len.toNat) :
    (appendOutOfOrder b seg data len).Streams S q := by
  have hroom' : b.room = b.maxRxData.toNat - b.rxDatalen.toNat :=
    BitVec.toNat_sub_of_le (BitVec.le_def.mpr hl)
  have hstart : (b.missedSeq1 - b.recvNext + b.rxDatalen).toNat =
      b.rxDatalen.toNat + b.right := by
    unfold RxBuf.right RxBuf.room at *
    bv_omega
  refine ⟨?_, fun _ => ?_⟩
  · show Holds (blit b.rxData _ seg.mem data len.toNat) 0 S q b.rxDatalen.toNat
    rw [hstart]
    exact hdata.blit_disjoint (.inl (by omega))
  · rw [appendOutOfOrder_right (by omega)]
    show Holds (blit b.rxData _ seg.mem data len.toNat) (b.rxDatalen.toNat + b.left) S
      (q + b.rxDatalen.toNat + b.left) (b.right + len.toNat - b.left)
    rw [hstart, show b.right + len.toNat - b.left = b.right - b.left + len.toNat by omega]
    refine (hblock.blit_disjoint (.inl (by omega))).append ?_
    rw [show b.rxDatalen.toNat + b.left + (b.right - b.left) = b.rxDatalen.toNat + b.right by
      omega, show q + b.rxDatalen.toNat + b.left + (b.right - b.left) =
      q + b.rxDatalen.toNat + b.right by omega]
    exact h.blit_self

theorem extendEnd_streams {diff : Dword} (hb : b.Bounded) (hne : b.missedSeq0 ≠ b.missedSeq1)
    (hs : b.Streams S q) (hroom : diff.toNat + seg.dataLen ≤ b.room)
    (h : Holds seg.mem seg.hdr.dataOfs S (q + b.rxDatalen.toNat + diff.toNat) seg.dataLen) :
    (if diff ≤ b.missedSeq1 - b.recvNext ∧ b.missedSeq1 - b.recvNext < diff + seg.len then
      appendOutOfOrder b seg (seg.hdr.dataOfs + b.right - diff.toNat)
        (diff + seg.len - (b.missedSeq1 - b.recvNext)) else b).Streams S q := by
  split_ifs with hc
  · have hlt := hb.room_lt
    have hlen := seg.toNat_len
    have hsum : (diff + seg.len).toNat = diff.toNat + seg.dataLen := by
      rw [BitVec.toNat_add_of_lt (by omega), hlen]
    have h₁ : diff.toNat ≤ b.right := BitVec.le_def.mp hc.1
    have h₂ : b.right < diff.toNat + seg.dataLen := hsum ▸ BitVec.lt_def.mp hc.2
    have hn : (diff + seg.len - (b.missedSeq1 - b.recvNext)).toNat =
        diff.toNat + seg.dataLen - b.right := by
      rw [BitVec.toNat_sub_of_le (BitVec.le_of_lt hc.2), hsum]; rfl
    refine appendOutOfOrder_streams hb.max hb.len (hb.block hne).1 (by omega) hs.data
      (hs.block hne) ?_
    rw [hn, show seg.hdr.dataOfs + b.right - diff.toNat =
      seg.hdr.dataOfs + (b.right - diff.toNat) by omega, show q + b.rxDatalen.toNat + b.right =
      q + b.rxDatalen.toNat + diff.toNat + (b.right - diff.toNat) by omega]
    exact h.sub (by omega)
  · exact hs

/-- **Out-of-order data** of the stream go into the block where they belong. -/
theorem dataOutOfOrder_streams (hb : b.Bounded) (hs : b.Streams S q) (hd : 0 < seg.dataLen)
    (hroom : (-b.ldiff seg).toNat + seg.dataLen ≤ b.room)
    (h : Holds seg.mem seg.hdr.dataOfs S (q + b.rxDatalen.toNat + (-b.ldiff seg).toNat)
      seg.dataLen) :
    (dataOutOfOrder b seg seg.hdr.dataOfs seg.len (-b.ldiff seg)).Streams S q := by
  have hdiff : -b.ldiff seg = seg.hdr.seqnum - b.recvNext := by
    unfold RxBuf.ldiff; bv_omega
  have hlt := hb.room_lt
  rw [hdiff] at hroom h ⊢
  unfold dataOutOfOrder
  split_ifs with h₁ h₂
  · refine appendOutOfOrder_streams
      (b := { b with missedSeq0 := seg.hdr.seqnum, missedSeq1 := seg.hdr.seqnum })
      hb.max hb.len le_rfl (by rw [seg.toNat_len]; exact hroom) hs.data ?_ ?_
    · intro i hi
      simp [RxBuf.left, RxBuf.right] at hi
    · rw [seg.toNat_len]
      exact h
  · have hright : b.right = (seg.hdr.seqnum - b.recvNext).toNat := by rw [h₂]; rfl
    refine appendOutOfOrder_streams hb.max hb.len (hb.block h₁).1
      (by rw [seg.toNat_len, hright]; exact hroom) hs.data (hs.block h₁) ?_
    rw [seg.toNat_len, hright]
    exact h
  · obtain ⟨hlr, hr⟩ := hb.block h₁
    dsimp only
    by_cases h₃ : seg.hdr.seqnum - b.recvNext < b.missedSeq0 - b.recvNext ∧
        b.missedSeq0 - b.recvNext ≤ seg.hdr.seqnum - b.recvNext + seg.len
    · rw [if_pos h₃]
      have hsum : (seg.hdr.seqnum - b.recvNext + seg.len).toNat =
          (seg.hdr.seqnum - b.recvNext).toNat + seg.dataLen := by
        rw [BitVec.toNat_add_of_lt (by rw [seg.toNat_len]; omega), seg.toNat_len]
      have hlow : (seg.hdr.seqnum - b.recvNext).toNat < b.left := BitVec.lt_def.mp h₃.1
      have hle : b.left ≤ (seg.hdr.seqnum - b.recvNext).toNat + seg.dataLen :=
        hsum ▸ BitVec.le_def.mp h₃.2
      have hn : (b.missedSeq0 - b.recvNext - (seg.hdr.seqnum - b.recvNext)).toNat =
          b.left - (seg.hdr.seqnum - b.recvNext).toNat :=
        BitVec.toNat_sub_of_le (BitVec.le_of_lt h₃.1)
      have hpre : (prependOutOfOrder b seg seg.hdr.dataOfs
          (b.missedSeq0 - b.recvNext - (seg.hdr.seqnum - b.recvNext))).Streams S q := by
        refine prependOutOfOrder_streams hb h₁ hs (by omega) ?_
        rw [hn, show b.left - (b.left - (seg.hdr.seqnum - b.recvNext).toNat) =
          (seg.hdr.seqnum - b.recvNext).toNat by omega]
        exact h.mono (by omega)
      have hleft := @prependOutOfOrder_left b seg seg.hdr.dataOfs
        (b.missedSeq0 - b.recvNext - (seg.hdr.seqnum - b.recvNext)) (by omega)
      have hb' : (prependOutOfOrder b seg seg.hdr.dataOfs
          (b.missedSeq0 - b.recvNext - (seg.hdr.seqnum - b.recvNext))).Bounded :=
        ⟨hb.max, hb.len, fun _ => ⟨hleft ▸ (Nat.sub_le _ _).trans hlr, hr⟩⟩
      refine extendEnd_streams hb' (fun heq => ?_) hpre hroom h
      -- the block still ends behind its start
      have hr' : (prependOutOfOrder b seg seg.hdr.dataOfs
        (b.missedSeq0 - b.recvNext - (seg.hdr.seqnum - b.recvNext))).right = b.right := rfl
      have hlt' := left_ne_right h₁
      unfold RxBuf.left at hleft
      rw [heq] at hleft
      unfold RxBuf.left RxBuf.right at *
      omega
    · rw [if_neg h₃]
      exact extendEnd_streams hb h₁ hs hroom h

/-- How many bytes a read moves. -/
theorem toNat_toMove (hb : b.Bounded) : (toMove b).toNat =
    b.rxDatalen.toNat + if b.missedSeq0 ≠ b.missedSeq1 then b.right else 0 := by
  have hroom := hb.room_eq
  have hmax := hb.max
  have hle := hb.len
  unfold toMove
  split_ifs with hne
  · have hr := (hb.block hne).2
    rw [BitVec.toNat_add_of_lt (by unfold RxBuf.right at hr; omega)]
    rfl
  · rfl

/-- The bytes a read moves come from behind the ones it takes. -/
theorem readRx_rxData {i : ℕ}
    (hb : { b with rxDatalen := b.rxDatalen - len : RxBuf }.Bounded)
    (hi : i < (toMove { b with rxDatalen := b.rxDatalen - len }).toNat) :
    (readRx b len).rxData i = b.rxData (len.toNat + i) := by
  have hroom := hb.room_eq
  have hmax := hb.max
  have hle := hb.len
  have hlt : (toMove { b with rxDatalen := b.rxDatalen - len }).toNat < 2 ^ 31 := by
    rw [toNat_toMove hb]
    split_ifs with hne
    · have := (hb.block hne).2
      omega
    · omega
  unfold readRx
  dsimp only
  rw [if_pos (by rw [BitVec.toInt_eq_toNat_of_lt (by omega)]; omega)]
  exact (blit_of_mem (Nat.zero_le i) (by omega)).trans (by rw [Nat.sub_zero])

theorem readRx_frame : (readRx b len).rxDatalen = b.rxDatalen - len ∧
    (readRx b len).recvNext = b.recvNext ∧ (readRx b len).missedSeq0 = b.missedSeq0 ∧
    (readRx b len).missedSeq1 = b.missedSeq1 := by
  unfold readRx
  dsimp only
  split_ifs <;> exact ⟨rfl, rfl, rfl, rfl⟩

/-- **A read** takes the front of the buffer away. -/
theorem readRx_streams (hb : b.Bounded) (hs : b.Streams S q)
    (hlen : len.toNat ≤ b.rxDatalen.toNat) : (readRx b len).Streams S (q + len.toNat) := by
  obtain ⟨hd, hrn, hm₀, hm₁⟩ := @readRx_frame b len
  have hsub : (b.rxDatalen - len).toNat = b.rxDatalen.toNat - len.toNat :=
    BitVec.toNat_sub_of_le (BitVec.le_def.mpr hlen)
  have hb' := shrink_bounded hb hlen
  have hmove := toNat_toMove hb'
  have hdata : ∀ i < b.rxDatalen.toNat - len.toNat,
      (readRx b len).rxData (0 + i) = b.rxData (0 + len.toNat + i) := by
    intro i hi
    rw [Nat.zero_add, Nat.zero_add]
    exact readRx_rxData hb' (by rw [hmove, hsub]; omega)
  refine ⟨?_, fun hne => ?_⟩
  · rw [hd, hsub]
    exact (hs.data.sub (by omega)).moved hdata
  · rw [hm₀, hm₁] at hne
    have hleft : (readRx b len).left = b.left := by unfold RxBuf.left; rw [hm₀, hrn]
    have hright : (readRx b len).right = b.right := by unfold RxBuf.right; rw [hm₁, hrn]
    rw [hd, hsub, hleft, hright, show q + len.toNat + (b.rxDatalen.toNat - len.toNat) + b.left =
      q + b.rxDatalen.toNat + b.left by omega]
    refine (hs.block hne).moved fun i hi => ?_
    rw [readRx_rxData hb' (by
      rw [hmove, hsub, if_pos hne]
      show _ < _ + b.right
      omega)]
    congr 1; omega

theorem dataInOrder_offset :
    (dataInOrder none b seg data len diff).recvNext -
      (dataInOrder none b seg data len diff).rxDatalen = b.recvNext - b.rxDatalen := by
  unfold dataInOrder catchUp copyInOrder
  dsimp only
  split_ifs <;> dsimp only <;> ring

theorem dataOutOfOrder_frame :
    (dataOutOfOrder b seg data len diff).recvNext = b.recvNext ∧
    (dataOutOfOrder b seg data len diff).rxDatalen = b.rxDatalen := by
  unfold dataOutOfOrder appendOutOfOrder prependOutOfOrder
  dsimp only
  split_ifs <;> exact ⟨rfl, rfl⟩

/-- `recv_next` moves with `rx_datalen`. -/
theorem processRx_offset {flags : TcpFlags} :
    (processRx none b seg flags).recvNext - (processRx none b seg flags).rxDatalen =
      b.recvNext - b.rxDatalen := by
  unfold processRx
  dsimp only
  cases arrival { b with copies := [] } seg flags with
  | ignored => rfl
  | inOrder => exact dataInOrder_offset
  | outOfOrder =>
    dsimp only
    rw [dataOutOfOrder_frame.1, dataOutOfOrder_frame.2]

end Steps

/-! ## Runs -/

/-- A control block and the bytes `tcp_read` has handed out. -/
structure Reading where
  c : Conn
  handed : List Byte

/-- The bytes a step hands out. -/
def handedBy (c : Conn) : RxOp → List Byte
  | .segment _ _ _ => []
  | .read e maxlen => (tcpRead e c maxlen).2.1

/-- One step, its bytes kept. -/
def stepReading (r : Reading) (op : RxOp) : Reading := ⟨stepRx r.c op, r.handed ++ handedBy r.c op⟩

/-- The offset in the stream of the byte `recv_next` expects. -/
def Reading.next (r : Reading) : ℕ := r.handed.length + r.c.s.rx.rxDatalen.toNat

/-- The segment carries the bytes of `S`: each of its bytes whose sequence number lies in the free
part of the buffer is the byte of `S` with that number. -/
def Carries (S : List Byte) (r : Reading) (seg : InSegment) : Prop :=
  ∀ i < seg.dataLen,
    (seg.hdr.seqnum + BitVec.ofNat 32 i - r.c.s.rx.recvNext).toNat < r.c.s.rx.room →
    S[r.next + (seg.hdr.seqnum + BitVec.ofNat 32 i - r.c.s.rx.recvNext).toNat]? =
      some (seg.mem (seg.hdr.dataOfs + i))

instance (S : List Byte) (r : Reading) (seg : InSegment) : Decidable (Carries S r seg) := by
  unfold Carries; infer_instance

instance (seg : InSegment) (flags : TcpFlags) : Decidable (seg.Loaded flags) := by
  unfold InSegment.Loaded; infer_instance

/-- Segments with data carry the bytes of `S`. -/
def StepCarries (S : List Byte) (r : Reading) : RxOp → Prop
  | .segment _ seg flags => seg.Loaded flags → Carries S r seg
  | .read _ _ => True

instance (S : List Byte) : ∀ (r : Reading) (op : RxOp), Decidable (StepCarries S r op)
  | r, .segment _ seg flags => inferInstanceAs (Decidable (seg.Loaded flags → Carries S r seg))
  | _, .read _ _ => .isTrue trivial

/-- The bytes read and the buffer are a prefix of `S`, whose first byte has number `q₀`. -/
structure StreamIntegrity (S : List Byte) (q₀ : Dword) (r : Reading) : Prop where
  handed : r.handed ++ slice r.c.s.rx.rxData 0 r.c.s.rx.rxDatalen.toNat <+: S
  recvNext : r.c.s.rx.recvNext = q₀ + BitVec.ofNat 32 r.next
  block : r.c.s.rx.missedSeq0 ≠ r.c.s.rx.missedSeq1 → ∀ k, r.c.s.rx.left ≤ k →
    k < r.c.s.rx.right → S[r.next + k]? = some (r.c.s.rx.rxData (r.c.s.rx.rxDatalen.toNat + k))

/-- The invariant behind stream integrity. -/
structure StreamInv (S : List Byte) (q₀ : Dword) (r : Reading) : Prop where
  bounded : r.c.s.rx.Bounded
  handler : r.c.s.protoHandler = none
  handed : r.handed <+: S
  streams : r.c.s.rx.Streams S r.handed.length
  offset : r.c.s.rx.recvNext - r.c.s.rx.rxDatalen = q₀ + BitVec.ofNat 32 r.handed.length

section Runs

variable {S : List Byte} {q₀ : Dword} {r : Reading} {seg : InSegment} {flags : TcpFlags}

theorem carries_inOrder (h : Carries S r seg)
    (hroom : seg.dataLen - (r.c.s.rx.ldiff seg).toNat ≤ r.c.s.rx.room) :
    Holds seg.mem (seg.hdr.dataOfs + (r.c.s.rx.ldiff seg).toNat) S r.next
      (seg.dataLen - (r.c.s.rx.ldiff seg).toNat) := by
  intro i hi
  have hlen := seg.dataLen_lt
  have hk : (seg.hdr.seqnum + BitVec.ofNat 32 ((r.c.s.rx.ldiff seg).toNat + i) -
      r.c.s.rx.recvNext).toNat = i := by
    have : seg.hdr.seqnum + BitVec.ofNat 32 ((r.c.s.rx.ldiff seg).toNat + i) -
        r.c.s.rx.recvNext = BitVec.ofNat 32 i := by
      rw [BitVec.ofNat_add, BitVec.ofNat_toNat, BitVec.setWidth_eq, RxBuf.ldiff]
      ring
    rw [this, BitVec.toNat_ofNat, Nat.mod_eq_of_lt (by omega)]
  have := h ((r.c.s.rx.ldiff seg).toNat + i) (by omega) (by omega)
  rwa [hk, ← Nat.add_assoc] at this

theorem carries_outOfOrder (h : Carries S r seg)
    (hroom : (-r.c.s.rx.ldiff seg).toNat + seg.dataLen ≤ r.c.s.rx.room)
    (hlt : r.c.s.rx.room < 2 ^ 31) :
    Holds seg.mem seg.hdr.dataOfs S (r.next + (-r.c.s.rx.ldiff seg).toNat) seg.dataLen := by
  intro i hi
  have hk : (seg.hdr.seqnum + BitVec.ofNat 32 i - r.c.s.rx.recvNext).toNat =
      (-r.c.s.rx.ldiff seg).toNat + i := by
    have : seg.hdr.seqnum + BitVec.ofNat 32 i - r.c.s.rx.recvNext =
        -r.c.s.rx.ldiff seg + BitVec.ofNat 32 i := by
      rw [RxBuf.ldiff]; ring
    rw [this, BitVec.toNat_add_of_lt, BitVec.toNat_ofNat, Nat.mod_eq_of_lt (by omega)]
    rw [BitVec.toNat_ofNat, Nat.mod_eq_of_lt (by omega)]
    omega
  have := h i hi (by omega)
  rwa [hk, ← Nat.add_assoc] at this

/-- A plain slice of a stream that is short of wrapping carries its bytes. -/
theorem carries_of_slice {x : ℕ} (hr : r.c.s.rx.recvNext = q₀ + BitVec.ofNat 32 r.next)
    (hseq : seg.hdr.seqnum = q₀ + BitVec.ofNat 32 x)
    (hseg : Holds seg.mem seg.hdr.dataOfs S x seg.dataLen) (hnext : r.next ≤ S.length)
    (hlen : S.length + r.c.s.rx.room ≤ 2 ^ 32) : Carries S r seg := by
  intro i hi hk
  have hx : x + i < S.length := by
    have := hseg.le_length (by omega)
    omega
  have hdiff : seg.hdr.seqnum + BitVec.ofNat 32 i - r.c.s.rx.recvNext =
      BitVec.ofNat 32 (x + i) - BitVec.ofNat 32 r.next := by
    rw [hseq, hr, BitVec.ofNat_add]; ring
  rw [hdiff] at hk ⊢
  have hx' : (BitVec.ofNat 32 (x + i)).toNat = x + i := by
    rw [BitVec.toNat_ofNat, Nat.mod_eq_of_lt (by omega)]
  have hn' : (BitVec.ofNat 32 r.next).toNat = r.next := by
    rw [BitVec.toNat_ofNat, Nat.mod_eq_of_lt (by omega)]
  by_cases hge : r.next ≤ x + i
  · rw [BitVec.toNat_sub_of_le (by rw [BitVec.le_def, hx', hn']; exact hge), hx', hn',
      Nat.add_sub_cancel' hge]
    exact hseg i hi
  · -- an old byte lies a whole wrap ahead
    rw [BitVec.toNat_sub_of_lt (by rw [BitVec.lt_def, hx', hn']; omega), hx', hn'] at hk
    omega

theorem handed_prefix {m : ℕ → Byte} {l : List Byte} {n : ℕ} (h : l <+: S)
    (hd : Holds m 0 S l.length n) : l ++ slice m 0 n <+: S := by
  rw [hd.slice_eq, List.prefix_iff_eq_take.mp h, List.length_take,
    min_eq_left h.length_le, ← List.take_add]
  exact List.take_prefix _ _

theorem StreamInv.integrity (h : StreamInv S q₀ r) : StreamIntegrity S q₀ r where
  handed := handed_prefix h.handed h.streams.data
  recvNext := by
    rw [Reading.next, BitVec.ofNat_add, BitVec.ofNat_toNat, BitVec.setWidth_eq, ← add_assoc,
      ← h.offset]
    ring
  block hne k hk hlt := by
    have := h.streams.block hne (k - r.c.s.rx.left) (by omega)
    rwa [Nat.add_assoc, Nat.add_sub_cancel' hk, Nat.add_assoc _ _ (k - _),
      Nat.add_sub_cancel' hk] at this

theorem StreamInv.segment {e : Env} (h : StreamInv S q₀ r)
    (hc : seg.Loaded flags → Carries S r seg) (hok : SegOk r.c (.segment e seg flags)) :
    StreamInv S q₀ (stepReading r (.segment e seg flags)) := by
  have hrx : (stepReading r (.segment e seg flags)).c.s.rx =
      processRx none r.c.s.rx seg flags := by
    rw [← h.handler]; exact tcpProcessData_rx e r.c.s seg flags
  have hhand : (stepReading r (.segment e seg flags)).handed = r.handed := List.append_nil _
  refine ⟨stepRx_bounded h.bounded hok, ?_, hhand ▸ h.handed, ?_, ?_⟩
  · exact (tcpProcessData_protoHandler e r.c.s seg flags).trans h.handler
  · rw [hrx, hhand]
    have hb₀ : { r.c.s.rx with copies := [] : RxBuf }.Bounded :=
      ⟨h.bounded.max, h.bounded.len, h.bounded.block⟩
    have hs₀ : { r.c.s.rx with copies := [] : RxBuf }.Streams S r.handed.length :=
      ⟨h.streams.data, h.streams.block⟩
    unfold processRx
    dsimp only
    cases ha : arrival { r.c.s.rx with copies := [] } seg flags with
    | ignored => exact hs₀
    | inOrder =>
      obtain ⟨hload, -, hl, hroom⟩ := arrival_inOrder_iff.mp ha
      refine dataInOrder_streams hb₀ hs₀ hl hroom ?_ (carries_inOrder (hc hload) hroom)
      have := hok ha
      rwa [h.handler] at this
    | outOfOrder =>
      obtain ⟨hload, -, hroom⟩ := arrival_outOfOrder_iff.mp ha
      exact dataOutOfOrder_streams hb₀ hs₀ hload.2.2 hroom
        (carries_outOfOrder (hc hload) hroom hb₀.room_lt)
  · rw [hrx, hhand, processRx_offset]
    exact h.offset

theorem StreamInv.read {e : Env} {maxlen : Dword} (h : StreamInv S q₀ r) :
    StreamInv S q₀ (stepReading r (.read e maxlen)) := by
  have hlen : (readLen r.c.s maxlen).toNat ≤ r.c.s.rx.rxDatalen.toNat :=
    readLen_toNat (by have := h.bounded.max; have := h.bounded.len; omega)
  have hrx : (stepReading r (.read e maxlen)).c.s.rx = _ := tcpRead_rx e r.c maxlen
  have hhand : (stepReading r (.read e maxlen)).handed = r.handed ++ _ :=
    congrArg (r.handed ++ ·) (tcpRead_bytes e r.c maxlen)
  have hproto : (stepReading r (.read e maxlen)).c.s.protoHandler = none :=
    (tcpRead_protoHandler e r.c maxlen).trans h.handler
  refine ⟨tcpRead_bounded h.bounded, hproto, ?_, ?_, ?_⟩
  all_goals rw [hhand]
  all_goals try rw [hrx]
  all_goals split_ifs
  · exact handed_prefix h.handed (h.streams.data.mono hlen)
  · rw [List.append_nil]; exact h.handed
  · rw [List.length_append, length_slice]
    exact readRx_streams h.bounded h.streams hlen
  · rw [List.append_nil]; exact h.streams
  · obtain ⟨hd, hrn, -⟩ := @readRx_frame r.c.s.rx (readLen r.c.s maxlen)
    rw [List.length_append, length_slice, hd, hrn, BitVec.ofNat_add, BitVec.ofNat_toNat,
      BitVec.setWidth_eq, ← add_assoc, ← h.offset]
    ring
  · rw [List.append_nil]; exact h.offset

theorem StreamInv.step {op : RxOp} (h : StreamInv S q₀ r)
    (hop : StepCarries S r op ∧ SegOk r.c op) : StreamInv S q₀ (stepReading r op) := by
  cases op with
  | segment e seg flags => exact h.segment hop.1 hop.2
  | read e maxlen => exact h.read

/-- **Receive-stream integrity.** From an empty buffer without `protoHandler`, after every run of
segments and reads whose segments carry the bytes of `S` and whose in-order data are `SegOk`, the
bytes read and the buffer are a prefix of `S`, `recv_next` counts them, and the block holds the
bytes of `S` for its sequence numbers. -/
theorem stream_integrity (S : List Byte) (q₀ : Dword) (c : Conn) (ops : List RxOp)
    (hmax : c.s.rx.maxRxData.toNat < 2 ^ 31) (hhandler : c.s.protoHandler = none)
    (hempty : c.s.rx.rxDatalen = 0) (hblock : c.s.rx.missedSeq0 = c.s.rx.missedSeq1)
    (hnext : c.s.rx.recvNext = q₀)
    (hops : Always stepReading (fun r op => StepCarries S r op ∧ SegOk r.c op) ⟨c, []⟩ ops) :
    StreamIntegrity S q₀ (run stepReading ⟨c, []⟩ ops) := by
  have hinit : StreamInv S q₀ ⟨c, []⟩ := by
    refine ⟨bounded_of_unblocked hmax (by simp [hempty]) hblock, hhandler, List.nil_prefix, ?_, ?_⟩
    · exact ⟨by simp [hempty], fun hne => absurd hblock hne⟩
    · simp [hempty, hnext]
  exact (run_invariant (fun _ _ => StreamInv.step) ops hinit hops).integrity

end Runs

/-! ## Across the wrap -/

section Wrap

/-- A stream of twenty bytes 7. -/
def sevens : List Byte := List.replicate 20 7

/-- The bytes of `sevens` with the number `seqnum` on, `n` of them, zeros in memory behind. -/
def sevensSegment (seqnum : Dword) (n : Word) : InSegment :=
  { plainSegment seqnum 0 n with mem := fun i => if i < 20 + n.toNat then 7 else 0 }

/-- A fresh control block that expects the number `q₀`. -/
def readyConn (q₀ : Dword) : Conn :=
  let s := freshSocket {} none (fun _ => 0) (fun _ => 0)
  freshConn { s with state := .estab, rx := { s.rx with recvNext := q₀ } } []

/-- A block, the data before it, a read: away from the wrap the stream arrives. -/
theorem stream_integrity_readyConn :
    StreamIntegrity sevens 0 (run stepReading ⟨readyConn 0, []⟩
      [.segment {} (sevensSegment 5 5) { ack := true },
        .segment {} (sevensSegment 0 8) { ack := true }, .read {} 7]) :=
  stream_integrity sevens 0 (readyConn 0) _ (by decide) rfl rfl rfl rfl (by decide +kernel)

/-- The last five bytes first, then the first five: the comparison across the wrap joins them. -/
def wrapOps : List RxOp :=
  [.segment {} (sevensSegment 5 5) { ack := true },
    .segment {} (sevensSegment (-10) 5) { ack := true }]

theorem stream_integrity_fails :
    Always stepReading (StepCarries sevens) ⟨readyConn (-10), []⟩ wrapOps ∧
    ¬ StreamIntegrity sevens (-10) (run stepReading ⟨readyConn (-10), []⟩ wrapOps) := by
  refine ⟨by decide +kernel, fun h => ?_⟩
  exact absurd h.handed (by decide +kernel)

end Wrap

end Watt32.Tcp
