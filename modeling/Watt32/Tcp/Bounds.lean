import Watt32.Lib.Serial
import Watt32.Lib.Run
import Watt32.Tcp.Arrival
import Watt32.Tcp.Calls

/-!
# Receive-buffer bounds

* `RxBuf.Bounded`: the in-order data and the out-of-order block lie inside the buffer.
* `Memcpy.Inside`: a `memcpy` that stays inside the buffer and inside the segment's data.
* `SegOk`: what in-order data must meet while a block is buffered. The comparison
  `recv_next + len < missed_seq[0]` of `data_in_order` is one of plain numbers, so both sides have
  to lie on one side of the wrap; a `protoHandler` has to stop before the block.
* **`rx_bounds_iff`**: a run keeps all copies inside and the buffer bounded exactly if its segments
  are `SegOk`.
-/

namespace Watt32.Tcp

open Machine

/-! ## Offsets from `recv_next` -/

/-- Free bytes behind the in-order data. -/
def RxBuf.room (b : RxBuf) : ℕ := (b.maxRxData - b.rxDatalen).toNat

/-- Where the out-of-order block starts. -/
def RxBuf.left (b : RxBuf) : ℕ := (b.missedSeq0 - b.recvNext).toNat

/-- Where the out-of-order block ends. -/
def RxBuf.right (b : RxBuf) : ℕ := (b.missedSeq1 - b.recvNext).toNat

/-- The in-order data and the out-of-order block lie inside the buffer. -/
structure RxBuf.Bounded (b : RxBuf) : Prop where
  max : b.maxRxData.toNat < 2 ^ 31
  len : b.rxDatalen.toNat ≤ b.maxRxData.toNat
  block : b.missedSeq0 ≠ b.missedSeq1 → b.left ≤ b.right ∧ b.right ≤ b.room

/-- The copy writes inside the first `max` bytes and reads inside the segment's data. -/
structure Memcpy.Inside (max : ℕ) (seg : InSegment) (k : Memcpy) : Prop where
  dst : k.dst + k.len ≤ max
  src : seg.hdr.dataOfs ≤ k.src
  src_end : k.src + k.len ≤ seg.tcpLen.toNat

instance (max : ℕ) (seg : InSegment) (k : Memcpy) : Decidable (k.Inside max seg) :=
  decidable_of_iff (k.dst + k.len ≤ max ∧ seg.hdr.dataOfs ≤ k.src ∧
    k.src + k.len ≤ seg.tcpLen.toNat)
    ⟨fun ⟨h₁, h₂, h₃⟩ => ⟨h₁, h₂, h₃⟩, fun ⟨h₁, h₂, h₃⟩ => ⟨h₁, h₂, h₃⟩⟩

instance (b : RxBuf) : Decidable b.Bounded :=
  decidable_of_iff (b.maxRxData.toNat < 2 ^ 31 ∧ b.rxDatalen.toNat ≤ b.maxRxData.toNat ∧
    (b.missedSeq0 ≠ b.missedSeq1 → b.left ≤ b.right ∧ b.right ≤ b.room))
    ⟨fun ⟨h₁, h₂, h₃⟩ => ⟨h₁, h₂, h₃⟩, fun ⟨h₁, h₂, h₃⟩ => ⟨h₁, h₂, h₃⟩⟩

/-- The law of the receive buffer after a segment: its copies inside, the buffer bounded. -/
def RxBuf.Law (b : RxBuf) (seg : InSegment) : Prop :=
  (∀ k ∈ b.copies, k.Inside b.maxRxData.toNat seg) ∧ b.Bounded

instance (b : RxBuf) (seg : InSegment) : Decidable (b.Law seg) := by
  unfold RxBuf.Law; infer_instance

section Room

variable {b : RxBuf}

theorem RxBuf.Bounded.room_eq (hb : b.Bounded) :
    b.room = b.maxRxData.toNat - b.rxDatalen.toNat :=
  BitVec.toNat_sub_of_le (BitVec.le_def.mpr hb.len)

theorem RxBuf.Bounded.room_lt (hb : b.Bounded) : b.room < 2 ^ 31 := by
  have := hb.room_eq; have := hb.max; omega

/-- Without a block only the length counts. -/
theorem bounded_of_unblocked (hm : b.maxRxData.toNat < 2 ^ 31)
    (hl : b.rxDatalen.toNat ≤ b.maxRxData.toNat) (h : b.missedSeq0 = b.missedSeq1) : b.Bounded :=
  ⟨hm, hl, fun hne => absurd h hne⟩

/-- A block ends behind its start. -/
theorem left_ne_right (h : b.missedSeq0 ≠ b.missedSeq1) : b.left ≠ b.right := by
  unfold RxBuf.left RxBuf.right
  intro heq
  apply h
  bv_omega

end Room

/-! ## In-order data -/

section InOrder

variable {b : RxBuf} {seg : InSegment} {data : ℕ} {len : Dword}

/-- Data that end before the block, or at its start, move towards it. -/
theorem copyInOrder_bounded (hb : b.Bounded) (hlen : len.toNat ≤ b.room)
    (hleft : b.missedSeq0 ≠ b.missedSeq1 → len.toNat ≤ b.left) :
    (copyInOrder b seg data len).Bounded := by
  have hroom := hb.room_eq
  have hmax := hb.max
  have hle := hb.len
  have hlen' : (b.rxDatalen + len).toNat = b.rxDatalen.toNat + len.toNat := by
    apply BitVec.toNat_add_of_lt; omega
  refine ⟨hmax, ?_, fun hne => ?_⟩
  · show (b.rxDatalen + len).toNat ≤ b.maxRxData.toNat
    omega
  · obtain ⟨h₁, h₂⟩ := hb.block hne
    have h₃ := hleft hne
    unfold RxBuf.left RxBuf.right RxBuf.room at *
    simp only [copyInOrder]
    constructor <;> bv_omega

/-- Data that pass the start of the block without joining it leave the block behind. -/
theorem not_copyInOrder_bounded (hb : b.Bounded) (hne : b.missedSeq0 ≠ b.missedSeq1)
    (hlen : len.toNat ≤ b.room) (hleft : b.left < len.toNat) :
    ¬ (copyInOrder b seg data len).Bounded := by
  intro hb'
  obtain ⟨h₁, h₂⟩ := hb.block hne
  obtain ⟨h₃, h₄⟩ := hb'.block hne
  have hroom := hb.room_eq
  have hmax := hb.max
  have hle := hb.len
  unfold RxBuf.left RxBuf.right RxBuf.room at *
  simp only [copyInOrder] at h₃ h₄
  bv_omega

theorem catchUp_frame : (catchUp b seg data len).missedSeq0 = 0 ∧
    (catchUp b seg data len).missedSeq1 = 0 ∧
    (catchUp b seg data len).maxRxData = b.maxRxData := by
  unfold catchUp
  dsimp only
  split_ifs <;> exact ⟨rfl, rfl, rfl⟩

/-- Joined data end at the later of the two ends. -/
theorem catchUp_rxDatalen (hb : b.Bounded) (hne : b.missedSeq0 ≠ b.missedSeq1)
    (hlen : len.toNat ≤ b.room) :
    (catchUp b seg data len).rxDatalen.toNat = b.rxDatalen.toNat + max b.right len.toNat := by
  obtain ⟨h₁, h₂⟩ := hb.block hne
  have hroom := hb.room_eq
  have hmax := hb.max
  have hle := hb.len
  unfold RxBuf.left RxBuf.right RxBuf.room at *
  unfold catchUp copyInOrder
  dsimp only
  split_ifs with h <;> rw [BitVec.lt_def] at h
  · rw [max_eq_right h.le]
    bv_omega
  · rw [max_eq_left (not_lt.mp h)]
    bv_omega

theorem catchUp_bounded (hb : b.Bounded) (hne : b.missedSeq0 ≠ b.missedSeq1)
    (hlen : len.toNat ≤ b.room) : (catchUp b seg data len).Bounded := by
  obtain ⟨h₀, h₁, hm⟩ := @catchUp_frame b seg data len
  have hr := (hb.block hne).2
  have hroom := hb.room_eq
  have hle := hb.len
  refine bounded_of_unblocked (hm ▸ hb.max) ?_ (h₀.trans h₁.symm)
  rw [catchUp_rxDatalen hb hne hlen, hm]
  omega

/-- Where the data behind the block go. -/
theorem catchUp_dst (hb : b.Bounded) (hne : b.missedSeq0 ≠ b.missedSeq1) :
    (b.rxDatalen + (b.missedSeq0 - b.recvNext) + (b.missedSeq1 - b.missedSeq0)).toNat =
      b.rxDatalen.toNat + b.right := by
  have h₂ := (hb.block hne).2
  have hroom := hb.room_eq
  have hmax := hb.max
  have hle := hb.len
  unfold RxBuf.right RxBuf.room at *
  bv_omega

theorem catchUp_copies (hb : b.Bounded) (hne : b.missedSeq0 ≠ b.missedSeq1) :
    (catchUp b seg data len).copies = b.copies ++ [⟨b.rxDatalen.toNat, data, b.left⟩] ++
      if b.right < len.toNat then
        [⟨b.rxDatalen.toNat + b.right, data + b.right, len.toNat - b.right⟩] else [] := by
  have hdst := catchUp_dst hb hne
  unfold catchUp copyInOrder
  dsimp only
  by_cases h : b.right < len.toNat
  · have hlt : b.missedSeq1 - b.recvNext < len := BitVec.lt_def.mpr h
    rw [if_pos h, if_pos hlt, hdst, BitVec.toNat_sub_of_le (BitVec.le_of_lt hlt)]
    rfl
  · have hge : ¬ b.missedSeq1 - b.recvNext < len := fun hlt => h (BitVec.lt_def.mp hlt)
    rw [if_neg h, if_neg hge, List.append_nil]
    rfl

theorem catchUp_rxData (hb : b.Bounded) (hne : b.missedSeq0 ≠ b.missedSeq1) :
    (catchUp b seg data len).rxData =
      if b.right < len.toNat then
        Mem.blit (Mem.blit b.rxData b.rxDatalen.toNat seg.mem data b.left)
          (b.rxDatalen.toNat + b.right) seg.mem (data + b.right) (len.toNat - b.right)
      else Mem.blit b.rxData b.rxDatalen.toNat seg.mem data b.left := by
  have hdst := catchUp_dst hb hne
  unfold catchUp copyInOrder
  dsimp only
  by_cases h : b.right < len.toNat
  · have hlt : b.missedSeq1 - b.recvNext < len := BitVec.lt_def.mpr h
    rw [if_pos h, if_pos hlt, hdst, BitVec.toNat_sub_of_le (BitVec.le_of_lt hlt)]
    rfl
  · have hge : ¬ b.missedSeq1 - b.recvNext < len := fun hlt => h (BitVec.lt_def.mp hlt)
    rw [if_neg h, if_neg hge]
    rfl

/-- The segment has its data at `data`, `len` bytes of them. -/
structure DataAt (seg : InSegment) (data len : ℕ) : Prop where
  ofs : seg.hdr.dataOfs ≤ data
  fits : data + len ≤ seg.tcpLen.toNat

theorem copyInOrder_inside (hb : b.Bounded) (hd : DataAt seg data len.toNat)
    (hlen : len.toNat ≤ b.room) (h : ∀ k ∈ b.copies, k.Inside b.maxRxData.toNat seg) :
    ∀ k ∈ (copyInOrder b seg data len).copies, k.Inside b.maxRxData.toNat seg := by
  have hroom := hb.room_eq
  have hle := hb.len
  intro k hk
  rcases List.mem_append.mp hk with hk | hk
  · exact h k hk
  · rw [List.mem_singleton.mp hk]
    exact ⟨by dsimp only; omega, hd.ofs, hd.fits⟩

/-- Joining the block stays inside the segment exactly when the data reach the block. -/
theorem catchUp_inside_iff (hb : b.Bounded) (hne : b.missedSeq0 ≠ b.missedSeq1)
    (hd : data + len.toNat = seg.tcpLen.toNat) (hofs : seg.hdr.dataOfs ≤ data)
    (hlen : len.toNat ≤ b.room) (h : ∀ k ∈ b.copies, k.Inside b.maxRxData.toNat seg) :
    (∀ k ∈ (catchUp b seg data len).copies, k.Inside b.maxRxData.toNat seg) ↔ b.left ≤ len.toNat := by
  obtain ⟨h₁, h₂⟩ := hb.block hne
  have hroom := hb.room_eq
  have hle := hb.len
  rw [catchUp_copies hb hne]
  constructor
  · intro hall
    have := (hall ⟨b.rxDatalen.toNat, data, b.left⟩ (by simp)).src_end
    dsimp only at this
    omega
  · intro hleft k hk
    rcases List.mem_append.mp hk with hk | hk
    · rcases List.mem_append.mp hk with hk | hk
      · exact h k hk
      · rw [List.mem_singleton.mp hk]
        exact ⟨by dsimp only; omega, hofs, by dsimp only; omega⟩
    · split_ifs at hk with hright
      · rw [List.mem_singleton.mp hk]
        exact ⟨by dsimp only; omega, by dsimp only; omega, by dsimp only; omega⟩
      · exact absurd hk List.not_mem_nil

/-- What in-order data must meet while a block is buffered: the ends compare the right way round,
or the `protoHandler` stops before the block (or goes back, which leaves the block in front). -/
def InOrderOk (h : Option ProtoHandler) (b : RxBuf) (seg : InSegment) : Prop :=
  b.missedSeq0 ≠ b.missedSeq1 →
    match h with
    | none => Serial.SameSide b.recvNext (seg.len - b.ldiff seg) b.missedSeq0
    | some f =>
      let rc := f (Mem.slice seg.mem (seg.hdr.dataOfs + (b.ldiff seg).toNat)
        (seg.len - b.ldiff seg).toNat)
      rc.toNat ≤ b.left ∨ rc ≠ 0 ∧ (-rc).toNat + b.right ≤ b.room

instance (h : Option ProtoHandler) (b : RxBuf) (seg : InSegment) : Decidable (InOrderOk h b seg) := by
  unfold InOrderOk; cases h <;> infer_instance

/-- A `protoHandler` that takes `rc` bytes. -/
theorem handled_bounded_iff (hb : b.Bounded) (hne : b.missedSeq0 ≠ b.missedSeq1) (rc : Dword) :
    { b with recvNext := b.recvNext + rc : RxBuf }.Bounded ↔
      rc.toNat ≤ b.left ∨ rc ≠ 0 ∧ (-rc).toNat + b.right ≤ b.room := by
  obtain ⟨h₁, h₂⟩ := hb.block hne
  have hlt := left_ne_right hne
  have hroom := hb.room_lt
  have hleft : { b with recvNext := b.recvNext + rc : RxBuf }.left =
      (b.missedSeq0 - b.recvNext - rc).toNat := congrArg BitVec.toNat (sub_add_eq_sub_sub _ _ _)
  have hright : { b with recvNext := b.recvNext + rc : RxBuf }.right =
      (b.missedSeq1 - b.recvNext - rc).toNat := congrArg BitVec.toNat (sub_add_eq_sub_sub _ _ _)
  have hneg (h0 : rc ≠ 0) : (-rc).toNat = 2 ^ 32 - rc.toNat := BitVec.toNat_neg_of_pos (by bv_omega)
  constructor
  · intro hb'
    obtain ⟨h₃, h₄⟩ := hb'.block hne
    have hroom' : { b with recvNext := b.recvNext + rc : RxBuf }.room = b.room := rfl
    rw [hleft, hright] at h₃
    rw [hright, hroom'] at h₄
    by_cases hrc : rc.toNat ≤ b.left
    · exact .inl hrc
    · have h0 : rc ≠ 0 := fun h0 => hrc (by simp [h0])
      refine .inr ⟨h0, ?_⟩
      rw [hneg h0]
      have hlow := BitVec.toNat_sub_of_lt (BitVec.lt_def.mpr (not_le.mp hrc))
      have := rc.isLt
      by_cases hrc' : rc.toNat ≤ b.right
      · have hup := BitVec.toNat_sub_of_le (BitVec.le_def.mpr hrc')
        unfold RxBuf.left RxBuf.right at *
        omega
      · have hup := BitVec.toNat_sub_of_lt (BitVec.lt_def.mpr (not_le.mp hrc'))
        unfold RxBuf.left RxBuf.right at *
        omega
  · intro h
    refine ⟨hb.max, hb.len, fun _ => ?_⟩
    rw [hleft, hright]
    show _ ∧ _ ≤ b.room
    have := rc.isLt
    rcases h with h | ⟨h0, h⟩
    · have hlow := BitVec.toNat_sub_of_le (BitVec.le_def.mpr h)
      have hup := BitVec.toNat_sub_of_le (BitVec.le_def.mpr (h.trans h₁))
      unfold RxBuf.left RxBuf.right at *
      omega
    · rw [hneg h0] at h
      have hlow := BitVec.toNat_sub_of_lt (x := b.missedSeq0 - b.recvNext) (y := rc)
        (BitVec.lt_def.mpr (by unfold RxBuf.left RxBuf.right at *; omega))
      have hup := BitVec.toNat_sub_of_lt (x := b.missedSeq1 - b.recvNext) (y := rc)
        (BitVec.lt_def.mpr (by unfold RxBuf.left RxBuf.right at *; omega))
      unfold RxBuf.left RxBuf.right at *
      omega

theorem toNat_inOrder_len (hl : (b.ldiff seg).toNat ≤ seg.dataLen) :
    (seg.len - b.ldiff seg).toNat = seg.dataLen - (b.ldiff seg).toNat := by
  rw [BitVec.toNat_sub_of_le (by rw [BitVec.le_def, seg.toNat_len]; exact hl), seg.toNat_len]

theorem dataInOrder_max (h : Option ProtoHandler) (diff : Dword) :
    (dataInOrder h b seg data len diff).maxRxData = b.maxRxData := by
  unfold dataInOrder
  dsimp only
  cases h with
  | some f => rfl
  | none =>
    dsimp only
    split_ifs
    · rfl
    · exact catchUp_frame.2.2

/-- **In-order data**: copies and buffer stay in bounds exactly when the data are `InOrderOk`. -/
theorem dataInOrder_law_iff (h : Option ProtoHandler) (hb : b.Bounded) (hc : b.copies = [])
    (hd : 0 < seg.dataLen) (hl : (b.ldiff seg).toNat ≤ seg.dataLen)
    (hroom : seg.dataLen - (b.ldiff seg).toNat ≤ b.room) :
    (dataInOrder h b seg seg.hdr.dataOfs seg.len (b.ldiff seg)).Law seg ↔ InOrderOk h b seg := by
  have hL := toNat_inOrder_len hl
  have hend : seg.hdr.dataOfs + (b.ldiff seg).toNat + (seg.len - b.ldiff seg).toNat =
      seg.tcpLen.toNat := by
    unfold InSegment.dataLen at *; omega
  have hall : ∀ k ∈ b.copies, k.Inside b.maxRxData.toNat seg := by simp [hc]
  have hlen : (seg.len - b.ldiff seg).toNat ≤ b.room := by omega
  have hofs : seg.hdr.dataOfs ≤ seg.hdr.dataOfs + (b.ldiff seg).toNat := Nat.le_add_right _ _
  rw [RxBuf.Law, dataInOrder_max]
  unfold dataInOrder InOrderOk
  dsimp only
  generalize seg.len - b.ldiff seg = len at *
  generalize seg.hdr.dataOfs + (b.ldiff seg).toNat = data at *
  by_cases hne : b.missedSeq0 = b.missedSeq1
  · cases h with
    | some f => exact iff_of_true ⟨hall, bounded_of_unblocked hb.max hb.len hne⟩ (absurd hne)
    | none =>
      rw [if_pos (.inl hne)]
      exact iff_of_true ⟨copyInOrder_inside hb ⟨hofs, hend.le⟩ hlen hall,
        copyInOrder_bounded hb hlen (absurd hne)⟩ (absurd hne)
  · cases h with
    | some f => simp only [hne, ne_eq, not_false_eq_true, forall_const, handled_bounded_iff hb hne,
        and_iff_right hall]
    | none =>
      simp only [hne, false_or, ne_eq, not_false_eq_true, forall_const, BitVec.lt_def]
      have hcatch := @catchUp_inside_iff b seg data len hb hne hend hofs hlen hall
      by_cases hside : Serial.SameSide b.recvNext len b.missedSeq0
      · have hcmp : (b.recvNext + len).toNat < b.missedSeq0.toNat ↔ len.toNat < b.left :=
          Serial.add_lt_iff_of_side hside
        refine iff_of_true ?_ hside
        split_ifs with hlt
        · exact ⟨copyInOrder_inside hb ⟨hofs, hend.le⟩ hlen hall,
            copyInOrder_bounded hb hlen fun _ => (hcmp.mp hlt).le⟩
        · exact ⟨hcatch.mpr (not_lt.mp (hcmp.not.mp hlt)), catchUp_bounded hb hne hlen⟩
      · have hcmp : (b.recvNext + len).toNat < b.missedSeq0.toNat ↔ b.left < len.toNat :=
          Serial.add_lt_iff_of_not_side hside
        have hedge : len.toNat ≠ b.left := Serial.ne_of_not_side hside
        refine iff_of_false ?_ hside
        split_ifs with hlt
        · exact fun hc => not_copyInOrder_bounded hb hne hlen (hcmp.mp hlt) hc.2
        · -- the copy in front of the block reads behind the segment
          intro hc
          have := hcatch.mp hc.1
          have := hcmp.not.mp hlt
          omega

end InOrder

/-! ## Out-of-order data -/

section OutOfOrder

variable {b : RxBuf} {seg : InSegment} {data : ℕ} {len : Dword}

theorem appendOutOfOrder_right (h : b.right + len.toNat < 2 ^ 32) :
    (appendOutOfOrder b seg data len).right = b.right + len.toNat := by
  unfold RxBuf.right appendOutOfOrder at *
  dsimp only
  bv_omega

theorem appendOutOfOrder_copies (hm : b.maxRxData.toNat < 2 ^ 31)
    (hl : b.rxDatalen.toNat ≤ b.maxRxData.toNat) (h : b.right ≤ b.room) :
    (appendOutOfOrder b seg data len).copies =
      b.copies ++ [⟨b.rxDatalen.toNat + b.right, data, len.toNat⟩] := by
  have : (b.missedSeq1 - b.recvNext + b.rxDatalen).toNat = b.rxDatalen.toNat + b.right := by
    unfold RxBuf.right RxBuf.room at *
    bv_omega
  simp only [appendOutOfOrder, this]

theorem prependOutOfOrder_left (h : len.toNat ≤ b.left) :
    (prependOutOfOrder b seg data len).left = b.left - len.toNat := by
  unfold RxBuf.left prependOutOfOrder at *
  dsimp only
  bv_omega

theorem prependOutOfOrder_copies (hm : b.maxRxData.toNat < 2 ^ 31)
    (hl : b.rxDatalen.toNat ≤ b.maxRxData.toNat) (h : b.left ≤ b.room) (hlen : len.toNat ≤ b.left) :
    (prependOutOfOrder b seg data len).copies =
      b.copies ++ [⟨b.rxDatalen.toNat + (b.left - len.toNat), data, len.toNat⟩] := by
  have : (b.missedSeq0 - b.recvNext + b.rxDatalen - len).toNat =
      b.rxDatalen.toNat + (b.left - len.toNat) := by
    unfold RxBuf.left RxBuf.room at *
    bv_omega
  simp only [prependOutOfOrder, this]

/-- The law of the receive buffer: copies inside, buffer bounded. -/
def RxLaw (b b' : RxBuf) (seg : InSegment) : Prop :=
  (∀ k ∈ b'.copies, k.Inside b.maxRxData.toNat seg) ∧ b'.Bounded

/-- Data appended to the block. -/
theorem appendOutOfOrder_law (hm : b.maxRxData.toNat < 2 ^ 31)
    (hl : b.rxDatalen.toNat ≤ b.maxRxData.toNat) (hlr : b.left ≤ b.right)
    (h : b.right + len.toNat ≤ b.room) (hd : DataAt seg data len.toNat)
    (hc : ∀ k ∈ b.copies, k.Inside b.maxRxData.toNat seg) : (appendOutOfOrder b seg data len).Law seg := by
  have hroom : b.room = b.maxRxData.toNat - b.rxDatalen.toNat :=
    BitVec.toNat_sub_of_le (BitVec.le_def.mpr hl)
  have hright := @appendOutOfOrder_right b seg data len (by omega)
  refine ⟨fun k hk => ?_, hm, hl, fun _ => ⟨?_, hright.trans_le h⟩⟩
  · rw [appendOutOfOrder_copies hm hl (by omega)] at hk
    rcases List.mem_append.mp hk with hk | hk
    · exact hc k hk
    · rw [List.mem_singleton.mp hk]
      refine ⟨?_, hd.ofs, hd.fits⟩
      show b.rxDatalen.toNat + b.right + len.toNat ≤ b.maxRxData.toNat
      omega
  · rw [hright]
    exact hlr.trans (Nat.le_add_right _ _)

/-- Data put in front of the block. -/
theorem prependOutOfOrder_law (hb : b.Bounded) (hne : b.missedSeq0 ≠ b.missedSeq1)
    (hlen : len.toNat ≤ b.left) (hd : DataAt seg data len.toNat)
    (hc : ∀ k ∈ b.copies, k.Inside b.maxRxData.toNat seg) : (prependOutOfOrder b seg data len).Law seg := by
  obtain ⟨h₁, h₂⟩ := hb.block hne
  have hroom := hb.room_eq
  have hle := hb.len
  have hleft := @prependOutOfOrder_left b seg data len hlen
  refine ⟨fun k hk => ?_, hb.max, hb.len, fun _ => ⟨?_, h₂⟩⟩
  · rw [prependOutOfOrder_copies hb.max hb.len (by omega) hlen] at hk
    rcases List.mem_append.mp hk with hk | hk
    · exact hc k hk
    · rw [List.mem_singleton.mp hk]
      refine ⟨?_, hd.ofs, hd.fits⟩
      show b.rxDatalen.toNat + (b.left - len.toNat) + len.toNat ≤ b.maxRxData.toNat
      omega
  · rw [hleft]
    exact (Nat.sub_le _ _).trans h₁

/-- Data that extend the end of the block, or do not. -/
theorem extendEnd_law {diff : Dword} (hb : b.Law seg) (hlr : b.left ≤ b.right)
    (hroom : diff.toNat + seg.dataLen ≤ b.room) (hd : 0 < seg.dataLen) :
    (if diff ≤ b.missedSeq1 - b.recvNext ∧ b.missedSeq1 - b.recvNext < diff + seg.len then
      appendOutOfOrder b seg (seg.hdr.dataOfs + b.right - diff.toNat)
        (diff + seg.len - (b.missedSeq1 - b.recvNext)) else b).Law seg := by
  split_ifs with h
  · have hlt := hb.2.room_lt
    have hlen := seg.toNat_len
    have hsum : (diff + seg.len).toNat = diff.toNat + seg.dataLen := by
      rw [BitVec.toNat_add_of_lt (by omega), hlen]
    have h₁ : diff.toNat ≤ b.right := BitVec.le_def.mp h.1
    have h₂ : b.right < diff.toNat + seg.dataLen := hsum ▸ BitVec.lt_def.mp h.2
    have hn : (diff + seg.len - (b.missedSeq1 - b.recvNext)).toNat =
        diff.toNat + seg.dataLen - b.right := by
      rw [BitVec.toNat_sub_of_le (BitVec.le_of_lt h.2), hsum]; rfl
    refine appendOutOfOrder_law hb.2.max hb.2.len hlr (by omega) ⟨by omega, ?_⟩ hb.1
    rw [hn]
    unfold InSegment.dataLen at *
    omega
  · exact hb

/-- **Out-of-order data** that fit keep the law. -/
theorem dataOutOfOrder_law (hb : b.Bounded) (hc : b.copies = []) (hd : 0 < seg.dataLen)
    (hroom : (-b.ldiff seg).toNat + seg.dataLen ≤ b.room) :
    (dataOutOfOrder b seg seg.hdr.dataOfs seg.len (-b.ldiff seg)).Law seg := by
  have hdiff : -b.ldiff seg = seg.hdr.seqnum - b.recvNext := by
    unfold RxBuf.ldiff; bv_omega
  have hfit : seg.hdr.dataOfs + seg.dataLen = seg.tcpLen.toNat := by
    unfold InSegment.dataLen at *; omega
  have hat : DataAt seg seg.hdr.dataOfs seg.len.toNat := ⟨le_rfl, by rw [seg.toNat_len, hfit]⟩
  have hall : ∀ k ∈ b.copies, k.Inside b.maxRxData.toNat seg := by simp [hc]
  have hlt := hb.room_lt
  rw [hdiff] at hroom ⊢
  unfold dataOutOfOrder
  split_ifs with h₁ h₂
  · -- the block becomes the segment
    exact appendOutOfOrder_law
      (b := { b with missedSeq0 := seg.hdr.seqnum, missedSeq1 := seg.hdr.seqnum })
      hb.max hb.len le_rfl (by rw [seg.toNat_len]; exact hroom) hat hall
  · have hright : b.right = (seg.hdr.seqnum - b.recvNext).toNat := by rw [h₂]; rfl
    exact appendOutOfOrder_law hb.max hb.len (hb.block h₁).1
      (by rw [seg.toNat_len, hright]; exact hroom) hat hall
  · obtain ⟨hlr, hr⟩ := hb.block h₁
    dsimp only
    by_cases h₃ : seg.hdr.seqnum - b.recvNext < b.missedSeq0 - b.recvNext ∧
        b.missedSeq0 - b.recvNext ≤ seg.hdr.seqnum - b.recvNext + seg.len
    · -- in front of the block first, then perhaps behind it
      rw [if_pos h₃]
      have hsum : (seg.hdr.seqnum - b.recvNext + seg.len).toNat =
          (seg.hdr.seqnum - b.recvNext).toNat + seg.dataLen := by
        rw [BitVec.toNat_add_of_lt (by rw [seg.toNat_len]; omega), seg.toNat_len]
      have hle : b.left ≤ (seg.hdr.seqnum - b.recvNext).toNat + seg.dataLen :=
        hsum ▸ BitVec.le_def.mp h₃.2
      have hn : (b.missedSeq0 - b.recvNext - (seg.hdr.seqnum - b.recvNext)).toNat =
          b.left - (seg.hdr.seqnum - b.recvNext).toNat :=
        BitVec.toNat_sub_of_le (BitVec.le_of_lt h₃.1)
      have hpre : (prependOutOfOrder b seg seg.hdr.dataOfs
          (b.missedSeq0 - b.recvNext - (seg.hdr.seqnum - b.recvNext))).Law seg :=
        prependOutOfOrder_law hb h₁ (by omega) ⟨le_rfl, by omega⟩ hall
      refine extendEnd_law hpre ?_ hroom hd
      rw [prependOutOfOrder_left (by omega)]
      exact (Nat.sub_le _ _).trans hlr
    · rw [if_neg h₃]
      exact extendEnd_law ⟨hall, hb⟩ hlr hroom hd

end OutOfOrder

/-! ## One segment, one read -/

/-- **One segment**: the law holds afterwards exactly when in-order data are `InOrderOk`. -/
theorem processRx_law_iff {h : Option ProtoHandler} {b : RxBuf} {seg : InSegment}
    {flags : TcpFlags} (hb : b.Bounded) : (processRx h b seg flags).Law seg ↔
      (arrival b seg flags = .inOrder → InOrderOk h b seg) := by
  have hb₀ : { b with copies := [] : RxBuf }.Bounded := ⟨hb.max, hb.len, hb.block⟩
  unfold processRx
  dsimp only
  have harr : arrival { b with copies := [] } seg flags = arrival b seg flags := rfl
  rw [harr]
  cases ha : arrival b seg flags with
  | ignored => exact iff_of_true ⟨fun k hk => absurd hk List.not_mem_nil, hb₀⟩ (by simp)
  | inOrder =>
    obtain ⟨⟨_, _, hd⟩, -, hl, hroom⟩ := arrival_inOrder_iff.mp ha
    exact (dataInOrder_law_iff h hb₀ rfl hd hl hroom).trans ⟨fun hk _ => hk, fun hk => hk rfl⟩
  | outOfOrder =>
    obtain ⟨⟨_, _, hd⟩, -, hroom⟩ := arrival_outOfOrder_iff.mp ha
    exact iff_of_true (dataOutOfOrder_law hb₀ rfl hd hroom) (by simp)

theorem readLen_toNat {s : TcpSocket} {maxlen : Dword}
    (hlt : s.rx.rxDatalen.toNat < 2 ^ 31) : (readLen s maxlen).toNat ≤ s.rx.rxDatalen.toNat := by
  unfold readLen minLong at *
  simp only [BitVec.toInt_eq_toNat_cond] at *
  split_ifs at * <;> simp_all <;> omega

theorem shrink_bounded {b : RxBuf} {len : Dword} (hb : b.Bounded)
    (hlen : len.toNat ≤ b.rxDatalen.toNat) :
    { b with rxDatalen := b.rxDatalen - len : RxBuf }.Bounded := by
  have hmax := hb.max
  have hle := hb.len
  have hsub : (b.rxDatalen - len).toNat = b.rxDatalen.toNat - len.toNat :=
    BitVec.toNat_sub_of_le (BitVec.le_def.mpr hlen)
  refine ⟨hmax, by dsimp only; omega, fun hne => ⟨(hb.block hne).1, ?_⟩⟩
  have := (hb.block hne).2
  unfold RxBuf.left RxBuf.right RxBuf.room at *
  dsimp only
  bv_omega

/-- A read of `len` bytes keeps the bounds. -/
theorem readRx_bounded {b : RxBuf} {len : Dword} (hb : b.Bounded)
    (hlen : len.toNat ≤ b.rxDatalen.toNat) : (readRx b len).Bounded := by
  have key := shrink_bounded hb hlen
  unfold readRx
  dsimp only
  split_ifs
  · exact ⟨key.max, key.len, key.block⟩
  · exact key

theorem tcpRead_rx (e : Env) (c : Conn) (maxlen : Dword) : (tcpRead e c maxlen).1.s.rx =
    if 0 < (readLen c.s maxlen).toInt then readRx c.s.rx (readLen c.s maxlen) else c.s.rx := by
  unfold tcpRead tcpUpdWin
  dsimp only
  split_ifs <;> simp

theorem tcpRead_protoHandler (e : Env) (c : Conn) (maxlen : Dword) :
    (tcpRead e c maxlen).1.s.protoHandler = c.s.protoHandler := by
  unfold tcpRead tcpUpdWin
  dsimp only
  split_ifs <;> simp [(tcpClose_frame e c).2]

/-- The bytes a read hands out. -/
theorem tcpRead_bytes (e : Env) (c : Conn) (maxlen : Dword) : (tcpRead e c maxlen).2.1 =
    if 0 < (readLen c.s maxlen).toInt then Mem.slice c.s.rx.rxData 0 (readLen c.s maxlen).toNat
    else [] := by
  unfold tcpRead
  dsimp only
  split_ifs <;> rfl

theorem tcpRead_bounded {e : Env} {c : Conn} {maxlen : Dword} (hb : c.s.rx.Bounded) :
    (tcpRead e c maxlen).1.s.rx.Bounded := by
  rw [tcpRead_rx]
  have := hb.max
  have := hb.len
  split_ifs
  · exact readRx_bounded hb (readLen_toNat (by omega))
  · exact hb

/-! ## Runs of segments and reads -/

/-- A segment handed to `tcp_process_data` with some flags, or a `tcp_read`. -/
inductive RxOp
  | segment (e : Env) (seg : InSegment) (flags : TcpFlags)
  | read (e : Env) (maxlen : Dword)

/-- One step on a control block. -/
def stepRx (c : Conn) : RxOp → Conn
  | .segment e seg flags => (processData e c seg flags).1
  | .read e maxlen => (tcpRead e c maxlen).1

/-- What a step has to ensure. -/
def RxStepLaw (c : Conn) (op : RxOp) : Prop :=
  match op with
  | .segment _ seg _ => (stepRx c op).s.rx.Law seg
  | .read _ _ => (stepRx c op).s.rx.Bounded

/-- Data that arrive in order while a block is buffered are `InOrderOk`. -/
def SegOk (c : Conn) : RxOp → Prop
  | .segment _ seg flags =>
    arrival c.s.rx seg flags = .inOrder → InOrderOk c.s.protoHandler c.s.rx seg
  | .read _ _ => True

instance : ∀ (c : Conn) (op : RxOp), Decidable (SegOk c op)
  | c, .segment _ seg flags => inferInstanceAs
    (Decidable (arrival c.s.rx seg flags = .inOrder → InOrderOk c.s.protoHandler c.s.rx seg))
  | _, .read _ _ => .isTrue trivial

theorem rxStepLaw_iff {c : Conn} {op : RxOp} (hb : c.s.rx.Bounded) :
    RxStepLaw c op ↔ SegOk c op := by
  cases op with
  | segment e seg flags =>
    simp only [RxStepLaw, stepRx, processData, SegOk, tcpProcessData_rx]
    exact processRx_law_iff hb
  | read e maxlen => exact iff_of_true (tcpRead_bounded hb) trivial

theorem stepRx_bounded {c : Conn} {op : RxOp} (hb : c.s.rx.Bounded) (hok : SegOk c op) :
    (stepRx c op).s.rx.Bounded := by
  have := (rxStepLaw_iff hb).mpr hok
  cases op with
  | segment e seg flags => exact this.2
  | read e maxlen => exact this

/-- **Receive-buffer bounds.** From a bounded buffer, every step of a run keeps its copies inside
the buffer and the segment, and the buffer bounded, exactly if all its segments are `SegOk`. -/
theorem rx_bounds_iff (c : Conn) (ops : List RxOp) (hb : c.s.rx.Bounded) :
    Always stepRx RxStepLaw c ops ↔ Always stepRx SegOk c ops :=
  always_iff_of_invariant (fun _ _ => stepRx_bounded) (fun _ _ => rxStepLaw_iff) ops hb

/-! ## Across the wrap -/

section Wrap

/-- An established control block 10 bytes before the wrap, a block of 5 bytes 15 bytes ahead. -/
def wrapConn : Conn :=
  let s := freshSocket {} none (fun _ => 0) (fun _ => 0)
  freshConn { s with
    state := .estab
    rx := { s.rx with recvNext := -10, missedSeq0 := 5, missedSeq1 := 10 } } []

/-- A segment of `n` bytes 7 at `seqnum`, with an ACK. -/
def plainSegment (seqnum acknum : Dword) (n : Word) : InSegment :=
  { source := 0, destination := 0, tos := 0
    hdr := { srcPort := 0, dstPort := 0, seqnum := seqnum, acknum := acknum, offset := 5
             flags := { ack := true }, window := 4096 }
    flagsHi := 0, tcpLen := 20 + n, mem := fun _ => 7 }

/-- In-order data that end before the wrap, a block behind it: 15 bytes are copied from 5. -/
theorem rx_bounds_fails : wrapConn.s.rx.Bounded ∧
    ¬ RxStepLaw wrapConn (.segment {} (plainSegment (-10) 0 5) { ack := true }) := by
  refine ⟨by decide, fun h => ?_⟩
  exact absurd (h.1 ⟨0, 20, 15⟩ (by decide)) (by decide)

/-- The exact law at a run: data up to the wrap, then a read. -/
theorem rx_bounds_wrapConn :
    Always stepRx RxStepLaw wrapConn [.segment {} (plainSegment (-10) 0 5) {}, .read {} 4] ↔
    Always stepRx SegOk wrapConn [.segment {} (plainSegment (-10) 0 5) {}, .read {} 4] :=
  rx_bounds_iff wrapConn _ (by decide)

end Wrap

end Watt32.Tcp
