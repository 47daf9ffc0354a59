import Watt32.Lib.Reads
import Watt32.Tcp.Calls

/-!
# What `tcp_process_options` reads

The loop compares the kind of an option with the end of the option area, not the bytes behind the
kind.

* `processOptionsR`: `tcp_process_options` as a program that reads the segment; **`eval_processOptionsR`**.
* `Confined`: it reads inside the option area only, and what lies outside does not matter.
* `Enclosed`: the bytes that are read of every option lie in the area.
* **`options_confined_iff`**: the first holds exactly if the second does.
-/

namespace Watt32.Tcp

open Reads

/-! ## The program -/

/-- `intel16 (*(WORD*)p)`. -/
def readWordR (p : ℕ) : Reads Byte Word := do
  let b₀ ← cell p
  let b₁ ← cell (p + 1)
  return b₀ ++ b₁

/-- `intel (*(DWORD*)p)`. -/
def readDwordR (p : ℕ) : Reads Byte Dword := do
  let b₀ ← cell p
  let b₁ ← cell (p + 1)
  let b₂ ← cell (p + 2)
  let b₃ ← cell (p + 3)
  return b₀ ++ b₁ ++ b₂ ++ b₃

/-- The case `TCPOPT_MAXSEG`. -/
def maxSegR (flags : TcpFlags) (opt : ℕ) (s : TcpSocket) : Reads Byte TcpSocket :=
  if flags.syn then do
    let maxSeg : Word ← readWordR (opt + 2)
    let maxSeg : Dword := maxSeg.setWidth 32
    return if s.maxSeg = 0 ∨ maxSeg < s.maxSeg then { s with maxSeg := maxSeg } else s
  else pure s

/-- Whether the values of a time stamp are taken: on a SYN, or with an ACK when `seqnum` is not `recv_next`. -/
def takesStamp (hdr : TcpHeader) (flags : TcpFlags) (recvNext : Dword) : Bool :=
  flags.syn ∨ (flags.ack ∧ hdr.seqnum - recvNext ≠ 0)

/-- The case `TCPOPT_TIMESTAMP`. -/
def timestampR (hdr : TcpHeader) (flags : TcpFlags) (opt : ℕ) (s : TcpSocket) : Reads Byte TcpSocket :=
  if takesStamp hdr flags s.rx.recvNext then do
    let recent ← readDwordR (opt + 2)
    let echo ← readDwordR (opt + 6)
    return { s with tsRecent := recent, tsEcho := echo, locflags := { s.locflags with useTstamp := true } }
  else pure s

/-- The case `TCPOPT_WINDOW`. -/
def windowR (flags : TcpFlags) (opt : ℕ) (s : TcpSocket) : Reads Byte TcpSocket :=
  if flags.syn then do
    let shift ← cell (opt + 2)
    return { s with
      rxWscale := if 14 < shift.toNat then 14 else shift
      locflags := { s.locflags with rcvdScale := true } }
  else pure s

/-- The loop of `tcp_process_options`, `num` options at most. -/
def processOptionsR (hdr : TcpHeader) (tcpData : ℕ) (flags : TcpFlags) :
    (num opt : ℕ) → TcpSocket → Reads Byte TcpSocket
  | 0, _, s => pure s
  | num + 1, opt, s =>
    if tcpData ≤ opt then pure s else do
    let kind ← cell opt
    match kind.toNat with
    | 0 => pure s
    | 1 => processOptionsR hdr tcpData flags num (opt + 1) s
    | 2 => do
      let s ← maxSegR flags opt s
      processOptionsR hdr tcpData flags num (opt + 4) s
    | 8 => do
      let s ← timestampR hdr flags opt s
      processOptionsR hdr tcpData flags num (opt + 10) s
    | 3 => do
      let s ← windowR flags opt s
      processOptionsR hdr tcpData flags num (opt + 3) s
    | 4 =>
      let s := if flags.syn then { s with locflags := { s.locflags with sackPermit := true } } else s
      processOptionsR hdr tcpData flags num (opt + 2) s
    | 14 => processOptionsR hdr tcpData flags num (opt + 3) s
    | _ => do
      let len ← cell (opt + 1)
      processOptionsR hdr tcpData flags num (opt + len.toNat) s

/-- `tcp_process_options`. -/
def tcpProcessOptionsR (s : TcpSocket) (hdr : TcpHeader) (tcpData : ℕ) (flags : TcpFlags) :
    Reads Byte TcpSocket :=
  processOptionsR hdr tcpData flags 10 20 { s with locflags := { s.locflags with useTstamp := false } }

section Eval

variable {m : ℕ → Byte} {hdr : TcpHeader} {flags : TcpFlags} {opt d : ℕ} {s : TcpSocket}

@[simp] theorem eval_readWordR : eval m (readWordR opt) = readWord m opt := rfl

@[simp] theorem eval_readDwordR : eval m (readDwordR opt) = readDword m opt := rfl

theorem eval_maxSegR : eval m (maxSegR flags opt s) =
    if flags.syn ∧ (s.maxSeg = 0 ∨ (readWord m (opt + 2)).setWidth 32 < s.maxSeg) then
      { s with maxSeg := (readWord m (opt + 2)).setWidth 32 } else s := by
  unfold maxSegR
  by_cases h : flags.syn = true
  · simp only [h, true_and]
    rfl
  · simp only [h]
    rfl

theorem eval_timestampR : eval m (timestampR hdr flags opt s) =
    if flags.syn ∨ (flags.ack ∧ hdr.seqnum - s.rx.recvNext ≠ 0) then
      { s with
        tsRecent := readDword m (opt + 2)
        tsEcho := readDword m (opt + 6)
        locflags := { s.locflags with useTstamp := true } } else s := by
  unfold timestampR takesStamp
  simp only [decide_eq_true_eq]
  split_ifs <;> rfl

theorem eval_windowR : eval m (windowR flags opt s) =
    if flags.syn then
      { s with
        rxWscale := if 14 < (m (opt + 2)).toNat then 14 else m (opt + 2)
        locflags := { s.locflags with rcvdScale := true } } else s := by
  unfold windowR
  by_cases h : flags.syn = true
  · rw [if_pos h, if_pos h]
    rfl
  · rw [if_neg h, if_neg h]
    rfl

/-- **The program is the loop.** -/
theorem eval_processOptionsR (seg : InSegment) (d : ℕ) (flags : TcpFlags) (num opt : ℕ) (s : TcpSocket) :
    eval seg.mem (processOptionsR seg.hdr d flags num opt s) = processOptions seg d flags num opt s := by
  induction num generalizing opt s with
  | zero => rfl
  | succ num ih =>
    unfold processOptionsR processOptions
    by_cases hd : d ≤ opt
    · rw [if_pos hd, if_pos hd, eval_pure]
    · rw [if_neg hd, if_neg hd, eval_bind, eval_cell]
      generalize (seg.mem opt).toNat = kind
      split <;> simp [eval_maxSegR, eval_timestampR, eval_windowR, ih]

theorem eval_tcpProcessOptionsR (s : TcpSocket) (seg : InSegment) (d : ℕ) (flags : TcpFlags) :
    eval seg.mem (tcpProcessOptionsR s seg.hdr d flags) = tcpProcessOptions s seg d flags :=
  eval_processOptionsR seg d flags 10 20 _

/-- The options leave `recv_next` alone. -/
theorem maxSegR_recvNext : (eval m (maxSegR flags opt s)).rx = s.rx := by
  rw [eval_maxSegR]; split_ifs <;> rfl

theorem timestampR_recvNext : (eval m (timestampR hdr flags opt s)).rx = s.rx := by
  rw [eval_timestampR]; split_ifs <;> rfl

theorem windowR_recvNext : (eval m (windowR flags opt s)).rx = s.rx := by
  rw [eval_windowR]; split_ifs <;> rfl

/-! ## The indices -/

theorem within_readWordR {P : ℕ → Prop} : Within P m (readWordR opt) ↔ P opt ∧ P (opt + 1) := by
  simp [readWordR]

theorem within_readDwordR {P : ℕ → Prop} :
    Within P m (readDwordR opt) ↔ P opt ∧ P (opt + 1) ∧ P (opt + 2) ∧ P (opt + 3) := by
  simp [readDwordR]

theorem within_maxSegR : Within (· < d) m (maxSegR flags opt s) ↔ (flags.syn → opt + 3 < d) := by
  unfold maxSegR
  split_ifs with h
  · simp only [within_bind, within_readWordR, within_pure, and_true, h, forall_const]
    omega
  · simp [h]

theorem within_timestampR : Within (· < d) m (timestampR hdr flags opt s) ↔
    (takesStamp hdr flags s.rx.recvNext → opt + 9 < d) := by
  unfold timestampR
  split_ifs with h
  · simp only [within_bind, within_readDwordR, within_pure, and_true, h, forall_const]
    omega
  · simp [h]

theorem within_windowR : Within (· < d) m (windowR flags opt s) ↔ (flags.syn → opt + 2 < d) := by
  unfold windowR
  split_ifs with h <;> simp [h]

end Eval

/-! ## The option area -/

/-- The bytes from `opt` up to the end of the option area. -/
def optionArea (m : ℕ → Byte) (d opt : ℕ) : List Byte := Mem.slice m opt (d - opt)

section Area

variable {m : ℕ → Byte} {d opt : ℕ}

theorem optionArea_of_le (h : d ≤ opt) : optionArea m d opt = [] := by
  rw [optionArea, Nat.sub_eq_zero_of_le h, Mem.slice_zero]

theorem optionArea_of_lt (h : opt < d) : optionArea m d opt = m opt :: optionArea m d (opt + 1) := by
  obtain ⟨n, rfl⟩ : ∃ n, d = opt + (1 + n) := ⟨d - opt - 1, by omega⟩
  have hn : opt + (1 + n) - (opt + 1) = n := by omega
  rw [optionArea, optionArea, Nat.add_sub_cancel_left, hn, Mem.slice_add]
  rfl

theorem drop_optionArea (k : ℕ) : (optionArea m d opt).drop k = optionArea m d (opt + k) := by
  rw [optionArea, Mem.drop_slice, Nat.sub_sub]
  rfl

@[simp] theorem length_optionArea : (optionArea m d opt).length = d - opt := Mem.length_slice

end Area

/-- Every option met in the area has the bytes that are read of it: the value of an MSS or a window
scale on a SYN (`syn`), the two values of a time stamp that is taken (`stamp`), the length of an
unknown option. -/
def Enclosed (syn stamp : Bool) : (num : ℕ) → List Byte → Bool
  | 0, _ => true
  | _ + 1, [] => true
  | num + 1, kind :: rest =>
    match kind.toNat with
    | 0 => true
    | 1 => Enclosed syn stamp num rest
    | 2 => (!syn || 3 ≤ rest.length) && Enclosed syn stamp num (rest.drop 3)
    | 8 => (!stamp || 9 ≤ rest.length) && Enclosed syn stamp num (rest.drop 9)
    | 3 => (!syn || 2 ≤ rest.length) && Enclosed syn stamp num (rest.drop 2)
    | 4 => Enclosed syn stamp num (rest.drop 1)
    | 14 => Enclosed syn stamp num (rest.drop 2)
    | _ =>
      match rest with
      | [] => false
      | len :: _ => Enclosed syn stamp num ((kind :: rest).drop len.toNat)

/-- The options of a segment are enclosed in the state they meet. -/
def OptionsEnclosed (s : TcpSocket) (seg : InSegment) (flags : TcpFlags) : Prop :=
  Enclosed flags.syn (takesStamp seg.hdr flags s.rx.recvNext) 10 (optionArea seg.mem seg.hdr.dataOfs 20)

/-- What `tcp_process_options` sets. -/
def TcpSocket.optFields (s : TcpSocket) : Dword × Byte × Dword × Dword × LocFlags :=
  (s.maxSeg, s.rxWscale, s.tsRecent, s.tsEcho, s.locflags)

/-- `tcp_process_options` reads inside the option area only, and a segment that differs only
outside its header and its options is processed alike. -/
def Confined (s : TcpSocket) (seg : InSegment) (flags : TcpFlags) : Prop :=
  Within (fun a => 20 ≤ a ∧ a < seg.hdr.dataOfs) seg.mem (tcpProcessOptionsR s seg.hdr seg.hdr.dataOfs flags) ∧
  ∀ seg' : InSegment, seg'.hdr = seg.hdr →
    (∀ a, 20 ≤ a → a < seg.hdr.dataOfs → seg'.mem a = seg.mem a) →
    (tcpProcessOptions s seg' seg'.hdr.dataOfs flags).optFields =
      (tcpProcessOptions s seg seg.hdr.dataOfs flags).optFields

section Walk

variable {m : ℕ → Byte} {hdr : TcpHeader} {flags : TcpFlags} {d : ℕ}

/-- Nothing in front of the option at hand is read. -/
theorem within_from (num opt : ℕ) (s : TcpSocket) :
    Within (opt ≤ ·) m (processOptionsR hdr d flags num opt s) := by
  induction num generalizing opt s with
  | zero => exact within_pure
  | succ num ih =>
    have hnext (k : ℕ) (s : TcpSocket) : Within (opt ≤ ·) m (processOptionsR hdr d flags num (opt + k) s) :=
      (ih (opt + k) s).mono fun a ha => (Nat.le_add_right opt k).trans ha
    unfold processOptionsR
    by_cases hd : d ≤ opt
    · rw [if_pos hd]
      exact within_pure
    · rw [if_neg hd, within_bind, within_cell, eval_cell]
      refine ⟨le_rfl, ?_⟩
      split
      · exact within_pure
      · exact hnext 1 s
      · refine within_bind.mpr ⟨?_, hnext 4 _⟩
        unfold maxSegR
        split_ifs <;> simp [within_readWordR]
        omega
      · refine within_bind.mpr ⟨?_, hnext 10 _⟩
        unfold timestampR
        split_ifs <;> simp [within_readDwordR]
        omega
      · refine within_bind.mpr ⟨?_, hnext 3 _⟩
        unfold windowR
        split_ifs <;> simp
      · exact hnext 2 _
      · exact hnext 3 s
      · exact within_bind.mpr ⟨by simp, hnext _ s⟩

/-- One walk over the area: reading inside it is having enclosed options. -/
theorem within_area_iff {stamp : Bool} (num opt : ℕ) (s : TcpSocket)
    (hs : takesStamp hdr flags s.rx.recvNext = stamp) :
    Within (· < d) m (processOptionsR hdr d flags num opt s) ↔
      Enclosed flags.syn stamp num (optionArea m d opt) := by
  induction num generalizing opt s with
  | zero => exact iff_of_true within_pure rfl
  | succ num ih =>
    unfold processOptionsR
    by_cases hd : d ≤ opt
    · rw [if_pos hd, optionArea_of_le hd]
      exact iff_of_true within_pure rfl
    · rw [if_neg hd, within_bind, within_cell, eval_cell, optionArea_of_lt (not_le.mp hd)]
      have hlt : opt < d := not_le.mp hd
      unfold Enclosed
      simp only [hlt, true_and]
      split
      · exact iff_of_true within_pure rfl
      · exact ih (opt + 1) s hs
      · rw [within_bind, within_maxSegR, ih (opt + 4) _ (by rw [maxSegR_recvNext, hs]), drop_optionArea]
        simp only [Bool.and_eq_true, Bool.or_eq_true, Bool.not_eq_true', decide_eq_true_eq, length_optionArea]
        refine and_congr_left' ?_
        cases flags.syn <;> simp
        omega
      · rw [within_bind, within_timestampR, ih (opt + 10) _ (by rw [timestampR_recvNext, hs]), drop_optionArea, hs]
        simp only [Bool.and_eq_true, Bool.or_eq_true, Bool.not_eq_true', decide_eq_true_eq, length_optionArea]
        refine and_congr_left' ?_
        cases stamp <;> simp
        omega
      · rw [within_bind, within_windowR, ih (opt + 3) _ (by rw [windowR_recvNext, hs]), drop_optionArea]
        simp only [Bool.and_eq_true, Bool.or_eq_true, Bool.not_eq_true', decide_eq_true_eq, length_optionArea]
        refine and_congr_left' ?_
        cases flags.syn <;> simp
        omega
      · rw [drop_optionArea]
        exact ih (opt + 2) _ (by split_ifs <;> exact hs)
      · rw [drop_optionArea]
        exact ih (opt + 3) s hs
      · rw [within_bind, within_cell, eval_cell, ih _ s hs]
        by_cases h1 : opt + 1 < d
        · rw [← drop_optionArea, optionArea_of_lt hlt, optionArea_of_lt h1]
          simp [h1]
        · rw [optionArea_of_le (not_lt.mp h1)]
          simp [h1]

end Walk

/-- **Payload and options**: `tcp_process_options` is confined to the option area exactly if its
options are enclosed. -/
theorem options_confined_iff (s : TcpSocket) (seg : InSegment) (flags : TcpFlags) :
    Confined s seg flags ↔ OptionsEnclosed s seg flags := by
  have hin : Within (fun a => 20 ≤ a ∧ a < seg.hdr.dataOfs) seg.mem
      (tcpProcessOptionsR s seg.hdr seg.hdr.dataOfs flags) ↔ OptionsEnclosed s seg flags := by
    rw [OptionsEnclosed, ← within_area_iff 10 20 { s with locflags := { s.locflags with useTstamp := false } } rfl]
    refine ⟨fun h => h.mono fun a ha => ha.2, fun h a ha => ⟨?_, h a ha⟩⟩
    exact within_from 10 20 _ a ha
  refine ⟨fun h => hin.mp h.1, fun h => ⟨hin.mpr h, fun seg' hhdr hmem => ?_⟩⟩
  have hread := hin.mpr h
  rw [← eval_tcpProcessOptionsR, ← eval_tcpProcessOptionsR, hhdr]
  rw [(agree_of_trace _ fun a ha => hmem a (hread a ha).1 (hread a ha).2).1]

/-! ## An option cut off -/

/-- A SYN with three NOPs and the kind of an MSS for options, `b` behind them. -/
def cutSegment (b : Byte) : InSegment :=
  { source := 2, destination := 1, tos := 0
    hdr := { srcPort := 80, dstPort := 1024, seqnum := 999, acknum := 1, offset := 6
             flags := flagSynAck, window := 4096 }
    flagsHi := 0, tcpLen := 40, mem := Mem.put (fun _ => b) 20 [1, 1, 1, 2] }

/-- The payload of two such segments sets `max_seg`. -/
theorem options_not_confined : ¬ ∀ (s : TcpSocket) (seg : InSegment) (flags : TcpFlags), Confined s seg flags := by
  intro h
  have hseg := (h (establishedConn []).s (cutSegment 1) flagSynAck).2 (cutSegment 2) rfl fun a h₁ h₂ => by
    show Mem.put (fun _ => 2) 20 [1, 1, 1, 2] a = Mem.put (fun _ => 1) 20 [1, 1, 1, 2] a
    obtain ⟨i, rfl⟩ := Nat.exists_eq_add_of_le h₁
    have hi : i < 4 := by change 20 + i < 24 at h₂; omega
    rw [Mem.put_of_mem hi, Mem.put_of_mem hi]
  revert hseg
  decide +kernel

end Watt32.Tcp
