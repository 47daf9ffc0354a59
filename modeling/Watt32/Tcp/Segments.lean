import Watt32.Tcp.Calls

/-!
# The segments of one call of `_tcp_send`

* `turnLen`, `turnData`: how many option bytes and data bytes a turn of the sending loop emits.
* `TurnSeg`: the segment of a turn, its data included as long as the data pointer was not moved.
* `Faithful`, `CallFaithful`: the segments carry the bytes their sequence numbers say.
* **`segment_fidelity_iff`**: a call is faithful, whatever the buffers hold, exactly if no segment
  with data follows one with options and `send_una` is not negative.
-/

namespace Watt32.Tcp

/-- The options of a segment, in bytes. -/
def OutSegment.optLen (seg : OutSegment) : ℕ := seg.hdr.dataOfs - 20

/-- The bytes of a segment from its header offset on. -/
def OutSegment.payload (seg : OutSegment) : List Byte := seg.body.drop seg.optLen

/-- The segment carries exactly the bytes of the transmit buffer its sequence number says, within
the peer's limits. -/
structure Faithful (s : TcpSocket) (seg : OutSegment) : Prop where
  bytes : seg.payload =
    Mem.slice s.tx.source (seg.hdr.seqnum - s.tx.sendNext).toNat seg.payload.length
  size : seg.payload.length ≤ s.maxSeg.toNat - seg.optLen
  window : 0 < seg.payload.length →
    (seg.hdr.seqnum - s.tx.sendNext).toNat + seg.payload.length ≤
      min s.tx.txDatalen.toNat s.window.toNat

/-- Each segment starts where the one before ends. -/
def Contiguous (segs : List OutSegment) : Prop :=
  segs.IsChain fun a b => b.hdr.seqnum = a.hdr.seqnum + BitVec.ofNat 32 a.payload.length

/-- All segments of a call are faithful, and they are contiguous. -/
structure CallFaithful (s : TcpSocket) (segs : List OutSegment) : Prop where
  each : ∀ seg ∈ segs, Faithful s seg
  contiguous : Contiguous segs

/-! ## Option lengths -/

/-- The length of the MD5 option. -/
def baseLen (s : TcpSocket) : ℕ := if s.locflags.noopt = false ∧ s.secret.isSome then 20 else 0

/-- The length of a time stamp that echoes the peer's. -/
def stampLen (e : Env) (s : TcpSocket) : ℕ :=
  if s.locflags.noopt = false ∧ e.cfg.optTs ∧ ¬ (s.flags.fin ∨ s.flags.rst) ∧ s.locflags.useTstamp
  then 12 else 0

/-- The length of the options of a SYN. -/
def synLen (e : Env) (s : TcpSocket) : ℕ :=
  if s.locflags.noopt then 0 else if e.cfg.optTs then 16 else 4

/-- The length of the options of a turn. -/
def turnLen (e : Env) (s : TcpSocket) (first : Bool) : ℕ :=
  (if first && s.flags.syn then synLen e s else stampLen e s) + baseLen s

/-- `send_data_len` of a turn. -/
def turnData (e : Env) (l : SendLoop) (first : Bool) : ℤ := sendDataLen l first (turnLen e l.s first)

section Options

variable {e : Env} {s : TcpSocket} {buf : ℕ → Byte} {opt : ℕ} {isSyn : Bool}

theorem tcpOptions_len : (tcpOptions e s buf opt isSyn).len =
    (if isSyn then synLen e s else stampLen e s) + baseLen s := by
  unfold tcpOptions optionsUnsigned synLen stampLen baseLen
  cases s.locflags.noopt <;> cases s.secret <;> cases isSyn <;> simp <;> split_ifs <;> rfl

theorem tcpOptions_signOpt {p : ℕ} (h : (tcpOptions e s buf opt isSyn).signOpt = some p) :
    opt ≤ p ∧ p + 18 = opt + (tcpOptions e s buf opt isSyn).len := by
  unfold tcpOptions at h ⊢
  have hu : (optionsUnsigned e s buf opt isSyn).signOpt = none := by
    unfold optionsUnsigned
    split_ifs <;> rfl
  split_ifs at h ⊢ with hn
  cases hs : s.secret with
  | none => simp [hs, hu] at h
  | some k =>
    simp only [hs, Option.some.injEq] at h ⊢
    omega

theorem turnLen_le {first : Bool} : turnLen e s first ≤ 36 := by
  unfold turnLen synLen stampLen baseLen
  split_ifs <;> omega

theorem turnLen_dvd {first : Bool} : 4 ∣ turnLen e s first := by
  unfold turnLen synLen stampLen baseLen
  split_ifs <;> decide

end Options

/-! ## One turn -/

section Turn

variable {e : Env} {l : SendLoop} {first : Bool}

theorem sendOptions_len : (sendOptions e l first).len = turnLen e l.s first := tcpOptions_len

theorem sendOptions_tx : (sendOptions e l first).s.tx = l.s.tx :=
  (congrArg TcpSocket.tx (@tcpOptions_core e _ l.buf l.data _) :)

theorem sendOptions_flags : (sendOptions e l first).s.flags = l.s.flags := by
  unfold sendOptions tcpOptions optionsUnsigned
  split_ifs <;> cases l.s.secret <;> rfl

/-- The signature stays inside the options. -/
theorem finaliseMd5Sign_of_ge {s : TcpSocket} {hdr : TcpHeader} {n i : ℕ} {buf : ℕ → Byte}
    (hi : l.data + turnLen e l.s first ≤ i) :
    finaliseMd5Sign e s hdr n (sendOptions e l first).signOpt buf i = buf i := by
  unfold finaliseMd5Sign
  rcases s.secret with _ | secret
  · rfl
  · rcases hp : (sendOptions e l first).signOpt with _ | p
    · rfl
    · have := tcpOptions_signOpt hp
      rw [← sendOptions_len, sendOptions] at hi
      dsimp only
      exact Mem.put_of_ge (by simp; omega)

/-- The segment of a turn. -/
structure TurnSeg (e : Env) (l : SendLoop) (first : Bool) (seg : OutSegment) : Prop where
  segs : (sendSegment e l first).segs = l.segs ++ [seg]
  seqnum : seg.hdr.seqnum = l.s.tx.sendNext + BitVec.ofInt 32 l.startData
  optLen : seg.optLen = turnLen e l.s first
  fin : seg.hdr.flags.fin = l.s.flags.fin
  payload : seg.payload =
    Mem.slice (sendSegment e l first).buf (turnLen e l.s first) (turnData e l first).toNat

theorem sendSegment_seg : ∃ seg, TurnSeg e l first seg := by
  have hlen := @sendOptions_len e l first
  have hle : turnLen e l.s first ≤ 36 := turnLen_le
  have hdvd : 4 ∣ turnLen e l.s first := turnLen_dvd
  have hofs : ∀ hdr : TcpHeader, hdr.offset = BitVec.ofNat 4 ((20 + turnLen e l.s first) / 4) →
      hdr.dataOfs - 20 = turnLen e l.s first := by
    intro hdr h
    rw [TcpHeader.dataOfs, h, BitVec.toNat_ofNat, Nat.mod_eq_of_lt (by omega)]
    omega
  refine ⟨_, rfl, ?_, ?_, ?_, ?_⟩
  · dsimp only
    split_ifs <;> rfl
  · refine hofs _ ?_
    dsimp only
    rw [hlen]
    split_ifs <;> rfl
  · dsimp only
    split_ifs <;> rfl
  · unfold OutSegment.payload OutSegment.optLen
    rw [hofs]
    · dsimp only
      rw [Mem.drop_slice, hlen, Nat.zero_add, Nat.add_sub_cancel_left]
      simp only [sendSegment, hlen]
      rfl
    · dsimp only
      rw [hlen]
      split_ifs <;> rfl

/-- While the data pointer has not moved, the payload is the data from `start_data` on. -/
theorem TurnSeg.bytes {seg : OutSegment} (h : TurnSeg e l first seg)
    (hd : l.data = 0 ∨ turnData e l first ≤ 0) :
    seg.payload = Mem.slice (l.s.tx.sourceFrom l.startData) 0 (turnData e l first).toNat := by
  rw [h.payload]
  rcases le_or_gt (turnData e l first) 0 with hn | hn
  · rw [Int.toNat_of_nonpos hn, Mem.slice_zero, Mem.slice_zero]
  refine Mem.slice_congr fun i hi => ?_
  have hd := hd.resolve_right (by omega)
  unfold sendSegment
  dsimp only
  rw [finaliseMd5Sign_of_ge (by omega), sendOptions_len, sendOptions_tx]
  have hn' : 0 < sendDataLen l first (turnLen e l.s first) := hn
  rw [if_pos hn', hd, Nat.zero_add, Mem.blit_of_mem (by omega) (by unfold turnData at hi; omega)]
  congr 1
  omega

theorem sendSegment_data : (sendSegment e l first).data = l.data + turnLen e l.s first := by
  rw [← sendOptions_len]; rfl

theorem sendSegment_startData :
    (sendSegment e l first).startData = l.startData + max 0 (turnData e l first) := by
  have h : turnData e l first = sendDataLen l first (sendOptions e l first).len := by
    rw [sendOptions_len]; rfl
  rw [h]
  unfold sendSegment
  dsimp only
  split_ifs <;> omega

theorem sendSegment_sendTotData :
    (sendSegment e l first).sendTotData = l.sendTotData - max 0 (turnData e l first) := by
  have h : turnData e l first = sendDataLen l first (sendOptions e l first).len := by
    rw [sendOptions_len]; rfl
  rw [h]
  unfold sendSegment
  dsimp only
  split_ifs <;> omega

/-- A time stamp is echoed once. -/
theorem sendSegment_stampLen : stampLen e (sendSegment e l first).s =
    if first && l.s.flags.syn then stampLen e l.s else 0 := by
  have hs : stampLen e (sendSegment e l first).s = stampLen e (sendOptions e l first).s := by
    unfold sendSegment
    dsimp only
    split_ifs <;> rfl
  rw [hs]
  unfold sendOptions tcpOptions optionsUnsigned stampLen
  cases hn : l.s.locflags.noopt <;> cases l.s.secret <;> cases hf : first && l.s.flags.syn <;>
    simp [hn] <;> split_ifs <;> simp_all

end Turn

/-! ## All turns -/

/-- `start_data` and `send_tot_data` on entry. -/
def sendFrom (s : TcpSocket) : ℤ := (sendStart s fun _ => 0).startData

def sendTotal (s : TcpSocket) : ℤ := (sendStart s fun _ => 0).sendTotData

/-- The length of the options of turn `j`, the first turn being turn 0. -/
def laterLen (e : Env) (s : TcpSocket) (j : ℕ) : ℕ :=
  (if s.flags.syn ∧ j = 1 then stampLen e s else 0) + baseLen s

/-- The room for data in turn `j`. -/
def laterFree (e : Env) (s : TcpSocket) (j : ℕ) : ℤ :=
  int (s.maxSeg - BitVec.ofNat 32 (laterLen e s j))

/-- The loop variables before turn `j`. -/
def turns (e : Env) (first : Bool) (l : SendLoop) : ℕ → SendLoop
  | 0 => l
  | j + 1 => sendSegment e (turns e first l j) (first && j == 0)

section Loop

variable {e : Env} {first : Bool} {l : SendLoop}

theorem turns_succ (j : ℕ) :
    turns e false (sendSegment e l first) j = turns e first l (j + 1) := by
  induction j with
  | zero => simp [turns]
  | succ j ih =>
    show sendSegment e (turns e false (sendSegment e l first) j) (false && _) =
      sendSegment e (turns e first l (j + 1)) (first && (j + 1 == 0))
    rw [ih]
    simp

/-- The loop ends with the turns, with a failed output, or with nothing left to send. -/
theorem sendLoop_turns {n : ℕ} {ok : List Bool} : ∃ m ≤ n,
    (sendLoop e n ok first l).1 = turns e first l m ∧
    (∀ j, j + 1 < m → ok.getD j true = true) ∧
    (m = n ∨ 0 < m ∧ (ok.getD (m - 1) true = false ∨ (turns e first l m).sendTotData ≤ 0)) := by
  induction n generalizing ok first l with
  | zero => exact ⟨0, le_rfl, rfl, by simp, .inl rfl⟩
  | succ n ih =>
    have hhead : ok.headD true = ok.getD 0 true := by cases ok <;> rfl
    have htail : ∀ j, ok.tail.getD j true = ok.getD (j + 1) true := by cases ok <;> simp
    unfold sendLoop
    dsimp only
    split_ifs with hok hleft
    · exact ⟨1, by omega, by simp [turns], by simp, .inr ⟨one_pos, .inl (hhead ▸ hok)⟩⟩
    · refine ⟨1, by omega, by simp [turns], by simp, .inr ⟨one_pos, .inr ?_⟩⟩
      simpa [turns] using hleft
    · obtain ⟨m, hm, hl, hoks, hend⟩ := @ih false (sendSegment e l first) ok.tail
      refine ⟨m + 1, by omega, hl.trans (turns_succ m), fun j hj => ?_, ?_⟩
      · rcases j with _ | j
        · rw [← hhead]; simpa using hok
        · rw [← htail]; exact hoks j (by omega)
      · rcases hend with h | ⟨h₀, h⟩
        · exact .inl (by omega)
        · refine .inr ⟨by omega, ?_⟩
          rw [htail, turns_succ] at h
          rwa [show m + 1 - 1 = m - 1 + 1 by omega]

/-- The segments of the turns. -/
theorem turns_segs : ∃ seg : ℕ → OutSegment,
    (∀ j, TurnSeg e (turns e first l j) (first && j == 0) (seg j)) ∧
    ∀ m, (turns e first l m).segs = l.segs ++ (List.range m).map seg := by
  choose seg hseg using fun j => @sendSegment_seg e (turns e first l j) (first && j == 0)
  refine ⟨seg, hseg, fun m => ?_⟩
  induction m with
  | zero => simp [turns]
  | succ m ih => rw [turns, (hseg m).segs, ih, List.range_succ, List.map_append, List.append_assoc]; rfl

end Loop

/-- The loop variables before turn `j` of a call on `s`. -/
structure AtTurn (e : Env) (s : TcpSocket) (j : ℕ) (l : SendLoop) : Prop where
  core : l.s.core = s.core
  stamp : stampLen e l.s = if j = 0 ∨ s.flags.syn ∧ j = 1 then stampLen e s else 0
  total : l.startData + l.sendTotData = sendFrom s + sendTotal s
  left : l.sendTotData ≤ sendTotal s

section Turns

variable {e : Env} {s : TcpSocket} {buf : ℕ → Byte} {j : ℕ} {l : SendLoop}

theorem atTurn_turns (j : ℕ) : AtTurn e s j (turns e true (sendStart s buf) j) := by
  induction j with
  | zero => exact ⟨rfl, by simp [turns]; rfl, rfl, le_rfl⟩
  | succ j ih =>
    have hsyn : (turns e true (sendStart s buf) j).s.flags.syn = s.flags.syn :=
      (congrArg (fun s => s.flags.syn) ih.core :)
    have htot := ih.total
    have hleft := ih.left
    refine ⟨sendSegment_core.trans ih.core, ?_, ?_, ?_⟩
    · rw [turns, sendSegment_stampLen, ih.stamp, hsyn]
      rcases j with _ | j <;> cases s.flags.syn <;> simp
    · rw [turns, sendSegment_startData, sendSegment_sendTotData]; omega
    · rw [turns, sendSegment_sendTotData]; omega

theorem AtTurn.turnLen_later (h : AtTurn e s j l) (hj : 0 < j) :
    turnLen e l.s false = laterLen e s j := by
  have hb : baseLen l.s = baseLen s := (congrArg baseLen h.core :)
  rw [turnLen, hb, laterLen]
  simp only [Bool.false_and, Bool.false_eq_true, if_false]
  rw [h.stamp]
  simp [hj.ne']

theorem AtTurn.turnData_later (h : AtTurn e s j l) (hj : 0 < j) :
    turnData e l false = min l.sendTotData (max 0 (laterFree e s j)) := by
  have hm : l.s.maxSeg = s.maxSeg := (congrArg TcpSocket.maxSeg h.core :)
  rw [turnData, h.turnLen_later hj, sendDataLen, laterFree, hm]
  rfl

/-! ## Faithful turns -/

theorem toNat_ofInt_of_nonneg {x : ℤ} (h : 0 ≤ x) (h' : x < 2 ^ 32) :
    ((BitVec.ofInt 32 x).toNat : ℤ) = x := by
  rw [BitVec.toNat_ofInt, Int.emod_eq_of_lt h (by exact_mod_cast h'), Int.toNat_of_nonneg h]

theorem toNat_ofInt_of_neg {x : ℤ} (h : x < 0) (h' : -2 ^ 32 ≤ x) :
    ((BitVec.ofInt 32 x).toNat : ℤ) = x + 2 ^ 32 := by
  rw [BitVec.toNat_ofInt]
  omega

theorem sendSize_lt : sendSize s < 2 ^ 31 := by
  unfold sendSize int
  exact BitVec.toInt_lt

/-- The size that can be sent is the smaller one of the data and the window. -/
theorem toNat_sendSize :
    ((if s.tx.txDatalen < s.window then s.tx.txDatalen else s.window).toNat : ℤ) =
      min s.tx.txDatalen.toNat s.window.toNat := by
  split_ifs with h <;> rw [BitVec.lt_def] at h <;> omega

theorem sendTotal_pos (h : 0 < sendTotal s) : sendFrom s + sendTotal s = sendSize s := by
  unfold sendFrom sendTotal sendStart at *
  dsimp only at *
  split_ifs at * <;> omega

theorem turnData_le {first : Bool} (h : 0 < turnData e l first) :
    turnData e l first ≤ l.sendTotData ∧
      turnData e l first ≤ int (l.s.maxSeg - BitVec.ofNat 32 (turnLen e l.s first)) := by
  unfold turnData sendDataLen at *
  split_ifs at * <;> omega

/-- The room in a segment is the rest of `max_seg`. -/
theorem int_sub_le {m : Dword} {n : ℕ} (hn : n ≤ 36) (h : 0 < int (m - BitVec.ofNat 32 n)) :
    int (m - BitVec.ofNat 32 n) ≤ (m.toNat - n : ℕ) := by
  have hof : (BitVec.ofNat 32 n).toNat = n := by rw [BitVec.toNat_ofNat, Nat.mod_eq_of_lt (by omega)]
  unfold int at *
  rw [BitVec.toInt_eq_toNat_cond] at *
  by_cases hlt : m < BitVec.ofNat 32 n
  · rw [BitVec.toNat_sub_of_lt hlt, hof] at *
    rw [BitVec.lt_def, hof] at hlt
    split_ifs at * <;> omega
  · rw [BitVec.toNat_sub_of_le (BitVec.not_lt.mp hlt), hof] at *
    split_ifs at * <;> omega

/-- What a turn needs to be faithful: if it carries data, the data pointer has not moved and the
data start inside the buffer. -/
def TurnOk (e : Env) (s : TcpSocket) (l : SendLoop) (first : Bool) : Prop :=
  0 < turnData e l first → l.data = 0 ∧ (0 ≤ l.startData ∨ sendSize s < 0)

theorem AtTurn.faithful {first : Bool} {seg : OutSegment} (h : AtTurn e s j l)
    (hseg : TurnSeg e l first seg) (hok : TurnOk e s l first) (hlong : -2 ^ 31 ≤ sendFrom s) :
    Faithful s seg := by
  have htx : l.s.tx = s.tx := (congrArg TcpSocket.tx h.core :)
  have hmax : l.s.maxSeg = s.maxSeg := (congrArg TcpSocket.maxSeg h.core :)
  have hoff : seg.hdr.seqnum - s.tx.sendNext = BitVec.ofInt 32 l.startData := by
    rw [hseg.seqnum, htx]; exact add_sub_cancel_left _ _
  rcases le_or_gt (turnData e l first) 0 with hn | hn
  · have hnil : seg.payload = [] := by
      rw [hseg.payload, Int.toNat_of_nonpos hn, Mem.slice_zero]
    exact ⟨by rw [hnil]; rfl, by simp [hnil], by simp [hnil]⟩
  obtain ⟨hd, hside⟩ := hok hn
  have hbytes := hseg.bytes (.inl hd)
  have hlen : (seg.payload.length : ℤ) = turnData e l first := by
    rw [hbytes, Mem.length_slice, Int.toNat_of_nonneg hn.le]
  obtain ⟨hleft, hfree⟩ := turnData_le hn
  have hsize := sendTotal_pos (lt_of_lt_of_le (lt_of_lt_of_le hn hleft) h.left)
  have htotal := h.total
  have hle := h.left
  have hlt := @sendSize_lt s
  have hidx : ∀ x : ℤ, 0 ≤ x → x ≤ turnData e l first →
      ((BitVec.ofInt 32 (l.startData + x)).toNat : ℤ) =
        (BitVec.ofInt 32 l.startData).toNat + x ∨ x = turnData e l first := by
    intro x h₀ h₁
    rcases hside with hs | hs
    · rw [toNat_ofInt_of_nonneg hs (by omega), toNat_ofInt_of_nonneg (by omega) (by omega)]
      exact .inl rfl
    · rw [toNat_ofInt_of_neg (x := l.startData) (by omega) (by omega)]
      rcases eq_or_lt_of_le h₁ with heq | hlt'
      · exact .inr heq
      · rw [toNat_ofInt_of_neg (by omega) (by omega)]
        exact .inl (by ring)
  refine ⟨?_, ?_, fun _ => ?_⟩
  · rw [hbytes, Mem.length_slice, hoff]
    refine Mem.slice_congr fun i hi => ?_
    have := (hidx i (by omega) (by omega)).resolve_right (by omega)
    simp only [TxBuf.sourceFrom, Nat.zero_add, htx]
    congr 1
    omega
  · have := int_sub_le turnLen_le (lt_of_lt_of_le hn hfree)
    rw [hseg.optLen, ← hmax]
    omega
  · rw [hoff]
    have hmin := @toNat_sendSize s
    have hs : sendSize s = int (if s.tx.txDatalen < s.window then s.tx.txDatalen else s.window) :=
      rfl
    generalize (if s.tx.txDatalen < s.window then s.tx.txDatalen else s.window) = m at hs hmin
    rw [int, BitVec.toInt_eq_toNat_cond] at hs
    rcases hside with hside | hside
    · have := toNat_ofInt_of_nonneg hside (by omega)
      split_ifs at hs <;> omega
    · have := toNat_ofInt_of_neg (x := l.startData) (by omega) (by omega)
      split_ifs at hs <;> omega

theorem TurnSeg.length {first : Bool} {seg : OutSegment} (h : TurnSeg e l first seg) :
    seg.payload.length = (turnData e l first).toNat := by
  rw [h.payload, Mem.length_slice]

/-- The segments of a call are contiguous. -/
theorem turns_contiguous {m : ℕ} {seg : ℕ → OutSegment}
    (hseg : ∀ j, TurnSeg e (turns e true (sendStart s buf) j) (true && j == 0) (seg j)) :
    Contiguous ((List.range m).map seg) := by
  rw [Contiguous, List.isChain_map, List.isChain_range]
  intro j _
  have htx : ∀ i, (turns e true (sendStart s buf) i).s.tx = s.tx := fun i =>
    (congrArg TcpSocket.tx (@atTurn_turns e s buf i).core :)
  rw [(hseg _).seqnum, (hseg _).seqnum, (hseg _).length, htx, htx, turns, sendSegment_startData,
    BitVec.ofInt_add, add_assoc]
  congr 2
  rw [max_comm, ← Int.toNat_eq_max, BitVec.ofInt_natCast]

theorem callFaithful_of_turnOk {n : ℕ} {ok : List Bool} (hlong : -2 ^ 31 ≤ sendFrom s)
    (h : ∀ j < n, (∀ i < j, ok.getD i true = true) →
      TurnOk e s (turns e true (sendStart s buf) j) (true && j == 0)) :
    CallFaithful s (sendLoop e n ok true (sendStart s buf)).1.segs := by
  obtain ⟨m, hm, hl, hoks, -⟩ := @sendLoop_turns e true (sendStart s buf) n ok
  obtain ⟨seg, hseg, hsegs⟩ := @turns_segs e true (sendStart s buf)
  rw [hl, hsegs, show (sendStart s buf).segs = [] from rfl, List.nil_append]
  refine ⟨fun x hx => ?_, turns_contiguous hseg⟩
  obtain ⟨j, hj, rfl⟩ := List.mem_map.mp hx
  have hj := List.mem_range.mp hj
  exact (atTurn_turns j).faithful (hseg j) (h j (by omega) fun i hi => hoks i (by omega)) hlong

/-! ## The exact condition -/

/-- The data of the first turn. -/
def firstData (e : Env) (s : TcpSocket) : ℤ := turnData e (sendStart s fun _ => 0) true

/-- A turn after the first carries data. -/
def LaterData (e : Env) (s : TcpSocket) (ok : List Bool) : Prop :=
  0 < sendTotal s - max 0 (firstData e s) ∧
    ∃ j, 0 < j ∧ j < s.rtt.cwindow.toNat ∧ (∀ i < j, ok.getD i true = true) ∧ 0 < laterFree e s j

/-- Some turn carries data. -/
def SomeData (e : Env) (s : TcpSocket) (ok : List Bool) : Prop :=
  0 < s.rtt.cwindow.toNat ∧ 0 < firstData e s ∨ LaterData e s ok

/-- What a call needs: data are sent from inside the buffer, and data after the first segment only
if that has no options. -/
def SendOk (e : Env) (s : TcpSocket) (ok : List Bool) : Prop :=
  (SomeData e s ok → 0 ≤ sendFrom s ∨ sendSize s < 0) ∧
    (LaterData e s ok → turnLen e s true = 0)

theorem turns_left (hj : 0 < j) : (turns e true (sendStart s buf) j).sendTotData ≤
    sendTotal s - max 0 (firstData e s) := by
  induction j, hj using Nat.le_induction with
  | base => rw [turns, sendSegment_sendTotData]; rfl
  | succ j _ ih => rw [turns, sendSegment_sendTotData]; omega

theorem laterLen_eq_zero (h : turnLen e s true = 0) : laterLen e s j = 0 := by
  unfold laterLen
  unfold turnLen at h
  obtain ⟨h₁, h₂⟩ := Nat.add_eq_zero_iff.mp h
  rw [h₂, Nat.add_zero]
  split_ifs with hc
  · rw [Bool.true_and, if_pos hc.1, synLen] at h₁
    split_ifs at h₁ with hn
    simp [stampLen, hn]
  · rfl

/-- Without options in the first turn the data pointer never moves. -/
theorem turns_data (h : turnLen e s true = 0) : (turns e true (sendStart s buf) j).data = 0 := by
  induction j with
  | zero => rfl
  | succ j ih =>
    rw [turns, sendSegment_data, ih, Nat.zero_add]
    rcases j with _ | j
    · exact h
    · have hf : (true && j + 1 == 0) = false := by simp
      rw [hf, (atTurn_turns (j + 1)).turnLen_later (Nat.succ_pos j), laterLen_eq_zero h]

/-- Data in a later turn: there is room for it, and data are left. -/
theorem laterData_of_turnData {ok : List Bool} (hj : j < s.rtt.cwindow.toNat)
    (hoks : ∀ i < j, ok.getD i true = true) (hpos : 0 < j)
    (hn : 0 < turnData e (turns e true (sendStart s buf) j) false) : LaterData e s ok := by
  rw [(atTurn_turns j).turnData_later hpos] at hn
  have hle := @turns_left e s buf j hpos
  exact ⟨by omega, j, hpos, hj, hoks, by omega⟩

theorem SendOk.turnOk {ok : List Bool} (h : SendOk e s ok) (hj : j < s.rtt.cwindow.toNat)
    (hoks : ∀ i < j, ok.getD i true = true) :
    TurnOk e s (turns e true (sendStart s buf) j) (true && j == 0) := by
  intro hn
  have hat := @atTurn_turns e s buf j
  have hstart : sendFrom s ≤ (turns e true (sendStart s buf) j).startData := by
    have := hat.total
    have := hat.left
    omega
  rcases j with _ | j
  · refine ⟨rfl, (h.1 (.inl ⟨hj, hn⟩)).imp_left fun h₀ => h₀.trans hstart⟩
  · have hf : (true && j + 1 == 0) = false := by simp
    rw [hf] at hn
    have hlater := laterData_of_turnData hj hoks (Nat.succ_pos j) hn
    exact ⟨turns_data (h.2 hlater), (h.1 (.inr hlater)).imp_left fun h₀ => h₀.trans hstart⟩

/-! ## When it goes wrong -/

/-- A turn that is reached emits its segment. -/
theorem mem_segs {n : ℕ} {ok : List Bool} {seg : ℕ → OutSegment} {j : ℕ}
    (hsegs : ∀ m, (turns e true (sendStart s buf) m).segs = (List.range m).map seg) (hj : j < n)
    (hoks : ∀ i < j, ok.getD i true = true)
    (hleft : ∀ i, 0 < i → i ≤ j → 0 < (turns e true (sendStart s buf) i).sendTotData) :
    seg j ∈ (sendLoop e n ok true (sendStart s buf)).1.segs := by
  obtain ⟨m, hm, hl, -, hend⟩ := @sendLoop_turns e true (sendStart s buf) n ok
  rw [hl, hsegs, List.mem_map]
  refine ⟨j, List.mem_range.mpr ?_, rfl⟩
  by_contra hle
  rcases hend with h | ⟨h₀, h | h⟩
  · omega
  · rw [hoks (m - 1) (by omega)] at h
    cases h
  · exact absurd h (not_le.mpr (hleft m h₀ (by omega)))

/-- Turns without data leave everything to send. -/
theorem turns_dry {j₀ k : ℕ} (h : j₀ ≤ k) (hdry : ∀ i, j₀ ≤ i → i < k →
      turnData e (turns e true (sendStart s buf) i) (true && i == 0) ≤ 0) :
    (turns e true (sendStart s buf) k).sendTotData =
      (turns e true (sendStart s buf) j₀).sendTotData := by
  induction k, h using Nat.le_induction with
  | base => rfl
  | succ k hk ih =>
    have := hdry k hk (Nat.lt_succ_self k)
    rw [turns, sendSegment_sendTotData, ih fun i h₁ h₂ => hdry i h₁ (by omega)]
    omega

/-- The first turn with data from turn `j₀` on. -/
theorem first_data {j₀ : ℕ} (h : j₀ ≤ j)
    (hn : (turns e true (sendStart s buf) j).sendTotData =
        (turns e true (sendStart s buf) j₀).sendTotData →
      0 < turnData e (turns e true (sendStart s buf) j) (true && j == 0)) :
    ∃ k, j₀ ≤ k ∧ k ≤ j ∧ 0 < turnData e (turns e true (sendStart s buf) k) (true && k == 0) ∧
      ∀ i, j₀ ≤ i → i ≤ k → (turns e true (sendStart s buf) i).sendTotData =
        (turns e true (sendStart s buf) j₀).sendTotData := by
  have hex : ∃ k, j₀ ≤ k ∧ k ≤ j ∧
      0 < turnData e (turns e true (sendStart s buf) k) (true && k == 0) := by
    by_contra hc
    simp only [not_exists, not_and, not_lt] at hc
    exact absurd (hn (turns_dry h fun i h₁ h₂ => hc i h₁ h₂.le)) (not_lt.mpr (hc j h le_rfl))
  classical
  obtain ⟨h₁, h₂, h₃⟩ := Nat.find_spec hex
  refine ⟨_, h₁, h₂, h₃, fun i hi₁ hi₂ => turns_dry hi₁ fun i' hi'₁ hi'₂ => ?_⟩
  have := Nat.find_min hex (lt_of_lt_of_le hi'₂ hi₂)
  by_contra hc
  exact this ⟨hi'₁, (hi'₂.le.trans hi₂).trans h₂, not_le.mp hc⟩

/-! ### Two calls that differ in their contents only -/

/-- What the buffers hold, and the signature function. -/
structure Contents where
  txData : ℕ → Byte
  txQueue : ℕ → Byte
  pkt : ℕ → Byte
  md5 : List Byte → TcpHeader → List Byte → ℕ → Byte

/-- The control block with other contents. -/
def TcpSocket.holding (s : TcpSocket) (k : Contents) : TcpSocket :=
  { s with tx := { s.tx with txData := k.txData, txQueue := k.txQueue } }

/-- The environment with other contents. -/
def Env.holding (e : Env) (k : Contents) : Env :=
  { e with cfg := { e.cfg with md5 := k.md5 }, pkt := fun _ => k.pkt }

end Turns

/-- The memories agree below `n`. -/
def Agree (n : ℕ) (m m' : ℕ → Byte) : Prop := ∀ i < n, m i = m' i

section Agree

variable {m m' : ℕ → Byte} {n opt : ℕ} {e : Env} {s : TcpSocket} {isSyn : Bool}

theorem Agree.put (h : Agree n m m') (l : List Byte) :
    Agree (n + l.length) (Mem.put m n l) (Mem.put m' n l) := by
  intro i hi
  rcases lt_or_ge i n with hlt | hge
  · rw [Mem.put_of_lt hlt, Mem.put_of_lt hlt, h i hlt]
  · obtain ⟨j, rfl⟩ := Nat.exists_eq_add_of_le hge
    rw [Mem.put_of_mem (by omega), Mem.put_of_mem (by omega)]

theorem optionsUnsigned_agree (h : Agree opt m m') :
    Agree (opt + (optionsUnsigned e s m opt isSyn).len) (optionsUnsigned e s m opt isSyn).buf
      (optionsUnsigned e s m' opt isSyn).buf := by
  unfold optionsUnsigned
  split_ifs
  · exact (h.put (tcpOptMaxsegment s)).put
      (tcpOptTimestamp (setTimeout e 0 - e.cfg.startTime) 0)
  · exact h.put (tcpOptMaxsegment s)
  · exact h.put (tcpOptTimestamp (setTimeout e 0 - e.cfg.startTime) s.tsRecent)
  · exact h

/-- Options and signature overwrite whatever was there. -/
theorem sign_agree {b b' : ℕ → Byte} {l : List Byte} (hl : l.length = 16) (h : Agree n m m')
    (hb : ∀ i < n + 20, b i = tcpOptMd5Sign m n i) (hb' : ∀ i < n + 20, b' i = tcpOptMd5Sign m' n i) :
    Agree (n + 20) (Mem.put b (n + 2) l) (Mem.put b' (n + 2) l) := by
  intro i hi
  rcases lt_or_ge i (n + 2) with hlt | hge
  · have hlow : ∀ x, tcpOptMd5Sign x n i = Mem.put x n [19, 18] i := fun x =>
      Mem.put_of_lt (by omega)
    rw [Mem.put_of_lt hlt, Mem.put_of_lt hlt, hb i hi, hb' i hi, hlow, hlow]
    exact h.put [19, 18] i hlt
  rcases lt_or_ge i (n + 18) with hlt | hge'
  · obtain ⟨j, rfl⟩ := Nat.exists_eq_add_of_le hge
    rw [Mem.put_of_mem (by omega), Mem.put_of_mem (by omega)]
  · rw [Mem.put_of_ge (by omega), Mem.put_of_ge (by omega), hb i hi, hb' i hi]
    obtain ⟨j, rfl⟩ := Nat.exists_eq_add_of_le hge'
    have hj : j < [(1 : Byte), 1].length := by simp; omega
    rw [tcpOptMd5Sign, tcpOptMd5Sign, Mem.put_of_mem hj, Mem.put_of_mem hj]

/-- Options and signature do not depend on what the packet held behind the data pointer. -/
theorem tcpOptions_agree {b b' : ℕ → Byte} (h : Agree opt m m')
    (hb : ∀ i < opt + (tcpOptions e s m opt isSyn).len, b i = (tcpOptions e s m opt isSyn).buf i)
    (hb' : ∀ i < opt + (tcpOptions e s m' opt isSyn).len,
      b' i = (tcpOptions e s m' opt isSyn).buf i) :
    Agree (opt + (tcpOptions e s m opt isSyn).len)
      (match (tcpOptions e s m opt isSyn).signOpt with
        | none => b
        | some p => Mem.put b p (List.replicate 16 0))
      (match (tcpOptions e s m' opt isSyn).signOpt with
        | none => b'
        | some p => Mem.put b' p (List.replicate 16 0)) := by
  have hlen : (optionsUnsigned e s m' opt isSyn).len = (optionsUnsigned e s m opt isSyn).len := by
    unfold optionsUnsigned
    split_ifs <;> rfl
  have hnone : ∀ m, (optionsUnsigned e s m opt isSyn).signOpt = none := by
    intro m
    unfold optionsUnsigned
    split_ifs <;> rfl
  have hu := @optionsUnsigned_agree m m' opt e s isSyn h
  unfold tcpOptions at *
  split_ifs at * with hn
  · exact fun i hi => (hb i hi).trans ((h i hi).trans (hb' i hi).symm)
  · rcases hs : s.secret with _ | secret
    · simp only [hs] at hb hb' ⊢
      rw [hnone, hnone]
      rw [hlen] at hb'
      exact fun i hi => (hb i hi).trans ((hu i hi).trans (hb' i hi).symm)
    · simp only [hs] at hb hb' ⊢
      rw [hlen] at hb' ⊢
      rw [← Nat.add_assoc] at hb hb' ⊢
      exact sign_agree rfl hu hb hb'

end Agree

section Alike

variable {e : Env} {l l' : SendLoop} {first : Bool}

/-- The control block without the contents of its transmit buffers. -/
def TcpSocket.blank (s : TcpSocket) : TcpSocket :=
  { s with tx := { s.tx with txData := fun _ => 0, txQueue := fun _ => 0 } }

/-- `adv_win` as a turn sets it. -/
def TcpSocket.advertise (s : TcpSocket) : TcpSocket :=
  { s with advWin := s.rx.maxRxData - s.rx.rxDatalen }

/-- The loop variables differ in the data sent only. -/
structure Alike (l l' : SendLoop) : Prop where
  s : l.s.blank = l'.s.blank
  data : l.data = l'.data
  startData : l.startData = l'.startData
  sendTotData : l.sendTotData = l'.sendTotData
  buf : Agree l.data l.buf l'.buf

theorem optionsUnsigned_blank {s : TcpSocket} {m : ℕ → Byte} {opt : ℕ} {isSyn : Bool} :
    optionsUnsigned e s.blank m opt isSyn = { optionsUnsigned e s m opt isSyn with
      s := (optionsUnsigned e s m opt isSyn).s.blank } := by
  unfold optionsUnsigned TcpSocket.blank
  dsimp only
  split_ifs <;> rfl

theorem tcpOptions_blank {s : TcpSocket} {m : ℕ → Byte} {opt : ℕ} {isSyn : Bool} :
    tcpOptions e s.blank m opt isSyn = { tcpOptions e s m opt isSyn with
      s := (tcpOptions e s m opt isSyn).s.blank } := by
  unfold tcpOptions
  rw [optionsUnsigned_blank]
  by_cases hn : s.locflags.noopt
  · rw [if_pos hn, if_pos (show s.blank.locflags.noopt from hn)]
  · rw [if_neg hn, if_neg (show ¬ s.blank.locflags.noopt from hn)]
    have hb : s.blank.secret = s.secret := rfl
    rw [hb]
    cases s.secret <;> rfl

theorem turnData_congr (h : l.s.blank = l'.s.blank) (ht : l.sendTotData = l'.sendTotData) :
    turnData e l first = turnData e l' first := by
  have h₁ : ∀ l : SendLoop, turnData e l first = turnData e { l with s := l.s.blank } first :=
    fun _ => rfl
  rw [h₁ l, h₁ l', h]
  unfold turnData sendDataLen
  dsimp only
  rw [ht]

theorem tcpOptions_s {s : TcpSocket} {m m' : ℕ → Byte} {opt : ℕ} {isSyn : Bool} :
    (tcpOptions e s m opt isSyn).s = (tcpOptions e s m' opt isSyn).s := by
  unfold tcpOptions optionsUnsigned
  split_ifs <;> cases s.secret <;> rfl

theorem sendOptions_blank (h : Alike l l') :
    (sendOptions e l first).s.blank = (sendOptions e l' first).s.blank := by
  have hb : ∀ l : SendLoop, (sendOptions e l first).s.blank =
      (tcpOptions e l.s.blank.advertise (fun _ => 0) l.data (first && l.s.blank.flags.syn)).s := by
    intro l
    rw [sendOptions, @tcpOptions_s e _ _ fun _ => 0]
    exact (congrArg Options.s tcpOptions_blank).symm
  rw [hb l, hb l', h.s, h.data]

/-- Below the data the packet is what the options and the signature make it. -/
theorem sendSegment_buf (hmd5 : ∀ k hdr b, e.cfg.md5 k hdr b = fun _ => 0) :
    ∃ b : ℕ → Byte, (∀ i < l.data + turnLen e l.s first, b i = (sendOptions e l first).buf i) ∧
      (sendSegment e l first).buf =
        match (sendOptions e l first).signOpt with
        | none => b
        | some p => Mem.put b p (List.replicate 16 0) := by
  have hsign : ∀ (t : TcpSocket) (hdr : TcpHeader) (n : ℕ) (b : ℕ → Byte),
      t.secret = (sendOptions e l first).s.secret →
      finaliseMd5Sign e t hdr n (sendOptions e l first).signOpt b =
        match (sendOptions e l first).signOpt with
        | none => b
        | some p => Mem.put b p (List.replicate 16 0) := by
    intro t hdr n b ht
    have hsec : (sendOptions e l first).s.secret = l.s.secret :=
      (congrArg TcpSocket.secret (@tcpOptions_core e _ l.buf l.data _) :)
    unfold finaliseMd5Sign
    rw [ht, hsec]
    rcases hs : l.s.secret with _ | secret
    · have hnone : (sendOptions e l first).signOpt = none := by
        unfold sendOptions tcpOptions optionsUnsigned
        rw [hs]
        split_ifs <;> rfl
      rw [hnone]
    · rcases (sendOptions e l first).signOpt with _ | p
      · rfl
      · simp only [hmd5]
        rfl
  refine ⟨_, fun i hi => ?_, hsign _ _ _ _ ?_⟩
  · rw [sendOptions_len]
    split_ifs
    · exact Mem.blit_of_lt hi
    · rfl
  · split_ifs <;> rfl

/-- The options of a turn do not depend on the data. -/
theorem sendSegment_buf_agree (hmd5 : ∀ k hdr b, e.cfg.md5 k hdr b = fun _ => 0) (h : Alike l l') :
    Agree (l.data + turnLen e l.s first) (sendSegment e l first).buf
      (sendSegment e l' first).buf := by
  obtain ⟨b, hb, hbuf⟩ := @sendSegment_buf e l first hmd5
  obtain ⟨b', hb', hbuf'⟩ := @sendSegment_buf e l' first hmd5
  have hlen : turnLen e l'.s first = turnLen e l.s first := by
    have hbl : ∀ l : SendLoop, turnLen e l.s first = turnLen e l.s.blank first := fun _ => rfl
    rw [hbl l, hbl l', h.s]
  -- both calls of `tcp_options` on one control block
  have ho : ∀ l : SendLoop,
      let o := tcpOptions e l.s.blank.advertise l.buf l.data (first && l.s.blank.flags.syn)
      (sendOptions e l first).buf = o.buf ∧ (sendOptions e l first).signOpt = o.signOpt ∧
        o.len = turnLen e l.s first := by
    intro l o
    have ho : o = _ := tcpOptions_blank (s := l.s.advertise)
    rw [ho]
    exact ⟨rfl, rfl, sendOptions_len⟩
  obtain ⟨h₁, h₂, h₃⟩ := ho l
  obtain ⟨h₁', h₂', h₃'⟩ := ho l'
  rw [← h.s, ← h.data] at h₁' h₂' h₃'
  rw [h₁, ← h₃] at hb
  rw [h₁', ← h.data, ← h₃'] at hb'
  rw [hbuf, hbuf', h₂, h₂', ← h₃]
  exact tcpOptions_agree h.buf hb hb'

/-- **A turn keeps two calls alike.** -/
theorem Alike.step (hmd5 : ∀ k hdr b, e.cfg.md5 k hdr b = fun _ => 0) (h : Alike l l') :
    Alike (sendSegment e l first) (sendSegment e l' first) := by
  have hn : turnData e l first = turnData e l' first := turnData_congr h.s h.sendTotData
  have hlen : turnLen e l.s first = turnLen e l'.s first := by
    have hb : ∀ l : SendLoop, turnLen e l.s first = turnLen e l.s.blank first := fun _ => rfl
    rw [hb l, hb l', h.s]
  refine ⟨?_, ?_, ?_, ?_, ?_⟩
  · have hs : ∀ l : SendLoop, (sendSegment e l first).s.blank =
        let t := (sendOptions e l first).s.blank
        if decide (0 < turnData e l first) && decide (turnData e l first = l.sendTotData) &&
            t.flags.push then
          { t with flags := { t.flags with push := false } } else t := by
      intro l
      have hd : turnData e l first = sendDataLen l first (sendOptions e l first).len := by
        rw [sendOptions_len]; rfl
      rw [hd]
      unfold sendSegment
      dsimp only
      split_ifs <;> first | rfl | contradiction
    rw [hs l, hs l', sendOptions_blank h, hn, h.sendTotData]
  · rw [sendSegment_data, sendSegment_data, h.data, hlen]
  · rw [sendSegment_startData, sendSegment_startData, h.startData, hn]
  · rw [sendSegment_sendTotData, sendSegment_sendTotData, h.sendTotData, hn]
  · rw [sendSegment_data]
    exact sendSegment_buf_agree hmd5 h

theorem turns_alike (hmd5 : ∀ k hdr b, e.cfg.md5 k hdr b = fun _ => 0) (h : Alike l l') (j : ℕ) :
    Alike (turns e first l j) (turns e first l' j) := by
  induction j with
  | zero => exact h
  | succ j ih => exact ih.step hmd5

end Alike

/-! ## The law of a call -/

section Exact

variable {e : Env} {s : TcpSocket} {buf : ℕ → Byte} {ok : List Bool} {j : ℕ}

theorem turnLen_le_data (hj : 0 < j) :
    turnLen e s true ≤ (turns e true (sendStart s buf) j).data := by
  induction j, hj using Nat.le_induction with
  | base => rw [turns, sendSegment_data]; exact Nat.le_add_left _ _
  | succ j _ ih => rw [turns, sendSegment_data]; omega

/-- A turn with data that start before the buffer is not faithful. -/
theorem not_faithful_of_neg {seg : OutSegment} {l : SendLoop} {first : Bool} (h : AtTurn e s j l)
    (hseg : TurnSeg e l first seg) (hn : 0 < turnData e l first) (hneg : l.startData < 0)
    (hlong : -2 ^ 31 ≤ l.startData) (hsize : 0 ≤ sendSize s) : ¬ Faithful s seg := by
  intro hf
  have htx : l.s.tx = s.tx := (congrArg TcpSocket.tx h.core :)
  have hoff : seg.hdr.seqnum - s.tx.sendNext = BitVec.ofInt 32 l.startData := by
    rw [hseg.seqnum, htx]; exact add_sub_cancel_left _ _
  have hw := hf.window (by rw [hseg.length]; omega)
  rw [hoff] at hw
  have hk := toNat_ofInt_of_neg hneg (by omega)
  have hmin := @toNat_sendSize s
  have hs : sendSize s = int (if s.tx.txDatalen < s.window then s.tx.txDatalen else s.window) := rfl
  generalize (if s.tx.txDatalen < s.window then s.tx.txDatalen else s.window) = m at hs hmin
  rw [int, BitVec.toInt_eq_toNat_cond] at hs
  split_ifs at hs <;> omega

/-- A call with data sends them from inside the buffer. -/
theorem inside_of_faithful (hlong : -2 ^ 31 ≤ sendFrom s)
    (hf : CallFaithful s (sendLoop e s.rtt.cwindow.toNat ok true (sendStart s buf)).1.segs)
    (hd : SomeData e s ok) : 0 ≤ sendFrom s ∨ sendSize s < 0 := by
  by_contra hc
  rw [not_or, not_le, not_lt] at hc
  obtain ⟨j, hj, hoks, hn⟩ : ∃ j, j < s.rtt.cwindow.toNat ∧ (∀ i < j, ok.getD i true = true) ∧
      ((turns e true (sendStart s buf) j).sendTotData =
        (turns e true (sendStart s buf) 0).sendTotData →
        0 < turnData e (turns e true (sendStart s buf) j) (true && j == 0)) := by
    rcases hd with ⟨hpos, hn⟩ | ⟨hleft, j, hj, hlt, hoks, hfree⟩
    · exact ⟨0, hpos, fun i hi => absurd hi (Nat.not_lt_zero i), fun _ => hn⟩
    · refine ⟨j, hlt, hoks, fun heq => ?_⟩
      have hf : (true && j == 0) = false := by simp [hj.ne']
      have hT : (turns e true (sendStart s buf) 0).sendTotData = sendTotal s := rfl
      rw [hf, (atTurn_turns j).turnData_later hj, heq, hT]
      omega
  obtain ⟨k, -, hk, hdata, hdry⟩ := first_data (Nat.zero_le j) hn
  obtain ⟨seg, hseg, hsegs⟩ := @turns_segs e true (sendStart s buf)
  have hT : 0 < (turns e true (sendStart s buf) k).sendTotData :=
    lt_of_lt_of_le hdata (turnData_le hdata).1
  have hmem := @mem_segs e s buf s.rtt.cwindow.toNat ok seg k hsegs (by omega)
    (fun i hi => hoks i (by omega)) fun i _ hi => by
      rw [hdry i (Nat.zero_le i) hi, ← hdry k (Nat.zero_le k) le_rfl]; exact hT
  have hat := @atTurn_turns e s buf k
  have hstart : (turns e true (sendStart s buf) k).startData = sendFrom s := by
    have := hat.total
    rw [hdry k (Nat.zero_le k) le_rfl] at this
    exact add_right_cancel this
  exact not_faithful_of_neg hat (hseg k) hdata (by omega) (by omega) hc.2 (hf.each _ hmem)

/-- Everything in the buffers is `b`, the packet buffer is empty and signatures are zeros. -/
def plain (b : Byte) : Contents := ⟨fun _ => b, fun _ => b, fun _ => 0, fun _ _ _ _ => 0⟩

/-- Behind options, the byte a later segment with data sends first is not one of the data. -/
theorem plain_byte (b : Byte) (hf : CallFaithful (s.holding (plain b))
      (sendLoop e s.rtt.cwindow.toNat ok true (sendStart (s.holding (plain b)) buf)).1.segs)
    {k : ℕ} (hk : 0 < k) (hlt : k < s.rtt.cwindow.toNat) (hoks : ∀ i < k, ok.getD i true = true)
    (hn : 0 < turnData e (turns e true (sendStart (s.holding (plain b)) buf) k) false)
    (hleft : ∀ i, 0 < i → i ≤ k →
      0 < (turns e true (sendStart (s.holding (plain b)) buf) i).sendTotData) :
    (turns e true (sendStart (s.holding (plain b)) buf) (k + 1)).buf (laterLen e s k) = b := by
  obtain ⟨seg, hseg, hsegs⟩ := @turns_segs e true (sendStart (s.holding (plain b)) buf)
  have hmem := @mem_segs e (s.holding (plain b)) buf s.rtt.cwindow.toNat ok seg k hsegs hlt hoks hleft
  have hfaith := (hf.each _ hmem).bytes
  have hf : (true && k == 0) = false := by simp [hk.ne']
  have hpay := (hseg k).payload
  rw [hf, (atTurn_turns k).turnLen_later hk] at hpay
  have hlen : 0 < (seg k).payload.length := by
    rw [(hseg k).length, hf]
    omega
  have hsource : (s.holding (plain b)).tx.source = fun _ => b := by
    unfold TxBuf.source
    split_ifs <;> rfl
  have hbuf : sendSegment e (turns e true (sendStart (s.holding (plain b)) buf) k) false =
      turns e true (sendStart (s.holding (plain b)) buf) (k + 1) := by rw [turns, hf]
  have hb : (seg k).payload[0]? = some b := by
    rw [hfaith, hsource, Mem.getElem?_slice, if_pos hlen]
  rw [hpay, Mem.getElem?_slice, hbuf, if_pos (by omega)] at hb
  exact Option.some.inj hb

/-- A call with data in a later turn has no options in the first one. -/
theorem unmoved_of_faithful (hmd5 : ∀ k hdr b, e.cfg.md5 k hdr b = fun _ => 0)
    (hf : ∀ b, CallFaithful (s.holding (plain b))
      (sendLoop e s.rtt.cwindow.toNat ok true (sendStart (s.holding (plain b)) buf)).1.segs)
    (hd : LaterData e s ok) : turnLen e s true = 0 := by
  by_contra hne
  obtain ⟨hleft, j, hj, hlt, hoks, hfree⟩ := hd
  have hstart : ∀ b, Alike (sendStart (s.holding (plain 0)) buf)
      (sendStart (s.holding (plain b)) buf) := fun _ => ⟨rfl, rfl, rfl, rfl, fun _ _ => rfl⟩
  have halike := fun b k => @turns_alike e _ _ true hmd5 (hstart b) k
  have h₁ : 0 < (turns e true (sendStart (s.holding (plain 0)) buf) 1).sendTotData := by
    rw [turns, sendSegment_sendTotData]
    exact hleft
  obtain ⟨k, hk, hkj, hdata, hdry⟩ := @first_data e (s.holding (plain 0)) buf j 1 hj fun heq => by
    have hb : (true && j == 0) = false := by simp [(Nat.ne_of_gt hj)]
    rw [hb, (atTurn_turns j).turnData_later hj, heq]
    exact lt_min h₁ (lt_max_of_lt_right hfree)
  have hb : (true && k == 0) = false := by simp [(Nat.ne_of_gt hk)]
  rw [hb] at hdata
  -- the first byte a faithful segment would carry, in both calls
  have hbyte : ∀ b, (turns e true (sendStart (s.holding (plain b)) buf) (k + 1)).buf
      (laterLen e s k) = b := fun b => by
    refine plain_byte b (hf b) hk (by omega) (fun i hi => hoks i (by omega)) ?_ fun i hi hik => ?_
    · rwa [← turnData_congr (halike b k).s (halike b k).sendTotData]
    · rw [← (halike b i).sendTotData, hdry i hi hik]
      exact h₁
  have hagree := (halike 1 (k + 1)).buf (laterLen e s k) (by
    have := @turnLen_le_data e (s.holding (plain 0)) buf k hk
    have hlen : turnLen e (s.holding (plain 0)) true = turnLen e s true := rfl
    rw [turns, sendSegment_data, hb, (atTurn_turns k).turnLen_later hk]
    show laterLen e s k < _ + laterLen e s k
    omega)
  rw [hbyte 0, hbyte 1] at hagree
  exact absurd hagree (by decide)

/-- **Segment fidelity.** Whatever the buffers hold, a call of `_tcp_send` sends exactly the bytes
its sequence numbers say, in contiguous segments inside `max_seg`, the data and the peer's window,
if and only if the call is `SendOk`. -/
theorem segment_fidelity_iff (e : Env) (c : Conn) (hlong : -2 ^ 31 ≤ c.s.sendUna) :
    (∀ k : Contents, CallFaithful (c.s.holding k)
      (sendTurns (e.holding k) (c.upd fun s => s.holding k)).1.segs) ↔ SendOk e c.s c.txOk := by
  have hfrom : -2 ^ 31 ≤ sendFrom c.s := by
    unfold sendFrom sendStart
    dsimp only
    split_ifs <;> omega
  constructor
  · intro h
    refine ⟨fun hd => ?_, ?_⟩
    · exact inside_of_faithful (s := c.s.holding (plain 0)) (e := e.holding (plain 0)) hfrom
        (h (plain 0)) hd
    · exact unmoved_of_faithful (e := e.holding (plain 0)) (fun _ _ _ => rfl) fun b => h (plain b)
  · intro h k
    exact callFaithful_of_turnOk (s := c.s.holding k) (e := e.holding k) hfrom fun j hj hoks =>
      SendOk.turnOk (s := c.s.holding k) (e := e.holding k) h hj hoks

end Exact

/-! ## Time stamps -/

/-- Sixteen bytes to send, two segments allowed, `max_seg` 20, a time stamp to echo. -/
def stampConn : Conn :=
  let c := establishedConn []
  { c with s := { c.s with
    maxSeg := 20
    locflags := { c.s.locflags with useTstamp := true }
    rtt := { c.s.rtt with cwindow := 2 }
    tx := { c.s.tx with txData := fun i => BitVec.ofNat 8 (100 + i), txDatalen := 16 } } }

/-- The second segment has no options, and the first byte behind its header is an option. -/
theorem segment_fidelity_fails : ¬ CallFaithful stampConn.s
    (sendTurns { cfg := { optTs := true } } stampConn).1.segs := by
  intro h
  have hbytes : ∀ seg ∈ (sendTurns { cfg := { optTs := true } } stampConn).1.segs, seg.payload =
      Mem.slice stampConn.s.tx.source (seg.hdr.seqnum - stampConn.s.tx.sendNext).toNat
        seg.payload.length := fun seg hs => (h.each seg hs).bytes
  revert hbytes
  decide +kernel

theorem segment_fidelity_stampConn :
    (∀ k : Contents, CallFaithful (stampConn.s.holding k)
      (sendTurns (Env.holding {} k) (stampConn.upd fun s => s.holding k)).1.segs) ↔
    SendOk {} stampConn.s [] :=
  segment_fidelity_iff {} stampConn (by decide)

end Watt32.Tcp
