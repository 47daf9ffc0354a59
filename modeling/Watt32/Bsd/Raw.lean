import Watt32.Tcp.Receive

/-!
# Receiving on a raw socket

`raw_receive` of `receive.c` with `find_oldest_raw` and `find_oldest_raw6` of `pcbuf.c`. `from` is not filled
in here.

* `RawSlot`: a buffer of the socket; `findOldest`: the one whose packet is next.
* `rawReceive`: the call; `Round`: what happens between two looks at the buffers.
* `fronts`: the packets the call looks at.
* `Respects`: the caller's buffer is respected, and a long enough one gets the whole packet.
* **`raw_receive_iff`**: when this is so.
-/

namespace Watt32.RawSock

open Tcp (Memcpy readWord)

/-! ## The source -/

/-- The family of the socket. -/
inductive Family
  | inet | inet6
  deriving DecidableEq, Repr

/-- `_raw_Socket` and `_raw6_Socket`: the header is in `ip`. -/
structure RawSlot where
  used : Bool := false
  seqNum : Dword := 0
  ip : ℕ → Byte := fun _ => 0
  rxData : ℕ → Byte := fun _ => 0

/-- The fields of `Socket` that are read. The timeout is over when a `Round` says so; `setsockopt` keeps
`recv_lowat` below the size of `rx_data`. -/
structure Socket where
  soFamily : Family
  recvLowat : ℕ := 0
  nbio : Bool := false

/-- `hdr_len`: `sizeof(in_Header)` or `sizeof(in6_Header)`. -/
def Socket.hdrLen (s : Socket) : ℕ := if s.soFamily = .inet6 then 40 else 20

/-- `ip_len`: of an IPv4 packet with the header, of an IPv6 packet without it. -/
def Socket.ipLen (s : Socket) (raw : RawSlot) : ℕ :=
  (readWord raw.ip (if s.soFamily = .inet6 then 4 else 2)).toNat

/-- The loop of `find_oldest_raw`: the buffer number `s` is the oldest so far, `raw` comes next. -/
def oldestFrom (bufs : List RawSlot) : (n : ℕ) → (s raw : ℕ) → ℕ
  | 0, s, _ => s
  | n + 1, s, raw =>
    if (bufs.getD raw {}).used ∧ (bufs.getD raw {}).seqNum < (bufs.getD s {}).seqNum
    then oldestFrom bufs n raw (raw + 1) else oldestFrom bufs n s (raw + 1)

/-- `find_oldest_raw` and `find_oldest_raw6`. -/
def findOldest (bufs : List RawSlot) : Option ℕ :=
  let s := oldestFrom bufs bufs.length 0 0
  if (bufs.getD s {}).used then some s else none

/-- The packet that is next. -/
def front (bufs : List RawSlot) : Option RawSlot := (findOldest bufs).map fun i => bufs.getD i {}

/-- The low-water mark is reached. -/
def Socket.ready (s : Socket) (raw : RawSlot) : Bool := s.hdrLen + s.recvLowat ≤ s.ipLen raw

/-- The error codes of the call. -/
inductive Errno
  | einval | ewouldblock | etimedout | eintr
  deriving DecidableEq, Repr

/-- How a call ends: the result, the caller's buffer, what was copied to it, and the buffers of the socket. -/
structure Result where
  ret : ℤ
  errno : Option Errno
  buf : ℕ → Byte
  copies : List Memcpy
  bufs : List RawSlot

/-- A packet is handed to the caller. -/
def deliver (s : Socket) (buf : ℕ → Byte) (len : ℕ) (bufs : List RawSlot) (i : ℕ) : Result :=
  let raw := bufs.getD i {}
  let hdrLen := s.hdrLen
  let hdr := if s.soFamily = .inet6 then hdrLen else min hdrLen len
  let n := min (s.ipLen raw - hdrLen) len
  { ret := n + hdrLen
    errno := none
    buf := Mem.blit (Mem.blit buf 0 raw.ip 0 hdr) hdrLen raw.rxData 0 n
    copies := ⟨0, 0, hdr⟩ :: if 0 < n then [⟨hdrLen, 0, n⟩] else []
    bufs := bufs.modify i fun raw => { raw with used := false } }

/-- A call that fails. -/
def fail (errno : Errno) (buf : ℕ → Byte) (bufs : List RawSlot) : Result := ⟨-1, some errno, buf, [], bufs⟩

/-- A look at the buffers that finds nothing: is the time over, is there a signal, and what does the next
`tcp_tick` do to the buffers. -/
structure Round where
  timedOut : Bool := false
  sigPending : Bool := false
  tick : List RawSlot → List RawSlot := id

/-- A look at the buffers. -/
def look (s : Socket) (buf : ℕ → Byte) (len : ℕ) (bufs : List RawSlot) : Option Result :=
  match findOldest bufs with
  | some i => if s.ready (bufs.getD i {}) then some (deliver s buf len bufs i) else none
  | none => none

/-- The loop of `raw_receive`; `none` when it still waits after the rounds. -/
def rawLoop (s : Socket) (buf : ℕ → Byte) (len : ℕ) : List Round → List RawSlot → Option Result
  | [], bufs =>
    match look s buf len bufs with
    | some res => some res
    | none => if s.nbio then some (fail .ewouldblock buf bufs) else none
  | r :: rounds, bufs =>
    match look s buf len bufs with
    | some res => some res
    | none =>
      if s.nbio then some (fail .ewouldblock buf bufs)
      else if r.timedOut then some (fail .etimedout buf bufs)
      else if r.sigPending then some (fail .eintr buf bufs)
      else rawLoop s buf len rounds (r.tick bufs)

/-- `raw_receive`. -/
def rawReceive (s : Socket) (buf : ℕ → Byte) (len : ℕ) (rounds : List Round) (bufs : List RawSlot) : Option Result :=
  if len < s.hdrLen then some (fail .einval buf bufs) else rawLoop s buf len rounds bufs

/-! ## The law -/

/-- Header and payload of a packet. -/
def Socket.total (s : Socket) (raw : RawSlot) : ℕ :=
  if s.soFamily = .inet6 then s.hdrLen + s.ipLen raw else s.ipLen raw

/-- The packet. -/
def Socket.packet (s : Socket) (raw : RawSlot) : List Byte :=
  Mem.slice raw.ip 0 s.hdrLen ++ Mem.slice raw.rxData 0 (s.total raw - s.hdrLen)

/-- The packets that the loop looks at. -/
def loopFronts (s : Socket) : List Round → List RawSlot → List RawSlot
  | [], bufs => (front bufs).toList
  | r :: rounds, bufs =>
    (front bufs).toList ++
      if (front bufs).any s.ready ∨ s.nbio ∨ r.timedOut ∨ r.sigPending then []
      else loopFronts s rounds (r.tick bufs)

/-- The packets that the call looks at. -/
def fronts (s : Socket) (len : ℕ) (rounds : List Round) (bufs : List RawSlot) : List RawSlot :=
  if len < s.hdrLen then [] else loopFronts s rounds bufs

/-- The caller has the whole packet. -/
def Whole (s : Socket) (raw : RawSlot) (res : Option Result) : Prop :=
  ∃ r ∈ res, r.ret = s.total raw ∧ Mem.slice r.buf 0 (s.total raw) = s.packet raw

/-- The caller's buffer of `len` bytes is respected. -/
structure Respects (s : Socket) (len : ℕ) (raws : List RawSlot) (res : Option Result) : Prop where
  /-- Nothing is written behind the buffer. -/
  bounded : ∀ r ∈ res, ∀ c ∈ r.copies, c.dst + c.len ≤ len
  /-- The result is the number of bytes written. -/
  counted : ∀ r ∈ res, r.ret = -1 ∧ r.copies = [] ∨ r.ret = (r.copies.map Memcpy.len).sum
  /-- A packet beyond the low-water mark for which the buffer is long enough is received whole. -/
  whole : ∀ raw ∈ raws, s.hdrLen + s.recvLowat ≤ s.total raw → s.total raw ≤ len → Whole s raw res

/-- A packet that is handed over is not longer than the buffer, by its length field; an IPv6 packet beyond the
low-water mark is longer with its header. -/
def Fits (s : Socket) (len : ℕ) (raw : RawSlot) : Prop :=
  (s.ready raw = true → s.ipLen raw ≤ len) ∧
    (s.soFamily = .inet6 → s.recvLowat ≤ s.ipLen raw → len < s.hdrLen + s.ipLen raw)

/-! ## One packet -/

section Packet

variable {s : Socket} {buf : ℕ → Byte} {len i : ℕ} {bufs : List RawSlot}

theorem deliver_copies (hlen : s.hdrLen ≤ len) : (deliver s buf len bufs i).copies = ⟨0, 0, s.hdrLen⟩ ::
    if 0 < min (s.ipLen (bufs.getD i {}) - s.hdrLen) len
    then [⟨s.hdrLen, 0, min (s.ipLen (bufs.getD i {}) - s.hdrLen) len⟩] else [] := by
  unfold deliver
  simp only [min_eq_left hlen, ite_self]

theorem deliver_ret : (deliver s buf len bufs i).ret =
    ((min (s.ipLen (bufs.getD i {}) - s.hdrLen) len + s.hdrLen : ℕ) : ℤ) := (Nat.cast_add _ _).symm

theorem deliver_counted (hlen : s.hdrLen ≤ len) :
    (deliver s buf len bufs i).ret = ((deliver s buf len bufs i).copies.map Memcpy.len).sum := by
  rw [deliver_copies hlen, deliver_ret]
  generalize min (s.ipLen (bufs.getD i {}) - s.hdrLen) len = n
  congr 1
  split_ifs with hn
  · simp only [List.map_cons, List.map_nil, List.sum_cons, List.sum_nil]
    omega
  · simp only [List.map_cons, List.map_nil, List.sum_cons, List.sum_nil]
    omega

theorem hdrLen_pos : 0 < s.hdrLen := by
  unfold Socket.hdrLen
  split_ifs <;> decide

/-- A packet that is handed over stays inside the buffer exactly when its length field does. -/
theorem deliver_bounded (hlen : s.hdrLen ≤ len) (hready : s.ready (bufs.getD i {}) = true) :
    (∀ c ∈ (deliver s buf len bufs i).copies, c.dst + c.len ≤ len) ↔ s.ipLen (bufs.getD i {}) ≤ len := by
  have hle : s.hdrLen ≤ s.ipLen (bufs.getD i {}) := by
    have := of_decide_eq_true hready
    omega
  have hpos := hdrLen_pos (s := s)
  rw [deliver_copies hlen, List.forall_mem_cons]
  generalize s.ipLen (bufs.getD i {}) = ip at hle
  by_cases hn : 0 < min (ip - s.hdrLen) len
  · rw [if_pos hn, List.forall_mem_singleton]
    dsimp only
    omega
  · rw [if_neg hn]
    simp only [List.not_mem_nil, false_imp_iff, implies_true, and_true, zero_add]
    omega

theorem deliver_buf (hlen : s.hdrLen ≤ len) : (deliver s buf len bufs i).buf =
    Mem.blit (Mem.blit buf 0 (bufs.getD i {}).ip 0 s.hdrLen) s.hdrLen (bufs.getD i {}).rxData 0
      (min (s.ipLen (bufs.getD i {}) - s.hdrLen) len) := by
  unfold deliver
  simp only [min_eq_left hlen, ite_self]

/-- The header is in front. -/
theorem deliver_head (hlen : s.hdrLen ≤ len) {k : ℕ} (hk : k < s.hdrLen) :
    (deliver s buf len bufs i).buf k = (bufs.getD i {}).ip k := by
  rw [deliver_buf hlen, Mem.blit_of_lt hk, Mem.blit_of_mem (Nat.zero_le k) (by omega)]
  simp

/-- An IPv4 packet that fits is received whole. -/
theorem deliver_whole (hfam : s.soFamily ≠ .inet6) (hlen : s.hdrLen ≤ len)
    (hready : s.ready (bufs.getD i {}) = true) (hfit : s.ipLen (bufs.getD i {}) ≤ len) :
    Whole s (bufs.getD i {}) (some (deliver s buf len bufs i)) := by
  have hle : s.hdrLen ≤ s.ipLen (bufs.getD i {}) := by
    have := of_decide_eq_true hready
    omega
  have hmin : min (s.ipLen (bufs.getD i {}) - s.hdrLen) len = s.ipLen (bufs.getD i {}) - s.hdrLen := by omega
  have htotal : s.total (bufs.getD i {}) = s.ipLen (bufs.getD i {}) := if_neg hfam
  refine ⟨_, rfl, ?_, ?_⟩
  · rw [htotal, deliver_ret, hmin]
    congr 1
    omega
  · have hsum : s.total (bufs.getD i {}) = s.hdrLen + (s.total (bufs.getD i {}) - s.hdrLen) := by omega
    unfold Socket.packet
    conv_lhs => rw [hsum]
    rw [Mem.slice_add]
    congr 1
    · apply Mem.slice_congr
      intro k hk
      rw [Nat.zero_add]
      exact deliver_head hlen hk
    · rw [deliver_buf hlen, hmin, htotal, Nat.zero_add, Mem.slice_blit_self]

/-- No IPv6 packet is ever received whole. -/
theorem deliver_not_whole (hfam : s.soFamily = .inet6) (hlen : s.hdrLen ≤ len)
    (hready : s.ready (bufs.getD i {}) = true) (raw : RawSlot) :
    ¬ Whole s raw (some (deliver s buf len bufs i)) := by
  rintro ⟨r, hr, hret, hslice⟩
  obtain rfl := Option.some_inj.mp hr
  have hhdr : s.hdrLen = 40 := if_pos hfam
  have htotal : s.total raw = 40 + s.ipLen raw := by
    unfold Socket.total
    rw [if_pos hfam, hhdr]
  have hle : s.hdrLen ≤ s.ipLen (bufs.getD i {}) := by
    have := of_decide_eq_true hready
    omega
  -- the length field is among the bytes received
  have hhead : ∀ k < 40, (bufs.getD i {}).ip k = raw.ip k := by
    intro k hk
    have hget := congrArg (fun l => l[k]?) hslice
    unfold Socket.packet at hget
    rw [List.getElem?_append_left (by rw [Mem.length_slice]; omega), Mem.getElem?_slice, Mem.getElem?_slice,
      if_pos (by omega), if_pos (by omega), Nat.zero_add] at hget
    exact (deliver_head hlen (by omega)).symm.trans (Option.some_inj.mp hget)
  have hsame : s.ipLen (bufs.getD i {}) = s.ipLen raw := by
    unfold Socket.ipLen
    rw [if_pos hfam]
    unfold Tcp.readWord
    rw [hhead 4 (by omega), hhead 5 (by omega)]
  rw [htotal, deliver_ret, hsame] at hret
  rw [hsame] at hle
  have hret := Nat.cast_injective hret
  omega

end Packet

/-! ## The loop -/

section Loop

variable {s : Socket} {buf : ℕ → Byte} {len : ℕ} {rounds : List Round} {bufs : List RawSlot}

/-- How the loop ends: without a packet that is ready, or with the last one it looked at. -/
inductive Ends (s : Socket) (buf : ℕ → Byte) (len : ℕ) (raws : List RawSlot) : Option Result → Prop
  | waits (h : ∀ raw ∈ raws, s.ready raw = false) : Ends s buf len raws none
  | fails (h : ∀ raw ∈ raws, s.ready raw = false) (errno : Errno) (bufs : List RawSlot) :
      Ends s buf len raws (some (fail errno buf bufs))
  | delivers (bufs : List RawSlot) (i : ℕ) (before : List RawSlot) (hraws : raws = before ++ [bufs.getD i {}])
      (h : ∀ raw ∈ before, s.ready raw = false) (hready : s.ready (bufs.getD i {}) = true) :
      Ends s buf len raws (some (deliver s buf len bufs i))

theorem Ends.cons {raws before : List RawSlot} {res : Option Result} (h : Ends s buf len raws res)
    (hb : ∀ raw ∈ before, s.ready raw = false) : Ends s buf len (before ++ raws) res := by
  cases h with
  | waits h => exact .waits (List.forall_mem_append.mpr ⟨hb, h⟩)
  | fails h errno bufs => exact .fails (List.forall_mem_append.mpr ⟨hb, h⟩) errno bufs
  | delivers bufs i l hraws h hready =>
    refine .delivers bufs i (before ++ l) ?_ (List.forall_mem_append.mpr ⟨hb, h⟩) hready
    rw [hraws, List.append_assoc]

/-- A look that finds nothing to hand over. -/
theorem front_not_ready (h : look s buf len bufs = none) : ∀ raw ∈ (front bufs).toList, s.ready raw = false := by
  unfold look at h
  unfold front
  cases hf : findOldest bufs with
  | none => simp
  | some i =>
    rw [hf] at h
    dsimp only at h
    split_ifs at h with hready
    simpa using hready

/-- A look that finds a packet. -/
theorem front_ready {res : Result} (h : look s buf len bufs = some res) :
    ∃ i, front bufs = some (bufs.getD i {}) ∧ s.ready (bufs.getD i {}) = true ∧
      res = deliver s buf len bufs i := by
  unfold look at h
  unfold front
  cases hf : findOldest bufs with
  | none =>
    rw [hf] at h
    cases h
  | some i =>
    rw [hf] at h
    dsimp only at h
    split_ifs at h with hready
    exact ⟨i, rfl, hready, (Option.some_inj.mp h).symm⟩

theorem rawLoop_ends : Ends s buf len (loopFronts s rounds bufs) (rawLoop s buf len rounds bufs) := by
  induction rounds generalizing bufs with
  | nil =>
    unfold loopFronts rawLoop
    cases hl : look s buf len bufs with
    | some res =>
      obtain ⟨i, hfront, hready, rfl⟩ := front_ready hl
      exact .delivers bufs i [] (by rw [hfront]; rfl) (by simp) hready
    | none =>
      have hno := front_not_ready hl
      dsimp only
      split_ifs with hnb
      · exact .fails hno _ _
      · exact .waits hno
  | cons r rounds ih =>
    unfold loopFronts rawLoop
    cases hl : look s buf len bufs with
    | some res =>
      obtain ⟨i, hfront, hready, rfl⟩ := front_ready hl
      rw [if_pos (.inl (by rw [hfront]; exact hready))]
      exact .delivers bufs i [] (by rw [hfront]; rfl) (by simp) hready
    | none =>
      have hno := front_not_ready hl
      have hany : (front bufs).any s.ready = false := by
        cases hf : front bufs with
        | none => rfl
        | some raw =>
          rw [hf] at hno
          exact hno raw (by simp)
      simp only [hany, Bool.false_eq_true, false_or]
      by_cases hnb : s.nbio = true
      · rw [if_pos hnb, if_pos (.inl hnb), List.append_nil]
        exact .fails hno _ _
      by_cases hto : r.timedOut = true
      · rw [if_neg hnb, if_pos hto, if_pos (.inr (.inl hto)), List.append_nil]
        exact .fails hno _ _
      by_cases hsig : r.sigPending = true
      · rw [if_neg hnb, if_neg hto, if_pos hsig, if_pos (.inr (.inr hsig)), List.append_nil]
        exact .fails hno _ _
      rw [if_neg hnb, if_neg hto, if_neg hsig, if_neg (by tauto)]
      exact ih.cons hno

/-- A packet that is not ready is below the low-water mark, or an IPv6 packet. -/
theorem below_of_not_ready {raw : RawSlot} (h : s.ready raw = false) (hfam : s.soFamily ≠ .inet6) :
    ¬ s.hdrLen + s.recvLowat ≤ s.total raw := by
  have := of_decide_eq_false h
  unfold Socket.total
  rwa [if_neg hfam]

theorem fits_inet {raw : RawSlot} (hfam : s.soFamily ≠ .inet6) :
    Fits s len raw ↔ (s.ready raw = true → s.ipLen raw ≤ len) :=
  and_iff_left fun h => absurd h hfam

/-- An IPv6 packet that is never received whole fits when it need not be. -/
theorem fits_inet6 {raw : RawSlot} (hfam : s.soFamily = .inet6) : Fits s len raw ↔
    (s.ready raw = true → s.ipLen raw ≤ len) ∧
      ¬ (s.hdrLen + s.recvLowat ≤ s.total raw ∧ s.total raw ≤ len) := by
  have htotal : s.total raw = s.hdrLen + s.ipLen raw := if_pos hfam
  unfold Fits
  rw [htotal]
  constructor
  · rintro ⟨hready, hlong⟩
    refine ⟨hready, fun h => ?_⟩
    have := hlong hfam (by omega)
    omega
  · rintro ⟨hready, hno⟩
    refine ⟨hready, fun _ hlow => ?_⟩
    by_contra hge
    exact hno (by omega)

/-- A call that hands nothing over. -/
theorem respects_empty {raws : List RawSlot} {res : Option Result} (h : ∀ raw ∈ raws, s.ready raw = false)
    (hres : ∀ r ∈ res, r.ret = -1 ∧ r.copies = []) : Respects s len raws res ↔ ∀ raw ∈ raws, Fits s len raw := by
  have hnot : ∀ raw, ¬ Whole s raw res := by
    rintro raw ⟨r, hr, hret, _⟩
    rw [(hres r hr).1] at hret
    omega
  have hbounded : ∀ r ∈ res, ∀ c ∈ r.copies, c.dst + c.len ≤ len := fun r hr c hc => by
    rw [(hres r hr).2] at hc
    cases hc
  have hready : ∀ raw ∈ raws, s.ready raw = true → s.ipLen raw ≤ len := fun raw hraw hr => by
    rw [h raw hraw] at hr
    cases hr
  by_cases hfam : s.soFamily = .inet6
  · constructor
    · intro hr raw hraw
      exact (fits_inet6 hfam).mpr ⟨hready raw hraw, fun hh => hnot raw (hr.whole raw hraw hh.1 hh.2)⟩
    · intro hf
      refine ⟨hbounded, fun r hr => .inl (hres r hr), fun raw hraw hlow htot => ?_⟩
      exact absurd ⟨hlow, htot⟩ ((fits_inet6 hfam).mp (hf raw hraw)).2
  · constructor
    · intro _ raw hraw
      exact (fits_inet hfam).mpr (hready raw hraw)
    · intro _
      refine ⟨hbounded, fun r hr => .inl (hres r hr), fun raw hraw hlow _ => ?_⟩
      exact absurd hlow (below_of_not_ready (h raw hraw) hfam)

/-- A call that hands a packet over. -/
theorem respects_deliver {before : List RawSlot} {i : ℕ} (hlen : s.hdrLen ≤ len)
    (h : ∀ raw ∈ before, s.ready raw = false) (hready : s.ready (bufs.getD i {}) = true) :
    Respects s len (before ++ [bufs.getD i {}]) (some (deliver s buf len bufs i)) ↔
      ∀ raw ∈ before ++ [bufs.getD i {}], Fits s len raw := by
  have hbounded := @deliver_bounded s buf len i bufs hlen hready
  have hmem : bufs.getD i {} ∈ before ++ [bufs.getD i {}] := List.mem_append_right _ (List.mem_singleton_self _)
  constructor
  · intro hr
    have hfit := hbounded.mp (hr.bounded _ rfl)
    have hle : ∀ raw ∈ before ++ [bufs.getD i {}], s.ready raw = true → s.ipLen raw ≤ len := by
      intro raw hraw hrr
      rcases List.mem_append.mp hraw with hb | hl
      · rw [h raw hb] at hrr
        cases hrr
      · rw [List.mem_singleton.mp hl]
        exact hfit
    intro raw hraw
    by_cases hfam : s.soFamily = .inet6
    · refine (fits_inet6 hfam).mpr ⟨hle raw hraw, fun hh => ?_⟩
      exact deliver_not_whole hfam hlen hready raw (hr.whole raw hraw hh.1 hh.2)
    · exact (fits_inet hfam).mpr (hle raw hraw)
  · intro hf
    have hfit := (hf _ hmem).1 hready
    refine ⟨?_, ?_, ?_⟩
    · intro r hr
      obtain rfl := Option.some_inj.mp hr
      exact hbounded.mpr hfit
    · intro r hr
      obtain rfl := Option.some_inj.mp hr
      exact .inr (deliver_counted hlen)
    · intro raw hraw hlow htot
      by_cases hfam : s.soFamily = .inet6
      · exact absurd ⟨hlow, htot⟩ ((fits_inet6 hfam).mp (hf raw hraw)).2
      · rcases List.mem_append.mp hraw with hb | hl
        · exact absurd hlow (below_of_not_ready (h raw hb) hfam)
        · rw [List.mem_singleton.mp hl]
          exact deliver_whole hfam hlen hready hfit

end Loop

/-- **Raw packets**: a call respects the caller's buffer exactly when every packet it looks at fits. -/
theorem raw_receive_iff (s : Socket) (buf : ℕ → Byte) (len : ℕ) (rounds : List Round) (bufs : List RawSlot) :
    Respects s len (fronts s len rounds bufs) (rawReceive s buf len rounds bufs) ↔
      ∀ raw ∈ fronts s len rounds bufs, Fits s len raw := by
  unfold fronts rawReceive
  by_cases hlen : len < s.hdrLen
  · rw [if_pos hlen, if_pos hlen]
    apply respects_empty
    · simp
    · intro r hr
      obtain rfl := Option.some_inj.mp hr
      exact ⟨rfl, rfl⟩
  · rw [if_neg hlen, if_neg hlen]
    generalize hres : rawLoop s buf len rounds bufs = res
    have hends : Ends s buf len (loopFronts s rounds bufs) (rawLoop s buf len rounds bufs) := rawLoop_ends
    rw [hres] at hends
    cases hends with
    | waits h => exact respects_empty h (by simp)
    | fails h errno bufs' =>
      apply respects_empty h
      intro r hr
      obtain rfl := Option.some_inj.mp hr
      exact ⟨rfl, rfl⟩
    | delivers bufs' i before hraws h hready =>
      rw [hraws]
      exact respects_deliver (Nat.le_of_not_lt hlen) h hready

/-- A packet of 30 bytes. -/
def packet30 : RawSlot := { used := true, seqNum := 1, ip := fun i => if i = 3 then 30 else 0 }

/-- 30 bytes are written to a buffer of 24. -/
theorem raw_receive_overruns : ¬ Respects { soFamily := .inet } 24
    (fronts { soFamily := .inet } 24 [] [packet30]) (rawReceive { soFamily := .inet } (fun _ => 0) 24 [] [packet30]) := by
  intro h
  have hcopies : ((rawReceive { soFamily := .inet } (fun _ => 0) 24 [] [packet30]).map Result.copies) =
      some [⟨0, 0, 20⟩, ⟨20, 0, 10⟩] := by decide
  obtain ⟨r, hr, hc⟩ := Option.map_eq_some_iff.mp hcopies
  have := h.bounded r hr ⟨20, 0, 10⟩ (by rw [hc]; simp)
  exact absurd this (by decide)

end Watt32.RawSock
