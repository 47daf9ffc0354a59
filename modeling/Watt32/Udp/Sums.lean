import Watt32.Udp.Output

/-!
# The checksums of UDP datagrams

`in_checksum` of `chksum.c` with the width of its variables, and the checksums of `udp_write` and of
`make_udp_pkt`.

* `accumulate`, `carries`, `inChecksumLong`: `in_checksum` in 32 bits.
* `SumVerifies`: the sum over pseudo header and datagram is `0xFFFF`; `GoodSum`: besides, the checksum is not 0.
* `udpWrite_good_iff`, `makeUdpPkt_good_iff`: when a checksum is good.
* **`checksum_round_trip`**: what holds of every buffer, and of which datagrams.
-/

namespace Watt32.Udp

open Tcp (inChecksum)
open Ip (bytes16 bytes32 stored16 pseudoChecksum udpProto)
open OnesSum (littleSum bigSum onesTotal Ones)

/-! ## `in_checksum` in 32 bits -/

/-- The loop over the words and the odd last byte, `sum` being a `long`. -/
def accumulate : Dword → List Byte → Dword
  | sum, a :: b :: rest => accumulate (sum + (b ++ a).setWidth 32) rest
  | sum, [a] => sum + a.setWidth 32
  | sum, [] => sum

/-- The loop `while (sum >> 16)`, at most `n` turns of it. -/
def carries : ℕ → Dword → Option Dword
  | 0, sum => if sum.sshiftRight 16 = 0 then some sum else none
  | n + 1, sum => if sum.sshiftRight 16 = 0 then some sum else carries n ((sum &&& 0xffff) + sum.sshiftRight 16)

/-- `in_checksum`, with at most `n` turns of its second loop. -/
def inChecksumLong (n : ℕ) (bytes : List Byte) : Option Word :=
  (carries n (accumulate 0 bytes)).map (BitVec.setWidth 16)

section Width

variable {l : List Byte} {sum : Dword} {n : ℕ}

theorem accumulate_toNat (h : sum.toNat + littleSum l < 2 ^ 32) : (accumulate sum l).toNat = sum.toNat + littleSum l := by
  induction sum, l using accumulate.induct with
  | case1 sum a b rest ih =>
    have hword : ((b ++ a).setWidth 32 : Dword).toNat = a.toNat + 256 * b.toNat := by
      have ha := a.isLt
      have hb := b.isLt
      rw [BitVec.toNat_setWidth, BitVec.toNat_append, Nat.shiftLeft_eq, ← Nat.shiftLeft_eq,
        ← Nat.shiftLeft_add_eq_or_of_lt ha, Nat.shiftLeft_eq]
      omega
    rw [littleSum] at h
    have hadd : (sum + (b ++ a).setWidth 32).toNat = sum.toNat + (a.toNat + 256 * b.toNat) := by
      rw [BitVec.toNat_add, hword]
      omega
    rw [accumulate, ih (by rw [hadd]; omega), hadd, littleSum]
    omega
  | case2 sum a =>
    have hbyte : (a.setWidth 32 : Dword).toNat = a.toNat := by
      rw [BitVec.toNat_setWidth]
      omega
    rw [littleSum] at h
    rw [accumulate, littleSum, BitVec.toNat_add, hbyte]
    omega
  | case3 sum => rfl

theorem littleSum_lt (h : l.length ≤ 65535) : littleSum l < 2 ^ 31 := by
  have := OnesSum.littleSum_le (l := l)
  omega

theorem accumulate_zero (h : l.length ≤ 65535) : (accumulate 0 l).toNat = littleSum l := by
  have hlt := littleSum_lt h
  have hzero : (0 : Dword).toNat = 0 := rfl
  refine (accumulate_toNat ?_).trans ?_
  · rw [hzero]
    omega
  · rw [hzero, Nat.zero_add]

/-- **No overflow**: the `long` holds the sum of the words. -/
theorem accumulate_toInt (h : l.length ≤ 65535) : (accumulate 0 l).toInt = littleSum l := by
  have hlt := littleSum_lt h
  have hnat := accumulate_zero h
  rw [BitVec.toInt_eq_toNat_of_lt (by omega), hnat]

theorem sshiftRight_toNat (h : sum.toNat < 2 ^ 31) : (sum.sshiftRight 16).toNat = sum.toNat / 65536 := by
  have hmsb : sum.msb = false := by
    rw [BitVec.msb_eq_false_iff_two_mul_lt]
    omega
  rw [BitVec.sshiftRight_eq_of_msb_false hmsb, BitVec.toNat_ushiftRight, Nat.shiftRight_eq_div_pow]

theorem carry_toNat (h : sum.toNat < 2 ^ 31) :
    ((sum &&& 0xffff) + sum.sshiftRight 16).toNat = OnesSum.fold sum.toNat := by
  have hand : (sum &&& 0xffff).toNat = sum.toNat % 65536 := by
    rw [BitVec.toNat_and]
    exact Nat.and_two_pow_sub_one_eq_mod sum.toNat 16
  rw [BitVec.toNat_add, hand, sshiftRight_toNat h, OnesSum.fold]
  omega

/-- Two turns are enough. -/
theorem carries_spec (h : sum.toNat < 2 ^ 31) (hn : 2 ≤ n) : ∃ r : Dword, carries n sum = some r ∧ r.toNat ≤ 65535 ∧
    r.toNat % 65535 = sum.toNat % 65535 ∧ (0 < r.toNat ↔ 0 < sum.toNat) := by
  have hdone : ∀ {m : ℕ} {s : Dword}, s.toNat ≤ 65535 → carries m s = some s := by
    intro m s hs
    have hzero : s.sshiftRight 16 = 0 := by
      apply BitVec.eq_of_toNat_eq
      rw [sshiftRight_toNat (by omega)]
      exact Nat.div_eq_of_lt (by omega)
    cases m with
    | zero => exact if_pos hzero
    | succ m => exact if_pos hzero
  have hmore : ∀ {m : ℕ} {s : Dword}, s.toNat < 2 ^ 31 → 65535 < s.toNat →
      carries (m + 1) s = carries m ((s &&& 0xffff) + s.sshiftRight 16) := by
    intro m s hs hbig
    have hnz : s.sshiftRight 16 ≠ 0 := by
      intro h0
      have := congrArg BitVec.toNat h0
      rw [sshiftRight_toNat hs] at this
      have hzero : (0 : Dword).toNat = 0 := rfl
      omega
    exact if_neg hnz
  obtain ⟨m, rfl⟩ : ∃ m, n = m + 2 := ⟨n - 2, by omega⟩
  by_cases h₀ : sum.toNat ≤ 65535
  · exact ⟨sum, hdone h₀, h₀, rfl, Iff.rfl⟩
  · have h₁ := carry_toNat h
    rw [hmore h (not_le.mp h₀)]
    generalize (sum &&& 0xffff) + sum.sshiftRight 16 = s₁ at h₁
    have hmod₁ := OnesSum.fold_mod sum.toNat
    have hpos₁ := OnesSum.fold_pos (n := sum.toNat)
    have hlt₁ : s₁.toNat < 2 ^ 31 := by
      rw [h₁, OnesSum.fold]
      omega
    by_cases h₂ : s₁.toNat ≤ 65535
    · exact ⟨s₁, hdone h₂, h₂, by rw [h₁, hmod₁], by rw [h₁, hpos₁]⟩
    · have h₃ := carry_toNat hlt₁
      rw [hmore hlt₁ (not_le.mp h₂)]
      generalize (s₁ &&& 0xffff) + s₁.sshiftRight 16 = s₂ at h₃
      have hle : s₂.toNat ≤ 65535 := by
        rw [h₃, h₁]
        exact OnesSum.fold_fold_le (by omega)
      refine ⟨s₂, hdone hle, hle, ?_, ?_⟩
      · rw [h₃, OnesSum.fold_mod, h₁, hmod₁]
      · rw [h₃, OnesSum.fold_pos, h₁, hpos₁]

/-- **The result** is the ones'-complement sum of the words. -/
theorem inChecksumLong_eq (h : l.length ≤ 65535) (hn : 2 ≤ n) :
    inChecksumLong n l = some (BitVec.ofNat 16 (onesTotal l)) := by
  have hlt := littleSum_lt h
  have hnat := accumulate_zero h
  obtain ⟨r, hr, hle, hmod, hpos⟩ := carries_spec (show (accumulate 0 l).toNat < 2 ^ 31 by omega) hn
  rw [hnat] at hmod hpos
  rw [inChecksumLong, hr, Option.map_some, ← OnesSum.onesTotal_unique hle hmod hpos]
  rfl

/-- The sum of the other modules is the same number. -/
theorem inChecksum_total (h : l.length ≤ 65536) : inChecksum l = onesTotal l := by
  apply OnesSum.onesTotal_unique (inChecksum_le h)
  · rw [inChecksum_eq]
    simp only [OnesSum.fold_mod]
  · rw [inChecksum_eq]
    simp only [OnesSum.fold_pos]

end Width

/-! ## A field of the sum -/

section Field

variable {l post : List Byte} {a b c : Word} {t v n : ℕ}

theorem littleSum_stored (w : Word) : littleSum (stored16 w) = w.toNat := by
  have := littleSum_word w.toNat (by omega)
  rwa [BitVec.ofNat_toNat, BitVec.setWidth_eq] at this

/-- The complement of a carried sum completes it. -/
theorem ones_complement (hle : v ≤ 65535) (hmod : v % 65535 = t % 65535) (hpos : 0 < t) :
    Ones (t + (65535 - v)) := by
  unfold OnesSum.Ones
  omega

theorem complement_toNat (w : Word) : (~~~w).toNat = 65535 - w.toNat := by
  rw [BitVec.toNat_not]

theorem complement_total (h : l.length ≤ 65536) : (~~~BitVec.ofNat 16 (inChecksum l)).toNat = 65535 - onesTotal l := by
  have := (OnesSum.onesTotal_spec l).1
  rw [complement_toNat, inChecksum_total h, BitVec.toNat_ofNat]
  omega

/-- **The round trip**: the complement of the sum with a zero field, stored there, makes the sum `0xFFFF`. -/
theorem inChecksum_stored {pre : List Byte} (heven : pre.length % 2 = 0)
    (hlen : (pre ++ [0, 0] ++ post).length ≤ 65535) :
    inChecksum (pre ++ stored16 (~~~BitVec.ofNat 16 (inChecksum (pre ++ [0, 0] ++ post))) ++ post) = 65535 := by
  have hpre : ∀ w : List Byte, w.length = 2 → littleSum (pre ++ w ++ post) =
      littleSum pre + littleSum w + littleSum post := by
    intro w hw
    rw [OnesSum.littleSum_append (by rw [List.length_append, hw]; omega), OnesSum.littleSum_append heven]
  have hlen' : ∀ w : List Byte, w.length = 2 → (pre ++ w ++ post).length ≤ 65535 := by
    intro w hw
    rw [List.length_append, List.length_append] at hlen ⊢
    rw [hw]
    exact hlen
  obtain ⟨hle, hmod, hpos⟩ := OnesSum.onesTotal_spec (pre ++ [0, 0] ++ post)
  have hzero : littleSum [0, 0] = 0 := rfl
  rw [inChecksum_eq_ones ((hlen' _ rfl).trans (by decide)), hpre _ rfl, littleSum_stored,
    complement_total (hlen.trans (by decide))]
  rw [hpre _ rfl, hzero, Nat.add_zero] at hmod hpos
  unfold OnesSum.Ones
  omega

end Field

/-! ## The sum of a datagram -/

/-- The pseudo header of a datagram with `len` bytes of data as the receiver sees it. -/
def pseudoOf (g : Globals) (s : UdpSocket) (len : ℕ) : List Byte :=
  if s.isIp6 then g.in6addrMyIp ++ s.his6addr ++ [0, 0] ++ bytes16 (BitVec.ofNat 16 (8 + len)) ++ [0, 0, 0, 17]
  else bytes32 s.myaddr ++ bytes32 s.hisaddr ++ [0, udpProto] ++ bytes16 (BitVec.ofNat 16 (8 + len))

/-- The ones'-complement sum over pseudo header and datagram is `0xFFFF`. -/
def SumVerifies (ph dgram : List Byte) : Prop := Ones (bigSum (ph ++ dgram))

instance (ph dgram : List Byte) : Decidable (SumVerifies ph dgram) :=
  inferInstanceAs (Decidable (Ones (bigSum (ph ++ dgram))))

/-- The datagram verifies, and its checksum is not 0. -/
structure GoodSum (ph dgram : List Byte) : Prop where
  verifies : SumVerifies ph dgram
  nonzero : (dgram.drop 6).take 2 ≠ [0, 0]

section Datagram

variable {a b c : Word} {ph data : List Byte} {n : ℕ}

theorem littleSum_datagram : littleSum (udpHeader a b n c ++ data) =
    littleSum (udpHeader a b n 0 ++ data) + c.toNat := by
  have hhdr : ∀ w : Word, littleSum (udpHeader a b n w ++ data) =
      littleSum (bytes16 a ++ bytes16 b ++ bytes16 (BitVec.ofNat 16 (8 + n))) + w.toNat + littleSum data := by
    intro w
    unfold udpHeader
    rw [OnesSum.littleSum_append (by simp [bytes16, stored16]), OnesSum.littleSum_append (by simp [bytes16]),
      littleSum_stored]
  have hzero : (0 : Word).toNat = 0 := rfl
  rw [hhdr c, hhdr 0, hzero]
  omega

theorem sumVerifies_iff (heven : ph.length % 2 = 0) : SumVerifies ph (udpHeader a b n c ++ data) ↔
    Ones (littleSum ph + littleSum (udpHeader a b n 0 ++ data) + c.toNat) := by
  unfold SumVerifies
  rw [← OnesSum.ones_little, OnesSum.littleSum_append heven, littleSum_datagram, Nat.add_assoc]

theorem field_eq (c : Word) : ((udpHeader a b n c ++ data).drop 6).take 2 = stored16 c := rfl

theorem stored16_eq_zero : stored16 c = [0, 0] ↔ c = 0 := by
  constructor
  · intro h
    have := congrArg littleSum h
    rw [littleSum_stored] at this
    exact BitVec.eq_of_toNat_eq this
  · rintro rfl
    rfl

/-- A checksum that is the complement of the carried sum: good unless that sum is all ones. -/
theorem goodSum_iff (heven : ph.length % 2 = 0) (hph : 0 < littleSum ph) {v : ℕ} (hv : v ≤ 65535)
    (hmod : v % 65535 = (littleSum ph + littleSum (udpHeader a b n 0 ++ data)) % 65535) (hpos : 0 < v)
    (hc : c.toNat = 65535 - v) : GoodSum ph (udpHeader a b n c ++ data) ↔
      ¬ SumVerifies ph (udpHeader a b n 0 ++ data) := by
  have hverifies : SumVerifies ph (udpHeader a b n c ++ data) := by
    rw [sumVerifies_iff heven, hc]
    exact ones_complement hv hmod (by omega)
  have hzero : c = 0 ↔ v = 65535 := by
    constructor
    · rintro rfl
      have : (0 : Word).toNat = 0 := rfl
      omega
    · intro h
      apply BitVec.eq_of_toNat_eq
      rw [hc, h]
      rfl
  have hbare : SumVerifies ph (udpHeader a b n 0 ++ data) ↔ v = 65535 := by
    have h0 : (0 : Word).toNat = 0 := rfl
    rw [sumVerifies_iff heven, h0, Nat.add_zero]
    unfold OnesSum.Ones
    omega
  rw [hbare, ← hzero, ← stored16_eq_zero, ← @field_eq a b data n c]
  exact ⟨fun h => h.nonzero, fun h => ⟨hverifies, h⟩⟩

end Datagram

/-! ## `udp_write` and `make_udp_pkt` -/

section Emitted

variable {ph payload buf : List Byte} {g : Globals} {s : UdpSocket} {data : List Byte} {t : Ip.UdpSock}

/-- The carries of `_ip6_checksum` and its replacement of 0. -/
theorem ip6_carries {n : ℕ} (hpos : 0 < n) (hle : n ≤ 131070) :
    let c := 65535 - (n / 65536 + n % 65536 + (n / 65536 + n % 65536) / 65536) % 65536
    0 < (if c = 0 then 65535 else c) ∧ (if c = 0 then 65535 else c) ≤ 65535 ∧
      (n + if c = 0 then 65535 else c) % 65535 = 0 := by
  -- the first round leaves a word, so that the second carries nothing
  obtain ⟨m, hm⟩ : ∃ m, n / 65536 + n % 65536 = m := ⟨_, rfl⟩
  have hle' : m ≤ 65535 ∧ 0 < m := by omega
  have hround : (m + m / 65536) % 65536 = m := by omega
  rw [hm, hround]
  dsimp only
  split_ifs <;> omega

/-- The sum of `_ip6_checksum` completes it and is not 0. -/
theorem ip6Sum_spec (hph : 0 < littleSum ph) (hlen : ph.length ≤ 65535) (hpay : payload.length ≤ 65535) :
    0 < ip6Sum ph payload ∧ ip6Sum ph payload ≤ 65535 ∧
      Ones (littleSum ph + littleSum payload + ip6Sum ph payload) := by
  obtain ⟨hle₁, hmod₁, hpos₁⟩ := OnesSum.onesTotal_spec ph
  obtain ⟨hle₂, hmod₂, hpos₂⟩ := OnesSum.onesTotal_spec payload
  obtain ⟨hpos, hle, hmod⟩ := ip6_carries (n := onesTotal ph + onesTotal payload) (by omega) (by omega)
  unfold ip6Sum
  rw [inChecksum_total (by omega), inChecksum_total (by omega)]
  dsimp only at hpos hle hmod ⊢
  refine ⟨hpos, hle, ?_⟩
  unfold OnesSum.Ones
  omega

theorem pseudo_pos {src dst : Dword} {len : Word} :
    0 < littleSum (bytes32 src ++ bytes32 dst ++ [0, udpProto] ++ bytes16 len) := by
  rw [OnesSum.littleSum_append (by simp [bytes32, bytes16]), OnesSum.littleSum_append (by simp [bytes32, bytes16])]
  have : 0 < littleSum [0, udpProto] := by decide
  omega

/-- The pseudo header with the sum of the datagram in its `checksum`. -/
theorem pseudoChecksum_spec (src dst : Dword) (len sum : Word) :
    ∃ v, (pseudoChecksum src dst udpProto len sum).toNat = 65535 - v ∧ v ≤ 65535 ∧ 0 < v ∧
      v % 65535 = (littleSum (bytes32 src ++ bytes32 dst ++ [0, udpProto] ++ bytes16 len) + sum.toNat) % 65535 := by
  have hlen : (bytes32 src ++ bytes32 dst ++ [0, udpProto] ++ bytes16 len ++ stored16 sum).length ≤ 65536 := by
    simp [bytes32, bytes16, stored16]
  have hsum : littleSum (bytes32 src ++ bytes32 dst ++ [0, udpProto] ++ bytes16 len ++ stored16 sum) =
      littleSum (bytes32 src ++ bytes32 dst ++ [0, udpProto] ++ bytes16 len) + sum.toNat := by
    rw [OnesSum.littleSum_append (by simp [bytes32, bytes16]), littleSum_stored]
  obtain ⟨hle, hmod, hpos⟩ :=
    OnesSum.onesTotal_spec (bytes32 src ++ bytes32 dst ++ [0, udpProto] ++ bytes16 len ++ stored16 sum)
  refine ⟨_, complement_total hlen, hle, ?_, by rw [hmod, hsum]⟩
  rw [hpos, hsum]
  exact Nat.add_pos_left pseudo_pos _

/-- A checksum over pseudo header and datagram that lost no carry is good unless the sum is all ones. -/
theorem pseudoChecksum_good {src dst : Dword} {a b sum : Word} (hsum : sum.toNat % 65535 =
    littleSum (udpHeader a b data.length 0 ++ data) % 65535) :
    let len := BitVec.ofNat 16 (8 + data.length)
    GoodSum (bytes32 src ++ bytes32 dst ++ [0, udpProto] ++ bytes16 len)
      (udpHeader a b data.length (pseudoChecksum src dst udpProto len sum) ++ data) ↔
    ¬ SumVerifies (bytes32 src ++ bytes32 dst ++ [0, udpProto] ++ bytes16 len)
      (udpHeader a b data.length 0 ++ data) := by
  obtain ⟨v, hc, hle, hpos, hmod⟩ := pseudoChecksum_spec src dst (BitVec.ofNat 16 (8 + data.length)) sum
  refine goodSum_iff (by simp [bytes32, bytes16]) pseudo_pos hle ?_ hpos hc
  rw [hmod]
  omega

/-- **`udp_write`**: the checksum is good, but for IPv4 when the sum with a zero field is all ones. -/
theorem udpWrite_good_iff (hmine : g.in6addrMyIp.length = 16) (hhis : s.his6addr.length = 16)
    (hlen : 8 + data.length ≤ 65535) (hon : s.isIp6 = true ∨ s.udpChk = true) :
    GoodSum (pseudoOf g s data.length) (udpDatagram g s data) ↔ s.isIp6 = true ∨
      ¬ SumVerifies (pseudoOf g s data.length) (udpHeader s.myport s.hisport data.length 0 ++ data) := by
  have hudp : (udpHeader s.myport s.hisport data.length 0 ++ data).length ≤ 65535 := by
    rw [List.length_append, length_udpHeader]
    exact hlen
  by_cases h6 : s.isIp6 = true
  · rw [iff_true_right (.inl h6)]
    have hph : pseudoOf g s data.length = g.in6addrMyIp ++ s.his6addr ++ [0, 0] ++
        bytes16 (BitVec.ofNat 16 (8 + data.length)) ++ [0, 0, 0, 17] := if_pos h6
    have hsum : udpSum g s data = BitVec.ofNat 16 (ip6Sum (pseudo6 g.in6addrMyIp s.his6addr (8 + data.length))
        (udpHeader s.myport s.hisport data.length 0 ++ data)) := if_pos h6
    have hsame : littleSum (pseudoOf g s data.length) =
        littleSum (pseudo6 g.in6addrMyIp s.his6addr (8 + data.length)) := by
      have heven : (g.in6addrMyIp ++ s.his6addr).length % 2 = 0 := by
        rw [List.length_append, hmine, hhis]
      have hzero : ∀ l : List Byte, littleSum ([0, 0] ++ l) = littleSum l := fun l => by simp [littleSum]
      rw [hph, pseudo6]
      simp only [List.append_assoc _ _ (_ : List Byte)] at heven ⊢
      simp only [← List.append_assoc g.in6addrMyIp, OnesSum.littleSum_append heven, hzero]
    have hpos : 0 < littleSum (pseudo6 g.in6addrMyIp s.his6addr (8 + data.length)) := by
      rw [pseudo6, OnesSum.littleSum_append (by simp [hmine, hhis, bytes16])]
      have : 0 < littleSum [0, 0, 0, 17] := by decide
      omega
    obtain ⟨hnz, hle, hones⟩ := ip6Sum_spec hpos (by simp [pseudo6, hmine, hhis, bytes16]) hudp
    have hnat : (udpSum g s data).toNat = ip6Sum (pseudo6 g.in6addrMyIp s.his6addr (8 + data.length))
        (udpHeader s.myport s.hisport data.length 0 ++ data) := by
      rw [hsum, BitVec.toNat_ofNat]
      exact Nat.mod_eq_of_lt (by omega)
    constructor
    · unfold udpDatagram
      rw [sumVerifies_iff (by simp [hph, hmine, hhis, bytes16]), hnat, hsame]
      exact hones
    · rw [udpDatagram, field_eq, Ne, stored16_eq_zero]
      intro hzero
      rw [hzero] at hnat
      exact hnz.ne hnat
  · have hchk : s.udpChk = true := hon.resolve_left h6
    have hph : pseudoOf g s data.length = bytes32 s.myaddr ++ bytes32 s.hisaddr ++ [0, udpProto] ++
        bytes16 (BitVec.ofNat 16 (8 + data.length)) := if_neg h6
    have hsum : udpSum g s data = pseudoChecksum s.myaddr s.hisaddr udpProto (BitVec.ofNat 16 (8 + data.length))
        (BitVec.ofNat 16 (inChecksum (udpHeader s.myport s.hisport data.length 0 ++ data))) :=
      (if_neg h6).trans (if_pos hchk)
    rw [or_iff_right h6, hph, udpDatagram, hsum]
    apply pseudoChecksum_good
    obtain ⟨hle, hmod, -⟩ := OnesSum.onesTotal_spec (udpHeader s.myport s.hisport data.length 0 ++ data)
    rw [inChecksum_total (hudp.trans (by decide)), BitVec.toNat_ofNat, Nat.mod_eq_of_lt (hle.trans_lt (by decide)), hmod]

/-- What `make_udp_pkt` sums with a zero checksum, and its pseudo header. -/
def bareHeader (t : Ip.UdpSock) (len : ℕ) : List Byte := udpHeader t.myport t.hisport len 0

def pseudoPkt (t : Ip.UdpSock) (len : ℕ) : List Byte :=
  bytes32 t.myaddr ++ bytes32 t.hisaddr ++ [0, udpProto] ++ bytes16 (BitVec.ofNat 16 (8 + len))

/-- **`make_udp_pkt`**: the two sums are added in a word, so that a carry must not occur. -/
theorem makeUdpPkt_good_iff (hlen : 8 + buf.length ≤ 65535) (hon : t.udpChk = true) :
    GoodSum (pseudoPkt t buf.length) (Ip.udpHeader t buf ++ buf) ↔
      onesTotal (bareHeader t buf.length) + onesTotal buf ≤ 65535 ∧
        ¬ SumVerifies (pseudoPkt t buf.length) (bareHeader t buf.length ++ buf) := by
  have hhdr : Ip.udpHeader t buf = udpHeader t.myport t.hisport buf.length
      (pseudoChecksum t.myaddr t.hisaddr udpProto (BitVec.ofNat 16 (8 + buf.length))
        (BitVec.ofNat 16 (inChecksum (bareHeader t buf.length) + inChecksum buf))) := if_pos hon
  have hbare : (bareHeader t buf.length).length = 8 := rfl
  obtain ⟨hle₁, hmod₁, hpos₁⟩ := OnesSum.onesTotal_spec (bareHeader t buf.length)
  obtain ⟨hle₂, hmod₂, hpos₂⟩ := OnesSum.onesTotal_spec buf
  have hsplit : littleSum (bareHeader t buf.length ++ buf) = littleSum (bareHeader t buf.length) + littleSum buf :=
    OnesSum.littleSum_append (by rw [hbare])
  rw [inChecksum_total (by omega), inChecksum_total (by omega)] at hhdr
  by_cases hcarry : onesTotal (bareHeader t buf.length) + onesTotal buf ≤ 65535
  · rw [and_iff_right hcarry, hhdr]
    apply pseudoChecksum_good
    change _ = littleSum (bareHeader t buf.length ++ buf) % 65535
    have hword : (onesTotal (bareHeader t buf.length) + onesTotal buf) % 2 ^ 16 =
        onesTotal (bareHeader t buf.length) + onesTotal buf := Nat.mod_eq_of_lt (by omega)
    rw [hsplit, BitVec.toNat_ofNat, hword]
    omega
  · refine iff_of_false (fun hgood => ?_) fun h => hcarry h.1
    -- the carry is lost: the sum is one more than it was taken for
    have hverifies := hgood.verifies
    rw [hhdr, sumVerifies_iff (by simp [pseudoPkt, bytes32, bytes16])] at hverifies
    obtain ⟨v, hc, hle, hpos, hmod⟩ := pseudoChecksum_spec t.myaddr t.hisaddr (BitVec.ofNat 16 (8 + buf.length))
      (BitVec.ofNat 16 (onesTotal (bareHeader t buf.length) + onesTotal buf))
    rw [hc] at hverifies
    change Ones (littleSum (pseudoPkt t buf.length) + littleSum (bareHeader t buf.length ++ buf) + _) at hverifies
    change _ = (littleSum (pseudoPkt t buf.length) + _) % 65535 at hmod
    rw [hsplit] at hverifies
    rw [BitVec.toNat_ofNat] at hmod
    unfold OnesSum.Ones at hverifies
    omega

end Emitted

/-- **The checksums.** Of every buffer of at most 65535 bytes the `long` holds the sum of the words, the result is
their ones'-complement sum, and its complement in a zero field makes the sum `0xFFFF`; and the checksum of a
datagram is good exactly if no carry is lost and the sum with a zero field is not all ones, but for IPv6. -/
theorem checksum_round_trip (l pre post data : List Byte) (g : Globals) (s : UdpSocket) (t : Ip.UdpSock) :
    (l.length ≤ 65535 → (accumulate 0 l).toInt = littleSum l ∧
      (∀ n, 2 ≤ n → inChecksumLong n l = some (BitVec.ofNat 16 (onesTotal l))) ∧ inChecksum l = onesTotal l) ∧
    (pre.length % 2 = 0 → (pre ++ [0, 0] ++ post).length ≤ 65535 →
      inChecksum (pre ++ stored16 (~~~BitVec.ofNat 16 (inChecksum (pre ++ [0, 0] ++ post))) ++ post) = 65535) ∧
    (g.in6addrMyIp.length = 16 → s.his6addr.length = 16 → 8 + data.length ≤ 65535 →
      s.isIp6 = true ∨ s.udpChk = true →
      (GoodSum (pseudoOf g s data.length) (udpDatagram g s data) ↔ s.isIp6 = true ∨
        ¬ SumVerifies (pseudoOf g s data.length) (udpHeader s.myport s.hisport data.length 0 ++ data))) ∧
    (8 + data.length ≤ 65535 → t.udpChk = true →
      (GoodSum (pseudoPkt t data.length) (Ip.udpHeader t data ++ data) ↔
        onesTotal (bareHeader t data.length) + onesTotal data ≤ 65535 ∧
          ¬ SumVerifies (pseudoPkt t data.length) (bareHeader t data.length ++ data))) := by
  refine ⟨fun hl => ⟨accumulate_toInt hl, fun n hn => inChecksumLong_eq hl hn, inChecksum_total (by omega)⟩,
    ?_, ?_, ?_⟩
  · intro heven hlen
    exact inChecksum_stored heven hlen
  · intro hmine hhis hlen hon
    exact udpWrite_good_iff hmine hhis hlen hon
  · intro hlen hon
    exact makeUdpPkt_good_iff hlen hon

/-- A buffer of three bytes, a checksum in its first word, and a datagram over IPv6. -/
theorem checksum_round_trip_three :
    (accumulate 0 [1, 2, 3]).toInt = 516 ∧
    inChecksum ([] ++ stored16 (~~~BitVec.ofNat 16 (inChecksum ([] ++ [0, 0] ++ [3]))) ++ [3]) = 65535 ∧
    GoodSum (pseudoOf { in6addrMyIp := List.replicate 16 1 } (echoSocket true) 0)
      (udpDatagram { in6addrMyIp := List.replicate 16 1 } (echoSocket true) []) := by
  have h := checksum_round_trip [1, 2, 3] [] [3] [] { in6addrMyIp := List.replicate 16 1 } (echoSocket true) {}
  exact ⟨(h.1 (by decide)).1, h.2.1 rfl (by decide), (h.2.2.1 rfl rfl (by decide) (.inl rfl)).mpr (.inl rfl)⟩

/-- The socket 10.0.0.1, port 60370, connected to 10.0.0.2, port 9. -/
def discardSocket : UdpSocket where
  myport := 0xebd2
  hisport := 9
  myaddr := 0x0a000001
  hisaddr := 0x0a000002

/-- An empty datagram from there: its checksum is sent as 0. -/
theorem checksum_zero : ¬ GoodSum (pseudoOf {} discardSocket 0) (udpDatagram {} discardSocket []) :=
  fun h => h.nonzero (by decide)

end Watt32.Udp
